import BenchPrinter.Bench
import BenchPrinter.CommandLine.Arguments

/-!
What the program does for the arguments it is given. Most requests are done at once; a run leaves a
session to be held with a host.
-/

namespace BenchPrinter

/-- How the program ends: its exit code, what it printed, why it failed, and the files as it leaves
them. -/
structure Finish where
  code : UInt32
  printed : List UInt8
  complaint : String
  files : Files
deriving DecidableEq

namespace Finish

def success (text : String) (files : Files) : Finish := ⟨0, Utf8.encode text, "", files⟩

/-- Nothing is changed by a request that fails. -/
def failure (complaint : String) (files : Files) : Finish := ⟨1, [], complaint, files⟩

/-- Arguments that make no sense have an exit code of their own. -/
def misuse (files : Files) : Finish := ⟨2, [], "unexpected arguments", files⟩

end Finish

inductive Errand where
  | done (finish : Finish)
  | serve (settings : Settings) (session : Session Float Link)

namespace Errand

def versionText : String := "marlinsim 0.4.0\n"

def helpText : String :=
  "Marlin firmware simulator\n\nUsage: marlinsim [run | ports | write-config <PATH> | help]\n"

/-- The port that would be found is marked. -/
def portsText (ports : List PortInfo) : String :=
  let host := (PortInfo.findHost? ports).map (·.name)
  let line (port : PortInfo) : String :=
    port.name ++ ": " ++ port.description ++
      (if host = some port.name then "  <- host" else "") ++ "\n"
  if ports.isEmpty then "No serial port found\n" else String.join (ports.map line)

/-- The files that a job looks at before anything else. -/
def paths (environment : Environment) : Job → List String
  | .run (some path) _ => [path]
  | .run none _ =>
      match environment.defaultPath with
      | .ok path => [path]
      | .error _ => []
  | .writeSettings path => [path]
  | _ => []

def ofJob (bench : Bench) : Job → Errand
  | .help => .done (.success helpText bench.files)
  | .version => .done (.success versionText bench.files)
  | .listPorts => .done (.success (portsText bench.ports) bench.files)
  | .writeSettings path =>
      match Settings.standard.save bench.files path with
      | .ok files => .done (.success ("Wrote default configuration to " ++ path ++ "\n") files)
      | .error failure => .done (.failure failure.message bench.files)
  | .run path overrides =>
      match bench.startSession path overrides with
      | .ok (settings, session) => .serve settings session
      | .error complaint => .done (.failure complaint bench.files)

def ofArguments (bench : Bench) (arguments : List String) : Errand :=
  match Arguments.read arguments with
  | some job => ofJob bench job
  | none => .done (.misuse bench.files)

/-- The desk of a run has no token that could be set. -/
def desk : Desk Link := .sharing Link.transport fun _ => false

/-- A session that ends well is a success, whatever was said in it. -/
def complete (bench : Bench) (patience : Nat) : Errand → Finish
  | .done finish => finish
  | .serve settings session =>
      let (outcome, session) := session.run desk settings.session patience
      match outcome with
      | .ok _ => ⟨0, session.link.printed, "", bench.files⟩
      | .error (.failed failure) => ⟨1, session.link.printed, failure.message, bench.files⟩
      | .error .outOfPatience => ⟨1, session.link.printed, "out of patience", bench.files⟩

end Errand

end BenchPrinter
