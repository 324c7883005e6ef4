import BenchPrinter.CommandLine.Errand

/-!
The program. It looks at the files and the environment around it, finds out what it is asked to do,
and does it on the real streams. Time passes here: what the board waits for is slept through before
the next line goes out.
-/

namespace BenchPrinter.Program

/-- The folder or the file at a path, if there is one. -/
def survey (path : String) (place : Place) (files : Files) : IO Files := do
  try
    let found ← IO.FS.realPath path
    if ← found.isDir then
      return { files with folders := place :: files.folders }
    let content ← IO.FS.readBinFile path
    return files.put place content.toList
  catch _ => return files

/-- Everything on the way to a path, and what is at its end. -/
def surveyPath (files : Files) (path : String) : IO Files := do
  let parts := FilePath.partsOf path
  let start : Place := if FilePath.isAbsolute path then [] else files.working
  let named := parts.filter fun part => part ≠ "" && part ≠ "."
  let mut seen := files
  for count in List.range (named.length + 1) do
    let front := named.take count
    let text := (if FilePath.isAbsolute path then "/" else "./") ++ String.intercalate "/" front
    let place := front.foldl
      (fun place part => if part = ".." then place.dropLast else place ++ [part]) start
    seen ← survey text place seen
  return seen

/-- A port that is neither a folder nor a regular file is taken for a device. -/
def isDevice (port : String) : IO Bool := do
  try
    let found ← IO.FS.realPath port
    match (← found.metadata).type with
    | .other => return true
    | _ => return false
  catch _ => return false

/-- The named port, when the settings ask for one and it is a device. -/
def devicePort? (files : Files) (environment : Environment) : Job → IO (Option String)
  | .run path overrides => do
      match Settings.prepare files environment path overrides with
      | .ok settings =>
          if settings.connection.kind = .serial ∧ (← isDevice settings.connection.port) then
            return some settings.connection.port
          else return none
      | .error _ => return none
  | _ => return none

def readEnvironment : IO Environment := do
  return {
    settingsPath := ← IO.getEnv "MARLINSIM_CONFIG"
    configHome := ← IO.getEnv "XDG_CONFIG_HOME"
    home := ← IO.getEnv "HOME" }

/-- The bench as it is found. The devices do nothing before the session begins. -/
def findBench (arguments : List String) : IO Bench := do
  let environment ← readEnvironment
  let working := (FilePath.partsOf (← IO.currentDir).toString).filter (· ≠ "")
  let folders := (List.range (working.length + 1)).map working.take
  let mut files : Files := ⟨working, folders, []⟩
  let mut devices := []
  if let some job := Arguments.read arguments then
    for path in Errand.paths environment job do
      files ← surveyPath files path
    if let some port ← devicePort? files environment job then
      devices := [(port, ⟨[], [], [], #[]⟩)]
  return {
    ports := []
    devices
    standardStreams := ⟨[], [], [], #[]⟩
    files, environment
    entropy := (← IO.rand 0 (UInt64.size - 1)).toUInt64 }

/-- Files that were not there before are written. -/
def writeFiles (before after : Files) : IO Unit := do
  for (place, content) in after.contents do
    if before.content? place ≠ some content then
      IO.FS.writeBinFile ("/" ++ String.intercalate "/" place) ⟨content.toArray⟩

/-- One line with its line end, and what was read beyond it. At the end of the input the line is
what is left. -/
partial def readLine (input : IO.FS.Stream) (pending : List UInt8) :
    IO (List UInt8 × List UInt8) := do
  match cutAtNewline? pending with
  | some (line, rest) => return (line ++ [newline], rest)
  | none =>
      let chunk ← input.read 4096
      if chunk.isEmpty then return (pending, []) else readLine input (pending ++ chunk.toList)

def perform (output : IO.FS.Stream) : Action → IO Unit
  | .slept milliseconds => IO.sleep milliseconds.toUInt32
  | .sent line => do
      output.write (line ++ "\n").toUTF8
      output.flush
  | .refused _ => return

/-- A wait of the board that takes more rounds is given up. -/
def patience : Nat := 100000

/-- Turn after turn, until one of them ends the session. The board's clock follows the real one. -/
partial def serve (input output : IO.FS.Stream) (settings : SessionSettings) (began : Nat)
    (pending : List UInt8) (session : Session Float Link) : IO UInt32 := do
  let (link, pending) ←
    if session.link.reads.isEmpty then do
      let (line, pending) ← readLine input pending
      pure (session.link.feed (.bytes line), pending)
    else pure (session.link, pending)
  let clock : Clock := ⟨((← IO.monoMsNow) - began).toUInt64⟩
  let session := { session with link, board := { session.board with clock } }
  let exchange := session.turn Errand.desk settings patience
  exchange.actions.forM (perform output)
  match exchange.outcome with
  | .ok none =>
      if exchange.actions.isEmpty then IO.sleep settings.pollInterval.toUInt32
      serve input output settings began pending exchange.session
  | .ok (some _) => return 0
  | .error (.failed failure) =>
      IO.eprintln ("Error: " ++ failure.message)
      return 1
  | .error .outOfPatience =>
      IO.eprintln "Error: the heater does not settle"
      return 1

/-- The streams of a link: those of the program, or the device twice. -/
def streamsOf (link : Link) : IO (IO.FS.Stream × IO.FS.Stream) := do
  match link with
  | .stream _ => return (← IO.getStdin, ← IO.getStdout)
  | .serial port =>
      let handle ← IO.FS.Handle.mk port.name .readWrite
      return (.ofHandle handle, .ofHandle handle)

def carryOut (bench : Bench) : Errand → IO UInt32
  | .done finish => do
      writeFiles bench.files finish.files
      let output ← IO.getStdout
      output.write ⟨finish.printed.toArray⟩
      unless finish.complaint.isEmpty do IO.eprintln ("Error: " ++ finish.complaint)
      return finish.code
  | .serve settings session => do
      let (input, output) ← streamsOf session.link
      serve input output settings.session (← IO.monoMsNow) [] session

end BenchPrinter.Program

def main (arguments : List String) : IO UInt32 := do
  let bench ← BenchPrinter.Program.findBench arguments
  BenchPrinter.Program.carryOut bench (BenchPrinter.Errand.ofArguments bench arguments)
