import BenchPrinter.Link.Host
import BenchPrinter.Link.Port
import BenchPrinter.Settings.File

/-!
The bench that a simulated printer stands on: everything outside of it that it can be connected to.
-/

namespace BenchPrinter

/-- The known ports, what the devices on ports will do, the standard streams as one device, the
files, the environment, and the seed that is used when the settings have none. -/
structure Bench where
  ports : List PortInfo
  devices : List (String × Device)
  standardStreams : Device
  files : Files
  environment : Environment
  entropy : UInt64
deriving DecidableEq

namespace Bench

/-- Why a port without a device cannot be opened. A file is no terminal. -/
def refusal (files : Files) (port : String) : String :=
  match files.read port with
  | .ok _ => "Not a typewriter"
  | .error fault => fault.text

def openSerial (bench : Bench) (port : String) (baudRate : UInt32) : Except Failure SerialLink :=
  if baudRate = 0 then .error (.connection (.invalidParameters "baud rate must be non-zero"))
  else
    match bench.devices.lookup port with
    | some device => .ok (.ofPort port device)
    | none => .error (.connection (.failedToOpen port (refusal bench.files port)))

/-- Ports are looked for only when the settings name none. -/
def openLink (bench : Bench) (settings : ConnectionSettings) : Except Failure Link :=
  match settings.kind with
  | .stdio => .ok (.stream (.ofDevice "stdio" bench.standardStreams))
  | .serial =>
      match settings.resolvePort bench.ports with
      | .error failure => .error failure
      | .ok port => (bench.openSerial port settings.baudRate).map .serial

/-- The settings are prepared, the link is opened, and then the board is powered up. -/
def startSession (bench : Bench) (path : Option String) (overrides : Overrides) :
    Except String (Settings × Session Float Link) :=
  match Settings.prepare bench.files bench.environment path overrides with
  | .error failure => .error failure.headline
  | .ok settings =>
      match bench.openLink settings.connection with
      | .error failure => .error failure.message
      | .ok link =>
          match settings.startSession (.seeded bench.entropy) ⟨0⟩ link with
          | .error failure => .error failure.message
          | .ok session => .ok (settings, session)

end Bench

end BenchPrinter
