import BenchPrinter.Board.State
import BenchPrinter.Session

/-!
The settings of a simulated printer, in four sections: the link to the host, the timing of the work,
the temperatures, and the host's log lines. Times are in milliseconds.
-/

namespace BenchPrinter

/-- A board answers on a serial port or on its standard streams. -/
inductive LinkKind where
  | serial
  | stdio
deriving DecidableEq

structure ConnectionSettings where
  kind : LinkKind
  port : String
  baudRate : UInt32
  readTimeout : UInt64
  pollInterval : UInt64
deriving DecidableEq

namespace ConnectionSettings

def standard : ConnectionSettings := ⟨.serial, "Auto", 115200, 10, 10⟩

/-- The port is to be found when its name is empty or `auto`, in capitals or not. -/
def seeksPort (settings : ConnectionSettings) : Bool :=
  settings.port.toList.isEmpty || settings.port.toList.map Char.toLower = "auto".toList

end ConnectionSettings

structure TimingSettings where
  busyInterval : UInt64
  lineDelay : UInt64
deriving DecidableEq

def TimingSettings.standard : TimingSettings := ⟨1000, 10⟩

structure ThermalSettings where
  room : Float
  seed : Option UInt64
  hotend : HeaterProfile Float
  bed : HeaterProfile Float
deriving BEq

def ThermalSettings.standard : ThermalSettings :=
  ⟨20.0, none, .standard .hotend, .standard .bed⟩

/-- Lines that begin with the ignored start are log lines of the host. -/
structure Settings where
  connection : ConnectionSettings
  timing : TimingSettings
  thermal : ThermalSettings
  ignoredStart : String
deriving BEq

namespace Settings

def standard : Settings := ⟨.standard, .standard, .standard, "["⟩

/-- The board is built from the timing and the temperatures. -/
def board (settings : Settings) : BoardSettings Float where
  room := settings.thermal.room
  hotend := settings.thermal.hotend
  bed := settings.thermal.bed
  busyInterval := settings.timing.busyInterval
  lineDelay := settings.timing.lineDelay
  seed := settings.thermal.seed

def session (settings : Settings) : SessionSettings :=
  ⟨settings.ignoredStart, settings.connection.pollInterval⟩

/-- Without a seed the noise is the one that is given. -/
def noise (settings : Settings) (unseeded : Noise Float) : Noise Float :=
  match settings.thermal.seed with
  | some seed => .seeded seed
  | none => unseeded

/-- The board has rules of its own, which are checked before it is powered up. -/
def startSession {σ : Type} (settings : Settings) (unseeded : Noise Float) (clock : Clock)
    (link : σ) : Except Failure (Session Float σ) :=
  match settings.board.check with
  | .ok () =>
      .ok (.start (.powerUp settings.board (settings.noise unseeded) clock) link)
  | .error failure => .error failure

end Settings

end BenchPrinter
