import BenchPrinter.Clock
import BenchPrinter.Failure
import BenchPrinter.Printer.State
import BenchPrinter.Thermal.Generator
import BenchPrinter.Thermal.Model

/-!
The board: a printer together with the room it stands in, its noise, its clock and its two
intervals.
-/

namespace BenchPrinter

/-- What a board is built from. The intervals are milliseconds; without a seed the noise is not
fixed. -/
structure BoardSettings (α : Type) where
  room : α
  hotend : HeaterProfile α
  bed : HeaterProfile α
  busyInterval : UInt64
  lineDelay : UInt64
  seed : Option UInt64

/-- A finite value is no infinity and no undefined number. -/
def Quantity.isFinite {α : Type} [Quantity α] (value : α) : Bool :=
  match Quantity.exact value with
  | .finite .. => true
  | _ => false

namespace BoardSettings

variable {α : Type} [Quantity α]

def standard : BoardSettings α :=
  { room := 20.0
    hotend := .standard .hotend
    bed := .standard .bed
    busyInterval := 1000
    lineDelay := 10
    seed := none }

def refused (reason : String) : Except Failure Unit :=
  .error (.firmware (.configurationError reason))

/-- A heater reaches its target only at a positive rate. -/
def checkProfile (id : HeaterId) (profile : HeaterProfile α) : Except Failure Unit :=
  if [profile.heatRate, profile.coolRate].any fun rate =>
      !Quantity.isFinite rate || decide (rate ≤ 0.0) then
    refused (id.name ++ " ramp rates must be positive")
  else if !Quantity.isFinite profile.noise || decide (profile.noise < 0.0) then
    refused (id.name ++ " noise must not be negative")
  else .ok ()

/-- The first rule that is broken is reported. -/
def check (settings : BoardSettings α) : Except Failure Unit :=
  if settings.busyInterval = 0 then refused "busy interval must be non-zero"
  else
    match checkProfile .hotend settings.hotend with
    | .ok () => checkProfile .bed settings.bed
    | refusal => refusal

end BoardSettings

structure Board (α : Type) where
  printer : Printer α
  room : α
  noise : Noise α
  clock : Clock
  busyInterval : UInt64
  lineDelay : UInt64

namespace Board

variable {α : Type} [Quantity α]

def name : String := "Marlin"

def powerUp (settings : BoardSettings α) (noise : Noise α) (clock : Clock) : Board α :=
  { printer := .powerUp settings.hotend settings.bed
    room := settings.room
    noise
    clock
    busyInterval := settings.busyInterval
    lineDelay := settings.lineDelay }

/-- Both heaters are brought up to the time of the clock. -/
def updateHeaters (board : Board α) : Board α :=
  let (heaters, noise) := board.printer.heaters.advance board.room board.clock.now board.noise
  { board with printer := { board.printer with heaters }, noise }

def isSettled (board : Board α) (id : HeaterId) : Bool :=
  (board.printer.heaters.get id).isSettled board.room

end Board

end BenchPrinter
