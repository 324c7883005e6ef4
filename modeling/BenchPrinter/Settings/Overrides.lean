import BenchPrinter.Settings.Basic

/-!
Values from the command line. Each one that is given takes the place of a setting.
-/

namespace BenchPrinter

structure Overrides where
  port : Option String
  baudRate : Option UInt32
  stdio : Bool
  seed : Option UInt64
  busyInterval : Option UInt64
deriving DecidableEq

namespace Overrides

def none : Overrides := ⟨.none, .none, false, .none, .none⟩

/-- The standard streams can be asked for, but not asked against. -/
def connection (overrides : Overrides) (settings : ConnectionSettings) : ConnectionSettings :=
  { settings with
    kind := if overrides.stdio then .stdio else settings.kind
    port := overrides.port.getD settings.port
    baudRate := overrides.baudRate.getD settings.baudRate }

def apply (overrides : Overrides) (settings : Settings) : Settings :=
  { settings with
    connection := overrides.connection settings.connection
    timing := { settings.timing with
      busyInterval := overrides.busyInterval.getD settings.timing.busyInterval }
    thermal := { settings.thermal with seed := overrides.seed.or settings.thermal.seed } }

end Overrides

end BenchPrinter
