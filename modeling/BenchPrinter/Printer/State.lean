import BenchPrinter.Printer.Axis
import BenchPrinter.Printer.Heater

/-!
The state of the printer between two lines: where the axes are, how coordinates are read, and the
two heaters.
-/

namespace BenchPrinter

structure Printer (α : Type) where
  position : Position α
  mode : AxisMode
  heaters : Heaters α
deriving BEq

namespace Printer

variable {α : Type} [Quantity α]

/-- At power-up the axes stand at the origin and both heaters are off. -/
def powerUp (hotend bed : HeaterProfile α) : Printer α :=
  ⟨.origin, .absolute, ⟨.cold hotend, .cold bed⟩⟩

def standard : Printer α := powerUp (.standard .hotend) (.standard .bed)

def move (printer : Printer α) (axis : Axis) (value : α) : Printer α :=
  { printer with position := printer.position.move printer.mode axis value }

def home (printer : Printer α) (axes : List Axis) : Printer α :=
  { printer with position := printer.position.home axes }

end Printer

end BenchPrinter
