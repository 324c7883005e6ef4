import BenchPrinter.Printer.Heater
import BenchPrinter.Printer.Axis

/-!
The command table. The first entry whose code a line carries wins, so the order matters: `G1` hides
`G10` to `G19`. A numbered line carries a code wherever the code occurs in it.
-/

namespace BenchPrinter

inductive Command where
  | linearMove
  | home
  | probeBed
  | axisMode (mode : AxisMode)
  | setTarget (heater : HeaterId)
  | heatAndWait (heater : HeaterId)
  | reportTemperatures
  | reportPosition
  | fanOn
  | fanOff
  | feedRate
deriving DecidableEq

namespace Command

def table : List (String × Command) :=
  [("G0", linearMove),
   ("G1", linearMove),
   ("G28", home),
   ("G29 V4", probeBed),
   ("G90", axisMode .absolute),
   ("G91", axisMode .relative),
   ("M104", setTarget .hotend),
   ("M105", reportTemperatures),
   ("M106", fanOn),
   ("M107", fanOff),
   ("M109", heatAndWait .hotend),
   ("M114", reportPosition),
   ("M140", setTarget .bed),
   ("M190", heatAndWait .bed),
   ("M220", feedRate)]

end Command

/-- The code occurs at some position of the text. -/
def occursIn (code : List Char) : List Char → Bool
  | [] => code.isEmpty
  | first :: rest => code.isPrefixOf (first :: rest) || occursIn code rest

/-- A plain line carries the code it starts with. -/
def carries (line code : List Char) : Bool :=
  code.isPrefixOf line || (line.head? == some 'N' && occursIn code line)

namespace Command

def find? (line : List Char) : Option (String × Command) :=
  table.find? fun entry => carries line entry.1.toList

/-- A line that no command claims is acknowledged when it looks like a command. -/
def fallback (line : List Char) : String :=
  match line.head? with
  | some letter => if letter = 'G' ∨ letter = 'M' ∨ letter = 'N' then "ok" else ""
  | none => ""

end Command

end BenchPrinter
