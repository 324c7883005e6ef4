import BenchPrinter.Printer.State

/-!
The texts that the printer sends. Temperatures and coordinates have two decimals.
-/

namespace BenchPrinter.Report

/-- The acknowledgement ends the answer to a command. -/
def acknowledgement : String := "ok"

/-- The keep-alive tells the host that a long operation is still running. -/
def busy : String := "echo:busy: processing"

def acknowledged (text : String) : String :=
  text ++ "\n" ++ acknowledgement

variable {α : Type} [Quantity α]

/-- One heater is reported by its label, its temperature and its target. -/
def heater (id : HeaterId) (state : Heater α) : String :=
  id.label ++ ":" ++ Quantity.fixed 2 state.value ++ " /" ++ Quantity.fixed 2 state.target

/-- A report without an acknowledgement keeps its leading blank. -/
def temperatures (heaters : Heaters α) (acknowledge : Bool) : String :=
  (if acknowledge then "ok " else " ") ++ heater .hotend heaters.hotend ++ " " ++
    heater .bed heaters.bed ++ " @:127 B@:0"

def position (place : Position α) : String :=
  acknowledged ("X:" ++ Quantity.fixed 2 place.x ++ " Y:" ++ Quantity.fixed 2 place.y ++
    " Z:" ++ Quantity.fixed 2 place.z ++ " E:0.00 Count X:0 Y:0 Z:0")

def feedRate (percent : String) : String :=
  acknowledged ("FR:" ++ percent ++ "%")

def fanOff (fan : String) : String :=
  acknowledged ("M106 P" ++ fan ++ " S0")

end BenchPrinter.Report
