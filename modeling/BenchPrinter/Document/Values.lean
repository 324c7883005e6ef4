import BenchPrinter.Document.Data
import BenchPrinter.Printer.State

/-!
The values of a printer as documents. A choice is written as its name, a structure as a record of
its fields.
-/

namespace BenchPrinter

namespace AxisMode

def names : List (String × AxisMode) := [("Absolute", absolute), ("Relative", relative)]

def data : AxisMode → Data
  | absolute => .text "Absolute"
  | relative => .text "Relative"

def ofData? (dialect : Dialect) : Data → Option AxisMode := Data.choice? dialect names

end AxisMode

namespace Axis

def names : List (String × Axis) := [("X", x), ("Y", y), ("Z", z)]

def data : Axis → Data
  | x => .text "X"
  | y => .text "Y"
  | z => .text "Z"

def ofData? (dialect : Dialect) : Data → Option Axis := Data.choice? dialect names

end Axis

namespace HeaterId

def names : List (String × HeaterId) := [("Hotend", hotend), ("Bed", bed)]

def data : HeaterId → Data
  | hotend => .text "Hotend"
  | bed => .text "Bed"

def ofData? (dialect : Dialect) : Data → Option HeaterId := Data.choice? dialect names

end HeaterId

namespace Position

def data (position : Position Float) : Data :=
  .record [("x", .decimal position.x), ("y", .decimal position.y), ("z", .decimal position.z)]

/-- No coordinate may be missing. -/
def ofData? (dialect : Dialect) (data : Data) : Option (Position Float) := do
  let field ← data.fields? dialect ["x", "y", "z"]
  let x ← Data.required? Data.double? (field "x")
  let y ← Data.required? Data.double? (field "y")
  let z ← Data.required? Data.double? (field "z")
  return ⟨x, y, z⟩

end Position

namespace HeaterProfile

def fieldNames : List String := ["heat_rate", "cool_rate", "noise"]

def data (profile : HeaterProfile Float) : Data :=
  .record [("heat_rate", .decimal profile.heatRate), ("cool_rate", .decimal profile.coolRate),
    ("noise", .decimal profile.noise)]

/-- No constant may be missing. -/
def ofData? (dialect : Dialect) (data : Data) : Option (HeaterProfile Float) := do
  let field ← data.fields? dialect fieldNames
  let heatRate ← Data.required? Data.double? (field "heat_rate")
  let coolRate ← Data.required? Data.double? (field "cool_rate")
  let noise ← Data.required? Data.double? (field "noise")
  return ⟨heatRate, coolRate, noise⟩

/-- A constant that is missing or null is taken from another profile. -/
def overlay? (dialect : Dialect) (base : HeaterProfile Float) (data : Data) :
    Option (HeaterProfile Float) := do
  let field ← data.fields? dialect fieldNames
  let heatRate ← Data.orDefault (Data.optional? Data.double?) none (field "heat_rate")
  let coolRate ← Data.orDefault (Data.optional? Data.double?) none (field "cool_rate")
  let noise ← Data.orDefault (Data.optional? Data.double?) none (field "noise")
  return ⟨heatRate.getD base.heatRate, coolRate.getD base.coolRate, noise.getD base.noise⟩

end HeaterProfile

end BenchPrinter
