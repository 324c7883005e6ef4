import BenchPrinter.Number.Quantity

/-!
Axes, axis modes and positions. In absolute mode a coordinate on a line is the new coordinate; in
relative mode it is added to the old one.
-/

namespace BenchPrinter

inductive Axis where
  | x
  | y
  | z
deriving DecidableEq

namespace Axis

def all : List Axis := [x, y, z]

theorem mem_all (axis : Axis) : axis ∈ all := by
  cases axis <;> simp [all]

def letter : Axis → Char
  | x => 'X'
  | y => 'Y'
  | z => 'Z'

end Axis

inductive AxisMode where
  | absolute
  | relative
deriving DecidableEq

/-- The coordinates are millimetres. -/
structure Position (α : Type) where
  x : α
  y : α
  z : α
deriving BEq, DecidableEq

namespace Position

variable {α : Type} [Quantity α]

def origin : Position α := ⟨0.0, 0.0, 0.0⟩

omit [Quantity α] in
def get (position : Position α) : Axis → α
  | .x => position.x
  | .y => position.y
  | .z => position.z

omit [Quantity α] in
def set (position : Position α) (axis : Axis) (value : α) : Position α :=
  match axis with
  | .x => { position with x := value }
  | .y => { position with y := value }
  | .z => { position with z := value }

omit [Quantity α] in
@[simp] theorem get_set (position : Position α) (axis other : Axis) (value : α) :
    (position.set axis value).get other = if other = axis then value else position.get other := by
  cases axis <;> cases other <;> simp [get, set]

/-- A commanded coordinate replaces the old one or is added to it. -/
def move (mode : AxisMode) (position : Position α) (axis : Axis) (value : α) : Position α :=
  match mode with
  | .absolute => position.set axis value
  | .relative => position.set axis (position.get axis + value)

/-- The named axes go to zero. -/
def home (position : Position α) (axes : List Axis) : Position α :=
  axes.foldl (fun position axis => position.set axis 0.0) position

theorem get_home (position : Position α) (axes : List Axis) (axis : Axis) :
    (position.home axes).get axis = if axis ∈ axes then 0.0 else position.get axis := by
  induction axes generalizing position with
  | nil => simp [home]
  | cons first rest inductionHypothesis =>
      have step : position.home (first :: rest) = (position.set first 0.0).home rest := rfl
      rw [step, inductionHypothesis]
      by_cases inRest : axis ∈ rest <;> by_cases isFirst : axis = first <;> simp [inRest, isFirst]

end Position

end BenchPrinter
