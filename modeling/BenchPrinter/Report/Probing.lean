import BenchPrinter.Number.Fixed

/-!
The canned probing of the bed: sixteen points in rows of alternating direction, and the mesh that
results. The values are exact decimals.
-/

namespace BenchPrinter

/-- A probed point, in millimetres. -/
structure ProbePoint where
  x : Exact
  y : Exact
  z : Exact

namespace Probing

def banner : String := " G29 Auto Bed Leveling"

/-- So many keep-alives follow the banner and each point. -/
def busyPerStep : Nat := 3

def points : List ProbePoint :=
  [⟨50.0, 50.0, 0.000⟩,
   ⟨133.0, 50.0, 0.016⟩,
   ⟨216.0, 50.0, -0.013⟩,
   ⟨299.0, 50.0, -0.051⟩,
   ⟨299.0, 133.0, -0.005⟩,
   ⟨216.0, 133.0, -0.041⟩,
   ⟨133.0, 133.0, -0.031⟩,
   ⟨50.0, 133.0, -0.036⟩,
   ⟨50.0, 216.0, -0.050⟩,
   ⟨133.0, 216.0, 0.055⟩,
   ⟨216.0, 216.0, 0.051⟩,
   ⟨299.0, 216.0, 0.026⟩,
   ⟨299.0, 299.0, -0.018⟩,
   ⟨216.0, 299.0, -0.064⟩,
   ⟨133.0, 299.0, -0.036⟩,
   ⟨50.0, 299.0, -0.046⟩]

def mesh : List (List Exact) :=
  [[0.0, 0.0162, -0.0125, -0.0512],
   [-0.0363, -0.0313, -0.0412, -0.0050],
   [-0.0500, 0.0550, 0.0512, 0.0262],
   [-0.0463, -0.0363, -0.0638, -0.0175]]

def line (point : ProbePoint) : String :=
  "Bed X: " ++ point.x.fixed 3 ++ " Y: " ++ point.y.fixed 3 ++ " Z: " ++ point.z.fixed 3

/-- Column numbers are right-aligned in seven places. -/
def columnHeader (columns : Nat) : String :=
  String.join ((List.range columns).map fun column =>
    let digits := Nat.toDigits 10 column
    String.ofList (List.replicate (7 - digits.length) ' ' ++ digits))

def gridRow (row : Nat) (values : List Exact) : String :=
  " " ++ Nat.repr row ++ " " ++ " ".intercalate (values.map (·.fixedSigned 4))

/-- The title, the column numbers and one line for each row of the mesh. -/
def grid : List String :=
  "Bilinear Leveling Grid:" :: columnHeader 4 ::
    (mesh.zipIdx.map fun (values, row) => gridRow row values)

end Probing

end BenchPrinter
