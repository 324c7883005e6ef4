/-!
Blank characters and trimming. A character is blank when Unicode gives it the property
`White_Space`.
-/

namespace BenchPrinter

/-- These are the blank code points, single ones and the two ranges. -/
def isBlank (character : Char) : Bool :=
  let code := character.toNat
  (9 ≤ code && code ≤ 13) || (0x2000 ≤ code && code ≤ 0x200A) ||
    [0x20, 0x85, 0xA0, 0x1680, 0x2028, 0x2029, 0x202F, 0x205F, 0x3000].contains code

/-- Every blank of the core library is blank here. -/
theorem isBlank_of_isWhitespace (character : Char) (blank : character.isWhitespace = true) :
    isBlank character = true := by
  simp only [Char.isWhitespace, Bool.or_eq_true, decide_eq_true_eq] at blank
  rcases blank with ((rfl | rfl) | rfl) | rfl <;> rfl

/-- The blanks at the end are removed. -/
def dropTrailing (drops : Char → Bool) (text : List Char) : List Char :=
  (text.reverse.dropWhile drops).reverse

/-- The blanks at both ends are removed. -/
def trim (text : List Char) : List Char :=
  dropTrailing isBlank (text.dropWhile isBlank)

def trimText (text : String) : String :=
  String.ofList (trim text.toList)

end BenchPrinter
