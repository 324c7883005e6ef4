import BenchPrinter.Number.Numeral

/-!
Readers of text. A reader takes what it reads from the front of a text and hands over the rest.
-/

namespace BenchPrinter

/-- A reader gives a value and the text after it. -/
abbrev Reader (β : Type) := List Char → Option (β × List Char)

namespace Reader

/-- One item in front of the items that follow it. -/
def prepend {β : Type} (item : β) :
    Option (List β × List Char) → Option (List β × List Char)
  | some (items, rest) => some (item :: items, rest)
  | none => none

end Reader

/-- The longest run of digits, and what follows it. -/
def leadingDigits : List Char → List Nat × List Char
  | [] => ([], [])
  | character :: rest =>
      match asciiDigit? character with
      | some digit => (digit :: (leadingDigits rest).1, (leadingDigits rest).2)
      | none => ([], character :: rest)

/-- The number that digits spell in some base. -/
def spelled (base : Nat) (digits : List Nat) : Nat :=
  digits.foldl (fun number digit => base * number + digit) 0

def hexDigit? (character : Char) : Option Nat :=
  if '0' ≤ character ∧ character ≤ '9' then some (character.toNat - '0'.toNat)
  else if 'a' ≤ character ∧ character ≤ 'f' then some (character.toNat - 'a'.toNat + 10)
  else if 'A' ≤ character ∧ character ≤ 'F' then some (character.toNat - 'A'.toNat + 10)
  else none

/-- The number that the hexadecimal digits spell, continued from the digits before them. -/
def readHex : Nat → List Char → Option Nat
  | number, [] => some number
  | number, character :: rest =>
      match hexDigit? character with
      | some digit => readHex (16 * number + digit) rest
      | none => none

end BenchPrinter
