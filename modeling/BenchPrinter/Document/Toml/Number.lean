import BenchPrinter.Document.Data
import BenchPrinter.Document.Reader

/-!
Numbers in TOML. Digits may be grouped by single underscores. An integer must fit 64 bits with sign;
a number with a fraction or an exponent denotes the nearest double, and only a positive one may not
be infinite.
-/

namespace BenchPrinter.Toml

/-- More digits of a run that has begun; an underscore stands between two digits. -/
def moreDigits (digit? : Char → Option Nat) : List Char → List Nat × List Char
  | '_' :: character :: rest =>
      match digit? character with
      | some digit => (digit :: (moreDigits digit? rest).1, (moreDigits digit? rest).2)
      | none => ([], '_' :: character :: rest)
  | character :: rest =>
      match digit? character with
      | some digit => (digit :: (moreDigits digit? rest).1, (moreDigits digit? rest).2)
      | none => ([], character :: rest)
  | [] => ([], [])

/-- A run of digits begins with a digit. -/
def digits? (digit? : Char → Option Nat) : Reader (List Nat)
  | character :: rest =>
      match digit? character with
      | some digit =>
          some (digit :: (moreDigits digit? rest).1, (moreDigits digit? rest).2)
      | none => none
  | [] => none

/-- A sign, and the text after it. -/
def sign (text : List Char) : Bool × List Char := Numeral.splitSign text

/-- The digits in front of the point; a zero stands alone. -/
def wholeDigits? : Reader (List Nat)
  | '0' :: rest => some ([0], rest)
  | text => digits? asciiDigit? text

/-- The digits after the point, when there is one. -/
def fractionDigits? : Reader (List Nat)
  | '.' :: rest => digits? asciiDigit? rest
  | text => some ([], text)

/-- The exponent, when there is one. -/
def power? : Reader (Option Int)
  | mark :: rest =>
      if mark = 'e' ∨ mark = 'E' then
        let (negative, body) := sign rest
        match digits? asciiDigit? body with
        | some (run, rest) =>
            let size : Int := spelled 10 run
            some (some (if negative then -size else size), rest)
        | none => none
      else some (none, mark :: rest)
  | [] => some (none, [])

/-- Signed integers of 64 bits. -/
def isInRange (value : Int) : Bool := -twoTo 63 ≤ value && value < twoTo 63

def signed (negative : Bool) (magnitude : Float) : Float :=
  if negative then -magnitude else magnitude

/-- A number in the decimal system. -/
def decimal? : Reader Data :=
  fun text =>
    let (negative, body) := sign text
    match wholeDigits? body with
    | none => none
    | some (whole, rest) =>
        match fractionDigits? rest with
        | none => none
        | some (fraction, rest) =>
            match power? rest with
            | none => none
            | some (power, rest) =>
                if fraction.isEmpty ∧ power.isNone then
                  let size : Int := spelled 10 whole
                  let value := if negative then -size else size
                  if isInRange value then some (.integer value, rest) else none
                else
                  let magnitude :=
                    nearestDouble (spelled 10 (whole ++ fraction)) (power.getD 0 - fraction.length)
                  if magnitude.isInf ∧ !negative then none
                  else some (.decimal (signed negative magnitude), rest)

def digitBelow (base : Nat) (character : Char) : Option Nat :=
  match hexDigit? character with
  | some digit => if digit < base then some digit else none
  | none => none

/-- An integer in another base has no sign. -/
def based? (base : Nat) : Reader Data :=
  fun text =>
    match digits? (digitBelow base) text with
    | some (run, rest) =>
        if isInRange (spelled base run) then some (.integer (spelled base run), rest) else none
    | none => none

/-- The numbers without digits. -/
def special? : Reader Data :=
  fun text =>
    let (negative, body) := sign text
    match body with
    | 'i' :: 'n' :: 'f' :: rest => some (.decimal (signed negative (1.0 / 0.0)), rest)
    | 'n' :: 'a' :: 'n' :: rest => some (.decimal (signed negative (0.0 / 0.0)), rest)
    | _ => none

def number? : Reader Data
  | '0' :: 'x' :: rest => based? 16 rest
  | '0' :: 'o' :: rest => based? 8 rest
  | '0' :: 'b' :: rest => based? 2 rest
  | text =>
      match special? text with
      | some result => some result
      | none => decimal? text

end BenchPrinter.Toml
