/-!
Decoding UTF-8. The decoder reads one byte at a time. A byte that cannot continue the character
begun before it ends that character early: the bytes of it so far count as one fault, and the byte
is read again as the beginning of the next character.
-/

namespace BenchPrinter.Utf8

/-- Between two characters, or inside one: the bits so far, how many bytes are still missing, and
the range of the next byte. -/
inductive State where
  | between
  | inside (bits : Nat) (missing : Nat) (lowest highest : Nat)
deriving DecidableEq

/-- A decoded character, or the fault that stands for an undecodable run of bytes. -/
abbrev Item := Option Char

/-- What the first byte of a character says about the bytes that follow it. -/
def begin (byte : Nat) : List Item × State :=
  if byte < 0x80 then ([some (Char.ofNat byte)], .between)
  else if byte < 0xC2 then ([none], .between)
  else if byte < 0xE0 then ([], .inside (byte - 0xC0) 1 0x80 0xBF)
  else if byte < 0xF0 then
    ([], .inside (byte - 0xE0) 2 (if byte = 0xE0 then 0xA0 else 0x80)
      (if byte = 0xED then 0x9F else 0xBF))
  else if byte < 0xF5 then
    ([], .inside (byte - 0xF0) 3 (if byte = 0xF0 then 0x90 else 0x80)
      (if byte = 0xF4 then 0x8F else 0xBF))
  else ([none], .between)

/-- The items that a byte completes, and the state after it. -/
def step : State → Nat → List Item × State
  | .between, byte => begin byte
  | .inside bits missing lowest highest, byte =>
      if lowest ≤ byte ∧ byte ≤ highest then
        let bits := bits * 64 + (byte - 0x80)
        if missing ≤ 1 then ([some (Char.ofNat bits)], .between)
        else ([], .inside bits (missing - 1) 0x80 0xBF)
      else
        let (items, state) := begin byte
        (none :: items, state)

/-- A character that the end of the input cuts off is a fault. -/
def finish : State → List Item
  | .between => []
  | .inside .. => [none]

def scan : State → List UInt8 → List Item
  | state, [] => finish state
  | state, byte :: rest =>
      let (items, next) := step state byte.toNat
      items ++ scan next rest

/-- Each fault becomes one replacement character. -/
def decodeLossy (bytes : List UInt8) : List Char :=
  (scan .between bytes).map (·.getD '\uFFFD')

/-- A single fault refuses the whole input. -/
def decode? (bytes : List UInt8) : Option (List Char) :=
  (scan .between bytes).mapM id

def encode (text : String) : List UInt8 :=
  text.toUTF8.toList

end BenchPrinter.Utf8
