import BenchPrinter.Text.Utf8

/-!
Cutting received bytes into lines. Bytes stay pending until their newline arrives, so a character
that two reads share is decoded whole.
-/

namespace BenchPrinter

def newline : UInt8 := 0x0A

def carriageReturn : UInt8 := 0x0D

/-- The bytes before the first newline, and the bytes after it. -/
def cutAtNewline? : List UInt8 → Option (List UInt8 × List UInt8)
  | [] => none
  | byte :: rest =>
      if byte = newline then some ([], rest)
      else (cutAtNewline? rest).map fun (line, after) => (byte :: line, after)

theorem cutAtNewline?_eq_some {bytes line after : List UInt8}
    (found : cutAtNewline? bytes = some (line, after)) :
    bytes = line ++ newline :: after ∧ newline ∉ line := by
  induction bytes generalizing line with
  | nil => simp [cutAtNewline?] at found
  | cons byte rest inductionHypothesis =>
      rw [cutAtNewline?] at found
      split at found
      · next isNewline => cases found; simp [isNewline]
      · next notNewline =>
          obtain ⟨⟨restLine, restAfter⟩, restFound, same⟩ := Option.map_eq_some_iff.1 found
          cases same
          obtain ⟨split, absent⟩ := inductionHypothesis restFound
          exact ⟨by simp [split], by simp [absent, Ne.symm notNewline]⟩

/-- At most one carriage return at the end is removed. -/
def dropReturn (line : List UInt8) : List UInt8 :=
  if line.getLast? = some carriageReturn then line.dropLast else line

/-- A received line is decoded without ever being refused. -/
def decodeLine (line : List UInt8) : String :=
  String.ofList (Utf8.decodeLossy (dropReturn line))

structure LineBuffer where
  pending : List UInt8
deriving DecidableEq

namespace LineBuffer

def empty : LineBuffer := ⟨[]⟩

def push (buffer : LineBuffer) (bytes : List UInt8) : LineBuffer :=
  ⟨buffer.pending ++ bytes⟩

/-- The first complete line leaves the buffer. -/
def nextLine (buffer : LineBuffer) : Option String × LineBuffer :=
  match cutAtNewline? buffer.pending with
  | some (line, after) => (some (decodeLine line), ⟨after⟩)
  | none => (none, buffer)

end LineBuffer

end BenchPrinter
