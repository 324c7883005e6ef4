import BenchPrinter.Document.Json.Text

/-!
Texts in JSON, written and read. Every text comes back, whatever its characters are.
-/

namespace BenchPrinter

theorem lastDigits_four (base number : Nat) :
    ∃ first second third fourth, lastDigits base 4 number = [first, second, third, fourth] :=
  ⟨_, _, _, _, rfl⟩

namespace Json

/-- The piece that a character is read as after it was escaped. -/
def pieceOf (character : Char) : Piece :=
  if character.toNat < 0x20 ∧ character ∉ ['\x08', '\x0c', '\n', '\r', '\t'] then
    .unit character.toNat
  else .character character

theorem readHex_lastDigits :
    ∀ code < 0x20, readHex 0 (lastDigits 16 4 code) = some code := by
  decide

theorem pieces?_escape (character : Char) (rest : List Char) :
    pieces? (escape character ++ rest) = Reader.prepend (pieceOf character) (pieces? rest) := by
  unfold escape
  split
  · rfl
  · rfl
  · rfl
  · rfl
  · rfl
  · rfl
  · rfl
  · rename_i quote backslash backspace feed line carriage tab
    by_cases control : character.toNat < 0x20
    · have piece : pieceOf character = .unit character.toNat := by
        refine if_pos ⟨control, ?_⟩
        simp only [List.mem_cons, List.not_mem_nil, or_false, not_or]
        exact ⟨backspace, feed, line, carriage, tab⟩
      have hex := readHex_lastDigits _ control
      obtain ⟨first, second, third, fourth, digits⟩ := lastDigits_four 16 character.toNat
      rw [digits] at hex
      rw [if_pos control, digits, piece, List.cons_append, List.cons_append, List.cons_append,
        List.cons_append, List.cons_append, List.cons_append, List.nil_append, pieces?, hex]
    · have piece : pieceOf character = .character character :=
        if_neg fun inside => control inside.1
      rw [if_neg control, piece, List.cons_append, List.nil_append, pieces?]
      · exact if_neg (not_or.2 ⟨backslash, control⟩)
      · exact quote
      · exact fun _ _ _ _ _ same _ => backslash same
      · exact fun _ _ same _ => backslash same

theorem pieces?_writeText (text rest : List Char) :
    pieces? (text.flatMap escape ++ '"' :: rest) = some (text.map pieceOf, rest) := by
  induction text with
  | nil => rfl
  | cons character text inductionHypothesis =>
      rw [List.flatMap_cons, List.append_assoc, pieces?_escape, inductionHypothesis]
      rfl

/-- A code unit that is no surrogate stands alone. -/
theorem joined?_unit {code : Nat} (low : isLowSurrogate code = false)
    (high : isHighSurrogate code = false) (pieces : List Piece) :
    joined? (.unit code :: pieces) = (joined? pieces).map (Char.ofNat code :: ·) := by
  rcases pieces with _ | ⟨_ | _, pieces⟩ <;> simp [joined?, low, high]

theorem joined?_pieceOf (text : List Char) : joined? (text.map pieceOf) = some text := by
  induction text with
  | nil => rfl
  | cons character text inductionHypothesis =>
      rw [List.map_cons, pieceOf]
      split
      · rename_i escaped
        have small := escaped.1
        have low : isLowSurrogate character.toNat = false := by
          simp only [isLowSurrogate, Bool.and_eq_false_iff, decide_eq_false_iff_not]
          omega
        have high : isHighSurrogate character.toNat = false := by
          simp only [isHighSurrogate, Bool.and_eq_false_iff, decide_eq_false_iff_not]
          omega
        rw [joined?_unit low high, inductionHypothesis, Char.ofNat_toNat]
        rfl
      · rw [joined?, inductionHypothesis]
        rfl

end Json

end BenchPrinter
