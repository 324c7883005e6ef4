import BenchPrinter.Proofs.Buffering
import BenchPrinter.Proofs.Replacement

/-!
Decoding line by line. No longer character contains a newline, and every broken run ends in front of
one. So it does not matter whether bytes are cut into lines before they are decoded or after: the
same replacement characters stand in the same lines.
-/

namespace BenchPrinter

namespace Utf8

section

variable {single : UInt8} {character : Char} {bytes run later after : List UInt8}
  {text rest : List Char}

/-- No longer character goes on with a byte of the first half. -/
theorem ends_before_single (small : single.toNat < 0x80)
    (encoded : String.utf8EncodeChar character = [single]) (filled : run ≠ [])
    (begins : Begins bytes) (leads : bytes <+: run ++ single :: after) : bytes <+: run := by
  rcases Nat.lt_or_ge run.length bytes.length with long | short
  · have through : run ++ [single] <+: bytes :=
      List.prefix_of_prefix_length_le ⟨after, List.append_assoc _ _ _⟩ leads
        (by rwa [List.length_append])
    obtain ⟨other, within⟩ := begins
    have whole := through.trans within
    obtain rfl : other = character := eq_of_mem_char small encoded (whole.subset (by simp))
    have length := whole.length_le
    rw [encoded] at length
    exact absurd (by simpa using length) filled
  · exact List.prefix_of_prefix_length_le leads (List.prefix_append run _) short

theorem Broken.before_single (small : single.toNat < 0x80)
    (encoded : String.utf8EncodeChar character = [single]) (broken : Broken run later) :
    Broken run (later ++ single :: after) := by
  have filled : run ++ later ≠ [] := by simp [broken.filled]
  refine ⟨broken.filled, fun other leads => ?_, broken.begun, fun longer begins leads => ?_⟩ <;>
    rw [← List.append_assoc] at leads
  · exact broken.unreadable other
      (ends_before_single small encoded filled ⟨other, List.prefix_rfl⟩ leads)
  · exact broken.longest longer begins (ends_before_single small encoded filled begins leads)

/-- What stands in front of such a byte is decoded as if it stood alone. -/
theorem Lossy.append_single (small : single.toNat < 0x80)
    (encoded : String.utf8EncodeChar character = [single]) (lossy : Lossy bytes text)
    (afterLossy : Lossy after rest) :
    Lossy (bytes ++ single :: after) (text ++ character :: rest) := by
  induction lossy with
  | nil =>
      have char := Lossy.char character afterLossy
      rwa [encoded] at char
  | char other _ inductionHypothesis =>
      rw [List.append_assoc]
      exact .char other inductionHypothesis
  | fault broken _ inductionHypothesis =>
      rw [List.append_assoc]
      exact .fault (broken.before_single small encoded) inductionHypothesis

theorem ne_replacement (encoded : String.utf8EncodeChar character = [single]) :
    character ≠ '\uFFFD' := by
  rintro rfl
  have three : (String.utf8EncodeChar '\uFFFD').length = 3 := by decide
  rw [encoded] at three
  cases three

theorem Lossy.mem_of_single (encoded : String.utf8EncodeChar character = [single])
    (lossy : Lossy bytes text) (member : character ∈ text) : single ∈ bytes := by
  induction lossy with
  | nil => cases member
  | char other _ inductionHypothesis =>
      rcases List.mem_cons.1 member with rfl | inRest
      · rw [encoded]
        exact List.mem_cons_self
      · exact List.mem_append_right _ (inductionHypothesis inRest)
  | fault _ _ inductionHypothesis =>
      rcases List.mem_cons.1 member with same | inRest
      · exact absurd same (ne_replacement encoded)
      · exact List.mem_append_right _ (inductionHypothesis inRest)

theorem last_cases {first last : Char} (ends : (first :: text).getLast? = some last) :
    text = [] ∧ first = last ∨ text.getLast? = some last := by
  cases text with
  | nil => exact .inl ⟨rfl, Option.some.inj ends⟩
  | cons second rest => exact .inr (List.getLast?_cons_cons.symm.trans ends)

theorem Lossy.last_of_single (encoded : String.utf8EncodeChar character = [single])
    (lossy : Lossy bytes text) (last : text.getLast? = some character) :
    bytes.getLast? = some single := by
  induction lossy with
  | nil => cases last
  | char other rest inductionHypothesis =>
      rcases last_cases last with ⟨rfl, rfl⟩ | ending
      · cases rest
        rw [encoded, List.append_nil, List.getLast?_singleton]
      · rw [List.getLast?_append, inductionHypothesis ending, Option.some_or]
  | fault _ _ inductionHypothesis =>
      rcases last_cases last with ⟨-, same⟩ | ending
      · exact absurd same.symm (ne_replacement encoded)
      · rw [List.getLast?_append, inductionHypothesis ending, Option.some_or]

end

/-- Only a byte for a carriage return is decoded to one. -/
theorem decodeLossy_dropReturn (line : List UInt8) :
    decodeLossy (dropReturn line) = dropOneReturn (decodeLossy line) := by
  rw [dropReturn, dropOneReturn]
  by_cases ends : line.getLast? = some carriageReturn
  · obtain ⟨front, rfl⟩ := List.getLast?_eq_some_iff.1 ends
    have whole := (lossy_scan front).1.append_single (by decide) char_return .nil
    rw [← lossy_iff.1 whole, if_pos ends, List.dropLast_concat, List.getLast?_concat, if_pos rfl,
      List.dropLast_concat]
  · have other : (decodeLossy line).getLast? ≠ some '\r' := fun last =>
      ends ((lossy_scan line).1.last_of_single char_return last)
    rw [if_neg ends, if_neg other]

/-- The lines of the text are the texts of the lines. -/
theorem cut_decodeLossy (bytes : List UInt8) :
    Cut.ended '\n' (decodeLossy bytes) = (Cut.ended newline bytes).map decodeLossy ∧
      Cut.rest '\n' (decodeLossy bytes) = decodeLossy (Cut.rest newline bytes) := by
  have unmarked {line : List UInt8} (free : newline ∉ line) : '\n' ∉ decodeLossy line :=
    fun member => free ((lossy_scan line).1.mem_of_single char_newline member)
  induction bytes using Cut.pieceInduction newline with
  | absent bytes absent =>
      rw [Cut.ended_of_absent absent, Cut.rest_of_absent absent,
        Cut.ended_of_absent (unmarked absent), Cut.rest_of_absent (unmarked absent)]
      exact ⟨rfl, rfl⟩
  | piece line after free inductionHypothesis =>
      have whole :=
        (lossy_scan line).1.append_single (by decide) char_newline (lossy_scan after).1
      rw [← lossy_iff.1 whole, Cut.ended_of_piece free, Cut.rest_of_piece free,
        Cut.ended_of_piece (unmarked free), Cut.rest_of_piece (unmarked free),
        inductionHypothesis.1, List.map_cons]
      exact ⟨rfl, inductionHypothesis.2⟩

end Utf8

namespace LineBuffer

/-- In whatever chunks the bytes come and whenever the buffer is asked in between, its lines are
those of the one text that all the bytes are decoded to, and what it keeps is decoded to the rest of
this text. -/
theorem lines_of_decoded_text (uses : List Use) :
    let bytes := Use.pushed uses
    let text := Utf8.decodeLossy bytes
    let served := serve uses empty
    (∀ other, Utf8.Lossy bytes other ↔ other = text) ∧
      served.1 ++ (drain served.2).1 =
        (Cut.ended '\n' text).map (String.ofList ∘ dropOneReturn) ∧
      Utf8.decodeLossy (drain served.2).2.pending = Cut.rest '\n' text := by
  intro bytes text served
  obtain ⟨lines, pending⟩ := serve_then_drain uses
  obtain ⟨ended, rest⟩ := Utf8.cut_decodeLossy bytes
  refine ⟨fun _ => Utf8.lossy_iff, ?_, ?_⟩
  · rw [lines, ended, List.map_map]
    congr 1
    funext line
    exact congrArg String.ofList (Utf8.decodeLossy_dropReturn line)
  · rw [pending, rest]

end LineBuffer

end BenchPrinter
