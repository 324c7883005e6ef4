import BenchPrinter.Link.LineBuffer
import Mathlib.Data.List.Basic

/-!
Cutting a text at a mark. The pieces that a mark ends come one after the other, and the rest stays
behind the last mark. A buffer that takes out the first line each time cuts in the same way.
-/

namespace BenchPrinter

namespace Cut

variable {β : Type} [BEq β]

/-- The pieces that a mark ends, without their marks. -/
def ended (mark : β) (text : List β) : List (List β) := (text.splitOn mark).dropLast

/-- What stands behind the last mark. -/
def rest (mark : β) (text : List β) : List β :=
  (text.splitOn mark).getLast (List.splitOn_ne_nil mark text)

variable [LawfulBEq β] {mark : β}

/-- A text has no mark, or it has a first piece. -/
@[elab_as_elim]
theorem pieceInduction (mark : β) {motive : List β → Prop}
    (absent : ∀ text, mark ∉ text → motive text)
    (piece : ∀ first after, mark ∉ first → motive after → motive (first ++ mark :: after))
    (text : List β) : motive text := by
  by_cases present : mark ∈ text
  · obtain ⟨first, after, split, free⟩ := List.eq_append_cons_of_mem present
    have shorter : after.length < text.length := by
      rw [split, List.length_append, List.length_cons]
      omega
    rw [split]
    exact piece first after free (pieceInduction mark absent piece after)
  · exact absent text present
termination_by text.length

theorem ended_of_absent {text : List β} (absent : mark ∉ text) : ended mark text = [] := by
  rw [ended, List.splitOn_eq_singleton absent]
  rfl

theorem rest_of_absent {text : List β} (absent : mark ∉ text) : rest mark text = text := by
  simp only [rest, List.splitOn_eq_singleton absent, List.getLast_singleton]

@[simp] theorem ended_nil : ended mark [] = [] := ended_of_absent List.not_mem_nil

@[simp] theorem rest_nil : rest mark [] = [] := rest_of_absent List.not_mem_nil

theorem ended_of_piece {first : List β} (free : mark ∉ first) (after : List β) :
    ended mark (first ++ mark :: after) = first :: ended mark after := by
  rw [ended, List.splitOn_append_cons_self_of_not_mem free,
    List.dropLast_cons_of_ne_nil (List.splitOn_ne_nil mark after)]
  rfl

theorem rest_of_piece {first : List β} (free : mark ∉ first) (after : List β) :
    rest mark (first ++ mark :: after) = rest mark after := by
  simp only [rest, List.splitOn_append_cons_self_of_not_mem free,
    List.getLast_cons (List.splitOn_ne_nil mark after)]

theorem not_mem_rest (text : List β) : mark ∉ rest mark text := by
  induction text using pieceInduction mark with
  | absent text absent => rwa [rest_of_absent absent]
  | piece first after free inductionHypothesis => rwa [rest_of_piece free]

/-- Nothing stands behind the last mark when the text ends with it. -/
theorem rest_eq_nil_iff (mark : β) (text : List β) :
    rest mark text = [] ↔ text = [] ∨ text.getLast? = some mark := by
  induction text using pieceInduction mark with
  | absent text absent =>
      have unmarked : text.getLast? ≠ some mark := fun last => absent (List.mem_of_getLast? last)
      simp [rest_of_absent absent, unmarked]
  | piece first after free inductionHypothesis =>
      rw [rest_of_piece free, inductionHypothesis]
      cases after <;> simp

/-- There are as many pieces as marks. -/
theorem length_ended (text : List β) : (ended mark text).length = text.count mark := by
  induction text using pieceInduction mark with
  | absent text absent => rw [ended_of_absent absent, List.count_eq_zero.2 absent, List.length_nil]
  | piece first after free inductionHypothesis =>
      rw [ended_of_piece free, List.length_cons, inductionHypothesis, List.count_append,
        List.count_cons_self, List.count_eq_zero.2 free, Nat.zero_add]

/-- A text that goes on is cut like its rest going on. -/
theorem ended_append (earlier later : List β) :
    ended mark (earlier ++ later) =
      ended mark earlier ++ ended mark (rest mark earlier ++ later) := by
  induction earlier using pieceInduction mark with
  | absent text absent => rw [ended_of_absent absent, rest_of_absent absent, List.nil_append]
  | piece first after free inductionHypothesis =>
      rw [List.append_assoc, List.cons_append, ended_of_piece free, ended_of_piece free,
        rest_of_piece free, inductionHypothesis, List.cons_append]

theorem rest_append (earlier later : List β) :
    rest mark (earlier ++ later) = rest mark (rest mark earlier ++ later) := by
  induction earlier using pieceInduction mark with
  | absent text absent => rw [rest_of_absent absent]
  | piece first after free inductionHypothesis =>
      rw [List.append_assoc, List.cons_append, rest_of_piece free, rest_of_piece free,
        inductionHypothesis]

end Cut

theorem cutAtNewline?_of_absent {bytes : List UInt8} (absent : newline ∉ bytes) :
    cutAtNewline? bytes = none := by
  rw [Option.eq_none_iff_forall_ne_some]
  rintro ⟨line, after⟩ found
  exact absent (by simp [(cutAtNewline?_eq_some found).1])

theorem cutAtNewline?_of_line {line : List UInt8} (free : newline ∉ line) (after : List UInt8) :
    cutAtNewline? (line ++ newline :: after) = some (line, after) := by
  induction line with
  | nil => simp [cutAtNewline?]
  | cons byte line inductionHypothesis =>
      obtain ⟨other, free⟩ := List.ne_and_not_mem_of_not_mem_cons free
      rw [List.cons_append, cutAtNewline?, if_neg other.symm, inductionHypothesis free]
      rfl

namespace LineBuffer

theorem nextLine_of_absent {buffer : LineBuffer} (absent : newline ∉ buffer.pending) :
    buffer.nextLine = (none, buffer) := by
  rw [nextLine, cutAtNewline?_of_absent absent]

theorem nextLine_of_line {line : List UInt8} (free : newline ∉ line) (after : List UInt8) :
    nextLine ⟨line ++ newline :: after⟩ = (some (decodeLine line), ⟨after⟩) := by
  simp only [nextLine, cutAtNewline?_of_line free]

end LineBuffer

end BenchPrinter
