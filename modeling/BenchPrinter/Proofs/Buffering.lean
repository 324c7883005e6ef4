import BenchPrinter.Proofs.Cutting

/-!
Using a line buffer. In whatever chunks the bytes come and whenever the buffer is asked in between,
the lines that it gives are the lines of all the bytes, and what stands behind the last newline
stays pending.
-/

namespace BenchPrinter.LineBuffer

/-- A buffer receives a chunk of bytes, or it is asked for a line. -/
inductive Use where
  | push (chunk : List UInt8)
  | next

namespace Use

/-- All the bytes that the buffer receives. -/
def pushed (uses : List Use) : List UInt8 :=
  uses.flatMap fun
    | push chunk => chunk
    | next => []

@[simp] theorem pushed_nil : pushed [] = [] := rfl

@[simp] theorem pushed_push (chunk : List UInt8) (later : List Use) :
    pushed (push chunk :: later) = chunk ++ pushed later :=
  List.flatMap_cons

@[simp] theorem pushed_next (later : List Use) : pushed (next :: later) = pushed later :=
  List.flatMap_cons

end Use

/-- The lines that the buffer gives while it is used, and the buffer after that. -/
def serve : List Use → LineBuffer → List String × LineBuffer
  | [], buffer => ([], buffer)
  | .push chunk :: later, buffer => serve later (buffer.push chunk)
  | .next :: later, buffer =>
      (buffer.nextLine.1.toList ++ (serve later buffer.nextLine.2).1,
        (serve later buffer.nextLine.2).2)

/-- A line takes its bytes and its newline out of the buffer. -/
theorem pending_lt_of_line {buffer after : LineBuffer} {line : String}
    (given : buffer.nextLine = (some line, after)) :
    after.pending.length < buffer.pending.length := by
  unfold nextLine at given
  split at given
  · rename_i bytes rest found
    obtain ⟨split, -⟩ := cutAtNewline?_eq_some found
    obtain rfl : ⟨rest⟩ = after := (Prod.mk.inj given).2
    change rest.length < buffer.pending.length
    rw [split, List.length_append, List.length_cons]
    omega
  · simp at given

/-- The buffer is asked until it has no line. -/
def drain (buffer : LineBuffer) : List String × LineBuffer :=
  match _given : buffer.nextLine with
  | (none, after) => ([], after)
  | (some line, after) => (line :: after.drain.1, after.drain.2)
termination_by buffer.pending.length
decreasing_by all_goals exact pending_lt_of_line _given

theorem drain_of_none {buffer after : LineBuffer} (given : buffer.nextLine = (none, after)) :
    buffer.drain = ([], after) := by
  rw [drain]
  split <;> rename_i asked <;> rw [given] at asked <;> cases asked
  rfl

theorem drain_of_some {buffer after : LineBuffer} {line : String}
    (given : buffer.nextLine = (some line, after)) :
    buffer.drain = (line :: after.drain.1, after.drain.2) := by
  rw [drain]
  split <;> rename_i asked <;> rw [given] at asked <;> cases asked
  rfl

/-- Draining gives all the lines in the buffer and leaves what stands behind them. -/
theorem drain_eq (bytes : List UInt8) :
    drain ⟨bytes⟩ = ((Cut.ended newline bytes).map decodeLine, ⟨Cut.rest newline bytes⟩) := by
  induction bytes using Cut.pieceInduction newline with
  | absent bytes absent =>
      rw [drain_of_none (nextLine_of_absent absent), Cut.ended_of_absent absent,
        Cut.rest_of_absent absent, List.map_nil]
  | piece line after free inductionHypothesis =>
      rw [drain_of_some (nextLine_of_line free after), inductionHypothesis,
        Cut.ended_of_piece free, Cut.rest_of_piece free, List.map_cons]

/-- A question moves a line from the buffer to the lines that were given, whatever bytes come
later. -/
theorem nextLine_moves (buffer : LineBuffer) (later : List UInt8) :
    (Cut.ended newline (buffer.pending ++ later)).map decodeLine =
        buffer.nextLine.1.toList ++
          (Cut.ended newline (buffer.nextLine.2.pending ++ later)).map decodeLine ∧
      Cut.rest newline (buffer.pending ++ later) =
        Cut.rest newline (buffer.nextLine.2.pending ++ later) := by
  obtain ⟨bytes⟩ := buffer
  by_cases present : newline ∈ bytes
  · obtain ⟨line, after, rfl, free⟩ := List.eq_append_cons_of_mem present
    rw [nextLine_of_line free, List.append_assoc, List.cons_append, Cut.ended_of_piece free,
      Cut.rest_of_piece free]
    exact ⟨rfl, rfl⟩
  · rw [nextLine_of_absent present]
    exact ⟨rfl, rfl⟩

/-- The lines given so far and those still in the buffer are the lines of all the bytes. -/
theorem serve_keeps (uses : List Use) (buffer : LineBuffer) :
    (serve uses buffer).1 ++ (Cut.ended newline (serve uses buffer).2.pending).map decodeLine =
        (Cut.ended newline (buffer.pending ++ Use.pushed uses)).map decodeLine ∧
      Cut.rest newline (serve uses buffer).2.pending =
        Cut.rest newline (buffer.pending ++ Use.pushed uses) := by
  induction uses generalizing buffer with
  | nil => simp [serve]
  | cons use later inductionHypothesis =>
      cases use with
      | push chunk =>
          obtain ⟨lines, rest⟩ := inductionHypothesis (buffer.push chunk)
          rw [serve, lines, rest, Use.pushed_push, push, List.append_assoc]
          exact ⟨rfl, rfl⟩
      | next =>
          obtain ⟨lines, rest⟩ := inductionHypothesis buffer.nextLine.2
          obtain ⟨moved, behind⟩ := nextLine_moves buffer (Use.pushed later)
          rw [serve, List.append_assoc, lines, rest, Use.pushed_next, moved, behind]
          exact ⟨rfl, rfl⟩

/-- The lines of all the bytes come out of a fresh buffer that is drained in the end. -/
theorem serve_then_drain (uses : List Use) :
    (serve uses empty).1 ++ (drain (serve uses empty).2).1 =
        (Cut.ended newline (Use.pushed uses)).map decodeLine ∧
      (drain (serve uses empty).2).2 = ⟨Cut.rest newline (Use.pushed uses)⟩ := by
  obtain ⟨lines, rest⟩ := serve_keeps uses empty
  have drained := drain_eq (serve uses empty).2.pending
  rw [drained, lines, rest]
  exact ⟨rfl, rfl⟩

end BenchPrinter.LineBuffer
