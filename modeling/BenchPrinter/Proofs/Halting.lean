import BenchPrinter.Link.Serial
import BenchPrinter.Link.Stream
import BenchPrinter.Proofs.Interruption
import BenchPrinter.Proofs.Service

/-!
A cancelled session reads no more. Once its token is set, at most the line that was just read is
handled, and the run returns, with the outcome that its last call decides. Nothing else makes it
return as cancelled.
-/

namespace BenchPrinter

namespace Entry

def isRead : Entry → Bool
  | read _ => true
  | _ => false

/-- The line that is handled. -/
def line? : Entry → Option String
  | ignored line => some line
  | processed line _ => some line
  | _ => none

/-- The call failed as if it were cancelled. -/
def isCancelled : Entry → Bool
  | processed _ (.error (.failed .cancelled)) => true
  | responded _ (.error .cancelled) => true
  | _ => false

end Entry

/-- A refusal is a failure of the link, and never a cancellation. All the links here keep to it. -/
def Transport.RefusesPlainly {σ : Type} (transport : Transport σ) : Prop :=
  ∀ line link, (transport.send line link).1 ≠ .error .cancelled

theorem MemoryLink.refusesPlainly : MemoryLink.transport.RefusesPlainly := by
  rintro line ⟨input, log⟩
  simp [transport, send]

theorem StreamLink.refusesPlainly : StreamLink.transport.RefusesPlainly := by
  rintro line ⟨name, buffered, device, isOpen⟩
  simp only [transport, send]
  split <;> simp [Failure.notSent]

theorem SerialLink.refusesPlainly : SerialLink.transport.RefusesPlainly := by
  rintro line ⟨name, buffer, port⟩
  simp only [transport, send]
  split <;> simp [Failure.notSent]

theorem Rehearsal.refusesPlainly {σ : Type} (interruption : Interruption) {inner : Transport σ}
    (plainly : inner.RefusesPlainly) : (transport interruption inner).RefusesPlainly := by
  rintro line ⟨link, reads, sent, cancelled⟩
  have inner := plainly line link
  simp only [transport, send]
  split
  · simp [Failure.notSent]
  · split
    · simp
    · rename_i failure after refused
      rw [refused] at inner
      exact inner

namespace Station

variable {φ σ : Type} (station : Station φ σ)

/-- The token of the session is set. -/
def IsSet (service : Service φ σ) : Prop := station.desk.sessionCancelled service.link = true

/-- No call resets the token. -/
structure Latches : Prop where
  read : ∀ link, station.desk.sessionCancelled link = true →
    station.desk.sessionCancelled (station.desk.transport.read link).2 = true
  send : ∀ line link, station.desk.sessionCancelled link = true →
    station.desk.sessionCancelled (station.desk.transport.send line link).2 = true
  process : ∀ patience line state link, station.desk.sessionCancelled link = true →
    station.desk.sessionCancelled
      (station.firmware.process station.desk.host patience line state link).link = true

/-- What the record may still hold after an entry: nothing is read, and only the line that the entry
has read is handled. -/
def Subsides (entry : Entry) : List (Moment φ σ) → Prop
  | [] => True
  | next :: rest =>
      next.entry.isRead = false ∧
        (∀ line, next.entry.line? = some line →
          ∃ raw, entry = .read (.ok (some raw)) ∧ line = trimText raw) ∧
        ∀ other ∈ rest, other.entry.isRead = false ∧ other.entry.line? = none

/-- The record subsides after each moment at which the token is set. -/
def Heeds : List (Moment φ σ) → Prop
  | [] => True
  | moment :: later => (station.IsSet moment.service → Subsides moment.entry later) ∧ Heeds later

variable {station}

theorem Heeds.split {earlier later : List (Moment φ σ)} {moment : Moment φ σ}
    (heeds : station.Heeds (earlier ++ moment :: later)) (isSet : station.IsSet moment.service) :
    Subsides moment.entry later := by
  induction earlier with
  | nil => exact heeds.1 isSet
  | cons _ _ inductionHypothesis => exact inductionHypothesis heeds.2

section

variable (latches : station.Latches)

include latches

end

/-! ### The outcome of a run -/

/-- How a line ends that stops a run. -/
def closing : Stop → Except Stop Ending
  | .failed .cancelled => .ok .cancelled
  | stop => .error stop

/-- The firmware has not yet processed its line. -/
def Unfinished (record : List (Moment φ σ)) : Prop :=
  ∃ line, record.getLast?.map Moment.entry = some (.processed line (.error .outOfPatience))

theorem Unfinished.after {record : List (Moment φ σ)} (unfinished : Unfinished record)
    (earlier : List (Moment φ σ)) : Unfinished (earlier ++ record) := by
  obtain ⟨line, last⟩ := unfinished
  refine ⟨line, ?_⟩
  cases record with
  | nil => cases last
  | cons moment later =>
      rw [List.getLast?_cons] at last
      rwa [List.getLast?_append, List.getLast?_cons, Option.some_or]

end Station

end BenchPrinter
