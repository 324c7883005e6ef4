import BenchPrinter.Link.Transport

/-!
Rehearsed interruptions. A rehearsal passes every call on to a transport; on the way it sets a
cancel token at a chosen read or after a chosen number of lines, or refuses the lines after a chosen
number.
-/

namespace BenchPrinter

/-- The counts are of all calls so far; reads are counted from one. -/
structure Interruption where
  cancelAtRead : Option Nat
  cancelAfterSends : Option Nat
  refuseAfterSends : Option Nat
deriving DecidableEq

namespace Interruption

def never : Interruption := ⟨none, none, none⟩

/-- So many lines were sent, and no more are taken. -/
def refuses (interruption : Interruption) (sent : Nat) : Bool :=
  match interruption.refuseAfterSends with
  | some count => count ≤ sent
  | none => false

/-- The token is set as soon as the last line before it is accepted. -/
def cancels (interruption : Interruption) (sent : Nat) : Bool :=
  interruption.cancelAfterSends = some sent

end Interruption

structure Rehearsal (σ : Type) where
  link : σ
  reads : Nat
  sent : Array String
  cancelled : Bool

namespace Rehearsal

variable {σ : Type}

def start (link : σ) (cancelled : Bool) : Rehearsal σ := ⟨link, 0, #[], cancelled⟩

/-- The token is set before the read begins. -/
def read (interruption : Interruption) (transport : Transport σ) (rehearsal : Rehearsal σ) :
    Except Failure (Option String) × Rehearsal σ :=
  let reads := rehearsal.reads + 1
  let (outcome, link) := transport.read rehearsal.link
  (outcome,
    { rehearsal with
      link, reads
      cancelled := rehearsal.cancelled || interruption.cancelAtRead = some reads })

def send (interruption : Interruption) (transport : Transport σ) (line : String) :
    Rehearsal σ → Except Failure Unit × Rehearsal σ
  | ⟨link, reads, sent, cancelled⟩ =>
      if interruption.refuses sent.size then
        (.error (.notSent line "sink closed"), ⟨link, reads, sent, cancelled⟩)
      else
        match transport.send line link with
        | (.ok (), link) =>
            (.ok (),
              ⟨link, reads, sent.push line, cancelled || interruption.cancels (sent.size + 1)⟩)
        | (.error failure, link) => (.error failure, ⟨link, reads, sent, cancelled⟩)

def transport (interruption : Interruption) (inner : Transport σ) : Transport (Rehearsal σ) where
  read := read interruption inner
  send := send interruption inner
  isOpen rehearsal := inner.isOpen rehearsal.link
  name rehearsal := inner.name rehearsal.link

end Rehearsal

end BenchPrinter
