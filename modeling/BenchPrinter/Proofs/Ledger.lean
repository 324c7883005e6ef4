import BenchPrinter.Proofs.Interruption
import BenchPrinter.Proofs.Service

/-!
The counters of a service are exact, whatever fails on the way. Each entry of the record says what
is counted with it and which entries may follow it, so the counters at any moment are counts of the
entries up to that moment.
-/

namespace BenchPrinter

/-- What a service is in the middle of: it has a line to handle, or an answer to send. -/
inductive Phase where
  | free
  | holding (raw : String)
  | owing (response : String)

namespace Entry

/-- What the service is in the middle of right after the entry. -/
def phase : Entry → Phase
  | read (.ok (some raw)) => .holding raw
  | handed raw => .holding raw
  | processed _ (.ok response) =>
      if response.toList.isEmpty then .free else .owing response
  | _ => .free

/-- The link returned a line. -/
def isReturned : Entry → Bool
  | read (.ok (some _)) => true
  | _ => false

def isHanded : Entry → Bool
  | handed _ => true
  | _ => false

def isIgnored : Entry → Bool
  | ignored _ => true
  | _ => false

def isProcessed : Entry → Bool
  | processed _ _ => true
  | _ => false

/-- The firmware had nothing to answer. -/
def isSilent : Entry → Bool
  | processed _ (.ok response) => response.toList.isEmpty
  | _ => false

/-- The link accepted an answer. -/
def isAccepted : Entry → Bool
  | responded _ (.ok ()) => true
  | _ => false

/-- A line was not processed to its end, or its answer was refused. -/
def isFailed : Entry → Bool
  | processed _ (.error _) => true
  | responded _ (.error _) => true
  | _ => false

end Entry

namespace Phase

/-- The entries that may come next. A line is handled without its blanks, and the answer of the
firmware is what is sent. -/
def Admits (settings : SessionSettings) : Phase → Entry → Prop
  | free, .read _ => True
  | free, .handed _ => True
  | holding raw, .ignored line =>
      line = trimText raw ∧ Session.isIgnored settings line = true
  | holding raw, .processed line _ =>
      line = trimText raw ∧ Session.isIgnored settings line = false
  | owing response, .responded sent _ => sent = response
  | _, _ => False

def isHolding : Phase → Bool
  | holding _ => true
  | _ => false

def isOwing : Phase → Bool
  | owing _ => true
  | _ => false

end Phase

structure Counters where
  received : Nat
  ignored : Nat
  answered : Nat
deriving DecidableEq

namespace Counters

/-- What is counted with an entry. -/
def after (counters : Counters) : Entry → Counters
  | .ignored _ =>
      { counters with received := counters.received + 1, ignored := counters.ignored + 1 }
  | .processed _ _ => { counters with received := counters.received + 1 }
  | .responded _ (.ok ()) => { counters with answered := counters.answered + 1 }
  | _ => counters

structure Le (earlier later : Counters) : Prop where
  received : earlier.received ≤ later.received
  ignored : earlier.ignored ≤ later.ignored
  answered : earlier.answered ≤ later.answered

instance : LE Counters := ⟨Le⟩

theorem le_refl (counters : Counters) : counters ≤ counters :=
  ⟨Nat.le_refl _, Nat.le_refl _, Nat.le_refl _⟩

theorem le_trans {first second third : Counters} (earlier : first ≤ second)
    (later : second ≤ third) : first ≤ third :=
  ⟨Nat.le_trans earlier.received later.received, Nat.le_trans earlier.ignored later.ignored,
    Nat.le_trans earlier.answered later.answered⟩

theorem le_after (counters : Counters) (entry : Entry) : counters ≤ counters.after entry := by
  rcases entry with _ | _ | _ | _ | ⟨_, _ | _⟩ <;> constructor <;> simp [after]

end Counters

def Service.counters {φ σ : Type} (service : Service φ σ) : Counters :=
  ⟨service.received, service.ignored, service.answered⟩

/-- The entries follow on each other, and each of them is counted. -/
inductive Ledger {φ σ : Type} (settings : SessionSettings) :
    Phase → Counters → List (Moment φ σ) → Phase → Counters → Prop where
  | nil (phase : Phase) (counters : Counters) : Ledger settings phase counters [] phase counters
  | cons {phase final : Phase} {counters total : Counters} {moment : Moment φ σ}
      {later : List (Moment φ σ)} (admits : phase.Admits settings moment.entry)
      (counted : moment.service.counters = counters.after moment.entry)
      (rest : Ledger settings moment.entry.phase moment.service.counters later final total) :
      Ledger settings phase counters (moment :: later) final total

section

variable {φ σ : Type}

/-- The number of entries of a kind. -/
def tally (kind : Entry → Bool) (record : List (Moment φ σ)) : Nat :=
  record.countP fun moment => kind moment.entry

theorem tally_append (kind : Entry → Bool) (first second : List (Moment φ σ)) :
    tally kind (first ++ second) = tally kind first + tally kind second :=
  List.countP_append

theorem tally_single (kind : Entry → Bool) (moment : Moment φ σ) :
    tally kind [moment] = (kind moment.entry).toNat := by
  rw [tally, List.countP_singleton]
  cases kind moment.entry <;> rfl

/-- The counters, as counts over a record that leaves the service in the phase. -/
structure Balanced (record : List (Moment φ σ)) (phase : Phase) (counters : Counters) :
    Prop where
  /-- A line that has just come in is not counted yet. -/
  arrived : tally Entry.isReturned record + tally Entry.isHanded record =
    counters.received + phase.isHolding.toNat
  ignored : counters.ignored = tally Entry.isIgnored record
  received : counters.received = counters.ignored + tally Entry.isProcessed record
  answered : counters.answered = tally Entry.isAccepted record
  /-- A line that is not answered is ignored, silent or failed, or its answer is under way. -/
  accounted : counters.received = counters.ignored + counters.answered +
    tally Entry.isSilent record + tally Entry.isFailed record + phase.isOwing.toNat

/-- What an admitted entry adds to the counters and takes from the phase. -/
theorem Phase.Admits.conserves {settings : SessionSettings} {phase : Phase} {entry : Entry}
    (admits : phase.Admits settings entry) (counters : Counters) :
    (counters.after entry).received + entry.phase.isHolding.toNat =
        counters.received + phase.isHolding.toNat + entry.isReturned.toNat + entry.isHanded.toNat ∧
      (counters.after entry).received =
        counters.received + entry.isIgnored.toNat + entry.isProcessed.toNat ∧
      (counters.after entry).ignored = counters.ignored + entry.isIgnored.toNat ∧
      (counters.after entry).answered = counters.answered + entry.isAccepted.toNat ∧
      phase.isOwing.toNat + entry.isProcessed.toNat =
        entry.isAccepted.toNat + entry.isSilent.toNat + entry.isFailed.toNat +
          entry.phase.isOwing.toNat := by
  cases phase with
  | free =>
      rcases entry with (_ | _ | _) | _ | _ | _ | _
      all_goals first
        | exact admits.elim
        | exact ⟨rfl, rfl, rfl, rfl, rfl⟩
  | holding raw =>
      rcases entry with _ | _ | _ | ⟨line, stop | response⟩ | _
      · exact admits.elim
      · exact admits.elim
      · exact ⟨rfl, rfl, rfl, rfl, rfl⟩
      · exact ⟨rfl, rfl, rfl, rfl, rfl⟩
      · cases silent : response.toList.isEmpty <;>
          simp [Counters.after, Entry.phase, Entry.isReturned, Entry.isHanded, Entry.isIgnored,
            Entry.isProcessed, Entry.isAccepted, Entry.isSilent, Entry.isFailed, isHolding, isOwing, silent]
      · exact admits.elim
  | owing response =>
      rcases entry with _ | _ | _ | _ | ⟨sent, failure | _⟩
      · exact admits.elim
      · exact admits.elim
      · exact admits.elim
      · exact admits.elim
      · exact ⟨rfl, rfl, rfl, rfl, rfl⟩
      · exact ⟨rfl, rfl, rfl, rfl, rfl⟩

theorem Balanced.nil : Balanced ([] : List (Moment φ σ)) .free ⟨0, 0, 0⟩ :=
  ⟨rfl, rfl, rfl, rfl, rfl⟩

/-- Every admitted entry keeps the balance. -/
theorem Balanced.step {settings : SessionSettings} {earlier : List (Moment φ σ)}
    {phase : Phase} {counters : Counters} {moment : Moment φ σ}
    (before : Balanced earlier phase counters) (admits : phase.Admits settings moment.entry) :
    Balanced (earlier ++ [moment]) moment.entry.phase (counters.after moment.entry) := by
  obtain ⟨arrived, ignored, received, answered, accounted⟩ := before
  obtain ⟨holds, counts, ignores, answers, owes⟩ := admits.conserves counters
  constructor <;> simp only [tally_append, tally_single] <;> omega

end

namespace Ledger

variable {φ σ : Type} {settings : SessionSettings} {phase middle final : Phase}
  {counters half total : Counters} {record first second : List (Moment φ σ)}

theorem append (earlier : Ledger settings phase counters first middle half)
    (later : Ledger settings middle half second final total) :
    Ledger settings phase counters (first ++ second) final total := by
  induction earlier with
  | nil => exact later
  | cons admits counted _ inductionHypothesis =>
      exact .cons admits counted (inductionHypothesis later)

/-- The ledger up to one of its moments. -/
theorem upTo {moment : Moment φ σ}
    (ledger : Ledger settings phase counters (first ++ moment :: second) final total) :
    Ledger settings phase counters (first ++ [moment]) moment.entry.phase
      moment.service.counters := by
  induction first generalizing phase counters with
  | nil =>
      cases ledger with
      | cons admits counted _ => exact .cons admits counted (.nil _ _)
  | cons other earlier inductionHypothesis =>
      cases ledger with
      | cons admits counted rest => exact .cons admits counted (inductionHypothesis rest)

/-- No counter decreases. -/
theorem le (ledger : Ledger settings phase counters record final total) : counters ≤ total := by
  induction ledger with
  | nil => exact Counters.le_refl _
  | cons _ counted _ inductionHypothesis =>
      rw [counted] at inductionHypothesis
      exact Counters.le_trans (Counters.le_after _ _) inductionHypothesis

theorem pairwise (ledger : Ledger settings phase counters record final total) :
    (record.map (·.service.counters) ++ [total]).Pairwise (· ≤ ·) := by
  induction record generalizing phase counters with
  | nil => exact List.pairwise_singleton _ _
  | cons moment later inductionHypothesis =>
      cases ledger with
      | cons admits counted rest =>
          rw [List.map_cons, List.cons_append, List.pairwise_cons, List.forall_mem_append,
            List.forall_mem_map, List.forall_mem_singleton]
          refine ⟨⟨fun other member => ?_, rest.le⟩, inductionHypothesis rest⟩
          obtain ⟨before, after, rfl⟩ := List.append_of_mem member
          exact rest.upTo.le

/-- What holds of the counters before the record holds of them after it. -/
theorem balanced_append {earlier : List (Moment φ σ)} (before : Balanced earlier phase counters)
    (ledger : Ledger settings phase counters record final total) :
    Balanced (earlier ++ record) final total := by
  induction record generalizing phase counters earlier with
  | nil =>
      cases ledger
      rwa [List.append_nil]
  | cons moment later inductionHypothesis =>
      cases ledger with
      | cons admits counted rest =>
          rw [counted] at rest
          rw [← List.singleton_append, ← List.append_assoc]
          exact inductionHypothesis (before.step admits) rest

end Ledger

namespace Station

/-- What a caller does with a service: it lets it run, it hands over a line, or it waits while the
rest of the world does something to the link. -/
inductive Call (σ : Type) where
  | run (patience : Nat)
  | hand (patience : Nat) (raw : String)
  | wait (change : σ → σ)

variable {φ σ : Type} (station : Station φ σ)

/-- The calls are made one after the other, whatever comes of each of them. -/
def attend : List (Call σ) → Service φ σ → List (Moment φ σ) × Service φ σ
  | [], service => ([], service)
  | .run patience :: later, service =>
      let ran := station.run patience service
      let (record, service) := attend later ran.service
      (ran.record ++ record, service)
  | .hand patience raw :: later, service =>
      let handled := station.handle patience raw service
      let (record, service') := attend later handled.service
      (⟨.handed raw, service⟩ :: handled.record ++ record, service')
  | .wait change :: later, service => attend later { service with link := change service.link }

theorem handle_ledger (patience : Nat) (raw : String) (service : Service φ σ) :
    Ledger station.settings (.holding raw) service.counters
      (station.handle patience raw service).record .free
      (station.handle patience raw service).service.counters := by
  have handled := station.handled patience raw service
  generalize station.handle patience raw service = progress at handled
  cases handled with
  | ignored isIgnored counted =>
      subst counted
      exact .cons ⟨rfl, isIgnored⟩ rfl (.nil _ _)
  | stopped heard processed => exact .cons ⟨rfl, heard⟩ rfl (.nil _ _)
  | silent heard processed silent =>
      refine .cons ⟨rfl, heard⟩ rfl ?_
      simp only [Entry.phase, silent, if_true]
      exact .nil _ _
  | sent heard processed spoken sent counted =>
      subst counted
      refine .cons ⟨rfl, heard⟩ rfl ?_
      simp only [Entry.phase, spoken]
      exact .cons rfl rfl (.nil _ _)
  | refused heard processed spoken refused =>
      refine .cons ⟨rfl, heard⟩ rfl ?_
      simp only [Entry.phase, spoken]
      exact .cons rfl rfl (.nil _ _)

theorem turn_ledger (patience : Nat) (service : Service φ σ) :
    Ledger station.settings .free service.counters (station.turn patience service).record .free
      (station.turn patience service).service.counters := by
  have turned := station.turned patience service
  generalize station.turn patience service = progress at turned
  cases turned with
  | cancelled => exact .nil _ _
  | fault => exact .cons trivial rfl (.nil _ _)
  | nothing => exact .cons trivial rfl (.nil _ _)
  | @line raw link =>
      exact .cons trivial rfl (station.handle_ledger patience raw { service with link })

theorem run_ledger (patience : Nat) (service : Service φ σ) :
    Ledger station.settings .free service.counters (station.run patience service).record .free
      (station.run patience service).service.counters := by
  induction patience generalizing service with
  | zero => exact .nil _ _
  | succ patience inductionHypothesis =>
      have turned := station.turn_ledger patience service
      rw [run]
      split
      · exact turned.append (inductionHypothesis _)
      · exact turned
      · exact turned

theorem attend_ledger (calls : List (Call σ)) (service : Service φ σ) :
    Ledger station.settings .free service.counters (station.attend calls service).1 .free
      (station.attend calls service).2.counters := by
  induction calls generalizing service with
  | nil => exact .nil _ _
  | cons call later inductionHypothesis =>
      cases call with
      | run patience => exact (station.run_ledger patience service).append (inductionHypothesis _)
      | hand patience raw =>
          exact .cons trivial rfl
            ((station.handle_ledger patience raw service).append (inductionHypothesis _))
      | wait change => exact inductionHypothesis { service with link := change service.link }

/-- A line that fails is counted as received only. -/
theorem counters_of_failure {patience : Nat} {raw : String} {service : Service φ σ} {stop : Stop}
    (failed : (station.handle patience raw service).outcome = .error stop) :
    (station.handle patience raw service).service.counters =
      { service.counters with received := service.counters.received + 1 } := by
  have handled := station.handled patience raw service
  generalize station.handle patience raw service = progress at handled failed
  cases handled with
  | ignored => cases failed
  | stopped => rfl
  | silent => cases failed
  | sent => cases failed
  | refused => rfl

/-- Over any calls of a fresh service, and at every moment of them, the counters are what the record
shows, and they never decrease. A line that fails is counted as received only. -/
theorem counters_are_exact (calls : List (Call σ)) (state : φ) (link : σ) :
    let (record, final) := station.attend calls (.start state link)
    Balanced record .free final.counters ∧
      (∀ earlier moment later, record = earlier ++ moment :: later →
        Balanced (earlier ++ [moment]) moment.entry.phase moment.service.counters ∧
          moment.service.ignored + moment.service.answered ≤ moment.service.received) ∧
      (record.map (·.service.counters) ++ [final.counters]).Pairwise (· ≤ ·) ∧
      ∀ patience raw (service : Service φ σ) stop,
        (station.handle patience raw service).outcome = .error stop →
          (station.handle patience raw service).service.counters =
            { service.counters with received := service.counters.received + 1 } := by
  have ledger := station.attend_ledger calls (.start state link)
  generalize station.attend calls (.start state link) = attended at ledger
  obtain ⟨record, final⟩ := attended
  have balanced {record : List (Moment φ σ)} {phase : Phase} {counters : Counters}
      (ledger : Ledger station.settings .free ⟨0, 0, 0⟩ record phase counters) :
      Balanced record phase counters := ledger.balanced_append .nil
  refine ⟨balanced ledger, ?_, ledger.pairwise, fun _ _ _ _ => station.counters_of_failure⟩
  rintro earlier moment later rfl
  have upTo := balanced ledger.upTo
  exact ⟨upTo, by have := upTo.accounted; simp only [Service.counters] at this; omega⟩

/-- The link takes one line and refuses the others. -/
def refusing : Station (Board Float) (Rehearsal MemoryLink) :=
  .ofBoard (Rehearsal.desk ⟨none, none, some 1⟩) .standard

def refusingStart : Rehearsal MemoryLink :=
  .start (.ofInput ["M106 S255", "[ok] connected", "M107", "G28"]) false

/-- The first run fails at the answer to its third line. The caller hands over a line that fails in
the same way, and the second run fails while the board is homing. -/
theorem refused_lines_are_only_received :
    let (record, final) := refusing.attend [.run 9, .hand 9 "M107", .run 9]
      (.start (.powerUp .standard (.cycle []) ⟨0⟩) refusingStart)
    final.counters = ⟨5, 1, 1⟩ ∧ tally Entry.isFailed record = 3 ∧
      Balanced record .free final.counters := by
  obtain ⟨balanced, -, -, -⟩ := counters_are_exact refusing [.run 9, .hand 9 "M107", .run 9]
    (.powerUp .standard (.cycle []) ⟨0⟩) refusingStart
  exact ⟨by rfl, by rfl, balanced⟩

end Station

end BenchPrinter
