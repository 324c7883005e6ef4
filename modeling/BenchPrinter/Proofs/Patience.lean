import BenchPrinter.Proofs.Work

/-!
Patience is no limit of a board or of a session. Work that ends within some patience ends in the
same way within every greater one, so it has one outcome.
-/

namespace BenchPrinter

/-- From some patience on the answer stays the same. -/
def Lasts {β : Type} (answer : Nat → β) (value : β) : Prop :=
  ∃ enough, ∀ patience, enough ≤ patience → answer patience = value

theorem Lasts.unique {β : Type} {answer : Nat → β} {first second : β}
    (lastsFirst : Lasts answer first) (lastsSecond : Lasts answer second) : first = second := by
  obtain ⟨enoughFirst, fromFirst⟩ := lastsFirst
  obtain ⟨enoughSecond, fromSecond⟩ := lastsSecond
  rw [← fromFirst (max enoughFirst enoughSecond) (Nat.le_max_left _ _),
    fromSecond (max enoughFirst enoughSecond) (Nat.le_max_right _ _)]

namespace Attempt

variable {α σ β γ : Type}

/-- Work that did not run out of patience is the same when its second part is given more. -/
theorem andThen_more {attempt : Attempt α σ β} {next other : β → Board α → σ → Attempt α σ γ}
    (ended : (attempt.andThen next).outcome ≠ .error .outOfPatience)
    (same : ∀ value board state, (next value board state).outcome ≠ .error .outOfPatience →
      other value board state = next value board state) :
    attempt.andThen other = attempt.andThen next := by
  cases reached : attempt.outcome with
  | ok value =>
      rw [andThen_of_ok reached] at ended ⊢
      rw [andThen_of_ok reached, same _ _ _ ended]
  | error stop => rw [andThen_of_error reached, andThen_of_error reached]

end Attempt

namespace Board

variable {α σ : Type} [Quantity α]

theorem await_more (host : Host σ) (id : HeaterId) {patience more : Nat} (board : Board α)
    (state : σ) (ended : (await host id patience board state).outcome ≠ .error .outOfPatience)
    (enough : patience ≤ more) :
    await host id more board state = await host id patience board state := by
  induction patience generalizing more board state with
  | zero =>
      cases settled : board.isSettled id with
      | true =>
          rw [await_of_settled host id more state settled,
            await_of_settled host id 0 state settled]
      | false => simp [await, settled, Attempt.stopped] at ended
  | succ patience inductionHypothesis =>
      obtain ⟨rest, rfl⟩ : ∃ rest, more = rest + 1 := ⟨more - 1, by omega⟩
      cases settled : board.isSettled id with
      | true =>
          rw [await_of_settled host id _ state settled, await_of_settled host id _ state settled]
      | false =>
          rw [await_of_unsettled host id _ state settled] at ended ⊢
          rw [await_of_unsettled host id _ state settled]
          apply Attempt.andThen_more ended
          intro _ board state ended
          exact inductionHypothesis board state ended (by omega)

theorem waitFor_more (host : Host σ) {patience more : Nat} (waitsFor : Option HeaterId)
    (board : Board α) (state : σ)
    (ended : (waitFor host patience waitsFor board state).outcome ≠ .error .outOfPatience)
    (enough : patience ≤ more) :
    waitFor host more waitsFor board state = waitFor host patience waitsFor board state := by
  cases waitsFor with
  | none => rfl
  | some id => exact await_more host id board state ended enough

theorem process_more (host : Host σ) {patience more : Nat} (line : String) (board : Board α)
    (state : σ) (ended : (process host patience line board state).outcome ≠ .error .outOfPatience)
    (enough : patience ≤ more) :
    process host more line board state = process host patience line board state := by
  rw [process, perform_eq] at ended ⊢
  rw [process, perform_eq]
  generalize Plan.ofLine board line = plan at ended ⊢
  have same := Attempt.andThen_more
    (fun stopped => ended (by rw [Attempt.andThen_of_error stopped]))
    fun _ board state ended => waitFor_more host plan.waitsFor board state ended enough
  rw [same]

/-- The board comes to an end with the line, whatever the end is. -/
def Completes (host : Host σ) (line : String) (board : Board α) (state : σ)
    (attempt : Attempt α σ String) : Prop :=
  attempt.outcome ≠ .error .outOfPatience ∧
    Lasts (fun patience => process host patience line board state) attempt

theorem completes_of_process {host : Host σ} {patience : Nat} {line : String} {board : Board α}
    {state : σ} (ended : (process host patience line board state).outcome ≠ .error .outOfPatience) :
    Completes host line board state (process host patience line board state) :=
  ⟨ended, patience, fun _ enough => process_more host line board state ended enough⟩

end Board

namespace Session

variable {α σ : Type} [Quantity α]

theorem handle_more (desk : Desk σ) (settings : SessionSettings) {patience more : Nat}
    (raw : String) (session : Session α σ)
    (ended : (handle desk settings patience raw session).outcome ≠ .error .outOfPatience)
    (enough : patience ≤ more) :
    handle desk settings more raw session = handle desk settings patience raw session := by
  cases heard : isIgnored settings (trimText raw) with
  | true => rw [handle_of_ignored desk _ session heard, handle_of_ignored desk _ session heard]
  | false =>
      have same := Board.process_more desk.host (trimText raw) session.board session.link
        (fun stopped => ended (by rw [handle_of_stop session heard rfl stopped])) enough
      simp only [handle, heard, same]

theorem turn_more (desk : Desk σ) (settings : SessionSettings) {patience more : Nat}
    (session : Session α σ)
    (ended : (session.turn desk settings patience).outcome ≠ .error .outOfPatience)
    (enough : patience ≤ more) :
    session.turn desk settings more = session.turn desk settings patience := by
  cases continues : desk.sessionCancelled session.link with
  | true => rw [turn_of_cancelled _ _ continues, turn_of_cancelled _ _ continues]
  | false =>
      rcases read : desk.transport.read session.link with ⟨failure | _ | line, link⟩
      · rw [turn_of_fault _ _ continues read, turn_of_fault _ _ continues read]
      · rw [turn_of_nothing _ _ continues read, turn_of_nothing _ _ continues read]
      · rw [turn_of_line _ _ continues read] at ended ⊢
        rw [turn_of_line _ _ continues read, handle_more desk settings line _ _ enough]
        intro stopped
        exact ended (by rw [endTurn, stopped])

theorem run_more (desk : Desk σ) (settings : SessionSettings) {patience more : Nat}
    (session : Session α σ)
    (ended : (session.run desk settings patience).1 ≠ .error .outOfPatience)
    (enough : patience ≤ more) :
    session.run desk settings more = session.run desk settings patience := by
  induction patience generalizing more session with
  | zero => exact absurd rfl ended
  | succ patience inductionHypothesis =>
      obtain ⟨rest, rfl⟩ : ∃ rest, more = rest + 1 := ⟨more - 1, by omega⟩
      have turnEnded : (session.turn desk settings patience).outcome ≠ .error .outOfPatience := by
        intro stopped
        apply ended
        simp [run, stopped]
      simp only [run, turn_more desk settings session turnEnded (Nat.le_of_succ_le_succ enough)]
      rcases reached : (session.turn desk settings patience).outcome with stop | _ | ending
      · rfl
      · simp only [run, reached] at ended
        exact inductionHypothesis _ ended (by omega)
      · rfl

/-- The session comes to an end, whatever the end is. -/
def Completes (desk : Desk σ) (settings : SessionSettings) (session : Session α σ)
    (result : Except Stop Summary × Session α σ) : Prop :=
  result.1 ≠ .error .outOfPatience ∧
    Lasts (fun patience => session.run desk settings patience) result

theorem completes_of_run {desk : Desk σ} {settings : SessionSettings} {patience : Nat}
    {session : Session α σ} (ended : (session.run desk settings patience).1 ≠ .error .outOfPatience) :
    Completes desk settings session (session.run desk settings patience) :=
  ⟨ended, patience, fun _ enough => run_more desk settings session ended enough⟩

end Session

end BenchPrinter
