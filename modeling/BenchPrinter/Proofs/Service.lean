import BenchPrinter.Proofs.Patience

/-!
A session asks nothing of its board but that it processes lines, so any firmware can take the place
of the board. A service is a session with a firmware of any kind, and its record tells which calls
were made and what the service was after each of them. With a board as its firmware, and without the
record, it is the session.
-/

namespace BenchPrinter

/-- What comes of a line, with the firmware and the link after it. -/
structure Yield (φ σ : Type) where
  outcome : Except Stop String
  state : φ
  link : σ

/-- A firmware processes lines in front of a host. Whatever it does to the link, it may do. Once a
line is processed, more patience makes no difference. -/
structure Firmware (φ σ : Type) where
  process : Host σ → Nat → String → φ → σ → Yield φ σ
  steady : ∀ (host : Host σ) {patience more : Nat} (line : String) (state : φ) (link : σ),
    (process host patience line state link).outcome ≠ .error .outOfPatience → patience ≤ more →
      process host more line state link = process host patience line state link

namespace Board

variable {α σ : Type} [Quantity α]

/-- The board as a firmware, without its actions. -/
def firmware : Firmware (Board α) σ where
  process host patience line board link :=
    let attempt := process host patience line board link
    ⟨attempt.outcome, attempt.board, attempt.host⟩
  steady host _ _ line board link ended enough := by
    dsimp only
    rw [process_more host line board link ended enough]

end Board

structure Service (φ σ : Type) where
  state : φ
  link : σ
  received : Nat
  ignored : Nat
  answered : Nat

namespace Service

variable {φ σ : Type}

def start (state : φ) (link : σ) : Service φ σ := ⟨state, link, 0, 0, 0⟩

def summary (service : Service φ σ) (ending : Ending) : Summary :=
  ⟨service.received, service.ignored, service.answered, ending⟩

/-- The service after its firmware has processed a line. -/
def took (service : Service φ σ) (state : φ) (link : σ) : Service φ σ :=
  { service with state, link, received := service.received + 1 }

end Service

/-- A call that a service makes, with what came of it, or a line that its caller hands over. -/
inductive Entry where
  | read (reading : Except Failure (Option String))
  | handed (raw : String)
  | ignored (line : String)
  | processed (line : String) (outcome : Except Stop String)
  | responded (response : String) (outcome : Except Failure Unit)

/-- An entry of the record, with the service right after it. -/
structure Moment (φ σ : Type) where
  entry : Entry
  service : Service φ σ

structure Progress (φ σ β : Type) where
  outcome : Except Stop β
  service : Service φ σ
  record : List (Moment φ σ)

namespace Progress

variable {φ σ β : Type}

/-- The record of earlier work comes first. -/
def after (earlier : List (Moment φ σ)) (progress : Progress φ σ β) : Progress φ σ β :=
  { progress with record := earlier ++ progress.record }

/-- The progress without its record. -/
def result (progress : Progress φ σ β) : Except Stop β × Service φ σ :=
  (progress.outcome, progress.service)

end Progress

/-- What a service works with. -/
structure Station (φ σ : Type) where
  firmware : Firmware φ σ
  desk : Desk σ
  settings : SessionSettings

namespace Station

variable {φ σ : Type} (station : Station φ σ)

def answer (response : String) (service : Service φ σ) : Progress φ σ Unit :=
  if response.toList.isEmpty then ⟨.ok (), service, []⟩
  else
    match station.desk.transport.send response service.link with
    | (.ok (), link) =>
        let service := { service with link, answered := service.answered + 1 }
        ⟨.ok (), service, [⟨.responded response (.ok ()), service⟩]⟩
    | (.error failure, link) =>
        let service := { service with link }
        ⟨.error (.failed failure), service, [⟨.responded response (.error failure), service⟩]⟩

def handle (patience : Nat) (raw : String) (service : Service φ σ) : Progress φ σ Unit :=
  let line := trimText raw
  if Session.isIgnored station.settings line then
    let service :=
      { service with received := service.received + 1, ignored := service.ignored + 1 }
    ⟨.ok (), service, [⟨.ignored line, service⟩]⟩
  else
    let yield := station.firmware.process station.desk.host patience line service.state service.link
    let service := service.took yield.state yield.link
    match yield.outcome with
    | .ok response =>
        (station.answer response service).after [⟨.processed line (.ok response), service⟩]
    | .error stop => ⟨.error stop, service, [⟨.processed line (.error stop), service⟩]⟩

def turn (patience : Nat) (service : Service φ σ) : Progress φ σ (Option Ending) :=
  if station.desk.sessionCancelled service.link then ⟨.ok (some .cancelled), service, []⟩
  else
    match station.desk.transport.read service.link with
    | (.error failure, link) =>
        let service := { service with link }
        ⟨.error (.failed failure), service, [⟨.read (.error failure), service⟩]⟩
    | (.ok none, link) =>
        let service := { service with link }
        let ending := if station.desk.transport.isOpen link then none else some .endOfInput
        ⟨.ok ending, service, [⟨.read (.ok none), service⟩]⟩
    | (.ok (some raw), link) =>
        let service := { service with link }
        let handled := (station.handle patience raw service).after
          [⟨.read (.ok (some raw)), service⟩]
        match handled.outcome with
        | .ok () => ⟨.ok none, handled.service, handled.record⟩
        | .error (.failed .cancelled) => ⟨.ok (some .cancelled), handled.service, handled.record⟩
        | .error stop => ⟨.error stop, handled.service, handled.record⟩

def run : Nat → Service φ σ → Progress φ σ Summary
  | 0, service => ⟨.error .outOfPatience, service, []⟩
  | patience + 1, service =>
      let turned := station.turn patience service
      match turned.outcome with
      | .ok none => (run patience turned.service).after turned.record
      | .ok (some ending) => ⟨.ok (turned.service.summary ending), turned.service, turned.record⟩
      | .error stop => ⟨.error stop, turned.service, turned.record⟩

/-- How a turn ends follows from how its line was handled. -/
def ended : Except Stop Unit → Except Stop (Option Ending)
  | .ok () => .ok none
  | .error (.failed .cancelled) => .ok (some .cancelled)
  | .error stop => .error stop

section

variable {outcome : Except Stop Unit}

theorem ended_eq_outOfPatience :
    ended outcome = .error .outOfPatience ↔ outcome = .error .outOfPatience := by
  rcases outcome with (failure | _) | _
  · cases failure <;> simp [ended]
  · simp [ended]
  · simp [ended]

end

variable {station}

theorem turn_of_cancelled (patience : Nat) {service : Service φ σ}
    (cancelled : station.desk.sessionCancelled service.link = true) :
    station.turn patience service = ⟨.ok (some .cancelled), service, []⟩ := by
  simp [turn, cancelled]

theorem turn_of_fault (patience : Nat) {service : Service φ σ} {failure : Failure} {link : σ}
    (continues : station.desk.sessionCancelled service.link = false)
    (read : station.desk.transport.read service.link = (.error failure, link)) :
    station.turn patience service =
      ⟨.error (.failed failure), { service with link },
        [⟨.read (.error failure), { service with link }⟩]⟩ := by
  simp [turn, continues, read]

theorem turn_of_nothing (patience : Nat) {service : Service φ σ} {link : σ}
    (continues : station.desk.sessionCancelled service.link = false)
    (read : station.desk.transport.read service.link = (.ok none, link)) :
    station.turn patience service =
      ⟨.ok (if station.desk.transport.isOpen link then none else some .endOfInput),
        { service with link }, [⟨.read (.ok none), { service with link }⟩]⟩ := by
  simp [turn, continues, read]

theorem turn_of_line (patience : Nat) {service : Service φ σ} {raw : String} {link : σ}
    (continues : station.desk.sessionCancelled service.link = false)
    (read : station.desk.transport.read service.link = (.ok (some raw), link)) :
    station.turn patience service =
      ⟨ended (station.handle patience raw { service with link }).outcome,
        (station.handle patience raw { service with link }).service,
        ⟨.read (.ok (some raw)), { service with link }⟩ ::
          (station.handle patience raw { service with link }).record⟩ := by
  simp only [turn, continues, read, Progress.after]
  generalize station.handle patience raw { service with link } = handled
  obtain ⟨(failure | _) | _, after, record⟩ := handled
  · cases failure <;> rfl
  · rfl
  · rfl

/-- The four ways in which a turn is taken. -/
inductive Turned (station : Station φ σ) (patience : Nat) (service : Service φ σ) :
    Progress φ σ (Option Ending) → Prop where
  | cancelled (cancelled : station.desk.sessionCancelled service.link = true) :
      Turned station patience service ⟨.ok (some .cancelled), service, []⟩
  | fault {failure : Failure} {link : σ}
      (continues : station.desk.sessionCancelled service.link = false)
      (read : station.desk.transport.read service.link = (.error failure, link)) :
      Turned station patience service
        ⟨.error (.failed failure), { service with link },
          [⟨.read (.error failure), { service with link }⟩]⟩
  | nothing {link : σ} (continues : station.desk.sessionCancelled service.link = false)
      (read : station.desk.transport.read service.link = (.ok none, link)) :
      Turned station patience service
        ⟨.ok (if station.desk.transport.isOpen link then none else some .endOfInput),
          { service with link }, [⟨.read (.ok none), { service with link }⟩]⟩
  | line {raw : String} {link : σ}
      (continues : station.desk.sessionCancelled service.link = false)
      (read : station.desk.transport.read service.link = (.ok (some raw), link)) :
      Turned station patience service
        ⟨ended (station.handle patience raw { service with link }).outcome,
          (station.handle patience raw { service with link }).service,
          ⟨.read (.ok (some raw)), { service with link }⟩ ::
            (station.handle patience raw { service with link }).record⟩

theorem turned (station : Station φ σ) (patience : Nat) (service : Service φ σ) :
    Turned station patience service (station.turn patience service) := by
  cases continues : station.desk.sessionCancelled service.link with
  | true =>
      rw [turn_of_cancelled patience continues]
      exact .cancelled continues
  | false =>
      rcases read : station.desk.transport.read service.link with ⟨failure | _ | raw, link⟩
      · rw [turn_of_fault patience continues read]
        exact .fault continues read
      · rw [turn_of_nothing patience continues read]
        exact .nothing continues read
      · rw [turn_of_line patience continues read]
        exact .line continues read

/-- The five ways in which a line is handled. -/
inductive Handled (station : Station φ σ) (patience : Nat) (raw : String) (service : Service φ σ) :
    Progress φ σ Unit → Prop where
  | ignored (isIgnored : Session.isIgnored station.settings (trimText raw) = true)
      {after : Service φ σ}
      (counted : after =
        { service with received := service.received + 1, ignored := service.ignored + 1 }) :
      Handled station patience raw service
        ⟨.ok (), after, [⟨.ignored (trimText raw), after⟩]⟩
  | stopped {stop : Stop} {state : φ} {link : σ}
      (heard : Session.isIgnored station.settings (trimText raw) = false)
      (processed : station.firmware.process station.desk.host patience (trimText raw) service.state
        service.link = ⟨.error stop, state, link⟩) :
      Handled station patience raw service
        ⟨.error stop, service.took state link,
          [⟨.processed (trimText raw) (.error stop), service.took state link⟩]⟩
  | silent {response : String} {state : φ} {link : σ}
      (heard : Session.isIgnored station.settings (trimText raw) = false)
      (processed : station.firmware.process station.desk.host patience (trimText raw) service.state
        service.link = ⟨.ok response, state, link⟩)
      (silent : response.toList.isEmpty = true) :
      Handled station patience raw service
        ⟨.ok (), service.took state link,
          [⟨.processed (trimText raw) (.ok response), service.took state link⟩]⟩
  | sent {response : String} {state : φ} {link finalLink : σ}
      (heard : Session.isIgnored station.settings (trimText raw) = false)
      (processed : station.firmware.process station.desk.host patience (trimText raw) service.state
        service.link = ⟨.ok response, state, link⟩)
      (spoken : response.toList.isEmpty = false)
      (sent : station.desk.transport.send response link = (.ok (), finalLink))
      {after : Service φ σ}
      (counted : after =
        { service.took state finalLink with answered := service.answered + 1 }) :
      Handled station patience raw service
        ⟨.ok (), after,
          [⟨.processed (trimText raw) (.ok response), service.took state link⟩,
            ⟨.responded response (.ok ()), after⟩]⟩
  | refused {response : String} {failure : Failure} {state : φ} {link finalLink : σ}
      (heard : Session.isIgnored station.settings (trimText raw) = false)
      (processed : station.firmware.process station.desk.host patience (trimText raw) service.state
        service.link = ⟨.ok response, state, link⟩)
      (spoken : response.toList.isEmpty = false)
      (refused : station.desk.transport.send response link = (.error failure, finalLink)) :
      Handled station patience raw service
        ⟨.error (.failed failure), service.took state finalLink,
          [⟨.processed (trimText raw) (.ok response), service.took state link⟩,
            ⟨.responded response (.error failure), service.took state finalLink⟩]⟩

theorem handled (station : Station φ σ) (patience : Nat) (raw : String) (service : Service φ σ) :
    Handled station patience raw service (station.handle patience raw service) := by
  cases ignored : Session.isIgnored station.settings (trimText raw) with
  | true =>
      simp only [handle, ignored, if_true]
      exact .ignored ignored rfl
  | false =>
      rcases processed : station.firmware.process station.desk.host patience (trimText raw)
        service.state service.link with ⟨stop | response, state, link⟩
      · simp only [handle, ignored, processed]
        exact .stopped ignored processed
      · cases silent : response.toList.isEmpty with
        | true =>
            simp only [handle, ignored, processed, answer, silent]
            exact .silent ignored processed silent
        | false =>
            rcases sent : station.desk.transport.send response link with ⟨failure | _, finalLink⟩
            · simp only [handle, ignored, processed, answer, silent, Service.took, sent]
              exact .refused ignored processed silent sent
            · simp only [handle, ignored, processed, answer, silent, Service.took, sent]
              exact .sent ignored processed silent sent rfl

/-! ### More patience -/

theorem handle_more {patience more : Nat} (raw : String) (service : Service φ σ)
    (ended : (station.handle patience raw service).outcome ≠ .error .outOfPatience)
    (enough : patience ≤ more) :
    station.handle more raw service = station.handle patience raw service := by
  cases ignored : Session.isIgnored station.settings (trimText raw) with
  | true => simp only [handle, ignored, if_true]
  | false =>
      have processed : station.firmware.process station.desk.host more (trimText raw)
          service.state service.link =
            station.firmware.process station.desk.host patience (trimText raw) service.state
              service.link := by
        refine station.firmware.steady _ _ _ _ (fun stopped => ended ?_) enough
        simp [handle, ignored, stopped]
      simp only [handle, ignored, processed]

theorem turn_more {patience more : Nat} (service : Service φ σ)
    (unfinished : (station.turn patience service).outcome ≠ .error .outOfPatience)
    (enough : patience ≤ more) : station.turn more service = station.turn patience service := by
  cases continues : station.desk.sessionCancelled service.link with
  | true => rw [turn_of_cancelled _ continues, turn_of_cancelled _ continues]
  | false =>
      rcases read : station.desk.transport.read service.link with ⟨failure | _ | raw, link⟩
      · rw [turn_of_fault _ continues read, turn_of_fault _ continues read]
      · rw [turn_of_nothing _ continues read, turn_of_nothing _ continues read]
      · rw [turn_of_line _ continues read] at unfinished ⊢
        rw [turn_of_line _ continues read, handle_more raw _ _ enough]
        exact fun stopped => unfinished (ended_eq_outOfPatience.2 stopped)

theorem run_more {patience more : Nat} (service : Service φ σ)
    (unfinished : (station.run patience service).outcome ≠ .error .outOfPatience)
    (enough : patience ≤ more) : station.run more service = station.run patience service := by
  induction patience generalizing more service with
  | zero => exact absurd rfl unfinished
  | succ patience inductionHypothesis =>
      obtain ⟨rest, rfl⟩ : ∃ rest, more = rest + 1 := ⟨more - 1, by omega⟩
      have turnEnded : (station.turn patience service).outcome ≠ .error .outOfPatience := by
        intro stopped
        apply unfinished
        simp [run, stopped]
      simp only [run, turn_more service turnEnded (Nat.le_of_succ_le_succ enough)]
      rcases reached : (station.turn patience service).outcome with stop | _ | ending
      · rfl
      · simp only [run, reached] at unfinished
        rw [inductionHypothesis _ unfinished (by omega)]
      · rfl

/-- The run of a service comes to an end, whatever the end is. -/
def Completes (station : Station φ σ) (service : Service φ σ) (progress : Progress φ σ Summary) :
    Prop :=
  progress.outcome ≠ .error .outOfPatience ∧
    Lasts (fun patience => station.run patience service) progress

theorem completes_of_run {patience : Nat} {service : Service φ σ}
    (ended : (station.run patience service).outcome ≠ .error .outOfPatience) :
    station.Completes service (station.run patience service) :=
  ⟨ended, patience, fun _ enough => run_more service ended enough⟩

end Station

/-! ### With a board as the firmware -/

/-- The service of a session. -/
def Session.service {α σ : Type} (session : Session α σ) : Service (Board α) σ :=
  ⟨session.board, session.link, session.received, session.ignored, session.answered⟩

theorem Session.service_injective {α σ : Type} {first second : Session α σ}
    (same : first.service = second.service) : first = second := by
  cases first
  cases second
  cases same
  rfl

namespace Station

variable {α σ : Type} [Quantity α] (desk : Desk σ) (settings : SessionSettings)

def ofBoard : Station (Board α) σ := ⟨Board.firmware, desk, settings⟩

theorem answer_ofBoard (response : String) (session : Session α σ) :
    ((ofBoard desk settings).answer response session.service).result =
      ((session.answer desk response).outcome, (session.answer desk response).session.service) := by
  cases silent : response.toList.isEmpty with
  | true => simp [answer, Session.answer, silent, Progress.result]
  | false =>
      rcases sent : desk.transport.send response session.link with ⟨failure | _, link⟩
      · rw [Session.answer_of_refused silent sent]
        simp [answer, silent, ofBoard, Session.service, sent, Progress.result]
      · rw [Session.answer_of_sent silent sent]
        simp [answer, silent, ofBoard, Session.service, sent, Progress.result]

theorem handle_ofBoard (patience : Nat) (raw : String) (session : Session α σ) :
    ((ofBoard desk settings).handle patience raw session.service).result =
      ((session.handle desk settings patience raw).outcome,
        (session.handle desk settings patience raw).session.service) := by
  cases ignored : Session.isIgnored settings (trimText raw) with
  | true =>
      rw [Session.handle_of_ignored desk patience session ignored]
      simp [handle, ofBoard, ignored, Session.service, Progress.result]
  | false =>
      rcases processed : session.board.process desk.host patience (trimText raw) session.link with
        ⟨stop | response, board, link, actions⟩
      · rw [Session.handle_of_stop session ignored processed rfl]
        simp [handle, ofBoard, Board.firmware, ignored, Session.service, Service.took,
          Session.took, processed, Progress.result]
      · have answered := answer_ofBoard desk settings response
          (session.took ⟨.ok response, board, link, actions⟩)
        rw [Session.handle_of_response session ignored processed rfl]
        simpa [handle, ofBoard, Board.firmware, ignored, Session.service, Service.took,
          Session.took, processed, Progress.result, Progress.after, Exchange.after] using answered

omit [Quantity α] in
theorem outcome_endTurn (exchange : Exchange α σ Unit) :
    (Session.endTurn exchange).outcome = ended exchange.outcome := by
  obtain ⟨(failure | _) | _, session, actions⟩ := exchange
  · cases failure <;> rfl
  · rfl
  · rfl

theorem turn_ofBoard (patience : Nat) (session : Session α σ) :
    ((ofBoard desk settings).turn patience session.service).result =
      ((session.turn desk settings patience).outcome,
        (session.turn desk settings patience).session.service) := by
  cases continues : desk.sessionCancelled session.link with
  | true =>
      rw [Session.turn_of_cancelled settings patience continues, turn_of_cancelled patience continues]
      rfl
  | false =>
      rcases read : desk.transport.read session.link with ⟨failure | _ | raw, link⟩
      · rw [Session.turn_of_fault settings patience continues read,
          turn_of_fault patience continues read]
        rfl
      · rw [Session.turn_of_nothing settings patience continues read,
          turn_of_nothing patience continues read]
        rfl
      · rw [Session.turn_of_line settings patience continues read,
          turn_of_line patience continues read]
        obtain ⟨sameOutcome, sameService⟩ :=
          Prod.mk.inj (handle_ofBoard desk settings patience raw { session with link })
        rw [outcome_endTurn, Session.session_endTurn, ← sameOutcome, ← sameService]
        rfl

/-- Without its record, the run of a service over a board is the run of the session. -/
theorem run_ofBoard (patience : Nat) (session : Session α σ) :
    ((ofBoard desk settings).run patience session.service).result =
      ((session.run desk settings patience).1, (session.run desk settings patience).2.service) := by
  induction patience generalizing session with
  | zero => rfl
  | succ patience inductionHypothesis =>
      obtain ⟨sameOutcome, sameService⟩ := Prod.mk.inj (turn_ofBoard desk settings patience session)
      rw [run, Session.run]
      rcases reached : (session.turn desk settings patience).outcome with stop | _ | ending <;>
        simp only [sameOutcome, sameService, reached]
      · rfl
      · exact inductionHypothesis _
      · rfl

/-- A session comes to an end just when its service does, and to the same end. -/
theorem completes_ofBoard {session final : Session α σ} {outcome : Except Stop Summary} :
    session.Completes desk settings (outcome, final) ↔
      ∃ record,
        (ofBoard desk settings).Completes session.service ⟨outcome, final.service, record⟩ := by
  constructor
  · rintro ⟨unfinished, patience, lasts⟩
    have ran : session.run desk settings patience = (outcome, final) :=
      lasts patience (Nat.le_refl patience)
    have same := run_ofBoard desk settings patience session
    rw [ran] at same
    rcases served : (ofBoard desk settings).run patience session.service with
      ⟨returned, after, record⟩
    rw [served] at same
    obtain ⟨rfl, rfl⟩ : returned = outcome ∧ after = final.service := Prod.mk.inj same
    exact ⟨record, served ▸ completes_of_run (by rwa [served])⟩
  · rintro ⟨record, unfinished, patience, lasts⟩
    have served : (ofBoard desk settings).run patience session.service =
        ⟨outcome, final.service, record⟩ := lasts patience (Nat.le_refl patience)
    have same := run_ofBoard desk settings patience session
    rw [served] at same
    rcases ran : session.run desk settings patience with ⟨returned, after⟩
    rw [ran] at same
    obtain ⟨rfl, sameService⟩ : outcome = returned ∧ final.service = after.service :=
      Prod.mk.inj same
    obtain rfl := Session.service_injective sameService
    exact ran ▸ Session.completes_of_run (by rwa [ran])

end Station

end BenchPrinter
