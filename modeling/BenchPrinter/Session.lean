import BenchPrinter.Board.Run
import BenchPrinter.Link.Transport
import BenchPrinter.Text.Blank

/-!
A session between a host and a board. It reads a line, drops it when it is a log line of the host,
and otherwise passes it to the board and sends the answer. It runs until its token is set or the
input ends.
-/

namespace BenchPrinter

/-- The poll interval is in milliseconds; an empty prefix drops no line. -/
structure SessionSettings where
  ignoredStart : String
  pollInterval : UInt64
deriving DecidableEq

def SessionSettings.standard : SessionSettings := ⟨"[", 10⟩

/-- What a session works with: a transport, and the two tokens that can be set while it runs. -/
structure Desk (σ : Type) where
  transport : Transport σ
  sessionCancelled : σ → Bool
  boardCancelled : σ → Bool

namespace Desk

variable {σ : Type}

/-- One token serves the session and the board. -/
def sharing (transport : Transport σ) (cancelled : σ → Bool) : Desk σ :=
  ⟨transport, cancelled, cancelled⟩

/-- The board sees the sending half of the transport only. -/
def host (desk : Desk σ) : Host σ :=
  ⟨desk.transport.send, desk.boardCancelled⟩

end Desk

inductive Ending where
  | cancelled
  | endOfInput
deriving DecidableEq

/-- The counters grow over all the calls of a session. -/
structure Session (α σ : Type) where
  board : Board α
  link : σ
  received : Nat
  ignored : Nat
  answered : Nat

structure Summary where
  received : Nat
  ignored : Nat
  answered : Nat
  ending : Ending
deriving DecidableEq

/-- The outcome of some work of a session, with the session after it and what was observed
meanwhile. -/
structure Exchange (α σ β : Type) where
  outcome : Except Stop β
  session : Session α σ
  actions : List Action

/-- The actions of earlier work come first. -/
def Exchange.after {α σ β : Type} (actions : List Action) (exchange : Exchange α σ β) :
    Exchange α σ β :=
  { exchange with actions := actions ++ exchange.actions }

namespace Session

variable {α σ : Type}

def start (board : Board α) (link : σ) : Session α σ := ⟨board, link, 0, 0, 0⟩

def summary (session : Session α σ) (ending : Ending) : Summary :=
  ⟨session.received, session.ignored, session.answered, ending⟩

/-- A line of the host's log is not for the board. -/
def isIgnored (settings : SessionSettings) (line : String) : Bool :=
  !settings.ignoredStart.toList.isEmpty &&
    settings.ignoredStart.toList.isPrefixOf line.toList

variable [Quantity α]

/-- An answer counts once it is sent; an empty answer is not sent. -/
def answer (desk : Desk σ) (response : String) (session : Session α σ) : Exchange α σ Unit :=
  if response.toList.isEmpty then ⟨.ok (), session, []⟩
  else
    match desk.transport.send response session.link with
    | (.ok (), link) =>
        ⟨.ok (), { session with link, answered := session.answered + 1 }, [.sent response]⟩
    | (.error failure, link) =>
        ⟨.error (.failed failure), { session with link }, [.refused response]⟩

/-- The blanks at both ends of a line do not matter. -/
def handle (desk : Desk σ) (settings : SessionSettings) (patience : Nat) (raw : String)
    (session : Session α σ) : Exchange α σ Unit :=
  let line := trimText raw
  let session := { session with received := session.received + 1 }
  if isIgnored settings line then ⟨.ok (), { session with ignored := session.ignored + 1 }, []⟩
  else
    let attempt := session.board.process desk.host patience line session.link
    let session := { session with board := attempt.board, link := attempt.host }
    match attempt.outcome with
    | .ok response => (session.answer desk response).after attempt.actions
    | .error stop => ⟨.error stop, session, attempt.actions⟩

/-- The token is looked at, and then one read is made. A cancelled line ends the session like a
token that is set before it. -/
def turn (desk : Desk σ) (settings : SessionSettings) (patience : Nat) (session : Session α σ) :
    Exchange α σ (Option Ending) :=
  if desk.sessionCancelled session.link then ⟨.ok (some .cancelled), session, []⟩
  else
    match desk.transport.read session.link with
    | (.error failure, link) => ⟨.error (.failed failure), { session with link }, []⟩
    | (.ok none, link) =>
        let ending := if desk.transport.isOpen link then none else some .endOfInput
        ⟨.ok ending, { session with link }, []⟩
    | (.ok (some line), link) =>
        let exchange := handle desk settings patience line { session with link }
        match exchange.outcome with
        | .ok () => ⟨.ok none, exchange.session, exchange.actions⟩
        | .error (.failed .cancelled) =>
            ⟨.ok (some .cancelled), exchange.session, exchange.actions⟩
        | .error stop => ⟨.error stop, exchange.session, exchange.actions⟩

/-- Turns are taken until one of them ends the session. Patience counts the turns. -/
def run (desk : Desk σ) (settings : SessionSettings) :
    Nat → Session α σ → Except Stop Summary × Session α σ
  | 0, session => (.error .outOfPatience, session)
  | patience + 1, session =>
      let exchange := session.turn desk settings patience
      match exchange.outcome with
      | .ok none => exchange.session.run desk settings patience
      | .ok (some ending) => (.ok (exchange.session.summary ending), exchange.session)
      | .error stop => (.error stop, exchange.session)

end Session

end BenchPrinter
