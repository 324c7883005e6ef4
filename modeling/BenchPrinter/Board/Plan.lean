import BenchPrinter.Board.State
import BenchPrinter.Command.Table
import BenchPrinter.Command.Word
import BenchPrinter.Report.Probing
import BenchPrinter.Report.Texts

/-!
What a board does about a line, as data. A plan is a list of steps, perhaps a heater to wait for,
and a reply. Only three kinds of steps involve the host: a checkpoint asks whether the work is
cancelled, and two send a line. All others change the board alone.
-/

namespace BenchPrinter

inductive Step (α : Type) where
  | sleep (milliseconds : UInt64)
  | checkpoint
  | send (line : String)
  | sendTemperatures
  | updateHeaters
  | move (axis : Axis) (value : α)
  | home (axes : List Axis)
  | setMode (mode : AxisMode)
  | aim (id : HeaterId) (target : α)

/-- What a step asks of the host. -/
inductive Request where
  | nothing
  | permission
  | delivery (line : String)
deriving DecidableEq

namespace Step

variable {α : Type} [Quantity α]

def request (board : Board α) : Step α → Request
  | checkpoint => .permission
  | send line => .delivery line
  | sendTemperatures => .delivery (Report.temperatures board.printer.heaters false)
  | _ => .nothing

/-- The board after the step, once the host has granted what the step asks. -/
def apply (board : Board α) : Step α → Board α
  | sleep milliseconds => { board with clock := board.clock.after milliseconds }
  | updateHeaters => board.updateHeaters
  | move axis value => { board with printer := board.printer.move axis value }
  | home axes => { board with printer := board.printer.home axes }
  | setMode mode => { board with printer := { board.printer with mode } }
  | aim id target =>
      { board with
        printer := { board.printer with heaters := board.printer.heaters.aim id target } }
  | checkpoint => board
  | send _ => board
  | sendTemperatures => board

/-- Each keep-alive is sent before its interval passes. -/
def busy (interval : UInt64) : Nat → List (Step α)
  | 0 => []
  | count + 1 => checkpoint :: send Report.busy :: sleep interval :: busy interval count

/-- One round of waiting reports the temperatures twice, one interval apart. -/
def waitingRound (interval : UInt64) : List (Step α) :=
  busy interval 1 ++
    [updateHeaters, sendTemperatures, checkpoint, sleep interval, updateHeaters, sendTemperatures]

/-- The canned probing session. -/
def probing (interval : UInt64) : List (Step α) :=
  send Probing.banner :: busy interval Probing.busyPerStep ++
    (Probing.points.flatMap fun point =>
      send (Probing.line point) :: busy interval Probing.busyPerStep) ++
    Probing.grid.map send

end Step

/-- The answer is decided before the work begins, but its numbers are those at the end of it. -/
inductive Reply where
  | silence
  | text (line : String)
  | temperatures
  | position
deriving DecidableEq

namespace Reply

variable {α : Type} [Quantity α]

def render (board : Board α) : Reply → String
  | silence => ""
  | text line => line
  | temperatures => Report.temperatures board.printer.heaters true
  | position => Report.position board.printer.position

def acknowledgement : Reply := text Report.acknowledgement

end Reply

structure Plan (α : Type) where
  steps : List (Step α)
  waitsFor : Option HeaterId
  reply : Reply

namespace Plan

variable {α : Type} [Quantity α]

omit [Quantity α] in
def ofReply (reply : Reply) : Plan α := ⟨[], none, reply⟩

omit [Quantity α] in
def acknowledge (steps : List (Step α)) : Plan α := ⟨steps, none, .acknowledgement⟩

/-- The axes are moved in a fixed order, whatever their order on the line. -/
def linearMove (line : List Char) : Plan α :=
  acknowledge (Axis.all.filterMap fun axis => (Words.coordinate? axis line).map (Step.move axis))

/-- A blocking heat sends no final answer; the host asks for the temperatures itself. -/
def heatAndWait (id : HeaterId) (line : List Char) : Plan α :=
  match Words.waitTarget? line with
  | some target => ⟨[.aim id target], some id, .silence⟩
  | none => .ofReply .silence

def ofCommand (interval : UInt64) (line : String) : Command → Plan α
  | .linearMove => linearMove line.toList
  | .home => acknowledge (Step.busy interval 3 ++ [.home (Words.homingAxes line.toList)])
  | .probeBed => acknowledge (Step.probing interval)
  | .axisMode mode => acknowledge [.setMode mode]
  | .setTarget id =>
      match Words.target? line.toList with
      | some target => acknowledge [.aim id target]
      | none => acknowledge []
  | .heatAndWait id => heatAndWait id line.toList
  | .reportTemperatures => ⟨[.updateHeaters], none, .temperatures⟩
  | .reportPosition => .ofReply .position
  | .fanOn => .ofReply (.text (Report.acknowledged line))
  | .fanOff =>
      .ofReply (.text (Report.fanOff (String.ofList ((Words.fan? line.toList).getD ['0']))))
  | .feedRate =>
      match Words.feedPercent? line.toList with
      | some percent => .ofReply (.text (Report.feedRate (String.ofList percent)))
      | none => .ofReply .acknowledgement

/-- Every line first takes the line delay. -/
def ofLine (board : Board α) (line : String) : Plan α :=
  let plan : Plan α :=
    match Command.find? line.toList with
    | some entry => ofCommand board.busyInterval line entry.2
    | none => .ofReply (.text (Command.fallback line.toList))
  { plan with steps := .sleep board.lineDelay :: plan.steps }

end Plan

end BenchPrinter
