import BenchPrinter.Link.Serial
import BenchPrinter.Proofs.Cutting

/-!
Reading from a serial port. Whatever the reads of the port give and whenever lines are sent in
between, the lines that come out are the lines of all the bytes that came in, one after the other,
and the bytes behind them stay pending.
-/

namespace BenchPrinter

/-- What is asked of a transport. -/
inductive Call where
  | read
  | send (line : String)

/-- A line, no line, or a failure. -/
abbrev Answer := Except Failure (Option String)

/-- The answers to the reads among the calls, and the transport after all of the calls. -/
def Transport.serve {σ : Type} (transport : Transport σ) : List Call → σ → List Answer × σ
  | [], link => ([], link)
  | .read :: later, link =>
      let (answers, after) := transport.serve later (transport.read link).2
      ((transport.read link).1 :: answers, after)
  | .send line :: later, link => transport.serve later (transport.send line link).2

/-- Every read is answered. -/
theorem Transport.length_serve {σ : Type} (transport : Transport σ) (count : Nat) (link : σ) :
    (transport.serve (List.replicate count .read) link).1.length = count := by
  induction count generalizing link with
  | zero => rfl
  | succ count inductionHypothesis =>
      rw [List.replicate_succ, serve, List.length_cons, inductionHypothesis]

namespace Answer

def line? : Answer → Option String
  | .ok line => line
  | .error _ => none

def failure? : Answer → Option Failure
  | .ok _ => none
  | .error failure => some failure

def lines (answers : List Answer) : List String := answers.filterMap line?

def failures (answers : List Answer) : List Failure := answers.filterMap failure?

@[simp] theorem lines_append (first second : List Answer) :
    lines (first ++ second) = lines first ++ lines second :=
  List.filterMap_append

@[simp] theorem failures_append (first second : List Answer) :
    failures (first ++ second) = failures first ++ failures second :=
  List.filterMap_append

end Answer

namespace Reading

/-- All the bytes that the reads give. -/
def payload (reads : List Reading) : List UInt8 :=
  reads.flatMap fun
    | .bytes chunk => chunk
    | .fault _ => []

@[simp] theorem payload_nil : payload [] = [] := rfl

@[simp] theorem payload_bytes (chunk : List UInt8) (later : List Reading) :
    payload (.bytes chunk :: later) = chunk ++ payload later :=
  List.flatMap_cons

@[simp] theorem payload_fault (fault : Fault) (later : List Reading) :
    payload (.fault fault :: later) = payload later :=
  List.flatMap_cons

end Reading

namespace Device

/-- What one read of a device gives. -/
abbrev Result := Except Fault (List UInt8)

/-- All the bytes that are still to be read. -/
def input (device : Device) : List UInt8 := Reading.payload device.reads

variable (limit : Nat) (atEnd : Result)

/-- What the first so many reads give. -/
def results : Nat → Device → List Result
  | 0, _ => []
  | count + 1, device =>
      (device.read limit atEnd).1 :: results count (device.read limit atEnd).2

def afterReads : Nat → Device → Device
  | 0, device => device
  | count + 1, device => afterReads count (device.read limit atEnd).2

/-- The bytes among the results. -/
def received (results : List Result) : List UInt8 :=
  results.flatMap fun
    | .ok chunk => chunk
    | .error _ => []

theorem read_congr {device other : Device} (same : device.reads = other.reads) :
    (device.read limit atEnd).1 = (other.read limit atEnd).1 ∧
      (device.read limit atEnd).2.reads = (other.read limit atEnd).2.reads := by
  unfold read
  rw [same]
  split
  · exact ⟨rfl, same⟩
  · exact ⟨rfl, rfl⟩
  · exact ⟨rfl, rfl⟩

/-- What was written meanwhile does not matter to the reads. -/
theorem results_congr (count : Nat) {device other : Device} (same : device.reads = other.reads) :
    device.results limit atEnd count = other.results limit atEnd count ∧
      (device.afterReads limit atEnd count).reads = (other.afterReads limit atEnd count).reads := by
  induction count generalizing device other with
  | zero => exact ⟨rfl, same⟩
  | succ count inductionHypothesis =>
      obtain ⟨sameResult, sameReads⟩ := read_congr limit atEnd same
      obtain ⟨sameResults, sameLater⟩ := inductionHypothesis sameReads
      exact ⟨by rw [results, results, sameResult, sameResults], sameLater⟩

variable {limit} {atEnd}

theorem results_add (first second : Nat) (device : Device) :
    device.results limit atEnd (first + second) =
      device.results limit atEnd first ++
        (device.afterReads limit atEnd first).results limit atEnd second := by
  induction first generalizing device with
  | zero => rw [Nat.zero_add]; rfl
  | succ first inductionHypothesis =>
      rw [Nat.succ_add, results, inductionHypothesis]
      rfl

theorem afterReads_add (first second : Nat) (device : Device) :
    device.afterReads limit atEnd (first + second) =
      (device.afterReads limit atEnd first).afterReads limit atEnd second := by
  induction first generalizing device with
  | zero => rw [Nat.zero_add]; rfl
  | succ first inductionHypothesis =>
      rw [Nat.succ_add, afterReads, inductionHypothesis]
      rfl

@[simp] theorem received_append (first second : List Result) :
    received (first ++ second) = received first ++ received second :=
  List.flatMap_append

/-- A read takes what it gives from the bytes to be read. -/
theorem received_read (limit : Nat) (fault : Fault) (device : Device) :
    received [(device.read limit (.error fault)).1] ++ (device.read limit (.error fault)).2.input =
      device.input := by
  unfold read
  rcases reads : device.reads with _ | ⟨chunk | fault, rest⟩
  · simp [received, input, reads]
  · by_cases long : limit < chunk.length
    · simp only [long, if_true, received, input, reads, List.flatMap_cons, List.flatMap_nil,
        List.append_nil, Reading.payload_bytes, ← List.append_assoc, List.take_append_drop]
    · have whole : chunk.take limit = chunk := List.take_of_length_le (by omega)
      simp [long, received, input, reads, whole]
  · simp [received, input, reads]

/-- A read that gives no bytes is over with one result. -/
theorem length_read (positive : 0 < limit) {device after : Device} {chunk : List UInt8}
    {fault : Fault} (read : device.read limit (.error fault) = (.ok chunk, after)) :
    after.reads.length ≤ device.reads.length ∧
      (chunk = [] → after.reads.length < device.reads.length) := by
  unfold Device.read at read
  rcases reads : device.reads with _ | ⟨whole | fault, later⟩ <;> rw [reads] at read
  · cases read
  · cases read
    by_cases long : limit < whole.length
    · have filled : whole.take limit ≠ [] := by
        intro empty
        have length := congrArg List.length empty
        simp only [List.length_take, List.length_nil] at length
        omega
      simp [long, filled]
    · simp [long]
  · cases read

theorem received_results (limit : Nat) (fault : Fault) (count : Nat) (device : Device) :
    received (device.results limit (.error fault) count) ++
      (device.afterReads limit (.error fault) count).input = device.input := by
  induction count generalizing device with
  | zero => rfl
  | succ count inductionHypothesis =>
      rw [← received_read limit fault device,
        ← inductionHypothesis (device.read limit (.error fault)).2]
      simp [results, afterReads, received]

theorem reads_writeAll (data : List UInt8) (device : Device) :
    (device.writeAll data).2.reads = device.reads := by
  unfold writeAll
  dsimp only
  split <;> rfl

theorem reads_flush (device : Device) : device.flush.2.reads = device.reads := by
  unfold flush
  split <;> rfl

theorem reads_deliver (pieces : List (List UInt8)) (device : Device) :
    (device.deliver pieces).2.reads = device.reads := by
  induction pieces generalizing device with
  | nil => exact reads_flush device
  | cons piece rest inductionHypothesis =>
      have kept := reads_writeAll piece device
      rw [deliver]
      split <;> rename_i written <;> rw [written] at kept
      · rw [inductionHypothesis, kept]
      · exact kept

end Device

namespace SerialLink

/-- What the first so many reads of the port give. -/
def results (count : Nat) (port : Device) : List Device.Result :=
  port.results readSize (.error idle) count

def portAfter (count : Nat) (port : Device) : Device :=
  port.afterReads readSize (.error idle) count

theorem results_add (first second : Nat) (port : Device) :
    results (first + second) port = results first port ++ results second (portAfter first port) :=
  Device.results_add first second port

theorem portAfter_add (first second : Nat) (port : Device) :
    portAfter (first + second) port = portAfter second (portAfter first port) :=
  Device.afterReads_add first second port

/-- The answers that say the lines in the bytes. -/
def spoken (bytes : List UInt8) : List Answer :=
  (Cut.ended newline bytes).map fun line => .ok (some (decodeLine line))

/-- The answer to a fault of the port. -/
def complaint (fault : Fault) : Answer :=
  if isIdle fault then .ok none else .error (.lost fault.message)

/-- The lines in the bytes, or no line when they complete none. -/
def replies (bytes : List UInt8) : List Answer :=
  match spoken bytes with
  | [] => [.ok none]
  | answers => answers

/-- The answers that are due for the results of the port. The bytes behind a newline wait for the
next results. -/
def due : List UInt8 → List Device.Result → List Answer
  | _, [] => []
  | pending, .error fault :: later => complaint fault :: due pending later
  | pending, .ok chunk :: later =>
      replies (pending ++ chunk) ++ due (Cut.rest newline (pending ++ chunk)) later

/-- The failures that the results of the port amount to. -/
def losses (results : List Device.Result) : List Failure :=
  results.filterMap fun
    | .ok _ => none
    | .error fault => if isIdle fault then none else some (.lost fault.message)

theorem spoken_of_absent {bytes : List UInt8} (absent : newline ∉ bytes) : spoken bytes = [] := by
  rw [spoken, Cut.ended_of_absent absent]
  rfl

theorem lines_spoken (bytes : List UInt8) :
    Answer.lines (spoken bytes) = (Cut.ended newline bytes).map decodeLine := by
  rw [Answer.lines, spoken, List.filterMap_map]
  exact congrFun List.filterMap_eq_map _

theorem failures_spoken (bytes : List UInt8) : Answer.failures (spoken bytes) = [] := by
  rw [Answer.failures, spoken, List.filterMap_map]
  exact List.filterMap_eq_nil_iff.2 fun _ _ => rfl

theorem lines_replies (bytes : List UInt8) :
    Answer.lines (replies bytes) = (Cut.ended newline bytes).map decodeLine := by
  rw [← lines_spoken, replies]
  split
  · rename_i silent
    rw [silent]
    rfl
  · rfl

theorem failures_replies (bytes : List UInt8) : Answer.failures (replies bytes) = [] := by
  rw [replies]
  split
  · rfl
  · exact failures_spoken bytes

theorem lines_due (results : List Device.Result) {pending : List UInt8}
    (absent : newline ∉ pending) :
    Answer.lines (due pending results) =
      (Cut.ended newline (pending ++ Device.received results)).map decodeLine := by
  induction results generalizing pending with
  | nil => simp [due, Device.received, Cut.ended_of_absent absent, Answer.lines]
  | cons result later inductionHypothesis =>
      cases result with
      | error fault =>
          have silent : Answer.lines [complaint fault] = [] := by
            rw [complaint]
            split <;> rfl
          rw [due, ← List.singleton_append, Answer.lines_append, silent,
            inductionHypothesis absent]
          rfl
      | ok chunk =>
          have bytes : Device.received (.ok chunk :: later) = chunk ++ Device.received later := rfl
          rw [due, Answer.lines_append, lines_replies, inductionHypothesis (Cut.not_mem_rest _),
            bytes, ← List.append_assoc, Cut.ended_append (pending ++ chunk), List.map_append]

theorem due_append (earlier later : List Device.Result) {pending : List UInt8}
    (absent : newline ∉ pending) :
    due pending (earlier ++ later) =
      due pending earlier ++ due (Cut.rest newline (pending ++ Device.received earlier)) later := by
  induction earlier generalizing pending with
  | nil => simp [due, Device.received, Cut.rest_of_absent absent]
  | cons result earlier inductionHypothesis =>
      cases result with
      | error fault =>
          rw [List.cons_append, due, due, inductionHypothesis absent]
          rfl
      | ok chunk =>
          have bytes : Device.received (.ok chunk :: earlier) = chunk ++ Device.received earlier :=
            rfl
          rw [List.cons_append, due, due, inductionHypothesis (Cut.not_mem_rest _), bytes,
            ← List.append_assoc, ← List.append_assoc, Cut.rest_append (pending ++ chunk)]

theorem failures_due (results : List Device.Result) (pending : List UInt8) :
    Answer.failures (due pending results) = losses results := by
  induction results generalizing pending with
  | nil => rfl
  | cons result later inductionHypothesis =>
      cases result with
      | error fault =>
          rw [due, ← List.singleton_append, Answer.failures_append, inductionHypothesis, complaint,
            losses, losses, List.filterMap_cons]
          split <;> rename_i idle <;> simp [idle, Answer.failures, Answer.failure?]
      | ok chunk =>
          rw [due, Answer.failures_append, failures_replies, inductionHypothesis]
          rfl

section

variable {link : SerialLink}

theorem read_of_line {line after : List UInt8} (free : newline ∉ line)
    (buffered : link.buffer.pending = line ++ newline :: after) :
    link.read = (.ok (some (decodeLine line)), { link with buffer := ⟨after⟩ }) := by
  obtain ⟨name, ⟨pending⟩, port⟩ := link
  obtain rfl : pending = line ++ newline :: after := buffered
  simp only [read, LineBuffer.nextLine_of_line free]

theorem read_of_absent (absent : newline ∉ link.buffer.pending) : link.read = link.receive := by
  rw [read, LineBuffer.nextLine_of_absent absent]

theorem receive_of_fault {fault : Fault} {port : Device}
    (read : link.port.read readSize (.error idle) = (.error fault, port)) :
    link.receive = (complaint fault, { link with port }) := by
  rw [receive, read, complaint]
  dsimp only
  split <;> rfl

/-- A chunk is answered with the first of its lines, and the others are buffered. -/
theorem receive_of_chunk (absent : newline ∉ link.buffer.pending) {chunk : List UInt8}
    {port : Device} (read : link.port.read readSize (.error idle) = (.ok chunk, port)) :
    ∃ answer buffer, link.receive = (answer, { link with buffer, port }) ∧
      answer :: spoken buffer.pending = replies (link.buffer.pending ++ chunk) ∧
      Cut.rest newline buffer.pending = Cut.rest newline (link.buffer.pending ++ chunk) := by
  rw [receive, read]
  by_cases arrived : newline ∈ link.buffer.pending ++ chunk
  · obtain ⟨line, after, split, free⟩ := List.eq_append_cons_of_mem arrived
    have filled : chunk.isEmpty = false := by
      rw [Bool.eq_false_iff]
      intro empty
      simp [List.isEmpty_iff.1 empty, absent] at arrived
    have next : (link.buffer.push chunk).nextLine = (some (decodeLine line), ⟨after⟩) := by
      rw [LineBuffer.push, split, LineBuffer.nextLine_of_line free]
    refine ⟨.ok (some (decodeLine line)), ⟨after⟩, ?_, ?_, ?_⟩
    · simp only [filled, next]
      rfl
    · rw [split, replies, spoken, spoken, Cut.ended_of_piece free]
      rfl
    · rw [split, Cut.rest_of_piece free]
  · refine ⟨.ok none, link.buffer.push chunk, ?_, ?_, rfl⟩
    · have next : (link.buffer.push chunk).nextLine = (none, link.buffer.push chunk) :=
        LineBuffer.nextLine_of_absent arrived
      dsimp only
      split
      · rename_i empty
        simp [List.isEmpty_iff.1 empty, LineBuffer.push]
      · rw [next]
    · rw [replies, LineBuffer.push, spoken_of_absent arrived]

end

/-- The answers to some calls and the link after them fit what the port gave meanwhile. -/
structure Serves (link : SerialLink) (given : List Device.Result) (answers : List Answer)
    (after : SerialLink) : Prop where
  order : answers ++ spoken after.buffer.pending =
    spoken link.buffer.pending ++ due (Cut.rest newline link.buffer.pending) given
  rest : Cut.rest newline after.buffer.pending =
    Cut.rest newline (link.buffer.pending ++ Device.received given)

/-- Sending touches neither the buffer nor the reads. -/
theorem send_keeps (line : String) (link : SerialLink) :
    (link.send line).2.buffer = link.buffer ∧ (link.send line).2.port.reads = link.port.reads := by
  have kept := Device.reads_deliver [Utf8.encode line ++ [newline]] link.port
  rw [send]
  split <;> rename_i delivered <;> rw [delivered] at kept <;> exact ⟨rfl, kept⟩

theorem Serves.trans {link middle after : SerialLink} {given later : List Device.Result}
    {answers more : List Answer} (first : link.Serves given answers middle)
    (second : middle.Serves later more after) :
    link.Serves (given ++ later) (answers ++ more) after where
  order := by
    have bytes : Cut.rest newline (Cut.rest newline link.buffer.pending ++ Device.received given) =
        Cut.rest newline middle.buffer.pending := by
      rw [first.rest, ← Cut.rest_append]
    rw [due_append given later (Cut.not_mem_rest _), bytes, ← List.append_assoc, ← first.order,
      List.append_assoc, List.append_assoc, second.order]
  rest := by
    rw [second.rest, Device.received_append, ← List.append_assoc, Cut.rest_append, first.rest,
      ← Cut.rest_append]

/-- One call delivers a buffered line, or it asks the port once. -/
theorem read_serves (link : SerialLink) :
    ∃ count, link.read.2.port = portAfter count link.port ∧
      link.Serves (results count link.port) [link.read.1] link.read.2 := by
  by_cases buffered : newline ∈ link.buffer.pending
  · obtain ⟨line, after, split, free⟩ := List.eq_append_cons_of_mem buffered
    rw [read_of_line free split]
    refine ⟨0, rfl, ⟨?_, ?_⟩⟩
    · rw [split, spoken, spoken, Cut.ended_of_piece free]
      exact (List.append_nil _).symm
    · rw [split, Cut.rest_append, Cut.rest_of_piece free, ← Cut.rest_append]
      simp [results, Device.results, Device.received]
  · rw [read_of_absent buffered]
    rcases given : link.port.read readSize (.error idle) with ⟨fault | chunk, port⟩
    · have results : results 1 link.port = [.error fault] := by
        simp only [SerialLink.results, Device.results, given]
      rw [receive_of_fault given]
      refine ⟨1, by simp only [portAfter, Device.afterReads, given], ⟨?_, ?_⟩⟩
      · rw [results, spoken_of_absent buffered, Cut.rest_of_absent buffered]
        rfl
      · simp [results, Device.received]
    · have results : results 1 link.port = [.ok chunk] := by
        simp only [SerialLink.results, Device.results, given]
      obtain ⟨answer, buffer, received, spoke, rested⟩ := receive_of_chunk buffered given
      rw [received]
      refine ⟨1, by simp only [portAfter, Device.afterReads, given], ⟨?_, ?_⟩⟩
      · rw [results, spoken_of_absent buffered, Cut.rest_of_absent buffered, due, due, ← spoke]
        simp
      · simpa [results, Device.received] using rested

/-- Call after call the link passes on what the port gives. -/
theorem serve_serves (calls : List Call) (link : SerialLink) :
    ∃ count, (transport.serve calls link).2.port.reads = (portAfter count link.port).reads ∧
      link.Serves (results count link.port) (transport.serve calls link).1
        (transport.serve calls link).2 := by
  induction calls generalizing link with
  | nil =>
      refine ⟨0, rfl, ⟨?_, ?_⟩⟩
      · exact (List.append_nil _).symm
      · simp [Transport.serve, results, Device.results, Device.received]
  | cons call later inductionHypothesis =>
      cases call with
      | read =>
          obtain ⟨first, port, serves⟩ := read_serves link
          obtain ⟨count, reads, servesLater⟩ := inductionHypothesis link.read.2
          refine ⟨first + count, ?_, ?_⟩
          · rw [portAfter_add, ← port]
            exact reads
          · rw [results_add, ← port]
            exact serves.trans servesLater
      | send line =>
          obtain ⟨buffer, sameReads⟩ := send_keeps line link
          obtain ⟨count, reads, order, rest⟩ := inductionHypothesis (link.send line).2
          obtain ⟨sameResults, sameLater⟩ :=
            Device.results_congr readSize (.error idle) count sameReads
          refine ⟨count, reads.trans sameLater, ⟨?_, ?_⟩⟩
          · rw [results, ← sameResults, ← buffer]
            exact order
          · rw [results, ← sameResults, ← buffer]
            exact rest

/-- Everything has been read, and no complete line is left. -/
structure IsDry (link : SerialLink) : Prop where
  reads : link.port.reads = []
  buffer : newline ∉ link.buffer.pending

/-- So much is left to do, counted in bytes, results and buffered lines. A byte counts twice, since
it may come to be a buffered line. -/
def backlog (link : SerialLink) : Nat :=
  2 * link.port.input.length + link.port.reads.length + link.buffer.pending.count newline

theorem isDry_of_backlog {link : SerialLink} (none : link.backlog = 0) : link.IsDry := by
  have reads : link.port.reads.length = 0 := by unfold backlog at none; omega
  have buffer : link.buffer.pending.count newline = 0 := by unfold backlog at none; omega
  exact ⟨List.length_eq_zero_iff.1 reads, List.count_eq_zero.1 buffer⟩

theorem IsDry.backlog {link : SerialLink} (dry : link.IsDry) : link.backlog = 0 := by
  simp [SerialLink.backlog, Device.input, dry.reads, List.count_eq_zero.2 dry.buffer]

theorem length_replies (bytes : List UInt8) :
    (replies bytes).length = max 1 (bytes.count newline) := by
  have length : (spoken bytes).length = bytes.count newline := by
    rw [spoken, List.length_map, Cut.length_ended]
  rw [← length, replies]
  cases spoken bytes <;> simp

/-- Every read lowers what is left to do. -/
theorem backlog_read (link : SerialLink) : link.read.2.backlog ≤ link.backlog - 1 := by
  by_cases buffered : newline ∈ link.buffer.pending
  · obtain ⟨line, after, split, free⟩ := List.eq_append_cons_of_mem buffered
    rw [read_of_line free split]
    simp only [backlog, split, List.count_append, List.count_cons_self]
    omega
  rw [read_of_absent buffered]
  have nothing : link.buffer.pending.count newline = 0 := List.count_eq_zero.2 buffered
  rcases given : link.port.read readSize (.error idle) with ⟨fault | chunk, port⟩
  · rw [receive_of_fault given]
    unfold Device.read at given
    rcases reads : link.port.reads with _ | ⟨whole | fault, later⟩ <;> rw [reads] at given
    · cases given
      exact Nat.le_trans (Nat.le_of_eq (IsDry.backlog ⟨reads, buffered⟩)) (Nat.zero_le _)
    · cases given
    · cases given
      simp only [backlog, Device.input, reads, nothing, Reading.payload_fault, List.length_cons]
      omega
  · have lengths := Device.length_read (by decide) given
    have bytes := Device.received_read readSize idle link.port
    obtain ⟨answer, buffer, received, spoke, -⟩ := receive_of_chunk buffered given
    have lines : 1 + buffer.pending.count newline = max 1 (chunk.count newline) := by
      have sameLength := congrArg List.length spoke
      rw [length_replies, List.count_append, nothing, Nat.zero_add] at sameLength
      rw [← sameLength, List.length_cons, spoken, List.length_map, Cut.length_ended, Nat.add_comm]
    have few := List.count_le_length (a := newline) (l := chunk)
    have filled : chunk = [] ∨ 0 < chunk.length := by
      rw [List.length_pos_iff]
      exact Classical.em _
    rw [given] at bytes
    have sum := congrArg List.length bytes
    simp only [Device.received, List.flatMap_cons, List.flatMap_nil, List.append_nil,
      List.length_append] at sum
    rw [received]
    simp only [backlog]
    rcases filled with rfl | filled
    · have := lengths.2 rfl
      simp only [List.length_nil, List.count_nil] at sum lines
      omega
    · omega

theorem backlog_send (line : String) (link : SerialLink) :
    (link.send line).2.backlog = link.backlog := by
  obtain ⟨buffer, reads⟩ := send_keeps line link
  simp only [backlog, Device.input, buffer, reads]

theorem backlog_serve (calls : List Call) (link : SerialLink) :
    (transport.serve calls link).2.backlog ≤
      link.backlog - (transport.serve calls link).1.length := by
  induction calls generalizing link with
  | nil => exact Nat.le_refl _
  | cons call later inductionHypothesis =>
      cases call with
      | read =>
          have lowered := backlog_read link
          have loweredLater := inductionHypothesis link.read.2
          change (transport.serve later link.read.2).2.backlog ≤
            link.backlog - ((transport.serve later link.read.2).1.length + 1)
          omega
      | send line =>
          rw [← backlog_send line link]
          exact inductionHypothesis (link.send line).2

/-- The answers and the link after some calls follow from what the first so many reads of the port
gave. Lines that are still buffered count as answers to come. -/
structure Reassembles (port : Device) (count : Nat) (answers : List Answer) (after : SerialLink) :
    Prop where
  reads : after.port.reads = (portAfter count port).reads
  lines : Answer.lines answers ++ (Cut.ended newline after.buffer.pending).map decodeLine =
    (Cut.ended newline (Device.received (results count port))).map decodeLine
  rest : Cut.rest newline after.buffer.pending =
    Cut.rest newline (Device.received (results count port))
  failures : Answer.failures answers = losses (results count port)
  order : answers ++ spoken after.buffer.pending = due [] (results count port)

theorem serve_reassembles (name : String) (port : Device) (calls : List Call) :
    ∃ count, Reassembles port count (transport.serve calls (ofPort name port)).1
      (transport.serve calls (ofPort name port)).2 := by
  obtain ⟨count, reads, order, rest⟩ := serve_serves calls (ofPort name port)
  have fresh : newline ∉ (ofPort name port).buffer.pending := List.not_mem_nil
  rw [spoken_of_absent fresh, Cut.rest_of_absent fresh] at order
  change _ = due [] _ at order
  refine ⟨count, reads, ?_, rest, ?_, order⟩
  · rw [← lines_spoken, ← Answer.lines_append, order, lines_due _ List.not_mem_nil]
    rfl
  · have failures := congrArg Answer.failures order
    rwa [Answer.failures_append, failures_spoken, List.append_nil, failures_due] at failures

/-- Once everything has been read, the lines are those of all the bytes of the port. -/
theorem Reassembles.complete {port : Device} {count : Nat} {answers : List Answer}
    {after : SerialLink} (reassembles : Reassembles port count answers after) (dry : after.IsDry) :
    Answer.lines answers = (Cut.ended newline port.input).map decodeLine ∧
      after.buffer.pending = Cut.rest newline port.input := by
  have whole : Device.received (results count port) = port.input := by
    have nothing : (portAfter count port).input = [] := by
      simp [Device.input, ← reassembles.reads, dry.reads]
    rw [← Device.received_results readSize idle count port]
    change _ = Device.received (results count port) ++ (portAfter count port).input
    rw [nothing, List.append_nil]
  obtain ⟨-, lines, rest, -, -⟩ := reassembles
  rw [whole] at lines rest
  rw [Cut.ended_of_absent dry.buffer, List.map_nil, List.append_nil] at lines
  rw [Cut.rest_of_absent dry.buffer] at rest
  exact ⟨lines, rest⟩

end SerialLink

end BenchPrinter
