import BenchPrinter.Proofs.Streaming
import BenchPrinter.Proofs.Tandem

/-!
Reads that are interrupted. A stream reads again, so nothing tells that a read was interrupted. A
serial port gives its lines all the same, but it reports every interruption as a loss, and a session
on it ends at the first one that it reads.
-/

namespace BenchPrinter

namespace Reading

/-- The message of a read that is interrupted. -/
def interruption? : Reading → Option String
  | bytes _ => none
  | fault reason => if reason.kind = .interrupted then some reason.message else none

def interruptions (reads : List Reading) : List String := reads.filterMap interruption?

/-- The reads without those that are interrupted. -/
def uninterrupted (reads : List Reading) : List Reading :=
  reads.filter fun reading => reading.interruption?.isNone

/-- The failure that a serial port reports for a read. -/
def loss? : Reading → Option Failure
  | bytes _ => none
  | fault reason => if SerialLink.isIdle reason then none else some (.lost reason.message)

def losses (reads : List Reading) : List Failure := reads.filterMap loss?

section

variable {reading : Reading} (later : List Reading)

theorem uninterrupted_of_kept (kept : reading.interruption? = none) :
    uninterrupted (reading :: later) = reading :: uninterrupted later := by
  rw [uninterrupted, List.filter_cons_of_pos (by simp [kept])]
  rfl

theorem uninterrupted_of_interruption {message : String}
    (interrupted : reading.interruption? = some message) :
    uninterrupted (reading :: later) = uninterrupted later := by
  rw [uninterrupted, List.filter_cons_of_neg (by simp [interrupted])]
  rfl

theorem interruptions_of_kept (kept : reading.interruption? = none) :
    interruptions (reading :: later) = interruptions later :=
  List.filterMap_cons_none kept

theorem interruptions_of_interruption {message : String}
    (interrupted : reading.interruption? = some message) :
    interruptions (reading :: later) = message :: interruptions later :=
  List.filterMap_cons_some interrupted

end

theorem eq_fault_of_interruption {reading : Reading} {message : String}
    (interrupted : reading.interruption? = some message) :
    reading = .fault ⟨.interrupted, message⟩ := by
  rcases reading with chunk | ⟨kind, text⟩
  · cases interrupted
  · rw [interruption?] at interrupted
    obtain ⟨rfl, same⟩ := Option.ite_none_right_eq_some.1 interrupted
    obtain rfl := Option.some.inj same
    rfl

theorem losses_of_interruption {reading : Reading} (later : List Reading) {message : String}
    (interrupted : reading.interruption? = some message) :
    losses (reading :: later) = .lost message :: losses later := by
  rw [eq_fault_of_interruption interrupted]
  rfl

theorem kind_of_kept {reason : Fault} (kept : (fault reason).interruption? = none) :
    reason.kind ≠ .interrupted := by
  intro interrupted
  simp [interruption?, interrupted] at kept

theorem payload_uninterrupted (reads : List Reading) :
    payload (uninterrupted reads) = payload reads := by
  induction reads with
  | nil => rfl
  | cons reading later inductionHypothesis =>
      cases kept : reading.interruption? with
      | none =>
          rw [uninterrupted_of_kept later kept, ← List.singleton_append, payload,
            List.flatMap_append, ← payload, ← payload, inductionHypothesis]
          simp [payload]
      | some message =>
          rw [uninterrupted_of_interruption later kept, inductionHypothesis,
            eq_fault_of_interruption kept, payload_fault]

/-- An interruption is a loss like any other. -/
theorem length_losses (reads : List Reading) :
    (losses reads).length =
      (losses (uninterrupted reads)).length + (interruptions reads).length := by
  induction reads with
  | nil => rfl
  | cons reading later inductionHypothesis =>
      cases kept : reading.interruption? with
      | none =>
          rw [uninterrupted_of_kept later kept, interruptions_of_kept later kept, losses, losses,
            List.filterMap_cons, List.filterMap_cons, ← losses, ← losses]
          split <;> simp only [List.length_cons, inductionHypothesis]
          omega
      | some message =>
          rw [uninterrupted_of_interruption later kept, interruptions_of_interruption later kept,
            losses_of_interruption later kept, List.length_cons, List.length_cons,
            inductionHypothesis]
          omega

theorem losses_eq_iff (reads : List Reading) :
    losses reads = losses (uninterrupted reads) ↔ interruptions reads = [] := by
  constructor
  · intro same
    have lengths := length_losses reads
    rw [same] at lengths
    exact List.length_eq_zero_iff.1 (by omega)
  · intro none
    have all : uninterrupted reads = reads :=
      List.filter_eq_self.2 fun reading member => by
        rw [List.filterMap_eq_nil_iff.1 none reading member]
        rfl
    rw [all]

/-- Where nothing else is lost, the losses are the interruptions. -/
theorem losses_of_quiet {reads : List Reading} (quiet : losses (uninterrupted reads) = []) :
    losses reads = (interruptions reads).map .lost := by
  induction reads with
  | nil => rfl
  | cons reading later inductionHypothesis =>
      cases kept : reading.interruption? with
      | none =>
          rw [uninterrupted_of_kept later kept, losses, List.filterMap_cons] at quiet
          rw [interruptions_of_kept later kept, losses, List.filterMap_cons]
          split at quiet
          · exact inductionHypothesis quiet
          · cases quiet
      | some message =>
          rw [uninterrupted_of_interruption later kept] at quiet
          rw [losses_of_interruption later kept, interruptions_of_interruption later kept,
            List.map_cons, inductionHypothesis quiet]

end Reading

namespace Device

open Reading (interruptions)

/-- The device whose reads are never interrupted. -/
def uninterrupted (device : Device) : Device :=
  { device with reads := Reading.uninterrupted device.reads }

theorem uninterrupted_uninterrupted (device : Device) :
    device.uninterrupted.uninterrupted = device.uninterrupted := by
  simp [uninterrupted, Reading.uninterrupted]

theorem input_uninterrupted (device : Device) : device.uninterrupted.input = device.input :=
  Reading.payload_uninterrupted device.reads

theorem writeAll_uninterrupted (data : List UInt8) (device : Device) :
    device.uninterrupted.writeAll data =
      ((device.writeAll data).1, (device.writeAll data).2.uninterrupted) := by
  simp only [writeAll, uninterrupted]
  split <;> rfl

theorem flush_uninterrupted (device : Device) :
    device.uninterrupted.flush = (device.flush.1, device.flush.2.uninterrupted) := by
  obtain ⟨reads, writes, flushes, written⟩ := device
  rcases flushes with _ | ⟨_ | fault, rest⟩ <;> rfl

/-- Writing does not look at the reads. -/
theorem deliver_uninterrupted (pieces : List (List UInt8)) (device : Device) :
    device.uninterrupted.deliver pieces =
      ((device.deliver pieces).1, (device.deliver pieces).2.uninterrupted) := by
  induction pieces generalizing device with
  | nil => exact flush_uninterrupted device
  | cons piece rest inductionHypothesis =>
      rw [deliver, deliver, writeAll_uninterrupted]
      rcases device.writeAll piece with ⟨fault | _, after⟩
      · rfl
      · exact inductionHypothesis after

/-- A read of a port is interrupted, or it goes as if none were. -/
theorem read_uninterrupted (limit : Nat) (atEnd : Result) (device : Device) :
    (∃ message after, message ∈ interruptions device.reads ∧
      device.read limit atEnd = (.error ⟨.interrupted, message⟩, after)) ∨
    device.uninterrupted.read limit atEnd =
        ((device.read limit atEnd).1, (device.read limit atEnd).2.uninterrupted) ∧
      interruptions (device.read limit atEnd).2.reads = interruptions device.reads := by
  obtain ⟨reads, writes, flushes, written⟩ := device
  rcases reads with _ | ⟨reading, rest⟩
  · exact .inr ⟨rfl, rfl⟩
  cases kept : reading.interruption? with
  | some message =>
      left
      refine ⟨message, ⟨rest, writes, flushes, written⟩, ?_, ?_⟩
      · rw [Reading.interruptions_of_interruption rest kept]
        exact List.mem_cons_self
      · rw [Reading.eq_fault_of_interruption kept]
        rfl
  | none =>
      right
      simp only [uninterrupted, Reading.uninterrupted_of_kept rest kept,
        Reading.interruptions_of_kept rest kept]
      cases reading with
      | fault fault => exact ⟨rfl, rfl⟩
      | bytes chunk =>
          simp only [read]
          split
          · exact ⟨rfl, Reading.interruptions_of_kept rest rfl⟩
          · exact ⟨rfl, rfl⟩

end Device

namespace StreamLink

/-- The stream whose reads are never interrupted. -/
def uninterrupted (link : StreamLink) : StreamLink :=
  { link with device := link.device.uninterrupted }

theorem gather_of_buffered {line : List UInt8} (free : newline ∉ line) (after : List UInt8)
    (reads : List Reading) :
    gather (line ++ newline :: after) reads = ⟨.ok (line ++ [newline]), after, reads⟩ := by
  cases reads <;> simp only [gather, complete?_of_line free, Option.getD_some]

/-- An interrupted read is passed over while a line is gathered. -/
theorem gather_uninterrupted (reads : List Reading) (bytes : List UInt8) :
    gather bytes (Reading.uninterrupted reads) =
      { gather bytes reads with reads := Reading.uninterrupted (gather bytes reads).reads } := by
  induction reads generalizing bytes with
  | nil =>
      by_cases complete : newline ∈ bytes
      · obtain ⟨line, after, rfl, free⟩ := List.eq_append_cons_of_mem complete
        rw [gather_of_buffered free, gather_of_buffered free]
      · rw [Reading.uninterrupted, List.filter_nil, gather, complete?_of_absent complete]
        rfl
  | cons reading later inductionHypothesis =>
      by_cases complete : newline ∈ bytes
      · obtain ⟨line, after, rfl, free⟩ := List.eq_append_cons_of_mem complete
        rw [gather_of_buffered free, gather_of_buffered free]
      have none := complete?_of_absent complete
      cases kept : reading.interruption? with
      | some message =>
          obtain rfl := Reading.eq_fault_of_interruption kept
          rw [Reading.uninterrupted_of_interruption later kept, inductionHypothesis]
          simp only [gather, none, if_true]
      | none =>
          rw [Reading.uninterrupted_of_kept later kept]
          cases reading with
          | bytes chunk =>
              simp only [gather, none]
              split
              · rfl
              · exact inductionHypothesis (bytes ++ chunk)
          | fault fault =>
              simp only [gather, none, Reading.kind_of_kept kept, if_false]

theorem read_uninterrupted (link : StreamLink) :
    link.uninterrupted.read = (link.read.1, link.read.2.uninterrupted) := by
  simp only [read, uninterrupted, Device.uninterrupted, gather_uninterrupted]
  split
  · split <;> try rfl
    split <;> rfl
  · rfl

theorem send_uninterrupted (text : String) (link : StreamLink) :
    link.uninterrupted.send text = ((link.send text).1, (link.send text).2.uninterrupted) := by
  obtain ⟨name, buffered, device, isOpen⟩ := link
  simp only [uninterrupted, send, Device.deliver_uninterrupted]
  rcases device.deliver [Utf8.encode text, [newline]] with ⟨fault | _, after⟩ <;> rfl

/-- Call after call nothing tells that a read was interrupted. -/
theorem serve_uninterrupted (calls : List Call) (link : StreamLink) :
    transport.serve calls link.uninterrupted =
      ((transport.serve calls link).1, (transport.serve calls link).2.uninterrupted) := by
  induction calls generalizing link with
  | nil => rfl
  | cons call later inductionHypothesis =>
      cases call with
      | read =>
          have read : transport.read link.uninterrupted = _ := read_uninterrupted link
          simp only [Transport.serve, read, inductionHypothesis]
          rfl
      | send text =>
          have sent : transport.send text link.uninterrupted = _ := send_uninterrupted text link
          simp only [Transport.serve, sent]
          exact inductionHypothesis (link.send text).2

theorem uninterrupted_uninterrupted (link : StreamLink) :
    link.uninterrupted.uninterrupted = link.uninterrupted :=
  congrArg (fun device => { link with device := device })
    (Device.uninterrupted_uninterrupted link.device)

/-- A desk whose tokens do not tell that a read was interrupted. -/
def desk (sessionCancelled boardCancelled : StreamLink → Bool) : Desk StreamLink where
  transport := transport
  sessionCancelled link := sessionCancelled link.uninterrupted
  boardCancelled link := boardCancelled link.uninterrupted

theorem desk_agrees (sessionCancelled boardCancelled : StreamLink → Bool) :
    (desk sessionCancelled boardCancelled).Agrees (desk sessionCancelled boardCancelled)
      (fun link other => link = other.uninterrupted) (fun _ => False) where
  host :=
    { cancelled := by
        rintro _ other rfl
        exact congrArg boardCancelled (uninterrupted_uninterrupted other).symm
      send := by
        rintro text _ other rfl
        have sent := send_uninterrupted text other
        exact ⟨(congrArg Prod.fst sent).symm, congrArg Prod.snd sent⟩ }
  cancelled := by
    rintro _ other rfl
    exact congrArg sessionCancelled (uninterrupted_uninterrupted other).symm
  isOpen := by
    rintro _ other rfl
    rfl
  read := by
    rintro _ other rfl
    have read := read_uninterrupted other
    exact .inr ⟨(congrArg Prod.fst read).symm, congrArg Prod.snd read⟩

/-- A stream over the device answers and works as if no read of it were interrupted. -/
structure Retries {α : Type} [Quantity α] (name : String) (device : Device) (board : Board α)
    (settings : SessionSettings) : Prop where
  answers : ∀ calls,
    (transport.serve calls (ofDevice name device)).1 =
      (transport.serve calls (ofDevice name device.uninterrupted)).1
  session : ∀ sessionCancelled boardCancelled patience,
    let desk := desk sessionCancelled boardCancelled
    let calm := Session.run desk settings patience
      (.start board (ofDevice name device.uninterrupted))
    let disturbed := Session.run desk settings patience (.start board (ofDevice name device))
    disturbed.1 = calm.1 ∧
      calm.2.InTandem (fun link other => link = other.uninterrupted) disturbed.2

theorem retries {α : Type} [Quantity α] (name : String) (device : Device) (board : Board α)
    (settings : SessionSettings) : Retries name device board settings where
  answers calls := (congrArg Prod.fst (serve_uninterrupted calls (ofDevice name device))).symm
  session sessionCancelled boardCancelled patience := by
    have started : (Session.start board (ofDevice name device.uninterrupted)).InTandem
        (fun link other => link = other.uninterrupted)
        (.start board (ofDevice name device)) := ⟨rfl, rfl, rfl, rfl, rfl⟩
    rcases Session.run_matches (desk_agrees sessionCancelled boardCancelled) settings patience
      started with ⟨_, impossible, -⟩ | same
    · exact impossible.elim
    · exact same

end StreamLink

namespace SerialLink

open Reading (interruptions)

/-- The port whose reads are never interrupted. -/
def uninterrupted (link : SerialLink) : SerialLink :=
  { link with port := link.port.uninterrupted }

/-- A read that is interrupted fails, and any other goes as if none were. -/
theorem read_uninterrupted (link : SerialLink) :
    (∃ message after, message ∈ interruptions link.port.reads ∧
      link.read = (.error (.lost message), after)) ∨
    link.uninterrupted.read = (link.read.1, link.read.2.uninterrupted) ∧
      interruptions link.read.2.port.reads = interruptions link.port.reads := by
  by_cases buffered : newline ∈ link.buffer.pending
  · obtain ⟨line, after, split, free⟩ := List.eq_append_cons_of_mem buffered
    have same : link.uninterrupted.buffer.pending = line ++ newline :: after := split
    rw [read_of_line free split, read_of_line free same]
    exact .inr ⟨rfl, rfl⟩
  have sameBuffer : newline ∉ link.uninterrupted.buffer.pending := buffered
  rw [read_of_absent buffered, read_of_absent sameBuffer]
  rcases Device.read_uninterrupted readSize (.error idle) link.port with
    ⟨message, after, member, read⟩ | ⟨read, kept⟩
  · rw [receive_of_fault read]
    exact .inl ⟨message, _, member, rfl⟩
  · right
    simp only [receive, uninterrupted, read]
    generalize link.port.read readSize (.error idle) = result at kept
    obtain ⟨fault | chunk, port⟩ := result <;> dsimp only <;> split <;> exact ⟨rfl, kept⟩

theorem send_uninterrupted (text : String) (link : SerialLink) :
    link.uninterrupted.send text = ((link.send text).1, (link.send text).2.uninterrupted) := by
  obtain ⟨name, buffer, port⟩ := link
  simp only [uninterrupted, send, Device.deliver_uninterrupted]
  rcases port.deliver [Utf8.encode text ++ [newline]] with ⟨fault | _, after⟩ <;> rfl

theorem uninterrupted_uninterrupted (link : SerialLink) :
    link.uninterrupted.uninterrupted = link.uninterrupted :=
  congrArg (fun port => { link with port := port }) (Device.uninterrupted_uninterrupted link.port)

/-- The results of the first reads and the reads behind them make up the losses of the port. -/
theorem losses_results (count : Nat) (port : Device) :
    losses (results count port) ++ Reading.losses (portAfter count port).reads =
      Reading.losses port.reads := by
  induction count generalizing port with
  | zero => rfl
  | succ count inductionHypothesis =>
      have first : losses [(port.read readSize (.error idle)).1] ++
          Reading.losses (port.read readSize (.error idle)).2.reads =
            Reading.losses port.reads := by
        obtain ⟨reads, writes, flushes, written⟩ := port
        rcases reads with _ | ⟨chunk | fault, rest⟩
        · rfl
        · simp only [Device.read]
          split <;> rfl
        · simp only [Device.read, losses, Reading.losses, List.filterMap_cons, Reading.loss?]
          split <;> rfl
      have split : losses (results (count + 1) port) =
          losses [(port.read readSize (.error idle)).1] ++
            losses (results count (port.read readSize (.error idle)).2) := by
        rw [losses, results, Device.results, ← List.singleton_append, List.filterMap_append]
        rfl
      rw [split, List.append_assoc, ← first]
      exact congrArg _ (inductionHypothesis _)

/-- The answers of a port that is read to its end. -/
def HearsOut (name : String) (port : Device) (answers : List Answer) : Prop :=
  ∃ calls, (transport.serve calls (ofPort name port)).1 = answers ∧
    (transport.serve calls (ofPort name port)).2.IsDry

theorem exists_hearsOut (name : String) (port : Device) :
    ∃ answers, HearsOut name port answers := by
  refine ⟨_, List.replicate (ofPort name port).backlog .read, rfl, isDry_of_backlog ?_⟩
  have lowered := backlog_serve (List.replicate (ofPort name port).backlog .read) (ofPort name port)
  rw [Transport.length_serve] at lowered
  omega

/-- All lines come out, and every read that fails without being idle is reported. -/
theorem HearsOut.complete {name : String} {port : Device} {answers : List Answer}
    (hears : HearsOut name port answers) :
    Answer.lines answers = (Cut.ended newline port.input).map decodeLine ∧
      Answer.failures answers = Reading.losses port.reads := by
  obtain ⟨calls, rfl, dry⟩ := hears
  obtain ⟨count, reassembles⟩ := serve_reassembles name port calls
  have nothing : (portAfter count port).reads = [] := reassembles.reads.symm.trans dry.reads
  refine ⟨(reassembles.complete dry).1, ?_⟩
  rw [reassembles.failures, ← losses_results count port, nothing]
  exact (List.append_nil _).symm

/-- A desk whose tokens do not tell that a read was interrupted. -/
def desk (sessionCancelled boardCancelled : SerialLink → Bool) : Desk SerialLink where
  transport := transport
  sessionCancelled link := sessionCancelled link.uninterrupted
  boardCancelled link := boardCancelled link.uninterrupted

/-- The second link is the first one with so many interruptions still to be read. -/
structure Disturbs (messages : List String) (link other : SerialLink) : Prop where
  calm : link = other.uninterrupted
  left : interruptions other.port.reads = messages

theorem desk_agrees (sessionCancelled boardCancelled : SerialLink → Bool)
    (messages : List String) :
    (desk sessionCancelled boardCancelled).Agrees (desk sessionCancelled boardCancelled)
      (Disturbs messages) (fun failure => ∃ message ∈ messages, failure = .lost message) where
  host :=
    { cancelled := by
        rintro _ other ⟨rfl, -⟩
        exact congrArg boardCancelled (uninterrupted_uninterrupted other).symm
      send := by
        rintro text _ other ⟨rfl, left⟩
        have sent := send_uninterrupted text other
        refine ⟨(congrArg Prod.fst sent).symm, congrArg Prod.snd sent, ?_⟩
        rw [← left]
        exact congrArg interruptions (send_keeps text other).2 }
  cancelled := by
    rintro _ other ⟨rfl, -⟩
    exact congrArg sessionCancelled (uninterrupted_uninterrupted other).symm
  isOpen := fun _ => rfl
  read := by
    rintro _ other ⟨rfl, left⟩
    rcases read_uninterrupted other with ⟨message, after, member, read⟩ | ⟨read, kept⟩
    · exact .inl ⟨.lost message, after, ⟨message, left ▸ member, rfl⟩, read⟩
    · exact .inr ⟨(congrArg Prod.fst read).symm, congrArg Prod.snd read, kept.trans left⟩

/-- A port with interruptions gives the lines of the port without them, but each interruption is one
more failure. A session goes on alike until it reads an interruption, and there it ends. -/
structure Reports {α : Type} [Quantity α] (name : String) (port : Device) (board : Board α)
    (settings : SessionSettings) : Prop where
  answers : ∀ calm disturbed, HearsOut name port.uninterrupted calm →
    HearsOut name port disturbed →
      Answer.lines disturbed = Answer.lines calm ∧
      Answer.failures calm = Reading.losses (Reading.uninterrupted port.reads) ∧
      Answer.failures disturbed = Reading.losses port.reads ∧
      (Answer.failures calm = [] →
        Answer.failures disturbed = (interruptions port.reads).map .lost) ∧
      (Answer.failures disturbed = Answer.failures calm ↔ interruptions port.reads = [])
  session : ∀ sessionCancelled boardCancelled patience,
    let desk := desk sessionCancelled boardCancelled
    let calm := Session.run desk settings patience (.start board (ofPort name port.uninterrupted))
    let disturbed := Session.run desk settings patience (.start board (ofPort name port))
    (∃ message ∈ interruptions port.reads, disturbed.1 = .error (.failed (.lost message))) ∨
      disturbed.1 = calm.1 ∧ calm.2.InTandem (Disturbs (interruptions port.reads)) disturbed.2

theorem reports {α : Type} [Quantity α] (name : String) (port : Device) (board : Board α)
    (settings : SessionSettings) : Reports name port board settings where
  answers calm disturbed hearsCalm hears := by
    obtain ⟨calmLines, calmFailures⟩ := hearsCalm.complete
    obtain ⟨lines, failures⟩ := hears.complete
    rw [Device.input_uninterrupted] at calmLines
    refine ⟨lines.trans calmLines.symm, calmFailures, failures, fun quiet => ?_, ?_⟩
    · rw [failures]
      exact Reading.losses_of_quiet (calmFailures.symm.trans quiet)
    · rw [calmFailures, failures]
      exact Reading.losses_eq_iff port.reads
  session sessionCancelled boardCancelled patience := by
    have started : (Session.start board (ofPort name port.uninterrupted)).InTandem
        (Disturbs (interruptions port.reads)) (.start board (ofPort name port)) :=
      ⟨rfl, rfl, rfl, rfl, rfl, rfl⟩
    rcases Session.run_matches (desk_agrees sessionCancelled boardCancelled _) settings patience
      started with ⟨_, ⟨message, member, rfl⟩, failed⟩ | same
    · exact .inl ⟨message, member, failed⟩
    · exact .inr same

end SerialLink

/-- A stream reads again where a read is interrupted, so it answers and a session on it goes as if
none were. A serial port does not: its lines are the same, but it reports each interruption as a
loss, and a session on it ends at the first one that it reads. So nothing differs exactly where
nothing is interrupted. -/
theorem interruptions_matter_to_ports_only {α : Type} [Quantity α] (name : String)
    (device : Device) (board : Board α) (settings : SessionSettings) :
    StreamLink.Retries name device board settings ∧
      SerialLink.Reports name device board settings ∧
      ∀ port, ∃ answers, SerialLink.HearsOut name port answers :=
  ⟨StreamLink.retries name device board settings, SerialLink.reports name device board settings,
    SerialLink.exists_hearsOut name⟩

/-- The read of a port is interrupted within a line. The line still comes out, but the interruption
is a failure, and it ends a session before the line is read. -/
theorem interrupted_port_is_lost :
    let calm : Device := ⟨[.bytes [0x47, 0x32], .bytes [0x38, 0x0A]], [], [], #[]⟩
    let disturbed : Device :=
      ⟨[.bytes [0x47, 0x32], .fault ⟨.interrupted, "again"⟩, .bytes [0x38, 0x0A]], [], [], #[]⟩
    disturbed.uninterrupted = calm ∧
      SerialLink.HearsOut "near" calm [.ok none, .ok (some "G28")] ∧
      SerialLink.HearsOut "near" disturbed
        [.ok none, .error (.lost "again"), .ok (some "G28")] ∧
      ∀ (board : Board Float) (settings : SessionSettings),
        (Session.run (.sharing SerialLink.transport fun _ => false) settings 2
          (.start board (.ofPort "near" disturbed))).1 = .error (.failed (.lost "again")) := by
  intro calm disturbed
  refine ⟨by decide, ⟨[.read, .read], ?_, ?_⟩, ⟨[.read, .read, .read], ?_, ?_⟩, ?_⟩
  · decide +kernel
  · exact ⟨rfl, List.not_mem_nil⟩
  · decide +kernel
  · exact ⟨rfl, List.not_mem_nil⟩
  · intro board settings
    rfl

end BenchPrinter
