import BenchPrinter.Proofs.Reassembly
import BenchPrinter.Proofs.Sending

/-!
What sending puts on the wire. In however many writes a device takes the bytes, a text that is sent
has gone out whole with its newline, and of a text that is refused a first part has gone out. So the
wire holds these pieces one after the other.
-/

namespace BenchPrinter

/-- Why a write ends the writing, if it does. -/
def Writing.refusal? : Writing → Option String
  | all => none
  | upTo 0 => some "failed to write whole buffer"
  | upTo (_ + 1) => none
  | fault reason => if reason.kind = .interrupted then none else some reason.message

namespace Device

/-- The reasons that the device will give for refusing bytes. -/
def refusals (device : Device) : List String :=
  device.writes.filterMap Writing.refusal? ++ device.flushes.filterMap (·.map Fault.message)

/-- Some of the data goes out, all of it unless there is a refusal. -/
structure Takes (device : Device) (data : List UInt8) (result : Except Fault Unit × Device) :
    Prop where
  wire : ∃ bytes, bytes <+: data ∧ (result.1 = .ok () → bytes = data) ∧
    result.2.written.toList = device.written.toList ++ bytes
  cause : ∀ fault, result.1 = .error fault → fault.message ∈ device.refusals
  left : result.2.refusals ⊆ device.refusals

/-- The writing stops within the data only at a refusal. -/
theorem writeLoop_takes (data : List UInt8) (writes : List Writing) :
    (writeLoop data writes).taken <+: data ∧
      ((writeLoop data writes).fault = none → (writeLoop data writes).taken = data) ∧
      (∀ fault, (writeLoop data writes).fault = some fault →
        fault.message ∈ writes.filterMap Writing.refusal?) ∧
      (writeLoop data writes).writes <:+ writes := by
  fun_induction writeLoop data writes with
  | case1 writes => simp
  | case2 data => simp
  | case3 data rest => simp
  | case4 data rest => simp [Writing.refusal?]
  | case5 data count rest filled inductionHypothesis =>
      obtain ⟨begins, whole, cause, left⟩ := inductionHypothesis
      simp only [WriteOutcome.taking]
      refine ⟨?_, ?_, ?_, left.trans (List.suffix_cons _ _)⟩
      · obtain ⟨more, split⟩ := begins
        exact ⟨more, by rw [List.append_assoc, split, List.take_append_drop]⟩
      · intro sound
        rw [whole sound, List.take_append_drop]
      · intro fault stopped
        simpa [Writing.refusal?] using cause fault stopped
  | case6 data rest fault filled interrupted inductionHypothesis =>
      obtain ⟨begins, whole, cause, left⟩ := inductionHypothesis
      refine ⟨begins, whole, fun other stopped => ?_, left.trans (List.suffix_cons _ _)⟩
      simpa [Writing.refusal?, interrupted] using cause other stopped
  | case7 data rest fault filled fatal => simp [Writing.refusal?, fatal]

theorem writeAll_takes (data : List UInt8) (device : Device) :
    device.Takes data (device.writeAll data) := by
  obtain ⟨begins, whole, cause, left⟩ := writeLoop_takes data device.writes
  have kept : (writeLoop data device.writes).writes.filterMap Writing.refusal? ++
      device.flushes.filterMap (·.map Fault.message) ⊆ device.refusals :=
    List.append_subset.2 ⟨List.Subset.trans (left.filterMap _).subset (List.subset_append_left _ _),
      List.subset_append_right _ _⟩
  rcases stopped : (writeLoop data device.writes).fault with _ | fault
  · have written : device.writeAll data = (.ok (), ⟨device.reads,
        (writeLoop data device.writes).writes, device.flushes,
        device.written ++ (writeLoop data device.writes).taken⟩) := by
      simp only [writeAll, stopped]
    rw [written]
    exact ⟨⟨_, begins, fun _ => whole stopped, Array.toList_appendList⟩, by simp, kept⟩
  · have written : device.writeAll data = (.error fault, ⟨device.reads,
        (writeLoop data device.writes).writes, device.flushes,
        device.written ++ (writeLoop data device.writes).taken⟩) := by
      simp only [writeAll, stopped]
    rw [written]
    refine ⟨⟨_, begins, by simp, Array.toList_appendList⟩, fun other same => ?_, kept⟩
    obtain rfl := Except.error.inj same
    exact List.mem_append_left _ (cause fault stopped)

theorem flush_takes (device : Device) : device.Takes [] device.flush := by
  have wire {outcome : Except Fault Unit} {flushes : List (Option Fault)} :
      ∃ bytes, bytes <+: [] ∧ (outcome = .ok () → bytes = []) ∧
        ({ device with flushes } : Device).written.toList = device.written.toList ++ bytes :=
    ⟨[], List.prefix_rfl, fun _ => rfl, (List.append_nil _).symm⟩
  obtain ⟨reads, writes, flushes, written⟩ := device
  rcases flushes with _ | ⟨_ | fault, rest⟩
  · exact ⟨wire, (fun _ stopped => by cases stopped), List.Subset.refl _⟩
  · exact ⟨wire, (fun _ stopped => by cases stopped), List.Subset.refl _⟩
  · refine ⟨wire, fun other same => ?_, ?_⟩
    · obtain rfl := Except.error.inj same
      exact List.mem_append_right _ List.mem_cons_self
    · exact List.append_subset.2 ⟨List.subset_append_left _ _,
        List.Subset.trans (List.subset_cons_self _ _) (List.subset_append_right _ _)⟩

/-- The pieces go out in order, and nothing goes out behind a refusal. -/
theorem deliver_takes (pieces : List (List UInt8)) (device : Device) :
    device.Takes pieces.flatten (device.deliver pieces) := by
  induction pieces generalizing device with
  | nil => exact flush_takes device
  | cons piece rest inductionHypothesis =>
      obtain ⟨⟨first, begins, whole, wire⟩, cause, left⟩ := writeAll_takes piece device
      rw [deliver, List.flatten_cons]
      rcases written : device.writeAll piece with ⟨fault | _, between⟩ <;>
        rw [written] at whole wire cause left
      · exact ⟨⟨first, begins.trans (List.prefix_append _ _), by simp, wire⟩, cause, left⟩
      · obtain ⟨⟨second, beginsLater, wholeLater, wireLater⟩, causeLater, leftLater⟩ :=
          inductionHypothesis between
        obtain rfl : first = piece := whole rfl
        refine ⟨⟨first ++ second, (List.prefix_append_right_inj _).2 beginsLater, ?_, ?_⟩, ?_,
          List.Subset.trans leftLater left⟩
        · intro sound
          rw [wholeLater sound]
        · rw [wireLater, wire, List.append_assoc]
        · intro fault stopped
          exact left (causeLater fault stopped)

end Device

/-- A text that was sent, what came of it, and the bytes that went out meanwhile. -/
structure Dispatch where
  text : String
  outcome : Except Failure Unit
  bytes : List UInt8

namespace Dispatch

/-- The text has gone out whole, or a first part of it has and the text is refused for one of the
reasons. -/
inductive IsFramed (reasons : List String) : Dispatch → Prop where
  | whole (text : String) : IsFramed reasons ⟨text, .ok (), wireBytes text⟩
  | part {text reason : String} {bytes : List UInt8} (begins : bytes <+: wireBytes text)
      (cause : reason ∈ reasons) : IsFramed reasons ⟨text, .error (.notSent text reason), bytes⟩

theorem IsFramed.mono {few many : List String} (more : few ⊆ many) {dispatch : Dispatch}
    (framed : IsFramed few dispatch) : IsFramed many dispatch := by
  cases framed with
  | whole text => exact .whole text
  | part begins cause => exact .part begins (more cause)

end Dispatch

namespace Transport

variable {σ : Type} (transport : Transport σ) (device : σ → Device)

/-- The texts among the calls, in their order. What goes out with a text is what its device has
accepted after it and not before. -/
def dispatches : List Call → σ → List Dispatch
  | [], _ => []
  | .read :: later, link => dispatches later (transport.read link).2
  | .send text :: later, link =>
      let (outcome, after) := transport.send text link
      ⟨text, outcome, (device after).written.toList.drop (device link).written.size⟩ ::
        dispatches later after

/-- Each text is framed, and the wire holds what went out with the texts and nothing else. -/
structure Frames (calls : List Call) (link : σ) : Prop where
  each : ∀ dispatch ∈ transport.dispatches device calls link,
    dispatch.IsFramed (device link).refusals
  wire : (device (transport.serve calls link).2).written.toList =
    (device link).written.toList ++
      (transport.dispatches device calls link).flatMap Dispatch.bytes

/-- Reading leaves the writing alone, and sending frames the text. -/
structure Framing : Prop where
  reads : ∀ link, (device (transport.read link).2).written = (device link).written ∧
    (device (transport.read link).2).refusals = (device link).refusals
  sends : ∀ text link, ∃ bytes,
    (device (transport.send text link).2).written.toList = (device link).written.toList ++ bytes ∧
      Dispatch.IsFramed (device link).refusals ⟨text, (transport.send text link).1, bytes⟩ ∧
        (device (transport.send text link).2).refusals ⊆ (device link).refusals

variable {transport device}

/-- Call after call the texts are framed. -/
theorem Framing.frames (framing : transport.Framing device) (calls : List Call) (link : σ) :
    transport.Frames device calls link := by
  induction calls generalizing link with
  | nil => exact ⟨nofun, (List.append_nil _).symm⟩
  | cons call later inductionHypothesis =>
      cases call with
      | read =>
          obtain ⟨written, refusals⟩ := framing.reads link
          obtain ⟨each, wire⟩ := inductionHypothesis (transport.read link).2
          rw [refusals] at each
          rw [written] at wire
          exact ⟨each, wire⟩
      | send text =>
          obtain ⟨bytes, written, framed, left⟩ := framing.sends text link
          obtain ⟨each, wire⟩ := inductionHypothesis (transport.send text link).2
          have meanwhile : (device (transport.send text link).2).written.toList.drop
              (device link).written.size = bytes := by
            rw [written, ← Array.length_toList, List.drop_left]
          constructor
          · rw [dispatches, List.forall_mem_cons, meanwhile]
            exact ⟨framed, fun dispatch member => (each dispatch member).mono left⟩
          · rw [dispatches, List.flatMap_cons, meanwhile, ← List.append_assoc, ← written]
            exact wire

end Transport

/-- Pieces that make up the bytes of a text frame it. -/
theorem Device.deliver_frames {pieces : List (List UInt8)} {text : String}
    (makeUp : pieces.flatten = wireBytes text) (device : Device) :
    ∃ bytes, (device.deliver pieces).2.written.toList = device.written.toList ++ bytes ∧
      Dispatch.IsFramed device.refusals
        ⟨text, (device.deliver pieces).1.mapError fun fault => .notSent text fault.message, bytes⟩ ∧
      (device.deliver pieces).2.refusals ⊆ device.refusals := by
  obtain ⟨⟨bytes, begins, whole, wire⟩, cause, left⟩ := deliver_takes pieces device
  rw [makeUp] at begins whole
  refine ⟨bytes, wire, ?_, left⟩
  generalize device.deliver pieces = result at whole cause
  obtain ⟨fault | _, after⟩ := result
  · exact .part begins (cause fault rfl)
  · obtain rfl := whole rfl
    exact .whole text

theorem SerialLink.framing : SerialLink.transport.Framing SerialLink.port where
  reads link := by
    have given (limit : Nat) (atEnd : Device.Result) :
        (link.port.read limit atEnd).2.written = link.port.written ∧
          (link.port.read limit atEnd).2.refusals = link.port.refusals := by
      rw [Device.read]
      split <;> exact ⟨rfl, rfl⟩
    obtain ⟨written, refusals⟩ := given readSize (.error idle)
    simp only [transport, read, receive]
    split
    · exact ⟨rfl, rfl⟩
    · split <;> rename_i read <;> rw [read] at written refusals <;> split <;>
        exact ⟨written, refusals⟩
  sends text link := by
    have makeUp : [Utf8.encode text ++ [newline]].flatten = wireBytes text := by
      rw [List.flatten_singleton, wireBytes]
    obtain ⟨bytes, wire, framed, left⟩ := link.port.deliver_frames makeUp
    obtain ⟨name, buffer, port⟩ := link
    simp only [transport, send]
    rcases delivered : port.deliver [Utf8.encode text ++ [newline]] with ⟨fault | _, after⟩ <;>
      rw [delivered] at wire framed left <;> exact ⟨bytes, wire, framed, left⟩

theorem StreamLink.framing : StreamLink.transport.Framing StreamLink.device where
  reads link := by
    simp only [transport, read]
    split
    · split
      · exact ⟨rfl, rfl⟩
      · exact ⟨rfl, rfl⟩
      · split <;> exact ⟨rfl, rfl⟩
    · exact ⟨rfl, rfl⟩
  sends text link := by
    have makeUp : [Utf8.encode text, [newline]].flatten = wireBytes text := by
      rw [List.flatten_cons, List.flatten_singleton, wireBytes]
    obtain ⟨bytes, wire, framed, left⟩ := link.device.deliver_frames makeUp
    obtain ⟨name, buffered, device, isOpen⟩ := link
    simp only [transport, send]
    rcases delivered : device.deliver [Utf8.encode text, [newline]] with ⟨fault | _, after⟩ <;>
      rw [delivered] at wire framed left <;> exact ⟨bytes, wire, framed, left⟩

/-- Whatever the device does with its writes and flushes, and whatever is read meanwhile, a text
that is sent has gone out whole with its newline, and of a text that is refused a first part has
gone out; the refusal names the whole text and has its reason from the device. The wire holds these
pieces in the order of the texts, and nothing else. This holds for a serial port, and for a stream,
which writes the newline on its own. -/
theorem sent_texts_are_framed (calls : List Call) (serial : SerialLink) (stream : StreamLink) :
    SerialLink.transport.Frames SerialLink.port calls serial ∧
      StreamLink.transport.Frames StreamLink.device calls stream :=
  ⟨SerialLink.framing.frames calls serial, StreamLink.framing.frames calls stream⟩

/-- The letters go out in two writes, and the newline is refused. -/
example :
    StreamLink.transport.dispatches StreamLink.device [.send "ok"]
        (.ofDevice "near" ⟨[], [.upTo 1, .fault ⟨.interrupted, "again"⟩, .all,
          .fault ⟨.brokenPipe, "gone"⟩], [], #[]⟩) =
      [⟨"ok", .error (.notSent "ok" "gone"), [0x6F, 0x6B]⟩] := by
  cbv

end BenchPrinter
