import BenchPrinter.Link.Serial
import BenchPrinter.Link.Stream
import BenchPrinter.Proofs.Buffering
import BenchPrinter.Proofs.Encoding

/-!
Texts that are sent and read back. Both transports put the same bytes on the wire, and a line buffer
gives the lines of the texts again.
-/

namespace BenchPrinter

namespace Writing

/-- Such a write takes some of the bytes, or it is tried again. -/
def Accepts : Writing → Prop
  | all => True
  | upTo count => 0 < count
  | fault reason => reason.kind = .interrupted

end Writing

namespace Device

/-- A device accepts everything when it never refuses a write or a flush. It may take the bytes in
several writes. -/
structure AcceptsAll (device : Device) : Prop where
  writes : ∀ writing ∈ device.writes, writing.Accepts
  flushes : ∀ flush ∈ device.flushes, flush = none

theorem writeLoop_accepting (data : List UInt8) (writes : List Writing)
    (accepts : ∀ writing ∈ writes, writing.Accepts) :
    (writeLoop data writes).fault = none ∧ (writeLoop data writes).taken = data ∧
      ∀ writing ∈ (writeLoop data writes).writes, writing.Accepts := by
  induction writes generalizing data with
  | nil => cases data <;> simp [writeLoop]
  | cons writing later inductionHypothesis =>
      obtain ⟨accepted, acceptsLater⟩ := List.forall_mem_cons.1 accepts
      rcases data with _ | ⟨byte, data⟩
      · exact ⟨rfl, rfl, accepts⟩
      cases writing with
      | all => exact ⟨rfl, rfl, acceptsLater⟩
      | upTo count =>
          have positive : 0 < count := accepted
          obtain ⟨count, rfl⟩ := Nat.exists_eq_add_one.2 positive
          obtain ⟨sound, taken, left⟩ :=
            inductionHypothesis ((byte :: data).drop (count + 1)) acceptsLater
          refine ⟨sound, ?_, left⟩
          change (byte :: data).take (count + 1) ++ (writeLoop _ later).taken = byte :: data
          rw [taken, List.take_append_drop]
      | fault fault =>
          have interrupted : fault.kind = .interrupted := accepted
          rw [writeLoop.eq_6 _ _ _ (by simp), if_pos interrupted]
          exact inductionHypothesis (byte :: data) acceptsLater

theorem writeAll_accepting (data : List UInt8) {device : Device} (accepts : device.AcceptsAll) :
    ∃ after, device.writeAll data = (.ok (), after) ∧ after.AcceptsAll ∧
      after.written.toList = device.written.toList ++ data := by
  obtain ⟨sound, taken, left⟩ := writeLoop_accepting data device.writes accepts.writes
  refine ⟨⟨device.reads, (writeLoop data device.writes).writes, device.flushes,
    device.written ++ (writeLoop data device.writes).taken⟩, ?_, ⟨left, accepts.flushes⟩, ?_⟩
  · simp only [writeAll, sound]
  · simp only [taken, Array.toList_appendList]

theorem flush_accepting {device : Device} (accepts : device.AcceptsAll) :
    ∃ after, device.flush = (.ok (), after) ∧ after.AcceptsAll ∧
      after.written.toList = device.written.toList := by
  unfold flush
  rcases flushes : device.flushes with _ | ⟨first, rest⟩
  · exact ⟨device, rfl, accepts, rfl⟩
  · have allNone := accepts.flushes
    rw [flushes] at allNone
    obtain ⟨rfl, restNone⟩ := List.forall_mem_cons.1 allNone
    exact ⟨{ device with flushes := rest }, rfl, ⟨accepts.writes, restNone⟩, rfl⟩

/-- The pieces arrive whole and in order. -/
theorem deliver_accepting (pieces : List (List UInt8)) {device : Device}
    (accepts : device.AcceptsAll) :
    ∃ after, device.deliver pieces = (.ok (), after) ∧ after.AcceptsAll ∧
      after.written.toList = device.written.toList ++ pieces.flatten := by
  induction pieces generalizing device with
  | nil =>
      obtain ⟨after, flushed, acceptsAfter, written⟩ := flush_accepting accepts
      exact ⟨after, flushed, acceptsAfter, by rw [written, List.flatten_nil, List.append_nil]⟩
  | cons piece rest inductionHypothesis =>
      obtain ⟨between, taken, acceptsBetween, first⟩ := writeAll_accepting piece accepts
      obtain ⟨after, delivered, acceptsAfter, later⟩ := inductionHypothesis acceptsBetween
      refine ⟨after, ?_, acceptsAfter, ?_⟩
      · rw [deliver, taken]
        exact delivered
      · rw [later, first, List.flatten_cons, List.append_assoc]

end Device

/-- What comes of sending one text after the other, and the transport after that. -/
def Transport.sendEach {σ : Type} (transport : Transport σ) :
    List String → σ → List (Except Failure Unit) × σ
  | [], link => ([], link)
  | text :: later, link =>
      let (outcomes, after) := transport.sendEach later (transport.send text link).2
      ((transport.send text link).1 :: outcomes, after)

/-- The bytes of a text on the wire. -/
def wireBytes (text : String) : List UInt8 := Utf8.encode text ++ [newline]

theorem SerialLink.send_accepting (text : String) {link : SerialLink}
    (accepts : link.port.AcceptsAll) :
    ∃ after, link.send text = (.ok (), after) ∧ after.port.AcceptsAll ∧
      after.port.written.toList = link.port.written.toList ++ wireBytes text := by
  obtain ⟨name, buffer, port⟩ := link
  obtain ⟨after, delivered, acceptsAfter, written⟩ :=
    Device.deliver_accepting [Utf8.encode text ++ [newline]] accepts
  refine ⟨⟨name, buffer, after⟩, ?_, acceptsAfter, ?_⟩
  · simp only [send, delivered]
  · simpa [wireBytes] using written

theorem StreamLink.send_accepting (text : String) {link : StreamLink}
    (accepts : link.device.AcceptsAll) :
    ∃ after, link.send text = (.ok (), after) ∧ after.device.AcceptsAll ∧
      after.device.written.toList = link.device.written.toList ++ wireBytes text := by
  obtain ⟨name, buffered, device, isOpen⟩ := link
  obtain ⟨after, delivered, acceptsAfter, written⟩ :=
    Device.deliver_accepting [Utf8.encode text, [newline]] accepts
  refine ⟨⟨name, buffered, after, isOpen⟩, ?_, acceptsAfter, ?_⟩
  · simp only [send, delivered]
  · simpa [wireBytes] using written

/-- A transport that sends every text whole puts the texts on the wire one after the other. -/
theorem Transport.sendEach_written {σ : Type} {transport : Transport σ} {device : σ → Device}
    (sends : ∀ text link, (device link).AcceptsAll → ∃ after,
      transport.send text link = (.ok (), after) ∧ (device after).AcceptsAll ∧
        (device after).written.toList = (device link).written.toList ++ wireBytes text)
    (texts : List String) {link : σ} (accepts : (device link).AcceptsAll) :
    (transport.sendEach texts link).1 = texts.map (fun _ => .ok ()) ∧
      (device (transport.sendEach texts link).2).written.toList =
        (device link).written.toList ++ texts.flatMap wireBytes := by
  induction texts generalizing link with
  | nil => exact ⟨rfl, (List.append_nil _).symm⟩
  | cons text later inductionHypothesis =>
      obtain ⟨after, sent, acceptsAfter, written⟩ := sends text link accepts
      obtain ⟨outcomes, writtenLater⟩ := inductionHypothesis acceptsAfter
      simp only [sendEach, sent]
      exact ⟨by rw [outcomes, List.map_cons],
        by rw [writtenLater, written, List.flatMap_cons, List.append_assoc]⟩

/-- The lines of a text as they are read: the pieces between its newlines, each without one carriage
return at its end. -/
def linesOf (text : String) : List String :=
  (text.toList.splitOn '\n').map fun piece => String.ofList (dropOneReturn piece)

/-- A mark behind a text ends the last of its pieces. -/
theorem Cut.ended_closed {β : Type} [BEq β] [LawfulBEq β] (mark : β) (text after : List β) :
    ended mark (text ++ mark :: after) = text.splitOn mark ++ ended mark after := by
  rw [ended_append, ended_of_piece (not_mem_rest text), ended, rest, ← List.singleton_append,
    ← List.append_assoc, List.dropLast_append_getLast]

theorem Cut.rest_closed {β : Type} [BEq β] [LawfulBEq β] (mark : β) (text after : List β) :
    rest mark (text ++ mark :: after) = rest mark after := by
  rw [rest_append, rest_of_piece (not_mem_rest text)]

/-- The characters whose bytes are on the wire. -/
def wireText (texts : List String) : List Char := texts.flatMap fun text => text.toList ++ ['\n']

theorem wire_eq (texts : List String) :
    texts.flatMap wireBytes = Utf8.encodeChars (wireText texts) := by
  have each (text : String) : wireBytes text = Utf8.encodeChars (text.toList ++ ['\n']) := by
    rw [wireBytes, Utf8.encode_eq, Utf8.encodeChars_append, Utf8.encodeChars_cons,
      Utf8.encodeChars_nil, Utf8.char_newline, List.append_nil]
  rw [wireText, Utf8.encodeChars, List.flatMap_assoc]
  exact List.flatMap_congr fun text _ => each text

/-- The pieces of the texts are on the wire, and nothing stands behind them. -/
theorem cut_wireText (texts : List String) :
    Cut.ended '\n' (wireText texts) = texts.flatMap (fun text => text.toList.splitOn '\n') ∧
      Cut.rest '\n' (wireText texts) = [] := by
  induction texts with
  | nil => exact ⟨Cut.ended_nil, Cut.rest_nil⟩
  | cons text later inductionHypothesis =>
      obtain ⟨pieces, behind⟩ := inductionHypothesis
      have split : wireText (text :: later) = text.toList ++ '\n' :: wireText later := by
        rw [wireText, List.flatMap_cons, List.append_assoc]
        rfl
      rw [split, Cut.ended_closed, Cut.rest_closed, pieces, behind, List.flatMap_cons]
      exact ⟨rfl, rfl⟩

/-- The wire holds the lines of the texts and nothing behind them. -/
theorem wire_lines (texts : List String) :
    (Cut.ended newline (texts.flatMap wireBytes)).map decodeLine = texts.flatMap linesOf ∧
      Cut.rest newline (texts.flatMap wireBytes) = [] := by
  obtain ⟨ended, rest⟩ := Utf8.cut_encodeChars (wireText texts)
  obtain ⟨pieces, behind⟩ := cut_wireText texts
  rw [wire_eq, ended, rest, pieces, behind, List.map_map, List.map_flatMap]
  refine ⟨List.flatMap_congr fun text _ => ?_, Utf8.encodeChars_nil⟩
  exact List.map_congr_left fun piece _ => Utf8.decodeLine_encodeChars piece

/-- A text on one line without a carriage return at its end is its own line. -/
theorem linesOf_single {text : String} (single : '\n' ∉ text.toList)
    (noReturn : text.toList.getLast? ≠ some '\r') : linesOf text = [text] := by
  rw [linesOf, List.splitOn_eq_singleton single, List.map_singleton, dropOneReturn,
    if_neg noReturn, String.ofList_toList]

/-- Texts that are sent come back. Both transports put the same bytes on the wire; from a buffer
that receives them in whatever chunks, that is asked for lines in between and drained in the end,
come the lines of each text in turn, and nothing stays pending. Texts of one line that do not end in
a carriage return come back as they are. -/
theorem sent_texts_come_back (texts : List String) (serial : SerialLink) (stream : StreamLink)
    (serialAccepts : serial.port.AcceptsAll) (streamAccepts : stream.device.AcceptsAll) :
    ((SerialLink.transport.sendEach texts serial).1 = texts.map (fun _ => .ok ()) ∧
      (SerialLink.transport.sendEach texts serial).2.port.written.toList =
        serial.port.written.toList ++ texts.flatMap wireBytes) ∧
    ((StreamLink.transport.sendEach texts stream).1 = texts.map (fun _ => .ok ()) ∧
      (StreamLink.transport.sendEach texts stream).2.device.written.toList =
        stream.device.written.toList ++ texts.flatMap wireBytes) ∧
    (∀ uses, LineBuffer.Use.pushed uses = texts.flatMap wireBytes →
      let (lines, buffer) := LineBuffer.empty.serve uses
      lines ++ buffer.drain.1 = texts.flatMap linesOf ∧ buffer.drain.2.pending = []) ∧
    ((∀ text ∈ texts, '\n' ∉ text.toList ∧ text.toList.getLast? ≠ some '\r') →
      texts.flatMap linesOf = texts) := by
  refine ⟨?_, ?_, ?_, ?_⟩
  · exact Transport.sendEach_written (fun text _ => SerialLink.send_accepting text) texts
      serialAccepts
  · exact Transport.sendEach_written (fun text _ => StreamLink.send_accepting text) texts
      streamAccepts
  · intro uses pushed
    obtain ⟨lines, behind⟩ := LineBuffer.serve_then_drain uses
    obtain ⟨ended, rest⟩ := wire_lines texts
    rw [pushed, ended] at lines
    rw [pushed, rest] at behind
    exact ⟨lines, congrArg LineBuffer.pending behind⟩
  · intro plain
    have each : texts.flatMap linesOf = texts.flatMap fun text => [text] :=
      List.flatMap_congr fun text member =>
        linesOf_single (plain text member).1 (plain text member).2
    rw [each, List.flatMap_singleton']

/-- An answer of two lines, with a character that the port and the buffer get in two halves. -/
theorem accented_answer_comes_back :
    let port : Device := ⟨[], [.upTo 1, .fault ⟨.interrupted, "again"⟩], [none], #[]⟩
    let uses : List LineBuffer.Use :=
      [.push [0xC3], .next, .push [0xA9, 0x0A, 0x6F], .next, .push [0x6B, 0x0D, 0x0A]]
    (SerialLink.transport.sendEach ["é\nok\r"] (.ofPort "near" port)).2.port.written.toList =
        [0xC3, 0xA9, 0x0A, 0x6F, 0x6B, 0x0D, 0x0A] ∧
      (LineBuffer.empty.serve uses).1 ++ (LineBuffer.empty.serve uses).2.drain.1 = ["é", "ok"] := by
  intro port uses
  have accepts : port.AcceptsAll := ⟨by simp [port, Writing.Accepts], by simp [port]⟩
  obtain ⟨⟨-, written⟩, -, back, -⟩ := sent_texts_come_back ["é\nok\r"]
    (.ofPort "near" port) (.ofDevice "near" port) accepts accepts
  have wire : ["é\nok\r"].flatMap wireBytes = [0xC3, 0xA9, 0x0A, 0x6F, 0x6B, 0x0D, 0x0A] := by
    decide +kernel
  have lines : ["é\nok\r"].flatMap linesOf = ["é", "ok"] := by decide +kernel
  rw [wire] at written back
  exact ⟨written, (back uses rfl).1.trans lines⟩

end BenchPrinter
