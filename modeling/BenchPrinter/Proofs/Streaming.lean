import BenchPrinter.Link.Stream
import BenchPrinter.Proofs.Encoding
import BenchPrinter.Proofs.Reassembly
import Mathlib.Data.List.DropRight

/-!
Reading from a stream. On the same text a stream hands out the lines of the serial port, and then
the unfinished line that the serial port keeps. Only carriage returns at the end of a line can make
a difference, and trimming takes them away.
-/

namespace BenchPrinter

/-! What is dropped at the end of a text does not matter once the text is trimmed. -/

theorem dropTrailing_split (drops : Char → Bool) (text : List Char) :
    ∃ dropped, text = dropTrailing drops text ++ dropped ∧
      ∀ character ∈ dropped, drops character = true :=
  ⟨text.rtakeWhile drops, List.rdropWhile_append_rtakeWhile.symm,
    fun _ member => List.mem_rtakeWhile_imp member⟩

theorem dropTrailing_append {drops : Char → Bool} {dropped : List Char} (text : List Char)
    (all : ∀ character ∈ dropped, drops character = true) :
    dropTrailing drops (text ++ dropped) = dropTrailing drops text := by
  rw [dropTrailing, List.reverse_append, List.dropWhile_append_of_pos, dropTrailing]
  exact fun character member => all character (List.mem_reverse.1 member)

theorem dropTrailing_congr {drops others : Char → Bool} {text : List Char}
    (agree : ∀ character ∈ text, drops character = others character) :
    dropTrailing drops text = dropTrailing others text := by
  change text.rdropWhile drops = text.rdropWhile others
  induction text using List.reverseRecOn with
  | nil => rfl
  | append_singleton earlier last inductionHypothesis =>
      have same := agree last (by simp)
      rw [List.rdropWhile_concat, List.rdropWhile_concat, same,
        inductionHypothesis fun character member => agree character (by simp [member])]

theorem trim_append {blanks : List Char} (text : List Char)
    (blank : ∀ character ∈ blanks, isBlank character = true) :
    trim (text ++ blanks) = trim text := by
  rw [trim, trim, List.dropWhile_append]
  split
  · rename_i none
    rw [List.dropWhile_eq_nil_iff.2 blank, List.isEmpty_iff.1 none]
  · exact dropTrailing_append _ blank

/-- Every carriage return at the end is removed. -/
def dropReturns (line : List Char) : List Char := dropTrailing (· = '\r') line

theorem trim_dropReturns (line : List Char) : trim (dropReturns line) = trim line := by
  obtain ⟨returns, split, all⟩ := dropTrailing_split (· = '\r') line
  conv_rhs => rw [split]
  refine (trim_append _ fun character member => ?_).symm
  rw [of_decide_eq_true (all character member)]
  decide

/-- A line without its first trailing carriage return is the line, or it lacks one. -/
theorem dropOneReturn_split (line : List Char) :
    line = dropOneReturn line ∨ line = dropOneReturn line ++ ['\r'] := by
  rw [dropOneReturn]
  split
  · rename_i isLast
    exact .inr (List.dropLast_append_getLast? '\r' isLast).symm
  · exact .inl rfl

theorem trim_dropOneReturn (line : List Char) : trim (dropOneReturn line) = trim line := by
  rcases dropOneReturn_split line with same | more
  · rw [← same]
  · conv_rhs => rw [more]
    exact (trim_append _ (List.forall_mem_singleton.2 rfl)).symm

theorem dropReturns_dropOneReturn (line : List Char) :
    dropReturns (dropOneReturn line) = dropReturns line := by
  rcases dropOneReturn_split line with same | more
  · rw [← same]
  · conv_rhs => rw [more]
    exact (dropTrailing_append _ (by simp)).symm

/-- Without a newline in it, a line ends only in carriage returns. -/
theorem dropTrailing_lineEnd {line : List Char} (free : '\n' ∉ line) :
    dropTrailing StreamLink.isLineEnd line = dropReturns line := by
  refine dropTrailing_congr fun character member => ?_
  have other : character ≠ '\n' := fun same => free (same ▸ member)
  simp [StreamLink.isLineEnd, other]

namespace StreamLink

open Reading (payload)

/-- The reads give chunks that are not empty, and now and then they are interrupted. -/
def IsSmooth (reads : List Reading) : Prop :=
  ∀ reading ∈ reads,
    match reading with
    | .bytes chunk => chunk ≠ []
    | .fault fault => fault.kind = .interrupted

theorem complete?_of_line {line : List UInt8} (free : newline ∉ line) (after : List UInt8)
    (reads : List Reading) :
    complete? (line ++ newline :: after) reads = some ⟨.ok (line ++ [newline]), after, reads⟩ := by
  rw [complete?, cutAtNewline?_of_line free]
  rfl

theorem complete?_of_absent {bytes : List UInt8} (absent : newline ∉ bytes)
    (reads : List Reading) : complete? bytes reads = none := by
  rw [complete?, cutAtNewline?_of_absent absent]
  rfl

/-- A read that gives nothing to begin a line with leads on to the next one. -/
theorem gather_cons {bytes : List UInt8} (absent : newline ∉ bytes) {reading : Reading}
    {later : List Reading} (smooth : IsSmooth (reading :: later)) :
    ∃ more, payload (reading :: later) = more ++ payload later ∧
      gather bytes (reading :: later) = gather (bytes ++ more) later := by
  have gentle := smooth reading (.head later)
  have none := complete?_of_absent absent (reading :: later)
  cases reading with
  | bytes chunk =>
      refine ⟨chunk, by simp [payload], ?_⟩
      simp only [gather, none, List.isEmpty_iff, gentle, if_false]
  | fault fault =>
      refine ⟨[], by simp [payload], ?_⟩
      simp only [gather, none, gentle, if_true, List.append_nil]

/-- The first line of all the bytes is gathered, and the bytes behind it are left. -/
theorem gather_of_line {line after : List UInt8} (free : newline ∉ line) {reads : List Reading}
    (smooth : IsSmooth reads) {bytes : List UInt8}
    (split : bytes ++ payload reads = line ++ newline :: after) :
    ∃ buffered later, gather bytes reads = ⟨.ok (line ++ [newline]), buffered, later⟩ ∧
      IsSmooth later ∧ buffered ++ payload later = after := by
  induction reads generalizing bytes with
  | nil =>
      obtain rfl : bytes = line ++ newline :: after := by simpa [payload] using split
      refine ⟨after, [], ?_, smooth, by simp [payload]⟩
      rw [gather, complete?_of_line free]
      rfl
  | cons reading later inductionHypothesis =>
      by_cases complete : newline ∈ bytes
      · obtain ⟨first, rest, isSplit, freeFirst⟩ := List.eq_append_cons_of_mem complete
        subst isSplit
        rw [List.append_assoc, List.cons_append] at split
        have cut := congrArg cutAtNewline? split
        rw [cutAtNewline?_of_line freeFirst, cutAtNewline?_of_line free] at cut
        cases cut
        exact ⟨rest, reading :: later, by simp only [gather, complete?_of_line free], smooth, rfl⟩
      · obtain ⟨more, bytesAfter, next⟩ := gather_cons complete smooth
        rw [next]
        rw [bytesAfter, ← List.append_assoc] at split
        exact inductionHypothesis (List.forall_mem_cons.1 smooth).2 split

/-- Without a newline all the bytes are gathered, and the reads are used up. -/
theorem gather_of_absent {reads : List Reading} (smooth : IsSmooth reads) {bytes : List UInt8}
    (absent : newline ∉ bytes ++ payload reads) :
    gather bytes reads = ⟨.ok (bytes ++ payload reads), [], []⟩ := by
  induction reads generalizing bytes with
  | nil =>
      rw [payload, List.flatMap_nil, List.append_nil] at absent ⊢
      rw [gather, complete?_of_absent absent]
      rfl
  | cons reading later inductionHypothesis =>
      obtain ⟨more, bytesAfter, next⟩ :=
        gather_cons (fun member => absent (List.mem_append_left _ member)) smooth
      rw [next, bytesAfter, ← List.append_assoc]
      rw [bytesAfter, ← List.append_assoc] at absent
      exact inductionHypothesis (List.forall_mem_cons.1 smooth).2 absent

/-- The lines of a text, with the unfinished one at its end. -/
def linesOf (text : List Char) : List (List Char) :=
  Cut.ended '\n' text ++ if Cut.rest '\n' text = [] then [] else [Cut.rest '\n' text]

@[simp] theorem linesOf_nil : linesOf [] = [] := by simp [linesOf]

theorem linesOf_piece {first : List Char} (free : '\n' ∉ first) (after : List Char) :
    linesOf (first ++ '\n' :: after) = first :: linesOf after := by
  rw [linesOf, Cut.ended_of_piece free, Cut.rest_of_piece free, List.cons_append, linesOf]

theorem linesOf_last {last : List Char} (free : '\n' ∉ last) (filled : last ≠ []) :
    linesOf last = [last] := by
  rw [linesOf, Cut.ended_of_absent free, Cut.rest_of_absent free, if_neg filled, List.nil_append]

/-- A stream says its lines without their carriage returns. -/
def told (text : List Char) : List String :=
  (linesOf text).map fun line => String.ofList (dropReturns line)

/-- An open stream that will give this text. -/
structure Holds (text : List Char) (link : StreamLink) : Prop where
  isOpen : link.isOpen = true
  smooth : IsSmooth link.device.reads
  bytes : link.buffered ++ payload link.device.reads = Utf8.encodeChars text

section

variable {text : List Char} {link : StreamLink}

theorem read_of_closed (closed : link.isOpen = false) : link.read = (.ok none, link) := by
  simp [read, closed]

theorem read_of_gathered (isOpen : link.isOpen = true) {bytes buffered : List UInt8}
    {later : List Reading}
    (gathered : gather link.buffered link.device.reads = ⟨.ok bytes, buffered, later⟩)
    (filled : bytes ≠ []) {line : List Char} (decoded : Utf8.decode? bytes = some line) :
    link.read = (.ok (some (String.ofList (dropTrailing isLineEnd line))),
      { link with buffered, device := { link.device with reads := later } }) := by
  obtain ⟨first, rest, rfl⟩ := List.exists_cons_of_ne_nil filled
  simp only [read, isOpen, if_true, gathered, decoded]

theorem Holds.read_of_line {line after : List Char} (free : '\n' ∉ line)
    (holds : Holds (line ++ '\n' :: after) link) :
    ∃ later, link.read = (.ok (some (String.ofList (dropReturns line))), later) ∧
      Holds after later := by
  obtain ⟨isOpen, smooth, bytes⟩ := holds
  rw [Utf8.encodeChars_piece] at bytes
  obtain ⟨buffered, later, gathered, smoothLater, left⟩ :=
    gather_of_line (fun member => free ((Utf8.newline_mem line).1 member)) smooth bytes
  have decoded : Utf8.decode? (Utf8.encodeChars line ++ [newline]) = some (line ++ ['\n']) :=
    (congrArg Utf8.decode? (Utf8.encodeChars_piece line [])).symm.trans
      (Utf8.decode?_encodeChars (line ++ ['\n']))
  have trimmed : dropTrailing isLineEnd (line ++ ['\n']) = dropReturns line := by
    rw [dropTrailing_append line (by simp [isLineEnd]), dropTrailing_lineEnd free]
  have delivered := read_of_gathered isOpen gathered (by simp) decoded
  rw [trimmed] at delivered
  exact ⟨_, delivered, isOpen, smoothLater, left⟩

theorem Holds.read_of_last (free : '\n' ∉ text) (filled : text ≠ []) (holds : Holds text link) :
    ∃ later, link.read = (.ok (some (String.ofList (dropReturns text))), later) ∧
      Holds [] later := by
  obtain ⟨isOpen, smooth, bytes⟩ := holds
  have absent : newline ∉ link.buffered ++ payload link.device.reads := by
    rw [bytes]
    exact fun member => free ((Utf8.newline_mem text).1 member)
  have gathered := gather_of_absent smooth absent
  have some : Utf8.encodeChars text ≠ [] := by
    obtain ⟨first, rest, rfl⟩ := List.exists_cons_of_ne_nil filled
    simp
  rw [bytes] at gathered
  have delivered := read_of_gathered isOpen gathered some (Utf8.decode?_encodeChars text)
  rw [dropTrailing_lineEnd free] at delivered
  exact ⟨_, delivered, isOpen, fun _ member => absurd member List.not_mem_nil, rfl⟩

/-- At the end of the text the stream closes. -/
theorem Holds.read_of_end (holds : Holds [] link) :
    ∃ later, link.read = (.ok none, later) ∧ later.isOpen = false := by
  obtain ⟨isOpen, smooth, bytes⟩ := holds
  have absent : newline ∉ link.buffered ++ payload link.device.reads := by simp [bytes]
  have gathered := gather_of_absent smooth absent
  rw [bytes] at gathered
  refine ⟨{ link with buffered := [], device := { link.device with reads := [] }, isOpen := false },
    ?_, rfl⟩
  simp only [read, isOpen, if_true, gathered, Utf8.encodeChars_nil]

theorem send_isOpen (line : String) (link : StreamLink) :
    (link.send line).2.isOpen = link.isOpen := by
  rw [send]
  split <;> rfl

theorem Holds.send (line : String) (holds : Holds text link) : Holds text (link.send line).2 := by
  have kept := Device.reads_deliver [Utf8.encode line, [newline]] link.device
  have sameReads : (link.send line).2.device.reads = link.device.reads := by
    rw [StreamLink.send]
    split <;> rename_i delivered <;> rw [delivered] at kept <;> exact kept
  have sameBuffer : (link.send line).2.buffered = link.buffered := by
    rw [StreamLink.send]
    split <;> rfl
  obtain ⟨isOpen, smooth, bytes⟩ := holds
  exact ⟨(send_isOpen line link).trans isOpen, by rwa [sameReads], by rwa [sameReads, sameBuffer]⟩

end

theorem serve_of_closed (calls : List Call) {link : StreamLink} (closed : link.isOpen = false) :
    (∀ answer ∈ (transport.serve calls link).1, answer = .ok none) ∧
      (transport.serve calls link).2.isOpen = false := by
  induction calls generalizing link with
  | nil => exact ⟨nofun, closed⟩
  | cons call later inductionHypothesis =>
      cases call with
      | read =>
          obtain ⟨silent, closedLater⟩ := inductionHypothesis closed
          have read : transport.read link = (.ok none, link) := read_of_closed closed
          rw [Transport.serve, read]
          exact ⟨List.forall_mem_cons.2 ⟨rfl, silent⟩, closedLater⟩
      | send line => exact inductionHypothesis ((send_isOpen line link).trans closed)

/-- What some calls on an open stream lead to: it still holds a part of the text, or it has told all
of the text and is closed. -/
inductive Tells (text : List Char) (answers : List Answer) (after : StreamLink) : Prop where
  | going (left : List Char) (holds : Holds left after)
      (split : told text = Answer.lines answers ++ told left)
      (each : (Answer.lines answers).length = answers.length)
  | finished (closed : after.isOpen = false) (all : Answer.lines answers = told text)

theorem Tells.line {text later : List Char} {line : String} {answers : List Answer}
    {after : StreamLink} (first : told text = line :: told later)
    (tells : Tells later answers after) : Tells text (.ok (some line) :: answers) after := by
  have lines : Answer.lines (.ok (some line) :: answers) = line :: Answer.lines answers := rfl
  cases tells with
  | going left holds split each =>
      refine .going left holds (by rw [first, lines, split, List.cons_append]) ?_
      rw [lines, List.length_cons, List.length_cons, each]
  | finished closed all => exact .finished closed (by rw [first, lines, all])

theorem Holds.serve (calls : List Call) {text : List Char} {link : StreamLink}
    (holds : Holds text link) :
    Answer.failures (transport.serve calls link).1 = [] ∧
      Tells text (transport.serve calls link).1 (transport.serve calls link).2 := by
  induction calls generalizing text link with
  | nil => exact ⟨rfl, .going text holds rfl rfl⟩
  | cons call later inductionHypothesis =>
      cases call with
      | send line => exact inductionHypothesis (holds.send line)
      | read =>
          have told_line {line left : List Char} {after : StreamLink}
              (first : linesOf text = line :: linesOf left)
              (read : link.read = (.ok (some (String.ofList (dropReturns line))), after))
              (holds : Holds left after) :
              Answer.failures (transport.serve (.read :: later) link).1 = [] ∧
                Tells text (transport.serve (.read :: later) link).1
                  (transport.serve (.read :: later) link).2 := by
            obtain ⟨unfailing, tells⟩ := inductionHypothesis holds
            have isRead : transport.read link = _ := read
            rw [Transport.serve, isRead]
            exact ⟨unfailing, tells.line (by rw [told, first, List.map_cons, told])⟩
          by_cases complete : '\n' ∈ text
          · obtain ⟨line, left, rfl, free⟩ := List.eq_append_cons_of_mem complete
            obtain ⟨after, read, holds⟩ := holds.read_of_line free
            exact told_line (linesOf_piece free left) read holds
          by_cases filled : text = []
          · subst filled
            obtain ⟨after, read, closed⟩ := holds.read_of_end
            obtain ⟨silent, closedLater⟩ := serve_of_closed later closed
            have isRead : transport.read link = _ := read
            rw [Transport.serve, isRead]
            refine ⟨?_, .finished closedLater ?_⟩
            · refine List.filterMap_eq_nil_iff.2
                (List.forall_mem_cons.2 ⟨rfl, fun answer member => ?_⟩)
              rw [silent answer member]
              rfl
            · refine List.filterMap_eq_nil_iff.2
                (List.forall_mem_cons.2 ⟨rfl, fun answer member => ?_⟩)
              rw [silent answer member]
              rfl
          · obtain ⟨after, read, holds⟩ := holds.read_of_last complete filled
            exact told_line (by rw [linesOf_last complete filled, linesOf_nil]) read holds

/-- A stream says that there is no line only once it is closed. -/
theorem closed_of_read {link : StreamLink} (silent : link.read.1 = .ok none) :
    link.read.2.isOpen = false := by
  cases isOpen : link.isOpen with
  | false =>
      rw [read_of_closed isOpen]
      exact isOpen
  | true =>
      simp only [read, isOpen, if_true] at silent ⊢
      split
      · rename_i failed
        simp [failed] at silent
      · rfl
      · rename_i gathered
        split
        · rename_i decoded
          simp [gathered, decoded] at silent
        · rename_i refused
          simp [gathered, refused] at silent

end StreamLink

/-- What a stream says of a text, next to what a serial port says of it. The last line of the stream
is the unfinished one. -/
structure Agrees (text : String) (streamed ported : List String) : Prop where
  trimmed : streamed.map trimText = ported.map trimText ++
    if Utf8.encode text = [] ∨ (Utf8.encode text).getLast? = some newline then []
    else [trimText (String.ofList (Cut.rest '\n' text.toList))]
  untrimmed : ∀ (index : Nat) (line : String), ported[index]? = some line →
    streamed[index]? = some (String.ofList (dropReturns line.toList))

/-- The text ends with a newline, or there is nothing in it, when no line is unfinished. -/
theorem unfinished_iff (text : String) :
    (Utf8.encode text = [] ∨ (Utf8.encode text).getLast? = some newline) ↔
      Cut.rest '\n' text.toList = [] := by
  rw [← Cut.rest_eq_nil_iff newline, Utf8.encode_eq, (Utf8.cut_encodeChars _).2]
  cases Cut.rest '\n' text.toList <;> simp

theorem agrees_told (text : String) :
    Agrees text (StreamLink.told text.toList)
      ((Cut.ended newline (Utf8.encode text)).map decodeLine) := by
  have ported : (Cut.ended newline (Utf8.encode text)).map decodeLine =
      (Cut.ended '\n' text.toList).map fun line => String.ofList (dropOneReturn line) := by
    rw [Utf8.encode_eq, (Utf8.cut_encodeChars _).1, List.map_map]
    exact List.map_congr_left fun line _ => Utf8.decodeLine_encodeChars line
  have trimmed (line : List Char) :
      trimText (String.ofList (dropReturns line)) =
        trimText (String.ofList (dropOneReturn line)) := by
    simp only [trimText, String.toList_ofList, trim_dropReturns, trim_dropOneReturn]
  rw [ported]
  constructor
  · have last (line : List Char) :
        trimText (String.ofList (dropReturns line)) = trimText (String.ofList line) := by
      simp only [trimText, String.toList_ofList, trim_dropReturns]
    rw [StreamLink.told, StreamLink.linesOf, List.map_append, List.map_append, List.map_map]
    congr 1
    · rw [List.map_map]
      exact List.map_congr_left fun line _ => trimmed line
    · by_cases finished : Cut.rest '\n' text.toList = []
      · rw [if_pos finished, if_pos ((unfinished_iff text).2 finished)]
        rfl
      · rw [if_neg finished, if_neg fun ends => finished ((unfinished_iff text).1 ends)]
        exact congrArg (fun line => [line]) (last _)
  · intro index line isLine
    obtain ⟨raw, isRaw, rfl⟩ := Option.map_eq_some_iff.1 (List.getElem?_map.symm.trans isLine)
    obtain ⟨inside, -⟩ := List.getElem?_eq_some_iff.1 isRaw
    rw [StreamLink.told, StreamLink.linesOf, List.getElem?_map, List.getElem?_append_left inside,
      isRaw, String.toList_ofList, dropReturns_dropOneReturn]
    rfl

namespace StreamLink

/-- The same text comes to a stream in chunks with interruptions, and to a serial port in chunks
with pauses. When both have been read to the end, they have given the same lines but for the
unfinished one; and a stream that has once said that there is no line never gives one again. -/
theorem stream_agrees_with_serial {text : String} {device port : Device}
    (smooth : IsSmooth device.reads) (streamed : device.input = Utf8.encode text)
    (ported : port.input = Utf8.encode text) (streamName portName : String) :
    let stream := fun calls => transport.serve calls (ofDevice streamName device)
    let serial := fun calls => SerialLink.transport.serve calls (.ofPort portName port)
    (∃ enough, ∀ calls, enough ≤ (stream calls).1.length → (stream calls).2.isOpen = false) ∧
    (∃ enough, ∀ calls, enough ≤ (serial calls).1.length → (serial calls).2.IsDry) ∧
    (∀ streamCalls serialCalls, (stream streamCalls).2.isOpen = false →
      (serial serialCalls).2.IsDry →
        Answer.failures (stream streamCalls).1 = [] ∧
          Agrees text (Answer.lines (stream streamCalls).1)
            (Answer.lines (serial serialCalls).1)) ∧
    ∀ link : StreamLink, link.read.1 = .ok none → ∀ buffered device calls,
      let later := transport.serve calls { link.read.2 with buffered, device }
      (∀ answer ∈ later.1, answer = .ok none) ∧ later.2.isOpen = false := by
  intro stream serial
  have holds : Holds text.toList (ofDevice streamName device) :=
    ⟨rfl, smooth, streamed.trans (Utf8.encode_eq text)⟩
  refine ⟨⟨(told text.toList).length + 1, fun calls enough => ?_⟩,
    ⟨(SerialLink.ofPort portName port).backlog, fun calls enough => ?_⟩,
    fun streamCalls serialCalls closed dry => ?_, fun link silent buffered device calls =>
      serve_of_closed calls (closed_of_read silent)⟩
  · obtain ⟨-, ⟨left, holds, split, each⟩ | ⟨closed, -⟩⟩ := holds.serve calls
    · have length : (told text.toList).length = (stream calls).1.length + (told left).length := by
        rw [split, List.length_append, each]
      omega
    · exact closed
  · have lowered : (serial calls).2.backlog ≤
        (SerialLink.ofPort portName port).backlog - (serial calls).1.length :=
      SerialLink.backlog_serve calls (.ofPort portName port)
    exact SerialLink.isDry_of_backlog (by omega)
  · obtain ⟨unfailing, ⟨left, holds, -, -⟩ | ⟨-, all⟩⟩ := holds.serve streamCalls
    · rw [holds.isOpen] at closed
      contradiction
    · obtain ⟨count, reassembles⟩ := SerialLink.serve_reassembles portName port serialCalls
      obtain ⟨lines, -⟩ := reassembles.complete dry
      refine ⟨unfailing, ?_⟩
      rw [all, lines, ported]
      exact agrees_told text

def accented : String := "M117 é\r\r\nM105"

/-- An interruption falls into the accented letter. -/
def accentedDevice : Device :=
  ⟨[.bytes [0x4D, 0x31, 0x31, 0x37, 0x20, 0xC3], .fault ⟨.interrupted, "interrupted"⟩,
    .bytes [0xA9, 0x0D, 0x0D, 0x0A, 0x4D, 0x31, 0x30, 0x35]], [], [], #[]⟩

/-- A pause falls between the two carriage returns. -/
def accentedPort : Device :=
  ⟨[.bytes [0x4D, 0x31, 0x31, 0x37, 0x20, 0xC3, 0xA9, 0x0D], .fault SerialLink.idle,
    .bytes [0x0D, 0x0A, 0x4D, 0x31, 0x30, 0x35]], [], [], #[]⟩

/-- Both are read to the end, and the stream has said the unfinished line as well. -/
theorem accented_text_agrees :
    IsSmooth accentedDevice.reads ∧ accentedDevice.input = Utf8.encode accented ∧
      accentedPort.input = Utf8.encode accented ∧
      ∃ streamed ported,
        (transport.serve streamed (ofDevice "stdio" accentedDevice)).2.isOpen = false ∧
        (SerialLink.transport.serve ported (.ofPort "port" accentedPort)).2.IsDry ∧
        Agrees accented
          (Answer.lines (transport.serve streamed (ofDevice "stdio" accentedDevice)).1)
          (Answer.lines (SerialLink.transport.serve ported (.ofPort "port" accentedPort)).1) := by
  have smooth : IsSmooth accentedDevice.reads := by simp [IsSmooth, accentedDevice]
  have streamed : accentedDevice.input = Utf8.encode accented := by
    rw [Utf8.encode_eq]
    decide
  have ported : accentedPort.input = Utf8.encode accented := by
    rw [Utf8.encode_eq]
    decide
  obtain ⟨⟨reads, closes⟩, ⟨portReads, dries⟩, agrees, -⟩ :=
    stream_agrees_with_serial smooth streamed ported "stdio" "port"
  have closed := closes (List.replicate reads .read) (Transport.length_serve _ _ _).ge
  have dry := dries (List.replicate portReads .read) (Transport.length_serve _ _ _).ge
  exact ⟨smooth, streamed, ported, _, _, closed, dry, (agrees _ _ closed dry).2⟩

end StreamLink

end BenchPrinter
