import BenchPrinter.Link.Device
import BenchPrinter.Link.LineBuffer
import BenchPrinter.Link.Transport
import BenchPrinter.Text.Blank

/-!
The transport over a reader and a writer. A call reads until a newline or the end of the input; the
end of the input closes the transport for good.
-/

namespace BenchPrinter

structure StreamLink where
  name : String
  buffered : List UInt8
  device : Device
  isOpen : Bool
deriving DecidableEq

namespace StreamLink

def ofDevice (name : String) (device : Device) : StreamLink := ⟨name, [], device, true⟩

/-- What gathering one line leads to: the bytes of the line, the bytes after it and the reads
left. -/
structure Gathered where
  line : Except Fault (List UInt8)
  buffered : List UInt8
  reads : List Reading

/-- The first line among the bytes is complete. -/
def complete? (bytes : List UInt8) (reads : List Reading) : Option Gathered :=
  (cutAtNewline? bytes).map fun (line, after) => ⟨.ok (line ++ [newline]), after, reads⟩

/-- Bytes are gathered up to a newline or the end of the input. An interrupted read is tried again;
any other fault loses the bytes gathered before it. -/
def gather (bytes : List UInt8) : List Reading → Gathered
  | [] => (complete? bytes []).getD ⟨.ok bytes, [], []⟩
  | reading :: rest =>
      match complete? bytes (reading :: rest) with
      | some gathered => gathered
      | none =>
          match reading with
          | .bytes chunk =>
              if chunk.isEmpty then ⟨.ok bytes, [], rest⟩ else gather (bytes ++ chunk) rest
          | .fault fault =>
              if fault.kind = .interrupted then gather bytes rest
              else ⟨.error fault, [], rest⟩

def isLineEnd (character : Char) : Bool :=
  character = '\r' || character = '\n'

/-- Every line end at the end of the line is removed. -/
def read (link : StreamLink) : Except Failure (Option String) × StreamLink :=
  if link.isOpen then
    let gathered := gather link.buffered link.device.reads
    let link := { link with
      buffered := gathered.buffered
      device := { link.device with reads := gathered.reads } }
    match gathered.line with
    | .error fault => (.error (.lost fault.message), link)
    | .ok [] => (.ok none, { link with isOpen := false })
    | .ok bytes =>
        match Utf8.decode? bytes with
        | some line => (.ok (some (String.ofList (dropTrailing isLineEnd line))), link)
        | none => (.error (.lost "stream did not contain valid UTF-8"), link)
  else (.ok none, link)

/-- The line and its newline are written as two pieces. -/
def send (line : String) : StreamLink → Except Failure Unit × StreamLink
  | ⟨name, buffered, device, isOpen⟩ =>
      match device.deliver [Utf8.encode line, [newline]] with
      | (.ok (), device) => (.ok (), ⟨name, buffered, device, isOpen⟩)
      | (.error fault, device) =>
          (.error (.notSent line fault.message), ⟨name, buffered, device, isOpen⟩)

def transport : Transport StreamLink := ⟨read, send, isOpen, name⟩

end StreamLink

end BenchPrinter
