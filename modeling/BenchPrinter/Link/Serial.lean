import BenchPrinter.Link.Device
import BenchPrinter.Link.LineBuffer
import BenchPrinter.Link.Transport

/-!
The serial transport. A call reads the port at most once, and only when no complete line is
buffered. An idle port is no fault.
-/

namespace BenchPrinter

structure SerialLink where
  name : String
  buffer : LineBuffer
  port : Device
deriving DecidableEq

namespace SerialLink

def ofPort (name : String) (port : Device) : SerialLink := ⟨name, .empty, port⟩

/-- The port hands out so many bytes at most in one read. -/
def readSize : Nat := 256

/-- A port with nothing to read times out. -/
def idle : Fault := ⟨.timedOut, "timed out"⟩

/-- These faults mean that there is no line yet. -/
def isIdle (fault : Fault) : Bool :=
  fault.kind = .timedOut || fault.kind = .wouldBlock

/-- The buffer receives what one read gave; then it is asked for a line. -/
def receive (link : SerialLink) : Except Failure (Option String) × SerialLink :=
  match link.port.read readSize (.error idle) with
  | (.ok bytes, port) =>
      if bytes.isEmpty then (.ok none, { link with port })
      else
        let (line, buffer) := (link.buffer.push bytes).nextLine
        (.ok line, { link with buffer, port })
  | (.error fault, port) =>
      if isIdle fault then (.ok none, { link with port })
      else (.error (.lost fault.message), { link with port })

def read (link : SerialLink) : Except Failure (Option String) × SerialLink :=
  match link.buffer.nextLine with
  | (some line, buffer) => (.ok (some line), { link with buffer })
  | (none, _) => link.receive

/-- The line and its newline are written as one piece. -/
def send (line : String) : SerialLink → Except Failure Unit × SerialLink
  | ⟨name, buffer, port⟩ =>
      match port.deliver [Utf8.encode line ++ [newline]] with
      | (.ok (), port) => (.ok (), ⟨name, buffer, port⟩)
      | (.error fault, port) => (.error (.notSent line fault.message), ⟨name, buffer, port⟩)

/-- A serial port never ends. -/
def transport : Transport SerialLink := ⟨read, send, fun _ => true, name⟩

end SerialLink

end BenchPrinter
