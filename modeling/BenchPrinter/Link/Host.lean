import BenchPrinter.Link.Serial
import BenchPrinter.Link.Stream

/-!
The link to the host, which is a serial port or the standard streams.
-/

namespace BenchPrinter

inductive Link where
  | serial (link : SerialLink)
  | stream (link : StreamLink)
deriving DecidableEq

namespace Link

def read : Link → Except Failure (Option String) × Link
  | serial link => ((link.read).1, serial (link.read).2)
  | stream link => ((link.read).1, stream (link.read).2)

def send (line : String) : Link → Except Failure Unit × Link
  | serial link => ((link.send line).1, serial (link.send line).2)
  | stream link => ((link.send line).1, stream (link.send line).2)

def isOpen : Link → Bool
  | serial link => SerialLink.transport.isOpen link
  | stream link => link.isOpen

def name : Link → String
  | serial link => link.name
  | stream link => link.name

def transport : Transport Link := ⟨read, send, isOpen, name⟩

/-- The results of the reads to come. -/
def reads : Link → List Reading
  | serial link => link.port.reads
  | stream link => link.device.reads

/-- One more read will be answered. -/
def feed (reading : Reading) : Link → Link
  | serial link =>
      serial { link with port := { link.port with reads := link.port.reads ++ [reading] } }
  | stream link =>
      stream { link with device := { link.device with reads := link.device.reads ++ [reading] } }

/-- The bytes that went out on the standard streams. -/
def printed : Link → List UInt8
  | serial _ => []
  | stream link => link.device.written.toList

end Link

end BenchPrinter
