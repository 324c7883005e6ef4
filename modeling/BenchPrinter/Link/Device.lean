/-!
Byte devices. A device is given by what it will do: the results of its coming reads, writes and
flushes, in order. It also keeps the bytes that it has accepted.
-/

namespace BenchPrinter

inductive FaultKind where
  | timedOut
  | wouldBlock
  | interrupted
  | brokenPipe
  | other
deriving DecidableEq

structure Fault where
  kind : FaultKind
  message : String
deriving DecidableEq

/-- A read hands out some bytes or fails; no bytes mean the end of the input. -/
inductive Reading where
  | bytes (chunk : List UInt8)
  | fault (fault : Fault)
deriving DecidableEq

/-- A write takes all bytes, or at most so many of them, or fails. -/
inductive Writing where
  | all
  | upTo (count : Nat)
  | fault (fault : Fault)
deriving DecidableEq

structure Device where
  reads : List Reading
  writes : List Writing
  flushes : List (Option Fault)
  written : Array UInt8
deriving DecidableEq

namespace Device

/-- One read of at most `limit` bytes; the rest of a longer chunk stays for the next read. -/
def read (limit : Nat) (atEnd : Except Fault (List UInt8)) (device : Device) :
    Except Fault (List UInt8) × Device :=
  match device.reads with
  | [] => (atEnd, device)
  | .fault fault :: rest => (.error fault, { device with reads := rest })
  | .bytes chunk :: rest =>
      (.ok (chunk.take limit),
        { device with
          reads := if limit < chunk.length then .bytes (chunk.drop limit) :: rest else rest })

/-- The writes that remain, the bytes that were taken, and the fault that ended the writing. -/
structure WriteOutcome where
  writes : List Writing
  taken : List UInt8
  fault : Option Fault
deriving DecidableEq

def WriteOutcome.taking (bytes : List UInt8) (outcome : WriteOutcome) : WriteOutcome :=
  { outcome with taken := bytes ++ outcome.taken }

/-- Writing goes on until all bytes are taken. An interrupted write is tried again; a write that
takes nothing is a fault. -/
def writeLoop : List UInt8 → List Writing → WriteOutcome
  | [], writes => ⟨writes, [], none⟩
  | data, [] => ⟨[], data, none⟩
  | data, .all :: rest => ⟨rest, data, none⟩
  | _, .upTo 0 :: rest => ⟨rest, [], some ⟨.other, "failed to write whole buffer"⟩⟩
  | data, .upTo (count + 1) :: rest =>
      (writeLoop (data.drop (count + 1)) rest).taking (data.take (count + 1))
  | data, .fault fault :: rest =>
      if fault.kind = .interrupted then writeLoop data rest else ⟨rest, [], some fault⟩

def writeAll (data : List UInt8) : Device → Except Fault Unit × Device
  | ⟨reads, writes, flushes, written⟩ =>
      let outcome := writeLoop data writes
      let device : Device := ⟨reads, outcome.writes, flushes, written ++ outcome.taken⟩
      match outcome.fault with
      | some fault => (.error fault, device)
      | none => (.ok (), device)

/-- A flush is never tried again. -/
def flush (device : Device) : Except Fault Unit × Device :=
  match device.flushes with
  | [] => (.ok (), device)
  | none :: rest => (.ok (), { device with flushes := rest })
  | some fault :: rest => (.error fault, { device with flushes := rest })

/-- The pieces are written one after the other, and then the device is flushed once. -/
def deliver : List (List UInt8) → Device → Except Fault Unit × Device
  | [], device => device.flush
  | piece :: rest, device =>
      match device.writeAll piece with
      | (.ok (), device) => deliver rest device
      | (.error fault, device) => (.error fault, device)

end Device

end BenchPrinter
