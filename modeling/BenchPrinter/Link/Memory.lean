import BenchPrinter.Link.Transport

/-!
The transport in memory: scripted input lines and a log of the lines that were sent.
-/

namespace BenchPrinter

structure MemoryLink where
  input : List String
  log : Array String
deriving DecidableEq

namespace MemoryLink

def ofInput (lines : List String) : MemoryLink := ⟨lines, #[]⟩

def read (link : MemoryLink) : Except Failure (Option String) × MemoryLink :=
  (.ok link.input.head?, { link with input := link.input.tail })

def send (line : String) : MemoryLink → Except Failure Unit × MemoryLink
  | ⟨input, log⟩ => (.ok (), ⟨input, log.push line⟩)

/-- It is open as long as input is left. -/
def isOpen (link : MemoryLink) : Bool := !link.input.isEmpty

def count (line : String) (link : MemoryLink) : Nat := link.log.count line

def transport : Transport MemoryLink := ⟨read, send, isOpen, fun _ => "memory"⟩

end MemoryLink

end BenchPrinter
