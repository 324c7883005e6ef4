import BenchPrinter.Failure

/-!
Line transports. A transport hands out the lines of a host and takes lines for it. No line yet is
told from the end of the input by asking whether the transport is still open.
-/

namespace BenchPrinter

/-- These are the operations of a transport whose state is `σ`. -/
structure Transport (σ : Type) where
  read : σ → Except Failure (Option String) × σ
  send : String → σ → Except Failure Unit × σ
  isOpen : σ → Bool
  name : σ → String

end BenchPrinter
