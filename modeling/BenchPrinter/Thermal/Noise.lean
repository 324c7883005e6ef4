import BenchPrinter.Number.Quantity

/-!
Noise streams. A stream has one sample for each whole number; drawing takes the next one.
-/

namespace BenchPrinter

structure Noise (α : Type) where
  sample : Nat → α
  drawn : Nat

namespace Noise

variable {α : Type}

def draw (noise : Noise α) : α × Noise α :=
  (noise.sample noise.drawn, { noise with drawn := noise.drawn + 1 })

@[simp] theorem draw_sample (noise : Noise α) : noise.draw.2.sample = noise.sample := rfl

@[simp] theorem draw_drawn (noise : Noise α) : noise.draw.2.drawn = noise.drawn + 1 := rfl

/-- The samples are handed out in turn and start over when they are used up. -/
def cycle [Quantity α] (samples : List α) : Noise α :=
  ⟨fun index => (samples[index % samples.length]?).getD 0.5, 0⟩

end Noise

end BenchPrinter
