/-!
The clock counts whole milliseconds and wraps at 64 bits. A duration passes in whole milliseconds;
what is left of it is dropped.
-/

namespace BenchPrinter

/-- Durations are exact to the nanosecond. -/
structure Duration where
  nanoseconds : Nat
deriving DecidableEq

namespace Duration

def ofMicroseconds (count : Nat) : Duration := ⟨count * 1000⟩

def ofMilliseconds (count : Nat) : Duration := ⟨count * 1000000⟩

def ofSeconds (count : Nat) : Duration := ⟨count * 1000000000⟩

/-- The whole milliseconds, modulo 64 bits. -/
def milliseconds (duration : Duration) : UInt64 :=
  (duration.nanoseconds / 1000000).toUInt64

@[simp] theorem milliseconds_ofMilliseconds (count : Nat) :
    (ofMilliseconds count).milliseconds = count.toUInt64 := by
  simp [milliseconds, ofMilliseconds]

end Duration

/-- The clock moves only when something sleeps or the time is moved on. -/
structure Clock where
  now : UInt64
deriving DecidableEq

namespace Clock

def after (clock : Clock) (milliseconds : UInt64) : Clock :=
  ⟨clock.now + milliseconds⟩

def sleep (clock : Clock) (duration : Duration) : Clock :=
  clock.after duration.milliseconds

end Clock

end BenchPrinter
