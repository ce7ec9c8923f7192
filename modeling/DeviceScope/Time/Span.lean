/-!
# Lengths of time

A span is a whole number of nanoseconds, its seconds bounded by 64 bits.
-/

namespace DeviceScope

def nanosPerSecond : Nat := 1000000000

def nanosPerMilli : Nat := 1000000

/-- The nanoseconds of as many seconds as there are numbers of 64 bits. -/
def Span.limit : Nat := 18446744073709551616000000000

/-- A length of time. -/
structure Span where
  /-- The number of nanoseconds. -/
  nanos : Nat
  /-- The number of whole seconds fits in 64 bits. -/
  bounded : nanos < Span.limit
  deriving DecidableEq, Repr

namespace Span

/-- No time at all. -/
def zero : Span := ⟨0, by decide⟩

instance : Inhabited Span := ⟨zero⟩

def ofNanos? (nanos : Nat) : Option Span :=
  if h : nanos < limit then some ⟨nanos, h⟩ else none

/-- The span of a number of milliseconds that fits in 64 bits. -/
def ofMillis (millis : UInt64) : Span :=
  ⟨millis.toNat * nanosPerMilli, by
    have := millis.toNat_lt
    unfold nanosPerMilli limit
    omega⟩

/-- The span of a number of seconds that fits in 64 bits. -/
def ofSeconds (seconds : UInt64) : Span :=
  ⟨seconds.toNat * nanosPerSecond, by
    have := seconds.toNat_lt
    unfold nanosPerSecond limit
    omega⟩

def seconds (span : Span) : Nat := span.nanos / nanosPerSecond

def subNanos (span : Span) : Nat := span.nanos % nanosPerSecond

def isZero (span : Span) : Bool := span.nanos = 0

end Span

end DeviceScope
