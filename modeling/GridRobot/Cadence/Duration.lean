/-!
# Durations

A span of time in whole seconds, as many as fit into a 64-bit word, and
nanoseconds.
-/

namespace GridRobot

/-- A span of time. -/
@[ext] structure Duration where
  seconds : Nat
  nanos : Nat
  seconds_lt : seconds < 0x10000000000000000 := by decide
  nanos_lt : nanos < 1000000000 := by decide
  deriving DecidableEq

namespace Duration

instance : Inhabited Duration := ⟨{ seconds := 0, nanos := 0 }⟩

/-- The duration of some seconds and any number of nanoseconds, which carry over into the
    seconds, unless these are too many then. -/
def ofParts? (seconds nanos : Nat) : Option Duration :=
  if h : seconds + nanos / 1000000000 < 0x10000000000000000 then
    some { seconds := seconds + nanos / 1000000000, nanos := nanos % 1000000000, seconds_lt := h,
           nanos_lt := Nat.mod_lt _ (by decide) }
  else none

/-- `n` whole seconds. -/
def ofSeconds (n : Fin 0x10000000000000000) : Duration where
  seconds := n
  nanos := 0
  seconds_lt := n.isLt

/-- `n` milliseconds, fewer than a second. -/
def ofMillis (n : Fin 1000) : Duration where
  seconds := 0
  nanos := n * 1000000
  nanos_lt := by omega

/-- `n` milliseconds, unless they are too many. -/
def ofMillis? (n : Nat) : Option Duration := ofParts? (n / 1000) (n % 1000 * 1000000)

/-- The duration in nanoseconds. -/
def toNanos (d : Duration) : Nat := d.seconds * 1000000000 + d.nanos

/-- The duration in milliseconds; a timer never fires early, so a broken one counts in
    full. -/
def toMillis (d : Duration) : Nat := d.seconds * 1000 + (d.nanos + 999999) / 1000000

/-- The shorter of two durations. -/
def min (d e : Duration) : Duration := if d.toNanos ≤ e.toNanos then d else e

theorem ofParts?_parts (d : Duration) : ofParts? d.seconds d.nanos = some d := by
  have h₁ := d.seconds_lt
  have h₂ := d.nanos_lt
  have h₃ : d.nanos / 1000000000 = 0 := Nat.div_eq_of_lt h₂
  have h₄ : d.nanos % 1000000000 = d.nanos := Nat.mod_eq_of_lt h₂
  simp only [ofParts?, h₃, h₄, Nat.add_zero, h₁, dif_pos]

end Duration

end GridRobot
