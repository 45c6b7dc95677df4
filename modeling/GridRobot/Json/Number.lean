import GridRobot.Json.Reader

/-!
# Numbers

A number is written as an optional minus, digits without a leading zero, an
optional fraction and an optional exponent. Without fraction and exponent it is
an integer, as long as it fits into a 64-bit word (a signed one if it has a
minus); all other numbers are floating point, minus zero among them.

A floating point number is the leading digits, as many as fit into a 64-bit
word, multiplied or divided by a power of ten, each rounded for itself; the
result need not be the double nearest to what is written.
-/

namespace GridRobot.Json

/-- The value of a number. -/
inductive Number
  | integer (n : Int)
  | float (x : Float)

/-- A number as it is written. -/
structure Numeral where
  negative : Bool
  whole : List Nat
  fraction : Option (List Nat)
  /-- The sign of the exponent, and its digits. -/
  exponent : Option (Bool × List Nat)

/-- The greatest number of an unsigned 64-bit word. -/
def maxWord : Nat := 0xFFFFFFFFFFFFFFFF

/-- The number that `sum` becomes by appending digits to it, up to the first digit that would
    take it past `limit`, and how many digits are left. -/
def appendDigits (limit sum : Nat) : List Nat → Nat × Nat
  | [] => (sum, 0)
  | d :: ds =>
    if limit < sum * 10 + d then (sum, ds.length + 1) else appendDigits limit (sum * 10 + d) ds

/-- `10^n` as a double. -/
def tenPower (n : Nat) : Float := Float.ofScientific 1 false n

/-- `x` divided by `10^n`, in steps of at most `10^308`. -/
def scaleDown (x : Float) (n : Nat) : Float :=
  if n ≤ 308 then x / tenPower n
  else if x == 0 then x
  else scaleDown (x / tenPower 308) (n - 308)
termination_by n

/-- `x · 10^e`, if it is finite. -/
def scale (x : Float) (e : Int) : Except Error Float :=
  if e < 0 then .ok (scaleDown x e.natAbs)
  else if e ≤ 308 then
    let y := x * tenPower e.toNat
    if y.isInf then .error .malformed else .ok y
  else if x == 0 then .ok x
  else .error .malformed

namespace Numeral

/-- The double of a numeral of the given leading digits and decimal exponent. -/
def toFloat (negative : Bool) (significand : Nat) (e : Int) : Except Error Number := do
  let x ← scale (UInt64.ofNat significand).toFloat e
  return .float (if negative then -x else x)

/-- The value of a numeral, if it is in range. -/
def value (n : Numeral) : Except Error Number :=
  let (leading, dropped) := appendDigits maxWord 0 n.whole
  match n.fraction, n.exponent with
  | none, none =>
    if dropped ≠ 0 then toFloat n.negative leading dropped
    else if !n.negative then .ok (.integer leading)
    else if leading = 0 || 0x8000000000000000 < leading then toFloat true leading 0
    else .ok (.integer (-leading))
  | fraction, exponent =>
    let places := fraction.getD []
    let (significand, ignored) := appendDigits maxWord leading places
    let e : Int := dropped - (places.length - ignored : Nat)
    match exponent with
    | none => toFloat n.negative significand e
    | some (negativeExponent, ds) =>
      let (x, excess) := appendDigits 0x7FFFFFFF 0 ds
      if excess = 0 then
        toFloat n.negative significand (if negativeExponent then e - x else e + x)
      else if significand = 0 || negativeExponent then
        .ok (.float (if n.negative then -0.0 else 0.0))
      else .error .malformed

end Numeral

/-- The digits before the point. -/
def wholeDigits : Reader (List Nat) := do
  let ds ← digits₁
  match ds with
  | 0 :: _ :: _ => throw .malformed
  | _ => return ds

/-- The sign of an exponent. -/
def exponentSign : Reader Bool := do
  match ← peek with
  | some b =>
    if b = byte '+' then do skip; return false
    else if b = byte '-' then do skip; return true
    else return false
  | none => return false

/-- An exponent follows, in either case of its letter. -/
def isExponentMark (b : UInt8) : Bool := b = byte 'e' || b = byte 'E'

/-- A number as it is written. -/
def numeral : Reader Numeral := do
  let negative ← (do
    if (← peek) = some (byte '-') then do skip; return true else return false)
  let whole ← wholeDigits
  let fraction ← (do
    if (← peek) = some (byte '.') then do skip; return some (← digits₁) else return none)
  let exponent ← (do
    if (← peek).any isExponentMark then do
      skip
      let sign ← exponentSign
      return some (sign, ← digits₁)
    else return none)
  return { negative, whole, fraction, exponent }

/-- A number. -/
def number : Reader Number := do
  let n ← numeral
  match n.value with
  | .ok v => return v
  | .error e => throw e

/-- Passes over a number; one that ends too soon is malformed here, and none is out of
    range. -/
def skipNumber : Reader Unit := fun text =>
  match numeral text with
  | .ok (_, rest) => .ok ((), rest)
  | .error _ => .error .malformed

end GridRobot.Json
