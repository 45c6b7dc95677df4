/-!
# Shortest decimal text of a floating point number

A finite double is a number `m · 2^q`, and the reals that round to it form an
interval around it. Its text has the fewest digits for which some decimal of
that many digits lies in the interval; of several such decimals it is the
nearest one.

Everything is done with natural numbers: a positive real is a fraction
`num / den`, a decimal grid is given by its unit `10^s`, and a value has two
neighbours on a grid, one unit apart.
-/

namespace GridRobot.Shortest

/-- A positive fraction. -/
structure Ratio where
  num : Nat
  den : Nat

namespace Ratio

/-- `m · 2^q`. -/
def ofBinary (m : Nat) (q : Int) : Ratio := ⟨m <<< q.toNat, 1 <<< (-q).toNat⟩

/-- `d · 10^s`. -/
def ofDecimal (d : Nat) (s : Int) : Ratio := ⟨d * Nat.pow 10 s.toNat, Nat.pow 10 (-s).toNat⟩

/-- `a` is less than `b`, multiplied out. -/
def lt (a b : Ratio) : Bool := a.num * b.den < b.num * a.den

/-- `a` is at most `b`, multiplied out. -/
def le (a b : Ratio) : Bool := a.num * b.den ≤ b.num * a.den

/-- How often the unit `10^s` goes into `a`. -/
def units (a : Ratio) (s : Int) : Nat :=
  a.num * Nat.pow 10 (-s).toNat / (a.den * Nat.pow 10 s.toNat)

end Ratio

/-- A positive double and the ends of the interval of reals that round to it. -/
structure Rounding where
  value : Ratio
  low : Ratio
  high : Ratio
  /-- The ends themselves round to the value. -/
  closed : Bool

namespace Rounding

/-- The interval of `m · 2^q`; below a power of two the next double is only half as far as
    above it, except at the smallest exponent. -/
def ofBinary (m : Nat) (q : Int) : Rounding where
  value := .ofBinary (4 * m) (q - 2)
  low := .ofBinary (4 * m - (if m = 1 <<< 52 ∧ q ≠ -1074 then 1 else 2)) (q - 2)
  high := .ofBinary (4 * m + 2) (q - 2)
  closed := m % 2 = 0

/-- `x` is one of the reals that round to the value. -/
def contains (r : Rounding) (x : Ratio) : Bool :=
  if r.closed then r.low.le x && x.le r.high else r.low.lt x && x.lt r.high

/-- The decimal on the grid of unit `10^s` that lies in the interval, nearest to the value;
    of two that are equally near, the even one. -/
def onGrid? (r : Rounding) (s : Int) : Option Nat :=
  let d := r.value.units s
  let below := r.contains (.ofDecimal d s)
  let above := r.contains (.ofDecimal (d + 1) s)
  let middle := Ratio.ofDecimal (10 * d + 5) (s - 1)
  let upper := middle.lt r.value || (!r.value.lt middle && d % 2 = 1)
  if below && !(above && upper) then some d else if above then some (d + 1) else none

/-- The place of the leading digit: the greatest `e` with `10^e ≤ value`, looked for
    downwards from `e`. -/
def magnitude (r : Rounding) : Nat → Int → Int
  | 0, e => e
  | fuel + 1, e => if (Ratio.ofDecimal 1 e).le r.value then e else magnitude r fuel (e - 1)

/-- The first grid with a hit, from `k` digits on; `e` is the place of the leading digit. -/
def search (r : Rounding) (e : Int) : (fuel k : Nat) → Nat × Int
  | 0, k => (r.value.units (e - k + 1), e - k + 1)
  | fuel + 1, k =>
    match r.onGrid? (e - k + 1) with
    | some d => (d, e - k + 1)
    | none => search r e fuel (k + 1)

end Rounding

/-- The digits of a decimal and the place of its leading digit, without the zeros at the
    end. -/
def normalise (d : Nat) (s : Int) : List Char × Int :=
  let digits := Nat.toDigits 10 d
  (((digits.reverse.dropWhile (· = '0')).reverse), s + digits.length - 1)

/-- The shortest digits of `m · 2^q`, for positive `m`, and the place of the first. -/
def digits (m : Nat) (q : Int) : List Char × Int :=
  let r := Rounding.ofBinary m q
  let (d, s) := r.search (r.magnitude 640 309) 17 1
  normalise d s

/-- The text of the decimal with the given digits, the first of them at place `e`: written
    out from a hundred-thousandth up to below ten to the sixteenth, with a digit on both
    sides of the point; else with an exponent that always has a sign. -/
def layout (digits : List Char) (e : Int) : List Char :=
  if 0 ≤ e ∧ e ≤ 15 then
    let whole := e.toNat + 1
    let fraction := digits.drop whole
    digits.take whole ++ List.replicate (whole - digits.length) '0' ++
      '.' :: (if fraction = [] then ['0'] else fraction)
  else if -5 ≤ e ∧ e < 0 then
    '0' :: '.' :: (List.replicate ((-e).toNat - 1) '0' ++ digits)
  else
    let fraction := digits.drop 1
    digits.take 1 ++ (if fraction = [] then [] else '.' :: fraction) ++
      ['e', if e < 0 then '-' else '+'] ++ Nat.toDigits 10 e.natAbs

/-- The shortest text of a finite double. -/
def text (f : Float) : String :=
  let bits := f.toBits.toNat
  let sign := if bits >>> 63 = 1 then ['-'] else []
  let exponent := (bits >>> 52) % 2048
  let fraction := bits % (1 <<< 52)
  let magnitude :=
    if exponent = 0 ∧ fraction = 0 then "0.0".toList
    else if exponent = 0 then
      let (ds, e) := digits fraction (-1074)
      layout ds e
    else
      let (ds, e) := digits ((1 <<< 52) + fraction) (exponent - 1075)
      layout ds e
  String.ofList (sign ++ magnitude)

end GridRobot.Shortest
