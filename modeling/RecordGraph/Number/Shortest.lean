import RecordGraph.Number.Binary

/-!
The decimal text of a binary number: the fewest digits that read back as the same number of the same
format, of those the nearest to it, written out without an exponent.
-/

namespace RecordGraph

/-- A positive number `num / den`, with the ends of the interval of reals that round to it as
numerators over the same denominator. -/
structure RoundingInterval where
  low : Nat
  value : Nat
  high : Nat
  den : Nat
  closed : Bool
deriving Repr

namespace RoundingInterval

/-- The interval that belongs to a positive finite number of a format.  Below a power of two the
numbers lie twice as close, unless the unit is already the least one. -/
def ofFinite (f : BinaryFormat) (m : Nat) (e : Int) : RoundingInterval :=
  let unit := if 0 ≤ e - 2 then Nat.pow 2 (e - 2).toNat else 1
  let den := if 0 ≤ e - 2 then 1 else Nat.pow 2 (2 - e).toNat
  let below := if m = Nat.pow 2 (f.precision - 1) ∧ f.minExponent < e then 1 else 2
  ⟨(4 * m - below) * unit, 4 * m * unit, (4 * m + 2) * unit, den, m % 2 == 0⟩

/-- Whether `c / den'` lies in the interval, for numerators over `den`. -/
def contains (r : RoundingInterval) (c : Nat) : Bool :=
  if r.closed then decide (r.low ≤ c) && decide (c ≤ r.high)
  else decide (r.low < c) && decide (c < r.high)

/-- The interval after division by `10 ^ k`. -/
def shift (r : RoundingInterval) (k : Int) : RoundingInterval :=
  if 0 ≤ k then { r with den := r.den * Nat.pow 10 k.toNat }
  else
    let up := Nat.pow 10 (-k).toNat
    { r with low := r.low * up, value := r.value * up, high := r.high * up }

/-- The integer of the interval nearest to its number, if there is one; of two at the same distance
the greater. -/
def nearestInteger? (r : RoundingInterval) : Option Nat :=
  let below := r.value / r.den
  let low := r.contains (below * r.den)
  let high := r.contains ((below + 1) * r.den)
  if low && high then
    some (if 2 * (r.value - below * r.den) < r.den then below else below + 1)
  else if low then some below
  else if high then some (below + 1)
  else none

/-- Looks for an integer multiple of a power of ten, from the power `k` downwards. -/
def search (r : RoundingInterval) (k : Int) : Nat → Nat × Int
  | 0 => (0, k)
  | steps + 1 =>
    match (r.shift k).nearestInteger? with
    | some c => (c, k)
    | none => r.search (k - 1) steps

end RoundingInterval

/-- The shortest decimal `digits · 10 ^ exponent` that reads back as a positive finite number. -/
def shortestDecimal (f : BinaryFormat) (m : Nat) (e : Int) : Nat × Int :=
  let top : Int := e + (m.log2 : Int) + 1
  (RoundingInterval.ofFinite f m e).search (top * 30103 / 100000 + 1) (f.precision + 3)

/-- The digits of `digits · 10 ^ exponent`, all zeros written out. -/
def positional (digits : Nat) (exponent : Int) : List Char :=
  let ds := Nat.toDigits 10 digits
  if 0 ≤ exponent then ds ++ List.replicate exponent.toNat '0'
  else
    let places := (-exponent).toNat
    if places < ds.length then ds.take (ds.length - places) ++ '.' :: ds.drop (ds.length - places)
    else '0' :: '.' :: (List.replicate (places - ds.length) '0' ++ ds)

/-- The text of a number. -/
def Binary.text {f : BinaryFormat} : Binary f → String
  | .nan => "NaN"
  | .infinite s => if s then "-inf" else "inf"
  | .finite s m e _ =>
    let (digits, exponent) := if m = 0 then (0, 0) else shortestDecimal f m e
    let cs := positional digits exponent
    String.ofList (if s then '-' :: cs else cs)

end RecordGraph
