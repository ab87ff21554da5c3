/-!
Binary floating-point numbers of a fixed format, as exact data.  A finite number is a sign, a
significand and an exponent, and every number of a format has one such form.  Rounding takes an
exact ratio to the nearest number of a format; a tie goes to the even significand, and what is too
large becomes infinite.
-/

namespace RecordGraph

/-- A binary format: the bits of a significand, and the least and greatest exponent of its unit. -/
structure BinaryFormat where
  precision : Nat
  minExponent : Int
  maxExponent : Int
deriving DecidableEq, Repr

namespace BinaryFormat

/-- The format of 32 bits. -/
def single : BinaryFormat := ⟨24, -149, 104⟩

/-- The format of 64 bits. -/
def double : BinaryFormat := ⟨53, -1074, 971⟩

/-- The form of a finite number: the exponent is the least at which the significand fits. -/
def Admits (f : BinaryFormat) (significand : Nat) (exponent : Int) : Prop :=
  significand < Nat.pow 2 f.precision ∧ f.minExponent ≤ exponent ∧ exponent ≤ f.maxExponent
    ∧ (Nat.pow 2 (f.precision - 1) ≤ significand ∨ exponent = f.minExponent)

instance (f : BinaryFormat) (m : Nat) (e : Int) : Decidable (f.Admits m e) := by
  unfold Admits; infer_instance

end BinaryFormat

/-- A number of a binary format. -/
inductive Binary (f : BinaryFormat)
  | nan
  | infinite (negative : Bool)
  | finite (negative : Bool) (significand : Nat) (exponent : Int)
      (admitted : f.Admits significand exponent)
deriving DecidableEq, Repr

/-- The integer nearest to a ratio; a half goes to the even neighbour. -/
def roundHalfEven (num den : Nat) : Nat :=
  let q := num / den
  let r := num % den
  if 2 * r < den ∨ (2 * r = den ∧ q % 2 = 0) then q else q + 1

/-- The exponent of the greatest power of two at most `num / den`, for positive numbers. -/
def floorLog2 (num den : Nat) : Int :=
  let a : Int := (num.log2 : Int) - (den.log2 : Int)
  let fits := if 0 ≤ a then den * Nat.pow 2 a.toNat ≤ num else den ≤ num * Nat.pow 2 (-a).toNat
  if fits then a else a - 1

namespace Binary

variable {f : BinaryFormat}

/-- The number of a format nearest to a ratio, with the given sign. -/
def ofRatio (f : BinaryFormat) (negative : Bool) (num den : Nat) : Binary f :=
  let e := if num = 0 then f.minExponent
    else max f.minExponent (floorLog2 num den - (f.precision : Int) + 1)
  let q := if 0 ≤ e then roundHalfEven num (den * Nat.pow 2 e.toNat)
    else roundHalfEven (num * Nat.pow 2 (-e).toNat) den
  let (m, e) := if q = Nat.pow 2 f.precision then (Nat.pow 2 (f.precision - 1), e + 1) else (q, e)
  if h : f.Admits m e then .finite negative m e h else .infinite negative

/-- The number nearest to an integer. -/
def ofInt (f : BinaryFormat) (n : Int) : Binary f := ofRatio f (n < 0) n.natAbs 1

/-- The number nearest to `digits · 10 ^ exponent`.  Powers far outside the format are not
computed. -/
def ofDecimal (f : BinaryFormat) (negative : Bool) (digits : Nat) (exponent : Int) : Binary f :=
  let size : Int := (Nat.toDigits 10 digits).length
  if digits = 0 ∨ size + exponent < f.minExponent then ofRatio f negative 0 1
  else if f.maxExponent + f.precision < size - 1 + exponent then .infinite negative
  else if 0 ≤ exponent then ofRatio f negative (digits * Nat.pow 10 exponent.toNat) 1
  else ofRatio f negative digits (Nat.pow 10 (-exponent).toNat)

/-- The number of another format nearest to this one. -/
def convert (g : BinaryFormat) : Binary f → Binary g
  | .nan => .nan
  | .infinite s => .infinite s
  | .finite s m e _ =>
    if 0 ≤ e then ofRatio g s (m * Nat.pow 2 e.toNat) 1 else ofRatio g s m (Nat.pow 2 (-e).toNat)

/-- The greatest finite number of a format. -/
def greatest (f : BinaryFormat) : Binary f :=
  ofRatio f false ((Nat.pow 2 f.precision - 1) * Nat.pow 2 f.maxExponent.toNat) 1

def negate : Binary f → Binary f
  | .nan => .nan
  | .infinite s => .infinite (!s)
  | .finite s m e h => .finite (!s) m e h

def isFinite : Binary f → Bool
  | .finite .. => true
  | _ => false

/-- How many units of `2 ^ unit` a finite number holds, when `unit` is at most its exponent. -/
def scaled (negative : Bool) (m : Nat) (e unit : Int) : Int :=
  let n : Int := (m * Nat.pow 2 (e - unit).toNat : Nat)
  if negative then -n else n

/-- The order of numbers, in which nothing compares with `nan`. -/
def le : Binary f → Binary f → Bool
  | .nan, _ => false
  | _, .nan => false
  | .infinite s, .infinite t => s || !t
  | .infinite s, .finite .. => s
  | .finite .., .infinite t => !t
  | .finite s m e _, .finite t n d _ =>
    let unit := min e d
    decide (scaled s m e unit ≤ scaled t n d unit)

/-- Equality of numbers: zeros are equal whatever their sign, and `nan` differs from itself. -/
def equal (x y : Binary f) : Bool := x.le y && y.le x

def lt (x y : Binary f) : Bool := x.le y && !y.le x

/-- The integer that a number is, if it is one. -/
def toInt? : Binary f → Option Int
  | .finite s m e _ =>
    if 0 ≤ e then some (scaled s m e 0)
    else if m % Nat.pow 2 (-e).toNat = 0 then
      let n : Int := (m / Nat.pow 2 (-e).toNat : Nat)
      some (if s then -n else n)
    else none
  | _ => none

end Binary

end RecordGraph
