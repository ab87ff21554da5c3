import RecordGraph.Number.Binary
import RecordGraph.Text.Blank

/-!
Literals: how the text of an integer, a float or a truth value is read.  White space around a literal
is ignored, and `*` stands for the greatest value of the type that is asked for.
-/

namespace RecordGraph.Literal

open Text

/-- The value of a character as a digit, letters standing for the digits from ten on. -/
def digit? (c : Char) : Option Nat :=
  if '0' ≤ c ∧ c ≤ '9' then some (c.toNat - '0'.toNat)
  else if 'a' ≤ c ∧ c ≤ 'z' then some (c.toNat - 'a'.toNat + 10)
  else if 'A' ≤ c ∧ c ≤ 'Z' then some (c.toNat - 'A'.toNat + 10)
  else none

/-- The value of a digit of a base. -/
def digitOf? (base : Nat) (c : Char) : Option Nat := (digit? c).filter (· < base)

/-- The number written by digits of a base, after those that make up `acc`. -/
def digitsFrom? (base acc : Nat) : List Char → Option Nat
  | [] => some acc
  | c :: cs => do digitsFrom? base (base * acc + (← digitOf? base c)) cs

/-- The greatest magnitude of an integer literal. -/
def greatestMagnitude : Nat := Nat.pow 2 127 - 1

/-- The number written by a nonempty list of digits of a base, unless it is too large. -/
def magnitude? (base : Nat) (cs : List Char) : Option Nat :=
  if cs.isEmpty then none
  else (digitsFrom? base 0 cs).filter (· ≤ greatestMagnitude)

/-- A hexadecimal magnitude, which may be marked by `0x` or `0X`. -/
def hexMagnitude? : List Char → Option Nat
  | '0' :: 'x' :: cs => magnitude? 16 cs
  | '0' :: 'X' :: cs => magnitude? 16 cs
  | cs => magnitude? 16 cs

/-- The magnitude of an integer literal without its sign.  A `0` in front of more digits announces an
octal number; digits that are not of the announced base are read as hexadecimal. -/
def unsigned? : List Char → Option Nat
  | '0' :: c :: cs => (magnitude? 8 (c :: cs)).or (hexMagnitude? ('0' :: c :: cs))
  | cs => (magnitude? 10 cs).or (hexMagnitude? cs)

/-- Takes one sign off a literal: whether it was a minus, and the rest. -/
def takeSign : List Char → Bool × List Char
  | '-' :: cs => (true, cs)
  | '+' :: cs => (false, cs)
  | cs => (false, cs)

/-- Reads an integer. -/
def integer? (s : String) (max : Int) : Option Int :=
  match trim s.toList with
  | ['*'] => some max
  | cs =>
    let (negative, digits) := takeSign cs
    if digits.any fun c => c == '+' || c == '-' then none
    else (unsigned? digits).map fun n => if negative then -(n : Int) else n

/-- The digits at the front of a list, and the rest. -/
def spanDigits (cs : List Char) : List Char × List Char := cs.span Char.isDigit

/-- The decimal number that a list of digits writes. -/
def decimalNat (cs : List Char) : Nat := cs.foldl (fun n c => 10 * n + (c.toNat - '0'.toNat)) 0

/-- The exponent part of a decimal literal, or 0 where there is none. -/
def exponent? : List Char → Option Int
  | [] => some 0
  | c :: cs =>
    if c = 'e' ∨ c = 'E' then
      let (negative, digits) := takeSign cs
      if digits.isEmpty || !digits.all Char.isDigit then none
      else
        let n : Int := decimalNat digits
        some (if negative then -n else n)
    else none

/-- An unsigned decimal literal: its digits as one number, and the power of ten to multiply by.  The
point may stand first or last, but there is at least one digit. -/
def decimal? (cs : List Char) : Option (Nat × Int) :=
  let (whole, rest) := spanDigits cs
  let (part, rest) := match rest with
    | '.' :: rest => spanDigits rest
    | rest => ([], rest)
  if whole.isEmpty && part.isEmpty then none
  else (exponent? rest).map fun e => (decimalNat (whole ++ part), e - (part.length : Int))

/-- Equality of texts in which only the ASCII letters may differ in case. -/
def equalIgnoringCase (cs : List Char) (word : String) : Bool :=
  cs.map Char.toLower == word.toList

/-- Reads a number of a binary format, correctly rounded. -/
def binary? (f : BinaryFormat) (cs : List Char) : Option (Binary f) :=
  let (negative, body) := takeSign cs
  if equalIgnoringCase body "inf" || equalIgnoringCase body "infinity" then some (.infinite negative)
  else if equalIgnoringCase body "nan" then some .nan
  else (decimal? body).map fun d => Binary.ofDecimal f negative d.1 d.2

/-- Reads a float. -/
def float? (s : String) (max : Binary .double) : Option (Binary .double) :=
  match trim s.toList with
  | ['*'] => some max
  | cs => binary? .double cs

/-- Reads a truth value: `0` and `false` are false, nothing is no value, and all else is true. -/
def bool? (s : String) : Option Bool :=
  match trim s.toList with
  | [] => none
  | ['0'] => some false
  | cs => some (!equalIgnoringCase cs "false")

example : integer? " 010 " 255 = some 8 ∧ integer? "019" 255 = some 25 ∧ integer? "-0x1F" 255 = some (-31)
    ∧ integer? "*" 255 = some 255 ∧ integer? "0-5" 255 = none ∧ integer? "+" 255 = none := by
  decide +kernel

end RecordGraph.Literal
