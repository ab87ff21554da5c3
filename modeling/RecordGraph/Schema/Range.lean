import RecordGraph.Error
import RecordGraph.Number.Literal
import RecordGraph.Number.Shortest
import RecordGraph.Pattern
import RecordGraph.Schema.AttributeType

/-!
Ranges of attributes.  What the text of a range means depends on the type: a list of numbers and
intervals, a pattern that the whole text must match, or a list of the accepted texts.
-/

namespace RecordGraph

open Text

/-- A member of a numeric range: one number, or all numbers between two. -/
inductive RangeItem (α : Type)
  | point (v : α)
  | interval (lo hi : α)
deriving DecidableEq, Repr

namespace RangeItem

variable {α : Type}

def render (text : α → String) : RangeItem α → String
  | .point v => text v
  | .interval lo hi => text lo ++ ".." ++ text hi

def containsInt (n : Int) : RangeItem Int → Bool
  | .point v => n == v
  | .interval lo hi => decide (lo ≤ n) && decide (n ≤ hi)

def containsFloat (x : Binary .double) : RangeItem (Binary .double) → Bool
  | .point v => x.equal v
  | .interval lo hi => lo.le x && x.le hi

end RangeItem

/-- The constraint on the values of an attribute. -/
inductive Range
  | unbounded
  | integers (items : List (RangeItem Int))
  | floats (items : List (RangeItem (Binary .double)))
  /-- Texts that the pattern matches as a whole. -/
  | pattern (p : Pattern)
  | enumerators (items : List String)
deriving DecidableEq, Repr

instance : Inhabited Range := ⟨.unbounded⟩

namespace Range

/-- Whether a list of digits of a bound goes on in the only way it may: hexadecimal digits, or decimal
digits of any script, and perhaps a point with decimal digits. -/
def isBoundBody (cs : List Char) : Bool :=
  let isDigit (c : Char) : Bool := isDecimalDigit c || (hexDigit? c).isSome
  let (whole, rest) := cs.span isDigit
  !whole.isEmpty && match rest with
    | [] => true
    | '.' :: part => !part.isEmpty && part.all isDecimalDigit
    | _ => false

/-- Whether a text has the shape of a bound without its sign: perhaps `x` or `0x` in front. -/
def isBound : List Char → Bool
  | 'x' :: cs => isBoundBody cs
  | '0' :: 'x' :: cs => isBoundBody cs
  | cs => isBoundBody cs

/-- Takes a minus off the front of a bound. -/
def takeMinus : List Char → List Char × List Char
  | '-' :: cs => (['-'], cs)
  | cs => ([], cs)

/-- The bounds of an interval written with a hyphen between them. -/
def hyphenated? (cs : List Char) : Option (List Char × List Char) :=
  let (sign, rest) := takeMinus cs
  match cutAt? ['-'] rest with
  | some (lo, hi) =>
    if isBound lo && isBound (takeMinus hi).2 then some (sign ++ lo, hi) else none
  | none => none

/-- Reads one item of a numeric range: `lo..hi`, `lo-hi` or one number. -/
def readItem {α : Type} (read : String → Except Error α) (item : List Char) :
    Except Error (RangeItem α) :=
  match cutAt? ['.', '.'] item with
  | some (lo, hi) => do
    let lo ← read (String.ofList (trim lo))
    let hi ← read (String.ofList (trim hi))
    pure (.interval lo hi)
  | none =>
    match hyphenated? item with
    | some (lo, hi) => do
      let lo ← read (String.ofList lo)
      let hi ← read (String.ofList hi)
      pure (.interval lo hi)
    | none => do pure (.point (← read (String.ofList item)))

/-- Reads the items of a numeric range, which commas separate. -/
def readItems {α : Type} (read : String → Except Error α) (source : String) :
    Except Error (List (RangeItem α)) :=
  (commaItems source).mapM fun item => readItem read item.toList

/-- Reads a bound with a reader of literals. -/
def readBound {α : Type} (type : AttributeType) (read : String → Option α) (bound : String) :
    Except Error α :=
  match read bound with
  | some v => .ok v
  | none =>
    .error (.invalidSchema ("range bound `" ++ bound ++ "` is not a valid " ++ type.tag ++ " value"))

/-- The range of an attribute that declares none: an integer type has the interval of its width. -/
def default (type : AttributeType) : Range :=
  match type.bounds? with
  | some (lo, hi) => .integers [.interval lo hi]
  | none => .unbounded

/-- Compiles the text of a range for a type.  A blank text is no range. -/
def compile (type : AttributeType) (source : Option String) : Except Error Range :=
  match (source.map trimmed).filter (fun s => !s.isEmpty) with
  | none => .ok (default type)
  | some source =>
    match type with
    | .bool => .ok .unbounded
    | .integer t => do
      pure (.integers (← readItems (readBound type fun s => Literal.integer? s t.greatest) source))
    | .float | .double => do
      let greatest := type.greatestFloat?.getD (Binary.greatest .double)
      pure (.floats (← readItems (readBound type fun s => Literal.float? s greatest) source))
    | .text .string =>
      match Pattern.compileWhole source with
      | .ok p => .ok (.pattern p)
      | .error e => .error (.invalidSchema e.message)
    | .text _ => .ok (.enumerators (commaItems source))

def containsInt (r : Range) (n : Int) : Bool :=
  match r with
  | .integers items => items.any (RangeItem.containsInt n)
  | _ => true

def containsFloat (r : Range) (x : Binary .double) : Bool :=
  match r with
  | .floats items => items.any (RangeItem.containsFloat x)
  | _ => true

def containsText (r : Range) (s : String) : Bool :=
  match r with
  | .pattern p => p.isMatch s
  | .enumerators items => items.contains s
  | _ => true

/-- The text of a pattern without the frame that makes it match whole texts. -/
def patternBody (source : String) : String :=
  let body := source.toList.drop 4
  String.ofList (body.take (body.length - 2))

/-- The text of a range. -/
def render : Range → String
  | .unbounded => "*"
  | .integers items => String.intercalate ", " (items.map (RangeItem.render toString))
  | .floats items => String.intercalate ", " (items.map (RangeItem.render Binary.text))
  | .pattern p => "/" ++ patternBody p.source ++ "/"
  | .enumerators items => String.intercalate ", " items

end Range

end RecordGraph
