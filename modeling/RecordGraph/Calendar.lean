import RecordGraph.Text.Blank

/-!
Dates and times of day in fixed layouts.  A layout is a list of parts, and a text is of the layout
if it can be read part by part, nothing is left over, and the date exists.
-/

namespace RecordGraph.Calendar

open Text

/-- What a part of a layout tells. -/
inductive Field
  | year
  | yearOfCentury
  | month
  | monthName
  | day
  | hour
  | minute
  | second
deriving DecidableEq, Repr

/-- One part of a layout. -/
inductive Part
  | field (f : Field)
  | literal (c : Char)
  /-- Any amount of white space. -/
  | blank
deriving DecidableEq, Repr

abbrev Layout := List Part

namespace Part

/-- The way a part is written in the text of a layout. -/
def text : Part → String
  | .field .year => "%Y"
  | .field .yearOfCentury => "%y"
  | .field .month => "%m"
  | .field .monthName => "%b"
  | .field .day => "%d"
  | .field .hour => "%H"
  | .field .minute => "%M"
  | .field .second => "%S"
  | .literal c => c.toString
  | .blank => " "

end Part

def Layout.text (l : Layout) : String := String.join (l.map Part.text)

/-- The layouts of a date. -/
def dateLayouts : List Layout :=
  [ [.field .year, .literal '-', .field .month, .literal '-', .field .day],
    [.field .day, .literal '/', .field .month, .literal '/', .field .yearOfCentury],
    [.field .year, .literal '-', .field .monthName, .literal '-', .field .day] ]

/-- The layouts of a date with the time of day. -/
def timeLayouts : List Layout :=
  dateLayouts.map fun date => date ++ [.blank, .field .hour, .literal ':', .field .minute,
    .literal ':', .field .second]

/-- A day and a time of day, as far as it has been read. -/
structure Moment where
  year : Int := 0
  month : Nat := 1
  day : Nat := 1
  hour : Nat := 0
  minute : Nat := 0
  second : Nat := 0
deriving DecidableEq, Repr

/-- The months by the first three letters of their names. -/
def monthNames : List String :=
  ["jan", "feb", "mar", "apr", "may", "jun", "jul", "aug", "sep", "oct", "nov", "dec"]

def isLeapYear (year : Int) : Bool := year % 4 == 0 && (year % 100 != 0 || year % 400 == 0)

def daysInMonth (year : Int) (month : Nat) : Nat :=
  if month = 2 then (if isLeapYear year then 29 else 28)
  else if month = 4 ∨ month = 6 ∨ month = 9 ∨ month = 11 then 30
  else 31

/-- The years in which there are dates. -/
def firstYear : Int := -262143
def lastYear : Int := 262142

namespace Moment

/-- Whether the day and the time of day exist.  A minute may have a sixty-first second. -/
def Exists (m : Moment) : Prop :=
  firstYear ≤ m.year ∧ m.year ≤ lastYear ∧ 1 ≤ m.month ∧ m.month ≤ 12 ∧ 1 ≤ m.day
    ∧ m.day ≤ daysInMonth m.year m.month ∧ m.hour ≤ 23 ∧ m.minute ≤ 59 ∧ m.second ≤ 60

instance (m : Moment) : Decidable m.Exists := by unfold Exists; infer_instance

end Moment

/-- Takes at most `width` digits, and at least one: their number and the rest. -/
def number? (width : Nat) (cs : List Char) : Option (Nat × List Char) :=
  let digits := (cs.take width).takeWhile Char.isDigit
  if digits.isEmpty then none
  else
    let n := digits.foldl (fun n c => 10 * n + (c.toNat - '0'.toNat)) 0
    some (n, cs.drop digits.length)

/-- Takes a year: after a sign any number of digits, without one at most four. -/
def year? (cs : List Char) : Option (Int × List Char) :=
  match cs with
  | '-' :: rest => (number? rest.length rest).map fun r => (-(r.1 : Int), r.2)
  | '+' :: rest => (number? rest.length rest).map fun r => ((r.1 : Int), r.2)
  | cs => (number? 4 cs).map fun r => ((r.1 : Int), r.2)

/-- Takes the first letters of the name of a month, in any case: its number from 1 on. -/
def monthName? (cs : List Char) : Option (Nat × List Char) :=
  (monthNames.findIdx? fun name => (cs.take 3).map Char.toLower == name.toList).map
    fun i => (i + 1, cs.drop 3)

/-- Reads one field.  White space before a number is skipped. -/
def readField (f : Field) (m : Moment) (cs : List Char) : Option (Moment × List Char) :=
  let two (set : Nat → Moment) := (number? 2 (trimLeft cs)).map fun r => (set r.1, r.2)
  match f with
  | .year => (year? (trimLeft cs)).map fun r => ({ m with year := r.1 }, r.2)
  | .yearOfCentury => two fun n => { m with year := if n < 70 then 2000 + n else 1900 + n }
  | .month => two fun n => { m with month := n }
  | .monthName => (monthName? cs).map fun r => ({ m with month := r.1 }, r.2)
  | .day => two fun n => { m with day := n }
  | .hour => two fun n => { m with hour := n }
  | .minute => two fun n => { m with minute := n }
  | .second => two fun n => { m with second := n }

/-- Reads a text part by part. -/
def readParts : Layout → Moment → List Char → Option Moment
  | [], m, [] => some m
  | [], _, _ :: _ => none
  | .literal c :: parts, m, cs =>
    match cs with
    | d :: rest => if c = d then readParts parts m rest else none
    | [] => none
  | .blank :: parts, m, cs => readParts parts m (trimLeft cs)
  | .field f :: parts, m, cs => do
    let (m, rest) ← readField f m cs
    readParts parts m rest

/-- The moment that a text tells in a layout; white space around the text is ignored. -/
def read? (l : Layout) (s : String) : Option Moment :=
  (readParts l {} (trim s.toList)).filter fun m => decide m.Exists

def isDate (s : String) : Bool := dateLayouts.any fun l => (read? l s).isSome

def isTime (s : String) : Bool := timeLayouts.any fun l => (read? l s).isSome

example : isDate "2024-02-29" ∧ isDate "29/02/24" ∧ isDate "2024-feb-29" ∧ ¬ isDate "2023-02-29"
    ∧ isTime "2024-02-29 23:59:60" ∧ ¬ isTime "2024-02-29" := by
  decide +kernel

end RecordGraph.Calendar
