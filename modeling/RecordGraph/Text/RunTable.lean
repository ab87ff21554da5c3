/-!
Tables of code points.  A table is written as text, one entry for each run of neighbouring code
points that share a value, and read by a binary search over the starts of the runs.
-/

namespace RecordGraph.Text

/-- The value of a hexadecimal digit. -/
def hexDigit? (c : Char) : Option Nat :=
  if '0' ≤ c ∧ c ≤ '9' then some (c.toNat - '0'.toNat)
  else if 'a' ≤ c ∧ c ≤ 'f' then some (c.toNat - 'a'.toNat + 10)
  else if 'A' ≤ c ∧ c ≤ 'F' then some (c.toNat - 'A'.toNat + 10)
  else none

/-- The number written by the hexadecimal digits of a text; other characters are skipped. -/
def hexNumber (cs : List Char) : Nat :=
  cs.foldl (fun n c => match hexDigit? c with | some d => 16 * n + d | none => n) 0

/-- Cuts a list of characters before each character of a class. -/
def cutBefore (p : Char → Bool) (cs : List Char) : List (List Char) :=
  let step := fun (c : Char) (acc : List Char × List (List Char)) =>
    if p c then ([], (c :: acc.1) :: acc.2) else (c :: acc.1, acc.2)
  let (first, rest) := cs.foldr step ([], [])
  if first.isEmpty then rest else first :: rest

/-- The hexadecimal numbers of a text, which blanks separate. -/
def hexNumbers (text : String) : List Nat :=
  (cutBefore (· == ' ') text.toList).map hexNumber

/-- Runs of code points with a common value: the first code point of each, in increasing order. -/
structure RunTable (α : Type) where
  starts : Array (Nat × α)

namespace RunTable

variable {α : Type}

/-- A table from the values and lengths of its runs, the first of which starts at 0. -/
def ofLengths (runs : List (α × Nat)) : RunTable α :=
  let step := fun (acc : Array (Nat × α) × Nat) (run : α × Nat) =>
    (acc.1.push (acc.2, run.1), acc.2 + run.2)
  ⟨(runs.foldl step (#[], 0)).1⟩

/-- A table from a text of entries, each a tag that starts with a capital letter and has the given
width, followed by a hexadecimal length. -/
def ofTagged (width : Nat) (read : String → α) (text : String) : RunTable α :=
  ofLengths <| (cutBefore Char.isUpper text.toList).map fun cs =>
    (read (String.ofList (cs.take width)), hexNumber (cs.drop width))

/-- A table of a set from the lengths of the runs outside and inside it, by turns. -/
def ofAlternating (text : String) : RunTable Bool :=
  ofLengths <| (hexNumbers text).zipIdx.map fun e => (e.2 % 2 == 1, e.1)

/-- The last start at or below a code point, searched between two indices. -/
def search (t : RunTable α) (c : Nat) (lo hi : Nat) : Nat :=
  if lo + 1 < hi then
    let mid := (lo + hi) / 2
    match t.starts[mid]? with
    | some (start, _) => if start ≤ c then t.search c mid hi else t.search c lo mid
    | none => lo
  else lo
termination_by hi - lo

/-- The value at a code point. -/
def find (t : RunTable α) (c : Nat) (default : α) : α :=
  match t.starts[t.search c 0 t.starts.size]? with
  | some (_, v) => v
  | none => default

end RunTable

end RecordGraph.Text
