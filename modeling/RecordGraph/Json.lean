import RecordGraph.Text.RunTable

/-!
JSON texts.  A tree keeps the members of an object in their order, repeated names included.  A string
whose escapes do not make up characters is still a string, but has no text.
-/

namespace RecordGraph

/-- A JSON value. -/
inductive Json
  | null
  | bool (b : Bool)
  | number (text : String)
  | string (text : Option String)
  | array (items : List Json)
  | object (members : List (Option String × Json))
deriving Repr

namespace Json

open Text

/-! ### Reading -/

def isSpace (c : Char) : Bool := c == ' ' || c == '\n' || c == '\t' || c == '\r'

def skip (cs : List Char) : List Char := cs.dropWhile isSpace

/-- Takes a word that must stand in front. -/
def word? (w : String) (cs : List Char) : Option (List Char) :=
  if w.toList.isPrefixOf cs then some (cs.drop w.length) else none

/-- Takes digits, at least one. -/
def digits? (cs : List Char) : Option (List Char × List Char) :=
  let r := cs.span Char.isDigit
  if r.1.isEmpty then none else some r

/-- Takes a number: no zeros in front, and digits after a point or an exponent. -/
def number? (cs : List Char) : Option (List Char × List Char) := do
  let (sign, rest) := match cs with
    | '-' :: rest => (['-'], rest)
    | rest => ([], rest)
  let (whole, rest) ← match rest with
    | '0' :: rest => some (['0'], rest)
    | rest => digits? rest
  let (fraction, rest) ← match rest with
    | '.' :: rest => (digits? rest).map fun r => ('.' :: r.1, r.2)
    | rest => some ([], rest)
  let (exponent, rest) ← match rest with
    | c :: more =>
      if c = 'e' ∨ c = 'E' then
        match more with
        | '+' :: more => (digits? more).map fun r => (c :: '+' :: r.1, r.2)
        | '-' :: more => (digits? more).map fun r => (c :: '-' :: r.1, r.2)
        | more => (digits? more).map fun r => (c :: r.1, r.2)
      else some ([], c :: more)
    | [] => some ([], [])
  some (sign ++ whole ++ fraction ++ exponent, rest)

/-- The code unit of four hexadecimal digits. -/
def codeUnit? : List Char → Option (Nat × List Char)
  | a :: b :: c :: d :: rest =>
    if [a, b, c, d].all fun x => (hexDigit? x).isSome then some (hexNumber [a, b, c, d], rest) else none
  | _ => none

/-- One element of a string: a character, or half of one. -/
inductive Unit16
  | char (c : Char)
  | high (n : Nat)
  | low (n : Nat)
deriving Repr

def ofCodeUnit (n : Nat) : Unit16 :=
  if 0xd800 ≤ n ∧ n < 0xdc00 then .high n
  else if 0xdc00 ≤ n ∧ n < 0xe000 then .low n
  else .char (Char.ofNat n)

/-- Takes what follows a backslash. -/
def escape? : List Char → Option (Unit16 × List Char)
  | '"' :: rest => some (.char '"', rest)
  | '\\' :: rest => some (.char '\\', rest)
  | '/' :: rest => some (.char '/', rest)
  | 'b' :: rest => some (.char '\x08', rest)
  | 'f' :: rest => some (.char '\x0c', rest)
  | 'n' :: rest => some (.char '\n', rest)
  | 'r' :: rest => some (.char '\r', rest)
  | 't' :: rest => some (.char '\t', rest)
  | 'u' :: rest => (codeUnit? rest).map fun r => (ofCodeUnit r.1, r.2)
  | _ => none

/-- Takes the elements of a string up to its closing quote. -/
def units? : Nat → List Char → Option (List Unit16 × List Char)
  | 0, _ => none
  | steps + 1, cs =>
    match cs with
    | [] => none
    | '"' :: rest => some ([], rest)
    | '\\' :: rest => do
      let (u, rest) ← escape? rest
      let (us, rest) ← units? steps rest
      some (u :: us, rest)
    | c :: rest =>
      if c.toNat < 0x20 then none
      else (units? steps rest).map fun r => (.char c :: r.1, r.2)

/-- The characters of the elements of a string, halves being joined in pairs. -/
def joinUnits? : List Unit16 → Option (List Char)
  | [] => some []
  | .char c :: us => (joinUnits? us).map (c :: ·)
  | .high h :: .low l :: us =>
    (joinUnits? us).map (Char.ofNat (0x10000 + (h - 0xd800) * 0x400 + (l - 0xdc00)) :: ·)
  | _ => none

/-- Takes a string after its opening quote. -/
def string? (cs : List Char) : Option (Option String × List Char) :=
  (units? (cs.length + 1) cs).map fun r => ((joinUnits? r.1).map String.ofList, r.2)

mutual

/-- Takes a value.  Every call takes a character or leads to one that does, which bounds the number
of steps. -/
def value? : Nat → List Char → Option (Json × List Char)
  | 0, _ => none
  | steps + 1, cs =>
    match skip cs with
    | 'n' :: rest => (word? "ull" rest).map fun r => (.null, r)
    | 't' :: rest => (word? "rue" rest).map fun r => (.bool true, r)
    | 'f' :: rest => (word? "alse" rest).map fun r => (.bool false, r)
    | '"' :: rest => (string? rest).map fun r => (.string r.1, r.2)
    | '[' :: rest =>
      match skip rest with
      | ']' :: rest => some (.array [], rest)
      | rest => (items? steps rest).map fun r => (.array r.1, r.2)
    | '\x7b' :: rest =>
      match skip rest with
      | '\x7d' :: rest => some (.object [], rest)
      | rest => (members? steps rest).map fun r => (.object r.1, r.2)
    | rest => (number? rest).map fun r => (.number (String.ofList r.1), r.2)

/-- Takes the items of an array up to its closing bracket. -/
def items? : Nat → List Char → Option (List Json × List Char)
  | 0, _ => none
  | steps + 1, cs => do
    let (v, rest) ← value? steps cs
    match skip rest with
    | ',' :: rest => (items? steps rest).map fun r => (v :: r.1, r.2)
    | ']' :: rest => some ([v], rest)
    | _ => none

/-- Takes the members of an object up to its closing brace. -/
def members? : Nat → List Char → Option (List (Option String × Json) × List Char)
  | 0, _ => none
  | steps + 1, cs =>
    match skip cs with
    | '"' :: rest => do
      let (name, rest) ← string? rest
      match skip rest with
      | ':' :: rest => do
        let (v, rest) ← value? steps rest
        match skip rest with
        | ',' :: rest => (members? steps rest).map fun r => ((name, v) :: r.1, r.2)
        | '\x7d' :: rest => some ([(name, v)], rest)
        | _ => none
      | _ => none
    | _ => none

end

/-- The value of a text that holds nothing else. -/
def parse? (text : String) : Option Json :=
  let cs := text.toList
  match value? (2 * cs.length + 2) cs with
  | some (v, rest) => if (skip rest).isEmpty then some v else none
  | none => none

/-! ### Writing -/

/-- One character inside quotes. -/
def writeChar (c : Char) : List Char :=
  if c = '"' then ['\\', '"']
  else if c = '\\' then ['\\', '\\']
  else if c = '\x08' then ['\\', 'b']
  else if c = '\x0c' then ['\\', 'f']
  else if c = '\n' then ['\\', 'n']
  else if c = '\r' then ['\\', 'r']
  else if c = '\t' then ['\\', 't']
  else if c.toNat < 0x20 then
    let ds := Nat.toDigits 16 c.toNat
    '\\' :: 'u' :: (List.replicate (4 - ds.length) '0' ++ ds)
  else [c]

def writeString (s : String) : String :=
  String.ofList ('"' :: (s.toList.flatMap writeChar ++ ['"']))

mutual

/-- The text of a value, without blanks.  A string that has no text is written as an empty one. -/
def write : Json → String
  | .null => "null"
  | .bool b => if b then "true" else "false"
  | .number text => text
  | .string text => writeString (text.getD "")
  | .array items => "[" ++ String.intercalate "," (writeItems items) ++ "]"
  | .object members => "\x7b" ++ String.intercalate "," (writeMembers members) ++ "\x7d"

def writeItems : List Json → List String
  | [] => []
  | v :: vs => v.write :: writeItems vs

def writeMembers : List (Option String × Json) → List String
  | [] => []
  | (name, v) :: ms => (writeString (name.getD "") ++ ":" ++ v.write) :: writeMembers ms

end

end Json

end RecordGraph
