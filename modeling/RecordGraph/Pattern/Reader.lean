import RecordGraph.Pattern.Node

/-!
Reading the text of a pattern.  The reader goes through the characters once and keeps the groups, or
the bracketed sets, that are still open on a stack.
-/

namespace RecordGraph.Pattern

open Text

/-- Why a text is not a pattern. -/
inductive Malformed
  | unclosedGroup
  | unopenedGroup
  | unclosedSet
  | missingOperand
  | badCount
  | badFlags
  | badGroupName
  | lookAround
  | backReference
  | badEscape
  | badSetRange
  | unknownProperty
  | notUtf8
  | tooDeep
  | tooLarge
deriving DecidableEq, Repr

namespace Malformed

/-- The text of the error. -/
def message : Malformed → String
  | .tooLarge => "Compiled regex exceeds size limit of 10485760 bytes."
  | .unclosedGroup => "regex parse error: unclosed group"
  | .unopenedGroup => "regex parse error: unopened group"
  | .unclosedSet => "regex parse error: unclosed character class"
  | .missingOperand => "regex parse error: repetition operator missing expression"
  | .badCount => "regex parse error: invalid repetition count"
  | .badFlags => "regex parse error: invalid flags"
  | .badGroupName => "regex parse error: invalid group name"
  | .lookAround => "regex parse error: look-around is not supported"
  | .backReference => "regex parse error: backreferences are not supported"
  | .badEscape => "regex parse error: unrecognized escape sequence"
  | .badSetRange => "regex parse error: invalid character class"
  | .unknownProperty => "regex parse error: Unicode property not found"
  | .notUtf8 => "regex parse error: pattern can match invalid UTF-8"
  | .tooDeep => "regex parse error: exceeded the maximum number of nested groups"

end Malformed

/-- The options under which a part of a pattern is read. -/
structure Flags where
  ignoreCase : Bool := false
  multiLine : Bool := false
  dotAll : Bool := false
  anyLineEnd : Bool := false
  spaced : Bool := false
  unicode : Bool := true
deriving DecidableEq, Repr

/-- The deepest nesting of groups, repetitions and sets that is accepted. -/
def depthLimit : Nat := 250

/-- The most memory that a pattern may take. -/
def weightLimit : Nat := 10485760

/-- The characters that have a meaning of their own in a pattern. -/
def isMeta (c : Char) : Bool := "\\.+*?()|[]\x7b\x7d^$#&-~".toList.contains c

/-- In spaced patterns drops blanks, and comments from `#` to the end of the line. -/
def skipSpace (spaced : Bool) (cs : List Char) : List Char :=
  if spaced then go false cs else cs
where
  go (inComment : Bool) : List Char → List Char
    | [] => []
    | c :: cs =>
      if inComment then go (c != '\n') cs
      else if isBlank c then go false cs
      else if c = '#' then go true cs
      else c :: cs

/-- What a backslash and the characters after it stand for. -/
inductive Escaped
  /-- A character, and whether it was given as a byte of two hexadecimal digits. -/
  | char (c : Char) (byte : Bool)
  | set (s : CharSet)
  | look (l : Look)
deriving Repr

/-- The character with a hexadecimal code point, if there is one. -/
def charOfHex? (digits : List Char) : Option Char :=
  let n := hexNumber digits
  if n.isValidChar then some (Char.ofNat n) else none

/-- Takes a number of hexadecimal digits. -/
def hexDigits? (spaced : Bool) (cs : List Char) : Nat → Option (List Char × List Char)
  | 0 => some ([], cs)
  | n + 1 =>
    match skipSpace spaced cs with
    | c :: rest =>
      if (hexDigit? c).isSome then (hexDigits? spaced rest n).map fun r => (c :: r.1, r.2) else none
    | [] => none

/-- Takes the characters up to a closing brace, and drops the brace. -/
def untilBrace? (spaced : Bool) : List Char → Option (List Char × List Char)
  | [] => none
  | c :: cs =>
    if c = '\x7d' then some ([], cs)
    else if spaced && isBlank c then untilBrace? spaced cs
    else (untilBrace? spaced cs).map fun r => (c :: r.1, r.2)

/-- Reads the hexadecimal code point after a backslash and one of the letters `x`, `u` and `U`. -/
def readHex (spaced : Bool) (kind : Char) (cs : List Char) : Except Malformed (Escaped × List Char) :=
  match skipSpace spaced cs with
  | '\x7b' :: rest =>
    match untilBrace? spaced rest with
    | some (digits, rest) =>
      if digits.isEmpty || digits.any (fun c => (hexDigit? c).isNone) then .error .badEscape
      else match charOfHex? digits with
        | some c => .ok (.char c false, rest)
        | none => .error .badEscape
    | none => .error .badEscape
  | rest =>
    let width := if kind = 'x' then 2 else if kind = 'u' then 4 else 8
    match hexDigits? spaced rest width with
    | some (digits, rest) =>
      match charOfHex? digits with
      | some c => .ok (.char c (kind == 'x'), rest)
      | none => .error .badEscape
    | none => .error .badEscape

/-- The set of a property by the text between the braces. -/
def propertySet (name : List Char) : Except Malformed CharSet :=
  let lookup (r : Option CharSet) : Except Malformed CharSet :=
    match r with
    | some s => .ok s
    | none => .error .unknownProperty
  let valued (r : List Char × List Char) :=
    CharProperty.valued? (String.ofList r.1) (String.ofList r.2)
  match cutAt? ['!', '='] name with
  | some r => (lookup (valued r)).map .complement
  | none =>
    match (cutAt? [':'] name).or (cutAt? ['='] name) with
    | some r => lookup (valued r)
    | none => lookup (CharProperty.named? (String.ofList name))

/-- Reads a property after a backslash and one of the letters `p` and `P`. -/
def readProperty (flags : Flags) (negated : Bool) (cs : List Char) :
    Except Malformed (Escaped × List Char) := do
  let (name, rest) ← match skipSpace flags.spaced cs with
    | '\x7b' :: rest =>
      match untilBrace? flags.spaced rest with
      | some r => pure r
      | none => .error .badEscape
    | '\\' :: _ => .error .badEscape
    | c :: rest => pure ([c], rest)
    | [] => .error .badEscape
  if !flags.unicode then .error .notUtf8
  let s ← propertySet name
  let s := if flags.ignoreCase then .anyCase s else s
  pure (.set (if negated then .complement s else s), rest)

/-- The word boundaries that have a name between braces. -/
def namedBoundary? (unicode : Bool) : String → Option Look
  | "start" => some (.wordStart unicode)
  | "end" => some (.wordEnd unicode)
  | "start-half" => some (.wordStartHalf unicode)
  | "end-half" => some (.wordEndHalf unicode)
  | _ => none

/-- Reads what follows the letter `b` of a word boundary.  Braces that do not begin like a name are
left to be read as a repetition. -/
def readBoundary (flags : Flags) (cs : List Char) : Except Malformed (Escaped × List Char) :=
  let isNameChar (c : Char) : Bool := c.isAlpha || c == '-'
  let plain := Escaped.look (.wordBoundary flags.unicode)
  match cs with
  | '\x7b' :: rest =>
    match skipSpace flags.spaced rest with
    | [] => .error .badEscape
    | c :: inner =>
      if isNameChar c then
        match untilBrace? flags.spaced (c :: inner) with
        | some (name, rest) =>
          if name.all isNameChar then
            match namedBoundary? flags.unicode (String.ofList name) with
            | some l => .ok (.look l, rest)
            | none => .error .badEscape
          else .error .badEscape
        | none => .error .badEscape
      else .ok (plain, cs)
  | _ => .ok (plain, cs)

/-- Reads what follows a backslash. -/
def readEscape (flags : Flags) : List Char → Except Malformed (Escaped × List Char)
  | [] => .error .badEscape
  | c :: cs =>
    if '0' ≤ c ∧ c ≤ '9' then .error .backReference
    else if c = 'x' ∨ c = 'u' ∨ c = 'U' then readHex flags.spaced c cs
    else if c = 'p' ∨ c = 'P' then readProperty flags (c == 'P') cs
    else if c = 'd' ∨ c = 's' ∨ c = 'w' then .ok (.set (CharSet.ofLetter flags.unicode c), cs)
    else if c = 'D' ∨ c = 'S' ∨ c = 'W' then
      if flags.unicode then .ok (.set (.complement (CharSet.ofLetter true c.toLower)), cs)
      else .error .notUtf8
    else if c = 'b' then readBoundary flags cs
    else if c = 'B' then .ok (.look (.noWordBoundary flags.unicode), cs)
    else if c = 'A' then .ok (.look .textStart, cs)
    else if c = 'z' then .ok (.look .textEnd, cs)
    else if c = '<' then .ok (.look (.wordStart flags.unicode), cs)
    else if c = '>' then .ok (.look (.wordEnd flags.unicode), cs)
    else if c = 'a' then .ok (.char '\x07' false, cs)
    else if c = 'f' then .ok (.char '\x0c' false, cs)
    else if c = 't' then .ok (.char '\t' false, cs)
    else if c = 'n' then .ok (.char '\n' false, cs)
    else if c = 'r' then .ok (.char '\r' false, cs)
    else if c = 'v' then .ok (.char '\x0b' false, cs)
    else if c.toNat < 0x80 && !c.isAlphanum then .ok (.char c false, cs)
    else .error .badEscape

/-- The set of the characters that a single character of a pattern matches. -/
def charNode (flags : Flags) (c : Char) (byte : Bool) : Except Malformed Node :=
  if !flags.unicode && byte && c.toNat ≥ 0x80 then .error .notUtf8
  else
    let s := CharSet.single c
    .ok (.one (if flags.ignoreCase then (if flags.unicode then .anyCase s else .anyAsciiCase s)
      else s))

/-! ### Bracketed sets -/

/-- A set under construction, with the depth of its nesting. -/
structure SetItem where
  set : CharSet
  depth : Nat := 0
deriving Repr

/-- The operators between sets. -/
inductive SetOperator
  | inter
  | diff
  | symmDiff
deriving DecidableEq, Repr

/-- What is still open while a bracketed set is read: a bracket, with the items before it, or an
operator, with its left side. -/
inductive SetFrame
  | bracket (before : List SetItem) (negated : Bool)
  | operator (op : SetOperator) (left : SetItem)
deriving Repr

/-- The union of items, in which one item alone adds no depth. -/
def joinItems : List SetItem → SetItem
  | [] => { set := .empty }
  | [item] => item
  | items =>
    { set := items.foldr (fun i s => .union i.set s) .empty
      depth := 1 + items.foldl (fun d i => Nat.max d i.depth) 0 }

/-- The set of a closed bracket. -/
def closeSet (flags : Flags) (negated : Bool) (item : SetItem) : Except Malformed SetItem :=
  let s := item.set
  let s := if flags.ignoreCase then (if flags.unicode then CharSet.anyCase s else .anyAsciiCase s)
    else s
  let s := if negated then .complement s else s
  if !flags.unicode && !s.isAscii then .error .notUtf8
  else .ok { set := s, depth := item.depth + 1 }

/-- Joins the items read last with the operator before them, if there is one. -/
def applyOperator (flags : Flags) (item : SetItem) : List SetFrame → SetItem × List SetFrame
  | .operator op left :: rest =>
    let fold (s : CharSet) : CharSet :=
      if flags.ignoreCase then (if flags.unicode then .anyCase s else .anyAsciiCase s) else s
    let l := fold left.set
    let r := fold item.set
    let s := match op with
      | .inter => CharSet.inter l r
      | .diff => l.diff r
      | .symmDiff => l.symmDiff r
    ({ set := s, depth := 1 + Nat.max left.depth item.depth }, rest)
  | frames => (item, frames)

/-- Takes the hyphens, or the closing bracket, that stand for themselves at the front of a set. -/
def leadingItems (spaced : Bool) (cs : List Char) : List SetItem × List Char :=
  let rec hyphens : Nat → List Char → Nat × List Char
    | 0, cs => (0, cs)
    | n + 1, cs =>
      match cs with
      | '-' :: rest =>
        let (k, rest) := hyphens n (skipSpace spaced rest)
        (k + 1, rest)
      | cs => (0, cs)
  let (k, rest) := hyphens cs.length cs
  if k = 0 then
    match rest with
    | ']' :: rest => ([{ set := .single ']' }], skipSpace spaced rest)
    | rest => ([], rest)
  else (List.replicate k { set := .single '-' }, rest)

/-- Reads a set named between colons; where there is none, nothing is read. -/
def readNamedSet? (cs : List Char) : Option (CharSet × List Char) :=
  match cs with
  | ':' :: rest =>
    let (negated, rest) := match rest with
      | '^' :: rest => (true, rest)
      | rest => (false, rest)
    let (name, rest) := rest.span (· != ':')
    match rest with
    | ':' :: ']' :: rest =>
      (CharSet.asciiNamed? (String.ofList name)).map fun s =>
        (if negated then .complement s else s, rest)
    | _ => none
  | _ => none

/-- The first character after the one at the front that is not skipped in a spaced pattern. -/
def peekPast (spaced : Bool) (cs : List Char) : Option Char :=
  let rest := cs.drop 1
  if spaced then
    match rest.dropWhile isBlank with
    | '#' :: more => (more.dropWhile isBlank).head?
    | more => more.head?
  else rest.head?

/-- Reads one member of a set, which is a character or the set of an escape sequence. -/
def readMember (flags : Flags) (cs : List Char) : Except Malformed (Escaped × List Char) :=
  match cs with
  | '\\' :: rest => readEscape flags rest
  | c :: rest => .ok (.char c false, rest)
  | [] => .error .unclosedSet

/-- A character as a member or an end of a range.  Without Unicode only ASCII can be written. -/
def memberChar (flags : Flags) (e : Escaped) : Except Malformed Char :=
  match e with
  | .char c _ => if !flags.unicode && c.toNat ≥ 0x80 then .error .notUtf8 else .ok c
  | _ => .error .badSetRange

/-- Reads one member of a set or a range of characters. -/
def readItem (flags : Flags) (cs : List Char) : Except Malformed (SetItem × List Char) := do
  let (first, rest) ← readMember flags cs
  let rest := skipSpace flags.spaced rest
  match rest with
  | [] => .error .unclosedSet
  | '-' :: afterHyphen =>
    let next := peekPast flags.spaced rest
    if next == some ']' || next == some '-' then
      pure (← single first, rest)
    else
      match skipSpace flags.spaced afterHyphen with
      | [] => .error .unclosedSet
      | more =>
        let (last, rest) ← readMember flags more
        let lo ← memberChar flags first
        let hi ← memberChar flags last
        if lo ≤ hi then pure ({ set := .range lo.toNat hi.toNat }, rest) else .error .badSetRange
  | _ => pure (← single first, rest)
where
  single (e : Escaped) : Except Malformed SetItem :=
    match e with
    | .char _ _ => do pure { set := .single (← memberChar flags e) }
    | .set s => .ok { set := s }
    | .look _ => .error .badSetRange

/-- Opens a bracket, whose first character has been read. -/
def openBracket (flags : Flags) (cs : List Char) :
    Except Malformed (Bool × List SetItem × List Char) :=
  let cs := skipSpace flags.spaced cs
  let (negated, cs) := match cs with
    | '^' :: rest => (true, skipSpace flags.spaced rest)
    | cs => (false, cs)
  let (items, rest) := leadingItems flags.spaced cs
  if rest.isEmpty then .error .unclosedSet else .ok (negated, items, rest)

/-- Reads a bracketed set, with what is open and the items of the innermost bracket, the last one
first.  Every step takes a character, which bounds their number. -/
def readSet (flags : Flags) :
    Nat → List SetFrame → List SetItem → List Char → Except Malformed (SetItem × List Char)
  | 0, _, _, _ => .error .unclosedSet
  | steps + 1, frames, items, cs =>
    let operator (op : SetOperator) (rest : List Char) :=
      let (left, frames) := applyOperator flags (joinItems items.reverse) frames
      readSet flags steps (.operator op left :: frames) [] rest
    let item (cs : List Char) := do
      let (item, rest) ← readItem flags cs
      readSet flags steps frames (item :: items) rest
    match skipSpace flags.spaced cs with
    | [] => .error .unclosedSet
    | '[' :: rest =>
      match (if frames.isEmpty then none else readNamedSet? rest) with
      | some (s, rest) => readSet flags steps frames ({ set := s } :: items) rest
      | none => do
        let (negated, leading, rest) ← openBracket flags rest
        readSet flags steps (.bracket items negated :: frames) leading.reverse rest
    | ']' :: rest =>
      match applyOperator flags (joinItems items.reverse) frames with
      | (set, .bracket before negated :: frames) => do
        let closed ← closeSet flags negated set
        if frames.isEmpty then pure (closed, rest)
        else readSet flags steps frames (closed :: before) rest
      | _ => .error .unclosedSet
    | '&' :: '&' :: rest => operator .inter rest
    | '-' :: '-' :: rest => operator .diff rest
    | '~' :: '~' :: rest => operator .symmDiff rest
    | cs => item cs

/-! ### Groups and repetitions -/

/-- One operand of a sequence, with the depth of its nesting.  A change of flags stands in the
sequence but cannot be repeated. -/
structure Item where
  node : Node
  depth : Nat := 0
  isFlags : Bool := false
deriving Repr

/-- An open group: the flags outside it, and the branches and items before it. -/
structure Frame where
  flags : Flags
  branches : List Item
  items : List Item
deriving Repr

/-- The reader between two characters.  Branches and items stand with the last one first. -/
structure State where
  flags : Flags := {}
  frames : List Frame := []
  branches : List Item := []
  items : List Item := []
  names : List String := []
deriving Repr

/-- A sequence of items, in which one item alone adds no depth. -/
def sequenceOf : List Item → Item
  | [] => { node := .empty }
  | [item] => { item with isFlags := false }
  | items =>
    { node := items.foldr (fun i n => .seq i.node n) .empty
      depth := 1 + items.foldl (fun d i => Nat.max d i.depth) 0 }

/-- A choice between branches, in which one branch alone adds no depth. -/
def choiceOf : List Item → Item
  | [] => { node := .empty }
  | [item] => item
  | item :: items =>
    { node := items.foldl (fun n i => .alt n i.node) item.node
      depth := 1 + (item :: items).foldl (fun d i => Nat.max d i.depth) 0 }

namespace State

/-- The choice between the branches read so far. -/
def choice (s : State) : Item :=
  choiceOf ((sequenceOf s.items.reverse :: s.branches).reverse)

def push (s : State) (item : Item) : State := { s with items := item :: s.items }

/-- Repeats the last item. -/
def repeatLast (s : State) (min : Nat) (max : Option Nat) : Except Malformed State :=
  match s.items with
  | [] => .error .missingOperand
  | item :: items =>
    if item.isFlags then .error .missingOperand
    else .ok { s with
      items := { node := .repeated item.node min max, depth := item.depth + 1 } :: items }

end State

/-- Sets one flag by its letter; the flag that exchanges greedy and lazy repetition has no effect on
which texts match. -/
def setFlag (flags : Flags) (letter : Char) (on : Bool) : Option Flags :=
  match letter with
  | 'i' => some { flags with ignoreCase := on }
  | 'm' => some { flags with multiLine := on }
  | 's' => some { flags with dotAll := on }
  | 'R' => some { flags with anyLineEnd := on }
  | 'x' => some { flags with spaced := on }
  | 'u' => some { flags with unicode := on }
  | 'U' => some flags
  | _ => none

/-- Reads flags up to a colon or a closing parenthesis, which is returned with the rest. -/
def readFlags (flags : Flags) (seen : List Char) :
    List Char → Except Malformed (Flags × List Char × Char × List Char)
  | [] => .error .badFlags
  | c :: cs =>
    if c = ':' ∨ c = ')' then
      if seen.head? == some '-' then .error .badFlags else .ok (flags, seen, c, cs)
    else if seen.contains c then .error .badFlags
    else if c = '-' then readFlags flags ('-' :: seen) cs
    else match setFlag flags c (!seen.contains '-') with
      | some flags => readFlags flags (c :: seen) cs
      | none => .error .badFlags

/-- Whether a character may stand in the name of a group. -/
def isNameChar (first : Bool) (c : Char) : Bool :=
  if first then c == '_' || isAlphabetic c
  else c == '_' || c == '.' || c == '[' || c == ']' || isAlphabetic c || isNumeric c

/-- Reads the name of a group up to the closing angle. -/
def readGroupName (names : List String) (cs : List Char) : Except Malformed (String × List Char) :=
  let (name, rest) := cs.span (· != '>')
  let valid := match name with
    | [] => false
    | c :: more => isNameChar true c && more.all (isNameChar false)
  match rest with
  | [] => .error .badGroupName
  | _ :: rest =>
    let name := String.ofList name
    if valid && !names.contains name then .ok (name, rest) else .error .badGroupName

/-- Reads what follows an opening parenthesis. -/
def openGroup (s : State) (cs : List Char) : Except Malformed (State × List Char) :=
  let enter (s : State) (flags : Flags) (names : List String) : State :=
    { flags, names, frames := ⟨s.flags, s.branches, s.items⟩ :: s.frames, branches := [], items := [] }
  match skipSpace s.flags.spaced cs with
  | '?' :: '=' :: _ => .error .lookAround
  | '?' :: '!' :: _ => .error .lookAround
  | '?' :: '<' :: '=' :: _ => .error .lookAround
  | '?' :: '<' :: '!' :: _ => .error .lookAround
  | '?' :: 'P' :: '<' :: rest => do
    let (name, rest) ← readGroupName s.names rest
    pure (enter s s.flags (name :: s.names), rest)
  | '?' :: '<' :: rest => do
    let (name, rest) ← readGroupName s.names rest
    pure (enter s s.flags (name :: s.names), rest)
  | '?' :: rest => do
    if rest.isEmpty then .error .unclosedGroup
    let (flags, seen, last, rest) ← readFlags s.flags [] rest
    if last = ')' then
      if seen.isEmpty then .error .missingOperand
      else pure ({ s with flags }.push { node := .empty, isFlags := true }, rest)
    else pure (enter s flags s.names, rest)
  | rest => .ok (enter s s.flags s.names, rest)

/-- Closes the innermost group. -/
def closeGroup (s : State) : Except Malformed State :=
  match s.frames with
  | [] => .error .unopenedGroup
  | frame :: frames =>
    let inner := s.choice
    .ok { flags := frame.flags, frames, branches := frame.branches, names := s.names
          items := { node := inner.node, depth := inner.depth + 1 } :: frame.items }

/-- Reads the number of a repetition, with the blanks around it. -/
def readCount (spaced : Bool) (cs : List Char) : Option Nat × List Char :=
  let rec digits : List Char → List Char × List Char
    | [] => ([], [])
    | c :: cs =>
      if c.isDigit then
        let (ds, rest) := digits cs
        (c :: ds, rest)
      else if spaced && isBlank c then digits cs
      else ([], c :: cs)
  let (ds, rest) := digits (cs.dropWhile isBlank)
  let n := ds.foldl (fun n c => 10 * n + (c.toNat - '0'.toNat)) 0
  (if ds.isEmpty || n ≥ Nat.pow 2 32 then none else some n, skipSpace spaced (rest.dropWhile isBlank))

/-- Drops the mark of a lazy repetition, which does not change which texts match. -/
def dropLazy : List Char → List Char
  | '?' :: cs => cs
  | cs => cs

/-- Reads a counted repetition after its opening brace. -/
def readRepetition (spaced : Bool) (cs : List Char) :
    Except Malformed (Nat × Option Nat × List Char) :=
  let finish (min : Nat) (max : Option Nat) (rest : List Char) :=
    match rest with
    | '\x7d' :: rest =>
      let valid := match max with
        | some max => decide (min ≤ max)
        | none => true
      if valid then .ok (min, max, dropLazy (skipSpace spaced rest)) else .error .badCount
    | _ => .error .badCount
  match readCount spaced (skipSpace spaced cs) with
  | (none, _) => .error .badCount
  | (some min, ',' :: rest) =>
    match skipSpace spaced rest with
    | '\x7d' :: rest => finish min none ('\x7d' :: rest)
    | rest =>
      match readCount spaced rest with
      | (some max, rest) => finish min (some max) rest
      | (none, _) => .error .badCount
  | (some min, rest) => finish min (some min) rest

/-- The set of the characters that a dot matches. -/
def dotSet (flags : Flags) : Except Malformed CharSet :=
  if !flags.unicode then .error .notUtf8
  else if flags.dotAll then .ok .all
  else if flags.anyLineEnd then
    .ok (.complement (.union (.single '\n') (.single '\r')))
  else .ok (.complement (.single '\n'))

/-- Reads one element of a pattern at its first character. -/
def step (s : State) (c : Char) (cs : List Char) : Except Malformed (State × List Char) :=
  let flags := s.flags
  let look (l : Look) : State := s.push { node := .look l }
  match c with
  | '(' => openGroup s cs
  | ')' => do pure (← closeGroup s, cs)
  | '|' =>
    .ok ({ s with branches := sequenceOf s.items.reverse :: s.branches, items := [] }, cs)
  | '[' => do
    let (item, rest) ← readSet flags (cs.length + 2) [] [] ('[' :: cs)
    pure (s.push { node := .one item.set, depth := item.depth }, rest)
  | '?' => do pure (← s.repeatLast 0 (some 1), dropLazy cs)
  | '*' => do pure (← s.repeatLast 0 none, dropLazy cs)
  | '+' => do pure (← s.repeatLast 1 none, dropLazy cs)
  | '\x7b' => do
    let _ ← s.repeatLast 0 none
    let (min, max, rest) ← readRepetition flags.spaced cs
    pure (← s.repeatLast min max, rest)
  | '.' => do pure (s.push { node := .one (← dotSet flags) }, cs)
  | '^' =>
    .ok (look (if !flags.multiLine then .textStart
      else if flags.anyLineEnd then .anyLineStart else .lineStart), cs)
  | '$' =>
    .ok (look (if !flags.multiLine then .textEnd
      else if flags.anyLineEnd then .anyLineEnd else .lineEnd), cs)
  | '\\' => do
    let (escaped, rest) ← readEscape flags cs
    let node ← match escaped with
      | .char c byte => charNode flags c byte
      | .set s => if !flags.unicode && !s.isAscii then .error .notUtf8 else pure (.one s)
      | .look l => pure (.look l)
    pure (s.push { node }, rest)
  | c => do pure (s.push { node := ← charNode flags c false }, cs)

/-- Reads elements to the end of the text.  Every element takes a character, which bounds their
number. -/
def run : Nat → State → List Char → Except Malformed State
  | 0, s, _ => .ok s
  | steps + 1, s, cs =>
    match skipSpace s.flags.spaced cs with
    | [] => .ok s
    | c :: cs => do
      let (s, rest) ← step s c cs
      run steps s rest

/-- The tree of a pattern. -/
def read (text : String) : Except Malformed Node := do
  let cs := text.toList
  let s ← run (cs.length + 1) {} cs
  if !s.frames.isEmpty then .error .unclosedGroup
  let item := s.choice
  if item.depth > depthLimit then .error .tooDeep
  if item.node.weight > weightLimit then .error .tooLarge
  pure item.node

end RecordGraph.Pattern
