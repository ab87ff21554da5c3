import RecordGraph.Text.Blank
import RecordGraph.Text.CaseFold
import RecordGraph.Text.Property
import RecordGraph.Text.Script

/-!
Sets of characters as patterns write them, and the names by which patterns call Unicode properties.
-/

namespace RecordGraph

open Text

/-- A set of characters that a pattern calls by name. -/
inductive CharProperty
  | categories (members : List Category)
  | script (code : String)
  | alphabetic
  | uppercase
  | lowercase
  | blank
  | word
deriving DecidableEq, Repr

namespace CharProperty

def contains (c : Char) : CharProperty → Bool
  | .categories members => members.contains (category c)
  | .script code => Text.script c == code
  | .alphabetic => isAlphabetic c
  | .uppercase => isUppercase c
  | .lowercase => isLowercase c
  | .blank => isBlank c
  | .word => isWordChar c

end CharProperty

/-- A set of characters. -/
inductive CharSet
  | empty
  | range (first last : Nat)
  | property (p : CharProperty)
  | complement (s : CharSet)
  | union (s t : CharSet)
  | inter (s t : CharSet)
  /-- The set with every character that differs from a member only in case. -/
  | anyCase (s : CharSet)
  /-- The set with every ASCII letter that differs from a member only in case. -/
  | anyAsciiCase (s : CharSet)
deriving DecidableEq, Repr

namespace CharSet

def all : CharSet := .range 0 0x10ffff

def single (c : Char) : CharSet := .range c.toNat c.toNat

def diff (s t : CharSet) : CharSet := .inter s (.complement t)

def symmDiff (s t : CharSet) : CharSet := .union (s.diff t) (t.diff s)

def ofRanges (rs : List (Char × Char)) : CharSet :=
  rs.foldr (fun r s => .union (.range r.1.toNat r.2.toNat) s) .empty

/-- The other case of an ASCII letter. -/
def asciiOtherCase (c : Char) : Char := if c.isUpper then c.toLower else c.toUpper

def contains : CharSet → Char → Bool
  | .empty, _ => false
  | .range first last, c => decide (first ≤ c.toNat) && decide (c.toNat ≤ last)
  | .property p, c => p.contains c
  | .complement s, c => !s.contains c
  | .union s t, c => s.contains c || t.contains c
  | .inter s t, c => s.contains c && t.contains c
  | .anyCase s, c => (caseOrbit c).any s.contains
  | .anyAsciiCase s, c => s.contains c || s.contains (asciiOtherCase c)

/-- Whether every member is an ASCII character, judged by the first 256 characters. -/
def isAscii (s : CharSet) : Bool :=
  (List.range 128).all fun i => !s.contains (Char.ofNat (i + 128))

/-- The sets that have a name between colons, all of ASCII. -/
def asciiNamed? : String → Option CharSet
  | "alnum" => some (ofRanges [('0', '9'), ('A', 'Z'), ('a', 'z')])
  | "alpha" => some (ofRanges [('A', 'Z'), ('a', 'z')])
  | "ascii" => some (.range 0 0x7f)
  | "blank" => some (ofRanges [('\t', '\t'), (' ', ' ')])
  | "cntrl" => some (.union (.range 0 0x1f) (.range 0x7f 0x7f))
  | "digit" => some (ofRanges [('0', '9')])
  | "graph" => some (ofRanges [('!', '~')])
  | "lower" => some (ofRanges [('a', 'z')])
  | "print" => some (ofRanges [(' ', '~')])
  | "punct" => some (ofRanges [('!', '/'), (':', '@'), ('[', '\x60'), ('\x7b', '~')])
  | "space" => some (.union (.range 9 13) (.range 32 32))
  | "upper" => some (ofRanges [('A', 'Z')])
  | "word" => some (ofRanges [('0', '9'), ('A', 'Z'), ('_', '_'), ('a', 'z')])
  | "xdigit" => some (ofRanges [('0', '9'), ('A', 'F'), ('a', 'f')])
  | _ => none

/-- The set behind a backslash and one of the letters `d`, `s` and `w`. -/
def ofLetter (unicode : Bool) (c : Char) : CharSet :=
  match c, unicode with
  | 'd', true => .property (.categories [.decimalNumber])
  | 'd', false => ofRanges [('0', '9')]
  | 's', true => .property .blank
  | 's', false => .union (.range 9 13) (.range 32 32)
  | _, true => .property .word
  | _, false => ofRanges [('0', '9'), ('A', 'Z'), ('_', '_'), ('a', 'z')]

end CharSet

namespace CharProperty

/-- A property name in its plainest spelling: lower case, without blanks, hyphens, underscores and a
leading `is`. -/
def plainName (s : String) : String :=
  let cs := s.toList
  let lead := (cs.take 2).map Char.toLower == ['i', 's']
  let rest := (if lead then cs.drop 2 else cs).filter fun c =>
    !(c == ' ' || c == '_' || c == '-') && c.toNat < 0x80
  let plain := String.ofList (rest.map Char.toLower)
  if lead && plain == "c" then "isc" else plain

/-- Names of unions of general categories, by the first letter that the members share. -/
def categoryGroups : List (List String × Char) :=
  [ (["c", "other"], 'C'), (["l", "letter"], 'L'), (["m", "mark", "combiningmark"], 'M'),
    (["n", "number"], 'N'), (["p", "punctuation", "punct"], 'P'), (["s", "symbol"], 'S'),
    (["z", "separator"], 'Z') ]

/-- The set of a general category or of a union of them, by its plain name. -/
def ofCategoryName? (name : String) : Option CharSet :=
  let members := Category.table.map (·.1)
  match categoryGroups.find? fun g => g.1.contains name with
  | some (_, letter) =>
    some (.property (.categories (members.filter fun c => c.code.toList.head? == some letter)))
  | none =>
    match name with
    | "any" => some CharSet.all
    | "assigned" => some (.complement (.property (.categories [.unassigned])))
    | "ascii" => some (.range 0 0x7f)
    | "lc" | "casedletter" =>
      some (.property (.categories [.uppercaseLetter, .lowercaseLetter, .titlecaseLetter]))
    | "cntrl" => some (.property (.categories [.control]))
    | "digit" => some (.property (.categories [.decimalNumber]))
    | _ =>
      (Category.table.find? fun e => plainName e.2.1 == name || plainName e.2.2 == name).map
        fun e => .property (.categories [e.1])

/-- The set of a script, by its plain name. -/
def ofScriptName? (name : String) : Option CharSet :=
  (scriptNames.find? fun e => plainName e.1 == name || e.2.any fun n => plainName n == name).map
    fun e => .property (.script e.1)

/-- The set of a property that is either had or not, by its plain name. -/
def ofBinaryName? : String → Option CharSet
  | "alphabetic" | "alpha" => some (.property .alphabetic)
  | "uppercase" | "upper" => some (.property .uppercase)
  | "lowercase" | "lower" => some (.property .lowercase)
  | "whitespace" | "wspace" | "space" => some (.property .blank)
  | "asciihexdigit" | "ahex" => CharSet.asciiNamed? "xdigit"
  | "hexdigit" | "hex" =>
    some (.union (CharSet.ofRanges [('0', '9'), ('A', 'F'), ('a', 'f')])
      (.union (.range 0xff10 0xff19) (.union (.range 0xff21 0xff26) (.range 0xff41 0xff46))))
  | "joincontrol" | "joinc" => some (.range 0x200c 0x200d)
  | _ => none

/-- The set of a property called by one name. -/
def named? (name : String) : Option CharSet :=
  let plain := plainName name
  ((ofBinaryName? plain).or (ofCategoryName? plain)).or (ofScriptName? plain)

/-- The set of the characters at which a property has a value. -/
def valued? (name value : String) : Option CharSet :=
  let plain := plainName value
  match plainName name with
  | "gc" | "generalcategory" => ofCategoryName? plain
  | "sc" | "script" | "scx" | "scriptextensions" => ofScriptName? plain
  | _ => none

end CharProperty

end RecordGraph
