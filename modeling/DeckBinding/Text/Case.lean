import DeckBinding.Text.CaseTable
import DeckBinding.Text.Ranges

set_option autoImplicit false

namespace DeckBinding.Text

/-- The character a case run moves the code point to, the character itself when no run holds it. -/
def shiftCase (runs : List CaseRun) (c : Char) : Char :=
  let n := c.toNat
  match runs.find? fun run => run.first ≤ n && n ≤ run.last && (n - run.first) % run.step == 0 with
  | some run => Char.ofNat (n + run.shift).toNat
  | none => c

/-- The upper case form of one character, which may have several characters. -/
def upperOf (c : Char) : List Char :=
  if c.toNat < 128 then [c.toUpper]
  else match upperExpansions.lookup c.toNat with
    | some points => points.map Char.ofNat
    | none => [shiftCase upperRuns c]

def upper (cs : List Char) : List Char :=
  cs.flatMap upperOf

/-- A character that has a case and is not skipped when a word is looked at. -/
def isCased (c : Char) : Bool :=
  if c.toNat < 128 then c.isAlpha else inRanges casedRanges c.toNat

/-- A mark inside words that says nothing about their case. -/
def isCaseIgnorable (c : Char) : Bool :=
  if c.toNat < 128 then ['\'', '.', ':', '^', '\x60'].contains c
  else inRanges caseIgnorableRanges c.toNat

/-- The next character that counts for the case of a word is cased. -/
def casedNext (cs : List Char) : Bool :=
  match cs.dropWhile isCaseIgnorable with
  | [] => false
  | c :: _ => isCased c

/-- The lower case form of one character; `before` holds the characters in front, nearest first.
A capital sigma that ends a word takes its final form. -/
def lowerOf (before : List Char) (c : Char) (after : List Char) : List Char :=
  if c.toNat < 128 then [c.toLower]
  else if c.toNat == 0x3a3 then
    if casedNext before && !casedNext after then ['\u03c2'] else ['\u03c3']
  else if c.toNat == 0x130 then ['i', '\u0307']
  else [shiftCase lowerRuns c]

/-- The text in lower case, with the characters in front of it nearest first. -/
def lowerAfter (before : List Char) : List Char → List Char
  | [] => []
  | c :: rest => lowerOf before c rest ++ lowerAfter (c :: before) rest

def lower (cs : List Char) : List Char :=
  lowerAfter [] cs

def upperString (s : String) : String :=
  String.ofList (upper s.toList)

def lowerString (s : String) : String :=
  String.ofList (lower s.toList)

end DeckBinding.Text
