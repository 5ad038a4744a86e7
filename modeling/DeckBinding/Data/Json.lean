import DeckBinding.Text.Digit
import DeckBinding.Value.Basic

set_option autoImplicit false

namespace DeckBinding.Json

open DeckBinding.Number DeckBinding.Text

inductive Fault where
  | byteOrderMark
  | noValue
  | noName
  | noColon
  | noComma
  | openString
  | controlCharacter
  | badEscape
  | badUnicodeEscape
  | extraData
deriving DecidableEq

def Fault.message : Fault → String
  | .byteOrderMark => "Unexpected UTF-8 BOM (decode using utf-8-sig)"
  | .noValue => "Expecting value"
  | .noName => "Expecting property name enclosed in double quotes"
  | .noColon => "Expecting ':' delimiter"
  | .noComma => "Expecting ',' delimiter"
  | .openString => "Unterminated string starting at"
  | .controlCharacter => "Invalid control character at"
  | .badEscape => "Invalid \\escape"
  | .badUnicodeEscape => "Invalid \\uXXXX escape"
  | .extraData => "Extra data"

/-- The values that hold others. -/
inductive Bracketed where
  | array
  | object
deriving DecidableEq

def Bracketed.name : Bracketed → String
  | .array => "array"
  | .object => "object"

/-- A failed reading: a fault, with the number of characters from where it was found to the end, a
numeral that cannot be converted, or a value too deep inside of others. -/
inductive Failure where
  | fault (fault : Fault) (left : Nat)
  | numeral (error : NumeralError)
  | tooDeep (kind : Bracketed)
deriving DecidableEq

def isSpace (c : Char) : Bool :=
  c == ' ' || c == '\t' || c == '\n' || c == '\r'

def skipSpace (cs : List Char) : List Char :=
  cs.dropWhile isSpace

/-- The number written by four hexadecimal digits at the front of a text that goes on behind
them. -/
def takeHex? : List Char → Option (Nat × List Char)
  | a :: b :: c :: d :: rest => do
    let a ← hexValue? a
    let b ← hexValue? b
    let c ← hexValue? c
    let d ← hexValue? d
    if rest.isEmpty then none else some (((a * 16 + b) * 16 + c) * 16 + d, rest)
  | _ => none

def escaped? (c : Char) : Option Char :=
  match c with
  | '"' => some '"'
  | '\\' => some '\\'
  | '/' => some '/'
  | 'b' => some '\x08'
  | 'f' => some '\x0c'
  | 'n' => some '\n'
  | 'r' => some '\r'
  | 't' => some '\t'
  | _ => none

/-- The character of a code unit, or of two that form a surrogate pair; `rest` stands behind the
first unit. -/
def joinUnits (unit : Nat) (rest : List Char) : Except Failure (Char × List Char) :=
  let alone := (characterOf? unit).getD default
  if 0xd800 ≤ unit && unit < 0xdc00 && 6 < rest.length then
    match rest with
    | '\\' :: 'u' :: digits =>
      match takeHex? digits with
      | none => .error (.fault .badUnicodeEscape (digits.length + 1))
      | some (low, after) =>
        if 0xdc00 ≤ low && low < 0xe000 then
          .ok (Char.ofNat (0x10000 + (unit - 0xd800) * 0x400 + (low - 0xdc00)), after)
        else .ok (alone, rest)
    | _ => .ok (alone, rest)
  else .ok (alone, rest)

/-- Reads a string behind its opening quote. `opened` is the number of characters from that quote to
the end, and `fuel` bounds the number of characters read. -/
def readString (opened : Nat) : Nat → List Char → Except Failure (List Char × List Char)
  | 0, _ => .error (.fault .openString opened)
  | _ + 1, [] => .error (.fault .openString opened)
  | _ + 1, '"' :: rest => .ok ([], rest)
  | _ + 1, ['\\'] => .error (.fault .openString opened)
  | fuel + 1, '\\' :: 'u' :: rest =>
    match takeHex? rest with
    | none => .error (.fault .badUnicodeEscape (rest.length + 1))
    | some (unit, after) => do
      let (c, after) ← joinUnits unit after
      let (cs, after) ← readString opened fuel after
      .ok (c :: cs, after)
  | fuel + 1, '\\' :: letter :: rest =>
    match escaped? letter with
    | none => .error (.fault .badEscape (rest.length + 2))
    | some c => do
      let (cs, after) ← readString opened fuel rest
      .ok (c :: cs, after)
  | fuel + 1, c :: rest =>
    if c.toNat < 32 then .error (.fault .controlCharacter (rest.length + 1))
    else do
      let (cs, after) ← readString opened fuel rest
      .ok (c :: cs, after)

def takeFraction : List Char → List Char × List Char
  | '.' :: rest =>
    let digits := rest.takeWhile Char.isDigit
    if digits.isEmpty then ([], '.' :: rest) else (digits, rest.drop digits.length)
  | cs => ([], cs)

def takeExponent? : List Char → Option (Int × List Char)
  | e :: rest =>
    if e == 'e' || e == 'E' then
      let (negative, unsigned) := takeSign rest
      let digits := unsigned.takeWhile Char.isDigit
      if digits.isEmpty then none
      else
        let size : Int := ofDigitValues (digits.filterMap digitValue?)
        some (if negative then -size else size, unsigned.drop digits.length)
    else none
  | [] => none

/-- The digits in front of the point: a single zero, or digits that start with another one. -/
def takeWhole? : List Char → Option (List Char × List Char)
  | '0' :: rest => some (['0'], rest)
  | cs =>
    let digits := cs.takeWhile Char.isDigit
    if digits.isEmpty then none else some (digits, cs.drop digits.length)

/-- Reads a number: an integer, or a double when there is a fraction or an exponent. -/
def readNumber (cs : List Char) : Except Failure (Value × List Char) :=
  let (negative, unsigned) := match cs with
    | '-' :: rest => (true, rest)
    | cs => (false, cs)
  match takeWhole? unsigned with
  | none => .error (.fault .noValue cs.length)
  | some (whole, rest) =>
    let (fraction, rest) := takeFraction rest
    let exponent? := takeExponent? rest
    if fraction.isEmpty && exponent?.isNone then
      match readDigits whole with
      | .ok n => .ok (.int (if negative then -n else n), rest)
      | .error error => .error (.numeral error)
    else
      let (exponent, rest) := exponent?.getD (0, rest)
      let coefficient := ofDigitValues ((whole ++ fraction).filterMap digitValue?)
      .ok (.float (Binary64.ofDecimal negative coefficient (exponent - fraction.length)), rest)

def words : List (List Char × Value) :=
  [("null".toList, .null), ("true".toList, .bool true), ("false".toList, .bool false),
   ("NaN".toList, .float .undefined), ("Infinity".toList, .float (.infinite false)),
   ("-Infinity".toList, .float (.infinite true))]

def readScalar (cs : List Char) : Except Failure (Value × List Char) :=
  match words.find? fun word => word.1.isPrefixOf cs with
  | some (word, value) => .ok (value, cs.drop word.length)
  | none => readNumber cs

mutual

/-- Reads a value without blanks around it. Every bracket that is opened takes from the fuel. `room`
is the number of values that may still be opened inside of each other. -/
def readValue : Nat → Nat → List Char → Except Failure (Value × List Char)
  | 0, _, cs => .error (.fault .noValue cs.length)
  | _ + 1, _, '"' :: rest => do
    let (text, rest) ← readString (rest.length + 1) (rest.length + 1) rest
    .ok (.text (String.ofList text), rest)
  | _ + 1, 0, '[' :: _ => .error (.tooDeep .array)
  | fuel + 1, room + 1, '[' :: rest =>
    match skipSpace rest with
    | ']' :: rest => .ok (.list [], rest)
    | rest => do
      let (items, rest) ← readItems fuel room rest
      .ok (.list items, rest)
  | _ + 1, 0, '\x7b' :: _ => .error (.tooDeep .object)
  | fuel + 1, room + 1, '\x7b' :: rest =>
    match skipSpace rest with
    | '\x7d' :: rest => .ok (.map [], rest)
    | rest => do
      let (members, rest) ← readMembers fuel room rest
      .ok (.map (Entries.ofList members), rest)
  | _ + 1, _, cs => readScalar cs
termination_by structural fuel => fuel

def readItems : Nat → Nat → List Char → Except Failure (List Value × List Char)
  | 0, _, cs => .error (.fault .noValue cs.length)
  | fuel + 1, room, cs => do
    let (item, rest) ← readValue fuel room cs
    match skipSpace rest with
    | ']' :: rest => .ok ([item], rest)
    | ',' :: rest => do
      let (items, rest) ← readItems fuel room (skipSpace rest)
      .ok (item :: items, rest)
    | rest => .error (.fault .noComma rest.length)
termination_by structural fuel => fuel

def readMembers : Nat → Nat → List Char → Except Failure (List (Value × Value) × List Char)
  | 0, _, cs => .error (.fault .noValue cs.length)
  | fuel + 1, room, '"' :: rest => do
    let (name, rest) ← readString (rest.length + 1) (rest.length + 1) rest
    match skipSpace rest with
    | ':' :: rest => do
      let (value, rest) ← readValue fuel room (skipSpace rest)
      let member := (Value.text (String.ofList name), value)
      match skipSpace rest with
      | '\x7d' :: rest => .ok ([member], rest)
      | ',' :: rest => do
        let (members, rest) ← readMembers fuel room (skipSpace rest)
        .ok (member :: members, rest)
      | rest => .error (.fault .noComma rest.length)
    | rest => .error (.fault .noColon rest.length)
  | _ + 1, _, cs => .error (.fault .noName cs.length)
termination_by structural fuel => fuel

end

/-- How many values may be opened inside of each other. -/
def depthLimit : Nat := 990

def read (cs : List Char) : Except Failure Value :=
  if cs.head? == some '\ufeff' then .error (.fault .byteOrderMark cs.length)
  else do
    let (value, rest) ← readValue (2 * cs.length + 2) depthLimit (skipSpace cs)
    let rest := skipSpace rest
    if rest.isEmpty then .ok value else .error (.fault .extraData rest.length)

/-- The wording of a failure in a document, with the line, the column and the position of a fault,
the first two counted from one. -/
def Failure.message (cs : List Char) : Failure → String
  | .numeral error => error.message
  | .tooDeep kind =>
    s!"maximum recursion depth exceeded while decoding a JSON {kind.name} from a unicode string"
  | .fault kind left =>
    let position := cs.length - left
    let before := cs.take position
    let line := before.count '\n' + 1
    let column := (before.reverse.takeWhile (· != '\n')).length + 1
    s!"{kind.message}: line {line} column {column} (char {position})"

end DeckBinding.Json
