import DeckBinding.Data.Yaml.Cursor
import DeckBinding.Text.Digit
import DeckBinding.Text.Surrogate

set_option autoImplicit false

namespace DeckBinding.Yaml

open DeckBinding.Text

/-- Why a text gives no scalar: it is no document, or an escape names a character that there is
not. -/
inductive ScalarError where
  | malformed
  | noCharacter (code : Nat)
deriving DecidableEq

/-- A line end as a scalar keeps it: the separators of lines and paragraphs stay, others are one. -/
def keptBreak (c : Char) : Char :=
  if c == '\u2028' || c == '\u2029' then c else '\n'

/-- What a line end reads as, before the line ends of empty lines. -/
def foldedBreak (first : Char) (empty : List Char) : List Char :=
  if keptBreak first != '\n' then keptBreak first :: empty
  else if empty.isEmpty then [' ']
  else empty

/-- The line ends of the empty lines from the start of a line on, and the place behind the padding
that follows them. None when a mark of documents stands in between. -/
def emptyLines? (isPad : Char → Bool) (here : Cursor) : Nat → Option (List Char × Cursor)
  | 0 => none
  | fuel + 1 =>
    if here.column == 0 && startsBoundary here.rest then none
    else
      match here.rest with
      | [] => some ([], here)
      | c :: _ =>
        if isBreak c then do
          let (breaks, after) ← emptyLines? isPad here.next fuel
          some (keptBreak c :: breaks, after)
        else if isPad c then emptyLines? isPad here.next fuel
        else some ([], here)

def isSpace (c : Char) : Bool := c == ' '

def isSpaceOrTab (c : Char) : Bool := c == ' ' || c == '\t'

def isFlowMark (c : Char) : Bool :=
  c == ',' || c == '[' || c == ']' || c == '\x7b' || c == '\x7d'

/-- The word of a plain scalar that starts here. In a flow collection its marks end a word. -/
def plainWord (inFlow : Bool) : List Char → List Char
  | [] => []
  | c :: rest =>
    let ends := isGap c
      || (c == ':' && (endsWord rest || (inFlow && rest.head?.any isFlowMark)))
      || (inFlow && (isFlowMark c || c == '?'))
    if ends then [] else c :: plainWord inFlow rest

/-- The characters that start no plain scalar; the first three do when a word goes on behind
them. -/
def indicators : List Char :=
  "-?:,[]\x7b\x7d#&*!|>'\"%@\x60".toList

def startsPlain (inFlow : Bool) : List Char → Bool
  | [] => false
  | c :: rest =>
    (!isGap c && !indicators.contains c)
      || (!endsWord rest && (c == '-' || (!inFlow && (c == '?' || c == ':'))))

/-- What was read of a plain scalar: its text, the place behind it, and whether a line ended
there. -/
structure PlainRead where
  text : List Char
  after : Cursor
  crossed : Bool

/-- Reads the gap behind a word of a plain scalar. Its text is empty when no further word can
follow. -/
def readPlainGap (fuel : Nat) (here : Cursor) : PlainRead :=
  let pads := here.rest.takeWhile isSpace
  let after := here.skip pads.length
  match after.rest with
  | [] => ⟨pads, after, false⟩
  | c :: _ =>
    if isBreak c then
      match emptyLines? isSpace after.next fuel with
      | some (breaks, last) => ⟨foldedBreak c breaks, last, true⟩
      | none => ⟨[], after.next, true⟩
    else ⟨pads, after, false⟩

/-- Reads the words of a plain scalar. Outside flow collections each of its lines starts at a least
column. -/
def readPlain (inFlow : Bool) (least : Nat) (here : Cursor) : Nat → PlainRead
  | 0 => ⟨[], here, false⟩
  | fuel + 1 =>
    let word := plainWord inFlow here.rest
    let gap := readPlainGap fuel (here.skip word.length)
    let alone : PlainRead := ⟨word, gap.after, gap.crossed⟩
    let isLast := gap.text.isEmpty || gap.after.rest.head? == some '#'
      || (!inFlow && gap.after.column < least)
    if isLast || (plainWord inFlow gap.after.rest).isEmpty then alone
    else
      let further := readPlain inFlow least gap.after fuel
      ⟨word ++ gap.text ++ further.text, further.after, further.crossed⟩

def readQuotedGap (fuel : Nat) (here : Cursor) : Except ScalarError (List Char × Cursor) :=
  let pads := here.rest.takeWhile isSpaceOrTab
  let after := here.skip pads.length
  match after.rest with
  | [] => .error .malformed
  | c :: _ =>
    if isBreak c then
      match emptyLines? isSpaceOrTab after.next fuel with
      | some (breaks, last) => .ok (foldedBreak c breaks, last)
      | none => .error .malformed
    else .ok (pads, after)

def escaped? (c : Char) : Option Char :=
  match c with
  | '0' => some '\x00'
  | 'a' => some '\x07'
  | 'b' => some '\x08'
  | 't' => some '\t'
  | '\t' => some '\t'
  | 'n' => some '\n'
  | 'v' => some '\x0b'
  | 'f' => some '\x0c'
  | 'r' => some '\r'
  | 'e' => some '\x1b'
  | ' ' => some ' '
  | '"' => some '"'
  | '\\' => some '\\'
  | '/' => some '/'
  | 'N' => some '\u0085'
  | '_' => some '\u00a0'
  | 'L' => some '\u2028'
  | 'P' => some '\u2029'
  | _ => none

def escapeWidth? (c : Char) : Option Nat :=
  match c with
  | 'x' => some 2
  | 'u' => some 4
  | 'U' => some 8
  | _ => none

def hexChar (width : Nat) (digits : List Char) : Except ScalarError Char :=
  match digits.mapM hexValue? with
  | none => .error .malformed
  | some values =>
    let code := values.foldl (fun number digit => 16 * number + digit) 0
    if digits.length < width then .error .malformed
    else
      match characterOf? code with
      | some c => .ok c
      | none => .error (.noCharacter code)

/-- Reads an escape, behind its backslash: the characters it stands for, and the place behind it. An
escaped line end stands for the line ends of the empty lines that follow it. -/
def readEscape (fuel : Nat) (here : Cursor) : Except ScalarError (List Char × Cursor) :=
  match here.rest with
  | [] => .error .malformed
  | letter :: rest =>
    match escaped? letter, escapeWidth? letter with
    | some c, _ => .ok ([c], here.next)
    | none, some width => do
      let c ← hexChar width (rest.take width)
      .ok ([c], here.skip (width + 1))
    | none, none =>
      if isBreak letter then
        match emptyLines? isSpaceOrTab here.next fuel with
        | some (breaks, after) => .ok (breaks, after)
        | none => .error .malformed
      else .error .malformed

/-- Reads a scalar between quotes, behind the first one. Two single quotes stand for one; escapes
stand between double quotes only. -/
def readQuoted (double : Bool) (here : Cursor) : Nat → Except ScalarError (List Char × Cursor)
  | 0 => .error .malformed
  | fuel + 1 =>
    let goOn (part : List Char) (after : Cursor) : Except ScalarError (List Char × Cursor) := do
      let (text, last) ← readQuoted double after fuel
      .ok (part ++ text, last)
    match here.rest with
    | [] => .error .malformed
    | c :: rest =>
      if isGap c then do
        let (gap, after) ← readQuotedGap fuel here
        goOn gap after
      else if double then
        if c == '"' then .ok ([], here.next)
        else if c == '\\' then do
          let (part, after) ← readEscape fuel here.next
          goOn part after
        else goOn [c] here.next
      else if c == '\'' then
        if rest.head? == some '\'' then goOn [c] (here.skip 2) else .ok ([], here.next)
      else goOn [c] here.next

end DeckBinding.Yaml
