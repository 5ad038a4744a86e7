import DeckBinding.Data.Yaml.ScalarText

set_option autoImplicit false

/-!
Tokens of a document. Where block collections start and end, and what is a key, is told by columns and
lines: a key is known only when its colon is reached, and its token is then put in front of it.
-/

namespace DeckBinding.Yaml

/-- The parts of a document. A scalar that is written without quotes is plain. -/
inductive Token where
  | documentStart
  | documentEnd
  | blockSequenceStart
  | blockMappingStart
  | blockEnd
  | flowSequenceStart
  | flowSequenceEnd
  | flowMappingStart
  | flowMappingEnd
  | item
  | comma
  | key
  | value
  | scalar (plain : Bool) (text : List Char)
deriving DecidableEq

/-- A place where a key may have started: the number of tokens in front of it, and where it stands.
A key is required where a line of a block mapping starts. -/
structure KeyStart where
  tokenCount : Nat
  index : Nat
  line : Nat
  column : Nat
  required : Bool

/-- A key is at most this long, together with what stands up to its colon. -/
def keyLimit : Nat := 1024

/-- The tokens up to a place, the last one first, and what is open there: the columns of the block
collections, the innermost first, and for each flow collection around the place, and for the block
around them, the key that may have started. -/
structure TokenReader where
  here : Cursor
  fuel : Nat
  tokens : List Token
  tokenCount : Nat
  columns : List Nat
  keyAllowed : Bool
  blockKey : Option KeyStart
  flowKeys : List (Option KeyStart)

namespace TokenReader

def ofText (text : List Char) : TokenReader where
  here := .ofText text
  fuel := text.length + 1
  tokens := []
  tokenCount := 0
  columns := []
  keyAllowed := true
  blockKey := none
  flowKeys := []

def inFlow (reader : TokenReader) : Bool := !reader.flowKeys.isEmpty

def openKey? (reader : TokenReader) : Option KeyStart :=
  match reader.flowKeys with
  | [] => reader.blockKey
  | key :: _ => key

def setOpenKey (reader : TokenReader) (key : Option KeyStart) : TokenReader :=
  match reader.flowKeys with
  | [] => { reader with blockKey := key }
  | _ :: outer => { reader with flowKeys := key :: outer }

def emit (reader : TokenReader) (token : Token) : TokenReader :=
  { reader with tokens := token :: reader.tokens, tokenCount := reader.tokenCount + 1 }

def emitBehind (reader : TokenReader) (count : Nat) (token : Token) : TokenReader :=
  { reader with
    tokens := reader.tokens.insertIdx (reader.tokenCount - count) token
    tokenCount := reader.tokenCount + 1 }

def skip (reader : TokenReader) (count : Nat) : TokenReader :=
  { reader with here := reader.here.skip count }

/-- Whether a column lies to the right of the innermost block collection. -/
def opensBlock (reader : TokenReader) (column : Nat) : Bool :=
  match reader.columns with
  | [] => true
  | innermost :: _ => innermost < column

def openBlock (reader : TokenReader) (column : Nat) : TokenReader :=
  { reader with columns := column :: reader.columns }

/-- Closes the innermost block collections of these columns as long as they lie to the right of a
column; `limit` is one more than it. -/
def closeColumns (limit : Nat) (reader : TokenReader) : List Nat → TokenReader
  | [] => { reader with columns := [] }
  | column :: outer =>
    if limit ≤ column then closeColumns limit (reader.emit .blockEnd) outer
    else { reader with columns := column :: outer }

/-- Closes the block collections whose column is at least a limit. Columns mean nothing inside of a
flow collection. -/
def closeBlocks (reader : TokenReader) (limit : Nat) : TokenReader :=
  if reader.inFlow then reader else closeColumns limit reader reader.columns

/-- Gives up the key that may have started in the innermost collection; none when it is required. -/
def dropKey? (reader : TokenReader) : Option TokenReader :=
  match reader.openKey? with
  | some key => if key.required then none else some (reader.setOpenKey none)
  | none => some reader

def KeyStart.canEndAt (key : KeyStart) (here : Cursor) : Bool :=
  key.line == here.line && here.index - key.index ≤ keyLimit

/-- A key that may have started, unless it can no longer end at a place; none when it is
required. -/
def freshKey? (here : Cursor) : Option KeyStart → Option (Option KeyStart)
  | none => some none
  | some key =>
    if KeyStart.canEndAt key here then some (some key)
    else if key.required then none
    else some none

/-- Gives up the keys that can no longer end here; none when one of them is required. -/
def dropOldKeys? (reader : TokenReader) : Option TokenReader := do
  let blockKey ← freshKey? reader.here reader.blockKey
  let flowKeys ← reader.flowKeys.mapM (freshKey? reader.here)
  some { reader with blockKey, flowKeys }

def startKey? (reader : TokenReader) : Option TokenReader :=
  if !reader.keyAllowed then some reader
  else do
    let here := reader.here
    let required := !reader.inFlow && reader.columns.head? == some here.column
    let reader ← reader.dropKey?
    some (reader.setOpenKey
      (some ⟨reader.tokenCount, here.index, here.line, here.column, required⟩))

/-- Moves on to the next token. A line end allows a key in the block around it. -/
def toToken? (reader : TokenReader) : Option TokenReader := do
  let (here, crossed) := skipBlank false false reader.here reader.fuel
  let keyAllowed := reader.keyAllowed || (crossed && !reader.inFlow)
  let reader ← { reader with here, keyAllowed }.dropOldKeys?
  some (reader.closeBlocks (here.column + 1))

def readMark? (reader : TokenReader) (token : Token) : Option TokenReader := do
  let reader ← (reader.closeBlocks 0).dropKey?
  some ({ reader with keyAllowed := false }.emit token |>.skip 3)

def openFlow? (reader : TokenReader) (token : Token) : Option TokenReader := do
  let reader ← reader.startKey?
  some ({ reader with flowKeys := none :: reader.flowKeys, keyAllowed := true }.emit token |>.skip 1)

def closeFlow? (reader : TokenReader) (token : Token) : Option TokenReader :=
  match reader.flowKeys with
  | [] => none
  | _ :: outer =>
    some ({ reader with flowKeys := outer, keyAllowed := false }.emit token |>.skip 1)

/-- Reads a comma, which stands in flow collections only. -/
def readComma? (reader : TokenReader) : Option TokenReader :=
  if reader.inFlow then do
    let reader ← reader.dropKey?
    some ({ reader with keyAllowed := true }.emit .comma |>.skip 1)
  else none

/-- Reads the dash of an item, which stands in blocks only. -/
def readItem? (reader : TokenReader) : Option TokenReader :=
  let column := reader.here.column
  if reader.inFlow || !reader.keyAllowed then none
  else do
    let reader :=
      if reader.opensBlock column then (reader.openBlock column).emit .blockSequenceStart
      else reader
    let reader ← { reader with keyAllowed := true }.dropKey?
    some (reader.emit .item |>.skip 1)

/-- Opens a block mapping in the column of a key or a value that no key announced, if one has to be
opened; none where no key is allowed. -/
def openMapping? (reader : TokenReader) : Option TokenReader :=
  let column := reader.here.column
  if reader.inFlow then some reader
  else if !reader.keyAllowed then none
  else if reader.opensBlock column then some ((reader.openBlock column).emit .blockMappingStart)
  else some reader

def readKey? (reader : TokenReader) : Option TokenReader := do
  let reader ← reader.openMapping?
  let reader ← { reader with keyAllowed := !reader.inFlow }.dropKey?
  some (reader.emit .key |>.skip 1)

/-- Reads a colon. The key that may have started is one. -/
def readValue? (reader : TokenReader) : Option TokenReader :=
  match reader.openKey? with
  | some key =>
    let reader := (reader.setOpenKey none).emitBehind key.tokenCount .key
    let reader :=
      if !reader.inFlow && reader.opensBlock key.column then
        (reader.openBlock key.column).emitBehind key.tokenCount .blockMappingStart
      else reader
    some ({ reader with keyAllowed := false }.emit .value |>.skip 1)
  | none => do
    let reader ← reader.openMapping?
    some ({ reader with keyAllowed := !reader.inFlow }.emit .value |>.skip 1)

def readQuotedScalar (reader : TokenReader) (double : Bool) : Except ScalarError TokenReader :=
  match reader.startKey? with
  | none => .error .malformed
  | some reader => do
    let (text, here) ← readQuoted double reader.here.next reader.fuel
    .ok ({ reader with here, keyAllowed := false }.emit (.scalar false text))

def readPlainScalar? (reader : TokenReader) : Option TokenReader := do
  let reader ← reader.startKey?
  let least := match reader.columns with
    | [] => 0
    | innermost :: _ => innermost + 1
  let read := readPlain reader.inFlow least reader.here reader.fuel
  some ({ reader with here := read.after, keyAllowed := read.crossed }.emit (.scalar true read.text))

def readToken (reader : TokenReader) : Except ScalarError TokenReader :=
  let orMalformed : Option TokenReader → Except ScalarError TokenReader
    | some reader => .ok reader
    | none => .error .malformed
  if reader.here.atMark startMark then orMalformed (reader.readMark? .documentStart)
  else if reader.here.atMark endMark then orMalformed (reader.readMark? .documentEnd)
  else
    match reader.here.rest with
    | '[' :: _ => orMalformed (reader.openFlow? .flowSequenceStart)
    | '\x7b' :: _ => orMalformed (reader.openFlow? .flowMappingStart)
    | ']' :: _ => orMalformed (reader.closeFlow? .flowSequenceEnd)
    | '\x7d' :: _ => orMalformed (reader.closeFlow? .flowMappingEnd)
    | ',' :: _ => orMalformed reader.readComma?
    | '"' :: _ => reader.readQuotedScalar true
    | '\'' :: _ => reader.readQuotedScalar false
    | rest =>
      let stands (mark : Char) (also : Bool) : Bool :=
        rest.head? == some mark && (also || endsWord rest.tail)
      if stands '-' false then orMalformed reader.readItem?
      else if stands '?' reader.inFlow then orMalformed reader.readKey?
      else if stands ':' reader.inFlow then orMalformed reader.readValue?
      else if startsPlain reader.inFlow rest then orMalformed reader.readPlainScalar?
      else .error .malformed

def readAll (reader : TokenReader) : Nat → Except ScalarError (List Token)
  | 0 => .error .malformed
  | steps + 1 =>
    match reader.toToken? with
    | none => .error .malformed
    | some reader =>
      if reader.here.rest.isEmpty then
        match (reader.closeBlocks 0).dropKey? with
        | some reader => .ok reader.tokens.reverse
        | none => .error .malformed
      else do
        let reader ← reader.readToken
        reader.readAll steps

end TokenReader

def tokensOf (text : List Char) : Except ScalarError (List Token) :=
  let reader := TokenReader.ofText text
  reader.readAll reader.fuel

end DeckBinding.Yaml
