set_option autoImplicit false

namespace DeckBinding.Yaml

def isBreak (c : Char) : Bool :=
  c == '\n' || c == '\u0085' || c == '\u2028' || c == '\u2029'

/-- A blank or a line end. -/
def isGap (c : Char) : Bool :=
  c == ' ' || c == '\t' || isBreak c

def endsWord (cs : List Char) : Bool :=
  cs.head?.all isGap

def startMark : List Char := ['-', '-', '-']

def endMark : List Char := ['.', '.', '.']

/-- Whether a text starts with a mark that stands alone. -/
def startsMark (mark cs : List Char) : Bool :=
  mark.isPrefixOf cs && endsWord (cs.drop mark.length)

def startsBoundary (cs : List Char) : Bool :=
  startsMark startMark cs || startsMark endMark cs

/-- A place in a text: the number of characters in front of it, its line and column, and the
characters from there on. -/
structure Cursor where
  index : Nat
  line : Nat
  column : Nat
  rest : List Char

namespace Cursor

/-- The place where a text starts, behind its byte order mark if it has one. -/
def ofText : List Char → Cursor
  | '\ufeff' :: rest => ⟨1, 0, 0, rest⟩
  | cs => ⟨0, 0, 0, cs⟩

/-- The next place. A byte order mark has no width. -/
def next (here : Cursor) : Cursor :=
  match here.rest with
  | [] => here
  | c :: rest =>
    if isBreak c then ⟨here.index + 1, here.line + 1, 0, rest⟩
    else ⟨here.index + 1, here.line, here.column + (if c == '\ufeff' then 0 else 1), rest⟩

def skip : Nat → Cursor → Cursor
  | 0, here => here
  | count + 1, here => skip count here.next

/-- Whether a line starts here with a mark that stands alone. -/
def atMark (here : Cursor) (mark : List Char) : Bool :=
  here.column == 0 && startsMark mark here.rest

end Cursor

/-- The first place that is neither a space nor a line end nor in a comment, and whether a line end
lies in front of it. -/
def skipBlank (inComment crossed : Bool) (here : Cursor) : Nat → Cursor × Bool
  | 0 => (here, crossed)
  | fuel + 1 =>
    match here.rest with
    | [] => (here, crossed)
    | c :: _ =>
      if isBreak c then skipBlank false true here.next fuel
      else if inComment || c == ' ' then skipBlank inComment crossed here.next fuel
      else if c == '#' then skipBlank true crossed here.next fuel
      else (here, crossed)

end DeckBinding.Yaml
