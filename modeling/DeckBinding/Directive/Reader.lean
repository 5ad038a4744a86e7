import DeckBinding.Diagnostic
import DeckBinding.Directive.Basic
import DeckBinding.Text.Case
import DeckBinding.Text.Split

set_option autoImplicit false

namespace DeckBinding

open DeckBinding.Number DeckBinding.Text

/-- A character behind the first letter of a keyword. -/
def isKeywordChar (c : Char) : Bool :=
  isWord c || c == '-'

/-- The marker of a directive at the front of a text: its keyword, and what stands behind the
colon. -/
def takeMarker? : List Char → Option (List Char × List Char)
  | '#' :: letter :: rest =>
    if letter.isAlpha then
      match trimLeft (rest.dropWhile isKeywordChar) with
      | ':' :: after => some (letter :: rest.takeWhile isKeywordChar, after)
      | _ => none
    else none
  | _ => none

theorem length_of_takeMarker? {cs keyword after : List Char}
    (found : takeMarker? cs = some (keyword, after)) : after.length < cs.length := by
  unfold takeMarker? at found
  split at found
  · rename_i letter rest
    split at found
    · split at found
      · rename_i closing matched
        simp only [Option.some.injEq, Prod.mk.injEq] at found
        have blanks := (List.dropWhile_sublist isBlank (l := rest.dropWhile isKeywordChar)).length_le
        have word := (List.dropWhile_sublist isKeywordChar (l := rest)).length_le
        unfold trimLeft at matched
        rw [matched, found.2] at blanks
        simp only [List.length_cons] at blanks ⊢
        omega
      · cases found
    · cases found
  · cases found

/-- Cuts a line at the markers of directives: the text in front of the first marker, and each
keyword with the text behind its marker. -/
def cutAtMarkers : List Char → List Char × List (List Char × List Char)
  | [] => ([], [])
  | c :: rest =>
    match _found : takeMarker? (c :: rest) with
    | some (keyword, after) =>
      let (body, more) := cutAtMarkers after
      ([], (keyword, body) :: more)
    | none =>
      let (front, more) := cutAtMarkers rest
      (c :: front, more)
termination_by cs => cs.length
decreasing_by
  · exact length_of_takeMarker? _found
  · simp only [List.length_cons]; omega

inductive ForeachKey where
  | max
  | offset
deriving DecidableEq

def ForeachKey.name : ForeachKey → String
  | .max => "max"
  | .offset => "offset"

def ForeachKey.ofName? (name : List Char) : Option ForeachKey :=
  if name = ForeachKey.max.name.toList then some .max
  else if name = ForeachKey.offset.name.toList then some .offset
  else none

/-- Reads an option of a `#foreach`: a key in any case, a colon and a number that is not
negative. -/
def readOption (option : List Char) : Except Problem (ForeachKey × Nat) :=
  let (front, value?) := cutAtColon option
  match ForeachKey.ofName? (lower (trim front)), value? with
  | some key, some value =>
    match readInteger (trim value) with
    | .error _ => .error (.optionNotANumber key.name value)
    | .ok number =>
      if number < 0 then .error (.negativeOption key.name number) else .ok (key, number.toNat)
  | _, _ => .error (.unknownOption option)

/-- The number of the last option that was accepted for a key; zero when there is none. -/
def optionNumber (key : ForeachKey) (options : List (Except Problem (ForeachKey × Nat))) : Nat :=
  let numbers := options.filterMap fun
    | .ok (found, number) => if found = key then some number else none
    | .error _ => none
  numbers.getLast?.getD 0

def optionProblems (options : List (Except Problem (ForeachKey × Nat))) : List Problem :=
  options.filterMap fun
    | .ok _ => none
    | .error problem => some problem

/-- What became of the text behind a marker: a directive, if one was accepted, and the problems on
the way. -/
structure DirectiveReading where
  directive : Option Directive
  problems : List Problem

/-- The canonical text of a directive's path, or the problem that refuses the directive. -/
def readCollection (keyword : String) (cs : List Char) :
    Except NumeralError (Except Problem String) :=
  match Path.read cs with
  | .ok path => .ok (.ok path.text)
  | .error (.malformed error) => .ok (.error (.directivePath keyword error))
  | .error (.numeral error) => .error error

/-- Reads what follows `#foreach:`, a path and options between commas. -/
def readForeach (body : List Char) : Except NumeralError DirectiveReading := do
  let (path, options) := cutAt ',' body
  match ← readCollection "foreach" (trim path) with
  | .error problem => .ok ⟨none, [problem]⟩
  | .ok path =>
    let options := options.map fun option => readOption (trim option)
    .ok ⟨some (.foreach path (optionNumber .max options) (optionNumber .offset options)),
      optionProblems options⟩

def readRange (keyword : String) (boundary : RangeBoundary) (body : List Char) :
    Except NumeralError DirectiveReading := do
  match ← readCollection keyword body with
  | .error problem => .ok ⟨none, [problem]⟩
  | .ok path => .ok ⟨some (.range boundary path), []⟩

/-- The name of an alias, when a text holds nothing but `as` and a name, with blanks in front of
both. -/
def aliasName? : List Char → Option (List Char)
  | [] => none
  | c :: rest =>
    if !isBlank c then none
    else match trimLeft rest with
      | 'a' :: 's' :: d :: rest =>
        if !isBlank d then none
        else do
          let (name, after) ← takeName? (trimLeft rest)
          if after.all isBlank then some name else none
      | _ => none

/-- Splits the text of an alias at the first `as` with a name that ends the text. -/
def splitAlias? : List Char → Option (List Char × List Char)
  | [] => none
  | c :: rest =>
    match aliasName? rest with
    | some name => some ([c], name)
    | none => (splitAlias? rest).map fun (path, name) => (c :: path, name)

/-- Reads what follows `#alias:`, a path and a name with `as` between them. -/
def readAlias (body : List Char) : Except NumeralError DirectiveReading :=
  match splitAlias? body with
  | none => .ok ⟨none, [.malformedAlias body]⟩
  | some (path, name) => do
    match ← readCollection "alias" path with
    | .error problem => .ok ⟨none, [problem]⟩
    | .ok path => .ok ⟨some (.alias path (String.ofList name)), []⟩

def readDirective (keyword body : List Char) : Except NumeralError DirectiveReading :=
  let keyword := lower keyword
  let body := trim body
  if keyword = "foreach".toList then readForeach body
  else if keyword = "range-begin".toList then readRange "range-begin" .begins body
  else if keyword = "range-end".toList then readRange "range-end" .ends body
  else if keyword = "alias".toList then readAlias body
  else .ok ⟨none, [.unknownDirective keyword]⟩

/-- The keywords and texts of all markers in the notes, line by line. -/
def markedTexts (notes : List Char) : List (List Char × List Char) :=
  (lines (withPlainQuotes notes)).flatMap fun line => (cutAtMarkers line).2

def readDirectives (slide : Option Int) (notes : List Char) :
    Except NumeralError (List Directive × List Diagnostic) := do
  let found ← (markedTexts notes).mapM fun (keyword, body) => readDirective keyword body
  .ok (found.filterMap (·.directive),
    (found.flatMap (·.problems)).map fun problem => ⟨problem, slide⟩)

end DeckBinding
