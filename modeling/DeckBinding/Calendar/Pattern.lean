import DeckBinding.Calendar.Moment
import DeckBinding.Number.Power
import DeckBinding.Text.Letter
import DeckBinding.Text.Quoted

set_option autoImplicit false

namespace DeckBinding.Calendar

open DeckBinding.Number DeckBinding.Text

/-- A piece of a date pattern: a field of the moment, or text that is written as it stands. -/
inductive PatternPart where
  | field (letter : Char) (width : Nat)
  | quoted (text : List Char)
  | literal (c : Char)
deriving DecidableEq

def fieldLetters : List Char :=
  ['y', 'M', 'd', 'H', 'h', 'm', 's', 'f', 't']

/-- The widths of a field's letter, widest first. -/
def fieldWidths (letter : Char) : List Nat :=
  if letter == 'y' then [4, 2]
  else if letter == 'M' || letter == 'd' then [4, 3, 2, 1]
  else if letter == 'f' then [3, 2, 1]
  else if letter == 't' then [2]
  else if fieldLetters.contains letter then [2, 1]
  else []

/-- The widest field that the letters at the front of a text spell. -/
def frontField? (c : Char) (rest : List Char) : Option Nat :=
  let run := 1 + (rest.takeWhile (· == c)).length
  (fieldWidths c).find? (· ≤ run)

/-- Text up to a closing quote, with what follows the quote. -/
def untilQuote? (quote : Char) : List Char → Option (List Char × List Char)
  | [] => none
  | c :: rest =>
    if c == quote then some ([], rest)
    else (untilQuote? quote rest).map fun (inner, after) => (c :: inner, after)

theorem length_of_untilQuote? {quote : Char} {cs inner after : List Char}
    (found : untilQuote? quote cs = some (inner, after)) : after.length < cs.length := by
  induction cs generalizing inner with
  | nil => simp [untilQuote?] at found
  | cons c rest ih =>
    unfold untilQuote? at found
    split at found
    · simp only [Option.some.injEq, Prod.mk.injEq] at found
      simp [← found.2]
    · obtain ⟨⟨inner', after'⟩, member, equal⟩ := Option.map_eq_some_iff.1 found
      simp only [Prod.mk.injEq] at equal
      have shorter := ih (equal.2 ▸ member)
      simp only [List.length_cons]
      omega

/-- A quotation at the front of a text: what it holds, and what follows it. -/
def closedQuotation? : List Char → Option (List Char × List Char)
  | [] => none
  | c :: rest => if isQuote c then untilQuote? c rest else none

theorem length_of_closedQuotation? {cs inner after : List Char}
    (found : closedQuotation? cs = some (inner, after)) : after.length < cs.length := by
  cases cs with
  | nil => simp [closedQuotation?] at found
  | cons c rest =>
    by_cases quote : isQuote c = true
    · simp only [closedQuotation?, quote, if_true] at found
      exact Nat.lt_succ_of_lt (length_of_untilQuote? found)
    · simp [closedQuotation?, quote] at found

/-- Cuts a pattern into its pieces, from left to right: the widest field, a closed quotation, or a
single character. -/
def patternParts : List Char → List PatternPart
  | [] => []
  | c :: rest =>
    match _found : closedQuotation? (c :: rest) with
    | some (inner, after) => .quoted inner :: patternParts after
    | none =>
      match frontField? c rest with
      | some width => .field c width :: patternParts (rest.drop (width - 1))
      | none => .literal c :: patternParts rest
termination_by cs => cs.length
decreasing_by
  · exact length_of_closedQuotation? _found
  · simp only [List.length_cons, List.length_drop]; omega
  · simp only [List.length_cons]; omega

/-- A pattern without its closed quotations. -/
def withoutQuotations : List Char → List Char
  | [] => []
  | c :: rest =>
    match _found : closedQuotation? (c :: rest) with
    | some (_, after) => withoutQuotations after
    | none => c :: withoutQuotations rest
termination_by cs => cs.length
decreasing_by
  · exact length_of_closedQuotation? _found
  · simp only [List.length_cons]; omega

/-- A text is a date pattern when it has letters outside quotations and all of them are letters of
fields. -/
def isDatePattern (cs : List Char) : Bool :=
  let letters := (withoutQuotations cs).filter isLetter
  !letters.isEmpty && letters.all fieldLetters.contains

def monthNames : List String :=
  ["January", "February", "March", "April", "May", "June", "July", "August", "September",
   "October", "November", "December"]

/-- The names of the days of the week, Monday first. -/
def dayNames : List String :=
  ["Monday", "Tuesday", "Wednesday", "Thursday", "Friday", "Saturday", "Sunday"]

/-- The first three characters of a name. -/
def abbreviated (name : String) : String :=
  String.ofList (name.toList.take 3)

def Moment.field (moment : Moment) (letter : Char) (width : Nat) : String :=
  let number (n : Nat) := if width == 1 then toString n else padded width n
  let month := monthNames.getD (moment.date.month - 1) ""
  let day := dayNames.getD moment.date.weekday ""
  let hour12 := if moment.hour % 12 == 0 then 12 else moment.hour % 12
  if letter == 'y' then padded width (if width == 4 then moment.date.year else moment.date.year % 100)
  else if letter == 'M' then
    if width == 4 then month
    else if width == 3 then abbreviated month
    else number moment.date.month
  else if letter == 'd' then
    if width == 4 then day
    else if width == 3 then abbreviated day
    else number moment.date.day
  else if letter == 'H' then number moment.hour
  else if letter == 'h' then number hour12
  else if letter == 'm' then number moment.minute
  else if letter == 's' then number moment.second
  else if letter == 'f' then padded width (moment.microsecond / tenTo (6 - width))
  else if moment.hour < 12 then "AM" else "PM"

def PatternPart.text (moment : Moment) : PatternPart → List Char
  | .field letter width => (moment.field letter width).toList
  | .quoted text => text
  | .literal c => [c]

def Moment.format (moment : Moment) (pattern : List Char) : List Char :=
  (patternParts pattern).flatMap (PatternPart.text moment)

end DeckBinding.Calendar
