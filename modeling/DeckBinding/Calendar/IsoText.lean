import DeckBinding.Calendar.Moment
import DeckBinding.Number.Power
import DeckBinding.Text.Surrogate

set_option autoImplicit false

namespace DeckBinding.Calendar

open DeckBinding.Number DeckBinding.Text

/-- The bytes of a text in UTF-8, each as the character with its number. -/
def utf8Bytes (cs : List Char) : List Char :=
  cs.flatMap fun c => (String.utf8EncodeChar c).map fun byte => Char.ofNat byte.toNat

/-- The number of bytes of a character whose first byte is known. -/
def utf8Width (first : Char) : Nat :=
  let n := first.toNat
  if n < 0x80 then 1
  else if 0xf0 ≤ n then 4
  else if 0xe0 ≤ n then 3
  else 2

def asciiDigit? (c : Char) : Option Nat :=
  if c.isDigit then some (c.toNat - 48) else none

/-- Reads exactly `count` ASCII digits off the front of a text. -/
def takeDigits? : Nat → List Char → Option (Nat × List Char)
  | 0, cs => some (0, cs)
  | _ + 1, [] => none
  | count + 1, c :: rest => do
    let digit ← asciiDigit? c
    let (value, rest) ← takeDigits? count rest
    some (digit * tenTo count + value, rest)

/-- Reads a day: `yyyy-mm-dd`, `yyyymmdd`, or a week `yyyy-Www` or `yyyyWww` with an optional day
of the week. The text holds nothing else. -/
def readDay? (cs : List Char) : Option Date := do
  let (year, rest) ← takeDigits? 4 cs
  let separated := rest.head? == some '-'
  let rest := if separated then rest.drop 1 else rest
  match rest with
  | 'W' :: rest => do
    let (week, rest) ← takeDigits? 2 rest
    if rest.isEmpty then Date.ofWeek? year week 1
    else
      let rest ← if separated then (if rest.head? == some '-' then some (rest.drop 1) else none)
        else some rest
      let (day, _) ← takeDigits? 1 rest
      Date.ofWeek? year week day
  | rest => do
    let (month, rest) ← takeDigits? 2 rest
    let rest ← if separated then (if rest.head? == some '-' then some (rest.drop 1) else none)
      else some rest
    let (day, rest) ← takeDigits? 2 rest
    if rest.isEmpty then (Date.ofNumbers year month day).toOption else none

/-- Where the day ends and the separator stands. A week may be followed by a day of the week or by
a separator; a hyphen with two digits behind it, or an odd number of digits, decides. -/
def dayLength (cs : List Char) : Nat :=
  let at? (n : Nat) := cs[n]?
  let isDigitAt (n : Nat) := (at? n).any Char.isDigit
  if cs.length == 7 then 7
  else if at? 4 == some '-' then
    if at? 5 == some 'W' then
      if at? 8 == some '-' && !isDigitAt 10 then 10 else 8
    else 10
  else if at? 4 == some 'W' then
    let digits := ((cs.drop 7).takeWhile Char.isDigit).length
    if 7 + digits < 9 then 7 + digits
    else if digits % 2 == 1 then 7
    else 8
  else 8

/-- Whether a text has ended; a null character ends it too. -/
def atEnd (cs : List Char) : Bool :=
  cs.headD '\x00' == '\x00'

/-- A clock time that was read, and whether the text went on behind it. -/
structure Clock where
  hour : Nat
  minute : Nat
  second : Nat
  microsecond : Nat
  more : Bool

/-- The fraction of a second: the first six digits count, further ones are dropped. `size` is the
number of characters up to the end of the clock time. -/
def readFraction? (size : Nat) (cs : List Char) : Option (Nat × Bool) := do
  let count := min size 6
  let (value, rest) ← takeDigits? count cs
  let rest := rest.dropWhile Char.isDigit
  some (value * tenTo (6 - count), !atEnd rest)

/-- Reads hours, then minutes, then seconds, each optional behind the one before; the first
character behind the hours tells whether colons separate them. A point or comma, or what follows the
seconds, starts the fraction. `left` is the number of fields that may follow, `size` the number of
characters of the clock time that are left. -/
def readFields? : Nat → Option Bool → List Nat → Nat → List Char → Option (List Nat × Nat × Bool)
  | 0, _, fields, size, cs => do
    let (micro, more) ← readFraction? size cs
    some (fields, micro, more)
  | left + 1, colons, fields, size, cs => do
    let (value, rest) ← takeDigits? 2 cs
    let next := rest.headD '\x00'
    let colons := colons.getD (next == ':')
    let fields := fields ++ [value]
    if size ≤ 3 then some (fields, 0, next != '\x00')
    else if colons && next == ':' then
      readFields? left (some colons) fields (size - 3) (rest.drop 1)
    else if next == '.' || next == ',' then do
      let (micro, more) ← readFraction? (size - 3) (rest.drop 1)
      some (fields, micro, more)
    else if !colons then readFields? left (some colons) fields (size - 2) rest
    else none

/-- Reads a clock time of `size` characters; what stands behind it is looked at, not read. -/
def readClock? (size : Nat) (cs : List Char) : Option Clock := do
  let (fields, micro, more) ← readFields? 3 none [] size cs
  some ⟨fields.getD 0 0, fields.getD 1 0, fields.getD 2 0, micro, more⟩

/-- Reads a time with an optional offset from universal time, which starts at the first sign or is
the letter Z. An offset below one second counts as none at all. -/
def readTime? (cs : List Char) : Option (Clock × Option Int) := do
  let size := (cs.takeWhile fun c => !(c == '+' || c == '-' || c == 'Z')).length
  let clock ← readClock? size cs
  match cs.drop size with
  | [] => if clock.more then none else some (clock, none)
  | 'Z' :: rest => if atEnd rest then some (clock, some 0) else none
  | sign :: rest => do
    let zone ← readClock? rest.length rest
    if zone.more then none
    else
      let seconds := zone.hour * 3600 + zone.minute * 60 + zone.second
      let size : Int := if seconds = 0 then 0 else seconds * 1000000 + zone.microsecond
      if 86400 * 1000000 ≤ size then none
      else some (clock, some (if sign == '-' then -size else size))

/-- The places of the character between a date and a time. -/
def separatorPlaces : List Nat := [7, 8, 10]

/-- A text that has bytes: half of a surrogate pair has none, and may stand only where the character
between a date and a time stands, as the letter T. -/
def withPlainSeparator? (text : List Char) : Option (List Char) :=
  match text.zipIdx.filter fun (c, _) => isSurrogate (codeOf c) with
  | [] => some text
  | [(_, place)] => if place ∈ separatorPlaces then some (text.set place 'T') else none
  | _ => none

/-- Reads a date, or a date and a time with any one character between them. All lengths count the
bytes of the text. -/
def readMoment? (text : List Char) : Option Moment := do
  let cs := utf8Bytes (← withPlainSeparator? text)
  if cs.length < 7 then none
  else
    let size := dayLength cs
    let date ← readDay? (cs.take size)
    match cs.drop size with
    | [] => some ⟨date, 0, 0, 0, 0, none⟩
    | separator :: _ => do
      let (clock, offset) ← readTime? (cs.drop (size + utf8Width separator))
      if clock.hour < 24 ∧ clock.minute < 60 ∧ clock.second < 60 then
        some ⟨date, clock.hour, clock.minute, clock.second, clock.microsecond, offset⟩
      else none

/-- Reads a date written as `yyyy-mm-dd`. -/
def readDate? (cs : List Char) : Option Date :=
  if cs.length == 10 then readDay? cs else none

end DeckBinding.Calendar
