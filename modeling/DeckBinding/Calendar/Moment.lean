import DeckBinding.Calendar.Date

set_option autoImplicit false

namespace DeckBinding.Calendar

/-- A day with a time, and the distance from universal time in microseconds when it is known. -/
structure Moment where
  date : Date
  hour : Nat
  minute : Nat
  second : Nat
  microsecond : Nat
  offset : Option Int
deriving DecidableEq, Inhabited

/-- The microseconds from the start of the year 1 in universal time; a moment without an offset
counts as one of universal time. -/
def Moment.instant (moment : Moment) : Int :=
  let seconds := ((moment.date.ordinal * 24 + moment.hour) * 60 + moment.minute) * 60 + moment.second
  (seconds * 1000000 + moment.microsecond : Nat) - moment.offset.getD 0

/-- Whether two moments are one point in time. One with an offset and one without have no common
time. -/
def Moment.sameInstant (left right : Moment) : Bool :=
  left.offset.isSome == right.offset.isSome && left.instant == right.instant

inductive ClockError where
  | hour
  | minute
  | second
deriving DecidableEq

def ClockError.message : ClockError → String
  | .hour => "hour must be in 0..23"
  | .minute => "minute must be in 0..59"
  | .second => "second must be in 0..59"

def clockError? (hour minute second : Nat) : Option ClockError :=
  if 24 ≤ hour then some .hour
  else if 60 ≤ minute then some .minute
  else if 60 ≤ second then some .second
  else none

/-- An offset from universal time is less than a day, in microseconds. -/
def offsetBound : Nat := 24 * 60 * 60 * 1000000

/-- A number with zeros in front of it up to a width. -/
def padded (width n : Nat) : String :=
  let digits := Nat.toDigits 10 n
  String.ofList (List.replicate (width - digits.length) '0' ++ digits)

def Date.isoText (date : Date) : String :=
  padded 4 date.year ++ "-" ++ padded 2 date.month ++ "-" ++ padded 2 date.day

/-- A clock time; microseconds only when there are some. -/
def clockText (hour minute second microsecond : Nat) : String :=
  padded 2 hour ++ ":" ++ padded 2 minute ++ ":" ++ padded 2 second ++
    (if microsecond == 0 then "" else "." ++ padded 6 microsecond)

/-- An offset from universal time; seconds and microseconds only when there are some. -/
def offsetText (offset : Int) : String :=
  let total := offset.natAbs
  let micro := total % 1000000
  let seconds := total / 1000000
  (if offset < 0 then "-" else "+") ++ padded 2 (seconds / 3600) ++ ":" ++
    padded 2 (seconds / 60 % 60) ++
    (if seconds % 60 == 0 && micro == 0 then ""
     else ":" ++ padded 2 (seconds % 60) ++ (if micro == 0 then "" else "." ++ padded 6 micro))

/-- A moment as date and time with a separator between them. -/
def Moment.isoText (moment : Moment) (separator : String) : String :=
  moment.date.isoText ++ separator ++
    clockText moment.hour moment.minute moment.second moment.microsecond ++
    (match moment.offset with
      | some offset => offsetText offset
      | none => "")

def Date.expression (date : Date) : String :=
  s!"datetime.date({date.year}, {date.month}, {date.day})"

/-- A length of time in microseconds as the expression that builds it: days may be negative, the
rest is not. -/
def spanExpression (span : Int) : String :=
  let day : Int := offsetBound
  let days := span.fdiv day
  let rest := span - days * day
  let seconds := rest / 1000000
  let micro := rest % 1000000
  let parts :=
    (if days == 0 then [] else [s!"days={days}"]) ++
    (if seconds == 0 then [] else [s!"seconds={seconds}"]) ++
    (if micro == 0 then [] else [s!"microseconds={micro}"])
  "datetime.timedelta(" ++ ", ".intercalate parts ++ ")"

def offsetExpression (offset : Int) : String :=
  if offset == 0 then "datetime.timezone.utc"
  else "datetime.timezone(" ++ spanExpression offset ++ ")"

/-- A moment as the expression that builds it, without seconds and microseconds that are zero. -/
def Moment.expression (moment : Moment) : String :=
  let fields := [moment.date.year, moment.date.month, moment.date.day, moment.hour, moment.minute]
  let fields :=
    if moment.microsecond != 0 then fields ++ [moment.second, moment.microsecond]
    else if moment.second != 0 then fields ++ [moment.second]
    else fields
  let zone := match moment.offset with
    | some offset => ["tzinfo=" ++ offsetExpression offset]
    | none => []
  "datetime.datetime(" ++ ", ".intercalate (fields.map toString ++ zone) ++ ")"

end DeckBinding.Calendar
