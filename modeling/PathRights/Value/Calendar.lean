import PathRights.Text.Numeral

/-!
Days of the calendar and moments on them. A day exists in the Gregorian calendar, which is carried
back to the year 1; a moment is a time of day, to the microsecond, on a day, and may tell how far it
is ahead of universal time.
-/

namespace PathRights

/-- Why numbers make no day or no moment. -/
inductive CalendarError where
  | year (n : Nat)
  | month
  | day
  | hour
  | minute
  | second
  /-- A moment is less than a day ahead of universal time, or behind it. -/
  | offset (minutes : Int)
deriving DecidableEq, Repr

/-- The year has a leap day. -/
def isLeapYear (year : Nat) : Bool :=
  year % 4 == 0 && (year % 100 != 0 || year % 400 == 0)

/-- How many days a month has. -/
def daysIn (year month : Nat) : Nat :=
  if month = 2 then if isLeapYear year then 29 else 28
  else if month = 4 ∨ month = 6 ∨ month = 9 ∨ month = 11 then 30
  else 31

/-- A day of the calendar. -/
structure Date where
  year : Nat
  month : Nat
  day : Nat
  year_pos : 1 ≤ year
  month_mem : 1 ≤ month ∧ month ≤ 12
  day_mem : 1 ≤ day ∧ day ≤ daysIn year month
deriving DecidableEq, Repr

namespace Date

/-- The day with some numbers, if there is one. -/
def ofNumbers (year month day : Nat) : Except CalendarError Date :=
  if hy : 1 ≤ year then
    if hm : 1 ≤ month ∧ month ≤ 12 then
      if hd : 1 ≤ day ∧ day ≤ daysIn year month then .ok ⟨year, month, day, hy, hm, hd⟩
      else .error .day
    else .error .month
  else .error (.year year)

/-- How many days the year has before a month. -/
def daysBefore (year : Nat) : (month : Nat) → Nat
  | 0 | 1 => 0
  | month + 1 => daysBefore year month + daysIn year month

/-- The days up to this one, counted from the first day of the year 1. -/
def number (date : Date) : Nat :=
  let years := date.year - 1
  365 * years + years / 4 - years / 100 + years / 400 + daysBefore date.year date.month + date.day

/-- The day as text. -/
def text (date : Date) : Text :=
  Text.padZeros 4 (Text.ofNat date.year) ++ "-" ++ Text.padZeros 2 (Text.ofNat date.month) ++ "-" ++
    Text.padZeros 2 (Text.ofNat date.day)

/-- The numbers of the day. -/
def numbers (date : Date) : List Nat := [date.year, date.month, date.day]

end Date

/-- A time of day on a day, and by how many minutes it is ahead of universal time, if that is
known. -/
structure Moment where
  date : Date
  hour : Nat
  minute : Nat
  second : Nat
  microsecond : Nat
  offset : Option Int
deriving DecidableEq, Repr

namespace Moment

/-- The offset is less than a day. -/
def checkOffset (offset : Option Int) : Except CalendarError Unit :=
  match offset with
  | none => .ok ()
  | some minutes => if minutes.natAbs < 1440 then .ok () else .error (.offset minutes)

/-- The moment on a day with some numbers, if there is one. -/
def onDate (date : Date) (hour minute second microsecond : Nat) (offset : Option Int) :
    Except CalendarError Moment :=
  if 24 ≤ hour then .error .hour
  else if 60 ≤ minute then .error .minute
  else if 60 ≤ second then .error .second
  else .ok ⟨date, hour, minute, second, microsecond, offset⟩

/-- The microseconds up to this moment, in universal time if the offset is known. -/
def microseconds (moment : Moment) : Int :=
  let minutes : Int := (moment.date.number * 24 + moment.hour) * 60 + moment.minute
  ((minutes - moment.offset.getD 0) * 60 + moment.second) * 1000000 + moment.microsecond

/-- The offset as text: a sign, hours and minutes. -/
def offsetText (minutes : Int) : Text :=
  (if minutes < 0 then "-" else "+") ++ Text.padZeros 2 (Text.ofNat (minutes.natAbs / 60)) ++ ":" ++
    Text.padZeros 2 (Text.ofNat (minutes.natAbs % 60))

/-- The moment as text. Whole seconds have no fraction. -/
def text (moment : Moment) : Text :=
  moment.date.text ++ " " ++ Text.padZeros 2 (Text.ofNat moment.hour) ++ ":" ++
    Text.padZeros 2 (Text.ofNat moment.minute) ++ ":" ++
    Text.padZeros 2 (Text.ofNat moment.second) ++
    (if moment.microsecond = 0 then []
     else '.' :: Text.padZeros 6 (Text.ofNat moment.microsecond)) ++
    (match moment.offset with
     | none => []
     | some minutes => offsetText minutes)

/-- The numbers of the moment, without seconds and microseconds that are zero at the end. -/
def numbers (moment : Moment) : List Nat :=
  moment.date.numbers ++ [moment.hour, moment.minute] ++
    if moment.microsecond ≠ 0 then [moment.second, moment.microsecond]
    else if moment.second ≠ 0 then [moment.second]
    else []

/-- A span of minutes as text: whole days, which may be negative, and the seconds beyond them. -/
def spanText (minutes : Int) : Text :=
  let days := minutes.fdiv 1440
  let seconds := minutes.fmod 1440 * 60
  let parts : List Text :=
    (if days = 0 then [] else ["days=" ++ Text.ofInt days]) ++
      (if seconds = 0 then [] else ["seconds=" ++ Text.ofInt seconds])
  "datetime.timedelta(" ++
    List.intercalate ", " (if parts.isEmpty then ["0".toList] else parts) ++ ")"

/-- The offset inside a list or a mapping. -/
def offsetInner (minutes : Int) : Text :=
  if minutes = 0 then "datetime.timezone.utc"
  else "datetime.timezone(" ++ spanText minutes ++ ")"

end Moment

/-- Numbers in a row, with commas between them. -/
def commaSeparated (numbers : List Nat) : Text := List.intercalate ", " (numbers.map Text.ofNat)

/-- The day inside a list or a mapping. -/
def Date.inner (date : Date) : Text := "datetime.date(" ++ commaSeparated date.numbers ++ ")"

/-- The moment inside a list or a mapping. -/
def Moment.inner (moment : Moment) : Text :=
  "datetime.datetime(" ++ commaSeparated moment.numbers ++
    (match moment.offset with
     | none => []
     | some minutes => ", tzinfo=" ++ Moment.offsetInner minutes) ++ ")"

/-- The error in words. -/
def CalendarError.message : CalendarError → Text
  | .year n => "year " ++ Text.ofNat n ++ " is out of range"
  | .month => "month must be in 1..12"
  | .day => "day is out of range for month"
  | .hour => "hour must be in 0..23"
  | .minute => "minute must be in 0..59"
  | .second => "second must be in 0..59"
  | .offset minutes =>
    "offset must be a timedelta strictly between -timedelta(hours=24) and timedelta(hours=24), " ++
      "not " ++ Moment.spanText minutes ++ "."

example : (Date.ofNumbers 2024 2 29).toOption.map Date.text = some "2024-02-29".toList := by
  decide +kernel
example : (Date.ofNumbers 1900 2 29).toOption = none := by decide +kernel
example : (Date.ofNumbers 2001 1 1).toOption.map Date.number = some 730486 := by decide +kernel

end PathRights
