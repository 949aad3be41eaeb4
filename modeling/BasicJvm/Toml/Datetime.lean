/-!
# Dates and times

A date-time of a document is checked when it is read into a value, against one of three
layouts chosen by its text:

* with no `:` it is a date, `2006-01-02`;
* with no `-` it is a time of day, `15:04:05.999999999`;
* otherwise it is a date and a time with an offset, `2006-01-02T15:04:05.999999999Z07:00`.

The grammar has already fixed the digits and separators, so only the ranges are left: the
fields are checked from left to right and the first one out of range is the problem (a month
from 1 to 12, an hour below 24, a minute and a second below 60, an offset of at most 24 hours
and 60 minutes).  A date and time without an offset stops at the offset.  The day of the
month is checked last, against the month's length in the year; a lone time falls on the
first of January.
-/

namespace BasicJvm.Toml

/-- Whether a year of the Gregorian calendar has a 29th of February. -/
def isLeapYear (year : Nat) : Bool :=
  year % 4 == 0 && (year % 100 != 0 || year % 400 == 0)

/-- The number of days of a month (1 to 12) of a year. -/
def daysInMonth (month year : Nat) : Nat :=
  if month == 2 then (if isLeapYear year then 29 else 28)
  else if month == 4 || month == 6 || month == 9 || month == 11 then 30
  else 31

/-- The number written by decimal digits. -/
def digitsValue (ds : List Char) : Nat :=
  ds.foldl (fun n c => n * 10 + (c.toNat - '0'.toNat)) 0

/-- The layout of a date. -/
def dateLayout : String := "2006-01-02"

/-- The layout of a time of day. -/
def timeLayout : String := "15:04:05.999999999"

/-- The layout of a date and a time with an offset. -/
def dateTimeLayout : String := "2006-01-02T15:04:05.999999999Z07:00"

/-- The problem of a date-time text, quoted as it was written, with what is wrong. -/
def timeProblem (text message : String) : String :=
  "parsing time \"" ++ text ++ "\"" ++ message

/-- The problem of a field out of range. -/
def outOfRange (text field : String) : String :=
  timeProblem text (": " ++ field ++ " out of range")

/-- The first field of a time of day `hh:mm:ss` out of range, if any. -/
def clockProblem (text : String) : List Char → Option String
  | h1 :: h2 :: _ :: m1 :: m2 :: _ :: s1 :: s2 :: _ =>
    if 24 ≤ digitsValue [h1, h2] then some (outOfRange text "hour")
    else if 60 ≤ digitsValue [m1, m2] then some (outOfRange text "minute")
    else if 60 ≤ digitsValue [s1, s2] then some (outOfRange text "second")
    else none
  | _ => none

/-- The problem of an offset `Z` or `±hh:mm` after a time, if any: a missing offset cannot
be read, and an hour above 24 or a minute above 60 is out of range (the minute decides when
both are). -/
def offsetProblem (text : String) : List Char → Option String
  | [] => some (timeProblem text
      (" as \"" ++ dateTimeLayout ++ "\": cannot parse \"\" as \"Z07:00\""))
  | 'Z' :: _ => none
  | _ :: h1 :: h2 :: _ :: m1 :: m2 :: _ =>
    if 60 < digitsValue [m1, m2] then some (outOfRange text "time zone offset minute")
    else if 24 < digitsValue [h1, h2] then some (outOfRange text "time zone offset hour")
    else none
  | _ => none

/-- The part of a time after its seconds and their fraction: the offset. -/
def afterSeconds (rest : List Char) : List Char :=
  match rest with
  | '.' :: more => more.dropWhile Char.isDigit
  | _ => rest

/-- The problem of a date-time text when it is read, if any. -/
def datetimeProblem (text : String) : Option String :=
  let cs := text.toList
  let dayProblem (year month day : Nat) : Option String :=
    if day < 1 || daysInMonth month year < day then some (outOfRange text "day") else none
  if !cs.contains ':' then
    match cs with
    | y1 :: y2 :: y3 :: y4 :: _ :: m1 :: m2 :: _ :: d1 :: d2 :: _ =>
      let month := digitsValue [m1, m2]
      if month < 1 || 12 < month then some (outOfRange text "month")
      else dayProblem (digitsValue [y1, y2, y3, y4]) month (digitsValue [d1, d2])
    | _ => none
  else if !cs.contains '-' then clockProblem text cs
  else
    match cs with
    | y1 :: y2 :: y3 :: y4 :: _ :: m1 :: m2 :: _ :: d1 :: d2 :: _ :: clock =>
      let month := digitsValue [m1, m2]
      if month < 1 || 12 < month then some (outOfRange text "month")
      else
        match clockProblem text clock with
        | some p => some p
        | none =>
          match offsetProblem text (afterSeconds (clock.drop 8)) with
          | some p => some p
          | none => dayProblem (digitsValue [y1, y2, y3, y4]) month (digitsValue [d1, d2])
    | _ => none

end BasicJvm.Toml
