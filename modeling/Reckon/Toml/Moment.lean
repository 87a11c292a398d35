/-!
# Dates and times

A moment is a date, a time of day, or both with `T` between them, then perhaps with
the distance of its zone: `2021-05-04`, `07:32:00.5`, `2021-05-04T07:32:00+01:00`.
-/

namespace Reckon.Toml.Moment

/-- The value of digits. -/
def digits (cs : List Char) : Nat := cs.foldl (fun value c => value * 10 + (c.toNat - 0x30)) 0

/-- Reads exactly `count` digits. -/
def number? (count : Nat) (cs : List Char) : Option (Nat × List Char) :=
  let word := cs.take count
  if word.length = count && word.all Char.isDigit then some (digits word, cs.drop count) else none

/-- Reads one character. -/
def mark? (expected : Char) : List Char → Option (List Char)
  | c :: rest => if c = expected then some rest else none
  | [] => none

/-- A year with a twenty-ninth of February. -/
def isLeap (year : Nat) : Bool := year % 4 = 0 && (year % 100 ≠ 0 || year % 400 = 0)

/-- The days of a month. -/
def daysIn (year month : Nat) : Nat :=
  if month = 2 then if isLeap year then 29 else 28
  else if month = 4 || month = 6 || month = 9 || month = 11 then 30
  else 31

/-- Reads a date of the calendar. -/
def date? (cs : List Char) : Option (List Char) := do
  let (year, cs) ← number? 4 cs
  let (month, cs) ← number? 2 (← mark? '-' cs)
  let (day, cs) ← number? 2 (← mark? '-' cs)
  if 1 ≤ month && month ≤ 12 && 1 ≤ day && day ≤ daysIn year month then some cs else none

/-- Skips a fraction, if there is one. -/
def skipFraction : List Char → List Char
  | '.' :: c :: rest => if c.isDigit then rest.dropWhile Char.isDigit else '.' :: c :: rest
  | cs => cs

/-- Reads a time of day. Its hour may have one digit. -/
def time? (cs : List Char) : Option (List Char) := do
  let (hour, cs) ← (number? 2 cs).orElse fun _ => number? 1 cs
  let (minute, cs) ← number? 2 (← mark? ':' cs)
  let (second, cs) ← number? 2 (← mark? ':' cs)
  if hour < 24 && minute < 60 && second < 60 then some (skipFraction cs) else none

/-- Reads the distance of a zone. -/
def zone? : List Char → Option (List Char)
  | 'Z' :: rest => some rest
  | sign :: rest => do
    let (hours, cs) ← number? 2 rest
    let (minutes, cs) ← number? 2 (← mark? ':' cs)
    if (sign = '+' || sign = '-') && hours ≤ 24 && minutes ≤ 60 then some cs else none
  | [] => none

/-- A moment in which `T` and `Z` may be small and a blank may stand for the `T`. -/
def isMoment (cs : List Char) : Bool :=
  let cs := cs.map fun c => if c = 't' || c = ' ' then 'T' else if c = 'z' then 'Z' else c
  let local? := (date? cs).bind fun cs => (mark? 'T' cs).bind time?
  local?.bind zone? = some [] || local? = some [] || date? cs = some [] || time? cs = some []

end Reckon.Toml.Moment
