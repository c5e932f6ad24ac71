import DocStore.Number.Reading

/-!
Instants in milliseconds since the start of 1970, as text: the long form for display, and the
reading of RFC 3339 text. All dates are Gregorian.
-/

namespace DocStore.Calendar

structure Date where
  year : Int
  month : Nat
  day : Nat
deriving DecidableEq, Repr

/-- The number of days from the first of January 1970 to a date. Years are counted from March, so
that a leap day ends its year, in eras of 400 years with 146097 days each. -/
def Date.toDays (date : Date) : Int :=
  let year := if date.month ≤ 2 then date.year - 1 else date.year
  let era := year / 400
  let yearOfEra := year % 400
  let monthFromMarch := (date.month + 9) % 12
  let dayOfYear : Int := (153 * monthFromMarch + 2) / 5 + date.day - 1
  era * 146097 + (yearOfEra * 365 + yearOfEra / 4 - yearOfEra / 100 + dayOfYear) - 719468

def Date.ofDays (days : Int) : Date :=
  let shifted := days + 719468
  let era := shifted / 146097
  let dayOfEra := shifted % 146097
  let yearOfEra := (dayOfEra - dayOfEra / 1460 + dayOfEra / 36524 - dayOfEra / 146096) / 365
  let dayOfYear := dayOfEra - (365 * yearOfEra + yearOfEra / 4 - yearOfEra / 100)
  let monthFromMarch := (5 * dayOfYear + 2) / 153
  let day := dayOfYear - (153 * monthFromMarch + 2) / 5 + 1
  let month := if monthFromMarch < 10 then monthFromMarch + 3 else monthFromMarch - 9
  let year := yearOfEra + era * 400 + (if month ≤ 2 then 1 else 0)
  ⟨year, month.toNat, day.toNat⟩

def isLeapYear (year : Int) : Bool :=
  year % 4 = 0 ∧ (year % 100 ≠ 0 ∨ year % 400 = 0)

def daysInMonth (year : Int) (month : Nat) : Nat :=
  if month = 2 then if isLeapYear year then 29 else 28
  else if month = 4 ∨ month = 6 ∨ month = 9 ∨ month = 11 then 30
  else 31

def millisPerDay : Int := 86400000

def padded (width : Nat) (number : Nat) : String :=
  String.ofList (Numeral.padLeft width (Numeral.digitsOfNat number))

/-! ## Display -/

/-- The last year that is displayed; the first one is its opposite. -/
def lastYear : Int := 9999

def yearText (year : Int) : String :=
  (if year < 0 then "-" else "") ++ padded 4 year.natAbs

def fractionText (digits : List Char) : String :=
  let kept := (digits.reverse.dropWhile (· == '0')).reverse
  String.ofList (if kept = [] then ['0'] else kept)

def timeText (date : Date) (seconds : Nat) (decimals : List Char) : String :=
  yearText date.year ++ "-" ++ padded 2 date.month ++ "-" ++ padded 2 date.day ++ " " ++
    toString (seconds / 3600) ++ ":" ++ padded 2 (seconds / 60 % 60) ++ ":" ++
    padded 2 (seconds % 60) ++ "." ++ fractionText decimals ++ " +00:00:00"

/-- An instant in UTC. One outside the displayed years stays a number of milliseconds. -/
def display (millis : Int64) : String :=
  let date := Date.ofDays (millis.toInt / millisPerDay)
  let time := (millis.toInt % millisPerDay).toNat
  if -lastYear ≤ date.year ∧ date.year ≤ lastYear then
    timeText date (time / 1000) (Numeral.padLeft 3 (Numeral.digitsOfNat (time % 1000)))
  else toString millis.toInt

/-! ## Reading -/

def digits? (count : Nat) (text : List Char) : Option (Nat × List Char) :=
  let digits := text.take count
  if digits.length = count ∧ digits.all Char.isDigit then
    some (Numeral.natOfDigits digits, text.drop count)
  else none

def char? (c : Char) : List Char → Option (List Char)
  | first :: rest => if first = c then some rest else none
  | [] => none

def separator? : List Char → Option (List Char)
  | c :: rest => if c.toNat < 128 then some rest else none
  | [] => none

def offset? (text : List Char) : Option Int :=
  match text with
  | ['Z'] | ['z'] => some 0
  | sign :: rest => do
      let direction : Int ← if sign = '+' then some 1 else if sign = '-' then some (-1) else none
      let (hours, rest) ← digits? 2 rest
      let rest ← char? ':' rest
      let (minutes, rest) ← digits? 2 rest
      if hours ≤ 23 ∧ minutes ≤ 59 ∧ rest = [] then some (direction * (hours * 3600 + minutes * 60))
      else none
  | [] => none

def nanoseconds? (text : List Char) : Option (Nat × List Char) :=
  match text with
  | '.' :: rest =>
      let digits := rest.takeWhile Char.isDigit
      if digits = [] then none
      else
        some (Numeral.natOfDigits ((digits ++ List.replicate 9 '0').take 9),
          rest.dropWhile Char.isDigit)
  | _ => some (0, text)

/-- Reads RFC 3339 text, with any ASCII character between date and time. A leap second is taken as
the last nanosecond before it, and only stands at the end of a month in UTC. -/
def ofRfc3339? (text : String) : Option Int64 := do
  let (year, rest) ← digits? 4 text.toList
  let rest ← char? '-' rest
  let (month, rest) ← digits? 2 rest
  let rest ← char? '-' rest
  let (day, rest) ← digits? 2 rest
  guard (1 ≤ month ∧ month ≤ 12 ∧ 1 ≤ day ∧ day ≤ daysInMonth year month)
  let rest ← separator? rest
  let (hour, rest) ← digits? 2 rest
  let rest ← char? ':' rest
  let (minute, rest) ← digits? 2 rest
  let rest ← char? ':' rest
  let (second, rest) ← digits? 2 rest
  let (nanoseconds, rest) ← nanoseconds? rest
  let offset ← offset? rest
  guard (hour ≤ 23 ∧ minute ≤ 59 ∧ second ≤ 60)
  let leap := second = 60
  let second := if leap then 59 else second
  let nanoseconds := if leap then 999999999 else nanoseconds
  let seconds :=
    Date.toDays ⟨year, month, day⟩ * 86400 + (hour * 3600 + minute * 60 + second : Nat) - offset
  if leap then
    let date := Date.ofDays (seconds / 86400)
    guard (seconds % 86400 = 86399 ∧ date.day = daysInMonth date.year date.month)
  return Int64.ofInt ((seconds * 1000000000 + nanoseconds).tdiv 1000000)

end DocStore.Calendar
