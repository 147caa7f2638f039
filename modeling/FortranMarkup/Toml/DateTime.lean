/-!
# TOML dates and times

A date-time of TOML has a date, a time of day or both; only with both it can have an offset from
universal time. `DateTime.read?` reads one from its written form and `DateTime.show` writes it in
the form that all spellings of it share.
-/

namespace FortranMarkup.Toml

/-- A day of the calendar. -/
structure Date where
  year : Nat
  month : Nat
  day : Nat
deriving Repr, DecidableEq

/-- A time of day. -/
structure Time where
  hour : Nat
  minute : Nat
  second : Nat
  nanosecond : Nat
deriving Repr, DecidableEq

/-- How far local time is from universal time. -/
inductive Offset where
  | universal
  | minutes (count : Int)
deriving Repr, DecidableEq

/-- A date, a time of day, or both. -/
inductive DateTime where
  | date (date : Date)
  | time (time : Time)
  | both (date : Date) (time : Time) (offset? : Option Offset)
deriving Repr, DecidableEq

/-! ## Reading -/

/-- The number that some digits write, if there is at least one and all are digits. -/
def digits? (cs : List Char) : Option Nat :=
  if cs ≠ [] ∧ cs.all Char.isDigit then
    some (cs.foldl (fun n c => 10 * n + (c.toNat - '0'.toNat)) 0)
  else none

/-- The number that some digits write, if it is within bounds. -/
def digitsWithin? (low high : Nat) (cs : List Char) : Option Nat :=
  (digits? cs).filter (fun n => low ≤ n && n ≤ high)

/-- Whether a year has a 29th of February. -/
def isLeapYear (year : Nat) : Bool :=
  year % 4 = 0 && (year % 100 ≠ 0 || year % 400 = 0)

/-- The number of days of a month. -/
def daysInMonth (year month : Nat) : Nat :=
  if month = 2 then if isLeapYear year then 29 else 28
  else if month = 4 ∨ month = 6 ∨ month = 9 ∨ month = 11 then 30
  else 31

/-- Reads a date of the form `YYYY-MM-DD`. -/
def Date.read? : List Char → Option Date
  | [y₁, y₂, y₃, y₄, '-', m₁, m₂, '-', d₁, d₂] => do
    let year ← digits? [y₁, y₂, y₃, y₄]
    let month ← digitsWithin? 1 12 [m₁, m₂]
    let day ← digitsWithin? 1 (daysInMonth year month) [d₁, d₂]
    return ⟨year, month, day⟩
  | _ => none

/-- The number of nanoseconds that the digits after the point of a second write; what is finer is
left out. -/
def nanoseconds? (cs : List Char) : Option Nat :=
  (digits? cs).bind (fun _ => digits? ((cs ++ List.replicate 9 '0').take 9))

/-- Reads a time of the form `HH:MM:SS`, which a fraction of a second can follow. -/
def Time.read? : List Char → Option Time
  | h₁ :: h₂ :: ':' :: m₁ :: m₂ :: ':' :: s₁ :: s₂ :: fraction => do
    let hour ← digitsWithin? 0 23 [h₁, h₂]
    let minute ← digitsWithin? 0 59 [m₁, m₂]
    let second ← digitsWithin? 0 60 [s₁, s₂]
    let nanosecond ← match fraction with
      | [] => some 0
      | '.' :: places => nanoseconds? places
      | _ => none
    return ⟨hour, minute, second, nanosecond⟩
  | _ => none

/-- Reads an offset: `Z`, or hours and minutes with a sign. -/
def Offset.read? : List Char → Option Offset
  | [letter] => if letter = 'Z' ∨ letter = 'z' then some universal else none
  | [sign, h₁, h₂, ':', m₁, m₂] => do
    let hours ← digitsWithin? 0 23 [h₁, h₂]
    let minutes ← digitsWithin? 0 59 [m₁, m₂]
    let count : Int := 60 * hours + minutes
    if sign = '+' then some (.minutes count)
    else if sign = '-' then some (.minutes (-count))
    else none
  | _ => none

/-- Reads a time that an offset can follow. -/
def readTimeAndOffset? (cs : List Char) : Option (Time × Option Offset) :=
  let isTimeChar (c : Char) : Bool := c.isDigit || c = ':' || c = '.'
  match cs.dropWhile isTimeChar with
  | [] => (Time.read? cs).map (·, none)
  | offset => do
    let time ← Time.read? (cs.takeWhile isTimeChar)
    let offset ← Offset.read? offset
    return (time, some offset)

/-- Reads a date-time. The letter `T` or a space is between a date and a time. -/
def DateTime.read? (cs : List Char) : Option DateTime :=
  match Time.read? cs with
  | some clock => some (.time clock)
  | none => do
    let calendar ← Date.read? (cs.take 10)
    match cs.drop 10 with
    | [] => some (.date calendar)
    | between :: rest =>
      if between = 'T' ∨ between = 't' ∨ between = ' ' then
        let (clock, offset?) ← readTimeAndOffset? rest
        return .both calendar clock offset?
      else none

/-! ## Writing -/

/-- A number with zeros in front up to a number of digits. -/
def fixedDigits (width n : Nat) : String :=
  let digits := Nat.toDigits 10 n
  String.ofList (List.replicate (width - digits.length) '0' ++ digits)

/-- Writes a date. -/
def Date.show (date : Date) : String :=
  fixedDigits 4 date.year ++ "-" ++ fixedDigits 2 date.month ++ "-" ++ fixedDigits 2 date.day

/-- Writes a fraction of a second without zeros at its end, and nothing for none. -/
def showFraction (nanosecond : Nat) : String :=
  if nanosecond = 0 then ""
  else
    let places := (fixedDigits 9 nanosecond).toList
    "." ++ String.ofList (places.reverse.dropWhile (· = '0')).reverse

/-- Writes a time. -/
def Time.show (time : Time) : String :=
  fixedDigits 2 time.hour ++ ":" ++ fixedDigits 2 time.minute ++ ":" ++ fixedDigits 2 time.second ++
    showFraction time.nanosecond

/-- Writes an offset. -/
def Offset.show : Offset → String
  | universal => "Z"
  | minutes count =>
    (if count < 0 then "-" else "+") ++ fixedDigits 2 (count.natAbs / 60) ++ ":" ++
      fixedDigits 2 (count.natAbs % 60)

/-- Writes a date-time. -/
def DateTime.show : DateTime → String
  | .date calendar => calendar.show
  | .time clock => clock.show
  | .both calendar clock offset? =>
    calendar.show ++ "T" ++ clock.show ++ (offset?.map Offset.show).getD ""

end FortranMarkup.Toml
