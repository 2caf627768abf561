import TemplateTrace.Number.Digits

/-!
Dates and times of TOML, read from a text and written back in their one form: a `T` between date
and time, and fractions of one to nine digits without further zeros at their end. What is left out
stays left out.
-/

namespace TemplateTrace.Toml

structure Day where
  year : Nat
  month : Nat
  day : Nat
  deriving DecidableEq

structure Seconds where
  second : Nat
  nanosecond : Option Nat
  deriving DecidableEq

structure Time where
  hour : Nat
  minute : Nat
  seconds : Option Seconds
  deriving DecidableEq

inductive Offset
  | utc
  | custom (isNegative : Bool) (hours minutes : Nat)
  deriving DecidableEq

inductive Date
  | dayOnly (d : Day)
  | timeOnly (t : Time)
  | both (d : Day) (t : Time) (offset : Option Offset)
  deriving DecidableEq

namespace Date

def number? (count : Nat) (s : List Char) : Option (Nat × List Char) :=
  if s.length < count then none
  else (Digits.natural? 10 (s.take count)).map (·, s.drop count)

def after? (c : Char) : List Char → Option (List Char)
  | d :: rest => if d = c then some rest else none
  | [] => none

def isLeap (year : Nat) : Bool := (year % 4 = 0 && year % 100 ≠ 0) || year % 400 = 0

def daysIn (year month : Nat) : Nat :=
  if month = 2 then if isLeap year then 29 else 28
  else if [4, 6, 9, 11].contains month then 30
  else 31

def readDay? (s : List Char) : Option (Day × List Char) := do
  let (year, s) ← number? 4 s
  let (month, s) ← number? 2 (← after? '-' s)
  let (day, s) ← number? 2 (← after? '-' s)
  if 1 ≤ month ∧ month ≤ 12 ∧ 1 ≤ day ∧ day ≤ daysIn year month then return (⟨year, month, day⟩, s)
  else none

def readFraction? (s : List Char) : Option (Nat × List Char) := do
  let digits := s.takeWhile Char.isDigit
  if digits.isEmpty then none
  else return (← Digits.natural? 10 ((digits ++ List.replicate 9 '0').take 9),
    s.dropWhile Char.isDigit)

def readSeconds? (s : List Char) : Option (Seconds × List Char) := do
  let (second, s) ← number? 2 s
  let (nanosecond, s) ← match s with
    | '.' :: rest => (readFraction? rest).map fun (n, s) => (some n, s)
    | s => some (none, s)
  if second ≤ 60 then return (⟨second, nanosecond⟩, s) else none

def readTime? (s : List Char) : Option (Time × List Char) := do
  let (hour, s) ← number? 2 s
  let (minute, s) ← number? 2 (← after? ':' s)
  let (seconds, s) ← match s with
    | ':' :: rest => (readSeconds? rest).map fun (n, s) => (some n, s)
    | s => some (none, s)
  if hour ≤ 23 ∧ minute ≤ 59 then return (⟨hour, minute, seconds⟩, s) else none

def readOffset? : List Char → Option (Option Offset × List Char)
  | [] => some (none, [])
  | c :: rest =>
    if c = 'Z' ∨ c = 'z' then some (some .utc, rest)
    else if c = '+' ∨ c = '-' then do
      let (hours, s) ← number? 2 rest
      let (minutes, s) ← number? 2 (← after? ':' s)
      if hours ≤ 23 ∧ minutes ≤ 59 then
        return (some (.custom (c = '-' ∧ 0 < hours * 60 + minutes) hours minutes), s)
      else none
    else none

def isBetween (c : Char) : Bool := c == 'T' || c == 't' || c == ' '

def ofText? (s : List Char) : Option Date :=
  match readDay? s with
  | some (d, []) => some (dayOnly d)
  | some (d, c :: rest) =>
    if isBetween c then do
      let (t, rest) ← readTime? rest
      let (offset, rest) ← readOffset? rest
      if rest.isEmpty then return both d t offset else none
    else none
  | none => do
    let (t, rest) ← readTime? s
    if rest.isEmpty then return timeOnly t else none

def padded (width n : Nat) : String :=
  let digits := Nat.toDigits 10 n
  String.ofList (List.replicate (width - digits.length) '0' ++ digits)

def dayText (d : Day) : String :=
  padded 4 d.year ++ "-" ++ padded 2 d.month ++ "-" ++ padded 2 d.day

def fractionText (nanosecond : Nat) : String :=
  let digits := ((padded 9 nanosecond).toList.reverse.dropWhile (· = '0')).reverse
  "." ++ (if digits.isEmpty then "0" else String.ofList digits)

def secondsText (s : Seconds) : String :=
  ":" ++ padded 2 s.second ++ (s.nanosecond.map fractionText).getD ""

def timeText (t : Time) : String :=
  padded 2 t.hour ++ ":" ++ padded 2 t.minute ++ (t.seconds.map secondsText).getD ""

def offsetText : Offset → String
  | .utc => "Z"
  | .custom isNegative hours minutes =>
    (if isNegative then "-" else "+") ++ padded 2 hours ++ ":" ++ padded 2 minutes

def text : Date → String
  | dayOnly d => dayText d
  | timeOnly t => timeText t
  | both d t offset =>
    dayText d ++ "T" ++ timeText t ++ (match offset with
      | some o => offsetText o
      | none => "")

end Date

end TemplateTrace.Toml
