import SpeechService.Text.Integer

/-!
# Dates and times

A date, a time of day, or both, and then perhaps the distance to universal time. A document spells
them in several ways, with a capital or a small letter or a space between date and time and with
any number of digits behind the seconds; `DateTime.render` gives the one way in which they are
handed on.
-/

namespace SpeechService.Toml

/-- A day of the calendar. -/
structure Date where
  year : Nat
  month : Nat
  day : Nat
deriving DecidableEq, Repr

/-- A time of day. -/
structure Time where
  hour : Nat
  minute : Nat
  second : Nat
  nanosecond : Nat
deriving DecidableEq, Repr

/-- The distance to universal time. -/
inductive Offset where
  | universal
  | minutes (value : Int)
deriving DecidableEq, Repr

/-- A **date**, a **time**, or both. -/
structure DateTime where
  date : Option Date
  time : Option Time
  offset : Option Offset
deriving DecidableEq, Repr

/-! ### Writing -/

/-- A number with at least so many digits. -/
def padded (width n : Nat) : List Char :=
  let digits := Nat.toDigits 10 n
  List.replicate (width - digits.length) '0' ++ digits

/-- A date as its numbers between dashes. -/
def Date.render (d : Date) : List Char :=
  padded 4 d.year ++ '-' :: padded 2 d.month ++ '-' :: padded 2 d.day

/-- A time as its numbers between colons. Zeros at the end of a fraction are left out. -/
def Time.render (t : Time) : List Char :=
  let fraction := ((padded 9 t.nanosecond).reverse.dropWhile (· == '0')).reverse
  padded 2 t.hour ++ ':' :: padded 2 t.minute ++ ':' :: padded 2 t.second
    ++ (if fraction.isEmpty then [] else '.' :: fraction)

/-- A distance as hours and minutes behind a sign. -/
def Offset.render : Offset → List Char
  | .universal => ['Z']
  | .minutes m =>
    (if m < 0 then '-' else '+')
      :: (padded 2 (m.natAbs / 60) ++ ':' :: padded 2 (m.natAbs % 60))

/-- The text of a date, a time, or both. -/
def DateTime.render (d : DateTime) : List Char :=
  ((d.date.map Date.render).getD [] ++ if d.date.isSome ∧ d.time.isSome then ['T'] else [])
    ++ (d.time.map Time.render).getD [] ++ (d.offset.map Offset.render).getD []

/-! ### Reading -/

/-- How strictly times are read. -/
inductive Strictness where
  /-- As a document spells them. -/
  | document
  /-- As a text may spell them: midnight may end a day, and a distance may have up to 99 minutes,
  as long as it is not greater than a day. -/
  | text
deriving DecidableEq, Repr

/-- The number that so many digits at the front make, and what is behind it. -/
def fixed? (width : Nat) (s : List Char) : Option (Nat × List Char) :=
  let digits := s.take width
  if digits.length = width ∧ digits.all Char.isDigit then
    some (digits.foldl (fun n c => 10 * n + (c.toNat - '0'.toNat)) 0, s.drop width)
  else none

/-- What is behind a character that has to stand at the front. -/
def behind? (c : Char) : List Char → Option (List Char)
  | d :: rest => if d = c then some rest else none
  | [] => none

/-- The number of days in a month. -/
def daysInMonth (year month : Nat) : Nat :=
  if month = 2 then
    if year % 4 = 0 ∧ (year % 100 ≠ 0 ∨ year % 400 = 0) then 29 else 28
  else if month ∈ [4, 6, 9, 11] then 30
  else 31

/-- The date at the front. -/
def date? (s : List Char) : Option (Date × List Char) := do
  let (year, s) ← fixed? 4 s
  let (month, s) ← fixed? 2 (← behind? '-' s)
  let (day, s) ← fixed? 2 (← behind? '-' s)
  if 1 ≤ month ∧ month ≤ 12 ∧ 1 ≤ day ∧ day ≤ daysInMonth year month then
    some (⟨year, month, day⟩, s)
  else none

/-- The fraction of a second at the front, in nanoseconds. Digits beyond these are dropped. -/
def fraction (s : List Char) : Nat × List Char :=
  match s with
  | '.' :: rest =>
    let digits := rest.takeWhile Char.isDigit
    if digits.isEmpty then (0, s)
    else
      let nine := (digits ++ List.replicate 9 '0').take 9
      (nine.foldl (fun n c => 10 * n + (c.toNat - '0'.toNat)) 0, rest.dropWhile Char.isDigit)
  | _ => (0, s)

/-- The time at the front. A minute may have a leap second. -/
def time? (strictness : Strictness) (s : List Char) : Option (Time × List Char) := do
  let (hour, s) ← fixed? 2 s
  let (minute, s) ← fixed? 2 (← behind? ':' s)
  let (second, s) ← fixed? 2 (← behind? ':' s)
  let (nanosecond, s) := fraction s
  if hour ≤ (if strictness = .document then 23 else 24) ∧ minute ≤ 59 ∧ second ≤ 60 then
    some (⟨hour, minute, second, nanosecond⟩, s)
  else none

/-- The distance at the front, behind its sign. -/
def distance? (strictness : Strictness) (s : List Char) : Option (Nat × List Char) := do
  let (hours, s) ← fixed? 2 s
  let (minutes, s) ← fixed? 2 (← behind? ':' s)
  let fits :=
    if strictness = .document then hours ≤ 23 ∧ minutes ≤ 59 else 60 * hours + minutes ≤ 1440
  if fits then some (60 * hours + minutes, s) else none

/-- The distance to universal time at the front, if there is one. -/
def offset? (strictness : Strictness) (s : List Char) : Option Offset × List Char :=
  let found := match s with
    | 'Z' :: rest | 'z' :: rest => some (.universal, rest)
    | '+' :: rest => (distance? strictness rest).map fun (n, s) => (.minutes n, s)
    | '-' :: rest => (distance? strictness rest).map fun (n, s) => (.minutes (-n), s)
    | _ => none
  match found with
  | some (o, rest) => (some o, rest)
  | none => (none, s)

/-- The time behind a date, and what is behind it. -/
def timeBehind? (strictness : Strictness) : List Char → Option (Time × List Char)
  | c :: rest => if c = 'T' ∨ c = 't' ∨ c = ' ' then time? strictness rest else none
  | [] => none

/-- The date, the time, or both at the front, and what is behind them. -/
def dateTime? (strictness : Strictness) (s : List Char) : Option (DateTime × List Char) :=
  match date? s with
  | none => (time? strictness s).map fun (t, rest) => (⟨none, some t, none⟩, rest)
  | some (d, rest) =>
    match timeBehind? strictness rest with
    | none => some (⟨some d, none, none⟩, rest)
    | some (t, rest) =>
      let (o, rest) := offset? strictness rest
      some (⟨some d, some t, o⟩, rest)

/-- The date, the time, or both that a text spells. -/
def DateTime.ofText? (s : String) : Option DateTime :=
  match dateTime? .text s.toList with
  | some (d, []) => some d
  | _ => none

end SpeechService.Toml
