/-
Dates of TOML: a day, a time of day, or both with an optional offset.

A date is kept by its parts, because several texts may name the same one: the letters
between day and time and for universal time may be small, a space may stand for the
former, and only nine digits of a fraction count. `Date.text` writes the one form that
all of them share.
-/
import WorldModel.Number.Decimal

set_option autoImplicit false

namespace WorldModel.Toml

/-! ## Parts -/

/-- A day of the calendar. -/
structure Day where
  year : Nat
  month : Nat
  day : Nat
deriving DecidableEq, Inhabited

/-- A time of day; the second 60 is a leap second. -/
structure Clock where
  hour : Nat
  minute : Nat
  second : Nat
  nanosecond : Nat
deriving DecidableEq, Inhabited

/-- How far a clock is from universal time. -/
inductive Offset where
  /-- It shows universal time. -/
  | universal
  /-- It is so many minutes ahead, or behind if negative. -/
  | minutes (ahead : Int)
deriving DecidableEq, Inhabited

/-- A day, a time of day, or both. -/
inductive Date where
  | day (day : Day)
  | clock (clock : Clock)
  | moment (day : Day) (clock : Clock) (offset : Option Offset)
deriving DecidableEq, Inhabited

/-! ## Writing -/

/-- A number in at least `width` digits. -/
def padded (width n : Nat) : List Char :=
  let ds := Number.digitChars n
  List.replicate (width - ds.length) '0' ++ ds

/-- A day as `yyyy-mm-dd`. -/
def Day.chars (d : Day) : List Char :=
  padded 4 d.year ++ '-' :: padded 2 d.month ++ '-' :: padded 2 d.day

/-- The fraction of a second with its point, without zeros at its end. -/
def fractionChars (nanosecond : Nat) : List Char :=
  if nanosecond = 0 then []
  else '.' :: ((padded 9 nanosecond).reverse.dropWhile (· == '0')).reverse

/-- A time of day as `hh:mm:ss`, with a fraction if there is one. -/
def Clock.chars (c : Clock) : List Char :=
  padded 2 c.hour ++ ':' :: padded 2 c.minute ++ ':' :: padded 2 c.second ++
    fractionChars c.nanosecond

/-- An offset as `Z` or as `+hh:mm` with its sign. -/
def Offset.chars : Offset → List Char
  | universal => ['Z']
  | minutes n =>
    (if n < 0 then '-' else '+') :: padded 2 (n.natAbs / 60) ++ ':' :: padded 2 (n.natAbs % 60)

/-- **A date as written.** -/
def Date.text : Date → String
  | day d => String.ofList d.chars
  | clock c => String.ofList c.chars
  | moment d c o => String.ofList (d.chars ++ 'T' :: c.chars ++ (o.map Offset.chars).getD [])

/-! ## Reading -/

/-- The number of days of a month. -/
def daysOf (year month : Nat) : Nat :=
  let leap := year % 4 = 0 ∧ (year % 100 ≠ 0 ∨ year % 400 = 0)
  if month = 2 then (if leap then 29 else 28)
  else if month = 4 ∨ month = 6 ∨ month = 9 ∨ month = 11 then 30
  else 31

/-- What follows one character, if that is in front. -/
def after? (c : Char) : List Char → Option (List Char)
  | d :: cs => if d = c then some cs else none
  | [] => none

/-- A number of exactly `width` digits in front, and the rest. -/
def fixedDigits? (width : Nat) (cs : List Char) : Option (Nat × List Char) :=
  let ds := cs.take width
  if ds.length = width then (Number.natural? ds).map (·, cs.drop width) else none

/-- Two digits up to a greatest value, and the rest. -/
def twoDigits? (greatest : Nat) (cs : List Char) : Option (Nat × List Char) :=
  match fixedDigits? 2 cs with
  | some (n, rest) => if n ≤ greatest then some (n, rest) else none
  | none => none

/-- A day in front, and the rest. -/
def day? (cs : List Char) : Option (Day × List Char) := do
  let (year, cs) ← fixedDigits? 4 cs
  let (month, cs) ← twoDigits? 12 (← after? '-' cs)
  let (day, cs) ← twoDigits? 31 (← after? '-' cs)
  if 1 ≤ month ∧ 1 ≤ day ∧ day ≤ daysOf year month then some (⟨year, month, day⟩, cs)
  else none

/-- The nanoseconds of the digits behind a point; digits beyond the ninth are cut off. -/
def nanoseconds (ds : List Char) : Nat :=
  let kept := ds.take 9
  Nat.ofDigitChars 10 kept 0 * Nat.pow 10 (9 - kept.length)

/-- A time of day in front, with an optional fraction, and the rest. -/
def clock? (cs : List Char) : Option (Clock × List Char) := do
  let (hour, cs) ← twoDigits? 23 cs
  let (minute, cs) ← twoDigits? 59 (← after? ':' cs)
  let (second, cs) ← twoDigits? 60 (← after? ':' cs)
  match after? '.' cs with
  | none => some (⟨hour, minute, second, 0⟩, cs)
  | some ds =>
    let digits := ds.takeWhile Char.isDigit
    if digits.isEmpty then none
    else some (⟨hour, minute, second, nanoseconds digits⟩, ds.dropWhile Char.isDigit)

/-- A whole text as an offset. -/
def offset? (cs : List Char) : Option Offset :=
  match cs with
  | ['Z'] | ['z'] => some .universal
  | sign :: ds => do
    let (hours, ds) ← twoDigits? 23 ds
    let (minutes, ds) ← twoDigits? 59 (← after? ':' ds)
    let ahead : Int := 60 * hours + minutes
    if ¬ds.isEmpty then none
    else if sign = '+' then some (.minutes ahead)
    else if sign = '-' then some (.minutes (-ahead))
    else none
  | [] => none

/-- A whole text as a time of day on a given day, with an optional offset. -/
def moment? (d : Day) (cs : List Char) : Option Date := do
  let (c, rest) ← clock? cs
  if rest.isEmpty then some (.moment d c none)
  else (offset? rest).map fun o => .moment d c (some o)

/-- **A whole text as a date.** -/
def date? (cs : List Char) : Option Date :=
  match day? cs with
  | some (d, []) => some (.day d)
  | some (d, c :: rest) => if c = 'T' ∨ c = 't' then moment? d rest else none
  | none =>
    match clock? cs with
    | some (c, []) => some (.clock c)
    | _ => none

end WorldModel.Toml
