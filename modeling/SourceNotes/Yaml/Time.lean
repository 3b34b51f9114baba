/-
Dates and times.

A date is written as year, month and day with hyphens. A time of day may follow, with
an offset from the universal time.

* **`Time.read?`** — the time that a text writes;
* **`Time.fault?`** — why it is not in the calendar, if it is not;
* **`Time.moment`** — what two texts have in common that write the same time.
-/
import SourceNotes.Yaml.Character
import SourceNotes.Yaml.Fault

namespace SourceNotes.Yaml

/-- A time of day. -/
structure Clock where
  hour : Nat
  minute : Nat
  second : Nat
  /-- The millionths of a second. -/
  micros : Nat := 0
  /-- The offset from the universal time in minutes, if there is one. -/
  offset : Option Int := none
  deriving DecidableEq, Repr

/-- A date, perhaps with a time of day. -/
structure Time where
  year : Nat
  month : Nat
  day : Nat
  clock : Option Clock := none
  deriving DecidableEq, Repr

namespace Time

/-- The number at the start of a text, of `least` to `most` digits, and what follows. -/
def number? (least most : Nat) (s : Text) : Option (Nat × Text) :=
  let digits := s.takeWhile Char.isDigit
  if least ≤ digits.length ∧ digits.length ≤ most then
    some (digits.foldl (fun n c => n * 10 + (c.toNat - '0'.toNat)) 0, s.dropWhile Char.isDigit)
  else none

/-- What follows the character `c` at the start of a text. -/
def after? (c : Char) (s : Text) : Option Text :=
  match s with
  | d :: t => if d = c then some t else none
  | [] => none

/-- The offset that a text writes after blanks, if it writes one. -/
def offset? (s : Text) : Option (Option Int) :=
  if s = [] then some none
  else
    let signed (sign : Int) (t : Text) : Option (Option Int) := do
      let (hours, t) ← number? 1 2 t
      let minutes ← if t = [] then some 0 else do
        let (minutes, t) ← number? 2 2 (← after? ':' t)
        if t = [] then some minutes else none
      return some (sign * (hours * 60 + minutes : Nat))
    match s.dropWhile isInline with
    | ['Z'] => some (some 0)
    | '+' :: t => signed 1 t
    | '-' :: t => signed (-1) t
    | _ => none

/-- The number of digits of a second that count. -/
def microDigits : Nat := 6

/-- The millionths of a second that digits after the point write. -/
def micros (digits : Text) : Nat :=
  (digits ++ List.replicate microDigits '0').take microDigits |>.foldl
    (fun n c => n * 10 + (c.toNat - '0'.toNat)) 0

/-- The time of day that a text writes. -/
def clock? (s : Text) : Option Clock := do
  let (hour, s) ← number? 1 2 s
  let (minute, s) ← number? 2 2 (← after? ':' s)
  let (second, s) ← number? 2 2 (← after? ':' s)
  let (digits, s) := match s with
    | '.' :: t => (t.takeWhile Char.isDigit, t.dropWhile Char.isDigit)
    | _ => ([], s)
  return { hour, minute, second, micros := micros digits, offset := ← offset? s }

/-- The time that a text writes. -/
def read? (s : Text) : Option Time := do
  let (year, s) ← number? 4 4 s
  let (month, s) ← number? 1 2 (← after? '-' s)
  let (day, s) ← number? 1 2 (← after? '-' s)
  match s with
  | [] => return { year, month, day }
  | c :: t =>
    if c = 'T' ∨ c = 't' then return { year, month, day, clock := ← clock? t }
    else if isInline c then
      return { year, month, day, clock := ← clock? (t.dropWhile isInline) }
    else none

/-- The number of characters in a date whose month and day have two digits each. -/
def fullDate : Nat := 10

/-- Whether a plain scalar is a time. A date alone has to be written in full. -/
def isPlain (s : Text) : Bool :=
  match read? s with
  | some t => t.clock.isSome || s.length == fullDate
  | none => false

/-- Whether a year has a day more. -/
def isLeap (year : Nat) : Bool := year % 4 == 0 && (year % 100 != 0 || year % 400 == 0)

/-- The number of days in a month. -/
def daysIn (year month : Nat) : Nat :=
  if month = 2 then if isLeap year then 29 else 28
  else if month = 4 ∨ month = 6 ∨ month = 9 ∨ month = 11 then 30
  else 31

/-- The number of minutes in a day. -/
def dayMinutes : Int := 1440

/-- The first fault of a time, if it is not in the calendar. -/
def fault? (t : Time) : Option TimeFault :=
  let clock := t.clock.getD { hour := 0, minute := 0, second := 0 }
  let offset := clock.offset.getD 0
  if offset ≤ -dayMinutes ∨ dayMinutes ≤ offset then some (.offset offset)
  else if t.year = 0 then some .year
  else if t.month = 0 ∨ 12 < t.month then some .month
  else if t.day = 0 ∨ daysIn t.year t.month < t.day then some .day
  else if 23 < clock.hour then some .hour
  else if 59 < clock.minute then some .minute
  else if 59 < clock.second then some .second
  else none

/-- The number of days before a date since the beginning of the calendar. -/
def days (t : Time) : Nat :=
  let years := t.year - 1
  let months := (List.range t.month).tail.foldl (fun n m => n + daysIn t.year m) 0
  years * 365 + years / 4 - years / 100 + years / 400 + months + t.day

end Time

/-- A point in time: a day, or a number of millionths of a second since the beginning
of the calendar, in universal time or in no known zone. -/
inductive Moment where
  | day (number : Nat)
  | zoneless (micros : Int)
  | universal (micros : Int)
  deriving DecidableEq, Repr

/-- The point in time that a time is. -/
def Time.moment (t : Time) : Moment :=
  match t.clock with
  | none => .day t.days
  | some c =>
    let seconds : Int := (((t.days * 24 + c.hour) * 60 + c.minute) * 60 + c.second : Nat)
    match c.offset with
    | none => .zoneless (seconds * 1000000 + c.micros)
    | some minutes => .universal ((seconds - minutes * 60) * 1000000 + c.micros)

end SourceNotes.Yaml
