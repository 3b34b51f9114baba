/-
What goes wrong with a YAML text.

Most texts that cannot be read are just not YAML, or not YAML that can be used.
A few scalars are found out only when their value is worked out: numbers without
digits, times that are not in the calendar, and escapes beyond the last character.
Where a text seems to end too early, it depends on whether it really ends there:
what follows may be octets that are no text.
-/
import SourceNotes.Text.Quoted

namespace SourceNotes.Yaml

/-- Why a time is not in the calendar. -/
inductive TimeFault where
  | year
  | month
  | day
  | hour
  | minute
  | second
  /-- Its offset, here in minutes, is a day or more. -/
  | offset (minutes : Int)
  deriving DecidableEq, Repr

/-- Why a text has no value. -/
inductive Fault where
  /-- The text is not YAML, or not YAML of a single document with known tags. -/
  | invalid
  /-- What comes next are no octets of a text. -/
  | notText
  /-- More of the text has to be known. If there is no more of it, that is the fault
  `otherwise`. -/
  | unfinished (otherwise : Fault)
  /-- An escape gives a code beyond the last character. -/
  | character (code : Nat)
  /-- A text tagged as a truth value is none. -/
  | boolean
  /-- A text tagged as a number holds nothing. -/
  | emptyNumber
  /-- A text is no number in the given base. -/
  | integer (base : Nat) (given : Codes)
  /-- A whole number has too many digits. -/
  | digits (count : Nat)
  /-- A text tagged as a fraction is none. -/
  | fraction (given : Codes)
  /-- A fraction in base 60 has so many places that the first of them counts too much. -/
  | places
  /-- A text tagged as a time is none. -/
  | time
  /-- A mapping is tagged as a time. -/
  | timeOfMapping
  /-- A time is not in the calendar. -/
  | calendar (fault : TimeFault)
  /-- Collections are within one another too often. -/
  | depth
  deriving DecidableEq, Repr

/-- A fault where the rest of the text is known: nothing follows, or the fault `ending`
comes to light. -/
def Fault.settled (ending : Option Fault) : Fault → Fault
  | .unfinished otherwise => ending.getD (otherwise.settled ending)
  | fault => fault

/-- An offset as it is shown: whole days, rounded down, and the seconds left. -/
def TimeFault.shownOffset (minutes : Int) : String :=
  let days := minutes.fdiv 1440
  let seconds := minutes.fmod 1440 * 60
  let rest := if seconds = 0 then "" else s!", seconds={seconds}"
  s!"datetime.timedelta(days={days}{rest})"

/-- The wording of a fault in a time. -/
def TimeFault.message : TimeFault → String
  | .year => "year 0 is out of range"
  | .month => "month must be in 1..12"
  | .day => "day is out of range for month"
  | .hour => "hour must be in 0..23"
  | .minute => "minute must be in 0..59"
  | .second => "second must be in 0..59"
  | .offset minutes =>
    "offset must be a timedelta strictly between -timedelta(hours=24) and " ++
      s!"timedelta(hours=24), not {shownOffset minutes}."

/-- The most digits that a whole number in base 10 may have. -/
def maxDigits : Nat := 4300

/-- How much of a text is shown that is no whole number. -/
def shownLength : Nat := 200

/-- The wording of a fault, where it has one. -/
def Fault.message : Fault → String
  | .character _ => "chr() arg not in range(0x110000)"
  | .integer base given =>
    s!"invalid literal for int() with base {base}: " ++
      String.ofList ((Text.quotedCodes given).take shownLength)
  | .digits count =>
    s!"Exceeds the limit ({maxDigits} digits) for integer string conversion: " ++
      s!"value has {count} digits; use sys.set_int_max_str_digits() to increase the limit"
  | .fraction given => "could not convert string to float: " ++ String.ofList (Text.quotedCodes given)
  | .calendar fault => fault.message
  | _ => ""

end SourceNotes.Yaml
