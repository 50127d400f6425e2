import Purse.Text.Blank
import Purse.Text.Digits
import Purse.Timestamp
import Purse.Timestamp.Calendar

/-!
# Timestamps as text

A timestamp is written in universal time with `Z` and as many fraction digits, none, three, six or
nine, as it needs. It is read with any offset, and leniently: numbers may be short and may follow
blanks, the date and the time may be separated by a blank, and fraction digits past the ninth are
dropped.
-/

namespace Purse.Timestamp

/-! ### Writing -/

/-- A year of four digits; one that needs more, or a negative one, has a sign. -/
def yearChars (year : Int) : List Char :=
  if 0 ≤ year ∧ year ≤ 9999 then Text.padded 4 year.toNat
  else (if year < 0 then '-' else '+') :: Text.padded 4 year.natAbs

/-- The point and as many digits as the nanoseconds need: none, three, six or nine. -/
def fractionChars (nanos : Nat) : List Char :=
  if nanos = 0 then []
  else if nanos % 1000000 = 0 then '.' :: Text.padded 3 (nanos / 1000000)
  else if nanos % 1000 = 0 then '.' :: Text.padded 6 (nanos / 1000)
  else '.' :: Text.padded 9 nanos

/-- The characters of a timestamp. A leap second is written as second sixty. -/
def chars (t : Timestamp) : List Char :=
  let date := Date.ofDays (t.seconds / 86400)
  let second := (t.seconds % 86400).toNat
  let leap := if t.inLeapSecond then 1 else 0
  yearChars date.year ++ '-' :: Text.padded 2 date.month ++ '-' :: Text.padded 2 date.day ++
    'T' :: Text.padded 2 (second / 3600) ++ ':' :: Text.padded 2 (second / 60 % 60) ++
    ':' :: Text.padded 2 (second % 60 + leap) ++ fractionChars (t.nanos % nanosPerSecond) ++ ['Z']

def text (t : Timestamp) : String := String.ofList t.chars

/-! ### Reading -/

/-- A number of one to `width` digits, after blanks. -/
def number? (width : Nat) (cs : List Char) : Option (Nat × List Char) :=
  let cs := Text.dropBlanks cs
  match (cs.take width).takeWhile Char.isDigit with
  | [] => none
  | ds => some (Text.natOfDigits ds, cs.drop ds.length)

/-- The year: up to four digits, or a sign and any number of digits. -/
def year? (cs : List Char) : Option (Int × List Char) :=
  let signed (sign : Int) (cs : List Char) : Option (Int × List Char) :=
    (Text.digits1? cs).map fun (ds, rest) => (sign * (Text.natOfDigits ds : Int), rest)
  match Text.dropBlanks cs with
  | '-' :: cs => signed (-1) cs
  | '+' :: cs => signed 1 cs
  | cs => (number? 4 cs).map fun (n, rest) => ((n : Int), rest)

/-- What follows the separator `c`, which may follow blanks. -/
def separator? (c : Char) (cs : List Char) : Option (List Char) :=
  Text.after? [c] (Text.dropBlanks cs)

/-- The nanoseconds of an optional point and digits: the first nine digits count. -/
def fraction? : List Char → Option (Nat × List Char)
  | '.' :: cs =>
    (Text.digits1? cs).map fun (ds, rest) =>
      let ds := ds.take 9
      (Text.natOfDigits ds * Nat.pow 10 (9 - ds.length), rest)
  | cs => some (0, cs)

def twoDigits? : List Char → Option (Nat × List Char)
  | a :: b :: rest => if a.isDigit && b.isDigit then some (Text.natOfDigits [a, b], rest) else none
  | _ => none

/-- The offset from universal time in seconds: `Z`, `UTC`, or a sign, two digits of hours and two of
minutes with any colons and blanks between. -/
def offset? (cs : List Char) : Option (Int × List Char) :=
  let signed (sign : Int) (cs : List Char) : Option (Int × List Char) := do
    let (hours, cs) ← twoDigits? cs
    let (minutes, cs) ← twoDigits? (cs.dropWhile fun c => c == ':' || Text.isBlank c)
    if minutes < 60 then some (sign * (hours * 3600 + minutes * 60 : Nat), cs) else none
  if Text.sameLetters (cs.take 3) ['U', 'T', 'C'] then some (0, cs.drop 3)
  else
    match cs with
    | c :: cs =>
      if c == 'Z' || c == 'z' then some (0, cs)
      else if c == '+' then signed 1 cs
      else if c == '-' || c == '\u2212' then signed (-1) cs
      else none
    | [] => none

/-- The mark between date and time. -/
def dateEnd? : List Char → Option (List Char)
  | c :: cs => if c == 'T' || c == 't' || c == ' ' then some cs else none
  | [] => none

/-- The years that timestamps are kept for. -/
def yearInRange (year : Int) : Bool :=
  -262143 ≤ year && year ≤ 262142

/-- The instant with this date, time of day and offset. Second sixty is the leap second after second
fifty-nine. -/
def ofParts? (date : Date) (hour minute second nanos : Nat) (offset : Int) : Option Timestamp :=
  if h : nanos < 1000000000 ∧ date.isValid ∧ yearInRange date.year ∧ hour < 24 ∧ minute < 60 ∧ second ≤ 60 ∧
      offset.natAbs < 86400 then
    let whole := date.toDays * 86400 + (hour * 3600 + minute * 60 + min second 59 : Nat) - offset
    if second = 60 then some ⟨whole, nanos + 1000000000, by omega⟩ else some ⟨whole, nanos, by omega⟩
  else none

/-- **The instant that a text writes.** -/
def ofChars? (cs : List Char) : Option Timestamp := do
  let (year, cs) ← year? cs
  let cs ← separator? '-' cs
  let (month, cs) ← number? 2 cs
  let cs ← separator? '-' cs
  let (day, cs) ← number? 2 cs
  let cs ← dateEnd? cs
  let (hour, cs) ← number? 2 cs
  let cs ← separator? ':' cs
  let (minute, cs) ← number? 2 cs
  let cs ← separator? ':' cs
  let (second, cs) ← number? 2 cs
  let (nanos, cs) ← fraction? cs
  let (offset, cs) ← offset? (Text.dropBlanks cs)
  if (Text.dropBlanks cs).isEmpty then ofParts? ⟨year, month, day⟩ hour minute second nanos offset else none

/-- The instant that a text writes. -/
def ofText? (s : String) : Option Timestamp := ofChars? s.toList

end Purse.Timestamp
