import Purse.Decimal.Binary64
import Purse.Text.Digits

/-!
# Decimal numerals

A numeral is a written decimal number kept as its parts: sign, digits, an optional point with digits
and an optional exponent. Nothing is lost when it is written again, and `Numeral.nearest` is the
double nearest to it.
-/

namespace Purse

namespace Decimal

/-- Positive infinity. -/
def infinity : Float := 1.0 / 0.0

/-- A value that is no number. -/
def notANumber : Float := 0.0 / 0.0

/-- The double nearest to `significand · 10 ^ exponent`. What is certainly beyond the largest
double, or certainly below half the least one, is decided by the count of digits alone, so that no
huge power is ever formed. -/
def nearest (significand : Nat) (exponent : Int) : Float :=
  if significand = 0 then 0.0
  else
    let magnitude := exponent + (Text.decimal significand).length
    if magnitude < -400 then 0.0
    else if 400 < magnitude then infinity
    else Float.ofScientific significand (exponent < 0) exponent.natAbs

end Decimal

/-- A written decimal number, kept as its parts. -/
structure Numeral where
  /-- Whether it has a minus sign. -/
  negative : Bool
  /-- The digits before the point. -/
  whole : List Char
  /-- The digits after the point, if there is a point. -/
  fraction : Option (List Char)
  /-- The exponent, if there is one: whether it is negative, and its digits. -/
  exponent : Option (Bool × List Char)
deriving DecidableEq, Repr

namespace Numeral

/-- The numeral of an integer. -/
def ofInt (n : Int) : Numeral := ⟨n < 0, Text.decimal n.natAbs, none, none⟩

/-- Whether the numeral has neither a point nor an exponent. -/
def isWhole (n : Numeral) : Bool :=
  n.fraction.isNone && n.exponent.isNone

/-- The number that the written exponent stands for. -/
def scale (n : Numeral) : Int :=
  match n.exponent with
  | none => 0
  | some (negative, ds) => Binary64.signed negative (Text.natOfDigits ds)

/-- The integer that the digits before the point stand for. -/
def wholeValue (n : Numeral) : Int :=
  Binary64.signed n.negative (Text.natOfDigits n.whole)

/-- **The double nearest to the numeral.** A minus sign in front of zero is kept. -/
def nearest (n : Numeral) : Float :=
  let places := n.fraction.getD []
  let magnitude := Decimal.nearest (Text.natOfDigits (n.whole ++ places)) (n.scale - places.length)
  if n.negative then -magnitude else magnitude

/-- The characters of a numeral. An exponent always has a sign. -/
def chars (n : Numeral) : List Char :=
  (if n.negative then ['-'] else []) ++ n.whole ++
    (match n.fraction with
    | some places => '.' :: places
    | none => []) ++
    match n.exponent with
    | some (negative, ds) => 'e' :: (if negative then '-' else '+') :: ds
    | none => []

/-! ### Reading -/

/-- A sign at the front, and what follows it. -/
def sign : List Char → Bool × List Char
  | '-' :: cs => (true, cs)
  | '+' :: cs => (false, cs)
  | cs => (false, cs)

/-- An exponent at the front, if there is one, and what follows it; `none` if an `e` is not followed
by digits. -/
def exponent? : List Char → Option (Option (Bool × List Char) × List Char)
  | c :: cs =>
    if c == 'e' || c == 'E' then
      let (negative, cs) := sign cs
      (Text.digits1? cs).map fun (ds, rest) => (some (negative, ds), rest)
    else some (none, c :: cs)
  | [] => some (none, [])

/-- A point and the digits after it, if there is a point, and what follows. -/
def fractionRun : List Char → Option (List Char) × List Char
  | '.' :: cs =>
    let (places, rest) := Text.digitRun cs
    (some places, rest)
  | cs => (none, cs)

/-- Digits with an optional point and an optional exponent, and nothing else. There is a digit
before the point or after it. -/
def unsigned? (negative : Bool) (cs : List Char) : Option Numeral :=
  let (whole, rest) := Text.digitRun cs
  let (fraction, rest) := fractionRun rest
  if whole.isEmpty && (fraction.getD []).isEmpty then none
  else
    match exponent? rest with
    | some (exponent, []) => some { negative, whole, fraction, exponent }
    | _ => none

/-- The words for values that are not finite, in any case. -/
def word? (cs : List Char) : Option Float :=
  if Text.sameLetters cs ['i', 'n', 'f'] || Text.sameLetters cs ['i', 'n', 'f', 'i', 'n', 'i', 't', 'y'] then
    some Decimal.infinity
  else if Text.sameLetters cs ['n', 'a', 'n'] then some Decimal.notANumber
  else none

/-- **The double that a text writes:** a numeral with an optional sign, or a word for a value that
is not finite. -/
def readDouble? (text : String) : Option Float :=
  let (negative, cs) := sign text.toList
  match word? cs with
  | some x => some (if negative then -x else x)
  | none => (unsigned? negative cs).map nearest

/-- The integer that a text writes: an optional sign and digits. -/
def readInt? (text : String) : Option Int :=
  let (negative, cs) := sign text.toList
  match Text.digits1? cs with
  | some (ds, []) => some (Binary64.signed negative (Text.natOfDigits ds))
  | _ => none

end Numeral

end Purse
