import Purse.Json
import Purse.Decimal.Layout
import Purse.Word

/-!
# What JSON values stand for

Readers for the parts of a document: integers of a range, doubles, texts, names out of a fixed set,
and records. A record is an object, in which unknown members are ignored and known ones must not
repeat, or an array of its members in order.
-/

namespace Purse.Json

/-! ### Numbers -/

/-- The integer that a number writes, if it is written as one: neither a point nor an exponent, and
not minus zero. -/
def int? : Json → Option Int
  | number n =>
    if n.isWhole && !(n.negative && n.wholeValue == 0) then some n.wholeValue else none
  | _ => none

/-- An integer from `low` to `high`. -/
def intIn? (low high : Int) (v : Json) : Option Int := do
  let n ← v.int?
  if low ≤ n && n ≤ high then some n else none

/-- A natural number that fits a word of `bits` bits. -/
def natBelow? (bits : Nat) (v : Json) : Option Nat :=
  (v.intIn? 0 (Word.greatest bits)).map Int.toNat

/-- The greatest significand that a number is read into. -/
def maxSignificand : Nat := Word.greatest 64

/-- A significand with further digits appended as long as it stays within bounds, and the number of
digits left over. -/
def gather (significand : Nat) : List Char → Nat × Nat
  | [] => (significand, 0)
  | d :: ds =>
    let next := Nat.ofDigitChars 10 [d] significand
    if maxSignificand < next then (significand, ds.length + 1) else gather next ds

/-- The greatest power of ten that a double takes exactly one rounded step to reach. -/
def stepExponent : Nat := 308

/-- Ten to a power, as the nearest double. -/
def powerOfTen (k : Nat) : Float := Decimal.nearest 1 k

/-- A double divided by `10 ^ k`, in steps of at most `10 ^ 308`. Zero stays zero, and every
significand has become zero after two full steps. -/
def divideByPower : (steps : Nat) → Float → Nat → Float
  | 0, x, _ => x
  | steps + 1, x, k =>
    if k ≤ stepExponent then x / powerOfTen k
    else if x == 0.0 then x
    else divideByPower steps (x / powerOfTen stepExponent) (k - stepExponent)

/-- A significand times a power of ten, in one rounded multiplication or a few rounded divisions;
none if it is out of the range of doubles. -/
def scaled? (significand : Nat) (exponent : Int) : Option Float :=
  let x := Float.ofNat significand
  match exponent with
  | .ofNat k =>
    if k ≤ stepExponent then
      let y := x * powerOfTen k
      if y.isInf then none else some y
    else if significand = 0 then some x
    else none
  | .negSucc k => some (divideByPower 4 x (k + 1))

/-- The least magnitude of a written exponent that is not read as a number any more. -/
def exponentLimit : Nat := Word.size 31

/-- **The double that a numeral stands for in a document.** The digits that fit a 64-bit word make
the significand, which is scaled by a rounded operation, so the result may differ from the nearest
double in its last place. Digits before the point that do not fit count as zeros, digits after the
point that do not fit are dropped. -/
def doubleOfNumeral? (n : Numeral) : Option Float :=
  let (wholePart, dropped) := gather 0 n.whole
  let places := n.fraction.getD []
  let (significand, left) := gather wholePart places
  let point : Int := (dropped : Int) - ((places.length - left : Nat) : Int)
  let signed (x : Float) : Float := if n.negative then -x else x
  match n.exponent with
  | none => (scaled? significand point).map signed
  | some (negative, ds) =>
    let written := Text.natOfDigits ds
    if exponentLimit ≤ written then
      if significand ≠ 0 && !negative then none else some (signed 0.0)
    else (scaled? significand (point + Binary64.signed negative written)).map signed

/-- The double that a number stands for. -/
def double? : Json → Option Float
  | number n => doubleOfNumeral? n
  | _ => none

/-- A double as a value: its numeral, or `null` if it is not finite. -/
def ofDouble (x : Float) : Json :=
  match FloatLayout.document.numeral? x with
  | some n => number n
  | none => null

/-! ### Other values -/

/-- A truth value. -/
def bool? : Json → Option Bool
  | bool b => some b
  | _ => none

def text? : Json → Option String
  | text s => s
  | _ => none

/-- An optional value: `null` is none. -/
def optional? {α : Type} (read : Json → Option α) : Json → Option (Option α)
  | null => some none
  | v => (read v).map some

/-- A list of values. -/
def list? {α : Type} (read : Json → Option α) : Json → Option (List α)
  | array items => items.mapM read
  | _ => none

/-- A name out of a fixed set: a text, or an object with the name as its only member and `null` as
the value. -/
def name? {α : Type} (ofName : String → Option α) : Json → Option α
  | text (some s) => ofName s
  | object [(some s, null)] => ofName s
  | _ => none

/-! ### Records -/

/-- The value of the only member with a name; the outer `none` if there are several. -/
def member? (members : List (Option String × Json)) (name : String) : Option (Option Json) :=
  match members.filter fun m => m.1 = some name with
  | [] => some none
  | [m] => some (some m.2)
  | _ => none

/-- **The members of a record,** one for each name in order, where one may be missing. -/
def record? (names : List String) : Json → Option (List (Option Json))
  | object members =>
    if members.any fun m => m.1.isNone then none else names.mapM (member? members)
  | array items =>
    if items.length ≤ names.length then
      some (items.map some ++ List.replicate (names.length - items.length) none)
    else none
  | _ => none

/-- A member that must be there. -/
def required? {α : Type} (read : Json → Option α) (member : Option Json) : Option α :=
  member.bind read

/-- A member that has a value even if it is not there. -/
def defaulted? {α : Type} (read : Json → Option α) (fallback : α) : Option Json → Option α
  | none => some fallback
  | some v => read v

end Purse.Json
