import Purse.Decimal.Numeral
import Purse.Decimal.Shortest

/-!
# How a double is written

A `FloatLayout` holds the choices of one written form of doubles; `FloatLayout.numeral?` is the
numeral of a double in it, always with the fewest digits that read back as the same double. Two
forms are in use: `FloatLayout.plain` for rates and settings, `FloatLayout.document` for the numbers
of JSON documents.
-/

namespace Purse

/-- The choices of one written form of doubles. -/
structure FloatLayout where
  /-- Whether a number with this decimal exponent is written without an exponent. -/
  positional : Int → Bool
  /-- The digits after the point of a whole number, if it has a point. -/
  wholeFraction : Option (List Char)
  /-- Which of two equally near decimals is taken. -/
  tie : Decimal.Tie

namespace FloatLayout

/-- The form of rates and settings: no exponent whatever the size, and no point in a whole
number. -/
def plain : FloatLayout where
  positional _ := true
  wholeFraction := none
  tie := .up

/-- The form of numbers in documents: an exponent outside `10 ^ -5 … 10 ^ 16`, and `.0` after the
digits of a whole number. -/
def document : FloatLayout where
  positional e := -5 ≤ e && e < 16
  wholeFraction := some ['0']
  tie := .even

/-- The digits `ds`, times `10 ^ k`, without an exponent. -/
def positionalNumeral (layout : FloatLayout) (negative : Bool) (ds : List Char) (k : Int) : Numeral :=
  match k with
  | .ofNat zeros => ⟨negative, ds ++ List.replicate zeros '0', layout.wholeFraction, none⟩
  | .negSucc places =>
    let whole := ds.length - (places + 1)
    if 0 < whole then ⟨negative, ds.take whole, some (ds.drop whole), none⟩
    else ⟨negative, ['0'], some (List.replicate (places + 1 - ds.length) '0' ++ ds), none⟩

/-- The digits `ds` with a point after the first, and the decimal exponent `e`. -/
def exponentNumeral (negative : Bool) (ds : List Char) (e : Int) : Numeral :=
  let fraction := if ds.length ≤ 1 then none else some (ds.drop 1)
  ⟨negative, ds.take 1, fraction, some (e < 0, Text.decimal e.natAbs)⟩

/-- The numeral of a decimal that is not zero. -/
def decimalNumeral (layout : FloatLayout) (negative : Bool) (d : Decimal) : Numeral :=
  let ds := Text.decimal d.significand
  let e := d.exponent + ds.length - 1
  if layout.positional e then layout.positionalNumeral negative ds d.exponent
  else exponentNumeral negative ds e

/-- **The numeral of a finite double,** with the fewest digits that read back as it. -/
def numeral? (layout : FloatLayout) (x : Float) : Option Numeral :=
  match Binary64.ofFloat x with
  | .nan | .infinite _ => none
  | .finite negative significand exponent =>
    if significand = 0 then some ⟨negative, ['0'], layout.wholeFraction, none⟩
    else some (layout.decimalNumeral negative (Decimal.shortest layout.tie significand exponent))

end FloatLayout

/-- The characters of a rate, or of another double in a message. -/
def rateChars (x : Float) : List Char :=
  match FloatLayout.plain.numeral? x with
  | some n => n.chars
  | none =>
    match Binary64.ofFloat x with
    | .infinite false => ['i', 'n', 'f']
    | .infinite true => ['-', 'i', 'n', 'f']
    | _ => ['N', 'a', 'N']

/-- The text of a rate, or of another double in a message. -/
def rateText (x : Float) : String := String.ofList (rateChars x)

end Purse
