import Purse.Text.Digits

/-!
# Octets

Texts as sequences of octets: the percent notation, in which `%` and two hexadecimal digits stand
for an octet, and the characters that octets encode in UTF-8. Not every sequence of octets encodes a
text. Where one must, `Text.ofOctets` says what is wrong and where; where any will do,
`Text.ofOctetsLossy` puts U+FFFD in place of what is wrong.
-/

namespace Purse.Text

/-- The octets that a text in percent notation stands for. A `%` without two digits after it stands
for itself. -/
def percentDecoded : List Char → List Nat
  | '%' :: a :: b :: cs =>
    match hexValue? a, hexValue? b with
    | some x, some y => (16 * x.val + y.val) :: percentDecoded cs
    | _, _ => '%'.toNat :: percentDecoded (a :: b :: cs)
  | c :: cs => (String.utf8EncodeChar c).map UInt8.toNat ++ percentDecoded cs
  | [] => []

/-- Why octets are no text. -/
structure OctetFault where
  /-- How many octets stand before the fault. -/
  offset : Nat
  /-- How many octets begin no character; none if the octets end within a character. -/
  length : Option Nat
deriving DecidableEq, Repr

namespace OctetFault

/-- The wording of a fault. -/
def message (f : OctetFault) : String :=
  match f.length with
  | some n =>
    "invalid utf-8 sequence of " ++ String.ofList (decimal n) ++ " bytes from index " ++
      String.ofList (decimal f.offset)
  | none => "incomplete utf-8 byte sequence from index " ++ String.ofList (decimal f.offset)

end OctetFault

/-- The octets that may follow the first octet of a character: the least and the greatest for each
place. -/
def octetsAfter? (first : Nat) : Option (List (Nat × Nat)) :=
  let any : Nat × Nat := (0x80, 0xBF)
  if first < 0x80 then some []
  else if first < 0xC2 then none
  else if first < 0xE0 then some [any]
  else if first = 0xE0 then some [(0xA0, 0xBF), any]
  else if first = 0xED then some [(0x80, 0x9F), any]
  else if first < 0xF0 then some [any, any]
  else if first = 0xF0 then some [(0x90, 0xBF), any, any]
  else if first < 0xF4 then some [any, any, any]
  else if first = 0xF4 then some [(0x80, 0x8F), any, any]
  else none

/-- The bits of the first octet that belong to the number of the character, for so many octets after
it. -/
def firstOctetBits (first : Nat) : (count : Nat) → Nat
  | 0 => first
  | 1 => first % 0x20
  | 2 => first % 0x10
  | _ => first % 0x08

/-- The number of a character from its first bits and the octets after them, of which `seen` octets
of the character have been read, and what follows it; otherwise how many octets begin no character,
or none if the octets end. -/
def finishCharacter (bits seen : Nat) :
    (ranges : List (Nat × Nat)) → (octets : List Nat) → Except (Option Nat) (Nat × List Nat)
  | [], rest => .ok (bits, rest)
  | _ :: _, [] => .error none
  | (least, greatest) :: ranges, b :: octets =>
    if least ≤ b && b ≤ greatest then finishCharacter (64 * bits + b % 64) (seen + 1) ranges octets
    else .error (some seen)

/-- The character at the front of some octets, and what follows it. -/
def firstCharacter (first : Nat) (octets : List Nat) : Except (Option Nat) (Char × List Nat) :=
  match octetsAfter? first with
  | none => .error (some 1)
  | some ranges =>
    match finishCharacter (firstOctetBits first ranges.length) 1 ranges octets with
    | .ok (n, rest) => .ok (Char.ofNat n, rest)
    | .error e => .error e

/-- The characters of octets that stand at an offset, over at most `fuel` of them. -/
def decodeOctets : (fuel offset : Nat) → List Nat → Except OctetFault (List Char)
  | _, _, [] => .ok []
  | 0, _, _ => .ok []
  | fuel + 1, offset, first :: octets =>
    match firstCharacter first octets with
    | .error length => .error ⟨offset, length⟩
    | .ok (c, rest) =>
      match decodeOctets fuel (offset + (octets.length + 1 - rest.length)) rest with
      | .ok cs => .ok (c :: cs)
      | .error e => .error e

/-- **The text that octets encode.** -/
def ofOctets (octets : List Nat) : Except OctetFault (List Char) := decodeOctets octets.length 0 octets

/-- The characters of octets, with U+FFFD in place of what is no character, over at most `fuel` of
them. -/
def decodeOctetsLossy : (fuel : Nat) → List Nat → List Char
  | _, [] => []
  | 0, _ => []
  | fuel + 1, first :: octets =>
    match firstCharacter first octets with
    | .ok (c, rest) => c :: decodeOctetsLossy fuel rest
    | .error (some n) => '\uFFFD' :: decodeOctetsLossy fuel (octets.drop (n - 1))
    | .error none => ['\uFFFD']

/-- The text that octets encode, with U+FFFD in place of what is wrong. -/
def ofOctetsLossy (octets : List Nat) : List Char := decodeOctetsLossy octets.length octets

end Purse.Text
