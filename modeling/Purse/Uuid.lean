import Purse.Text.Digits

/-!
# Identifiers

Wallets, users and events are named by 128-bit identifiers, held here as their thirty-two
hexadecimal digits. They are read in any of the usual spellings and written in one: hyphenated and
lower-case.
-/

namespace Purse

/-- A 128-bit identifier. -/
structure Uuid where
  digits : List (Fin 16)
  length_digits : digits.length = 32
deriving DecidableEq

namespace Uuid

/-- The identifier with these digits, if there are thirty-two of them. -/
def ofDigits? (ds : List (Fin 16)) : Option Uuid :=
  if h : ds.length = 32 then some ⟨ds, h⟩ else none

/-- The last thirty-two hexadecimal digits of a number. -/
def ofNat (n : Nat) : Uuid :=
  ⟨(List.range 32).map fun i => ⟨n / Nat.pow 16 (31 - i) % 16, Nat.mod_lt _ (by decide)⟩,
    (List.length_map _).trans List.length_range⟩

instance : Inhabited Uuid := ⟨ofNat 0⟩

/-- The written form: groups of eight, four, four, four and twelve digits, with hyphens between
them. -/
def chars (u : Uuid) : List Char :=
  let ds := u.digits.map Text.hexDigit
  ds.take 8 ++ '-' :: (ds.drop 8).take 4 ++ '-' :: (ds.drop 12).take 4 ++
    '-' :: (ds.drop 16).take 4 ++ '-' :: ds.drop 20

/-- The text of an identifier. -/
def text (u : Uuid) : String := String.ofList u.chars

/-- Thirty-two digits with nothing between them. -/
def ofSimple? (cs : List Char) : Option Uuid := do
  ofDigits? (← cs.mapM Text.hexValue?)

/-- Digits with hyphens after the eighth, twelfth, sixteenth and twentieth, and nowhere else. -/
def ofHyphenated? (cs : List Char) : Option Uuid :=
  let at? (i : Nat) : Bool := cs[i]? == some '-'
  if cs.length = 36 && at? 8 && at? 13 && at? 18 && at? 23 then
    ofSimple? (cs.take 8 ++ (cs.drop 9).take 4 ++ (cs.drop 14).take 4 ++ (cs.drop 19).take 4 ++ cs.drop 24)
  else none

def braced? : List Char → Option (List Char)
  | '\x7b' :: cs => if cs.getLast? = some '\x7d' then some cs.dropLast else none
  | _ => none

/-- **The identifier that a text spells:** plain digits, hyphenated, hyphenated in braces, or
hyphenated after `urn:uuid:`. Digits may be of either case. -/
def ofChars? (cs : List Char) : Option Uuid :=
  match braced? cs with
  | some inner => ofHyphenated? inner
  | none =>
    match Text.after? ['u', 'r', 'n', ':', 'u', 'u', 'i', 'd', ':'] cs with
    | some rest => ofHyphenated? rest
    | none => if cs.length = 32 then ofSimple? cs else ofHyphenated? cs

/-- The identifier that a text spells. -/
def ofText? (s : String) : Option Uuid := ofChars? s.toList

def number (u : Uuid) : Nat := u.digits.foldl (fun n d => 16 * n + d.val) 0

/-- Whether the written form of `a` comes no later than that of `b`, by its bytes. Both have the
same length, so this is the order of the numbers. -/
def le (a b : Uuid) : Bool := a.number ≤ b.number

end Uuid

end Purse
