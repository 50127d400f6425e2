import Purse.Json

/-!
# Reading JSON

`Json.ofChars?` reads one value from a whole text. Numbers have no superfluous leading zero and at
least one digit after a point; control characters must not stand in a text unescaped.
-/

namespace Purse.Json

/-- Whether a character may stand between the parts of a value. -/
def isSpace (c : Char) : Bool := c == ' ' || c == '\n' || c == '\t' || c == '\r'

/-- The text less its leading spaces. -/
def dropSpaces (cs : List Char) : List Char := cs.dropWhile isSpace

/-- The value of four hexadecimal digits. -/
def hex4? (a b c d : Char) : Option Nat := Text.natOfHex? [a, b, c, d]

def shortEscape? (c : Char) : Option Char :=
  match c with
  | '"' => some '"'
  | '\\' => some '\\'
  | '/' => some '/'
  | 'b' => some '\x08'
  | 'f' => some '\x0c'
  | 'n' => some '\n'
  | 'r' => some '\r'
  | 't' => some '\t'
  | _ => none

/-- The code points of a text up to its closing quote, and what follows that. An escape may give
half a surrogate pair. -/
def codePoints? : List Char → Option (List Nat × List Char)
  | [] => none
  | '"' :: rest => some ([], rest)
  | '\\' :: 'u' :: a :: b :: c :: d :: rest =>
    match hex4? a b c d, codePoints? rest with
    | some n, some (ns, rest) => some (n :: ns, rest)
    | _, _ => none
  | '\\' :: e :: rest =>
    match shortEscape? e, codePoints? rest with
    | some c, some (ns, rest) => some (c.toNat :: ns, rest)
    | _, _ => none
  | c :: rest =>
    if c.toNat < 0x20 || c == '\\' then none
    else (codePoints? rest).map fun (ns, rest) => (c.toNat :: ns, rest)

/-- Whether a code point is the first half of a surrogate pair. -/
def isHighSurrogate (n : Nat) : Bool := 0xD800 ≤ n && n < 0xDC00

/-- Whether a code point is the second half of a surrogate pair. -/
def isLowSurrogate (n : Nat) : Bool := 0xDC00 ≤ n && n < 0xE000

/-- The characters of code points, with surrogate pairs joined; none if a half stands alone. -/
def joinSurrogates? : List Nat → Option (List Char)
  | [] => some []
  | [n] => if isHighSurrogate n || isLowSurrogate n then none else some [Char.ofNat n]
  | n :: m :: rest =>
    if isHighSurrogate n then
      if isLowSurrogate m then
        (joinSurrogates? rest).map (Char.ofNat (0x10000 + (n - 0xD800) * 0x400 + (m - 0xDC00)) :: ·)
      else none
    else if isLowSurrogate n then none
    else (joinSurrogates? (m :: rest)).map (Char.ofNat n :: ·)

/-- A text, after its opening quote. -/
def textBody? (cs : List Char) : Option (Option String × List Char) :=
  (codePoints? cs).map fun (ns, rest) => ((joinSurrogates? ns).map String.ofList, rest)

/-- A numeral: digits without a superfluous leading zero, digits after a point, digits in an
exponent. -/
def numeral? (cs : List Char) : Option (Numeral × List Char) := do
  let (negative, cs) :=
    match cs with
    | '-' :: cs => (true, cs)
    | _ => (false, cs)
  let (whole, cs) ← Text.digits1? cs
  let (fraction, cs) := Numeral.fractionRun cs
  let (exponent, cs) ← Numeral.exponent? cs
  if (whole.length > 1 && whole.head? == some '0') || fraction == some [] then none
  else some (⟨negative, whole, fraction, exponent⟩, cs)

mutual

/-- A value at the front of a text, and what follows it. Every level of nesting, item and member
takes one unit of fuel. -/
def value? : (fuel : Nat) → List Char → Option (Json × List Char)
  | 0, _ => none
  | fuel + 1, cs =>
    match dropSpaces cs with
    | 'n' :: rest => (Text.after? ['u', 'l', 'l'] rest).map fun rest => (null, rest)
    | 't' :: rest => (Text.after? ['r', 'u', 'e'] rest).map fun rest => (bool true, rest)
    | 'f' :: rest => (Text.after? ['a', 'l', 's', 'e'] rest).map fun rest => (bool false, rest)
    | '"' :: rest => (textBody? rest).map fun (s, rest) => (text s, rest)
    | '[' :: rest =>
      match dropSpaces rest with
      | ']' :: rest => some (array [], rest)
      | rest => (items? fuel rest).map fun (vs, rest) => (array vs, rest)
    | '\x7b' :: rest =>
      match dropSpaces rest with
      | '\x7d' :: rest => some (object [], rest)
      | rest => (members? fuel rest).map fun (ms, rest) => (object ms, rest)
    | cs => (numeral? cs).map fun (n, rest) => (number n, rest)

/-- The items of an array that is not empty, after its bracket. -/
def items? : (fuel : Nat) → List Char → Option (List Json × List Char)
  | 0, _ => none
  | fuel + 1, cs =>
    match value? fuel cs with
    | none => none
    | some (v, rest) =>
      match dropSpaces rest with
      | ',' :: rest => (items? fuel rest).map fun (vs, rest) => (v :: vs, rest)
      | ']' :: rest => some ([v], rest)
      | _ => none

/-- The members of an object that is not empty, after its brace. -/
def members? : (fuel : Nat) → List Char → Option (List (Option String × Json) × List Char)
  | 0, _ => none
  | fuel + 1, cs =>
    match Text.after? ['"'] (dropSpaces cs) with
    | none => none
    | some cs =>
      match textBody? cs with
      | none => none
      | some (k, rest) =>
        match Text.after? [':'] (dropSpaces rest) with
        | none => none
        | some rest =>
          match value? fuel rest with
          | none => none
          | some (v, rest) =>
            match dropSpaces rest with
            | ',' :: rest => (members? fuel rest).map fun (ms, rest) => ((k, v) :: ms, rest)
            | '\x7d' :: rest => some ([(k, v)], rest)
            | _ => none

end

/-- **The value that a whole text writes.** -/
def ofChars? (cs : List Char) : Option Json :=
  match value? (cs.length + 1) cs with
  | some (v, rest) => if (dropSpaces rest).isEmpty then some v else none
  | none => none

/-- The value that a whole text writes. -/
def ofText? (s : String) : Option Json := ofChars? s.toList

end Purse.Json
