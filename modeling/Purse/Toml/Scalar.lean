import Purse.Decimal.Numeral
import Purse.Text.Digits
import Purse.Timestamp.Calendar
import Purse.Toml
import Purse.Word

/-!
# Scalars of TOML documents

Readers for what stands between the brackets and braces of a TOML document: blanks and comments,
texts in their four forms, numbers and dates. Each reader takes the characters from where it begins
and gives what it read and what follows.
-/

namespace Purse.Toml

/-! ### Blanks and comments -/

/-- Whether a character is a blank within a line. -/
def isSpace (c : Char) : Bool := c == ' ' || c == '\t'

/-- Whether a character may not stand in a document, tabulators and line ends aside. -/
def isForbidden (c : Char) : Bool := (c.toNat < 0x20 && c != '\t') || c.toNat == 0x7f

/-- The text less its leading blanks. -/
def dropSpaces (cs : List Char) : List Char := cs.dropWhile isSpace

def lineEnd? : List Char → Option (List Char)
  | '\n' :: cs => some cs
  | '\r' :: '\n' :: cs => some cs
  | _ => none

/-- The text less a comment, if it begins with one. -/
def dropComment : List Char → List Char
  | '#' :: cs => cs.dropWhile fun c => !isForbidden c
  | cs => cs

/-- What follows blanks, a comment and the end of a line or of the document. -/
def restOfLine? (cs : List Char) : Option (List Char) :=
  match dropComment (dropSpaces cs) with
  | [] => some []
  | cs => lineEnd? cs

/-- The text less blanks, comments and line ends, over at most `fuel` lines. -/
def dropLines : (fuel : Nat) → List Char → List Char
  | 0, cs => cs
  | fuel + 1, cs =>
    let cs := dropComment (dropSpaces cs)
    match lineEnd? cs with
    | some rest => dropLines fuel rest
    | none => cs

/-! ### Texts -/

/-- The character with a number in hexadecimal digits, if there is one. -/
def charOfHex? (ds : List Char) : Option Char := do
  let n ← Text.natOfHex? ds
  if n < 0xD800 || (0xE000 ≤ n && n < 0x110000) then some (Char.ofNat n) else none

/-- The character of an escape, after its backslash, and what follows. -/
def escape? : List Char → Option (Char × List Char)
  | 'b' :: cs => some ('\x08', cs)
  | 't' :: cs => some ('\t', cs)
  | 'n' :: cs => some ('\n', cs)
  | 'f' :: cs => some ('\x0c', cs)
  | 'r' :: cs => some ('\r', cs)
  | '"' :: cs => some ('"', cs)
  | '\\' :: cs => some ('\\', cs)
  | 'u' :: cs => if cs.length < 4 then none else (charOfHex? (cs.take 4)).map fun c => (c, cs.drop 4)
  | 'U' :: cs => if cs.length < 8 then none else (charOfHex? (cs.take 8)).map fun c => (c, cs.drop 8)
  | _ => none

/-- A text on one line with escapes, after its opening quote. -/
def basicText? : (fuel : Nat) → List Char → Option (List Char × List Char)
  | 0, _ | _, [] => none
  | _ + 1, '"' :: cs => some ([], cs)
  | fuel + 1, '\\' :: cs =>
    match escape? cs with
    | some (c, rest) => (basicText? fuel rest).map fun (s, rest) => (c :: s, rest)
    | none => none
  | fuel + 1, c :: cs =>
    if isForbidden c then none else (basicText? fuel cs).map fun (s, rest) => (c :: s, rest)

/-- A text on one line as it stands, after its opening quote. -/
def literalText? : List Char → Option (List Char × List Char)
  | [] => none
  | '\'' :: cs => some ([], cs)
  | c :: cs => if isForbidden c then none else (literalText? cs).map fun (s, rest) => (c :: s, rest)

/-- What follows the first line end, if the text begins with one. -/
def dropLineEnd (cs : List Char) : List Char := (lineEnd? cs).getD cs

/-- What follows a line end, blank lines and the blanks of the next line, if only blanks stand
before the line end. -/
def continued? (fuel : Nat) (cs : List Char) : Option (List Char) :=
  match lineEnd? (dropSpaces cs) with
  | some rest => some (skip fuel rest)
  | none => none
where
  /-- The text less blanks and line ends. -/
  skip : Nat → List Char → List Char
    | 0, cs => cs
    | fuel + 1, cs =>
      let cs := dropSpaces cs
      match lineEnd? cs with
      | some rest => skip fuel rest
      | none => cs

/-- The end of a text on several lines: three quotes, after up to two that belong to the text. -/
def closing? (quote : Char) (cs : List Char) : Option (List Char × List Char) :=
  let run := (cs.takeWhile (· == quote)).length
  if run < 3 then none
  else
    let extra := min (run - 3) 2
    some (List.replicate extra quote, cs.drop (extra + 3))

/-- A text on several lines with escapes, after its opening quotes. -/
def basicLines? : (fuel : Nat) → List Char → Option (List Char × List Char)
  | 0, _ | _, [] => none
  | fuel + 1, c :: cs =>
    match closing? '"' (c :: cs) with
    | some finished => some finished
    | none =>
      match lineEnd? (c :: cs) with
      | some rest => (basicLines? fuel rest).map fun (s, rest) => ('\n' :: s, rest)
      | none =>
        if c = '\\' then
          match escape? cs with
          | some (e, rest) => (basicLines? fuel rest).map fun (s, rest) => (e :: s, rest)
          | none =>
            match continued? cs.length cs with
            | some rest => basicLines? fuel rest
            | none => none
        else if isForbidden c then none
        else (basicLines? fuel cs).map fun (s, rest) => (c :: s, rest)

/-- A text on several lines as it stands, after its opening quotes. -/
def literalLines? : (fuel : Nat) → List Char → Option (List Char × List Char)
  | 0, _ | _, [] => none
  | fuel + 1, c :: cs =>
    match closing? '\'' (c :: cs) with
    | some finished => some finished
    | none =>
      match lineEnd? (c :: cs) with
      | some rest => (literalLines? fuel rest).map fun (s, rest) => ('\n' :: s, rest)
      | none =>
        if isForbidden c then none
        else (literalLines? fuel cs).map fun (s, rest) => (c :: s, rest)

/-- A text on one line, in quotes of either kind. -/
def lineText? : List Char → Option (List Char × List Char)
  | '"' :: cs => basicText? (cs.length + 1) cs
  | '\'' :: cs => literalText? cs
  | _ => none

/-- A text in any of its four forms. -/
def text? : List Char → Option (List Char × List Char)
  | '"' :: '"' :: '"' :: cs => basicLines? (cs.length + 1) (dropLineEnd cs)
  | '\'' :: '\'' :: '\'' :: cs => literalLines? (cs.length + 1) (dropLineEnd cs)
  | cs => lineText? cs

/-! ### Numbers -/

/-- Digits with single underscores between them: the digits, and what follows. -/
def grouped? (isDigit : Char → Bool) : List Char → Option (List Char × List Char)
  | [] => none
  | c :: '_' :: cs =>
    if isDigit c then (grouped? isDigit cs).map fun (ds, rest) => (c :: ds, rest) else none
  | c :: cs =>
    if isDigit c then
      match grouped? isDigit cs with
      | some (ds, rest) => some (c :: ds, rest)
      | none => if (cs.head?.map isDigit).getD false then none else some ([c], cs)
    else none

def isHexDigit (c : Char) : Bool := (Text.hexValue? c).isSome

def isOctalDigit (c : Char) : Bool := '0' ≤ c && c ≤ '7'

def isBinaryDigit (c : Char) : Bool := c == '0' || c == '1'

/-- The number that digits to a base stand for. -/
def ofBase (base : Nat) (ds : List Char) : Nat :=
  ds.foldl (fun n c => base * n + ((Text.hexValue? c).map Fin.val).getD 0) 0

/-- An integer, if it fits a signed 64-bit word. -/
def fitting? (n : Int) : Option Toml :=
  if Word.fitsSigned 63 n then some (.integer n) else none

/-- An integer to the base sixteen, eight or two, after its leading zero and letter. -/
def based? (base : Nat) (isDigit : Char → Bool) (cs : List Char) : Option (Toml × List Char) := do
  let (ds, rest) ← grouped? isDigit cs
  pure (← fitting? (ofBase base ds), rest)

/-- A word for a value that is not finite. -/
def wordFloat? (cs : List Char) : Option (Float × List Char) :=
  match Text.after? ['i', 'n', 'f'] cs, Text.after? ['n', 'a', 'n'] cs with
  | some rest, _ => some (Decimal.infinity, rest)
  | none, some rest => some (Decimal.notANumber, rest)
  | none, none => none

/-- A point and digits, if there is a point. -/
def fractionPart? : List Char → Option (Option (List Char) × List Char)
  | '.' :: cs => (grouped? Char.isDigit cs).map fun (ds, rest) => (some ds, rest)
  | cs => some (none, cs)

def exponentPart? : List Char → Option (Option (Bool × List Char) × List Char)
  | c :: cs =>
    if c == 'e' || c == 'E' then
      let (negative, cs) := Numeral.sign cs
      (grouped? Char.isDigit cs).map fun (ds, rest) => (some (negative, ds), rest)
    else some (none, c :: cs)
  | [] => some (none, [])

/-- A decimal number after its sign. One without a point and an exponent is an integer; one that is
too large for a double is refused. -/
def decimal? (negative : Bool) (cs : List Char) : Option (Toml × List Char) := do
  let (whole, rest) ← grouped? Char.isDigit cs
  if whole.length > 1 && whole.head? == some '0' then none
  let (fraction, rest) ← fractionPart? rest
  let (exponent, rest) ← exponentPart? rest
  let n : Numeral := { negative, whole, fraction, exponent }
  if n.isWhole then pure (← fitting? n.wholeValue, rest)
  else
    let x := n.nearest
    if x.isInf && 0.0 < x then none else pure (.float x, rest)

/-- A number. Signs and other bases do not go together. -/
def number? (cs : List Char) : Option (Toml × List Char) :=
  match cs with
  | '0' :: 'x' :: rest => based? 16 isHexDigit rest
  | '0' :: 'o' :: rest => based? 8 isOctalDigit rest
  | '0' :: 'b' :: rest => based? 2 isBinaryDigit rest
  | _ =>
    let (negative, rest) := Numeral.sign cs
    match wordFloat? rest with
    | some (x, rest) => some (.float (if negative then -x else x), rest)
    | none => decimal? negative rest

/-! ### Dates and times -/

/-- Exactly so many digits. -/
def exactly? (count : Nat) (cs : List Char) : Option (Nat × List Char) :=
  let ds := cs.take count
  if ds.length = count && ds.all Char.isDigit then some (Text.natOfDigits ds, cs.drop count) else none

/-- A date. -/
def date? (cs : List Char) : Option (Date × List Char) := do
  let (year, cs) ← exactly? 4 cs
  let (month, cs) ← exactly? 2 (← Text.after? ['-'] cs)
  let (day, cs) ← exactly? 2 (← Text.after? ['-'] cs)
  let date : Date := ⟨year, month, day⟩
  if date.isValid then some (date, cs) else none

/-- The text of a date. -/
def dateChars (d : Date) : List Char :=
  Text.padded 4 d.year.toNat ++ '-' :: Text.padded 2 d.month ++ '-' :: Text.padded 2 d.day

def dropTrailingZeros (ds : List Char) : List Char :=
  (ds.reverse.dropWhile (· == '0')).reverse

/-- The canonical text of a time of day, and what follows it: digits past the ninth and trailing
zeros are dropped from a fraction. -/
def timeChars? (cs : List Char) : Option (List Char × List Char) := do
  let (hour, cs) ← exactly? 2 cs
  let (minute, cs) ← exactly? 2 (← Text.after? [':'] cs)
  let (second, cs) ← exactly? 2 (← Text.after? [':'] cs)
  if hour > 23 || minute > 59 || second > 60 then none
  let whole := Text.padded 2 hour ++ ':' :: Text.padded 2 minute ++ ':' :: Text.padded 2 second
  match cs with
  | '.' :: cs => do
    let (ds, rest) ← Text.digits1? cs
    match dropTrailingZeros (ds.take 9) with
    | [] => pure (whole, rest)
    | ds => pure (whole ++ '.' :: ds, rest)
  | _ => pure (whole, cs)

/-- The canonical text of an offset, if there is one, and what follows. -/
def zoneChars? : List Char → Option (List Char × List Char)
  | c :: cs =>
    if c == 'Z' || c == 'z' then some (['Z'], cs)
    else if c == '+' || c == '-' then do
      let (hours, cs) ← exactly? 2 cs
      let (minutes, cs) ← exactly? 2 (← Text.after? [':'] cs)
      if hours > 23 || minutes > 59 then none
      pure (c :: Text.padded 2 hours ++ ':' :: Text.padded 2 minutes, cs)
    else some ([], c :: cs)
  | [] => some ([], [])

/-- The mark between a date and a time, if a time follows. -/
def timeStart? : List Char → Option (List Char)
  | c :: cs =>
    if c == 'T' || c == 't' then some cs
    else if c == ' ' && (cs.head?.map Char.isDigit).getD false then some cs
    else none
  | [] => none

/-- A date, a date with a time and perhaps an offset, or a time. -/
def datetime? (cs : List Char) : Option (Toml × List Char) :=
  match date? cs with
  | some (date, rest) =>
    match timeStart? rest with
    | some rest => do
      let (time, rest) ← timeChars? rest
      let (zone, rest) ← zoneChars? rest
      pure (.datetime (String.ofList (dateChars date ++ 'T' :: time ++ zone)), rest)
    | none => some (.datetime (String.ofList (dateChars date)), rest)
  | none => (timeChars? cs).map fun (time, rest) => (.datetime (String.ofList time), rest)

/-- Whether a text begins like a date or a time: four digits and a hyphen, or two and a colon. -/
def startsDatetime (cs : List Char) : Bool :=
  ((cs.take 4).all Char.isDigit && cs[4]? == some '-') || ((cs.take 2).all Char.isDigit && cs[2]? == some ':')

/-- A scalar: a text, a truth value, a date or a number. -/
def scalar? (cs : List Char) : Option (Toml × List Char) :=
  match cs with
  | '"' :: _ | '\'' :: _ => (text? cs).map fun (s, rest) => (.text (String.ofList s), rest)
  | 't' :: _ => (Text.after? ['t', 'r', 'u', 'e'] cs).map fun rest => (.boolean true, rest)
  | 'f' :: _ => (Text.after? ['f', 'a', 'l', 's', 'e'] cs).map fun rest => (.boolean false, rest)
  | _ => if startsDatetime cs then datetime? cs else number? cs

end Purse.Toml
