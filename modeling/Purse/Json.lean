import Purse.Decimal.Numeral

/-!
# JSON values

JSON values as they are written: a number is kept as a numeral, since what double or integer it
stands for depends on where it is used. A text whose escapes name half a surrogate pair has no
characters; it is kept as `none`, because such a text does no harm where it is not looked at.
-/

namespace Purse

/-- A JSON value. -/
inductive Json where
  | null
  | bool (b : Bool)
  | number (n : Numeral)
  | text (s : Option String)
  | array (items : List Json)
  | object (members : List (Option String × Json))

namespace Json

def ofString (s : String) : Json := text (some s)

/-- An integer. -/
def ofInt (n : Int) : Json := number (Numeral.ofInt n)

/-- An object with these members. -/
def ofMembers (members : List (String × Json)) : Json :=
  object (members.map fun m => (some m.1, m.2))

/-! ### Writing -/

/-- A character inside quotes: quotes, backslashes and control characters are escaped. -/
def escapeChar (c : Char) : List Char :=
  if c = '"' then ['\\', '"']
  else if c = '\\' then ['\\', '\\']
  else if c = '\n' then ['\\', 'n']
  else if c = '\r' then ['\\', 'r']
  else if c = '\t' then ['\\', 't']
  else if c = '\x08' then ['\\', 'b']
  else if c = '\x0c' then ['\\', 'f']
  else if c.toNat < 0x20 then '\\' :: 'u' :: Text.hexPadded 4 c.toNat
  else [c]

/-- A text in quotes. -/
def quoted (s : List Char) : List Char :=
  '"' :: s.flatMap escapeChar ++ ['"']

/-- The characters of a text value or of a member's name. -/
def textChars (s : Option String) : List Char :=
  quoted (s.getD "").toList

/-- The pieces with `between` between them. -/
def separated (between : List Char) : List (List Char) → List Char
  | [] => []
  | [piece] => piece
  | piece :: rest => piece ++ between ++ separated between rest

mutual

/-- **A value without any blanks.** -/
def compact : Json → List Char
  | null => ['n', 'u', 'l', 'l']
  | bool b => if b then ['t', 'r', 'u', 'e'] else ['f', 'a', 'l', 's', 'e']
  | number n => n.chars
  | text s => textChars s
  | array items => '[' :: separated [','] (compactItems items) ++ [']']
  | object members => '\x7b' :: separated [','] (compactMembers members) ++ ['\x7d']

/-- The items of an array without any blanks. -/
def compactItems : List Json → List (List Char)
  | [] => []
  | v :: rest => compact v :: compactItems rest

/-- The members of an object without any blanks. -/
def compactMembers : List (Option String × Json) → List (List Char)
  | [] => []
  | (k, v) :: rest => (textChars k ++ ':' :: compact v) :: compactMembers rest

end

/-- The text of a value without any blanks. -/
def compactText (v : Json) : String := String.ofList v.compact

/-- The start of a line at a depth of nesting. -/
def newline (depth : Nat) : List Char := '\n' :: List.replicate (2 * depth) ' '

/-- The pieces on lines of their own between two brackets. -/
def block (depth : Nat) (opening closing : Char) (pieces : List (List Char)) : List Char :=
  match pieces with
  | [] => [opening, closing]
  | _ =>
    opening :: newline (depth + 1) ++ separated (',' :: newline (depth + 1)) pieces ++ newline depth ++ [closing]

mutual

/-- **A value on several lines,** at a depth of nesting, each level indented by two blanks. -/
def indented (depth : Nat) : Json → List Char
  | array items => block depth '[' ']' (indentedItems (depth + 1) items)
  | object members => block depth '\x7b' '\x7d' (indentedMembers (depth + 1) members)
  | null => compact null
  | bool b => compact (bool b)
  | number n => compact (number n)
  | text s => compact (text s)

/-- The items of an array on several lines. -/
def indentedItems (depth : Nat) : List Json → List (List Char)
  | [] => []
  | v :: rest => indented depth v :: indentedItems depth rest

/-- The members of an object on several lines. -/
def indentedMembers (depth : Nat) : List (Option String × Json) → List (List Char)
  | [] => []
  | (k, v) :: rest => (textChars k ++ ':' :: ' ' :: indented depth v) :: indentedMembers depth rest

end

/-- The text of a value on several lines. -/
def indentedText (v : Json) : String := String.ofList (v.indented 0)

end Json

end Purse
