import Purse.Settings.Value

/-!
# Settings from the environment

A variable of the environment whose name begins with `WALLET__`, in any case, overrides a setting:
the rest of its name, with a point for each double underscore, is the path to the setting. A path is
a name followed by further names, each after a point, and by places of lists in brackets; a text
that is no such path is taken as one plain name.
-/

namespace Purse.Setting

/-! ### Paths -/

/-- Whether a character may stand in a name of a path. -/
def isNameChar (c : Char) : Bool :=
  c.isAlpha || c.isDigit || c == ' ' || c == '_' || c == '-'

/-- A name at the front of a text, and what follows it. -/
def pathName? (cs : List Char) : Option (String × List Char) :=
  match cs.takeWhile isNameChar with
  | [] => none
  | word => some (String.ofList word, cs.drop word.length)

/-- An index with its closing bracket, and what follows. -/
def pathIndex? (cs : List Char) : Option (Int × List Char) :=
  let blankless (cs : List Char) : List Char := cs.dropWhile (· == ' ')
  let (negative, cs) : Bool × List Char := match blankless cs with
    | '-' :: cs => (true, cs)
    | cs => (false, cs)
  match Text.digits1? cs with
  | some (ds, rest) =>
    match blankless rest with
    | ']' :: rest => some (Binary64.signed negative (Text.natOfDigits ds), rest)
    | _ => none
  | none => none

/-- The names and places after the first name, over at most `fuel` of them. -/
def selectors? : (fuel : Nat) → List Char → Option (List Selector)
  | _, [] => some []
  | 0, _ => none
  | fuel + 1, '.' :: cs =>
    match pathName? cs with
    | some (k, rest) => (selectors? fuel rest).map (.name k :: ·)
    | none => none
  | fuel + 1, '[' :: cs =>
    match pathIndex? cs with
    | some (i, rest) => (selectors? fuel rest).map (.place i :: ·)
    | none => none
  | _, _ => none

/-- The path that a text writes. -/
def path (text : String) : List Selector :=
  match pathName? text.toList with
  | some (k, rest) =>
    match selectors? rest.length rest with
    | some selectors => .name k :: selectors
    | none => [.name text]
  | none => [.name text]

/-! ### Variables -/

/-- The start of the names of variables that are settings. -/
def variableStart : List Char := ['w', 'a', 'l', 'l', 'e', 't', '_', '_']

/-- The text with a point for each double underscore. -/
def pointed : List Char → List Char
  | '_' :: '_' :: cs => '.' :: pointed cs
  | c :: cs => c :: pointed cs
  | [] => []

/-- The text of the path that a variable's name means, if it means one. -/
def pathText? (name : String) : Option String :=
  (Text.after? variableStart (name.toList.map Char.toLower)).map fun cs => String.ofList (pointed cs)

/-- The value of a variable: a truth value, an integer or a number if its text is one, and otherwise
the text. -/
def ofVariable (s : String) : Setting :=
  if lower s = "true" then truth true
  else if lower s = "false" then truth false
  else
    match Numeral.readInt? s with
    | some n =>
      if Word.fitsSigned 63 n then whole n
      else ((Numeral.readDouble? s).map decimal).getD (text s)
    | none => ((Numeral.readDouble? s).map decimal).getD (text s)

/-- The tree with the settings of the environment laid over it. -/
def withEnvironment (environment : List (String × String)) (tree : Setting) : Setting :=
  environment.foldl (fun tree v =>
    match pathText? v.1 with
    | some p => setAt (ofVariable v.2) (path p) tree
    | none => tree) tree

/-- The tree with the entries of a document laid over it; a name there may be a path. -/
def withEntries (entries : List (String × Toml)) (tree : Setting) : Setting :=
  entries.foldl (fun tree e => setAt (ofToml e.2) (path e.1) tree) tree

end Purse.Setting
