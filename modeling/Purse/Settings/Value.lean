import Purse.Decimal.Layout
import Purse.Toml
import Purse.Word

/-!
# Values of settings

Settings come from several places and in several notations, so what a value stands for is decided
only where it is used: a number may be written as a text, a truth value as a number, and so on.
`Setting` is a value as it was found; the readers below say what it can stand for.

Values are put into a tree at a path. Groups are merged, everything else is replaced; names are
compared without regard to the case of their letters, and are ASCII.
-/

namespace Purse

/-- A value of settings as it was found. -/
inductive Setting where
  | nothing
  | truth (b : Bool)
  | whole (n : Int)
  | decimal (x : Float)
  | text (s : String)
  | list (items : List Setting)
  | group (entries : List (String × Setting))

namespace Setting

mutual

/-- A TOML value as a setting; a date is a text. -/
def ofToml : Toml → Setting
  | .boolean b => truth b
  | .integer n => whole n
  | .float x => decimal x
  | .text s => text s
  | .datetime s => text s
  | .array items => list (ofTomlItems items)
  | .table entries => group (ofTomlEntries entries)

def ofTomlItems : List Toml → List Setting
  | [] => []
  | v :: rest => ofToml v :: ofTomlItems rest

def ofTomlEntries : List (String × Toml) → List (String × Setting)
  | [] => []
  | (k, v) :: rest => (k, ofToml v) :: ofTomlEntries rest

end

/-! ### Putting values into a tree -/

/-- The name in lower-case letters. -/
def lower (s : String) : String := String.ofList (s.toList.map Char.toLower)

/-- The value of a name in a group. -/
def named? (k : String) : Setting → Option Setting
  | group es => (es.find? fun (e : String × Setting) => e.1 = k).map Prod.snd
  | _ => none

/-- Entries with the value of a name replaced, or added at the end. -/
def setNamed (k : String) (v : Setting) : List (String × Setting) → List (String × Setting)
  | [] => [(k, v)]
  | e :: es => if e.1 = k then (k, v) :: es else e :: setNamed k v es

/-- A group with the value of a name set; anything else becomes a group. -/
def put (s : Setting) (k : String) (v : Setting) : Setting :=
  match s with
  | group es => group (setNamed k v es)
  | _ => group [(k, v)]

mutual

/-- What a name has after a value is laid over what it had: a group is merged, anything else
replaces. -/
def overlay (target : Option Setting) : Setting → Setting
  | group es => overlayEntries (target.getD (group [])) es
  | v => v

/-- A value with entries laid over it, one after another. -/
def overlayEntries (target : Setting) : List (String × Setting) → Setting
  | [] => target
  | (k, v) :: rest =>
    overlayEntries (target.put (lower k) (overlay (target.named? (lower k)) v)) rest

end

/-- One step on the way to a value: a name in a group, or a place in a list. -/
inductive Selector where
  | name (k : String)
  | place (i : Int)
deriving DecidableEq, Repr

/-- The place that an index means in a list; a negative one counts from the end. -/
def placeIn (length : Nat) (i : Int) : Nat :=
  if 0 ≤ i then i.toNat else length - i.natAbs

/-- The items of a list with the one at a place changed; missing ones are filled up with nothing. -/
def changeItem (i : Nat) (f : Setting → Setting) (items : List Setting) : List Setting :=
  (items ++ List.replicate (i + 1 - items.length) nothing).modify i f

/-- **Setting the value at a path.** What stands on the way and is no group, or no list, becomes
one. -/
def setAt (v : Setting) : List Selector → Setting → Setting
  | [], _ => v
  | [.name k], s => s.put (lower k) (overlay (s.named? (lower k)) v)
  | .name k :: rest, s => s.put (lower k) (setAt v rest ((s.named? (lower k)).getD nothing))
  | .place i :: rest, s =>
    let items := match s with
      | list items => items
      | _ => []
    list (changeItem (placeIn items.length i) (setAt v rest) items)

/-! ### What a value can stand for -/

/-- The words for yes. -/
def isYes (s : String) : Bool := ["true", "on", "yes"].contains (lower s)

/-- The words for no. -/
def isNo (s : String) : Bool := ["false", "off", "no"].contains (lower s)

/-- A natural number that fits a word of `bits` bits: a fraction is rounded, yes is one and no is
zero, and a text may hold a number or such a word. -/
def nat? (bits : Nat) (v : Setting) : Option Nat :=
  let n : Option Nat := match v with
    | whole n => if 0 ≤ n then some n.toNat else none
    | decimal x => some ((Binary64.ofFloat x).clampToNat (Word.greatest 64))
    | truth b => some (if b then 1 else 0)
    | text s =>
      if isYes s then some 1
      else if isNo s then some 0
      else if s.startsWith "-" then none
      else
        match Numeral.readInt? s with
        | some n => if n.toNat ≤ Word.greatest 64 then some n.toNat else none
        | none => none
    | _ => none
  match n with
  | some n => if n ≤ Word.greatest bits then some n else none
  | none => none

/-- A double: yes is one and no is zero, and a text may hold a number or such a word. -/
def float? : Setting → Option Float
  | whole n => some (Float.ofInt n)
  | decimal x => some x
  | truth b => some (if b then 1.0 else 0.0)
  | text s =>
    if isYes s then some 1.0
    else if isNo s then some 0.0
    else Numeral.readDouble? s
  | _ => none

/-- A truth value: a number that is not zero is yes. -/
def bool? : Setting → Option Bool
  | truth b => some b
  | whole n => some (n ≠ 0)
  | decimal x => some (x != 0.0)
  | text s =>
    if isYes s || s = "1" then some true
    else if isNo s || s = "0" then some false
    else none
  | _ => none

/-- A text: numbers and truth values are written out. -/
def text? : Setting → Option String
  | text s => some s
  | whole n => some (String.ofList (Text.integer n))
  | decimal x => some (rateText x)
  | truth b => some (if b then "true" else "false")
  | _ => none

/-- A name out of a fixed set, in any case: a text, or the name of the only entry of a group. -/
def name? {α : Type} (names : List (String × α)) (v : Setting) : Option α :=
  let found (s : String) : Option α :=
    (names.find? fun (e : String × α) => lower e.1 = lower s).map Prod.snd
  match v with
  | text s => found s
  | group [(s, _)] => found s
  | _ => none

/-- A value that may be nothing. -/
def optional? {α : Type} (read : Setting → Option α) : Setting → Option (Option α)
  | nothing => some none
  | v => (read v).map some

/-- A list of values. -/
def list? {α : Type} (read : Setting → Option α) : Setting → Option (List α)
  | list items => items.mapM read
  | _ => none

/-- **The members of a record,** one for each name in order, where one may be missing: the entries
of a group, or the items of a list in order. What there is too much is ignored. -/
def record? (names : List String) : Setting → Option (List (Option Setting))
  | group es => some (names.map fun k => named? k (group es))
  | list items => some (((items.map some) ++ List.replicate (names.length - items.length) none).take names.length)
  | _ => none

/-- A member that must be there. -/
def required? {α : Type} (read : Setting → Option α) (member : Option Setting) : Option α :=
  member.bind read

/-- A member that has a value even if it is not there. -/
def defaulted? {α : Type} (read : Setting → Option α) (fallback : α) : Option Setting → Option α
  | none => some fallback
  | some v => read v

end Setting

end Purse
