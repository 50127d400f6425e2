import Purse.Toml.Scalar

/-!
# TOML documents

A document is a list of lines: `key = value` entries, and headers that say into which table the
following entries go. `Toml.parse?` reads the lines one after another into a tree of `Node`s. A node
remembers how it came to be, because that decides what may still be added to it: a table that a
header has opened is not opened again, one that came to be by dotted keys is extended by dotted keys
only, and a value is never extended.
-/

namespace Purse.Toml

/-! ### Keys and values -/

/-- Whether a character may stand in a key without quotes. -/
def isKeyChar (c : Char) : Bool :=
  c.isAlpha || c.isDigit || c == '-' || c == '_'

/-- One part of a key: a bare word, or a text in quotes. -/
def keyPart? (cs : List Char) : Option (String × List Char) :=
  match lineText? cs with
  | some (s, rest) => some (String.ofList s, rest)
  | none =>
    match cs.takeWhile isKeyChar with
    | [] => none
    | word => some (String.ofList word, cs.drop word.length)

/-- A key: parts with points between them. Blanks may stand around each part. -/
def key? : (fuel : Nat) → List Char → Option (List String × List Char)
  | 0, _ => none
  | fuel + 1, cs =>
    match keyPart? (dropSpaces cs) with
    | none => none
    | some (part, rest) =>
      match dropSpaces rest with
      | '.' :: rest => (key? fuel rest).map fun (parts, rest) => (part :: parts, rest)
      | rest => some ([part], rest)

/-- How a table came to be. -/
inductive Origin where
  /-- A header has opened it, or it is the whole document or stands in braces. -/
  | opened
  /-- A header has named it on the way to another table. -/
  | passed
  /-- A dotted key has named it. -/
  | dotted
deriving DecidableEq

/-- A named part of a document under construction. -/
inductive Node where
  | value (v : Toml)
  | table (origin : Origin) (entries : List (String × Node))
  /-- The tables of one header in double brackets, the latest first. -/
  | tables (items : List (List (String × Node)))

/-- The entries of a table under construction. -/
abbrev Entries := List (String × Node)

/-- The entries with the node of one name replaced, or added at the end. -/
def setNamed (k : String) (n : Node) : Entries → Entries
  | [] => [(k, n)]
  | (j, m) :: es => if j = k then (k, n) :: es else (j, m) :: setNamed k n es

def named? (k : String) (es : Entries) : Option Node :=
  (es.find? fun (e : String × Node) => e.1 = k).map Prod.snd

/-- Adding `key = value` where the key may be dotted. The last part must be new, and the table that
it is added to must have come to be by dotted keys; a table further up may also have been passed by
headers. -/
def addDotted? (v : Toml) : List String → Entries → Option Entries
  | [], _ => none
  | [k], es => if (named? k es).isSome then none else some (setNamed k (.value v) es)
  | k :: j :: rest, es =>
    match named? k es with
    | none => (addDotted? v (j :: rest) []).map fun inner => setNamed k (.table .dotted inner) es
    | some (.table origin inner) =>
      if origin = .dotted || (origin = .passed && !rest.isEmpty) then
        (addDotted? v (j :: rest) inner).map fun inner => setNamed k (.table origin inner) es
      else none
    | some (.tables (last :: earlier)) =>
      if rest.isEmpty then none
      else (addDotted? v (j :: rest) last).map fun inner => setNamed k (.tables (inner :: earlier)) es
    | some _ => none

/-- Changing the table at a path of a document by `f`, which is given the entries of that table.
Tables on the way come to be by being passed; of several tables under one name the latest is
meant. -/
def atPath? (f : Entries → Option Entries) : List String → Entries → Option Entries
  | [], es => f es
  | k :: rest, es =>
    match named? k es with
    | none => (atPath? f rest []).map fun inner => setNamed k (.table .passed inner) es
    | some (.table origin inner) =>
      (atPath? f rest inner).map fun inner => setNamed k (.table origin inner) es
    | some (.tables (last :: earlier)) =>
      (atPath? f rest last).map fun inner => setNamed k (.tables (inner :: earlier)) es
    | some _ => none

/-- Opening a table: it must be new, or only passed so far. -/
def openTable? (k : String) (es : Entries) : Option Entries :=
  match named? k es with
  | none => some (setNamed k (.table .opened []) es)
  | some (.table .passed inner) => some (setNamed k (.table .opened inner) es)
  | some _ => none

/-- Opening one more table of a list of tables. -/
def openNext? (k : String) (es : Entries) : Option Entries :=
  match named? k es with
  | none => some (setNamed k (.tables [[]]) es)
  | some (.tables items) => some (setNamed k (.tables ([] :: items)) es)
  | some _ => none

mutual

/-- The value of a node. -/
def freeze : Node → Toml
  | .value v => v
  | .table _ es => .table (freezeEntries es)
  | .tables items => .array (freezeItems items).reverse

/-- The values of named nodes. -/
def freezeEntries : List (String × Node) → List (String × Toml)
  | [] => []
  | (k, n) :: es => (k, freeze n) :: freezeEntries es

/-- The values of a list of tables. -/
def freezeItems : List (List (String × Node)) → List Toml
  | [] => []
  | es :: rest => .table (freezeEntries es) :: freezeItems rest

end

/-- How deep arrays and tables in braces may be nested. -/
def nestingLimit : Nat := 79

mutual

/-- A value at the front of a text, which may be nested `depth` levels deep, and what follows it. -/
def value? : (fuel depth : Nat) → List Char → Option (Toml × List Char)
  | 0, _, _ => none
  | fuel + 1, depth, cs =>
    match cs, depth with
    | '[' :: rest, depth + 1 => (items? fuel depth rest).map fun (vs, rest) => (.array vs, rest)
    | '\x7b' :: rest, depth + 1 =>
      match dropSpaces rest with
      | '\x7d' :: rest => some (.table [], rest)
      | rest => (inline? fuel depth [] rest).map fun (es, rest) => (.table (freezeEntries es), rest)
    | cs, _ => scalar? cs

/-- The items of an array and its closing bracket. They may stand on several lines, and a comma may
follow the last. -/
def items? : (fuel depth : Nat) → List Char → Option (List Toml × List Char)
  | 0, _, _ => none
  | fuel + 1, depth, cs =>
    match dropLines (cs.length + 1) cs with
    | ']' :: rest => some ([], rest)
    | cs =>
      match value? fuel depth cs with
      | none => none
      | some (v, rest) =>
        match dropLines (rest.length + 1) rest with
        | ',' :: rest => (items? fuel depth rest).map fun (vs, rest) => (v :: vs, rest)
        | ']' :: rest => some ([v], rest)
        | _ => none

/-- The entries of a table in braces that is not empty, added to those before, and its closing
brace. They stand on one line, and no comma follows the last. -/
def inline? : (fuel depth : Nat) → Entries → List Char → Option (Entries × List Char)
  | 0, _, _, _ => none
  | fuel + 1, depth, es, cs =>
    match key? (cs.length + 1) cs with
    | some (key, '=' :: rest) =>
      match value? fuel depth (dropSpaces rest) with
      | none => none
      | some (v, rest) =>
        match addDotted? v key es with
        | none => none
        | some es =>
          match dropSpaces rest with
          | ',' :: rest => inline? fuel depth es rest
          | '\x7d' :: rest => some (es, rest)
          | _ => none
    | _ => none

end

/-! ### Lines -/

/-- A document under construction: its entries, and where the following ones go. -/
structure Draft where
  entries : Entries
  path : List String

namespace Draft

/-- Adding an entry to the table that was opened last. -/
def add? (d : Draft) (key : List String) (v : Toml) : Option Draft :=
  (atPath? (addDotted? v key) d.path d.entries).map fun entries => { d with entries }

/-- Opening the table that a header names, by `open?` in the table around it. -/
def header? (d : Draft) (open? : String → Entries → Option Entries) (key : List String) : Option Draft :=
  match key.getLast? with
  | none => none
  | some k => (atPath? (open? k) key.dropLast d.entries).map fun entries => ⟨entries, key⟩

end Draft

/-- One line that is not blank: a header in single or double brackets, or an entry. -/
def line? (d : Draft) (cs : List Char) : Option (Draft × List Char) :=
  match cs with
  | '[' :: '[' :: rest =>
    match key? (rest.length + 1) rest with
    | some (key, ']' :: ']' :: rest) => (d.header? openNext? key).map fun d => (d, rest)
    | _ => none
  | '[' :: rest =>
    match key? (rest.length + 1) rest with
    | some (key, ']' :: rest) => (d.header? openTable? key).map fun d => (d, rest)
    | _ => none
  | cs =>
    match key? (cs.length + 1) cs with
    | some (key, '=' :: rest) =>
      match value? (rest.length + 1) nestingLimit (dropSpaces rest) with
      | some (v, rest) => (d.add? key v).map fun d => (d, rest)
      | none => none
    | _ => none

/-- All lines, at most `fuel` of them. -/
def lines? : (fuel : Nat) → Draft → List Char → Option Draft
  | 0, _, _ => none
  | fuel + 1, d, cs =>
    match dropLines (cs.length + 1) cs with
    | [] => some d
    | cs =>
      match line? d cs with
      | none => none
      | some (d, rest) =>
        match restOfLine? rest with
        | none => none
        | some rest => lines? fuel d rest

/-- **The table that a whole document describes.** A byte order mark may stand in front. -/
def parse? (text : String) : Option (List (String × Toml)) :=
  let cs := match text.toList with
    | '\uFEFF' :: cs => cs
    | cs => cs
  (lines? (cs.length + 1) ⟨[], []⟩ cs).map fun d => freezeEntries d.entries

end Purse.Toml
