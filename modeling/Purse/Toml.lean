/-!
# TOML values

What a TOML document says: tables of named values. A date or a time is kept as its canonical text,
since nothing here computes with one.
-/

namespace Purse

/-- A TOML value. -/
inductive Toml where
  | boolean (b : Bool)
  | integer (n : Int)
  | float (x : Float)
  | text (s : String)
  | datetime (s : String)
  | array (items : List Toml)
  | table (entries : List (String × Toml))

end Purse
