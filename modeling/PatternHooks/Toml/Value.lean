import PatternHooks.Number.Binary64

/-!
Values of TOML documents. Dates and times are kept as texts, in their one written form.
-/

namespace PatternHooks.Toml

inductive Value where
  | flag (b : Bool)
  | integer (n : Int)
  | real (x : Binary64)
  | text (s : String)
  | list (items : List Value)
  | table (members : List (String × Value))
  deriving Inhabited

/-- A key with the keys of the tables on the way to it. -/
structure Key where
  parents : List String
  name : String
  deriving DecidableEq

/-- What a line of a document does: it opens a table, adds a row to an array of tables, or gives a
key of the open table its value. -/
inductive Line where
  | header (k : Key)
  | row (k : Key)
  | pair (k : Key) (v : Value)

end PatternHooks.Toml
