import PatternHooks.Json.Value
import PatternHooks.Settings.Path
import PatternHooks.Text.Bytes
import PatternHooks.Text.LowerCase
import PatternHooks.Toml.Value

/-!
Layers of settings: the members of a file, or the variables of an environment. A layer is put over
those before it one key after another.
-/

namespace PatternHooks.Settings

abbrev Layer := List (String × Tree)

namespace Layer

/-- Puts the layer over a tree; each key is a path into it. -/
def onto (layer : Layer) (under : Tree) : Tree :=
  layer.foldl (fun t (key, child) => t.put (Path.ofKey key) child) under

/-- The tree of layers that lie over one another. -/
def stack (layers : List Layer) : Tree := layers.foldl (fun t layer => layer.onto t) .empty

end Layer

namespace Tree

mutual

def ofToml (origin : Option String) : Toml.Value → Tree
  | .flag b => .scalar origin (.flag b)
  | .integer n => .scalar origin (.integer n)
  | .real x => .scalar origin (.real x)
  | .text s => .scalar origin (.text s)
  | .list items => .list origin (ofTomlItems origin items)
  | .table members => .table origin (ofTomlMembers origin members)

def ofTomlItems (origin : Option String) : List Toml.Value → List Tree
  | [] => []
  | v :: items => ofToml origin v :: ofTomlItems origin items

def ofTomlMembers (origin : Option String) : List (String × Toml.Value) → List (String × Tree)
  | [] => []
  | (key, v) :: members => (key, ofToml origin v) :: ofTomlMembers origin members

end

def ofNumeral (origin : Option String) : Numeral → Tree
  | .whole n => .scalar origin (.integer n)
  | .real x => .scalar origin (.real x)

mutual

def ofJson (origin : Option String) : Json → Tree
  | .null => .scalar origin .nil
  | .flag b => .scalar origin (.flag b)
  | .number n => ofNumeral origin n
  | .text s => .scalar origin (.text s)
  | .list items => .list origin (ofJsonItems origin items)
  | .object members => .table origin (ofJsonMembers origin members)

def ofJsonItems (origin : Option String) : List Json → List Tree
  | [] => []
  | j :: items => ofJson origin j :: ofJsonItems origin items

def ofJsonMembers (origin : Option String) : List (String × Json) → List (String × Tree)
  | [] => []
  | (key, j) :: members => (key, ofJson origin j) :: ofJsonMembers origin members

end

end Tree

namespace Variable

/-- Two low lines within the name of a variable stand for a dot. -/
def dotted : List Char → List Char
  | '_' :: '_' :: cs => '.' :: dotted cs
  | c :: cs => c :: dotted cs
  | [] => []

def lead : List Char := "rehook__".toList

/-- The key that a variable sets, if its name has the right beginning, in any case. -/
def key? (name : String) : Option String :=
  (Text.strip? lead (Text.lower name).toList).map fun cs => String.ofList (dotted cs)

theorem key?_eq_none {name : String} (h : ¬ "rehook__".toList <+: (Text.lower name).toList) :
    key? name = none := by
  have hstrip : Text.strip? lead (Text.lower name).toList = none := Text.strip?_eq_none h
  simp only [key?, hstrip, Option.map_none]

/-- The value of a variable: a flag, a number or a text. -/
def scalar (value : String) : Scalar :=
  let word := Text.lower value
  if word = "true" then .flag true
  else if word = "false" then .flag false
  else match spelledInteger? value.toList, Binary64.spelled? value.toList with
    | some n, _ => .integer n
    | none, some x => .real x
    | none, none => .text value

def origin : String := "the environment"

end Variable

/-- The layer of the variables of an environment. -/
def Layer.ofEnvironment (environment : List (String × String)) : Layer :=
  environment.filterMap fun (name, value) =>
    (Variable.key? name).map (·, .scalar (some Variable.origin) (Variable.scalar value))

end PatternHooks.Settings
