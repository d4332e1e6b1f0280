import PatternHooks.Json.Reading

/-!
Texts that say a value in full, whatever its shape.
-/

namespace PatternHooks.Json

/-- How deep lists and objects may be nested. -/
def maxDepth : Nat := 127

/-- Members by key; of members with one key the last stays. -/
def setMember (key : String) (j : Json) : List (String × Json) → List (String × Json)
  | [] => [(key, j)]
  | (k, i) :: ms => if k = key then (k, j) :: ms else (k, i) :: setMember key j ms

namespace Reading

mutual

/-- The value that a reading says, if nothing is wrong with it; `room` is how deep it may go. -/
def value? (room : Nat) : Reading → Option Json
  | .null => some .null
  | .flag b => some (.flag b)
  | .number (.ok n) _ => some (.number n)
  | .number (.error _) _ => none
  | .text (.ok s) _ => some (.text s)
  | .text (.error _) _ => none
  | .list items => match room with
    | 0 => none
    | room + 1 => (values? room items).map .list
  | .object members => match room with
    | 0 => none
    | room + 1 => (objectMembers? room [] members).map .object
  | .misspelt _ => none
  | .broken _ => none

def values? (room : Nat) : Items → Option (List Json)
  | .stop none => some []
  | .stop (some _) => none
  | .more r rest => do
    let j ← value? room r
    let js ← values? room rest
    return j :: js

/-- The members after those already known. -/
def objectMembers? (room : Nat) (known : List (String × Json)) :
    Members → Option (List (String × Json))
  | .stop none => some known
  | .stop (some _) => none
  | .more (.text (.ok key) _) r rest => do
    let j ← value? room r
    objectMembers? room (setMember key j known) rest
  | .more _ _ _ => none

end

end Reading

/-- The value that a whole text says. -/
def ofText? (text : String) : Option Json :=
  let d := Document.read text
  if d.trailing then none else d.root.value? maxDepth

end PatternHooks.Json
