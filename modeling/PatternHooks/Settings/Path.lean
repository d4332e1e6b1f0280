import PatternHooks.Number.Spelled
import PatternHooks.Settings.Tree

/-!
Paths as they are written: names joined by dots, and indices in brackets. A key that is not a path
is a name by itself.
-/

namespace PatternHooks.Settings.Path

open Text (isDigit)

def isNameLetter (c : Char) : Bool := c.isAlphanum || c == '_' || c == '-'

/-- A name of at least one letter. -/
def name? (cs : List Char) : Option (String × List Char) :=
  match cs.takeWhile isNameLetter with
  | [] => none
  | letters => some (String.ofList letters, cs.dropWhile isNameLetter)

def skipBlanks (cs : List Char) : List Char := cs.dropWhile fun c => c == ' ' || c == '\t'

/-- An index and its closing bracket; it may have a minus, but no plus. -/
def index? (cs : List Char) : Option (Int × List Char) :=
  let cs := skipBlanks cs
  let minus := cs.takeWhile (· == '-')
  let rest := cs.dropWhile (· == '-')
  match spelledInteger? (minus ++ rest.takeWhile isDigit), skipBlanks (rest.dropWhile isDigit) with
  | some i, ']' :: cs => some (i, cs)
  | _, _ => none

/-- The steps after the first. -/
def more? : Nat → List Char → Option (List Step)
  | _, [] => some []
  | 0, _ :: _ => none
  | fuel + 1, '.' :: cs => do
    let (n, cs) ← name? cs
    let path ← more? fuel cs
    return .key n :: path
  | fuel + 1, '[' :: cs => do
    let (i, cs) ← index? cs
    let path ← more? fuel cs
    return .index i :: path
  | _, _ => none

def ofExpression? (key : String) : Option (List Step) := do
  let (n, cs) ← name? key.toList
  let path ← more? cs.length cs
  return .key n :: path

/-- The path that a key stands for. -/
def ofKey (key : String) : List Step := (ofExpression? key).getD [.key key]

end PatternHooks.Settings.Path
