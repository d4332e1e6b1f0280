import PatternHooks.Number.Shortest
import PatternHooks.Settings.Tree
import PatternHooks.Settings.Types
import PatternHooks.Text.LowerCase
import PatternHooks.Text.Quoted

/-!
Settings read from a tree. Every setting that is not there has its default; one that is there must
fit its type, and the first that does not is complained about.
-/

namespace PatternHooks.Settings

/-- What was found where something else belongs. -/
inductive Found where
  | nothing
  | flag (b : Bool)
  | integer (n : Int)
  | real (x : Binary64)
  | text (s : String)
  | list
  | table
  deriving DecidableEq

/-- What a place is for. -/
inductive Wanted where
  | flag
  | text
  | part (title : String)
  deriving DecidableEq

/-- Why a value does not fit its place. -/
inductive Misfit where
  | kind (found : Found) (wanted : Wanted)
  | unknownPolicy (name : String)
  | noPolicy
  deriving DecidableEq

structure Complaint where
  misfit : Misfit
  place : String
  origin : Option String := none
  deriving DecidableEq

def Found.message : Found → String
  | nothing => "unit value"
  | flag b => "boolean " ++ Text.ticked (if b then "true" else "false")
  | integer n => "integer " ++ Text.ticked (toString n)
  | real x => "floating point " ++ Text.ticked x.decimal
  | text s => "string " ++ Text.quoted s
  | list => "sequence"
  | table => "map"

def Wanted.message : Wanted → String
  | flag => "a boolean"
  | text => "a string"
  | part title => "struct " ++ title

def Misfit.message : Misfit → String
  | kind found wanted => "invalid type: " ++ found.message ++ ", expected " ++ wanted.message
  | unknownPolicy name => "enum DuplicatePolicy does not have variant constructor " ++ name
  | noPolicy =>
    "value of enum DuplicatePolicy should be represented by either string or table with exactly " ++
      "one key"

def Complaint.message (c : Complaint) : String :=
  c.misfit.message ++ " for key " ++ Text.ticked c.place ++
    match c.origin with
    | some origin => " in " ++ origin
    | none => ""

namespace Tree

def found : Tree → Found
  | scalar _ .nil => .nothing
  | scalar _ (.flag b) => .flag b
  | scalar _ (.integer n) => .integer n
  | scalar _ (.real x) => .real x
  | scalar _ (.text s) => .text s
  | list .. => .list
  | table .. => .table

/-- The flag that a word stands for. -/
def flagOfWord? (word : String) : Option Bool :=
  if ["1", "true", "on", "yes"].contains word then some true
  else if ["0", "false", "off", "no"].contains word then some false
  else none

/-- A value as a flag: a number stands for whether it is other than zero, and some words are known
in any case. -/
def flag : Tree → Except Misfit Bool
  | scalar _ (.flag b) => .ok b
  | scalar _ (.integer n) => .ok (n != 0)
  | scalar _ (.real x) => .ok (!x.isZero)
  | scalar _ (.text s) =>
    match flagOfWord? (Text.lower s) with
    | some b => .ok b
    | none => .error (.kind (.text (Text.lower s)) .flag)
  | t => .error (.kind t.found .flag)

/-- A value as a text: flags and numbers are written out. -/
def text : Tree → Except Misfit String
  | scalar _ (.text s) => .ok s
  | scalar _ (.flag b) => .ok (if b then "true" else "false")
  | scalar _ (.integer n) => .ok (toString n)
  | scalar _ (.real x) => .ok x.plain
  | t => .error (.kind t.found .text)

def policyNamed (name : String) : Except Misfit DuplicatePolicy :=
  match [DuplicatePolicy.reject, .replace].find? (·.name == name) with
  | some p => .ok p
  | none => .error (.unknownPolicy name)

/-- A value as a policy: its name, or a table with its name as the only key. -/
def policy : Tree → Except Misfit DuplicatePolicy
  | scalar _ (.text s) => policyNamed s
  | table _ [(key, _)] => policyNamed key
  | _ => .error .noPolicy

end Tree

/-- A member of a part of the settings: its name, or its position where the part is a list, how it
is read, and what it is when it is not there. -/
structure Leaf (α : Type) where
  name : String
  position : Nat
  read : Tree → Except Misfit α
  fallback : α
  /-- Whether complaints tell where the value comes from. -/
  traced : Bool

namespace Leaf

variable {α : Type}

/-- The place of a leaf and what stands there, if anything does. -/
def find? (leaf : Leaf α) (place : String) (part : Tree) : Option (String × Tree) :=
  match part with
  | .table _ members => (members.lookup leaf.name).map (place ++ "." ++ leaf.name, ·)
  | .list _ items => items[leaf.position]?.map (place ++ "[" ++ toString leaf.position ++ "]", ·)
  | .scalar .. => none

def value (leaf : Leaf α) (place : String) (part : Tree) : Except Complaint α :=
  match leaf.find? place part with
  | none => .ok leaf.fallback
  | some (place, t) =>
    (leaf.read t).mapError fun m => ⟨m, place, if leaf.traced then t.origin else none⟩

end Leaf

def onDuplicate : Leaf DuplicatePolicy := ⟨"on_duplicate", 0, Tree.policy, .reject, false⟩

def fatalErrors : Leaf Bool := ⟨"fatal_errors", 1, Tree.flag, true, true⟩

def level : Leaf String := ⟨"level", 0, Tree.text, "info", true⟩

def format : Leaf String := ⟨"format", 1, Tree.text, "pretty", true⟩

/-- A part of the settings must be a table or a list. -/
def expectPart (place title : String) (t : Tree) : Except Complaint Unit :=
  match t with
  | .scalar .. => .error { misfit := .kind t.found (.part title), place }
  | _ => .ok ()

def hooksOf (t : Tree) : Except Complaint HookSettings := do
  expectPart "hooks" "HooksConfig" t
  return ⟨← onDuplicate.value "hooks" t, ← fatalErrors.value "hooks" t⟩

def loggingOf (t : Tree) : Except Complaint LogSettings := do
  expectPart "logging" "LoggingConfig" t
  return ⟨← level.value "logging" t, ← format.value "logging" t⟩

/-- The settings that a tree stands for. -/
def ofTree (t : Tree) : Except Complaint Settings := do
  let hooks ← (t.member? "hooks").elim (.ok {}) hooksOf
  let logging ← (t.member? "logging").elim (.ok {}) loggingOf
  return ⟨hooks, logging⟩

end PatternHooks.Settings
