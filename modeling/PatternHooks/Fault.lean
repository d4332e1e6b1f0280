/-!
Failures as data. A fault has a kind, a message and the accounts of what caused it, outermost
first. Trouble is what a hook reports: an account, and the accounts below it.
-/

namespace PatternHooks

inductive FaultKind where
  | invalidKey
  | duplicateKey
  | hookFailed
  | validation
  | notFound
  | configuration
  | internal
  deriving DecidableEq

namespace FaultKind

def all : List FaultKind :=
  [.invalidKey, .duplicateKey, .hookFailed, .validation, .notFound, .configuration, .internal]

def label : FaultKind → String
  | invalidKey => "INVALID_KEY"
  | duplicateKey => "DUPLICATE_KEY"
  | hookFailed => "HOOK_FAILED"
  | validation => "VALIDATION"
  | notFound => "NOT_FOUND"
  | configuration => "CONFIGURATION"
  | internal => "INTERNAL"

end FaultKind

/-- A failure reported by a hook. -/
structure Trouble where
  account : String
  causes : List String := []
  deriving DecidableEq

namespace Trouble

def accounts (t : Trouble) : List String := t.account :: t.causes

/-- All accounts on one line, outermost first. -/
def render (t : Trouble) : String := ": ".intercalate t.accounts

/-- The same trouble under an account of what was being done. -/
def within (context : String) (t : Trouble) : Trouble := ⟨context, t.accounts⟩

@[simp] theorem accounts_within (context : String) (t : Trouble) :
    (t.within context).accounts = context :: t.accounts := rfl

end Trouble

structure Fault where
  kind : FaultKind
  message : String
  causes : List String := []
  deriving DecidableEq

namespace Fault

def display (f : Fault) : String := f.kind.label ++ ": " ++ f.message

def isKind (f : Fault) (k : FaultKind) : Bool := f.kind = k

/-- A copy keeps the kind and the message and forgets the causes. -/
def copy (f : Fault) : Fault := { f with causes := [] }

/-- A fault as a hook passes it on. -/
def toTrouble (f : Fault) : Trouble := ⟨f.display, f.causes⟩

/-- A fault of the given kind caused by the trouble. -/
def causedBy (kind : FaultKind) (message : String) (t : Trouble) : Fault :=
  ⟨kind, message, t.accounts⟩

end Fault

end PatternHooks
