import PatternHooks.Fault
import PatternHooks.Settings.Types
import PatternHooks.Text.Blank
import PatternHooks.Text.Quoted

/-!
The registry of hooks by key. Entries are kept in no particular order; the order of registration is
told by sequence numbers, which are never given twice. A replaced entry keeps its number.
-/

namespace PatternHooks

structure Entry (η : Type) where
  key : String
  hooks : η
  sequence : Nat

structure Registry (η : Type) where
  policy : DuplicatePolicy
  entries : List (Entry η) := []
  nextSequence : Nat := 0

/-- Why a registration is refused. -/
inductive RegisterFault where
  | emptyKey
  | unusableKey (key : String)
  | taken (key : String)
  deriving DecidableEq

def RegisterFault.toFault : RegisterFault → Fault
  | emptyKey => ⟨.invalidKey, "Hook key must not be empty", []⟩
  | unusableKey key =>
    ⟨.invalidKey,
      "Hook key '" ++ Text.escaped key ++ "' contains whitespace or control characters", []⟩
  | taken key => ⟨.duplicateKey, "Hook key '" ++ key ++ "' is already registered", []⟩

namespace Registry

variable {η : Type}

def empty (policy : DuplicatePolicy) : Registry η := { policy }

def lookup (r : Registry η) (key : String) : Option (Entry η) := r.entries.find? (·.key == key)

def contains (r : Registry η) (key : String) : Bool := (r.lookup key).isSome

def size (r : Registry η) : Nat := r.entries.length

def isEmpty (r : Registry η) : Bool := r.entries.isEmpty

/-- The keys in the order of registration. -/
def keys (r : Registry η) : List String :=
  (r.entries.mergeSort fun a b => a.sequence ≤ b.sequence).map (·.key)

/-- A key is not empty and holds neither white space nor control characters. -/
def checkKey (key : String) : Except RegisterFault Unit :=
  if key = "" then .error .emptyKey
  else if key.toList.any fun c => Text.isBlank c || Text.isControl c then
    .error (.unusableKey key)
  else .ok ()

/-- Adds an entry for a key that has none. -/
def insert (r : Registry η) (key : String) (hooks : η) : Registry η :=
  { r with
    entries := ⟨key, hooks, r.nextSequence⟩ :: r.entries
    nextSequence := r.nextSequence + 1 }

/-- Puts other hooks into the entry of a key. -/
def substitute (r : Registry η) (key : String) (hooks : η) : Registry η :=
  { r with entries := r.entries.map fun e => if e.key = key then { e with hooks } else e }

/-- Registers hooks under a key, and tells whether they took the place of others. -/
def register (r : Registry η) (key : String) (hooks : η) :
    Except RegisterFault (Bool × Registry η) :=
  match checkKey key with
  | .error e => .error e
  | .ok () =>
    if r.contains key then
      match r.policy with
      | .reject => .error (.taken key)
      | .replace => .ok (true, r.substitute key hooks)
    else .ok (false, r.insert key hooks)

/-- Removes the entry of a key, and gives it back if there was one. -/
def unregister (r : Registry η) (key : String) : Option (Entry η) × Registry η :=
  (r.lookup key, { r with entries := r.entries.filter (·.key != key) })

/-- Removes all entries, and tells how many they were. -/
def clear (r : Registry η) : Nat × Registry η := (r.size, { r with entries := [] })

@[simp] theorem lookup_empty (policy : DuplicatePolicy) (key : String) :
    (empty policy : Registry η).lookup key = none := rfl

theorem lookup_insert (r : Registry η) (key other : String) (hooks : η) :
    (r.insert key hooks).lookup other =
      if key = other then some ⟨key, hooks, r.nextSequence⟩ else r.lookup other := by
  by_cases h : key = other <;> simp [insert, lookup, h]

theorem lookup_substitute (r : Registry η) (key other : String) (hooks : η) :
    (r.substitute key hooks).lookup other =
      (r.lookup other).map fun e => if e.key = key then { e with hooks } else e := by
  simp only [substitute, lookup, List.find?_map]
  congr 2
  funext e
  simp only [Function.comp_apply]
  split <;> rfl

@[simp] theorem lookup_clear (r : Registry η) (key : String) : r.clear.2.lookup key = none := rfl

theorem lookup_unregister (r : Registry η) (key other : String) :
    (r.unregister key).2.lookup other = if key = other then none else r.lookup other := by
  simp only [unregister, lookup, List.find?_filter]
  by_cases h : key = other
  · subst h
    simp
  · rw [if_neg h]
    congr 1
    funext e
    by_cases he : e.key = other
    · simp [he, Ne.symm h]
    · simp [he]

end Registry

end PatternHooks
