import PatternHooks.Journal
import PatternHooks.MatchState
import PatternHooks.Registry

/-!
The world that hooks act on: the registry they are found in, the journal, and whatever state of
their own they keep. A call changes the world and then succeeds or fails; what it changed before it
failed stays changed.
-/

namespace PatternHooks

/-- `η` names hooks and `σ` holds their own state. -/
structure World (η σ : Type) where
  registry : Registry η
  journal : List Record := []
  own : σ

/-- What a hook does when it is called. -/
abbrev Effect (η σ : Type) := World η σ → Except Trouble Unit × World η σ

namespace World

variable {η σ : Type}

def write (w : World η σ) (r : Record) : World η σ := { w with journal := w.journal ++ [r] }

def setRegistry (w : World η σ) (r : Registry η) : World η σ := { w with registry := r }

def registered (key : String) (replaced : Bool) (policy : DuplicatePolicy) : Record :=
  Reporter.registry.record .info "Hook set registered"
    [("key", .text key), ("replaced", .flag replaced), ("policy", .text policy.name)]

def unregistered (key : String) : Record :=
  Reporter.registry.record .info "Hook set unregistered" [("key", .text key)]

def cleared (removed : Nat) : Record :=
  Reporter.registry.record .info "Hook registry cleared" [("removed", .count removed)]

/-- Registers hooks under a key; only a success leaves a record. -/
def register (w : World η σ) (key : String) (hooks : η) :
    Except RegisterFault Unit × World η σ :=
  match w.registry.register key hooks with
  | .error e => (.error e, w)
  | .ok (replaced, r) =>
    (.ok (), (w.setRegistry r).write (registered key replaced w.registry.policy))

/-- Removes the entry of a key; only a removal leaves a record. -/
def unregister (w : World η σ) (key : String) : Option (Entry η) × World η σ :=
  match w.registry.unregister key with
  | (none, r) => (none, w.setRegistry r)
  | (some e, r) => (some e, (w.setRegistry r).write (unregistered key))

/-- Removes all entries; only a removal leaves a record. -/
def clear (w : World η σ) : Nat × World η σ :=
  let (n, r) := w.registry.clear
  let w := w.setRegistry r
  (n, if 0 < n then w.write (cleared n) else w)

/-- Hands a match state to hooks. -/
def lend (w : World η σ) (s : MatchState) : World η (σ × MatchState) :=
  ⟨w.registry, w.journal, (w.own, s)⟩

/-- Takes the match state back. -/
def settle (w : World η (σ × MatchState)) : MatchState × World η σ :=
  (w.own.2, ⟨w.registry, w.journal, w.own.1⟩)

@[simp] theorem settle_lend (w : World η σ) (s : MatchState) : (w.lend s).settle = (s, w) := rfl

@[simp] theorem registry_write (w : World η σ) (r : Record) :
    (w.write r).registry = w.registry := rfl

@[simp] theorem fst_unregister (w : World η σ) (key : String) :
    (w.unregister key).1 = w.registry.lookup key := by
  cases h : w.registry.lookup key <;> simp [unregister, Registry.unregister, h]

@[simp] theorem registry_unregister (w : World η σ) (key : String) :
    (w.unregister key).2.registry = (w.registry.unregister key).2 := by
  cases h : w.registry.lookup key <;> simp [unregister, Registry.unregister, h, setRegistry]

@[simp] theorem fst_clear (w : World η σ) : w.clear.1 = w.registry.size := rfl

@[simp] theorem registry_clear (w : World η σ) : w.clear.2.registry = w.registry.clear.2 := by
  simp only [clear]
  split <;> rfl

@[simp] theorem own_write (w : World η σ) (r : Record) : (w.write r).own = w.own := rfl

@[simp] theorem own_register (w : World η σ) (key : String) (hooks : η) :
    (w.register key hooks).2.own = w.own := by
  unfold register
  split <;> rfl

@[simp] theorem own_unregister (w : World η σ) (key : String) :
    (w.unregister key).2.own = w.own := by
  unfold unregister
  split <;> rfl

@[simp] theorem own_clear (w : World η σ) : w.clear.2.own = w.own := by
  simp only [clear]
  split <;> rfl

end World

end PatternHooks
