import PatternHooks.Proofs.RegistryRoll
import PatternHooks.World

/-!
The calls that change a registry, with what they tell their caller. A change that succeeds decides
about the keys that it concerns and leaves the others. The hooks' own state is nothing to it.
-/

namespace PatternHooks.RegistryCalls

open RegistryRoll

variable {α β η ρ σ : Type}

inductive Change (η : Type) where
  | register (key : String) (hooks : η)
  | unregister (key : String)
  | clear
  deriving DecidableEq

/-- What a call tells its caller: whether a registration has succeeded or why it was refused, what
was removed from a key, or how many entries were removed. -/
inductive Reply (α : Type) where
  | registered (result : Except RegisterFault Unit)
  | removed (what : Option α)
  | emptied (count : ℕ)

def Reply.map (f : α → β) : Reply α → Reply β
  | registered result => registered result
  | removed what => removed (what.map f)
  | emptied count => emptied count

namespace Change

/-- What a change makes of a registry. A registration may be refused; nothing else can be. -/
def result? (r : Registry η) : Change η → Option (Registry η)
  | register key hooks => (r.register key hooks).toOption.map Prod.snd
  | unregister key => some (r.unregister key).2
  | clear => some r.clear.2

def apply (r : Registry η) (c : Change η) : Registry η := (c.result? r).getD r

/-- The key of a change that has one. -/
def key? : Change η → Option String
  | register key _ => some key
  | unregister key => some key
  | clear => none

/-- Whether a change is about what is under the key. -/
def concerns (key : String) : Change η → Bool
  | register other _ => other == key
  | unregister other => other == key
  | clear => true

def hooks? : Change η → Option η
  | register _ hooks => some hooks
  | _ => none

/-- A change as a client makes it. -/
def perform (w : World η σ) : Change η → Reply (Entry η) × World η σ
  | register key hooks => (.registered (w.register key hooks).1, (w.register key hooks).2)
  | unregister key => (.removed (w.unregister key).1, (w.unregister key).2)
  | clear => (.emptied w.clear.1, w.clear.2)

theorem registry_perform (c : Change η) (w : World η σ) :
    (c.perform w).2.registry = c.apply w.registry := by
  cases c with
  | register key hooks =>
    rw [perform, World.register, apply, result?]
    cases w.registry.register key hooks <;> rfl
  | unregister key => exact w.registry_unregister key
  | clear => exact w.registry_clear

theorem own_perform (c : Change η) (w : World η σ) : (c.perform w).2.own = w.own := by
  cases c with
  | register key hooks => exact w.own_register key hooks
  | unregister key => exact w.own_unregister key
  | clear => exact w.own_clear

end Change

/-- Hooks that take the place of others hold the key, and no other. -/
theorem lookup_substituted {r : Registry η} {other : String} {hooks : η}
    (htaken : r.contains other = true) (key : String) :
    ((r.substitute other hooks).lookup key).map (·.hooks) =
      if (Change.register other hooks).concerns key then some hooks
      else (r.lookup key).map (·.hooks) := by
  rw [Registry.lookup_substitute]
  cases hlookup : r.lookup key with
  | none =>
    have hne : other ≠ key := by
      rintro rfl
      rw [Registry.contains, hlookup] at htaken
      cases htaken
    simp [Change.concerns, hne]
  | some e =>
    have hkey : e.key = key := by simpa using List.find?_some hlookup
    subst hkey
    by_cases heq : other = e.key
    · simp [Change.concerns, heq]
    · simp [Change.concerns, heq, Ne.symm heq]

/-- A change that succeeds decides about the keys that it concerns. -/
theorem Change.lookup_of_result? {r r' : Registry η} {c : Change η} (h : c.result? r = some r')
    (key : String) : (r'.lookup key).map (·.hooks) =
      if c.concerns key then c.hooks? else (r.lookup key).map (·.hooks) := by
  cases c with
  | register other hooks =>
    cases hr : r.register other hooks with
    | error e => simp [result?, hr, Except.toOption] at h
    | ok answer =>
      obtain ⟨replaced, r''⟩ := answer
      obtain rfl : r'' = r' := by simpa [result?, hr, Except.toOption] using h
      cases replaced with
      | false =>
        obtain ⟨_, rfl⟩ := insert_of_register hr
        rw [Registry.lookup_insert]
        by_cases hkey : other = key <;> simp [hkey, concerns, hooks?]
      | true =>
        obtain ⟨htaken, rfl⟩ := substitute_of_register hr
        exact lookup_substituted htaken key
  | unregister other =>
    obtain rfl : (r.unregister other).2 = r' := Option.some.inj h
    rw [Registry.lookup_unregister]
    by_cases hkey : other = key
    · simp [hkey, concerns, hooks?]
    · simp [hkey, concerns]
  | clear =>
    obtain rfl : r.clear.2 = r' := Option.some.inj h
    rfl

theorem Change.lookup_apply_of_not_concerns (c : Change η) {r : Registry η} {key : String}
    (h : c.concerns key = false) :
    ((c.apply r).lookup key).map (·.hooks) = (r.lookup key).map (·.hooks) := by
  cases hc : c.result? r with
  | none => rw [Change.apply, hc, Option.getD_none]
  | some r' => simp [Change.apply, hc, Change.lookup_of_result? hc key, h]

/-- The world with another state of the hooks. -/
def owning (w : World η σ) (own : ρ) : World η ρ := ⟨w.registry, w.journal, own⟩

/-- A change comes to the same whatever the state of the hooks. -/
theorem Change.perform_owning (c : Change η) (w : World η σ) (own : ρ) :
    c.perform (owning w own) = ((c.perform w).1, owning (c.perform w).2 own) := by
  cases c with
  | register key hooks =>
    simp only [perform, World.register, owning]
    cases w.registry.register key hooks <;> rfl
  | unregister key =>
    simp only [perform, World.unregister, owning]
    cases w.registry.unregister key with
    | mk removed r => cases removed <;> rfl
  | clear =>
    by_cases hremoved : 0 < w.registry.clear.1
    · simp only [perform, World.clear, owning, hremoved, if_true]
      rfl
    · simp only [perform, World.clear, owning, hremoved, if_false]
      rfl

end PatternHooks.RegistryCalls
