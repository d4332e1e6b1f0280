import PatternHooks.Pattern
import PatternHooks.Registry

/-!
Scopes: the keys that a pattern about to be compiled will dispatch to, in the order in which they
were enabled.
-/

namespace PatternHooks

structure Scope where
  keys : List String := []
  deriving DecidableEq

namespace Scope

def empty : Scope := {}

/-- All keys of a registry, in the order of registration. -/
def all {η : Type} (r : Registry η) : Scope := ⟨r.keys⟩

def isEnabled (s : Scope) (key : String) : Bool := s.keys.contains key

/-- Enables a key, and tells whether it was not enabled before. -/
def enable (s : Scope) (key : String) : Bool × Scope :=
  if s.isEnabled key then (false, s) else (true, ⟨s.keys ++ [key]⟩)

def withKey (s : Scope) (key : String) : Scope := (s.enable key).2

/-- Disables a key, and tells whether it was enabled before. -/
def disable (s : Scope) (key : String) : Bool × Scope :=
  let kept := s.keys.filter (· != key)
  (kept.length != s.keys.length, ⟨kept⟩)

def size (s : Scope) : Nat := s.keys.length

def isEmpty (s : Scope) : Bool := s.keys.isEmpty

/-- A pattern that will dispatch to the keys enabled now. -/
def pattern (s : Scope) (id : PatternId) (time : Time.Instant) (source : String)
    (flags : PatternFlags) : Pattern :=
  ⟨id, source, flags, s.keys, time⟩

@[simp] theorem isEnabled_empty (key : String) : empty.isEnabled key = false := rfl

theorem isEnabled_iff (s : Scope) (key : String) : s.isEnabled key = true ↔ key ∈ s.keys := by
  simp [isEnabled]

theorem nodup_withKey {s : Scope} (h : s.keys.Nodup) (key : String) :
    (s.withKey key).keys.Nodup := by
  unfold withKey enable
  split
  · exact h
  · rename_i hk
    rw [isEnabled_iff] at hk
    exact List.nodup_append.mpr ⟨h, by simp, by rintro a ha b hb rfl; simp_all⟩

theorem nodup_disable {s : Scope} (h : s.keys.Nodup) (key : String) :
    (s.disable key).2.keys.Nodup :=
  h.filter _

end Scope

end PatternHooks
