import Mathlib.Data.List.Basic
import PatternHooks.Dispatch

/-!
Visits of keys. What becomes of a key is decided by its entry in the world that the visit finds, and
hooks are called in a visit once at most. Hooks may put each of their calls down in notes, with the
world they find and the world they leave, and act otherwise as before.
-/

namespace PatternHooks.Visits

open Dispatch

variable {η ρ σ μ : Type}

/-- The class of a key, decided by its entry in the world of its look-up, with the hooks that are
called for it and the world they leave. -/
inductive Decided (supports : η → Bool) (call : η → Effect η σ) (key : String) (w : World η σ) :
    Verdict → List η → World η σ → Prop
  | missing (hentry : w.registry.lookup key = none) :
      Decided supports call key w .missing [] w
  | unsupported {e : Entry η} (hentry : w.registry.lookup key = some e)
      (hs : supports e.hooks = false) : Decided supports call key w .unsupported [] w
  | fired {e : Entry η} {w' : World η σ} (hentry : w.registry.lookup key = some e)
      (hs : supports e.hooks = true) (hcall : call e.hooks w = (.ok (), w')) :
      Decided supports call key w .fired [e.hooks] w'
  | failed {e : Entry η} {t : Trouble} {w' : World η σ} (hentry : w.registry.lookup key = some e)
      (hs : supports e.hooks = true) (hcall : call e.hooks w = (.error t, w')) :
      Decided supports call key w (.failed t) [e.hooks] w'

section Decided
variable {supports : η → Bool} {call : η → Effect η σ} {key : String} {w : World η σ}

theorem exists_decided (supports : η → Bool) (call : η → Effect η σ) (key : String)
    (w : World η σ) : ∃ v called w', Decided supports call key w v called w' := by
  cases hentry : w.registry.lookup key with
  | none => exact ⟨_, _, _, .missing hentry⟩
  | some e =>
    cases hs : supports e.hooks with
    | false => exact ⟨_, _, _, .unsupported hentry hs⟩
    | true =>
      rcases hcall : call e.hooks w with ⟨⟨t⟩ | ⟨⟨⟩⟩, w'⟩
      · exact ⟨_, _, _, .failed hentry hs hcall⟩
      · exact ⟨_, _, _, .fired hentry hs hcall⟩

theorem Decided.consult_eq {v : Verdict} {called : List η} {w' : World η σ}
    (h : Decided supports call key w v called w') : consult supports call key w = (v, w') := by
  cases h with
  | missing hentry => simp [consult, hentry]
  | unsupported hentry hs => simp [consult, hentry, hs]
  | fired hentry hs hcall => simp [consult, hentry, hs, hcall]
  | failed hentry hs hcall => simp [consult, hentry, hs, hcall]

theorem Decided.unique {v₁ v₂ : Verdict} {called₁ called₂ : List η} {w₁ w₂ : World η σ}
    (h₁ : Decided supports call key w v₁ called₁ w₁)
    (h₂ : Decided supports call key w v₂ called₂ w₂) :
    v₁ = v₂ ∧ called₁ = called₂ ∧ w₁ = w₂ := by
  have heq : (v₁, w₁) = (v₂, w₂) := h₁.consult_eq.symm.trans h₂.consult_eq
  obtain ⟨rfl, rfl⟩ := Prod.mk.inj heq
  refine ⟨rfl, ?_, rfl⟩
  cases h₁ <;> cases h₂ <;> simp_all

end Decided

/-- A call of hooks, with the world that they find and the world that they leave. -/
structure Call (η ρ : Type) where
  hooks : η
  before : World η ρ
  result : Except Trouble Unit
  after : World η ρ

/-- A world whose hooks have notes beside their own state. -/
def withNotes (w : World η ρ) (notes : List μ) : World η (ρ × List μ) :=
  ⟨w.registry, w.journal, (w.own, notes)⟩

def withoutNotes (w : World η (ρ × List μ)) : World η ρ := ⟨w.registry, w.journal, w.own.1⟩

/-- The same hooks, which put each call down. -/
def noting (entry : Call η ρ → μ) (call : η → Effect η ρ) : η → Effect η (ρ × List μ) := fun h w =>
  let found := withoutNotes w
  match call h found with
  | (result, left) => (result, withNotes left (w.own.2 ++ [entry ⟨h, found, result, left⟩]))

/-- The same for hooks that are lent a match state. -/
def notingLent (entry : Call η (σ × MatchState) → μ) (call : η → Effect η (σ × MatchState)) :
    η → Effect η ((σ × List μ) × MatchState) := fun h w =>
  let (s, inner) := w.settle
  let found := (withoutNotes inner).lend s
  match call h found with
  | (result, left) =>
    let (t, outer) := left.settle
    (result, (withNotes outer (inner.own.2 ++ [entry ⟨h, found, result, left⟩])).lend t)

/-- `call'` does what `call` does in worlds that hold notes, and puts down each call. -/
structure KeepsNotes {ρ' : Type} (put : World η ρ → List μ → World η ρ') (entry : Call η ρ → μ)
    (call : η → Effect η ρ) (call' : η → Effect η ρ') : Prop where
  registry : ∀ w notes, (put w notes).registry = w.registry
  write : ∀ w notes r, (put w notes).write r = put (w.write r) notes
  call : ∀ {h w result w'} notes, call h w = (result, w') →
    call' h (put w notes) = (result, put w' (notes ++ [entry ⟨h, w, result, w'⟩]))

theorem keepsNotes_noting (entry : Call η ρ → μ) (call : η → Effect η ρ) :
    KeepsNotes withNotes entry call (noting entry call) where
  registry _ _ := rfl
  write _ _ _ := rfl
  call {h w result w'} notes hcall := by
    simp only [noting, show withoutNotes (withNotes w notes) = w from rfl, hcall]
    rfl

theorem keepsNotes_notingLent (entry : Call η (σ × MatchState) → μ)
    (call : η → Effect η (σ × MatchState)) :
    KeepsNotes (fun w notes => (withNotes w.settle.2 notes).lend w.settle.1) entry call
      (notingLent entry call) where
  registry _ _ := rfl
  write _ _ _ := rfl
  call {h w result w'} notes hcall := by
    have hfound : (withoutNotes (withNotes w.settle.2 notes)).lend w.settle.1 = w := rfl
    simp only [notingLent, World.settle_lend, hfound, hcall]
    rfl

/-- Without notes nothing is put down. -/
theorem keepsNotes_self (entry : Call η ρ → μ) (call : η → Effect η ρ) :
    KeepsNotes (fun w _ => w) entry call call where
  registry _ _ := rfl
  write _ _ _ := rfl
  call _ hcall := hcall

/-- What hooks return for a verdict on their key. -/
def resultOf : Verdict → Except Trouble Unit
  | .failed t => .error t
  | _ => .ok ()

def turnCalls (w : World η ρ) (v : Verdict) (called : List η) (w' : World η ρ) : List (Call η ρ) :=
  called.map fun h => ⟨h, w, resultOf v, w'⟩

theorem hooks_turnCalls (w : World η ρ) (v : Verdict) (called : List η) (w' : World η ρ) :
    (turnCalls w v called w').map Call.hooks = called := by
  rw [turnCalls, List.map_map]
  exact List.map_id called

section Turn
variable {supports : η → Bool} {call : η → Effect η ρ} {key : String} {w w' : World η ρ}
  {v : Verdict} {called : List η}

theorem KeepsNotes.decided {ρ' : Type} {put : World η ρ → List μ → World η ρ'}
    {entry : Call η ρ → μ} {call' : η → Effect η ρ'} (k : KeepsNotes put entry call call')
    (h : Decided supports call key w v called w') (notes : List μ) :
    Decided supports call' key (put w notes) v called
      (put w' (notes ++ (turnCalls w v called w').map entry)) := by
  cases h with
  | missing hentry =>
    rw [show (turnCalls w .missing [] w).map entry = [] from rfl, List.append_nil]
    exact .missing (by rw [k.registry, hentry])
  | unsupported hentry hs =>
    rw [show (turnCalls w .unsupported [] w).map entry = [] from rfl, List.append_nil]
    exact .unsupported (by rw [k.registry, hentry]) hs
  | fired hentry hs hcall => exact .fired (by rw [k.registry, hentry]) hs (k.call notes hcall)
  | failed hentry hs hcall => exact .failed (by rw [k.registry, hentry]) hs (k.call notes hcall)

theorem KeepsNotes.chronicle_put {ρ' : Type} {put : World η ρ → List μ → World η ρ'}
    {entry : Call η ρ → μ} {call' : η → Effect η ρ'} (k : KeepsNotes put entry call call')
    (phase : Phase) (p : Pattern) (key : String) (v : Verdict) (w : World η ρ) (notes : List μ) :
    chronicle phase p key (put w notes) v = put (chronicle phase p key w v) notes := by
  cases v with
  | missing => exact k.write w notes _
  | failed t => exact k.write w notes _
  | _ => rfl

end Turn

end PatternHooks.Visits
