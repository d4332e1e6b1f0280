import PatternHooks.Proofs.CallLog
import PatternHooks.Proofs.RegistryRoll
import PatternHooks.Proofs.WorldSteps

/-!
What a history of changes says about each key: it is held by the hooks of its latest registration,
unless something has removed them since. Hooks that change the registry do so by these changes and
by nothing else, and a ledger tells by which. There is a ledger for scripted hooks, however deep
their dispatches are nested.
-/

namespace PatternHooks.RegistryChanges

open CallLog RegistryCalls RegistryRoll WorldSteps Visits

variable {η ρ σ : Type}

/-- What some changes make of a registry, one after another. -/
def applyAll (r : Registry η) (changes : List (Change η)) : Registry η :=
  changes.foldl (fun r c => c.apply r) r

/-- Those of the changes that succeed, each on the registry that the ones before it have left. -/
def record : Registry η → List (Change η) → List (Change η)
  | _, [] => []
  | r, c :: changes =>
    (if (c.result? r).isSome then [c] else []) ++ record (c.apply r) changes

/-- The hooks that hold a key after a history of changes: those of the latest change that concerns
the key, if it was a registration. -/
def holder (history : List (Change η)) (key : String) : Option η :=
  (history.reverse.find? (·.concerns key)).bind Change.hooks?

/-- The hooks were registered under the key, and nothing has concerned the key since. -/
def Holds (history : List (Change η)) (key : String) (hooks : η) : Prop :=
  ∃ earlier later, history = earlier ++ .register key hooks :: later ∧
    ∀ c ∈ later, c.concerns key = false

theorem holder_eq_some_iff (history : List (Change η)) (key : String) (hooks : η) :
    holder history key = some hooks ↔ Holds history key hooks := by
  rw [holder, Option.bind_eq_some_iff]
  constructor
  · rintro ⟨c, hfound, hhooks⟩
    obtain ⟨hconcerns, before, after, hreverse, hbefore⟩ := List.find?_eq_some_iff_append.mp hfound
    cases c with
    | register other hooks' =>
      obtain rfl : other = key := by simpa [Change.concerns] using hconcerns
      obtain rfl : hooks' = hooks := Option.some.inj hhooks
      refine ⟨after.reverse, before.reverse, ?_, fun c hc => ?_⟩
      · have hhistory := congrArg List.reverse hreverse
        simpa using hhistory
      · simpa using hbefore c (List.mem_reverse.mp hc)
    | unregister other => cases hhooks
    | clear => cases hhooks
  · rintro ⟨earlier, later, rfl, hlater⟩
    refine ⟨.register key hooks, List.find?_eq_some_iff_append.mpr ?_, rfl⟩
    refine ⟨by simp [Change.concerns], later.reverse, earlier.reverse, by simp, fun c hc => ?_⟩
    simp [hlater c (List.mem_reverse.mp hc)]

/-- Hooks that hold a key were registered under it when it was last concerned, or later. -/
theorem Holds.registered_since {key : String} {hooks : η} {before after : List (Change η)}
    {c : Change η} (h : Holds (before ++ c :: after) key hooks) (hc : c.concerns key = true) :
    .register key hooks ∈ c :: after := by
  obtain ⟨earlier, later, hhistory, hlater⟩ := h
  rcases List.append_eq_append_iff.mp hhistory with ⟨between, _, hafter⟩ | ⟨between, _, hlast⟩
  · rw [hafter]
    exact List.mem_append_right _ List.mem_cons_self
  · cases between with
    | nil =>
      rw [List.nil_append] at hlast
      rw [← hlast]
      exact List.mem_cons_self
    | cons first between =>
      obtain ⟨_, hrest⟩ := List.cons.inj hlast
      have hmem : c ∈ later := by
        rw [hrest]
        exact List.mem_append_right _ List.mem_cons_self
      rw [hlater c hmem] at hc
      cases hc

/-- A history with one more change: the change decides about the keys that it concerns. -/
theorem holder_append_singleton (history : List (Change η)) (c : Change η) (key : String) :
    holder (history ++ [c]) key = if c.concerns key then c.hooks? else holder history key := by
  rw [holder, List.reverse_append, List.reverse_singleton, List.singleton_append]
  cases hconcerns : c.concerns key with
  | true => simp [hconcerns]
  | false => simp [hconcerns, holder]

/-- The registry holds under each key what the history says. -/
def Tells (history : List (Change η)) (r : Registry η) : Prop :=
  ∀ key, (r.lookup key).map (·.hooks) = holder history key

theorem tells_empty (policy : DuplicatePolicy) :
    Tells [] (Registry.empty policy : Registry η) := fun _ => rfl

theorem Tells.applyAll {history : List (Change η)} {r : Registry η} (h : Tells history r)
    (changes : List (Change η)) : Tells (history ++ record r changes) (applyAll r changes) := by
  induction changes generalizing history r with
  | nil =>
    rw [record, List.append_nil]
    exact h
  | cons c changes ih =>
    rw [record, ← List.append_assoc]
    refine ih fun key => ?_
    cases hc : c.result? r with
    | none => simpa [Change.apply, hc] using h key
    | some r' =>
      have hdecides := Change.lookup_of_result? hc key
      simp only [Change.apply, hc, Option.getD_some, Option.isSome_some, if_true]
      rw [holder_append_singleton, hdecides, h key]

/-- The changes are what the calls of hooks make of the registry. -/
def Accounts (call : η → Effect η ρ) (changes : η → World η ρ → List (Change η)) : Prop :=
  ∀ h w, (call h w).2.registry = applyAll w.registry (changes h w)

/-- Changes that account for all calls of the hooks. -/
structure Ledger (b : Behaviour η σ) where
  begin : Pattern → η → World η σ → List (Change η)
  node : Pattern → Node → η → World η σ → List (Change η)
  visit : Pattern → Node → Attempt → η → World η (σ × MatchState) → List (Change η)
  begin_accounts : ∀ p, Accounts (b.onCompileBegin · p) (begin p)
  node_accounts : ∀ p n, Accounts (b.onCompileNode · p n) (node p n)
  visit_accounts : ∀ p n a, Accounts (b.onExecNode · p n a) (visit p n a)

/-- One registry becomes the other by changes. -/
def Becomes (r r' : Registry η) : Prop := ∃ changes, r' = applyAll r changes

theorem becomes_refl (r : Registry η) : Becomes r r := ⟨[], rfl⟩

theorem becomes_apply {r r' : Registry η} {c : Change η} (h : r' = c.apply r) : Becomes r r' :=
  ⟨[c], h⟩

theorem Becomes.trans {r₁ r₂ r₃ : Registry η} (h : Becomes r₁ r₂) (h' : Becomes r₂ r₃) :
    Becomes r₁ r₃ := by
  obtain ⟨changes, rfl⟩ := h
  obtain ⟨changes', rfl⟩ := h'
  exact ⟨changes ++ changes', List.foldl_append.symm⟩

/-- Every call of the hooks changes the registry by changes only. -/
structure ByChanges (b : Behaviour η σ) : Prop where
  begin : ∀ p h w, Becomes w.registry (b.onCompileBegin h p w).2.registry
  node : ∀ p n h w, Becomes w.registry (b.onCompileNode h p n w).2.registry
  visit : ∀ p n a h w, Becomes w.registry (b.onExecNode h p n a w).2.registry

theorem ByChanges.exists_ledger {b : Behaviour η σ} (h : ByChanges b) : Nonempty (Ledger b) := by
  choose begin hbegin using h.begin
  choose node hnode using h.node
  choose visit hvisit using h.visit
  exact ⟨⟨begin, node, visit, hbegin, hnode, hvisit⟩⟩

/-- Steps change the registry by changes only. -/
theorem becomes_of_leads {ρ' : Type} {w : World η ρ} {w' : World η ρ'} (h : Leads w w') :
    Becomes w.registry w'.registry := by
  suffices hbare : ∀ u, Relation.ReflTransGen Step (bare w) u → Becomes w.registry u.registry from
    hbare _ h
  intro u hu
  induction hu with
  | refl => exact becomes_refl _
  | @tail u _ _ hstep ih =>
    refine ih.trans ?_
    cases hstep with
    | change c => exact becomes_apply (c.registry_perform u)
    | write r hr => exact becomes_refl _

theorem byChanges_of_bySteps {b : Behaviour η σ} (h : BySteps b) : ByChanges b where
  begin p hooks w := becomes_of_leads (h.begin p hooks w)
  node p n hooks w := becomes_of_leads (h.node p n hooks w)
  visit p n a hooks w := becomes_of_leads (h.visit p n a hooks w)

/-- There is a ledger for scripted hooks, and for the recording, tracing and silent ones. -/
theorem exists_ledger_behaviour (fatal : Bool) (depth : ℕ) :
    Nonempty (Ledger (HookObject.behaviour fatal depth)) :=
  (byChanges_of_bySteps (bySteps_behaviour fatal depth)).exists_ledger

end PatternHooks.RegistryChanges
