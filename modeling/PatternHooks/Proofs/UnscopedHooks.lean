import PatternHooks.Proofs.Bisimulation
import PatternHooks.Proofs.EngineCourse
import PatternHooks.Proofs.RegistryChanges

/-!
Hooks that a pattern does not name are invisible to it. Two worlds that hold the same hooks under
the keys of a pattern may differ in everything else that their registries hold, and other clients
may go on changing the rest. As long as the hooks of the pattern look at nothing but their own state
and what they are lent, no dispatch on the pattern tells the worlds apart.
-/

namespace PatternHooks.UnscopedHooks

open Dispatch Bisimulation CallLog EngineCourse RegistryCalls RegistryChanges Visits

variable {η ρ ρ₁ ρ₂ σ σ₁ σ₂ : Type}

/-- The registry holds these hooks under the keys. -/
def Shows (keys : List String) (held : String → Option η) (r : Registry η) : Prop :=
  ∀ key ∈ keys, (r.lookup key).map (·.hooks) = held key

/-- Two worlds that hold the same hooks under the keys, and in which the hooks' own states are
related. -/
structure Agree (keys : List String) (held : String → Option η) (S : ρ₁ → ρ₂ → Prop)
    (w₁ : World η ρ₁) (w₂ : World η ρ₂) : Prop where
  left : Shows keys held w₁.registry
  right : Shows keys held w₂.registry
  own : S w₁.own w₂.own

/-- Two calls that leave the registry alone, return the same when the hooks' own states are related,
and leave them related. -/
structure Paired (S : ρ₁ → ρ₂ → Prop) (e₁ : Effect η ρ₁) (e₂ : Effect η ρ₂) : Prop where
  left : ∀ w, (e₁ w).2.registry = w.registry
  right : ∀ w, (e₂ w).2.registry = w.registry
  result : ∀ w₁ w₂, S w₁.own w₂.own → (e₁ w₁).1 = (e₂ w₂).1
  own : ∀ w₁ w₂, S w₁.own w₂.own → S (e₁ w₁).2.own (e₂ w₂).2.own

section Fire
variable {keys : List String} {held : String → Option η} {S : ρ₁ → ρ₂ → Prop}
  {call₁ : η → Effect η ρ₁} {call₂ : η → Effect η ρ₂} {w₁ : World η ρ₁} {w₂ : World η ρ₂}

theorem Agree.of_alike (h : Agree keys held S w₁ w₂) {w₁' : World η ρ₁} {w₂' : World η ρ₂}
    (h₁ : CallLog.Alike w₁ w₁') (h₂ : CallLog.Alike w₂ w₂') : Agree keys held S w₁' w₂' where
  left := h₁.registry ▸ h.left
  right := h₂.registry ▸ h.right
  own := by
    rw [h₁.own, h₂.own]
    exact h.own

/-- The same key gets the same verdict in both worlds. -/
theorem Agree.consulted (h : Agree keys held S w₁ w₂) (supports : η → Bool) {key : String}
    (hkey : key ∈ keys)
    (hpaired : ∀ x, held key = some x → Paired S (call₁ x) (call₂ x)) :
    (consult supports call₁ key w₁).1 = (consult supports call₂ key w₂).1 ∧
      Agree keys held S (consult supports call₁ key w₁).2 (consult supports call₂ key w₂).2 := by
  have hleft := h.left key hkey
  have hright := h.right key hkey
  cases hheld : held key with
  | none =>
    rw [hheld, Option.map_eq_none_iff] at hleft hright
    simp only [consult, hleft, hright]
    exact ⟨trivial, h⟩
  | some x =>
    rw [hheld, Option.map_eq_some_iff] at hleft hright
    obtain ⟨e₁, hentry₁, rfl⟩ := hleft
    obtain ⟨e₂, hentry₂, hsame⟩ := hright
    simp only [consult, hentry₁, hentry₂, hsame]
    by_cases hs : supports e₁.hooks = true
    · have hpair := hpaired e₁.hooks hheld
      have hresult := hpair.result w₁ w₂ h.own
      have hafter : Agree keys held S (call₁ e₁.hooks w₁).2 (call₂ e₁.hooks w₂).2 :=
        ⟨(hpair.left w₁).symm ▸ h.left, (hpair.right w₂).symm ▸ h.right, hpair.own w₁ w₂ h.own⟩
      rcases hc₁ : call₁ e₁.hooks w₁ with ⟨r₁, w₁'⟩
      rcases hc₂ : call₂ e₁.hooks w₂ with ⟨r₂, w₂'⟩
      rw [hc₁, hc₂] at hresult hafter
      obtain rfl : r₁ = r₂ := hresult
      cases r₁ <;> simp only [hs, if_true] <;> exact ⟨trivial, hafter⟩
    · rw [if_neg hs, if_neg hs]
      exact ⟨rfl, h⟩

theorem Agree.fired (h : Agree keys held S w₁ w₂)
    (hpaired : ∀ key ∈ keys, ∀ x, held key = some x → Paired S (call₁ x) (call₂ x))
    (fatal : Bool) (phase : Phase) (p : Pattern) (supports : η → Bool) {visited : List String}
    (hsub : visited ⊆ keys)
    (report : Report) :
    (fireFrom fatal phase p (visited.map fun key => (key, consult supports call₁ key))
        report w₁).1 =
      (fireFrom fatal phase p (visited.map fun key => (key, consult supports call₂ key))
        report w₂).1 ∧
      Agree keys held S
        (fireFrom fatal phase p (visited.map fun key => (key, consult supports call₁ key))
          report w₁).2
        (fireFrom fatal phase p (visited.map fun key => (key, consult supports call₂ key))
          report w₂).2 := by
  induction visited generalizing report w₁ w₂ with
  | nil => exact ⟨rfl, h⟩
  | cons key visited ih =>
    obtain ⟨hkey, hrest⟩ := List.cons_subset.mp hsub
    obtain ⟨hverdict, hafter⟩ := h.consulted supports hkey (hpaired key hkey)
    rcases hc₁ : consult supports call₁ key w₁ with ⟨v₁, w₁'⟩
    rcases hc₂ : consult supports call₂ key w₂ with ⟨v₂, w₂'⟩
    rw [hc₁, hc₂] at hverdict hafter
    obtain rfl : v₁ = v₂ := hverdict
    rw [List.map_cons, List.map_cons]
    by_cases hgoes : fatal = false ∨ ∀ t, v₁ ≠ .failed t
    · rw [fireFrom_cons phase p key _ report hc₁ hgoes,
        fireFrom_cons phase p key _ report hc₂ hgoes]
      exact ih (hafter.of_alike (alike_chronicle phase p key w₁' v₁)
        (alike_chronicle phase p key w₂' v₁)) hrest _
    · obtain ⟨hfatal, hfailed⟩ := not_or.mp hgoes
      obtain ⟨t, ht⟩ := not_forall.mp hfailed
      obtain rfl := not_not.mp ht
      rw [Bool.not_eq_false] at hfatal
      simp only [fireFrom, hc₁, hc₂, hfatal, if_true]
      exact ⟨trivial, hafter⟩

/-- A dispatch returns the same in both worlds, and they agree after it. -/
theorem Agree.dispatched {p : Pattern} (h : Agree p.hookKeys held S w₁ w₂)
    (hpaired : ∀ key ∈ p.hookKeys, ∀ x, held key = some x → Paired S (call₁ x) (call₂ x))
    {supports₁ supports₂ : η → Phase → Bool} (hsupports : supports₁ = supports₂) (fatal : Bool)
    (phase : Phase) :
    (fire fatal phase p supports₁ call₁ w₁).1 = (fire fatal phase p supports₂ call₂ w₂).1 ∧
      Agree p.hookKeys held S (fire fatal phase p supports₁ call₁ w₁).2
        (fire fatal phase p supports₂ call₂ w₂).2 := by
  subst hsupports
  exact h.fired hpaired fatal phase p (supports₁ · phase) (List.Subset.refl _) { phase }

end Fire

/-- Own states that are related, with the same match state beside them. -/
def Lent (S : σ₁ → σ₂ → Prop) (x : σ₁ × MatchState) (y : σ₂ × MatchState) : Prop :=
  S x.1 y.1 ∧ x.2 = y.2

/-- The hooks do in one way what they do in the other. -/
structure PairedHooks (S : σ₁ → σ₂ → Prop) (p : Pattern) (b₁ : Behaviour η σ₁)
    (b₂ : Behaviour η σ₂) (x : η) : Prop where
  begin : Paired S (b₁.onCompileBegin x p) (b₂.onCompileBegin x p)
  node : ∀ n, Paired S (b₁.onCompileNode x p n) (b₂.onCompileNode x p n)
  visit : ∀ n a, Paired (Lent S) (b₁.onExecNode x p n a) (b₂.onExecNode x p n a)

section Strategies
variable {p : Pattern} {held : String → Option η} {S : σ₁ → σ₂ → Prop} {b₁ : Behaviour η σ₁}
  {b₂ : Behaviour η σ₂}

theorem bisimilar_ofHooks (fatal : Bool) (hsupports : b₁.supports = b₂.supports)
    (hpaired : ∀ key ∈ p.hookKeys, ∀ x, held key = some x → PairedHooks S p b₁ b₂ x) :
    Bisimilar (Agree p.hookKeys held S) p (.ofHooks b₁ fatal) (.ofHooks b₂ fatal) where
  compileBegin {w₁ w₂} hw := by
    have hagree : Agree p.hookKeys held S (w₁.write (beginning p)) (w₂.write (beginning p)) :=
      ⟨hw.left, hw.right, hw.own⟩
    exact hagree.dispatched (fun key hkey x hx => (hpaired key hkey x hx).begin) hsupports fatal _
  compileNode {w₁ w₂} n hw := by
    have hagree : Agree p.hookKeys held S (w₁.write (compiling p n)) (w₂.write (compiling p n)) :=
      ⟨hw.left, hw.right, hw.own⟩
    exact hagree.dispatched (fun key hkey x hx => (hpaired key hkey x hx).node n) hsupports fatal _
  execNode {w₁ w₂} n a s hw := by
    have hagree : Agree p.hookKeys held (Lent S) ((w₁.write (visiting p n s)).lend s)
        ((w₂.write (visiting p n s)).lend s) :=
      ⟨hw.left, hw.right, hw.own, rfl⟩
    obtain ⟨houtcome, hafter⟩ := hagree.dispatched
      (fun key hkey x hx => (hpaired key hkey x hx).visit n a) hsupports fatal .execNode
    obtain ⟨hown, hstate⟩ := hafter.own
    exact ⟨houtcome, hstate, hafter.left, hafter.right, hown⟩

/-- What other clients do to a world. -/
def disturb (changes : List (Change η)) (w : World η σ) : World η σ :=
  changes.foldl (fun w c => (c.perform w).2) w

/-- Other clients change the registry before each dispatch; the number counts the dispatches. -/
def amid (others : ℕ → List (Change η)) (h : Strategy (World η σ)) :
    Strategy (World η σ × ℕ) where
  compileBegin p w :=
    let (outcome, w') := h.compileBegin p (disturb (others w.2) w.1)
    (outcome, w', w.2 + 1)
  compileNode p n w :=
    let (outcome, w') := h.compileNode p n (disturb (others w.2) w.1)
    (outcome, w', w.2 + 1)
  execNode p n a s w :=
    let (outcome, s, w') := h.execNode p n a s (disturb (others w.2) w.1)
    (outcome, s, w', w.2 + 1)

/-- The changes concern none of the keys. -/
def Outside (keys : List String) (changes : List (Change η)) : Prop :=
  ∀ c ∈ changes, ∀ key ∈ keys, c.concerns key = false

theorem Shows.disturb {keys : List String} {changes : List (Change η)} {w : World η σ}
    (h : Shows keys held w.registry) (houtside : Outside keys changes) :
    Shows keys held (UnscopedHooks.disturb changes w).registry := by
  induction changes generalizing w with
  | nil => exact h
  | cons c changes ih =>
    obtain ⟨hc, hchanges⟩ := List.forall_mem_cons.mp houtside
    refine ih (fun key hkey => ?_) hchanges
    rw [c.registry_perform, c.lookup_apply_of_not_concerns (hc key hkey), h key hkey]

theorem own_disturb (changes : List (Change η)) (w : World η σ) :
    (disturb changes w).own = w.own := by
  induction changes generalizing w with
  | nil => rfl
  | cons c changes ih => exact (ih (c.perform w).2).trans (c.own_perform w)

theorem Agree.disturbed {keys : List String} {w₁ : World η σ₁} {w₂ : World η σ₂}
    (h : Agree keys held S w₁ w₂) {changes₁ changes₂ : List (Change η)}
    (houtside₁ : Outside keys changes₁) (houtside₂ : Outside keys changes₂) :
    Agree keys held S (disturb changes₁ w₁) (disturb changes₂ w₂) where
  left := h.left.disturb houtside₁
  right := h.right.disturb houtside₂
  own := by
    rw [own_disturb, own_disturb]
    exact h.own

/-- What other clients do does not matter if it keeps the worlds related. -/
theorem bisimilar_amid {R : World η σ₁ → World η σ₂ → Prop} {h₁ : Strategy (World η σ₁)}
    {h₂ : Strategy (World η σ₂)} (h : Bisimilar R p h₁ h₂)
    {others₁ others₂ : ℕ → List (Change η)}
    (hdisturbed : ∀ {w₁ w₂} i, R w₁ w₂ → R (disturb (others₁ i) w₁) (disturb (others₂ i) w₂)) :
    Bisimilar (fun x y => R x.1 y.1 ∧ x.2 = y.2) p (amid others₁ h₁) (amid others₂ h₂) where
  compileBegin {x y} hxy := by
    obtain ⟨w₁, i⟩ := x
    obtain ⟨w₂, j⟩ := y
    obtain ⟨hworlds, rfl : i = j⟩ := hxy
    obtain ⟨houtcome, hafter⟩ := h.compileBegin (hdisturbed i hworlds)
    exact ⟨houtcome, hafter, rfl⟩
  compileNode {x y} n hxy := by
    obtain ⟨w₁, i⟩ := x
    obtain ⟨w₂, j⟩ := y
    obtain ⟨hworlds, rfl : i = j⟩ := hxy
    obtain ⟨houtcome, hafter⟩ := h.compileNode n (hdisturbed i hworlds)
    exact ⟨houtcome, hafter, rfl⟩
  execNode {x y} n a s hxy := by
    obtain ⟨w₁, i⟩ := x
    obtain ⟨w₂, j⟩ := y
    obtain ⟨hworlds, rfl : i = j⟩ := hxy
    obtain ⟨houtcome, hstate, hafter⟩ := h.execNode n a s (hdisturbed i hworlds)
    exact ⟨houtcome, hstate, hafter, rfl⟩

end Strategies

/-- Two worlds, the second of which has notes besides. -/
def Annotated (w : World η σ) (w' : World η (σ × List (Invocation η σ))) : Prop :=
  ∃ notes, w' = withNotes w notes

section Noting
variable {b : Behaviour η σ} {fatal : Bool} {p : Pattern}

theorem Annotated.disturb {w : World η σ} {w' : World η (σ × List (Invocation η σ))}
    (h : Annotated w w') (changes : List (Change η)) :
    Annotated (disturb changes w) (UnscopedHooks.disturb changes w') := by
  induction changes generalizing w w' with
  | nil => exact h
  | cons c changes ih =>
    obtain ⟨notes, rfl⟩ := h
    refine ih ⟨notes, ?_⟩
    have hperform : (c.perform (withNotes w notes)).2 = owning (c.perform w).2 (w.own, notes) :=
      congrArg Prod.snd (c.perform_owning w (w.own, notes))
    rw [← c.own_perform w] at hperform
    exact hperform

/-- Hooks that put their calls down cannot be told from those that do not. -/
theorem bisimilar_noting (b : Behaviour η σ) (fatal : Bool) (p : Pattern) :
    Bisimilar Annotated p (.ofHooks b fatal) (.ofHooks (notingHooks b) fatal) where
  compileBegin {w _} hw := by
    obtain ⟨notes, rfl⟩ := hw
    obtain ⟨is, outcome, w', htold⟩ := exists_told_begin b fatal p w
    rw [tells_plain.begin [] htold, tells_noting.begin notes htold]
    exact ⟨rfl, _, rfl⟩
  compileNode {w _} n hw := by
    obtain ⟨notes, rfl⟩ := hw
    obtain ⟨is, outcome, w', htold⟩ := exists_told_node b fatal p n w
    rw [tells_plain.node [] htold, tells_noting.node notes htold]
    exact ⟨rfl, _, rfl⟩
  execNode {w _} n a s hw := by
    obtain ⟨notes, rfl⟩ := hw
    obtain ⟨outcome, t, calls, w', hvisit⟩ := exists_visited b fatal p a n s w
    have hplain := follows_plain [] [] hvisit
    have hnoting := follows_noting [] notes hvisit
    rw [hplain, hnoting]
    exact ⟨rfl, rfl, _, rfl⟩

/-- The answers to some tasks, amid what other clients do, with the hooks' own state after each. -/
def answers (b : Behaviour η σ) (fatal : Bool) (p : Pattern) (others : ℕ → List (Change η))
    (ts : List Task) (w : World η σ) : List (Answer × σ) :=
  (performAll (amid others (.ofHooks b fatal)) p ts (w, 0)).map fun x => (x.1, x.2.1.own)

/-- The calls that were made by the end of each task. -/
def invocations (b : Behaviour η σ) (fatal : Bool) (p : Pattern) (others : ℕ → List (Change η))
    (ts : List Task) (w : World η σ) : List (List (Invocation η σ)) :=
  (answers (notingHooks b) fatal p others ts (withNotes w [])).map (·.2.2)

/-- The answers are the same when the calls are put down. -/
theorem answers_noting (b : Behaviour η σ) (fatal : Bool) (p : Pattern)
    (others : ℕ → List (Change η)) (ts : List Task) (w : World η σ) :
    (answers (notingHooks b) fatal p others ts (withNotes w [])).map (fun x => (x.1, x.2.1)) =
      answers b fatal p others ts w := by
  have hbisimilar := bisimilar_amid (bisimilar_noting b fatal p)
    (fun {w w'} i (h : Annotated w w') => h.disturb (others i))
  have hall : List.Forall₂ (fun x y => x.1 = y.1 ∧ Annotated x.2.1 y.2.1 ∧ x.2.2 = y.2.2)
      (performAll (amid others (.ofHooks b fatal)) p ts (w, 0))
      (performAll (amid others (.ofHooks (notingHooks b) fatal)) p ts (withNotes w [], 0)) :=
    hbisimilar.performAll ⟨⟨[], rfl⟩, rfl⟩ ts
  rw [answers, answers, List.map_map]
  refine (map_eq_of_forall₂ hall fun {x y} hxy => ?_).symm
  obtain ⟨hanswer, ⟨notes, hnotes⟩, _⟩ := hxy
  simp only [Function.comp_apply, hanswer, hnotes]
  rfl

end Noting

/-- The hooks look at nothing but their own state, and the match state when it is lent to them, and
leave the registry alone. -/
def Blind (b : Behaviour η σ) (p : Pattern) (x : η) : Prop := PairedHooks Eq p b b x

/-- What a call is told apart by. -/
def essence (i : Invocation η σ) : Occasion × η × Except Trouble Unit :=
  (i.occasion, i.hooks, i.result)

/-- The same own state, with notes of the same calls, all of hooks that are held under the keys. -/
structure SameCalls (keys : List String) (held : String → Option η)
    (x y : σ × List (Invocation η σ)) : Prop where
  own : x.1 = y.1
  calls : x.2.map essence = y.2.map essence
  named : ∀ i ∈ x.2, ∃ key ∈ keys, held key = some i.hooks

section Blind
variable {b : Behaviour η σ} {p : Pattern} {keys : List String} {held : String → Option η} {x : η}

theorem SameCalls.append {u v : σ × List (Invocation η σ)} (h : SameCalls keys held u v)
    {own own' : σ} (hown : own = own') {i j : Invocation η σ} (hij : essence i = essence j)
    (hi : ∃ key ∈ keys, held key = some i.hooks) :
    SameCalls keys held (own, u.2 ++ [i]) (own', v.2 ++ [j]) where
  own := hown
  calls := by
    rw [List.map_append, List.map_append, h.calls, List.map_singleton, List.map_singleton, hij]
  named k hk := by
    rcases List.mem_append.mp hk with hk | hk
    · exact h.named k hk
    · rw [List.mem_singleton.mp hk]
      exact hi

theorem paired_noting (call : η → Effect η σ) (o : Occasion)
    (hcall : Paired Eq (call x) (call x)) (hx : ∃ key ∈ keys, held key = some x) :
    Paired (SameCalls keys held) (noting (.plain o) call x) (noting (.plain o) call x) where
  left w := hcall.left (withoutNotes w)
  right w := hcall.left (withoutNotes w)
  result w₁ w₂ h := hcall.result (withoutNotes w₁) (withoutNotes w₂) h.own
  own w₁ w₂ h := by
    have hresult := hcall.result (withoutNotes w₁) (withoutNotes w₂) h.own
    have hown := hcall.own (withoutNotes w₁) (withoutNotes w₂) h.own
    exact h.append hown (congrArg (fun r => (o, x, r)) hresult) hx

theorem paired_notingLent (call : η → Effect η (σ × MatchState)) (o : Occasion)
    (hcall : Paired (Lent Eq) (call x) (call x)) (hx : ∃ key ∈ keys, held key = some x) :
    Paired (Lent (SameCalls keys held)) (notingLent (.lent o) call x)
      (notingLent (.lent o) call x) where
  left w := hcall.left ((withoutNotes w.settle.2).lend w.settle.1)
  right w := hcall.left ((withoutNotes w.settle.2).lend w.settle.1)
  result w₁ w₂ h := hcall.result ((withoutNotes w₁.settle.2).lend w₁.settle.1)
    ((withoutNotes w₂.settle.2).lend w₂.settle.1) ⟨h.1.own, h.2⟩
  own w₁ w₂ h := by
    have hresult := hcall.result ((withoutNotes w₁.settle.2).lend w₁.settle.1)
      ((withoutNotes w₂.settle.2).lend w₂.settle.1) ⟨h.1.own, h.2⟩
    have hown := hcall.own ((withoutNotes w₁.settle.2).lend w₁.settle.1)
      ((withoutNotes w₂.settle.2).lend w₂.settle.1) ⟨h.1.own, h.2⟩
    exact ⟨h.1.append hown.1 (congrArg (fun r => (o, x, r)) hresult) hx, hown.2⟩

theorem Blind.noting (h : Blind b p x) (hx : ∃ key ∈ keys, held key = some x) :
    PairedHooks (SameCalls keys held) p (notingHooks b) (notingHooks b) x where
  begin := paired_noting (b.onCompileBegin · p) .begin h.begin hx
  node n := paired_noting (b.onCompileNode · p n) (.node n) (h.node n) hx
  visit n a := paired_notingLent (b.onExecNode · p n a) (.visit n a) (h.visit n a) hx

end Blind

theorem blind_recording (again : Occasion → Script.Redispatch) (p : Pattern) (id : ℕ)
    (phases : List Phase) : Blind (HookObject.behaviourWith again) p ⟨id, .recording phases⟩ :=
  ⟨⟨fun _ => rfl, fun _ => rfl, fun _ _ _ => rfl,
      fun _ _ h => congrArg (fun m : Memory => m.addEvent id (Bundled.event .begin)) h⟩,
    fun n => ⟨fun _ => rfl, fun _ => rfl, fun _ _ _ => rfl,
      fun _ _ h => congrArg (fun m : Memory => m.addEvent id (Bundled.event (.node n))) h⟩,
    fun n a => ⟨fun _ => rfl, fun _ => rfl, fun _ _ _ => rfl, fun _ _ h =>
      ⟨congrArg (fun m : Memory => m.addEvent id (Bundled.event (.visit n a))) h.1, h.2⟩⟩⟩

/-- Hooks that a pattern does not name are invisible to it. Two worlds agree on the hooks' own state
and on the hooks under the keys of the pattern; other clients change what is under other keys before
each dispatch, and not the same in both. As long as the hooks under the keys are blind to it, all
tasks get the same answers and leave the same own state, and the same calls are made for them, all
of hooks under the keys. -/
theorem unscoped_hooks_are_invisible (b : Behaviour η σ) (fatal : Bool) (p : Pattern)
    (w₁ w₂ : World η σ) (others₁ others₂ : ℕ → List (Change η)) (ts : List Task)
    (hown : w₁.own = w₂.own)
    (hsame : ∀ key ∈ p.hookKeys,
      (w₁.registry.lookup key).map (·.hooks) = (w₂.registry.lookup key).map (·.hooks))
    (hblind : ∀ key ∈ p.hookKeys, ∀ e, w₁.registry.lookup key = some e → Blind b p e.hooks)
    (houtside₁ : ∀ i, Outside p.hookKeys (others₁ i))
    (houtside₂ : ∀ i, Outside p.hookKeys (others₂ i)) :
    answers b fatal p others₁ ts w₁ = answers b fatal p others₂ ts w₂ ∧
    (invocations b fatal p others₁ ts w₁).map (·.map essence) =
      (invocations b fatal p others₂ ts w₂).map (·.map essence) ∧
    ∀ is ∈ invocations b fatal p others₁ ts w₁, ∀ i ∈ is, ∃ key ∈ p.hookKeys, ∃ e,
      w₁.registry.lookup key = some e ∧ e.hooks = i.hooks := by
  set held : String → Option η := fun key => (w₁.registry.lookup key).map (·.hooks)
  have hblind' : ∀ key ∈ p.hookKeys, ∀ x, held key = some x → Blind b p x := by
    intro key hkey x hx
    obtain ⟨e, hentry, rfl⟩ := Option.map_eq_some_iff.mp hx
    exact hblind key hkey e hentry
  have hleft : Shows p.hookKeys held w₁.registry := fun _ _ => rfl
  have hright : Shows p.hookKeys held w₂.registry := fun key hkey => (hsame key hkey).symm
  have hplain : Bisimilar (Agree p.hookKeys held Eq) p (.ofHooks b fatal) (.ofHooks b fatal) :=
    bisimilar_ofHooks fatal rfl hblind'
  have hnoting : Bisimilar (Agree p.hookKeys held (SameCalls p.hookKeys held)) p
      (.ofHooks (notingHooks b) fatal) (.ofHooks (notingHooks b) fatal) :=
    bisimilar_ofHooks fatal rfl fun key hkey x hx => (hblind' key hkey x hx).noting ⟨key, hkey, hx⟩
  have hanswers : List.Forall₂ (fun x y => x.1 = y.1 ∧
        Agree p.hookKeys held Eq x.2.1 y.2.1 ∧ x.2.2 = y.2.2)
      (performAll (amid others₁ (.ofHooks b fatal)) p ts (w₁, 0))
      (performAll (amid others₂ (.ofHooks b fatal)) p ts (w₂, 0)) :=
    (bisimilar_amid hplain fun i h => h.disturbed (houtside₁ i) (houtside₂ i)).performAll
      (by exact ⟨⟨hleft, hright, hown⟩, rfl⟩) ts
  have hcalls : List.Forall₂ (fun x y => x.1 = y.1 ∧
        Agree p.hookKeys held (SameCalls p.hookKeys held) x.2.1 y.2.1 ∧ x.2.2 = y.2.2)
      (performAll (amid others₁ (.ofHooks (notingHooks b) fatal)) p ts (withNotes w₁ [], 0))
      (performAll (amid others₂ (.ofHooks (notingHooks b) fatal)) p ts (withNotes w₂ [], 0)) :=
    (bisimilar_amid hnoting fun i h => h.disturbed (houtside₁ i) (houtside₂ i)).performAll
      (by exact ⟨⟨hleft, hright, hown, rfl, fun i hi => absurd hi List.not_mem_nil⟩, rfl⟩) ts
  refine ⟨?_, ?_, ?_⟩
  · refine map_eq_of_forall₂ hanswers fun {x y} hxy => ?_
    exact Prod.ext hxy.1 hxy.2.1.own
  · rw [invocations, invocations, answers, answers]
    simp only [List.map_map]
    exact map_eq_of_forall₂ hcalls fun hxy => hxy.2.1.own.calls
  · have hnamed := forall_mem_of_forall₂ hcalls fun hxy => hxy.2.1.own.named
    intro is his i hi
    rw [invocations, answers, List.map_map] at his
    obtain ⟨x, hx, rfl⟩ := List.mem_map.mp his
    obtain ⟨key, hkey, hheld⟩ := hnamed x hx i hi
    obtain ⟨e, hentry, hhooks⟩ := Option.map_eq_some_iff.mp hheld
    exact ⟨key, hkey, e, hentry, hhooks⟩

/-- In one of two registries there are other hooks besides those of the pattern, and they are moved
to another key before the first dispatch. They would fail if they were called. -/
theorem unscoped_hooks_are_invisible_moved :
    ∃ (p : Pattern) (w₁ w₂ : World HookObject Memory) (others : ℕ → List (Change HookObject))
      (ts : List Task),
      w₁.registry.entries.map (·.key) = ["a"] ∧ w₂.registry.entries.map (·.key) = ["a", "x"] ∧
      (answers (HookObject.behaviour true 0) true p (fun _ => []) ts w₁).map (·.2.events) =
        [[(0, ["begin", "comp:EXACT", "comp:END"])]] ∧
      answers (HookObject.behaviour true 0) true p (fun _ => []) ts w₁ =
        answers (HookObject.behaviour true 0) true p others ts w₂ := by
  let watcher : HookObject := ⟨0, .recording Phase.all⟩
  let breaker : HookObject := ⟨1, .scripted (some [.fail "no" []]) none none⟩
  refine ⟨⟨.random 0, "x", {}, ["a"], .epoch⟩,
    ⟨(Registry.empty .reject).insert "a" watcher, [], {}⟩,
    ⟨((Registry.empty .reject).insert "x" breaker).insert "a" watcher, [], {}⟩,
    fun _ => [.unregister "x", .register "y" breaker], [.compile []], rfl, rfl, rfl, ?_⟩
  refine (unscoped_hooks_are_invisible _ _ _ _ _ _ _ _ ?_ ?_ ?_ ?_ ?_).1
  · rfl
  · exact List.forall_mem_singleton.mpr rfl
  · refine List.forall_mem_singleton.mpr fun e he => ?_
    obtain rfl := Option.some.inj he
    exact blind_recording _ _ 0 Phase.all
  · exact fun _ c hc => absurd hc List.not_mem_nil
  · simp [Outside, Change.concerns]

end PatternHooks.UnscopedHooks
