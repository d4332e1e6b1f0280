import PatternHooks.Proofs.EngineCourse
import PatternHooks.Proofs.MatchStateBounds
import PatternHooks.Proofs.ScriptSteps

/-!
Hooks that steer a match. They may do anything to the registry, the journal and their own state, and
may fail; but to the match state they do what its edits and its scratch data allow, and no more.
Scripted hooks are such hooks, however deep their dispatches are nested.
-/

namespace PatternHooks.Steering

open Engine CallLog EngineCourse MatchStateBounds Visits

variable {η σ : Type}

/-- At the visit of a node the hooks act on the match state by deeds only. -/
def Steers (b : Behaviour η σ) : Prop :=
  ∀ h p n a w, ∃ ds, (b.onExecNode h p n a w).2.own.2 = run w.own.2 ds

theorem run_run (s : MatchState) (ds ds' : List Deed) : run (run s ds) ds' = run s (ds ++ ds') :=
  List.foldl_append.symm

/-- All that the hooks do in a visit are deeds. -/
theorem Steers.visited {b : Behaviour η σ} (hsteers : Steers b) {fatal : Bool} {p : Pattern}
    {v : Visit} {w w' : World η σ} {calls : List (Call η (σ × MatchState))}
    (hvisit : Visited b fatal p v w calls w') : ∃ ds, v.left = run v.arrived ds := by
  refine hvisit.keeps (P := fun t => ∃ ds, t = run v.arrived ds) ?_ ⟨[], rfl⟩
  intro c _ hmade hc
  obtain ⟨ds, hds⟩ := hc
  obtain ⟨ds', hds'⟩ := hsteers c.hooks p v.node v.attempt c.before
  rw [hmade] at hds'
  exact ⟨ds ++ ds', by rw [hds', hds, run_run]⟩

/-- The match state, if one is there, becomes what some deeds make of it. -/
def Led (s t : Option MatchState) : Prop := ∃ ds, t = s.map (run · ds)

theorem led_refl (s : Option MatchState) : Led s s := ⟨[], by cases s <;> rfl⟩

theorem Led.trans {s t u : Option MatchState} (h : Led s t) (h' : Led t u) : Led s u := by
  obtain ⟨ds, rfl⟩ := h
  obtain ⟨ds', rfl⟩ := h'
  refine ⟨ds ++ ds', ?_⟩
  cases s with
  | none => rfl
  | some s => exact congrArg some (run_run s ds ds')

/-- All single things that a script may do lead the match state. -/
theorem closed_led : ScriptSteps.Closed fun w w' => Led w.own.2 w'.own.2 where
  refl _ := led_refl _
  trans h h' := h.trans h'
  remember _ _ := led_refl _
  write _ _ _ _ _ := led_refl _
  edit {w s t e} hs he := by
    refine ⟨[.edit e], ?_⟩
    simp only [hs, Option.map_some, run, List.foldl_cons, List.foldl_nil, after, perform, he]
  register w key object := by
    rw [w.own_register key object]
    exact led_refl _
  unregister w key := by
    rw [w.own_unregister key]
    exact led_refl _
  clear w := by
    rw [w.own_clear]
    exact led_refl _

section Behaviour
open Script HookObject

theorem steers_behaviourWith {again : Occasion → Redispatch}
    (hagain : ∀ o p w, Led w.own.2 (again o p w).2.own.2) : Steers (behaviourWith again) := by
  intro object p n a w
  obtain ⟨ds, hds⟩ := closed_led.act (hagain (.visit n a)) object p (.visit n a)
    (w.settle.2.enter (some w.settle.1))
  refine ⟨ds, ?_⟩
  change ((object.act (again (.visit n a)) p (.visit n a)
    (w.settle.2.enter (some w.settle.1))).2.own.2.getD w.own.2) = run w.own.2 ds
  rw [hds]
  rfl

/-- A dispatch in the middle of a call leads the match state as the hooks do that it calls. -/
theorem led_redispatch {b : Behaviour HookObject Memory} (hsteers : Steers b) (fatal : Bool)
    (o : Occasion) (p : Pattern) (w : World HookObject Stage) :
    Led w.own.2 (redispatch b fatal o p w).2.own.2 := by
  cases o with
  | begin => exact led_refl _
  | node n => exact led_refl _
  | visit n a =>
    cases hs : w.own.2 with
    | none =>
      simp only [redispatch, hs]
      exact led_refl none
    | some s =>
      obtain ⟨outcome, t, calls, w', hvisit⟩ := exists_visited b fatal p a n s w.leave
      obtain ⟨ds, hds⟩ := hsteers.visited hvisit
      have hexec := hvisit.execNode_eq
      refine ⟨ds, ?_⟩
      simp only [redispatch, hs, hexec]
      exact congrArg some hds

/-- Scripted hooks steer, and so do the recording, tracing and silent ones. -/
theorem steers_behaviour (fatal : Bool) (depth : ℕ) : Steers (behaviour fatal depth) := by
  induction depth with
  | zero => exact steers_behaviourWith fun _ _ _ => led_refl _
  | succ depth ih => exact steers_behaviourWith fun o p w => led_redispatch ih fatal o p w

end Behaviour

end PatternHooks.Steering
