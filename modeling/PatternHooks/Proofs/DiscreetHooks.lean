import PatternHooks.Proofs.DispatchRecords
import PatternHooks.Proofs.ScriptSteps

/-!
Hooks in whose calls the dispatcher writes nothing. All calls of such hooks are reticent, in single
dispatches, in compilations and in searches. Scripted hooks are of this kind if they have nothing to
dispatch in their scripts, and recording, tracing and silent hooks always are.
-/

namespace PatternHooks.DiscreetHooks

open Engine Dispatch CallLog EngineCourse HostRuns DispatchRecords Visits

variable {η ρ σ : Type}

section Discreet
variable {b : Behaviour η σ} {H : η → Prop} {fatal : Bool} {p : Pattern} {w w' : World η σ}
  {is : List (Invocation η σ)}

/-- Whenever one of these hooks is called, the dispatcher writes nothing. -/
structure Discreet (b : Behaviour η σ) (H : η → Prop) : Prop where
  begin : ∀ {h} p w, H h → Adds w.journal [] (b.onCompileBegin h p w).2.journal
  node : ∀ {h} p n w, H h → Adds w.journal [] (b.onCompileNode h p n w).2.journal
  visit : ∀ {h} p n a w, H h → Adds w.journal [] (b.onExecNode h p n a w).2.journal

theorem adds_made {call : η → Effect η ρ} {c : Call η ρ}
    (hcall : ∀ {h} w, H h → Adds w.journal [] (call h w).2.journal)
    (hmade : call c.hooks c.before = (c.result, c.after)) (hhooks : H c.hooks) :
    Adds c.before.journal [] c.after.journal := by
  have hadds := hcall c.before hhooks
  rw [hmade] at hadds
  exact hadds

theorem reticent_invocations (hb : Discreet b H) (r : Request) :
    ∀ i ∈ invocations b fatal p w r, H i.hooks → Reticent i := by
  intro i hi hhooks
  cases r with
  | begin =>
    obtain ⟨c, hc, rfl⟩ := List.mem_map.mp hi
    exact adds_made (hb.begin p) (made_fireCalls _ _ _ _ _ _ c hc) hhooks
  | node n =>
    obtain ⟨c, hc, rfl⟩ := List.mem_map.mp hi
    exact adds_made (hb.node p n) (made_fireCalls _ _ _ _ _ _ c hc) hhooks
  | visit n a s =>
    obtain ⟨c, hc, rfl⟩ := List.mem_map.mp hi
    exact adds_made (hb.visit p n a) (made_fireCalls _ _ _ _ _ _ c hc) hhooks

theorem reticent_told (hb : Discreet b H) {o : Occasion} {outcome : Except Fault Report}
    (h : Told b fatal p o w is outcome w') : ∀ i ∈ is, H i.hooks → Reticent i := by
  intro i hi hhooks
  cases h with
  | begin hround =>
    obtain ⟨c, hc, rfl⟩ := List.mem_map.mp hi
    exact adds_made (hb.begin p) (hround.made c hc) hhooks
  | @node n _ _ _ _ hround =>
    obtain ⟨c, hc, rfl⟩ := List.mem_map.mp hi
    exact adds_made (hb.node p n) (hround.made c hc) hhooks

theorem reticent_announcement (hb : Discreet b H) {os : List Occasion} {fs : List HookFailure}
    {r : Except Fault Unit} (h : Announcement b fatal p os w fs is r w') :
    ∀ i ∈ is, H i.hooks → Reticent i := by
  induction h with
  | done w => exact fun i hi => absurd hi List.not_mem_nil
  | stops htold => exact reticent_told hb htold
  | next htold hrest ih => exact List.forall_mem_append.mpr ⟨reticent_told hb htold, ih⟩

theorem reticent_compileCalls (hb : Discreet b H) :
    ∀ i ∈ compileCalls b fatal p w, H i.hooks → Reticent i := by
  obtain ⟨fs, is, r, w', h⟩ := exists_announcement b fatal p w
  rw [h.compileCalls_eq]
  exact reticent_announcement hb h

theorem reticent_execCalls (hb : Discreet b H) (prog : Program) (subject : String) :
    ∀ i ∈ execCalls b fatal prog subject w, H i.hooks → Reticent i := by
  obtain ⟨visits, is, r, w', h⟩ :=
    exists_pursuit b fatal prog subject (Text.boundaries subject.toList) w
  rw [h.execCalls_eq]
  refine h.builds (P := fun _ _ is _ => ∀ i ∈ is, H i.hooks → Reticent i) ?_ ?_ ?_
  · exact fun w i hi => absurd hi List.not_mem_nil
  · intro v w calls w' hvisited i hi hhooks
    obtain ⟨c, hc, rfl⟩ := List.mem_map.mp hi
    exact adds_made (hb.visit prog.pattern v.node v.attempt) (hvisited.made c hc) hhooks
  · exact fun h h' => List.forall_mem_append.mpr ⟨h, h'⟩

end Discreet

section Script
open Script

mutual

/-- Whether an action may dispatch, itself or by an action inside it. -/
def mayDispatch : Action → Bool
  | .dispatch _ => true
  | .whenOp _ body => anyMayDispatch body
  | .once _ body => anyMayDispatch body
  | .within _ body => anyMayDispatch body
  | .attempt body => anyMayDispatch body
  | _ => false

def anyMayDispatch : Script → Bool
  | [] => false
  | a :: as => mayDispatch a || anyMayDispatch as

end

/-- Hooks none of whose scripts may dispatch. -/
def Homely (object : HookObject) : Prop :=
  match object.body with
  | .scripted onBegin onNode onVisit => ∀ o script,
    HookObject.scriptFor onBegin onNode onVisit o = some script → anyMayDispatch script = false
  | _ => True

mutual

/-- What does not dispatch does not depend on how it would. -/
theorem runAction_again (again again' : Redispatch) (p : Pattern) (o : Occasion) :
    ∀ (a : Action) (w : World HookObject Stage), mayDispatch a = false →
      runAction again p o a w = runAction again' p o a w
  | .emit value, w, _ => rfl
  | .look, w, _ => rfl
  | .fail message contexts, w, _ => rfl
  | .skip text, w, _ => rfl
  | .whenOp ops body, w, h => by simp only [runAction, runAll_again again again' p o body w h]
  | .once mark body, w, h => by simp only [runAction, runAll_again again again' p o body _ h]
  | .within context body, w, h => by simp only [runAction, runAll_again again again' p o body w h]
  | .attempt body, w, h => by simp only [runAction, runAll_again again again' p o body w h]
  | .register key hook, w, _ => rfl
  | .unregister key, w, _ => rfl
  | .clear, w, _ => rfl
  | .keys, w, _ => rfl
  | .edit e, w, _ => rfl

theorem runAll_again (again again' : Redispatch) (p : Pattern) (o : Occasion) :
    ∀ (as : Script) (w : World HookObject Stage), anyMayDispatch as = false →
      runAll again p o as w = runAll again' p o as w
  | [], w, _ => rfl
  | a :: as, w, h => by
    obtain ⟨ha, has⟩ := Bool.or_eq_false_iff.mp h
    simp only [runAll, runAction_again again again' p o a w ha]
    split
    · rfl
    · exact runAll_again again again' p o as _ has

end

theorem closed_adds : ScriptSteps.Closed fun w w' => Adds w.journal [] w'.journal where
  refl w := adds_refl w.journal
  trans h h' := h.trans h'
  remember w f := adds_refl w.journal
  write w label p s o := by
    apply adds_write_other
    cases o <;> rfl
  edit {w _ _ _} _ _ := adds_refl w.journal
  register w key object := by
    unfold World.register
    split
    · exact adds_refl w.journal
    · exact adds_write_other (w.setRegistry _) rfl
  unregister w key := by
    unfold World.unregister
    split
    · exact adds_refl w.journal
    · exact adds_write_other (w.setRegistry _) rfl
  clear w := by
    simp only [World.clear]
    split
    · exact adds_write_other (w.setRegistry _) rfl
    · exact adds_refl w.journal

theorem act_again (again again' : Redispatch) {object : HookObject} (hhomely : Homely object)
    (p : Pattern) (o : Occasion) (w : World HookObject Stage) :
    object.act again p o w = object.act again' p o w := by
  unfold HookObject.act
  cases hbody : object.body with
  | scripted onBegin onNode onVisit =>
    simp only [Homely, hbody] at hhomely
    cases hscript : HookObject.scriptFor onBegin onNode onVisit o with
    | none => simp only [hscript]
    | some script =>
      simp only [hscript]
      exact runAll_again again again' p o script w (hhomely o script hscript)
  | _ => rfl

/-- Hooks that may not dispatch leave no record of the dispatcher, whatever a dispatch would do. -/
theorem adds_act (again : Redispatch) {object : HookObject} (hhomely : Homely object) (p : Pattern)
    (o : Occasion) (w : World HookObject Stage) :
    Adds w.journal [] (object.act again p o w).2.journal := by
  rw [act_again again (fun _ w => (.error HookObject.tooDeep, w)) hhomely]
  exact closed_adds.act (fun _ w => adds_refl w.journal) object p o w

theorem discreet_behaviourWith (again : Occasion → Redispatch) :
    Discreet (HookObject.behaviourWith again) Homely where
  begin p w hhomely := adds_act (again .begin) hhomely p .begin (w.enter none)
  node p n w hhomely := adds_act (again (.node n)) hhomely p (.node n) (w.enter none)
  visit p n a w hhomely := adds_act (again (.visit n a)) hhomely p (.visit n a)
    (w.settle.2.enter (some w.settle.1))

theorem discreet_behaviour (fatal : Bool) (depth : ℕ) :
    Discreet (HookObject.behaviour fatal depth) Homely := by
  cases depth with
  | zero => exact discreet_behaviourWith _
  | succ depth => exact discreet_behaviourWith _

end Script

end PatternHooks.DiscreetHooks
