import PatternHooks.Hooks.Script

/-!
What scripts do, step by step. A relation between worlds that holds of every single thing that a
script may do, and of one thing done after another, holds of all scripted hooks, and of the
recording, tracing and silent ones.
-/

namespace PatternHooks.ScriptSteps

open Script

/-- The relation holds of every single thing that a script may do, dispatches apart. -/
structure Closed (R : World HookObject Stage → World HookObject Stage → Prop) : Prop where
  refl : ∀ w, R w w
  trans : ∀ {w₁ w₂ w₃}, R w₁ w₂ → R w₂ w₃ → R w₁ w₃
  remember : ∀ w f, R w (remember w f)
  write : ∀ w label p s o, R w (w.write (Bundled.record label p s o))
  edit : ∀ {w s t e}, w.own.2 = some s → s.edit e = .ok t →
    R w { w with own := (w.own.1, some t) }
  register : ∀ w key object, R w (w.register key object).2
  unregister : ∀ w key, R w (w.unregister key).2
  clear : ∀ w, R w w.clear.2

section Steps
variable {R : World HookObject Stage → World HookObject Stage → Prop} {again : Redispatch}
  {p : Pattern} {o : Occasion}

theorem Closed.reveal (hR : Closed R) (w : World HookObject Stage) (s : Sight) :
    R w (reveal w s) :=
  hR.remember w fun m => m.addSight s

theorem Closed.editState (hR : Closed R) (e : MatchState.Edit) (w : World HookObject Stage) :
    R w (editState e w).2 := by
  unfold Script.editState
  split
  · exact hR.refl w
  · rename_i s hs
    split
    · rename_i t he
      exact hR.edit hs he
    · exact hR.refl w

theorem Closed.skipText (hR : Closed R) (a : Option Attempt) (text : String)
    (w : World HookObject Stage) : R w (skipText a text w).2 := by
  unfold Script.skipText
  split
  · split
    · exact hR.editState _ w
    · exact hR.refl w
  · exact hR.refl w

theorem Closed.dispatchTo (hR : Closed R) (hagain : ∀ p w, R w (again p w).2)
    (keys : List String) (w : World HookObject Stage) : R w (dispatchTo again p keys w).2 := by
  have hgive : R w (Script.remember w fun _ => w.own.1.give.2) := hR.remember w _
  have hrun := hR.trans hgive (hagain { p with id := identifier w.own.1.give.1, hookKeys := keys }
    (Script.remember w fun _ => w.own.1.give.2))
  simp only [Script.dispatchTo]
  split
  · rename_i hresult
    rw [hresult] at hrun
    exact hrun
  · rename_i hresult
    rw [hresult] at hrun
    exact hR.trans hrun (hR.reveal _ _)

mutual

theorem Closed.runAction (hR : Closed R) (hagain : ∀ p w, R w (again p w).2) :
    ∀ (a : Action) (w : World HookObject Stage), R w (runAction again p o a w).2
  | .emit value, w => hR.reveal w _
  | .look, w => hR.reveal w _
  | .fail message contexts, w => hR.refl w
  | .skip text, w => hR.skipText o.attempt? text w
  | .whenOp ops body, w => by
    unfold Script.runAction
    split
    · split
      · exact hR.runAll hagain body w
      · exact hR.refl w
    · exact hR.refl w
  | .once mark body, w => by
    unfold Script.runAction
    split
    · exact hR.refl w
    · exact hR.trans (hR.remember w _) (hR.runAll hagain body _)
  | .within context body, w => by
    have hbody := hR.runAll hagain body w
    unfold Script.runAction
    split
    · rename_i hresult
      rw [hresult] at hbody
      exact hbody
    · rename_i hresult
      rw [hresult] at hbody
      exact hbody
  | .attempt body, w => by
    have hbody := hR.runAll hagain body w
    unfold Script.runAction
    split
    · rename_i hresult
      rw [hresult] at hbody
      exact hR.trans hbody (hR.reveal _ _)
    · rename_i hresult
      rw [hresult] at hbody
      exact hbody
  | .register key hook, w => by
    unfold Script.runAction
    split
    · exact hR.refl w
    · rename_i object _
      have hregister := hR.register w key object
      split
      · rename_i hresult
        rw [hresult] at hregister
        exact hregister
      · rename_i hresult
        rw [hresult] at hregister
        exact hregister
  | .unregister key, w => hR.trans (hR.unregister w key) (hR.reveal _ _)
  | .clear, w => hR.trans (hR.clear w) (hR.reveal _ _)
  | .keys, w => hR.reveal w _
  | .dispatch keys, w => hR.dispatchTo hagain keys w
  | .edit e, w => hR.editState e w

theorem Closed.runAll (hR : Closed R) (hagain : ∀ p w, R w (again p w).2) :
    ∀ (as : List Action) (w : World HookObject Stage), R w (runAll again p o as w).2
  | [], w => hR.refl w
  | a :: as, w => by
    have hfirst := hR.runAction hagain a w
    unfold Script.runAll
    split
    · rename_i hresult
      rw [hresult] at hfirst
      exact hfirst
    · rename_i hresult
      rw [hresult] at hfirst
      exact hR.trans hfirst (hR.runAll hagain as _)

end

/-- Whatever the kind of the hooks, the relation holds of their calls if it holds of the dispatches
that they may start. -/
theorem Closed.act (hR : Closed R) (hagain : ∀ p w, R w (again p w).2) (object : HookObject)
    (p : Pattern) (o : Occasion) (w : World HookObject Stage) :
    R w (object.act again p o w).2 := by
  unfold HookObject.act
  cases object.body with
  | recording phases => exact hR.remember w fun m => m.addEvent object.id (Bundled.event o)
  | tracing label => exact hR.write w label p w.own.2 o
  | silent phases => exact hR.refl w
  | scripted onBegin onNode onVisit =>
    cases hscript : HookObject.scriptFor onBegin onNode onVisit o with
    | none =>
      simp only [hscript]
      exact hR.refl w
    | some script =>
      simp only [hscript]
      exact hR.runAll hagain script w

end Steps

end PatternHooks.ScriptSteps
