import Mathlib.Logic.Relation
import PatternHooks.Host
import PatternHooks.Proofs.CallLog
import PatternHooks.Proofs.RegistryCalls
import PatternHooks.Proofs.ScriptSteps

/-!
What the registry and the journal of a world go through, one step at a time: a change of the
registry, or a record of anyone but the registry. Hooks that take such steps and no others make
dispatches that do so too. Scripted hooks are of this kind, however deep their dispatches are
nested.
-/

namespace PatternHooks.WorldSteps

open Dispatch CallLog RegistryCalls Visits

variable {η ρ ρ' ρ'' σ : Type}

/-- The world without the state of the hooks. -/
def bare (w : World η ρ) : World η Unit := owning w ()

inductive Step : World η Unit → World η Unit → Prop
  | change (w : World η Unit) (c : Change η) : Step w (c.perform w).2
  | write (w : World η Unit) (r : Record) (hr : r.target ≠ Reporter.registry.target) :
      Step w (w.write r)

/-- Registry and journal go from those of one world to those of the other by steps. -/
def Leads (w : World η ρ) (w' : World η ρ') : Prop := Relation.ReflTransGen Step (bare w) (bare w')

theorem leads_of_bare {w : World η ρ} {w' : World η ρ'} (h : bare w' = bare w) : Leads w w' := by
  rw [Leads, h]

theorem leads_refl (w : World η ρ) : Leads w w := leads_of_bare rfl

theorem Leads.trans {w : World η ρ} {w' : World η ρ'} {w'' : World η ρ''} (h : Leads w w')
    (h' : Leads w' w'') : Leads w w'' :=
  Relation.ReflTransGen.trans h h'

theorem leads_of_step {w : World η ρ} {w' : World η ρ'} (h : Step (bare w) (bare w')) :
    Leads w w' :=
  Relation.ReflTransGen.single h

theorem leads_perform (w : World η ρ) (c : Change η) : Leads w (c.perform w).2 := by
  have hbare : bare (c.perform w).2 = (c.perform (bare w)).2 :=
    (congrArg Prod.snd (c.perform_owning w ())).symm
  apply leads_of_step
  rw [hbare]
  exact .change (bare w) c

theorem leads_write (w : World η ρ) {r : Record} (hr : r.target ≠ Reporter.registry.target) :
    Leads w (w.write r) :=
  leads_of_step (.write (bare w) r hr)

theorem leads_dispatcher (w : World η ρ) (level : Level) (message : String)
    (data : List (String × Datum)) :
    Leads w (w.write (Reporter.dispatcher.record level message data)) :=
  leads_write w (show Reporter.dispatcher.target ≠ Reporter.registry.target by decide)

theorem leads_shutdown (w : World η ρ) : Leads w (Host.shutdown w).2 :=
  (leads_perform w .clear).trans
    (leads_write w.clear.2 (show Reporter.host.target ≠ Reporter.registry.target by decide))

theorem leads_chronicle (phase : Phase) (p : Pattern) (key : String) (w : World η ρ)
    (v : Verdict) : Leads w (chronicle phase p key w v) := by
  cases v with
  | missing => exact leads_dispatcher w ..
  | failed t => exact leads_dispatcher w ..
  | _ => exact leads_refl w

section Round
variable {fatal : Bool} {phase : Phase} {p : Pattern} {supports : η → Bool}
  {call : η → Effect η ρ} {key : String} {keys : List String} {report : Report} {w w' : World η ρ}
  {v : Verdict} {called : List η} {calls : List (Call η ρ)} {outcome : Except Fault Report}

/-- A turn leads from the world that it finds to the one that it leaves, and its call is between. -/
theorem leads_turn (hcall : ∀ h w, Leads w (call h w).2)
    (h : Decided supports call key w v called w') :
    Leads w w' ∧ ∀ c ∈ turnCalls w v called w', Leads w c.before ∧ Leads w c.after := by
  cases h with
  | missing hentry => exact ⟨leads_refl w, fun c hc => absurd hc List.not_mem_nil⟩
  | unsupported hentry hs => exact ⟨leads_refl w, fun c hc => absurd hc List.not_mem_nil⟩
  | @fired e w' hentry hs hmade =>
    have hleads : Leads w w' := by simpa only [hmade] using hcall e.hooks w
    exact ⟨hleads, List.forall_mem_singleton.mpr ⟨leads_refl w, hleads⟩⟩
  | @failed e t w' hentry hs hmade =>
    have hleads : Leads w w' := by simpa only [hmade] using hcall e.hooks w
    exact ⟨hleads, List.forall_mem_singleton.mpr ⟨leads_refl w, hleads⟩⟩

theorem Round.leads (hcall : ∀ h w, Leads w (call h w).2)
    (h : Round fatal phase p supports call keys report w calls outcome w') :
    Leads w w' ∧ ∀ c ∈ calls, Leads w c.before ∧ Leads w c.after := by
  induction h with
  | done report w => exact ⟨leads_refl w, fun c hc => absurd hc List.not_mem_nil⟩
  | @goes key keys report w w₁ w₂ v called calls outcome hturn hgoes hrest ih =>
    obtain ⟨hleads, hcalls⟩ := leads_turn hcall hturn
    have hnext := hleads.trans (leads_chronicle phase p key w₁ v)
    refine ⟨hnext.trans ih.1, fun c hc => ?_⟩
    rcases List.mem_append.mp hc with hc | hc
    · exact hcalls c hc
    · exact ⟨hnext.trans (ih.2 c hc).1, hnext.trans (ih.2 c hc).2⟩
  | stops hfatal hturn => exact leads_turn hcall hturn

end Round

/-- When every call of a dispatch takes steps only, so does the dispatch. -/
theorem leads_fire {call : η → Effect η ρ} (hcall : ∀ h w, Leads w (call h w).2) (fatal : Bool)
    (phase : Phase) (p : Pattern) (supports : η → Phase → Bool) (w : World η ρ) :
    Leads w (fire fatal phase p supports call w).2 ∧
      ∀ c ∈ fireCalls fatal phase p supports call w, Leads w c.before ∧ Leads w c.after := by
  obtain ⟨calls, outcome, w', hround⟩ :=
    exists_round fatal phase p (supports · phase) call p.hookKeys { phase } w
  rw [hround.fire_eq, hround.fireCalls_eq]
  exact Round.leads hcall hround

/-- Every call of the hooks takes steps only. -/
structure BySteps (b : Behaviour η σ) : Prop where
  begin : ∀ p h w, Leads w (b.onCompileBegin h p w).2
  node : ∀ p n h w, Leads w (b.onCompileNode h p n w).2
  visit : ∀ p n a h w, Leads w (b.onExecNode h p n a w).2

section Script
open HookObject

theorem closed_leads : ScriptSteps.Closed Leads where
  refl w := leads_refl w
  trans h h' := h.trans h'
  remember _ _ := leads_of_bare rfl
  write w label p s o := by
    have hr : Reporter.bundled.target ≠ Reporter.registry.target := by decide
    cases o <;> exact leads_write w hr
  edit _ _ := leads_of_bare rfl
  register w key object := leads_perform w (.register key object)
  unregister w key := leads_perform w (.unregister key)
  clear w := leads_perform w .clear

theorem bySteps_behaviourWith {again : Occasion → Script.Redispatch}
    (hagain : ∀ o p w, Leads w (again o p w).2) : BySteps (behaviourWith again) where
  begin p object w := closed_leads.act (hagain .begin) object p .begin (w.enter none)
  node p n object w := closed_leads.act (hagain (.node n)) object p (.node n) (w.enter none)
  visit p n a object w := closed_leads.act (hagain (.visit n a)) object p (.visit n a)
    (w.settle.2.enter (some w.settle.1))

theorem leads_redispatch {b : Behaviour HookObject Memory} (h : BySteps b) (fatal : Bool)
    (o : Occasion) (p : Pattern) (w : World HookObject Stage) :
    Leads w (redispatch b fatal o p w).2 := by
  cases o with
  | begin =>
    have hopening : Leads w.leave (w.leave.write (beginning p)) := leads_dispatcher w.leave ..
    exact hopening.trans (leads_fire (h.begin p) fatal .compileBegin p b.supports _).1
  | node n =>
    have hopening : Leads w.leave (w.leave.write (compiling p n)) := leads_dispatcher w.leave ..
    exact hopening.trans (leads_fire (h.node p n) fatal .compileNode p b.supports _).1
  | visit n a =>
    cases hs : w.own.2 with
    | none =>
      simp only [redispatch, hs]
      exact leads_refl w
    | some s =>
      have hopening : Leads w.leave (w.leave.write (visiting p n s)) :=
        leads_dispatcher w.leave ..
      simp only [redispatch, hs]
      exact hopening.trans (leads_fire (h.visit p n a) fatal .execNode p b.supports
        ((w.leave.write (visiting p n s)).lend s)).1

/-- Scripted hooks take steps only, and so do the others. -/
theorem bySteps_behaviour (fatal : Bool) (depth : ℕ) : BySteps (behaviour fatal depth) := by
  induction depth with
  | zero => exact bySteps_behaviourWith fun _ _ w => leads_refl w
  | succ depth ih => exact bySteps_behaviourWith fun o p w => leads_redispatch ih fatal o p w

end Script

end PatternHooks.WorldSteps
