import Mathlib.Data.List.ProdSigma
import PatternHooks.Proofs.EngineCourse

/-!
Which hooks a run calls, and when, as long as the registry stays as it is. The hooks that attend are
those found under the keys of the pattern, in the order of the keys, if they handle the phase. Each
visit calls all of them in turn, and one that fails is noted under its key.
-/

namespace PatternHooks.Attendance

open Engine Dispatch CallLog EngineCourse Visits

variable {η ρ σ : Type}

/-- A key with the hooks found under it, if they handle the phase. -/
def attendant? (supports : η → Bool) (r : Registry η) (key : String) : Option (String × η) :=
  (((r.lookup key).map Entry.hooks).filter supports).map (key, ·)

def attendants (supports : η → Bool) (r : Registry η) (keys : List String) : List (String × η) :=
  keys.filterMap (attendant? supports r)

/-- If hooks that handle the phase are registered under every key, they all attend. -/
theorem map_fst_attendants {supports : η → Bool} {r : Registry η} {keys : List String}
    (h : ∀ key ∈ keys, ∃ e, r.lookup key = some e ∧ supports e.hooks = true) :
    (attendants supports r keys).map Prod.fst = keys := by
  induction keys with
  | nil => rfl
  | cons key keys ih =>
    obtain ⟨e, hentry, hs⟩ := h key List.mem_cons_self
    have hkey : attendant? supports r key = some (key, e.hooks) := by
      simp [attendant?, hentry, hs, Option.filter]
    have hkeys := ih fun key' hkey' => h key' (List.mem_cons_of_mem key hkey')
    rw [attendants] at hkeys ⊢
    rw [List.filterMap_cons_some hkey, List.map_cons, hkeys]

theorem attendants_cons (supports : η → Bool) (r : Registry η) (key : String)
    (keys : List String) : attendants supports r (key :: keys) =
      (attendant? supports r key).toList ++ attendants supports r keys := by
  rw [attendants, List.filterMap_cons, attendants]
  cases attendant? supports r key <;> rfl

/-- What is noted of a call under a key. -/
def blame (key : String) : Except Trouble Unit → Option HookFailure
  | .ok () => none
  | .error t => some ⟨key, t.render⟩

section Round
variable {supports : η → Bool} {call : η → Effect η ρ} {key : String} {w w' : World η ρ}

/-- A turn calls the hooks that attend for its key, and reports them if they fail. -/
theorem turn_attended {v : Verdict} {called : List η} (h : Decided supports call key w v called w')
    (report : Report) :
    (turnCalls w v called w').map Call.hooks =
      (attendant? supports w.registry key).toList.map Prod.snd ∧
    (note report key v).failures = report.failures ++
      ((attendant? supports w.registry key).toList.zip (turnCalls w v called w')).filterMap
        fun x => blame x.1.1 x.2.result := by
  cases h with
  | missing hentry =>
    simp [attendant?, hentry, turnCalls, note, Report.addMissing]
  | unsupported hentry hs =>
    simp [attendant?, hentry, hs, Option.filter, turnCalls, note]
  | fired hentry hs hcall =>
    simp [attendant?, hentry, hs, Option.filter, turnCalls, note, Report.addFired, resultOf, blame]
  | failed hentry hs hcall =>
    simp [attendant?, hentry, hs, Option.filter, turnCalls, note, Report.addFailure, resultOf,
      blame]

/-- Calls that each leave the registry leave it together. -/
theorem registry_of_linked {calls : List (Call η ρ)} (h : Linked w calls w')
    (hregistry : ∀ c ∈ calls, c.after.registry = c.before.registry) :
    w'.registry = w.registry := by
  refine h.keeps (P := fun u => u.registry = w.registry) ?_ ?_ rfl
  · exact fun halike hu => halike.registry.trans hu
  · exact fun c hc hbefore => (hregistry c hc).trans hbefore

/-- A dispatch that leaves the registry calls all hooks that attend. -/
theorem round_attended {fatal : Bool} {phase : Phase} {p : Pattern} {keys : List String}
    {report : Report} {calls : List (Call η ρ)} {outcome : Except Fault Report}
    (h : Round fatal phase p supports call keys report w calls outcome w')
    (hregistry : ∀ c ∈ calls, c.after.registry = c.before.registry)
    (hwell : fatal = true → ∀ c ∈ calls, c.result = .ok ()) :
    calls.map Call.hooks = (attendants supports w.registry keys).map Prod.snd ∧
    ∃ report', outcome = .ok report' ∧ report'.failures = report.failures ++
      ((attendants supports w.registry keys).zip calls).filterMap
        fun x => blame x.1.1 x.2.result := by
  induction h with
  | done report w => exact ⟨rfl, report, rfl, (List.append_nil _).symm⟩
  | @goes key keys report w w₁ w₂ v called calls outcome hturn hgoes hrest ih =>
    obtain ⟨hregistry₁, hregistry₂⟩ := List.forall_mem_append.mp hregistry
    -- The other keys are looked up in the registry that this turn leaves, which is still the same.
    have hsame : (chronicle phase p key w₁ v).registry = w.registry :=
      (alike_chronicle phase p key w₁ v).registry.trans
        (registry_of_linked (linked_turn hturn) hregistry₁)
    obtain ⟨hhooks₁, hfailures₁⟩ := turn_attended hturn report
    obtain ⟨hhooks₂, report', houtcome, hfailures₂⟩ :=
      ih hregistry₂ fun hfatal => (List.forall_mem_append.mp (hwell hfatal)).2
    rw [hsame] at hhooks₂ hfailures₂
    have hlength : (attendant? supports w.registry key).toList.length =
        (turnCalls w v called w₁).length := by
      have hlengths := congrArg List.length hhooks₁
      rw [List.length_map, List.length_map] at hlengths
      exact hlengths.symm
    rw [attendants_cons, List.zip_append hlength]
    refine ⟨?_, report', houtcome, ?_⟩
    · rw [List.map_append, List.map_append, hhooks₁, hhooks₂]
    · rw [hfailures₂, hfailures₁, List.filterMap_append, List.append_assoc]
  | stops hfatal hturn =>
    obtain ⟨e, _, hcalls⟩ := turnCalls_failed hturn
    rw [hcalls] at hwell
    cases hwell hfatal _ (List.mem_singleton_self _)

end Round

section Run
variable {b : Behaviour η σ} {fatal : Bool} {p : Pattern} {v : Visit} {w w' : World η σ}

/-- The hooks that attend the visits of nodes. -/
def attending (b : Behaviour η σ) (p : Pattern) (r : Registry η) : List (String × η) :=
  attendants (b.supports · .execNode) r p.hookKeys

/-- What a run, or a part of it, does with its visits and calls while the registry stays: every
visit calls the hooks that attend, and what is noted are the failures of these calls. -/
structure Attended (attending : List (String × η)) (visits : List Visit)
    (is : List (Invocation η σ)) : Prop where
  calls : is.map (fun c => (c.occasion, c.hooks)) =
    (visits.map Visit.occasion ×ˢ attending).map fun x => (x.1, x.2.2)
  failures : visits.flatMap Visit.failures =
    ((visits.map Visit.occasion ×ˢ attending).zip is).filterMap fun x => blame x.1.2.1 x.2.result

theorem Attended.nil (attending : List (String × η)) :
    Attended attending [] ([] : List (Invocation η σ)) := ⟨rfl, rfl⟩

theorem Attended.append {attending : List (String × η)} {visits₁ visits₂ : List Visit}
    {is₁ is₂ : List (Invocation η σ)} (h₁ : Attended attending visits₁ is₁)
    (h₂ : Attended attending visits₂ is₂) :
    Attended attending (visits₁ ++ visits₂) (is₁ ++ is₂) := by
  have hproduct : (visits₁ ++ visits₂).map Visit.occasion ×ˢ attending =
      (visits₁.map Visit.occasion ×ˢ attending) ++ (visits₂.map Visit.occasion ×ˢ attending) := by
    rw [List.map_append]
    exact List.flatMap_append
  have hlength : (visits₁.map Visit.occasion ×ˢ attending).length = is₁.length := by
    have hlengths := congrArg List.length h₁.calls
    rw [List.length_map, List.length_map] at hlengths
    exact hlengths.symm
  constructor
  · rw [hproduct, List.map_append, List.map_append, h₁.calls, h₂.calls]
  · rw [hproduct, List.zip_append hlength, List.flatMap_append, List.filterMap_append, h₁.failures,
      h₂.failures]

theorem visit_attended {calls : List (Call η (σ × MatchState))}
    (h : Visited b fatal p v w calls w')
    (hregistry : ∀ c ∈ v.invocations calls, c.after.registry = c.before.registry)
    (hwell : fatal = true → ∀ c ∈ v.invocations calls, c.result = .ok ()) :
    w'.registry = w.registry ∧ Attended (attending b p w.registry) [v] (v.invocations calls) := by
  have hkept : ∀ c ∈ calls, c.after.registry = c.before.registry := List.forall_mem_map.mp hregistry
  have hsame : (w'.lend v.left).registry = w.registry := registry_of_linked h.linked hkept
  obtain ⟨hhooks, report, houtcome, hfailures⟩ := round_attended h hkept
    fun hfatal => List.forall_mem_map.mp (hwell hfatal)
  change calls.map Call.hooks = (attending b p w.registry).map Prod.snd at hhooks
  change report.failures = [] ++ ((attending b p w.registry).zip calls).filterMap _ at hfailures
  have hproduct : [v].map Visit.occasion ×ˢ attending b p w.registry =
      (attending b p w.registry).map (Prod.mk v.occasion) := List.flatMap_singleton _ _
  refine ⟨hsame, ?_, ?_⟩
  · calc (v.invocations calls).map (fun c => (c.occasion, c.hooks))
        = (calls.map Call.hooks).map (Prod.mk v.occasion) := by
          rw [Visit.invocations, List.map_map, List.map_map]
          rfl
      _ = ((attending b p w.registry).map Prod.snd).map (Prod.mk v.occasion) := by rw [hhooks]
      _ = _ := by
          rw [hproduct, List.map_map, List.map_map]
          rfl
  · have hnoted : v.failures = report.failures := by rw [Visit.failures, houtcome]
    rw [hproduct, Visit.invocations, List.zip_map, List.filterMap_map, List.flatMap_singleton,
      hnoted, hfailures, List.nil_append]
    rfl

variable {visits : List Visit} {is : List (Invocation η σ)}

theorem pursuit_attended {prog : Program} {subject : String} {starts : List ℕ}
    {r : Except Fault (Option (ℕ × ℕ))}
    (h : Pursuit b fatal prog subject starts w visits is r w')
    (hregistry : ∀ c ∈ is, c.after.registry = c.before.registry)
    (hwell : fatal = true → ∀ c ∈ is, c.result = .ok ()) :
    Attended (attending b prog.pattern w.registry) visits is := by
  have hbuilds := h.builds (P := fun w visits is w' =>
    (∀ c ∈ is, c.after.registry = c.before.registry) →
      (fatal = true → ∀ c ∈ is, c.result = .ok ()) →
        w'.registry = w.registry ∧ Attended (attending b prog.pattern w.registry) visits is)
    (fun w _ _ => ⟨rfl, .nil _⟩) visit_attended ?_
  · exact (hbuilds hregistry hwell).2
  · intro w w' w'' visits visits' is is' h₁ h₂ hregistry hwell
    obtain ⟨hregistry₁, hregistry₂⟩ := List.forall_mem_append.mp hregistry
    obtain ⟨hsame₁, hattended₁⟩ := h₁ hregistry₁
      fun hfatal => (List.forall_mem_append.mp (hwell hfatal)).1
    obtain ⟨hsame₂, hattended₂⟩ := h₂ hregistry₂
      fun hfatal => (List.forall_mem_append.mp (hwell hfatal)).2
    rw [hsame₁] at hsame₂ hattended₂
    exact ⟨hsame₂, hattended₁.append hattended₂⟩

end Run

/-- Under every key are hooks that never change the registry. -/
def Leaves (call : η → Effect η ρ) (r : Registry η) : Prop :=
  ∀ key e, r.lookup key = some e → ∀ w, (call e.hooks w).2.registry = w.registry

section Leaves

theorem turn_leaves {supports : η → Bool} {call : η → Effect η ρ} {key : String}
    {w w' : World η ρ} {v : Verdict} {called : List η}
    (h : Decided supports call key w v called w') (hleaves : Leaves call w.registry) :
    ∀ c ∈ turnCalls w v called w', c.after.registry = c.before.registry := by
  cases h with
  | fired hentry hs hcall =>
    refine List.forall_mem_singleton.mpr ?_
    have hregistry := hleaves key _ hentry w
    rw [hcall] at hregistry
    exact hregistry
  | failed hentry hs hcall =>
    refine List.forall_mem_singleton.mpr ?_
    have hregistry := hleaves key _ hentry w
    rw [hcall] at hregistry
    exact hregistry
  | _ => exact fun c hc => absurd hc List.not_mem_nil

theorem round_leaves {fatal : Bool} {phase : Phase} {p : Pattern} {supports : η → Bool}
    {call : η → Effect η ρ} {keys : List String} {report : Report} {w w' : World η ρ}
    {calls : List (Call η ρ)} {outcome : Except Fault Report}
    (h : Round fatal phase p supports call keys report w calls outcome w')
    (hleaves : Leaves call w.registry) : ∀ c ∈ calls, c.after.registry = c.before.registry := by
  induction h with
  | done report w => exact fun c hc => absurd hc List.not_mem_nil
  | @goes key keys report w w₁ w₂ v called calls outcome hturn hgoes hrest ih =>
    have hhere := turn_leaves hturn hleaves
    have hsame : (chronicle phase p key w₁ v).registry = w.registry :=
      (alike_chronicle phase p key w₁ v).registry.trans
        (registry_of_linked (linked_turn hturn) hhere)
    rw [← hsame] at hleaves
    exact List.forall_mem_append.mpr ⟨hhere, ih hleaves⟩
  | stops hfatal hturn => exact turn_leaves hturn hleaves

variable {b : Behaviour η σ} {fatal : Bool} {p : Pattern} {w w' : World η σ}
  {visits : List Visit} {is : List (Invocation η σ)}

theorem visit_leaves {v : Visit} {calls : List (Call η (σ × MatchState))}
    (h : Visited b fatal p v w calls w')
    (hleaves : ∀ n a, Leaves (b.onExecNode · p n a) w.registry) :
    (∀ c ∈ v.invocations calls, c.after.registry = c.before.registry) ∧
      w'.registry = w.registry := by
  have hkept := round_leaves h (hleaves v.node v.attempt)
  have hsame : (w'.lend v.left).registry = w.registry := registry_of_linked h.linked hkept
  exact ⟨List.forall_mem_map.mpr hkept, hsame⟩

/-- A search whose hooks never change the registry leaves it in every call. -/
theorem pursuit_leaves {prog : Program} {subject : String} {starts : List ℕ}
    {r : Except Fault (Option (ℕ × ℕ))}
    (h : Pursuit b fatal prog subject starts w visits is r w')
    (hleaves : ∀ n a, Leaves (b.onExecNode · prog.pattern n a) w.registry) :
    ∀ c ∈ is, c.after.registry = c.before.registry := by
  have hbuilds := h.builds (P := fun w _ is w' =>
    (∀ n a, Leaves (b.onExecNode · prog.pattern n a) w.registry) →
      (∀ c ∈ is, c.after.registry = c.before.registry) ∧ w'.registry = w.registry)
    (fun w _ => ⟨fun c hc => absurd hc List.not_mem_nil, rfl⟩) visit_leaves ?_
  · exact (hbuilds hleaves).1
  · intro w w' w'' _ _ is is' h₁ h₂ hleaves
    obtain ⟨hkept, hsame⟩ := h₁ hleaves
    rw [← hsame] at hleaves
    obtain ⟨hkept', hsame'⟩ := h₂ hleaves
    exact ⟨List.forall_mem_append.mpr ⟨hkept, hkept'⟩, hsame'.trans hsame⟩

end Leaves

/-- The hooks add the event of each visit to those that are found in the hooks' own state. -/
def Records (b : Behaviour η σ) (events : σ → List String) (h : η) : Prop :=
  ∀ p n a w, events (b.onExecNode h p n a w).2.own.1 =
    events w.own.1 ++ [Bundled.event (.visit n a)]

/-- What a call adds to the events that some hooks record. -/
def gained (mine : η → Bool) (c : Invocation η σ) : List String :=
  if mine c.hooks then [Bundled.event c.occasion] else []

section Recording
variable {b : Behaviour η σ} {events : σ → List String} {mine : η → Bool} {fatal : Bool}
  {p : Pattern} {w w' : World η σ} {visits : List Visit} {is : List (Invocation η σ)}

theorem visit_records {v : Visit} {calls : List (Call η (σ × MatchState))}
    (h : Visited b fatal p v w calls w')
    (hmine : ∀ hooks, mine hooks = true → Records b events hooks)
    (hothers : ∀ c ∈ v.invocations calls, mine c.hooks = false →
      events c.after.own.1 = events c.before.own.1) :
    events w'.own = events w.own ++ (v.invocations calls).flatMap (gained mine) := by
  have hgrows : events (w'.lend v.left).own.1 = events w.own ++
      calls.flatMap fun c => gained mine (.lent v.occasion c) := by
    refine h.linked.grows (f := fun own => events own.1) fun c hc => ?_
    cases hm : mine c.hooks with
    | false =>
      have hsame : events c.after.own.1 = events c.before.own.1 :=
        List.forall_mem_map.mp hothers c hc hm
      have hnone : gained mine (.lent v.occasion c) = [] := by
        rw [gained, Invocation.lent, hm]
        rfl
      rw [hsame, hnone, List.append_nil]
    | true =>
      have hadds := hmine c.hooks hm p v.node v.attempt c.before
      rw [h.made c hc] at hadds
      have hone : gained mine (.lent v.occasion c) = [Bundled.event v.occasion] := by
        rw [gained, Invocation.lent, hm]
        rfl
      rw [hone]
      exact hadds
  rw [Visit.invocations, List.flatMap_map]
  exact hgrows

theorem pursuit_records {prog : Program} {subject : String} {starts : List ℕ}
    {r : Except Fault (Option (ℕ × ℕ))}
    (h : Pursuit b fatal prog subject starts w visits is r w')
    (hmine : ∀ hooks, mine hooks = true → Records b events hooks)
    (hothers : ∀ c ∈ is, mine c.hooks = false → events c.after.own.1 = events c.before.own.1) :
    events w'.own = events w.own ++ is.flatMap (gained mine) := by
  refine h.builds (P := fun w _ is w' =>
    (∀ c ∈ is, mine c.hooks = false → events c.after.own.1 = events c.before.own.1) →
      events w'.own = events w.own ++ is.flatMap (gained mine)) ?_ ?_ ?_ hothers
  · exact fun w _ => (List.append_nil _).symm
  · exact fun hvisit hothers => visit_records hvisit hmine hothers
  · intro w w' w'' _ _ is is' h₁ h₂ hothers
    obtain ⟨hothers₁, hothers₂⟩ := List.forall_mem_append.mp hothers
    rw [h₂ hothers₂, h₁ hothers₁, List.flatMap_append, List.append_assoc]

theorem flatMap_ite {α γ : Type} (l : List α) (q : α → Bool) (y : γ) :
    (l.flatMap fun x => if q x then [y] else []) = (l.filter q).map fun _ => y := by
  induction l with
  | nil => rfl
  | cons x l ih =>
    rw [List.flatMap_cons, ih, List.filter_cons]
    cases q x <;> rfl

/-- Recording hooks gain the event of a visit once for each key under which they attend. -/
theorem Attended.gained_eq {attending : List (String × η)} (h : Attended attending visits is)
    (mine : η → Bool) : is.flatMap (gained mine) = (visits.map Visit.occasion).flatMap fun o =>
      (attending.filter fun x => mine x.2).map fun _ => Bundled.event o := by
  calc is.flatMap (gained mine)
      = (is.map fun c => (c.occasion, c.hooks)).flatMap
          fun x => if mine x.2 then [Bundled.event x.1] else [] := by
        rw [List.flatMap_map]
        rfl
    _ = (visits.map Visit.occasion ×ˢ attending).flatMap
          fun x => if mine x.2.2 then [Bundled.event x.1] else [] := by
        rw [h.calls, List.flatMap_map]
    _ = (visits.map Visit.occasion).flatMap fun o =>
          attending.flatMap fun x => if mine x.2 then [Bundled.event o] else [] := by
        rw [show visits.map Visit.occasion ×ˢ attending = (visits.map Visit.occasion).flatMap
          fun o => attending.map (Prod.mk o) from rfl, List.flatMap_assoc]
        simp only [List.flatMap_map]
    _ = _ := by simp only [flatMap_ite]

end Recording

/-- The library's recording hooks with this identity. -/
def recordsAs (id : ℕ) (object : HookObject) : Bool :=
  match object.body with
  | .recording _ => object.id == id
  | _ => false

theorem eventsOf_addEvent (m : Memory) (id : ℕ) (e : String) :
    (m.addEvent id e).eventsOf id = m.eventsOf id ++ [e] := by
  simp [Memory.addEvent, Memory.setEvents, Memory.eventsOf]

theorem records_recording (fatal : Bool) (depth id : ℕ) (object : HookObject)
    (h : recordsAs id object = true) :
    Records (HookObject.behaviour fatal depth) (·.eventsOf id) object := by
  intro p n a w
  obtain ⟨number, body⟩ := object
  cases body with
  | recording phases =>
    obtain rfl : number = id := eq_of_beq h
    cases depth <;> exact eventsOf_addEvent _ _ _
  | _ => cases h

end PatternHooks.Attendance
