import PatternHooks.Proofs.DispatchCourse
import PatternHooks.Proofs.EngineCourse
import PatternHooks.Proofs.HostRuns

/-!
What a dispatch leaves in the journal, as long as its hooks do not dispatch themselves. It opens
with one record. Then, in the order of the keys, each position without hooks leaves a record, and
so does each failure that is tolerated; they say what the report says. A fatal dispatch that fails
has recorded the positions before the failing one, and nothing of that one.
-/

namespace PatternHooks.DispatchRecords

open Dispatch DispatchCourse CallLog EngineCourse HostRuns Visits

variable {η ρ σ : Type}

/-- Whether the dispatcher wrote a record. -/
def isOwn (r : Record) : Bool := r.target == Reporter.dispatcher.target

/-- Between two states of the journal records are added, and these are the dispatcher's own. -/
def Adds (journal own journal' : List Record) : Prop :=
  ∃ made, journal' = journal ++ made ∧ made.filter isOwn = own

section Adds
variable {journal journal' journal'' own own' : List Record}

theorem adds_refl (journal : List Record) : Adds journal [] journal :=
  ⟨[], (List.append_nil journal).symm, rfl⟩

theorem Adds.trans (h : Adds journal own journal') (h' : Adds journal' own' journal'') :
    Adds journal (own ++ own') journal'' := by
  obtain ⟨made, rfl, rfl⟩ := h
  obtain ⟨made', rfl, rfl⟩ := h'
  exact ⟨made ++ made', List.append_assoc journal made made', List.filter_append made made'⟩

theorem adds_write (w : World η ρ) {r : Record} (hr : isOwn r = true) :
    Adds w.journal [r] (w.write r).journal :=
  ⟨[r], rfl, List.filter_cons_of_pos hr⟩

/-- Records of others count for nothing. -/
theorem adds_write_other (w : World η ρ) {r : Record} (hr : isOwn r = false) :
    Adds w.journal [] (w.write r).journal :=
  ⟨[r], rfl, List.filter_cons_of_neg (Bool.eq_false_iff.mp hr)⟩

end Adds

/-- What the dispatcher writes of a position. -/
def remarks (phase : Phase) (p : Pattern) (turn : Turn η) : List Record :=
  match turn.verdict with
  | .missing => [noHooks phase turn.key]
  | .failed t => [hookFailed phase p ⟨turn.key, t.render⟩]
  | _ => []

theorem adds_chronicle (phase : Phase) (p : Pattern) (key : String) (v : Verdict)
    (called : List η) (w : World η ρ) :
    Adds w.journal (remarks phase p ⟨key, v, called⟩) (chronicle phase p key w v).journal := by
  cases v with
  | missing => exact adds_write w rfl
  | failed t => exact adds_write w rfl
  | _ => exact adds_refl w.journal

/-- The warnings of a dispatch are its failures. -/
theorem filter_warn_remarks (phase : Phase) (p : Pattern) (turns : List (Turn η)) :
    (turns.flatMap (remarks phase p)).filter (·.level = .warn) =
      (failuresOf turns).map (hookFailed phase p) := by
  induction turns with
  | nil => rfl
  | cons turn turns ih =>
    obtain ⟨key, v, called⟩ := turn
    rw [List.flatMap_cons, List.filter_append, ih]
    cases v <;> rfl

/-- And its other records, once it has opened, are about the missing keys. -/
theorem filter_debug_remarks (phase : Phase) (p : Pattern) (turns : List (Turn η)) :
    (turns.flatMap (remarks phase p)).filter (·.level = .debug) =
      (keysOf .missing turns).map (noHooks phase) := by
  induction turns with
  | nil => rfl
  | cons turn turns ih =>
    obtain ⟨key, v, called⟩ := turn
    rw [List.flatMap_cons, List.filter_append, ih]
    cases v <;> rfl

/-- The failures that the outcome of a dispatch tells of. -/
def reported : Except Fault Report → List HookFailure
  | .ok report => report.failures
  | .error _ => []

/-- The positions that a dispatch passes, each decided by the world found when its turn comes: all
of them, or those before the one whose failure ends the dispatch. -/
inductive Passes (fatal : Bool) (phase : Phase) (p : Pattern) (supports : η → Bool)
    (call : η → Effect η ρ) (i : ℕ) (keys : List String) (report : Report) (w : World η ρ)
    (turns : List (Turn η)) : Except Fault Report → World η ρ → Prop
  | all {w' : World η ρ} (hcourse : Course .quiet phase p supports call i keys w turns w')
      (hwell : fatal = true → failuresOf turns = []) :
      Passes fatal phase p supports call i keys report w turns (.ok (addTurns report turns)) w'
  | fails {passed later : List String} {key : String} {w₁ w' : World η ρ} {called : List η}
      {t : Trouble} (hkeys : keys = passed ++ key :: later)
      (hcourse : Course .quiet phase p supports call i passed w turns w₁) (hfatal : fatal = true)
      (hwell : failuresOf turns = []) (hturn : Decided supports call key w₁ (.failed t) called w') :
      Passes fatal phase p supports call i keys report w turns (.error (fatalFault key phase t)) w'

section Passes
variable {fatal : Bool} {phase : Phase} {p : Pattern} {supports : η → Bool}
  {call : η → Effect η ρ} {i : ℕ} {key : String} {keys : List String} {report : Report}
  {w w₁ w' : World η ρ} {v : Verdict} {called : List η} {turns : List (Turn η)}
  {calls : List (Call η ρ)} {outcome : Except Fault Report}

theorem failuresOf_cons_of_well (hv : ∀ t, v ≠ .failed t) (turns : List (Turn η)) :
    failuresOf (⟨key, v, called⟩ :: turns) = failuresOf turns := by
  cases v with
  | failed t => exact absurd rfl (hv t)
  | _ => rfl

/-- A dispatch that goes on after a turn passes its position first. -/
theorem Passes.cons (hturn : Decided supports call key w v called w₁)
    (hgoes : fatal = false ∨ ∀ t, v ≠ .failed t)
    (hrest : Passes fatal phase p supports call (i + 1) keys (note report key v)
      (chronicle phase p key w₁ v) turns outcome w') :
    Passes fatal phase p supports call i (key :: keys) report w (⟨key, v, called⟩ :: turns)
      outcome w' := by
  cases hrest with
  | all hcourse hwell =>
    rw [← addTurns_cons report ⟨key, v, called⟩ turns]
    refine .all (.cons hturn hcourse) fun hfatal => ?_
    rw [failuresOf_cons_of_well (well_of_goes hgoes hfatal), hwell hfatal]
  | @fails passed later _ _ _ _ _ hkeys hcourse hfatal hwell hfails =>
    have hkeys' : key :: keys = (key :: passed) ++ _ :: later := congrArg (key :: ·) hkeys
    refine .fails hkeys' (.cons hturn hcourse) hfatal ?_ hfails
    rw [failuresOf_cons_of_well (well_of_goes hgoes hfatal), hwell]

/-- Where failures are fatal, none is tolerated. -/
theorem Passes.well (h : Passes fatal phase p supports call i keys report w turns outcome w')
    (hfatal : fatal = true) : failuresOf turns = [] := by
  cases h with
  | all hcourse hwell => exact hwell hfatal
  | fails hkeys hcourse _ hwell hturn => exact hwell

/-- A report lists what became of the positions; a failing dispatch has tolerated nothing. -/
theorem Passes.failuresOf_eq
    (h : Passes fatal phase p supports call i keys { phase } w turns outcome w') :
    failuresOf turns = reported outcome := by
  cases h with
  | all hcourse hwell => exact (List.nil_append _).symm
  | fails hkeys hcourse hfatal hwell hturn => exact hwell

/-- A turn adds nothing but what its hooks add. -/
theorem adds_turn (h : Decided supports call key w v called w')
    (hcalls : ∀ c ∈ turnCalls w v called w', Adds c.before.journal [] c.after.journal) :
    Adds w.journal [] w'.journal := by
  cases h with
  | missing hentry => exact adds_refl w.journal
  | unsupported hentry hs => exact adds_refl w.journal
  | fired hentry hs hcall => exact hcalls _ (List.mem_singleton_self _)
  | failed hentry hs hcall => exact hcalls _ (List.mem_singleton_self _)

/-- When no call adds records of the dispatcher, the round adds those of the positions passed. -/
theorem Round.passes (h : Round fatal phase p supports call keys report w calls outcome w')
    (hcalls : ∀ c ∈ calls, Adds c.before.journal [] c.after.journal) (i : ℕ) :
    ∃ turns, Passes fatal phase p supports call i keys report w turns outcome w' ∧
      Adds w.journal (turns.flatMap (remarks phase p)) w'.journal := by
  induction h generalizing i with
  | done report w =>
    have hall : Passes fatal phase p supports call i [] report w []
        (.ok (addTurns report ([] : List (Turn η)))) w := .all (.nil i w) fun _ => rfl
    rw [addTurns_nil] at hall
    exact ⟨[], hall, adds_refl w.journal⟩
  | @goes key keys report w w₁ w₂ v called calls outcome hturn hgoes hrest ih =>
    obtain ⟨hfirst, hlater⟩ := List.forall_mem_append.mp hcalls
    obtain ⟨turns, hpasses, hadds⟩ := ih hlater (i + 1)
    refine ⟨⟨key, v, called⟩ :: turns, hpasses.cons hturn hgoes, ?_⟩
    -- The hooks may write first; then the dispatcher remarks on their position.
    have hposition := (adds_turn hturn hfirst).trans (adds_chronicle phase p key v called w₁)
    exact hposition.trans hadds
  | @stops key keys report w w₁ t called hfatal hturn =>
    have hkeys : key :: keys = [] ++ key :: keys := rfl
    exact ⟨[], .fails hkeys (.nil i w) hfatal rfl hturn, adds_turn hturn hcalls⟩

end Passes

/-- What a dispatch adds to the journal agrees with the positions that it passes and with what it
returns. -/
structure Recorded (fatal : Bool) (phase : Phase) (p : Pattern) (opening : Record)
    (turns : List (Turn η)) (outcome : Except Fault Report) (journal journal' : List Record) :
    Prop where
  opens : opening.level = if phase = .compileBegin then .debug else .trace
  adds : Adds journal (opening :: turns.flatMap (remarks phase p)) journal'
  /-- A report is about all positions, and the records say the same. -/
  reports : ∀ report, outcome = .ok report → turns.map (·.key) = p.hookKeys ∧
    (turns.flatMap (remarks phase p)).filter (·.level = .debug) =
      report.missing.map (noHooks phase) ∧
    (turns.flatMap (remarks phase p)).filter (·.level = .warn) =
      report.failures.map (hookFailed phase p)
  /-- Without a report, the records are about the positions before the failing one. -/
  fails : ∀ e, outcome = .error e → fatal = true ∧
    ∃ key t, e = fatalFault key phase t ∧ turns.map (·.key) ++ [key] <+: p.hookKeys
  strict : fatal = true → ∀ r ∈ turns.flatMap (remarks phase p), r.level ≠ .warn

/-- The first record of a dispatch. -/
def opening (p : Pattern) : Request → Record
  | .begin => beginning p
  | .node n => compiling p n
  | .visit n _ s => visiting p n s

/-- The calls that a dispatch makes, with the worlds that they find and leave. -/
def invocations (b : Behaviour η σ) (fatal : Bool) (p : Pattern) (w : World η σ) :
    Request → List (Invocation η σ)
  | .begin => (fireCalls fatal .compileBegin p b.supports (b.onCompileBegin · p)
      (w.write (beginning p))).map (.plain .begin)
  | .node n => (fireCalls fatal .compileNode p b.supports (b.onCompileNode · p n)
      (w.write (compiling p n))).map (.plain (.node n))
  | .visit n a s => (fireCalls fatal .execNode p b.supports (b.onExecNode · p n a)
      ((w.write (visiting p n s)).lend s)).map (.lent (.visit n a))

/-- A call in which the dispatcher writes nothing. -/
def Reticent (i : Invocation η σ) : Prop := Adds i.before.journal [] i.after.journal

/-- The positions that a dispatch passes, once it has opened. -/
def PassesOn (b : Behaviour η σ) (fatal : Bool) (p : Pattern) (w : World η σ)
    (turns : List (Turn η)) (outcome : Except Fault Report) (w' : World η σ) : Request → Prop
  | .begin => Passes fatal .compileBegin p (b.supports · .compileBegin) (b.onCompileBegin · p) 0
      p.hookKeys { phase := .compileBegin } (w.write (beginning p)) turns outcome w'
  | .node n => Passes fatal .compileNode p (b.supports · .compileNode) (b.onCompileNode · p n) 0
      p.hookKeys { phase := .compileNode } (w.write (compiling p n)) turns outcome w'
  | .visit n a s => ∃ t, Passes fatal .execNode p (b.supports · .execNode)
      (b.onExecNode · p n a) 0 p.hookKeys { phase := .execNode }
      ((w.write (visiting p n s)).lend s) turns outcome (w'.lend t)

theorem Passes.recorded {fatal : Bool} {phase : Phase} {p : Pattern} {supports : η → Bool}
    {call : η → Effect η ρ} {i : ℕ} {w w' : World η ρ} {turns : List (Turn η)}
    {outcome : Except Fault Report} {opening : Record} {journal journal' : List Record}
    (h : Passes fatal phase p supports call i p.hookKeys { phase } w turns outcome w')
    (hopens : opening.level = if phase = .compileBegin then .debug else .trace)
    (hadds : Adds journal (opening :: turns.flatMap (remarks phase p)) journal') :
    Recorded fatal phase p opening turns outcome journal journal' where
  opens := hopens
  adds := hadds
  reports report houtcome := by
    subst houtcome
    have hfailures : failuresOf turns = report.failures := h.failuresOf_eq
    cases h with
    | all hcourse hwell =>
      refine ⟨hcourse.keys_eq, ?_, ?_⟩
      · exact filter_debug_remarks phase p turns
      · rw [filter_warn_remarks, hfailures]
  fails e houtcome := by
    subst houtcome
    cases h with
    | @fails passed later key _ _ _ t hkeys hcourse hfatal hwell hturn =>
      refine ⟨hfatal, key, t, rfl, ?_⟩
      rw [hcourse.keys_eq, hkeys]
      exact ⟨later, List.append_assoc passed [key] later⟩
  strict hfatal r hr hwarn := by
    have hnone := filter_warn_remarks phase p turns
    rw [h.well hfatal] at hnone
    exact List.filter_eq_nil_iff.mp hnone r hr (decide_eq_true hwarn)

theorem exists_passes {fatal : Bool} {phase : Phase} {p : Pattern} {supports : η → Phase → Bool}
    {call : η → Effect η ρ} {w : World η ρ}
    (hcalls : ∀ c ∈ fireCalls fatal phase p supports call w,
      Adds c.before.journal [] c.after.journal) :
    ∃ turns, Passes fatal phase p (supports · phase) call 0 p.hookKeys { phase } w turns
        (fire fatal phase p supports call w).1 (fire fatal phase p supports call w).2 ∧
      Adds w.journal (turns.flatMap (remarks phase p))
        (fire fatal phase p supports call w).2.journal := by
  obtain ⟨calls, outcome, w', hround⟩ :=
    exists_round fatal phase p (supports · phase) call p.hookKeys { phase } w
  rw [hround.fireCalls_eq] at hcalls
  rw [hround.fire_eq]
  exact Round.passes hround hcalls 0

/-- A dispatch whose calls are reticent records what it returns. -/
theorem exists_recorded {b : Behaviour η σ} {fatal : Bool} {p : Pattern} {w : World η σ}
    {r : Request} (hcalls : ∀ i ∈ invocations b fatal p w r, Reticent i) :
    ∃ turns, PassesOn b fatal p w turns (r.perform b fatal p w).1 (r.perform b fatal p w).2 r ∧
      Recorded fatal r.phase p (opening p r) turns (r.perform b fatal p w).1 w.journal
        (r.perform b fatal p w).2.journal := by
  cases r with
  | begin =>
    obtain ⟨turns, hpasses, hadds⟩ := exists_passes fun c hc => hcalls _ (List.mem_map_of_mem hc)
    exact ⟨turns, hpasses, hpasses.recorded rfl ((adds_write w rfl).trans hadds)⟩
  | node n =>
    obtain ⟨turns, hpasses, hadds⟩ := exists_passes fun c hc => hcalls _ (List.mem_map_of_mem hc)
    exact ⟨turns, hpasses, hpasses.recorded rfl ((adds_write w rfl).trans hadds)⟩
  | visit n a s =>
    obtain ⟨turns, hpasses, hadds⟩ := exists_passes fun c hc => hcalls _ (List.mem_map_of_mem hc)
    exact ⟨turns, ⟨_, hpasses⟩, hpasses.recorded rfl ((adds_write w rfl).trans hadds)⟩

end PatternHooks.DispatchRecords
