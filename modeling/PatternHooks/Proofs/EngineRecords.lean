import Mathlib.Logic.Relation
import PatternHooks.Proofs.DiscreetHooks

/-!
What an engine notes, and what the dispatcher warns of meanwhile. Each dispatch warns of the
failures that it reports, and the engine notes them; so the warnings of all compilations and
searches tell of the failures that were noted, in order.
-/

namespace PatternHooks.EngineRecords

open Engine Dispatch CallLog EngineCourse HostRuns DispatchRecords DiscreetHooks HookObject Visits

variable {η ρ σ : Type}

/-- The warnings of the dispatcher. -/
def warnings (records : List Record) : List Record :=
  (records.filter isOwn).filter (·.level = .warn)

/-- The failure that a record tells of. -/
def failure? (r : Record) : Option HookFailure :=
  match r.data.lookup "key", r.data.lookup "error" with
  | some (.text key), some (.text message) => some ⟨key, message⟩
  | _, _ => none

/-- Between two states of the journal the dispatcher warns of these failures. -/
def Warns (journal : List Record) (fs : List HookFailure) (journal' : List Record) : Prop :=
  ∃ made, journal' = journal ++ made ∧ (warnings made).map failure? = fs.map some

section Warns
variable {journal journal' journal'' own : List Record} {fs fs' : List HookFailure}

theorem warns_refl (journal : List Record) : Warns journal [] journal :=
  ⟨[], (List.append_nil journal).symm, rfl⟩

theorem Warns.trans (h : Warns journal fs journal') (h' : Warns journal' fs' journal'') :
    Warns journal (fs ++ fs') journal'' := by
  obtain ⟨made, rfl, hmade⟩ := h
  obtain ⟨made', rfl, hmade'⟩ := h'
  refine ⟨made ++ made', List.append_assoc journal made made', ?_⟩
  rw [warnings, List.filter_append, List.filter_append, List.map_append, List.map_append, ← hmade,
    ← hmade']
  rfl

theorem warns_of_adds (h : Adds journal own journal')
    (hown : (own.filter (·.level = .warn)).map failure? = fs.map some) :
    Warns journal fs journal' := by
  obtain ⟨made, hjournal, rfl⟩ := h
  exact ⟨made, hjournal, hown⟩

/-- The first record of a dispatch is no warning. -/
theorem warns_write (w : World η ρ) {r : Record} (hr : isOwn r = true) (hlevel : r.level ≠ .warn) :
    Warns w.journal [] (w.write r).journal := by
  refine warns_of_adds (adds_write w hr) ?_
  rw [List.filter_cons_of_neg (by simpa using hlevel)]
  rfl

end Warns

/-- The warnings of a round tell of the failures in its report. -/
theorem warns_round {fatal : Bool} {phase : Phase} {p : Pattern} {supports : η → Bool}
    {call : η → Effect η ρ} {keys : List String} {w w' : World η ρ} {calls : List (Call η ρ)}
    {outcome : Except Fault Report}
    (h : Round fatal phase p supports call keys { phase } w calls outcome w')
    (hcalls : ∀ c ∈ calls, Adds c.before.journal [] c.after.journal) :
    Warns w.journal (reported outcome) w'.journal := by
  obtain ⟨turns, hpasses, hadds⟩ := Round.passes h hcalls 0
  refine warns_of_adds hadds ?_
  rw [filter_warn_remarks, hpasses.failuresOf_eq, List.map_map]
  rfl

section Engine
variable {b : Behaviour η σ} {fatal : Bool} {p : Pattern} {w w' : World η σ}
  {is : List (Invocation η σ)} {fs : List HookFailure}

theorem warns_told {o : Occasion} {outcome : Except Fault Report}
    (h : Told b fatal p o w is outcome w') (hcalls : ∀ i ∈ is, Reticent i) :
    Warns w.journal (reported outcome) w'.journal := by
  cases h with
  | begin hround =>
    have hopening : Warns w.journal [] (w.write (beginning p)).journal :=
      warns_write w rfl (show Level.debug ≠ .warn by decide)
    exact hopening.trans (warns_round hround fun c hc => hcalls _ (List.mem_map_of_mem hc))
  | @node n _ _ _ _ hround =>
    have hopening : Warns w.journal [] (w.write (compiling p n)).journal :=
      warns_write w rfl (show Level.trace ≠ .warn by decide)
    exact hopening.trans (warns_round hround fun c hc => hcalls _ (List.mem_map_of_mem hc))

/-- A compilation notes what it warns of. -/
theorem warns_announcement {os : List Occasion} {r : Except Fault Unit}
    (h : Announcement b fatal p os w fs is r w') (hcalls : ∀ i ∈ is, Reticent i) :
    Warns w.journal fs w'.journal := by
  induction h with
  | done w => exact warns_refl w.journal
  | stops htold => exact warns_told htold hcalls
  | next htold hrest ih =>
    obtain ⟨hfirst, hlater⟩ := List.forall_mem_append.mp hcalls
    exact (warns_told htold hfirst).trans (ih hlater)

theorem warns_visited {v : Visit} {calls : List (Call η (σ × MatchState))}
    (h : Visited b fatal p v w calls w') (hcalls : ∀ i ∈ v.invocations calls, Reticent i) :
    Warns w.journal v.failures w'.journal := by
  have hopening : Warns w.journal [] (w.write (visiting p v.node v.arrived)).journal :=
    warns_write w rfl (show Level.trace ≠ .warn by decide)
  have hround := warns_round h fun c hc => hcalls _ (List.mem_map_of_mem hc)
  exact hopening.trans hround

/-- And so does a search. -/
theorem warns_pursuit {prog : Program} {subject : String} {starts : List ℕ} {visits : List Visit}
    {r : Except Fault (Option (ℕ × ℕ))}
    (h : Pursuit b fatal prog subject starts w visits is r w') (hcalls : ∀ i ∈ is, Reticent i) :
    Warns w.journal (visits.flatMap Visit.failures) w'.journal := by
  refine h.builds (P := fun w visits is w' => (∀ i ∈ is, Reticent i) →
    Warns w.journal (visits.flatMap Visit.failures) w'.journal) ?_ ?_ ?_ hcalls
  · exact fun w _ => warns_refl w.journal
  · intro v w calls w' hvisited hcalls
    rw [List.flatMap_singleton]
    exact warns_visited hvisited hcalls
  · intro w w' w'' visits visits' is is' hwarns hwarns' hcalls
    obtain ⟨hfirst, hlater⟩ := List.forall_mem_append.mp hcalls
    rw [List.flatMap_append]
    exact (hwarns hfirst).trans (hwarns' hlater)

end Engine

/-- One thing that happens while an engine is at work, with the failures noted before and after it:
a compilation, a search, or anything else in which the dispatcher writes nothing. -/
inductive Work (b : Behaviour η σ) (fatal : Bool) :
    World η σ × List HookFailure → World η σ × List HookFailure → Prop
  | compile {w w' : World η σ} {noted noted' : List HookFailure} {p : Pattern}
      {r : Except Fault Program}
      (hrun : compile (.ofHooks b fatal) p noted w = ⟨r, noted', w'⟩)
      (hcalls : ∀ i ∈ compileCalls b fatal p w, Reticent i) :
      Work b fatal (w, noted) (w', noted')
  | exec {w w' : World η σ} {noted noted' : List HookFailure} {prog : Program} {subject : String}
      {r : Except Fault (Option (ℕ × ℕ))}
      (hrun : exec (.ofHooks b fatal) prog subject noted w = ⟨r, noted', w'⟩)
      (hcalls : ∀ i ∈ execCalls b fatal prog subject w, Reticent i) :
      Work b fatal (w, noted) (w', noted')
  | meanwhile {w w' : World η σ} {noted : List HookFailure} (h : Adds w.journal [] w'.journal) :
      Work b fatal (w, noted) (w', noted)

/-- Whatever happens, the failures noted meanwhile are those that the dispatcher warns of. -/
theorem Work.warns {b : Behaviour η σ} {fatal : Bool} {w w' : World η σ}
    {noted noted' : List HookFailure} (h : Work b fatal (w, noted) (w', noted')) :
    ∃ fs, noted' = noted ++ fs ∧ Warns w.journal fs w'.journal := by
  cases h with
  | @compile _ _ _ _ p r hrun hcalls =>
    obtain ⟨fs, is, r', u, hcourse⟩ := exists_announcement b fatal p w
    rw [hcourse.compileCalls_eq] at hcalls
    have hcompile := hcourse.compile_eq tells_plain noted []
    rw [hcompile] at hrun
    cases hrun
    exact ⟨fs, rfl, warns_announcement hcourse hcalls⟩
  | @exec _ _ _ _ prog subject r hrun hcalls =>
    obtain ⟨visits, is, r', u, hcourse⟩ :=
      exists_pursuit b fatal prog subject (Text.boundaries subject.toList) w
    rw [hcourse.execCalls_eq] at hcalls
    rw [hcourse.exec_eq noted] at hrun
    cases hrun
    exact ⟨_, rfl, warns_pursuit hcourse hcalls⟩
  | meanwhile h => exact ⟨[], (List.append_nil noted).symm, warns_of_adds h rfl⟩

/-- Hooks that fail when compilation begins and at every visit. -/
def faltering : HookObject :=
  ⟨0, .scripted (some [.fail "bad pattern" ["begin"]]) none (some [.fail "bad node" []])⟩

def unbegun : HookFailure := ⟨"boom", "begin: bad pattern"⟩

def unvisited : HookFailure := ⟨"boom", "bad node"⟩

def falteringWorld : World HookObject Memory :=
  ⟨(Registry.empty .reject).insert "boom" faltering, [], {}⟩

/-- A pattern with a key that has no hooks, before the one of the hooks that fail. -/
def askew : Pattern := ⟨.random 0, "a", {}, ["gone", "boom"], .epoch⟩

def lenient : Strategy (World HookObject Memory) := .ofHooks (behaviour false 1) false

end PatternHooks.EngineRecords
