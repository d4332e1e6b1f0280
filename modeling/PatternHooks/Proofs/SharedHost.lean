import PatternHooks.Hooks.Script
import PatternHooks.Proofs.Attendance
import PatternHooks.Proofs.LeftmostMatch
import PatternHooks.Proofs.Schedules

/-!
Pipelines that share a host. Each engine compiles a pattern of its own and searches a subject of its
own, and all of them dispatch to the same registry. If the hooks under the keys of the patterns do
nothing but add to logs, then no engine notices the others, and each log shuffles what the engines
add to it when they are alone.
-/

namespace PatternHooks.SharedHost

open Turns Schedules LeftmostMatch

variable {n : ℕ} {η σ τ ι ω : Type}

/-- An engine that has noted nothing compiles a pattern and then searches a subject. -/
def pipeline (h : Stepwise ω) (p : Pattern) (subject : String) :
    Work ω (Outcome (Program × Option (ℕ × ℕ))) :=
  (compile h p []).bind fun x =>
    match x with
    | (.error e, noted) => .done (.error e, noted)
    | (.ok prog, noted) =>
      (exec h prog subject noted).bind fun y => .done (y.1.map fun found => (prog, found), y.2)

/-- The same with nobody else at the world. -/
def alone (s : Strategy ω) (p : Pattern) (subject : String) (w : ω) :
    Engine.Run ω (Program × Option (ℕ × ℕ)) :=
  match Engine.compile s p [] w with
  | ⟨.error e, noted, w⟩ => ⟨.error e, noted, w⟩
  | ⟨.ok prog, noted, w⟩ =>
    match Engine.exec s prog subject noted w with
    | ⟨r, noted, w⟩ => ⟨r.map fun found => (prog, found), noted, w⟩

theorem pipeline_run {h : Stepwise ω} {s : Strategy ω} (hs : Performs h s) (p : Pattern)
    (subject : String) (w : ω) :
    (pipeline h p subject).run w = (((alone s p subject w).result, (alone s p subject w).noted),
      (alone s p subject w).world) := by
  simp only [pipeline, alone, Work.run_bind, hs.compile_run]
  rcases Engine.compile s p [] w with ⟨_ | prog, noted, w'⟩
  · rfl
  · simp only [Work.run_bind, exec, hs.search_run]
    rfl

/-- The calls of the hooks succeed, leave the registry and what they are lent, and add to each log
what they add to it in every world. -/
def Adds (log : ι → σ → List String) (call : Lending η σ τ) (h : η) : Prop :=
  ∀ t, ∃ gain : ι → List String, ∀ w, (call h t w).1 = (.ok (), t) ∧
    (call h t w).2.registry = w.registry ∧
    ∀ i, log i (call h t w).2.own = log i w.own ++ gain i

/-- The hooks do nothing but add to logs, in the phases that they handle. -/
structure Appends (b : Behaviour η σ) (log : ι → σ → List String) (h : η) : Prop where
  begin : b.supports h .compileBegin = true → ∀ p, Adds log (plain (b.onCompileBegin · p)) h
  node : b.supports h .compileNode = true → ∀ p n, Adds log (plain (b.onCompileNode · p n)) h
  visit : b.supports h .execNode = true → ∀ p n a, Adds log (lent (b.onExecNode · p n a)) h

theorem lookup_filter_bne (xs : List (ℕ × List String)) {i id : ℕ} (hne : i ≠ id) :
    (xs.filter (·.1 != id)).lookup i = xs.lookup i := by
  induction xs with
  | nil => rfl
  | cons x xs ih =>
    obtain ⟨k, events⟩ := x
    by_cases hk : k = id
    · subst hk
      rw [List.filter_cons_of_neg (by simp), ih, List.lookup_cons, beq_false_of_ne hne]
    · rw [List.filter_cons_of_pos (by simpa using hk), List.lookup_cons, List.lookup_cons, ih]

theorem eventsOf_addEvent_any (m : Memory) (id : ℕ) (e : String) (i : ℕ) :
    (m.addEvent id e).eventsOf i = m.eventsOf i ++ if i = id then [e] else [] := by
  by_cases hi : i = id
  · subst hi
    rw [Attendance.eventsOf_addEvent, if_pos rfl]
  · rw [if_neg hi, List.append_nil, Memory.addEvent, Memory.setEvents, Memory.eventsOf,
      List.lookup_cons, beq_false_of_ne hi]
    exact congrArg (Option.getD · []) (lookup_filter_bne m.events hi)

/-- The library's recording hooks add to the events of their own identity. -/
theorem appends_recording (fatal : Bool) (depth id : ℕ) (phases : List Phase) :
    Appends (HookObject.behaviour fatal depth) (fun i m => m.eventsOf i)
      ⟨id, .recording phases⟩ := by
  have hrecord : ∀ (o : Occasion) (m : Memory) (i : ℕ),
      (m.addEvent id (Bundled.event o)).eventsOf i =
        m.eventsOf i ++ (fun i => if i = id then [Bundled.event o] else []) i :=
    fun o m i => eventsOf_addEvent_any m id (Bundled.event o) i
  cases depth <;> exact
    ⟨fun _ _ _ => ⟨_, fun w => ⟨rfl, rfl, hrecord .begin w.own⟩⟩,
      fun _ _ n _ => ⟨_, fun w => ⟨rfl, rfl, hrecord (.node n) w.own⟩⟩,
      fun _ _ n a _ => ⟨_, fun w => ⟨rfl, rfl, hrecord (.visit n a) w.own⟩⟩⟩

/-- The work goes on in one way as long as the registry is `r`. -/
abbrev SteadyAt (r : Registry η) (log : ι → σ → List String) {α : Type} :
    Work (World η σ) α → List (ι → List String) → α → Prop :=
  Steady (fun w => w.registry = r) fun i w => log i w.own

section Dispatch
variable {r : Registry η} {log : ι → σ → List String} {supports : η → Bool}
  {call : Lending η σ τ}

/-- The keys find hooks that do nothing but add to logs, or none. -/
def AllAdd (r : Registry η) (log : ι → σ → List String) (supports : η → Bool)
    (call : Lending η σ τ) (keys : List String) : Prop :=
  ∀ key ∈ keys, ∀ e, r.lookup key = some e → supports e.hooks = true → Adds log call e.hooks

theorem steady_consult {key : String}
    (hadds : ∀ e, r.lookup key = some e → supports e.hooks = true → Adds log call e.hooks) (t : τ) :
    ∃ gains v, SteadyAt r log (consult supports call key t) gains (v, t) ∧
      ∀ trouble, v ≠ .failed trouble := by
  have hidle : ∀ w : World η σ, w.registry = r →
      (id w).registry = r ∧ ∀ i, log i (id w).own = log i w.own := fun w hw => ⟨hw, fun _ => rfl⟩
  unfold consult
  cases hentry : r.lookup key with
  | none =>
    refine ⟨[fun _ => []], .missing, .idle hidle (fun w hw => ?_) (.done _), nofun⟩
    simp only [hw, hentry]
  | some e =>
    cases hs : supports e.hooks with
    | false =>
      refine ⟨[fun _ => []], .unsupported, .idle hidle (fun w hw => ?_) (.done _), nofun⟩
      simp only [hw, hentry, hs, Bool.false_eq_true, if_false]
    | true =>
      obtain ⟨gain, hgain⟩ := hadds e hentry hs t
      have hcall : SteadyAt r log (.turn (fun u => (call e.hooks t u).2)
          fun u => .done (verdict (call e.hooks t u).1.1, (call e.hooks t u).1.2)) [gain]
          (Verdict.fired, t) := by
        refine .turn (x := .done (.fired, t)) (fun w hw => ?_) (fun w _ => ?_) (.done _)
        · obtain ⟨_, hregistry, hlog⟩ := hgain w
          exact ⟨hregistry.trans hw, hlog⟩
        · obtain ⟨hresult, _⟩ := hgain w
          rw [hresult]
          rfl
      refine ⟨(fun _ => []) :: [gain], .fired, .idle hidle (fun w hw => ?_) hcall, nofun⟩
      simp only [hw, hentry, hs, if_true]

/-- A dispatch to such hooks ends with a report of no failures, and gives back what it was lent. -/
theorem steady_fireFrom (fatal : Bool) (phase : Phase) (p : Pattern) {keys : List String}
    (hadds : AllAdd r log supports call keys) (report : Report) (t : τ) :
    ∃ gains report', SteadyAt r log (fireFrom fatal phase p supports call keys report t) gains
        (.ok report', t) ∧ report'.failures = report.failures := by
  induction keys generalizing report with
  | nil => exact ⟨[], report, .done _, rfl⟩
  | cons key keys ih =>
    obtain ⟨hkey, hkeys⟩ := List.forall_mem_cons.mp hadds
    obtain ⟨gains₁, v, hconsult, hv⟩ := steady_consult hkey t
    obtain ⟨gains₂, report', hrest, hfailures⟩ := ih hkeys (Dispatch.note report key v)
    have hnote : (Dispatch.note report key v).failures = report.failures := by
      cases v with
      | failed trouble => exact absurd rfl (hv trouble)
      | _ => rfl
    have hchronicle : ∀ w : World η σ, w.registry = r →
        (Dispatch.chronicle phase p key w v).registry = r ∧
          ∀ i, log i (Dispatch.chronicle phase p key w v).own = log i w.own := by
      intro w hw
      have halike := CallLog.alike_chronicle phase p key w v
      exact ⟨halike.registry.trans hw, fun i => congrArg (log i) halike.own⟩
    refine ⟨gains₁ ++ (fun _ => []) :: gains₂, report', hconsult.bind ?_, hfailures.trans hnote⟩
    have hgoes := Steady.idle hchronicle (fun _ _ => rfl) hrest
    cases v with
    | failed trouble => exact absurd rfl (hv trouble)
    | _ => cases fatal <;> exact hgoes

end Dispatch

/-- No call of the strategy fails or touches the match state, and all go on in one way. -/
structure Tranquil (r : Registry η) (log : ι → σ → List String) (h : Stepwise (World η σ))
    (p : Pattern) : Prop where
  compileBegin : ∃ gains report, SteadyAt r log (h.compileBegin p) gains (.ok report) ∧
    report.failures = []
  compileNode : ∀ n, ∃ gains report, SteadyAt r log (h.compileNode p n) gains (.ok report) ∧
    report.failures = []
  execNode : ∀ n a s, ∃ gains report, SteadyAt r log (h.execNode p n a s) gains (.ok report, s) ∧
    report.failures = []

/-- A dispatch first records what it is for. -/
theorem steady_write {r : Registry η} {log : ι → σ → List String} {α : Type}
    {x : Work (World η σ) α} {gains : List (ι → List String)} {a : α} (record : Record)
    (h : SteadyAt r log x gains a) :
    SteadyAt r log (.turn (·.write record) fun _ => x) ((fun _ => []) :: gains) a :=
  .idle (fun _ hw => ⟨hw, fun _ => rfl⟩) (fun _ _ => rfl) h

theorem tranquil_ofHooks {b : Behaviour η σ} {r : Registry η} {log : ι → σ → List String}
    {p : Pattern} (fatal : Bool)
    (happends : ∀ key ∈ p.hookKeys, ∀ e, r.lookup key = some e → Appends b log e.hooks) :
    Tranquil r log (.ofHooks b fatal) p where
  compileBegin := by
    have hadds : AllAdd r log (b.supports · .compileBegin) (plain (b.onCompileBegin · p))
        p.hookKeys := fun key hkey e he hs => (happends key hkey e he).begin hs p
    obtain ⟨gains, report, hfire, hfailures⟩ := steady_fireFrom fatal .compileBegin p hadds
      { phase := .compileBegin } ()
    have hcall := hfire.bind (k := fun x => .done x.1) (.done _)
    exact ⟨_, report, steady_write (Dispatch.beginning p) hcall, hfailures⟩
  compileNode n := by
    have hadds : AllAdd r log (b.supports · .compileNode) (plain (b.onCompileNode · p n))
        p.hookKeys := fun key hkey e he hs => (happends key hkey e he).node hs p n
    obtain ⟨gains, report, hfire, hfailures⟩ := steady_fireFrom fatal .compileNode p hadds
      { phase := .compileNode } ()
    have hcall := hfire.bind (k := fun x => .done x.1) (.done _)
    exact ⟨_, report, steady_write (Dispatch.compiling p n) hcall, hfailures⟩
  execNode n a s := by
    have hadds : AllAdd r log (b.supports · .execNode) (lent (b.onExecNode · p n a))
        p.hookKeys := fun key hkey e he hs => (happends key hkey e he).visit hs p n a
    obtain ⟨gains, report, hfire, hfailures⟩ := steady_fireFrom fatal .execNode p hadds
      { phase := .execNode } s
    exact ⟨_, report, steady_write (Dispatch.visiting p n s) hfire, hfailures⟩

section Engine
variable {r : Registry η} {log : ι → σ → List String} {h : Stepwise (World η σ)} {p : Pattern}

theorem Tranquil.announce (ht : Tranquil r log h p) (ns : List Node) (noted : List HookFailure) :
    ∃ gains, SteadyAt r log (announce h p ns noted) gains (.ok (), noted) := by
  induction ns with
  | nil => exact ⟨[], .done _⟩
  | cons n ns ih =>
    obtain ⟨gains₁, report, hnode, hfailures⟩ := ht.compileNode n
    obtain ⟨gains₂, hrest⟩ := ih
    refine ⟨gains₁ ++ gains₂, hnode.bind ?_⟩
    simpa only [hfailures, List.append_nil] using hrest

theorem Tranquil.compile (ht : Tranquil r log h p) (noted : List HookFailure) :
    ∃ gains, SteadyAt r log (compile h p noted) gains
      (.ok ⟨p, Engine.nodesOf p.source⟩, noted) := by
  obtain ⟨gains₁, report, hbegin, hfailures⟩ := ht.compileBegin
  obtain ⟨gains₂, hannounce⟩ := ht.announce (Engine.nodesOf p.source) noted
  refine ⟨gains₁ ++ (gains₂ ++ []), hbegin.bind ?_⟩
  simp only [hfailures, List.append_nil noted]
  exact hannounce.bind (.done _)

theorem attempt_cons_silent (p : Pattern) (a : Attempt) (n : Node) (ns : List Node) (s : MatchState)
    (noted : List HookFailure) (w : ω) :
    Engine.attempt (.silent ω) p a (n :: ns) s noted w =
      match Engine.move a n s with
      | .error e => ⟨.error e.toFault, noted, w⟩
      | .ok .failure => ⟨.ok none, noted, w⟩
      | .ok (.success t) => ⟨.ok (some t.position), noted, w⟩
      | .ok (.next t) => Engine.attempt (.silent ω) p a ns t noted w := by
  rcases hmove : Engine.move a n s with e | m
  · simp only [Engine.attempt, Strategy.silent, hmove, List.append_nil]
  · cases m <;> simp only [Engine.attempt, Strategy.silent, hmove, List.append_nil]

theorem attempt_silent_noted (p : Pattern) (a : Attempt) (ns : List Node) (s : MatchState)
    (noted : List HookFailure) (w : ω) :
    (Engine.attempt (.silent ω) p a ns s noted w).noted = noted := by
  induction ns generalizing s with
  | nil => rfl
  | cons n ns ih =>
    rw [attempt_cons_silent]
    rcases Engine.move a n s with e | m
    · rfl
    · cases m with
      | next t => exact ih t
      | _ => rfl

/-- The attempt has the result that it has without hooks. -/
theorem Tranquil.attempt (ht : Tranquil r log h p) (a : Attempt) (ns : List Node) (s : MatchState)
    (noted : List HookFailure) :
    ∃ gains, SteadyAt r log (attempt h p a ns s noted) gains
      ((Engine.attempt (.silent Unit) p a ns s noted ()).result, noted) := by
  induction ns generalizing s with
  | nil => exact ⟨[], .done _⟩
  | cons n ns ih =>
    obtain ⟨gains₁, report, hvisit, hfailures⟩ := ht.execNode n a s
    rw [attempt_cons_silent]
    rcases hmove : Engine.move a n s with e | m
    · refine ⟨gains₁ ++ [], hvisit.bind ?_⟩
      simpa only [hmove, hfailures, List.append_nil] using .done _
    · cases m with
      | next t =>
        obtain ⟨gains₂, hrest⟩ := ih t
        refine ⟨gains₁ ++ gains₂, hvisit.bind ?_⟩
        simpa only [hmove, hfailures, List.append_nil] using hrest
      | _ =>
        refine ⟨gains₁ ++ [], hvisit.bind ?_⟩
        simpa only [hmove, hfailures, List.append_nil] using .done _

theorem Tranquil.search (ht : Tranquil r log h p) (nodes : List Node) (subject : String)
    (starts : List ℕ) (noted : List HookFailure) :
    ∃ gains, SteadyAt r log (search h ⟨p, nodes⟩ subject starts noted) gains
      ((Engine.search (.silent Unit) ⟨p, nodes⟩ subject starts noted ()).result, noted) := by
  induction starts with
  | nil => exact ⟨[], .done _⟩
  | cons start starts ih =>
    obtain ⟨gains₁, hattempt⟩ := ht.attempt (.startingAt subject start) nodes
      (.start (.startingAt subject start) 1) noted
    obtain ⟨gains₂, hrest⟩ := ih
    have hnoted := attempt_silent_noted p (.startingAt subject start) nodes
      (.start (.startingAt subject start) 1) noted ()
    rw [Engine.search]
    rcases hsilent : Engine.attempt (.silent Unit) p (.startingAt subject start) nodes
      (.start (.startingAt subject start) 1) noted () with ⟨_ | _ | stop, noted', ⟨⟩⟩
    · rw [hsilent] at hattempt
      exact ⟨gains₁ ++ [], hattempt.bind (.done _)⟩
    · rw [hsilent] at hattempt hnoted
      obtain rfl : noted' = noted := hnoted
      exact ⟨gains₁ ++ gains₂, hattempt.bind hrest⟩
    · rw [hsilent] at hattempt
      exact ⟨gains₁ ++ [], hattempt.bind (.done _)⟩

theorem Tranquil.pipeline (ht : Tranquil r log h p) {subject : String}
    (hfits : subject.utf8ByteSize ≤ maxOffset) :
    ∃ gains found, SteadyAt r log (pipeline h p subject) gains
      (.ok (⟨p, Engine.nodesOf p.source⟩, found), []) := by
  obtain ⟨gains₁, hcompile⟩ := ht.compile []
  obtain ⟨gains₂, hexec⟩ :=
    ht.search (Engine.nodesOf p.source) subject (Text.boundaries subject.toList) []
  obtain ⟨found, hfound, -⟩ := search_silent p (List.nil_append subject.toList).symm hfits [] ()
  have hsilent : Engine.search (.silent Unit) ⟨p, Engine.nodesOf p.source⟩ subject
      (Text.boundaries subject.toList) [] () = ⟨.ok found, [], ()⟩ := hfound
  rw [hsilent] at hexec
  exact ⟨gains₁ ++ (gains₂ ++ []), found, hcompile.bind (hexec.bind (.done _))⟩

end Engine

/-- Engines at one host, each with a pattern and a subject of its own. -/
def crew (b : Behaviour η σ) (fatal : Bool) (jobs : Fin n → Pattern × String) (w : World η σ) :
    Crew n (World η σ) (Outcome (Program × Option (ℕ × ℕ))) :=
  ⟨w, fun j => pipeline (.ofHooks b fatal) (jobs j).1 (jobs j).2⟩

/-- Pipelines that share a host do not disturb one another, if the hooks under the keys of their
patterns do nothing but add to logs. The turns of an engine, with nobody between them, are its run
alone, in which it compiles its pattern, finds what it finds and notes no failure. Under every
schedule an engine is done as soon as it has had as many turns as it takes alone, and no sooner, and
then it has the same program, has found the same and has noted no failure. At any time each log has
gained a shuffle of what the engines have added so far, which is the beginning of what each adds
alone, and all of it once the engine is done. -/
theorem pipelines_at_one_host_are_undisturbed (b : Behaviour η σ) (fatal : Bool)
    (jobs : Fin n → Pattern × String) (w : World η σ) (log : ι → σ → List String)
    (happends : ∀ j, ∀ key ∈ (jobs j).1.hookKeys, ∀ e, w.registry.lookup key = some e →
      Appends b log e.hooks)
    (hfits : ∀ j, (jobs j).2.utf8ByteSize ≤ maxOffset) :
    (∀ j u, ((crew b fatal jobs w).works j).run u =
      (((alone (.ofHooks b fatal) (jobs j).1 (jobs j).2 u).result,
        (alone (.ofHooks b fatal) (jobs j).1 (jobs j).2 u).noted),
        (alone (.ofHooks b fatal) (jobs j).1 (jobs j).2 u).world)) ∧
    ∃ (found : Fin n → Option (ℕ × ℕ)) (events : Fin n → ι → List String),
      (∀ j, ∃ w', alone (.ofHooks b fatal) (jobs j).1 (jobs j).2 w =
          ⟨.ok (⟨(jobs j).1, Engine.nodesOf (jobs j).1.source⟩, found j), [], w'⟩ ∧
        ∀ i, log i w'.own = log i w.own ++ events j i) ∧
      ∀ schedule after, (crew b fatal jobs w).play schedule = after →
        (∀ j outcome, after.works j = .done outcome ↔
          ((crew b fatal jobs w).works j).turns w ≤ schedule.count j ∧
          outcome = (.ok (⟨(jobs j).1, Engine.nodesOf (jobs j).1.source⟩, found j), [])) ∧
        ∀ i, ∃ parts whole, log i after.world.own = log i w.own ++ whole ∧ Shuffles parts whole ∧
          ∀ j, parts j <+: events j i ∧
            (((crew b fatal jobs w).works j).turns w ≤ schedule.count j →
              parts j = events j i) := by
  have htranquil : ∀ j, Tranquil w.registry log (.ofHooks b fatal) (jobs j).1 := fun j =>
    tranquil_ofHooks fatal (happends j)
  choose gains found hsteady using fun j => (htranquil j).pipeline (hfits j)
  have hperforms := fun j => pipeline_run (performs_ofHooks b fatal) (jobs j).1 (jobs j).2
  have hturns : ∀ j, ((crew b fatal jobs w).works j).turns w = (gains j).length := fun j =>
    (hsteady j).turns rfl
  refine ⟨hperforms, found, fun j i => (gains j).flatMap (· i), fun j => ?_, ?_⟩
  · obtain ⟨w', hrun, hlog⟩ := (hsteady j).run (w := w) rfl
    rw [hperforms j w] at hrun
    injection hrun with houtcome hworld
    injection houtcome with hresult hnoted
    subst hworld
    refine ⟨_, ?_, hlog⟩
    rw [← hresult, ← hnoted]
  · rintro schedule after rfl
    have hprogress := progress_play (K := fun u : World η σ => u.registry = w.registry) rfl
      hsteady schedule
    refine ⟨fun j outcome => ?_, fun i => ?_⟩
    · rw [hturns j]
      exact hprogress.done_iff j outcome
    · obtain ⟨whole, hlog, hshuffles⟩ := hprogress.logs i
      refine ⟨earned gains schedule i, whole, hlog, hshuffles, fun j => ⟨?_, fun hall => ?_⟩⟩
      · exact earned_prefix gains schedule i j
      · rw [hturns j] at hall
        exact earned_of_length_le i hall

/-- A recorder of everything. -/
def taped : World HookObject Memory where
  registry := (Registry.empty .reject).insert "recorder" ⟨0, .recording Phase.all⟩
  own := {}

/-- Both engines call the recorder, the second under a key that is missing too. -/
def duet : Fin 2 → Pattern × String
  | 0 => (⟨⟨0⟩, "a", {}, ["recorder"], .epoch⟩, "a")
  | 1 => (⟨⟨1⟩, ".", {}, ["missing", "recorder"], .epoch⟩, "é")

/-- What each of them finds and has recorded when it is alone. -/
def solo : Fin 2 → Option (ℕ × ℕ) × List String
  | 0 => (some (0, 1), ["begin", "comp:EXACT", "comp:END", "exec:EXACT", "exec:END"])
  | 1 => (some (0, 2), ["begin", "comp:REG_ANY", "comp:END", "exec:REG_ANY", "exec:END"])

theorem pipelines_at_one_host_are_undisturbed_duet :
    (∀ j, ∀ key ∈ (duet j).1.hookKeys, ∀ e, taped.registry.lookup key = some e →
        Appends (HookObject.behaviour false 0) (fun i m => m.eventsOf i) e.hooks) ∧
      (∀ j, (duet j).2.utf8ByteSize ≤ maxOffset) ∧
      ∃ after, (crew (HookObject.behaviour false 0) false duet taped).play
          (List.replicate 10 [1, 0, 1, 0, 1]).flatten = after ∧
        (∀ j, after.works j = .done
          (.ok (⟨(duet j).1, Engine.nodesOf (duet j).1.source⟩, (solo j).1), [])) ∧
        after.world.own.eventsOf 0 = ["begin", "begin", "comp:EXACT", "comp:REG_ANY", "comp:END",
          "comp:END", "exec:EXACT", "exec:REG_ANY", "exec:END", "exec:END"] ∧
        Shuffles (fun j => (solo j).2) (after.world.own.eventsOf 0) := by
  have happends : ∀ j, ∀ key ∈ (duet j).1.hookKeys, ∀ e, taped.registry.lookup key = some e →
      Appends (HookObject.behaviour false 0) (fun i m => m.eventsOf i) e.hooks := by
    intro j key _ e hentry
    rw [taped, Registry.lookup_insert] at hentry
    split at hentry
    · cases hentry
      exact appends_recording false 0 0 Phase.all
    · cases hentry
  have hfits : ∀ j, (duet j).2.utf8ByteSize ≤ maxOffset := by decide
  obtain ⟨_, found, events, halone, hplay⟩ := pipelines_at_one_host_are_undisturbed
    (HookObject.behaviour false 0) false duet taped _ happends hfits
  obtain ⟨hdone, hlogs⟩ := hplay (List.replicate 10 [1, 0, 1, 0, 1]).flatten _ rfl
  have hturns : ∀ j, ((crew (HookObject.behaviour false 0) false duet taped).works j).turns taped ≤
      (List.replicate 10 [1, 0, 1, 0, 1]).flatten.count j := by decide +kernel
  have hsolo : ∀ j, (found j, events j 0) = solo j := by
    have hrun : ∀ j, (alone (.ofHooks (HookObject.behaviour false 0) false) (duet j).1 (duet j).2
          taped).result.toOption.map Prod.snd = some (solo j).1 ∧
        (alone (.ofHooks (HookObject.behaviour false 0) false) (duet j).1 (duet j).2
          taped).world.own.eventsOf 0 = (solo j).2 := by decide +kernel
    intro j
    obtain ⟨w', hj, hgained⟩ := halone j
    obtain ⟨hfound, hevents⟩ := hrun j
    rw [hj] at hfound hevents
    exact Prod.ext (Option.some.inj hfound) ((hgained 0).symm.trans hevents)
  obtain ⟨parts, whole, hlog, hshuffles, hparts⟩ := hlogs 0
  have hall : parts = fun j => (solo j).2 := by
    funext j
    rw [(hparts j).2 (hturns j), ← hsolo j]
  refine ⟨happends, hfits, _, rfl, fun j => ?_, by decide +kernel, ?_⟩
  · rw [← hsolo j]
    exact (hdone j _).mpr ⟨hturns j, rfl⟩
  · rw [hlog, ← hall]
    exact hshuffles

end PatternHooks.SharedHost
