import PatternHooks.Host
import PatternHooks.Proofs.RegistryChanges
import PatternHooks.Scope

/-!
Runs of a host: clients register and remove hooks, edit scopes, begin patterns and dispatch on them,
in any order. A pattern keeps the keys that its scope held when it was begun; the hooks of a key are
looked up at each visit. So a dispatch visits the keys of that time, and finds under each of them
what the history of the registry says at that moment.
-/

namespace PatternHooks.HostRuns

open Dispatch CallLog RegistryCalls RegistryChanges Visits

variable {η ρ σ : Type}

/-- A visit of a key: the hooks found under it, what became of the key, the hooks that were called,
and the changes of the registry that the call made. -/
structure Stop (η : Type) where
  key : String
  found : Option η
  verdict : Verdict
  called : List η
  changes : List (Change η)

/-- The hooks that are called are those that were found, unless the verdict is that there are none
or that they do not handle the phase. -/
def calledFor (found : Option η) : Verdict → List η
  | .fired => found.toList
  | .failed _ => found.toList
  | _ => []

def stopOf (changes : η → World η ρ → List (Change η)) (key : String) (w : World η ρ)
    (v : Verdict) : Stop η :=
  let found := (w.registry.lookup key).map (·.hooks)
  ⟨key, found, v, calledFor found v,
    (calledFor found v).flatMap fun h => record w.registry (changes h w)⟩

/-- The same visit, which is put down. -/
def notingVisit (changes : η → World η ρ → List (Change η)) (key : String) (visit : Visit η ρ) :
    Visit η (ρ × List (Stop η)) := fun w =>
  let found := withoutNotes w
  match visit found with
  | (v, left) => (v, withNotes left (w.own.2 ++ [stopOf changes key found v]))

/-- The visits of a dispatch, in order. -/
def fireStops (changes : η → World η ρ → List (Change η)) (fatal : Bool) (phase : Phase)
    (p : Pattern) (supports : η → Phase → Bool) (call : η → Effect η ρ) (w : World η ρ) :
    List (Stop η) :=
  (fireFrom fatal phase p (p.hookKeys.map fun key =>
    (key, notingVisit changes key (consult (supports · phase) call key))) { phase }
    (withNotes w [])).2.own.2

/-- The keys of the visits that found no hooks. -/
def missed (stops : List (Stop η)) : List String := (stops.filter (·.found.isNone)).map (·.key)

section Stop
variable {supports : η → Bool} {call : η → Effect η ρ} {key : String} {w w' : World η ρ}
  {v : Verdict} {called : List η} {changes : η → World η ρ → List (Change η)}

theorem called_stopOf (changes : η → World η ρ → List (Change η))
    (h : Decided supports call key w v called w') : (stopOf changes key w v).called = called := by
  cases h with
  | fired hentry hs hcall => simp [stopOf, calledFor, hentry]
  | failed hentry hs hcall => simp [stopOf, calledFor, hentry]
  | _ => rfl

/-- Hooks that were found are called if they handle the phase. -/
theorem consulted_stopOf (h : Decided supports call key w v called w') :
    (stopOf changes key w v).called = (stopOf changes key w v).found.toList.filter supports := by
  cases h with
  | missing hentry => simp [stopOf, calledFor, hentry]
  | unsupported hentry hs => simp [stopOf, calledFor, hentry, hs]
  | fired hentry hs hcall => simp [stopOf, calledFor, hentry, hs]
  | failed hentry hs hcall => simp [stopOf, calledFor, hentry, hs]

theorem missed_cons (stop : Stop η) (stops : List (Stop η)) :
    missed (stop :: stops) = missed [stop] ++ missed stops := by
  rw [missed, ← List.singleton_append, List.filter_append, List.map_append]
  rfl

/-- The report misses the key of a visit that found no hooks. -/
theorem missing_note (h : Decided supports call key w v called w') (report : Report) :
    (note report key v).missing = report.missing ++ missed [stopOf changes key w v] := by
  cases h with
  | missing hentry => simp [note, Report.addMissing, missed, stopOf, hentry]
  | unsupported hentry hs => simp [note, missed, stopOf, hentry]
  | fired hentry hs hcall => simp [note, Report.addFired, missed, stopOf, hentry]
  | failed hentry hs hcall => simp [note, Report.addFailure, missed, stopOf, hentry]

/-- The history with the changes of a visit tells the registry that the visit leaves. -/
theorem tells_stopOf {history : List (Change η)} (haccounts : Accounts call changes)
    (h : Decided supports call key w v called w') (htells : Tells history w.registry) :
    Tells (history ++ (stopOf changes key w v).changes) w'.registry := by
  have hcalled := called_stopOf changes h
  have hchanges : (stopOf changes key w v).changes =
      called.flatMap fun h => record w.registry (changes h w) := by
    rw [← hcalled]
    rfl
  rw [hchanges]
  cases h with
  | @fired e w' hentry hs hcall =>
    have hregistry := haccounts e.hooks w
    rw [hcall] at hregistry
    rw [List.flatMap_singleton, hregistry]
    exact htells.applyAll _
  | @failed e t w' hentry hs hcall =>
    have hregistry := haccounts e.hooks w
    rw [hcall] at hregistry
    rw [List.flatMap_singleton, hregistry]
    exact htells.applyAll _
  | _ => simpa using htells

end Stop

/-- Each visit finds what the history says once the visits before it have added their changes. -/
def Finds (history : List (Change η)) (stops : List (Stop η)) : Prop :=
  ∀ earlier stop later, stops = earlier ++ stop :: later →
    stop.found = holder (history ++ earlier.flatMap (·.changes)) stop.key

theorem finds_nil (history : List (Change η)) : Finds history [] := by
  intro earlier stop later hstops
  cases earlier <;> cases hstops

theorem Finds.cons {history : List (Change η)} {first : Stop η} {stops : List (Stop η)}
    (h : Finds (history ++ first.changes) stops) (hfirst : first.found = holder history first.key) :
    Finds history (first :: stops) := by
  intro earlier stop later hstops
  cases earlier with
  | nil =>
    obtain ⟨rfl, rfl⟩ := List.cons.inj hstops
    rw [List.flatMap_nil, List.append_nil]
    exact hfirst
  | cons first' earlier =>
    obtain ⟨rfl, hrest⟩ := List.cons.inj hstops
    rw [List.flatMap_cons, ← List.append_assoc]
    exact h earlier stop later hrest

/-- A round with the visits that it makes. -/
inductive Tour (changes : η → World η ρ → List (Change η)) (fatal : Bool) (phase : Phase)
    (p : Pattern) (supports : η → Bool) (call : η → Effect η ρ) :
    List String → Report → World η ρ → List (Stop η) → List (Call η ρ) →
      Except Fault Report → World η ρ → Prop
  | done (report : Report) (w : World η ρ) :
      Tour changes fatal phase p supports call [] report w [] [] (.ok report) w
  | goes {key : String} {keys : List String} {report : Report} {w w₁ w₂ : World η ρ} {v : Verdict}
      {called : List η} {stops : List (Stop η)} {calls : List (Call η ρ)}
      {outcome : Except Fault Report} (hturn : Decided supports call key w v called w₁)
      (hgoes : fatal = false ∨ ∀ t, v ≠ .failed t)
      (hrest : Tour changes fatal phase p supports call keys (note report key v)
        (chronicle phase p key w₁ v) stops calls outcome w₂) :
      Tour changes fatal phase p supports call (key :: keys) report w
        (stopOf changes key w v :: stops) (turnCalls w v called w₁ ++ calls) outcome w₂
  | stops {key : String} {keys : List String} {report : Report} {w w₁ : World η ρ} {t : Trouble}
      {called : List η} (hfatal : fatal = true)
      (hturn : Decided supports call key w (.failed t) called w₁) :
      Tour changes fatal phase p supports call (key :: keys) report w
        [stopOf changes key w (.failed t)] (turnCalls w (.failed t) called w₁)
        (.error (fatalFault key phase t)) w₁

section Tour
variable {changes : η → World η ρ → List (Change η)} {fatal : Bool} {phase : Phase} {p : Pattern}
  {supports : η → Bool} {call : η → Effect η ρ} {keys : List String} {report : Report}
  {w w' : World η ρ} {stops : List (Stop η)} {calls : List (Call η ρ)}
  {outcome : Except Fault Report} {history : List (Change η)}

theorem exists_tour (changes : η → World η ρ → List (Change η))
    (h : Round fatal phase p supports call keys report w calls outcome w') :
    ∃ stops, Tour changes fatal phase p supports call keys report w stops calls outcome w' := by
  induction h with
  | done report w => exact ⟨[], .done report w⟩
  | goes hturn hgoes hrest ih =>
    obtain ⟨stops, hstops⟩ := ih
    exact ⟨_, .goes hturn hgoes hstops⟩
  | stops hfatal hturn => exact ⟨_, .stops hfatal hturn⟩

/-- The dispatch whose visits are put down takes the same course, and puts down its stops. -/
theorem Tour.fireFrom_noting
    (h : Tour changes fatal phase p supports call keys report w stops calls outcome w')
    (notes : List (Stop η)) :
    fireFrom fatal phase p (keys.map fun key =>
      (key, notingVisit changes key (consult supports call key))) report (withNotes w notes) =
        (outcome, withNotes w' (notes ++ stops)) := by
  have hvisit : ∀ {key w v called w₁} (notes : List (Stop η)),
      Decided supports call key w v called w₁ →
      notingVisit changes key (consult supports call key) (withNotes w notes) =
        (v, withNotes w₁ (notes ++ [stopOf changes key w v])) := by
    intro key w v called w₁ notes hturn
    simp only [notingVisit, show withoutNotes (withNotes w notes) = w from rfl, hturn.consult_eq]
    rfl
  have hchronicle : ∀ (key : String) (v : Verdict) (w : World η ρ) (notes : List (Stop η)),
      chronicle phase p key (withNotes w notes) v = withNotes (chronicle phase p key w v) notes :=
    fun _ v _ _ => by cases v <;> rfl
  induction h generalizing notes with
  | done report w =>
    rw [List.append_nil]
    rfl
  | @goes key keys report w w₁ w₂ v called stops calls outcome hturn hgoes hrest ih =>
    rw [List.map_cons, fireFrom_cons phase p key _ report (hvisit notes hturn) hgoes, hchronicle,
      ih, List.append_assoc, List.singleton_append]
  | @stops key keys report w w₁ t called hfatal hturn =>
    simp only [List.map_cons, fireFrom, hvisit notes hturn, hfatal, if_true]

theorem Tour.fireStops_eq {supports : η → Phase → Bool}
    (h : Tour changes fatal phase p (supports · phase) call p.hookKeys { phase } w stops calls
      outcome w') : fireStops changes fatal phase p supports call w = stops := by
  rw [fireStops, h.fireFrom_noting []]
  rfl

/-- The keys are visited in order: all of them for a report, and up to the first failure when it is
fatal. -/
theorem Tour.ends
    (h : Tour changes fatal phase p supports call keys report w stops calls outcome w') :
    (∃ report', outcome = .ok report' ∧ stops.map (·.key) = keys ∧
      report'.missing = report.missing ++ missed stops) ∨
    (fatal = true ∧ ∃ earlier last t, stops = earlier ++ [last] ∧
      stops.map (·.key) <+: keys ∧ (∀ stop ∈ earlier, ∀ t', stop.verdict ≠ .failed t') ∧
      last.verdict = .failed t ∧ outcome = .error (fatalFault last.key phase t)) := by
  induction h with
  | done report w => exact .inl ⟨report, rfl, rfl, (List.append_nil _).symm⟩
  | @goes key keys report w w₁ w₂ v called stops calls outcome hturn hgoes hrest ih =>
    rcases ih with ⟨report', houtcome, hkeys, hreport⟩ |
      ⟨hfatal, earlier, last, t, hstops, hkeys, hearlier, hfailed, houtcome⟩
    · refine .inl ⟨report', houtcome, ?_, ?_⟩
      · rw [List.map_cons, hkeys]
        rfl
      · rw [hreport, missing_note hturn, List.append_assoc, ← missed_cons]
    · have hfirst : ∀ t', v ≠ .failed t' := well_of_goes hgoes hfatal
      refine .inr ⟨hfatal, stopOf changes key w v :: earlier, last, t, ?_, ?_, ?_, hfailed,
        houtcome⟩
      · rw [hstops, List.cons_append]
      · rw [List.map_cons]
        exact List.cons_prefix_cons.mpr ⟨rfl, hkeys⟩
      · exact List.forall_mem_cons.mpr ⟨hfirst, hearlier⟩
  | @stops key keys report w w₁ t called hfatal hturn =>
    exact .inr ⟨hfatal, [], _, t, rfl, List.cons_prefix_cons.mpr ⟨rfl, List.nil_prefix⟩,
      fun stop hstop => absurd hstop List.not_mem_nil, rfl, rfl⟩

theorem Tour.called_eq
    (h : Tour changes fatal phase p supports call keys report w stops calls outcome w') :
    calls.map (·.hooks) = stops.flatMap (·.called) := by
  have hturn : ∀ {key w v called w₁}, Decided supports call key w v called w₁ →
      (turnCalls w v called w₁).map (·.hooks) = (stopOf changes key w v).called := by
    intro key w v called w₁ hdecided
    rw [called_stopOf changes hdecided]
    exact hooks_turnCalls w v called w₁
  induction h with
  | done report w => rfl
  | goes hdecided hgoes hrest ih =>
    rw [List.map_append, ih, hturn hdecided, List.flatMap_cons]
  | stops hfatal hdecided => rw [hturn hdecided, List.flatMap_singleton]

theorem Tour.consulted
    (h : Tour changes fatal phase p supports call keys report w stops calls outcome w') :
    ∀ stop ∈ stops, stop.called = stop.found.toList.filter supports := by
  induction h with
  | done report w => exact fun stop hstop => absurd hstop List.not_mem_nil
  | goes hturn hgoes hrest ih => exact List.forall_mem_cons.mpr ⟨consulted_stopOf hturn, ih⟩
  | stops hfatal hturn => exact List.forall_mem_singleton.mpr (consulted_stopOf hturn)

theorem Tour.finds
    (h : Tour changes fatal phase p supports call keys report w stops calls outcome w')
    (haccounts : Accounts call changes) (htells : Tells history w.registry) :
    Finds history stops ∧ Tells (history ++ stops.flatMap (·.changes)) w'.registry := by
  induction h generalizing history with
  | done report w =>
    rw [List.flatMap_nil, List.append_nil]
    exact ⟨finds_nil history, htells⟩
  | @goes key keys report w w₁ w₂ v called stops calls outcome hturn hgoes hrest ih =>
    have hleft := tells_stopOf haccounts hturn htells
    rw [← (alike_chronicle phase p key w₁ v).registry] at hleft
    obtain ⟨hfinds, hend⟩ := ih hleft
    rw [List.append_assoc, ← List.flatMap_cons] at hend
    exact ⟨hfinds.cons (htells key), hend⟩
  | @stops key keys report w w₁ t called hfatal hturn =>
    rw [List.flatMap_singleton]
    exact ⟨(finds_nil _).cons (htells key), tells_stopOf haccounts hturn htells⟩

end Tour

/-- A dispatch follows its keys and the history of the registry. -/
structure Follows (fatal : Bool) (phase : Phase) (supports : η → Bool)
    (history : List (Change η)) (keys : List String) (stops : List (Stop η)) (called : List η)
    (outcome : Except Fault Report) : Prop where
  /-- It visits all keys in order, and reports those without hooks; or it ends with the first
  failure, when failures are fatal. -/
  visits : (∃ report, outcome = .ok report ∧ stops.map (·.key) = keys ∧
      report.missing = missed stops) ∨
    (fatal = true ∧ ∃ earlier last t, stops = earlier ++ [last] ∧
      stops.map (·.key) <+: keys ∧ (∀ stop ∈ earlier, ∀ t', stop.verdict ≠ .failed t') ∧
      last.verdict = .failed t ∧ outcome = .error (fatalFault last.key phase t))
  /-- No other hooks are called than those of the visits. -/
  called : called = stops.flatMap (·.called)
  consulted : ∀ stop ∈ stops, stop.called = stop.found.toList.filter supports
  /-- A visit finds the hooks of the latest registration of its key that succeeded, unless the key
  was removed since. -/
  finds : ∀ earlier stop later, stops = earlier ++ stop :: later → ∀ h, stop.found = some h ↔
    Holds (history ++ earlier.flatMap (·.changes)) stop.key h
  /-- Hooks that were superseded, removed or dropped are called only if they were registered again.
  -/
  again : ∀ earlier stop later, stops = earlier ++ stop :: later → ∀ before c after,
    history ++ earlier.flatMap (·.changes) = before ++ c :: after → c.concerns stop.key = true →
    ∀ h ∈ stop.called, .register stop.key h ∈ c :: after

theorem fire_follows {changes : η → World η ρ → List (Change η)} {call : η → Effect η ρ}
    (haccounts : Accounts call changes) {history : List (Change η)} {w : World η ρ}
    (htells : Tells history w.registry) (fatal : Bool) (phase : Phase) (p : Pattern)
    (supports : η → Phase → Bool) :
    Follows fatal phase (supports · phase) history p.hookKeys
        (fireStops changes fatal phase p supports call w)
        ((fireCalls fatal phase p supports call w).map (·.hooks))
        (fire fatal phase p supports call w).1 ∧
      Tells (history ++ (fireStops changes fatal phase p supports call w).flatMap (·.changes))
        (fire fatal phase p supports call w).2.registry := by
  obtain ⟨calls, outcome, w', hround⟩ :=
    exists_round fatal phase p (supports · phase) call p.hookKeys { phase } w
  obtain ⟨stops, htour⟩ := exists_tour changes hround
  obtain ⟨hfinds, hend⟩ := htour.finds haccounts htells
  have hholds : ∀ earlier stop later, stops = earlier ++ stop :: later → ∀ h,
      stop.found = some h ↔ Holds (history ++ earlier.flatMap (·.changes)) stop.key h := by
    intro earlier stop later hstops h
    rw [hfinds earlier stop later hstops, holder_eq_some_iff]
  rw [hround.fire_eq, hround.fireCalls_eq, htour.fireStops_eq]
  refine ⟨⟨htour.ends, htour.called_eq, htour.consulted, hholds, ?_⟩, hend⟩
  intro earlier stop later hstops before c after hhistory hconcerns h hcalled
  have hstop : stop ∈ stops := by
    rw [hstops]
    exact List.mem_append_right _ List.mem_cons_self
  rw [htour.consulted stop hstop] at hcalled
  have hfound : stop.found = some h := Option.mem_toList.mp (List.mem_of_mem_filter hcalled)
  have hholds' := (hholds earlier stop later hstops h).mp hfound
  rw [hhistory] at hholds'
  exact hholds'.registered_since hconcerns

/-- The states of a host: its world, the scopes by number, and the patterns begun so far. -/
structure Desk (η σ : Type) where
  world : World η σ
  scopes : ℕ → Scope := fun _ => .empty
  patterns : List Pattern := []

/-- What a dispatch is asked for. -/
inductive Request where
  | begin
  | node (n : Node)
  | visit (n : Node) (a : Attempt) (s : MatchState)

inductive Command (η : Type) where
  | change (c : Change η)
  | shutdown
  | adopt (scope : ℕ) (s : Scope)
  | enableAll (scope : ℕ)
  | enable (scope : ℕ) (key : String)
  | disable (scope : ℕ) (key : String)
  | begin (scope : ℕ) (id : PatternId) (time : Time.Instant) (source : String)
      (flags : PatternFlags)
  | dispatch (pattern : ℕ) (r : Request)

namespace Request

def phase : Request → Phase
  | begin => .compileBegin
  | node _ => .compileNode
  | visit .. => .execNode

def perform (b : Behaviour η σ) (fatal : Bool) (p : Pattern) (w : World η σ) :
    Request → Except Fault Report × World η σ
  | begin => compileBegin b fatal p w
  | node n => compileNode b fatal p n w
  | visit n a s =>
    let (outcome, _, w) := execNode b fatal p n a s w
    (outcome, w)

/-- The hooks that the dispatch calls, in order. -/
def called (b : Behaviour η σ) (fatal : Bool) (p : Pattern) (w : World η σ) : Request → List η
  | begin => (fireCalls fatal .compileBegin p b.supports (b.onCompileBegin · p)
      (w.write (beginning p))).map (·.hooks)
  | node n => (fireCalls fatal .compileNode p b.supports (b.onCompileNode · p n)
      (w.write (compiling p n))).map (·.hooks)
  | visit n a s => (fireCalls fatal .execNode p b.supports (b.onExecNode · p n a)
      ((w.write (visiting p n s)).lend s)).map (·.hooks)

/-- The visits that the dispatch makes, in order. -/
def stops {b : Behaviour η σ} (ledger : Ledger b) (fatal : Bool) (p : Pattern) (w : World η σ) :
    Request → List (Stop η)
  | begin => fireStops (ledger.begin p) fatal .compileBegin p b.supports (b.onCompileBegin · p)
      (w.write (beginning p))
  | node n => fireStops (ledger.node p n) fatal .compileNode p b.supports (b.onCompileNode · p n)
      (w.write (compiling p n))
  | visit n a s => fireStops (ledger.visit p n a) fatal .execNode p b.supports
      (b.onExecNode · p n a) ((w.write (visiting p n s)).lend s)

theorem follows {b : Behaviour η σ} (ledger : Ledger b) (fatal : Bool) (p : Pattern)
    {w : World η σ} {history : List (Change η)} (htells : Tells history w.registry)
    (r : Request) :
    Follows fatal r.phase (b.supports · r.phase) history p.hookKeys (r.stops ledger fatal p w)
        (r.called b fatal p w) (r.perform b fatal p w).1 ∧
      Tells (history ++ (r.stops ledger fatal p w).flatMap (·.changes))
        (r.perform b fatal p w).2.registry := by
  cases r with
  | begin => exact fire_follows (ledger.begin_accounts p) (w := w.write (beginning p)) htells ..
  | node n => exact fire_follows (ledger.node_accounts p n) (w := w.write (compiling p n)) htells ..
  | visit n a s =>
    exact fire_follows (ledger.visit_accounts p n a) (w := (w.write (visiting p n s)).lend s)
      htells ..

end Request

namespace Desk

/-- The host before the first command. -/
def initial (settings : HookSettings) (own : σ) : Desk η σ :=
  { world := Host.initial settings own }

def setScope (d : Desk η σ) (scope : ℕ) (s : Scope) : Desk η σ :=
  { d with scopes := Function.update d.scopes scope s }

def perform (b : Behaviour η σ) (fatal : Bool) (d : Desk η σ) : Command η → Desk η σ
  | .change c => { d with world := (c.perform d.world).2 }
  | .shutdown => { d with world := (Host.shutdown d.world).2 }
  | .adopt scope s => d.setScope scope s
  | .enableAll scope => d.setScope scope (.all d.world.registry)
  | .enable scope key => d.setScope scope ((d.scopes scope).enable key).2
  | .disable scope key => d.setScope scope ((d.scopes scope).disable key).2
  | .begin scope id time source flags =>
    { d with patterns := d.patterns ++ [(d.scopes scope).pattern id time source flags] }
  | .dispatch pattern r =>
    match d.patterns[pattern]? with
    | none => d
    | some p => { d with world := (r.perform b fatal p d.world).2 }

/-- The changes of the registry that a command makes; those of a dispatch are made by its hooks. -/
def changes {b : Behaviour η σ} (ledger : Ledger b) (fatal : Bool) (d : Desk η σ) :
    Command η → List (Change η)
  | .change c => record d.world.registry [c]
  | .shutdown => [.clear]
  | .dispatch pattern r =>
    match d.patterns[pattern]? with
    | none => []
    | some p => (r.stops ledger fatal p d.world).flatMap (·.changes)
  | _ => []

/-- What some commands make of a host, one after another. -/
def run (b : Behaviour η σ) (fatal : Bool) (d : Desk η σ) (commands : List (Command η)) :
    Desk η σ :=
  commands.foldl (perform b fatal) d

/-- The changes that some commands make, in order. -/
def history {b : Behaviour η σ} (ledger : Ledger b) (fatal : Bool) :
    Desk η σ → List (Command η) → List (Change η)
  | _, [] => []
  | d, c :: commands =>
    d.changes ledger fatal c ++ history ledger fatal (d.perform b fatal c) commands

variable {b : Behaviour η σ} (ledger : Ledger b) (fatal : Bool)

theorem tells_initial (settings : HookSettings) (own : σ) :
    Tells [] (initial settings own : Desk η σ).world.registry :=
  tells_empty settings.onDuplicate

/-- The history with the changes of a command tells the registry that the command leaves. -/
theorem tells_perform {d : Desk η σ} {history : List (Change η)}
    (htells : Tells history d.world.registry) (c : Command η) :
    Tells (history ++ d.changes ledger fatal c) (d.perform b fatal c).world.registry := by
  cases c with
  | change c =>
    change Tells _ (c.perform d.world).2.registry
    rw [c.registry_perform]
    exact htells.applyAll [c]
  | shutdown =>
    have hregistry := d.world.registry_clear
    change Tells _ d.world.clear.2.registry
    rw [hregistry]
    exact htells.applyAll [.clear]
  | dispatch pattern r =>
    cases hp : d.patterns[pattern]? with
    | none =>
      simp only [changes, perform, hp, List.append_nil]
      exact htells
    | some p =>
      simp only [changes, perform, hp]
      exact (r.follows ledger fatal p htells).2
  | _ =>
    change Tells (history ++ []) d.world.registry
    rw [List.append_nil]
    exact htells

theorem tells_run {d : Desk η σ} {past : List (Change η)} (htells : Tells past d.world.registry)
    (commands : List (Command η)) :
    Tells (past ++ history ledger fatal d commands) (run b fatal d commands).world.registry := by
  induction commands generalizing d past with
  | nil =>
    rw [history, List.append_nil]
    exact htells
  | cons c commands ih =>
    rw [history, ← List.append_assoc]
    exact ih (tells_perform ledger fatal htells c)

/-- Patterns stay as they were begun. -/
theorem patterns_perform (b : Behaviour η σ) (fatal : Bool) (d : Desk η σ) (c : Command η) :
    d.patterns <+: (d.perform b fatal c).patterns := by
  cases c with
  | begin scope id time source flags => exact List.prefix_append _ _
  | dispatch pattern r =>
    simp only [perform]
    split <;> exact List.prefix_rfl
  | _ => exact List.prefix_rfl

theorem patterns_run (b : Behaviour η σ) (fatal : Bool) (d : Desk η σ)
    (commands : List (Command η)) : d.patterns <+: (run b fatal d commands).patterns := by
  induction commands generalizing d with
  | nil => exact List.prefix_rfl
  | cons c commands ih => exact (patterns_perform b fatal d c).trans (ih (d.perform b fatal c))

end Desk

/-- Whatever a host has been told since a pattern was begun, a dispatch on the pattern visits the
keys that its scope held then, and follows the history of the registry at each of them. -/
theorem dispatch_follows_scope_and_registrations (b : Behaviour η σ) (ledger : Ledger b)
    (settings : HookSettings) (own : σ) (earlier later : List (Command η)) (scope : ℕ)
    (id : PatternId) (time : Time.Instant) (source : String) (flags : PatternFlags) (r : Request) :
    let fatal := settings.fatalErrors
    let start := Desk.run b fatal (.initial settings own) earlier
    let commands := earlier ++ .begin scope id time source flags :: later
    let desk := Desk.run b fatal (.initial settings own) commands
    let p := (start.scopes scope).pattern id time source flags
    desk.patterns[start.patterns.length]? = some p ∧
      Follows fatal r.phase (b.supports · r.phase)
        (Desk.history ledger fatal (.initial settings own) commands) (start.scopes scope).keys
        (r.stops ledger fatal p desk.world) (r.called b fatal p desk.world)
        (r.perform b fatal p desk.world).1 := by
  intro fatal start commands desk p
  have hrun : desk = Desk.run b fatal
      (start.perform b fatal (.begin scope id time source flags)) later := List.foldl_append
  have hbegun : (start.perform b fatal (.begin scope id time source flags)).patterns =
      start.patterns ++ [p] := rfl
  have hpatterns := Desk.patterns_run b fatal
    (start.perform b fatal (.begin scope id time source flags)) later
  rw [← hrun, hbegun, List.prefix_iff_getElem?] at hpatterns
  have hp := hpatterns start.patterns.length (by simp)
  rw [List.getElem_concat_length rfl] at hp
  have htells := Desk.tells_run ledger fatal (Desk.tells_initial settings own) commands
  rw [List.nil_append] at htells
  exact ⟨hp, (r.follows ledger fatal p htells).1⟩

/-- Hooks that remove those of one key and supersede those of another. -/
def rearranging : HookObject :=
  ⟨0, .scripted (some [.unregister "b", .register "c" "quiet"]) none none⟩

def failing : HookObject := ⟨1, .scripted (some [.fail "no" []]) none none⟩

def quiet : HookObject := ⟨2, .silent [.compileBegin]⟩

/-- All three keys are enabled when the pattern is begun. -/
def rearranged : List (Command HookObject) :=
  [.change (.register "a" rearranging), .change (.register "b" quiet),
    .change (.register "c" failing), .enable 0 "a", .enable 0 "b", .enable 0 "c"]

def rescoped : List (Command HookObject) :=
  [.disable 0 "a", .change (.register "d" failing), .enable 0 "d"]

def rearrangedDesk : Desk HookObject Memory :=
  Desk.run (HookObject.behaviour false 0) false
    (.initial ⟨.replace, false⟩ { named := [("quiet", quiet)] })
    (rearranged ++ .begin 0 (.random 0) .epoch "x" {} :: rescoped)

/-- The pattern keeps its keys. The second is missing when its turn comes, and of the hooks that
were registered under the third only the latest are called. -/
theorem dispatch_follows_scope_and_registrations_rearranged :
    ∃ (ledger : Ledger (HookObject.behaviour false 0)) (p : Pattern),
      rearrangedDesk.patterns[0]? = some p ∧ (rearrangedDesk.scopes 0).keys = ["b", "c", "d"] ∧
      (Request.begin.stops ledger false p rearrangedDesk.world).map (·.key) = ["a", "b", "c"] ∧
      missed (Request.begin.stops ledger false p rearrangedDesk.world) = ["b"] ∧
      (Request.begin.called (HookObject.behaviour false 0) false p rearrangedDesk.world).map
        (·.id) = [0, 2] := by
  obtain ⟨ledger⟩ := exists_ledger_behaviour false 0
  obtain ⟨hp, hfollows⟩ := dispatch_follows_scope_and_registrations
    (HookObject.behaviour false 0) ledger ⟨.replace, false⟩ { named := [("quiet", quiet)] }
    rearranged rescoped 0 (.random 0) .epoch "x" {} .begin
  have hscope : (Desk.run (HookObject.behaviour false 0) false
      (.initial ⟨.replace, false⟩ { named := [("quiet", quiet)] }) rearranged).scopes 0 =
        ⟨["a", "b", "c"]⟩ := by decide +kernel
  rw [hscope] at hp hfollows
  have hcalled : (Request.begin.called (HookObject.behaviour false 0) false
      ((⟨["a", "b", "c"]⟩ : Scope).pattern (.random 0) .epoch "x" {}) rearrangedDesk.world).map
        (·.id) = [0, 2] := by decide +kernel
  have hreport : (Request.begin.perform (HookObject.behaviour false 0) false
      ((⟨["a", "b", "c"]⟩ : Scope).pattern (.random 0) .epoch "x" {}) rearrangedDesk.world).1 =
        .ok { phase := .compileBegin, fired := ["a", "c"], missing := ["b"] } := by
    decide +kernel
  have hnow : (rearrangedDesk.scopes 0).keys = ["b", "c", "d"] := by decide +kernel
  rcases hfollows.visits with ⟨report, houtcome, hkeys, hmissing⟩ | ⟨hfatal, _⟩
  · have hmissed : report.missing = ["b"] := by
      rw [Except.ok.inj (houtcome.symm.trans hreport)]
    exact ⟨ledger, _, hp, hnow, hkeys, hmissing.symm.trans hmissed, hcalled⟩
  · cases hfatal

/-- A dispatch need not visit all keys that the scope held: the first of two hooks fails here, and
failures are fatal. -/
theorem fatal_failure_leaves_out_keys :
    ¬ ∀ (b : Behaviour Bool Unit) (ledger : Ledger b) (settings : HookSettings)
      (earlier later : List (Command Bool)) (scope : ℕ) (id : PatternId) (time : Time.Instant)
      (source : String) (flags : PatternFlags) (r : Request),
      let start := Desk.run b settings.fatalErrors (.initial settings ()) earlier
      let desk := Desk.run b settings.fatalErrors (.initial settings ())
        (earlier ++ .begin scope id time source flags :: later)
      (r.stops ledger settings.fatalErrors ((start.scopes scope).pattern id time source flags)
        desk.world).map (·.key) = (start.scopes scope).keys := by
  intro hall
  have hkeys := hall
    ⟨fun _ _ => true, fun well _ w => (if well then .ok () else .error ⟨"no", []⟩, w),
      fun _ _ _ w => (.ok (), w), fun _ _ _ _ w => (.ok (), w)⟩
    ⟨fun _ _ _ => [], fun _ _ _ _ => [], fun _ _ _ _ _ => [], fun _ _ _ => rfl,
      fun _ _ _ _ => rfl, fun _ _ _ _ _ => rfl⟩
    ⟨.reject, true⟩ [.change (.register "a" false), .change (.register "b" true), .enable 0 "a",
      .enable 0 "b"] [] 0 (.random 0) .epoch "x" {} .begin
  have hlength := congrArg List.length hkeys
  revert hlength
  decide

end PatternHooks.HostRuns
