import PatternHooks.Proofs.Visits

/-!
The course of a dispatch whose hooks, and other clients beside it, change the registry while it is
under way. Each position of the pattern's keys is decided by the registry as it is when its turn
comes. A tolerant dispatch always ends with a report, which lists the decided positions by class and
in order; hooks are called once for each position that fired or failed, and for no other.
-/

namespace PatternHooks.DispatchCourse

open Dispatch Visits

variable {η σ : Type}

/-- What other clients do to the world during a dispatch: before the look-up of each position, and
between its look-up and its call. -/
structure Interference (η σ : Type) where
  beforeLookup : ℕ → World η σ → World η σ
  beforeCall : ℕ → World η σ → World η σ

def Interference.quiet : Interference η σ := ⟨fun _ w => w, fun _ w => w⟩

def visitAmid (m : Interference η σ) (supports : η → Bool) (call : η → Effect η σ) (i : ℕ)
    (key : String) : Visit η σ := fun w =>
  consult supports (fun h u => call h (m.beforeCall i u)) key (m.beforeLookup i w)

def visitsAmid (m : Interference η σ) (supports : η → Bool) (call : η → Effect η σ) :
    ℕ → List String → List (String × Visit η σ)
  | _, [] => []
  | i, key :: keys =>
      (key, visitAmid m supports call i key) :: visitsAmid m supports call (i + 1) keys

/-- A dispatch amid interference. -/
def fireAmid (m : Interference η σ) (fatal : Bool) (phase : Phase) (p : Pattern)
    (supports : η → Phase → Bool) (call : η → Effect η σ) (w : World η σ) :
    Except Fault Report × World η σ :=
  fireFrom fatal phase p (visitsAmid m (supports · phase) call 0 p.hookKeys) { phase } w

theorem visitsAmid_quiet (supports : η → Bool) (call : η → Effect η σ) (i : ℕ)
    (keys : List String) :
    visitsAmid .quiet supports call i keys =
      keys.map fun key => (key, consult supports call key) := by
  induction keys generalizing i with
  | nil => rfl
  | cons key keys ih =>
    simp only [visitsAmid, List.map_cons, ih]
    rfl

/-- Without interference it is the plain dispatch. -/
theorem fireAmid_quiet (fatal : Bool) (phase : Phase) (p : Pattern)
    (supports : η → Phase → Bool) (call : η → Effect η σ) (w : World η σ) :
    fireAmid .quiet fatal phase p supports call w = fire fatal phase p supports call w := by
  unfold fireAmid fire
  rw [visitsAmid_quiet]

/-- A position that has been visited: its key, its class, and the hooks called for it. -/
structure Turn (η : Type) where
  key : String
  verdict : Verdict
  called : List η

/-- The visits from the position `i` on. Each finds the world as the one before it left it, after
the dispatcher has recorded the outcome and other clients have made their changes. -/
inductive Course (m : Interference η σ) (phase : Phase) (p : Pattern) (supports : η → Bool)
    (call : η → Effect η σ) : ℕ → List String → World η σ → List (Turn η) → World η σ → Prop
  | nil (i : ℕ) (w : World η σ) : Course m phase p supports call i [] w [] w
  | cons {i : ℕ} {key : String} {keys : List String} {w w₁ w₂ : World η σ} {v : Verdict}
      {called : List η} {turns : List (Turn η)}
      (hturn : Decided supports (fun h u => call h (m.beforeCall i u)) key (m.beforeLookup i w)
        v called w₁)
      (hrest : Course m phase p supports call (i + 1) keys (chronicle phase p key w₁ v) turns w₂) :
      Course m phase p supports call i (key :: keys) w (⟨key, v, called⟩ :: turns) w₂

def keysOf (v : Verdict) (turns : List (Turn η)) : List String :=
  (turns.filter fun t => t.verdict = v).map (·.key)

def failuresOf (turns : List (Turn η)) : List HookFailure :=
  turns.filterMap fun t =>
    match t.verdict with
    | .failed trouble => some ⟨t.key, trouble.render⟩
    | _ => none

def calls (turns : List (Turn η)) : List η := turns.flatMap (·.called)

def addTurns (report : Report) (turns : List (Turn η)) : Report :=
  { report with
    missing := report.missing ++ keysOf .missing turns
    fired := report.fired ++ keysOf .fired turns
    failures := report.failures ++ failuresOf turns }

theorem addTurns_nil (report : Report) : addTurns report ([] : List (Turn η)) = report := by
  simp [addTurns, keysOf, failuresOf]

theorem addTurns_cons (report : Report) (t : Turn η) (turns : List (Turn η)) :
    addTurns report (t :: turns) = addTurns (note report t.key t.verdict) turns := by
  obtain ⟨key, v, called⟩ := t
  cases v <;>
    simp [addTurns, keysOf, failuresOf, note, Report.addMissing, Report.addFired,
      Report.addFailure]

/-- The four classes share out the positions. -/
theorem length_classes (turns : List (Turn η)) :
    (keysOf .missing turns).length + (keysOf .fired turns).length + (failuresOf turns).length +
      (keysOf .unsupported turns).length = turns.length := by
  induction turns with
  | nil => rfl
  | cons t turns ih =>
    obtain ⟨key, v, called⟩ := t
    simp only [keysOf, failuresOf, List.length_map] at ih ⊢
    cases v <;> simp <;> omega

section Course
variable {m : Interference η σ} {phase : Phase} {p : Pattern} {supports : η → Bool}
  {call : η → Effect η σ} {i : ℕ} {keys : List String} {w : World η σ}

theorem exists_course (m : Interference η σ) (phase : Phase) (p : Pattern) (supports : η → Bool)
    (call : η → Effect η σ) (i : ℕ) (keys : List String) (w : World η σ) :
    ∃ turns w', Course m phase p supports call i keys w turns w' := by
  induction keys generalizing i w with
  | nil => exact ⟨[], w, .nil i w⟩
  | cons key keys ih =>
    obtain ⟨v, called, w₁, hturn⟩ := exists_decided supports
      (fun h u => call h (m.beforeCall i u)) key (m.beforeLookup i w)
    obtain ⟨turns, w₂, hrest⟩ := ih (i + 1) (chronicle phase p key w₁ v)
    exact ⟨_, w₂, .cons hturn hrest⟩

theorem Course.unique {turns₁ turns₂ : List (Turn η)} {w₁ w₂ : World η σ}
    (h₁ : Course m phase p supports call i keys w turns₁ w₁)
    (h₂ : Course m phase p supports call i keys w turns₂ w₂) : turns₁ = turns₂ ∧ w₁ = w₂ := by
  induction h₁ generalizing turns₂ w₂ with
  | nil i w =>
    cases h₂
    exact ⟨rfl, rfl⟩
  | cons hturn hrest ih =>
    cases h₂ with
    | cons hturn' hrest' =>
      obtain ⟨rfl, rfl, rfl⟩ := hturn.unique hturn'
      obtain ⟨rfl, rfl⟩ := ih hrest'
      exact ⟨rfl, rfl⟩

theorem Course.keys_eq {turns : List (Turn η)} {w' : World η σ}
    (h : Course m phase p supports call i keys w turns w') : turns.map (·.key) = keys := by
  induction h with
  | nil i w => rfl
  | cons hturn hrest ih => simp [ih]

/-- A tolerant dispatch runs through the whole course and reports it. -/
theorem Course.fireFrom_eq {turns : List (Turn η)} {w' : World η σ}
    (h : Course m phase p supports call i keys w turns w') (report : Report) :
    fireFrom false phase p (visitsAmid m supports call i keys) report w =
      (.ok (addTurns report turns), w') := by
  induction h generalizing report with
  | nil i w => rw [addTurns_nil]; rfl
  | @cons i key keys w w₁ w₂ v called turns hturn hrest ih =>
    have hvisit : visitAmid m supports call i key w = (v, w₁) := hturn.consult_eq
    rw [visitsAmid, fireFrom_cons phase p key _ report hvisit (.inl rfl), ih, addTurns_cons]

end Course

/-- The same clients beside hooks that keep notes. -/
def Interference.beside {μ : Type} (m : Interference η σ) : Interference η (σ × List μ) where
  beforeLookup i w := withNotes (m.beforeLookup i (withoutNotes w)) w.own.2
  beforeCall i w := withNotes (m.beforeCall i (withoutNotes w)) w.own.2

theorem keepsNotes_beside (m : Interference η σ) (call : η → Effect η σ) (i : ℕ) :
    KeepsNotes withNotes Call.hooks (fun h u => call h (m.beforeCall i u))
      (fun h u => noting Call.hooks call h (m.beside.beforeCall i u)) where
  registry _ _ := rfl
  write _ _ _ := rfl
  call {_ w _ _} notes hcall :=
    (keepsNotes_noting Call.hooks call).call (w := m.beforeCall i w) notes hcall

/-- The course is the same with notes, in which it leaves the calls of its positions in order. -/
theorem Course.noted {m : Interference η σ} {phase : Phase} {p : Pattern} {supports : η → Bool}
    {call : η → Effect η σ} {i : ℕ} {keys : List String} {w w' : World η σ}
    {turns : List (Turn η)} (h : Course m phase p supports call i keys w turns w')
    (notes : List η) :
    Course m.beside phase p supports (noting Call.hooks call) i keys (withNotes w notes)
      turns (withNotes w' (notes ++ calls turns)) := by
  induction h generalizing notes with
  | nil i w =>
    rw [show notes ++ calls ([] : List (Turn η)) = notes from List.append_nil notes]
    exact .nil i _
  | @cons i key keys w w₁ w₂ v called turns hturn hrest ih =>
    have hnotes : notes ++ calls (⟨key, v, called⟩ :: turns) =
        (notes ++ called) ++ calls turns := by
      simp [calls]
    have hnoting := keepsNotes_beside m call i
    have hfirst := hnoting.decided hturn notes
    have hnext := ih (notes ++ called)
    rw [hooks_turnCalls] at hfirst
    rw [← hnoting.chronicle_put] at hnext
    rw [hnotes]
    exact .cons hfirst hnext

/-- A tolerant dispatch accounts for every key of its pattern, whatever its hooks and other clients
do to the registry meanwhile. It ends with a report. Its positions are visited in order, and there
is only one way to class them: each is decided by the registry found when its turn comes. The report
lists the missing, fired and failed ones, and with the unsupported ones they make up all positions.
With hooks that put their calls down the dispatch is the same, and the notes hold one call for each
position that fired or failed. -/
theorem fire_accounts_for_every_key (m : Interference η σ) (phase : Phase) (p : Pattern)
    (supports : η → Phase → Bool) (call : η → Effect η σ) (w : World η σ) :
    fireAmid .quiet false phase p supports call w = fire false phase p supports call w ∧
    ∃ (turns : List (Turn η)) (report : Report) (w' : World η σ),
      fireAmid m false phase p supports call w = (.ok report, w') ∧
      Course m phase p (supports · phase) call 0 p.hookKeys w turns w' ∧
      (∀ turns₂ w₂, Course m phase p (supports · phase) call 0 p.hookKeys w turns₂ w₂ →
        turns₂ = turns ∧ w₂ = w') ∧
      turns.map (·.key) = p.hookKeys ∧
      report.phase = phase ∧
      report.missing = keysOf .missing turns ∧
      report.fired = keysOf .fired turns ∧
      report.failures = failuresOf turns ∧
      report.missing.length + report.fired.length + report.failures.length +
        (keysOf .unsupported turns).length = p.hookKeys.length ∧
      fireAmid m.beside false phase p supports (noting Call.hooks call) (withNotes w []) =
        (.ok report, withNotes w' (calls turns)) := by
  obtain ⟨turns, w', hcourse⟩ :=
    exists_course m phase p (supports · phase) call 0 p.hookKeys w
  refine ⟨fireAmid_quiet false phase p supports call w, turns, addTurns { phase } turns, w', ?_,
    hcourse, fun _ _ h => h.unique hcourse, hcourse.keys_eq, rfl, ?_, ?_, ?_, ?_, ?_⟩
  · exact hcourse.fireFrom_eq _
  · exact List.nil_append _
  · exact List.nil_append _
  · exact List.nil_append _
  · have hlength : turns.length = p.hookKeys.length := by
      rw [← hcourse.keys_eq, List.length_map]
    have hclasses := length_classes turns
    simp only [addTurns, List.nil_append]
    omega
  · exact (hcourse.noted []).fireFrom_eq _

/-- Hooks that take themselves out of the registry fire at the first position of their key and are
missing at the second. -/
example : (fire false .compileBegin ⟨.random 0, "a", {}, ["once", "once"], .epoch⟩
    (fun _ _ => true) (fun _ w => (.ok (), (w.unregister "once").2))
    (⟨(Registry.empty .reject).insert "once" (), [], ()⟩ : World Unit Unit)).1 =
      .ok { phase := .compileBegin, fired := ["once"], missing := ["once"] } := rfl

end PatternHooks.DispatchCourse
