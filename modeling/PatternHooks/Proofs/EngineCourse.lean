import PatternHooks.Engine
import PatternHooks.Hooks.Script
import PatternHooks.Proofs.CallLog

/-!
The course of a run of the engine: the nodes that it visits with the state in which it reaches them,
and the calls that are made for them. An engine can be watched without being disturbed. Hooks that
put their calls down are as good as those that do not, and so is a strategy beside which the visits
are put down. The course of a run tells both, with the result and the failures that are noted.
-/

namespace PatternHooks.EngineCourse

open Engine Dispatch CallLog Visits

variable {η σ ω : Type}

/-- A call of hooks on an occasion. The match state stands beside the hooks' own state when it is
lent to them. -/
structure Invocation (η σ : Type) where
  occasion : Occasion
  hooks : η
  before : World η (σ × Option MatchState)
  result : Except Trouble Unit
  after : World η (σ × Option MatchState)

namespace Invocation

def plain (o : Occasion) (c : Call η σ) : Invocation η σ :=
  ⟨o, c.hooks, c.before.enter none, c.result, c.after.enter none⟩

def lent (o : Occasion) (c : Call η (σ × MatchState)) : Invocation η σ :=
  ⟨o, c.hooks, c.before.settle.2.enter (some c.before.settle.1), c.result,
    c.after.settle.2.enter (some c.after.settle.1)⟩

end Invocation

/-- The same hooks, which put down each call on any occasion. -/
def notingHooks (b : Behaviour η σ) : Behaviour η (σ × List (Invocation η σ)) where
  supports := b.supports
  onCompileBegin h p := noting (.plain .begin) (b.onCompileBegin · p) h
  onCompileNode h p n := noting (.plain (.node n)) (b.onCompileNode · p n) h
  onExecNode h p n a := notingLent (.lent (.visit n a)) (b.onExecNode · p n a) h

/-- The calls that the compilation of a pattern makes. -/
def compileCalls (b : Behaviour η σ) (fatal : Bool) (p : Pattern) (w : World η σ) :
    List (Invocation η σ) :=
  (compile (.ofHooks (notingHooks b) fatal) p [] (withNotes w [])).world.own.2

/-- The calls that the search of a subject makes. -/
def execCalls (b : Behaviour η σ) (fatal : Bool) (prog : Program) (subject : String)
    (w : World η σ) : List (Invocation η σ) :=
  (exec (.ofHooks (notingHooks b) fatal) prog subject [] (withNotes w [])).world.own.2

/-- A visit of a node in an attempt: the state in which it is reached, what its dispatch returns,
and the state that the hooks leave. -/
structure Visit where
  attempt : Attempt
  node : Node
  arrived : MatchState
  outcome : Except Fault Report
  left : MatchState

def Visit.failures (v : Visit) : List HookFailure :=
  match v.outcome with
  | .ok report => report.failures
  | .error _ => []

def Visit.occasion (v : Visit) : Occasion := .visit v.node v.attempt

/-- The same strategy, with a list beside its world in which the visits are put down. -/
def watching (h : Strategy ω) : Strategy (ω × List Visit) where
  compileBegin p w := match h.compileBegin p w.1 with
    | (outcome, w') => (outcome, w', w.2)
  compileNode p n w := match h.compileNode p n w.1 with
    | (outcome, w') => (outcome, w', w.2)
  execNode p n a s w := match h.execNode p n a s w.1 with
    | (outcome, t, w') => (outcome, t, w', w.2 ++ [⟨a, n, s, outcome, t⟩])

/-- The visits that the search of a subject makes. -/
def execVisits (h : Strategy ω) (prog : Program) (subject : String) (w : ω) : List Visit :=
  (exec (watching h) prog subject [] (w, [])).world.2

/-- A visit takes place from one world to another, and these calls are made for it. -/
def Visited (b : Behaviour η σ) (fatal : Bool) (p : Pattern) (v : Visit) (w : World η σ)
    (calls : List (Call η (σ × MatchState))) (w' : World η σ) : Prop :=
  Round fatal .execNode p (b.supports · .execNode) (b.onExecNode · p v.node v.attempt) p.hookKeys
    { phase := .execNode } ((w.write (visiting p v.node v.arrived)).lend v.arrived) calls v.outcome
    (w'.lend v.left)

def Visit.invocations (v : Visit) (calls : List (Call η (σ × MatchState))) :
    List (Invocation η σ) :=
  calls.map (.lent (.visit v.node v.attempt))

theorem exists_visited (b : Behaviour η σ) (fatal : Bool) (p : Pattern) (a : Attempt) (n : Node)
    (s : MatchState) (w : World η σ) :
    ∃ outcome t calls w', Visited b fatal p ⟨a, n, s, outcome, t⟩ w calls w' := by
  obtain ⟨calls, outcome, w', hround⟩ := exists_round fatal .execNode p (b.supports · .execNode)
    (b.onExecNode · p n a) p.hookKeys { phase := .execNode } ((w.write (visiting p n s)).lend s)
  exact ⟨outcome, w'.settle.1, calls, w'.settle.2, hround⟩

/-- What each call of a visit keeps, the visit keeps. -/
theorem Visited.keeps {b : Behaviour η σ} {fatal : Bool} {p : Pattern} {v : Visit}
    {w w' : World η σ} {calls : List (Call η (σ × MatchState))} {P : MatchState → Prop}
    (h : Visited b fatal p v w calls w')
    (hcalls : ∀ c ∈ calls, b.onExecNode c.hooks p v.node v.attempt c.before = (c.result, c.after) →
      P c.before.own.2 → P c.after.own.2)
    (harrived : P v.arrived) : P v.left := by
  refine h.linked.keeps (P := fun u => P u.own.2) ?_ ?_ harrived
  · intro u u' halike hu
    rw [halike.own]
    exact hu
  · exact fun c hc => hcalls c hc (h.made c hc)

/-- What a node asks of the state of an attempt. -/
inductive Demand where
  | nothing
  | advance (n : ℕ)
  | capture

/-- It depends on the state through its position alone. -/
def demand (a : Attempt) (n : Node) (offset : ℕ) : Demand :=
  match n.kind with
  | .exact text =>
    match Text.strip? text.toList (a.remaining offset) with
    | none => .nothing
    | some _ => .advance (Text.size text.toList)
  | .anyChar =>
    match a.remaining offset with
    | [] => .nothing
    | c :: _ => .advance c.utf8Size
  | .finish => .capture
  | _ => .nothing

theorem move_eq (a : Attempt) (n : Node) (s : MatchState) :
    move a n s = match demand a n s.position with
      | .nothing => .ok .failure
      | .advance k => (s.advance k).map .next
      | .capture => (s.setCapture 0 a.start s.position).map .success := by
  cases hkind : n.kind with
  | exact text =>
    simp only [move, demand, hkind]
    cases Text.strip? text.toList (a.remaining s.position) <;> rfl
  | anyChar =>
    simp only [move, demand, hkind]
    cases a.remaining s.position <;> rfl
  | _ => simp only [move, demand, hkind]

theorem demand_eq_capture_iff {a : Attempt} {n : Node} {offset : ℕ} :
    demand a n offset = .capture ↔ n.kind = .finish := by
  cases hkind : n.kind with
  | exact text =>
    simp only [demand, hkind]
    cases Text.strip? text.toList (a.remaining offset) <;> simp
  | anyChar =>
    simp only [demand, hkind]
    cases a.remaining offset <;> simp
  | _ => simp [demand, hkind]

/-- A node asks to move on over characters that are left. -/
theorem exists_of_demand_advance {a : Attempt} {n : Node} {offset k : ℕ}
    (h : demand a n offset = .advance k) :
    ∃ xs behind, a.remaining offset = xs ++ behind ∧ k = Text.size xs := by
  cases hkind : n.kind with
  | exact text =>
    simp only [demand, hkind] at h
    cases hstrip : Text.strip? text.toList (a.remaining offset) with
    | none => rw [hstrip] at h; cases h
    | some behind =>
      rw [hstrip] at h
      cases h
      exact ⟨text.toList, behind, Text.strip?_eq_some_iff.mp hstrip, rfl⟩
  | anyChar =>
    simp only [demand, hkind] at h
    cases hrest : a.remaining offset with
    | nil => rw [hrest] at h; cases h
    | cons c cs =>
      rw [hrest] at h
      cases h
      exact ⟨[c], cs, rfl, rfl⟩
  | _ =>
    simp only [demand, hkind] at h
    cases h

/-- How an attempt ends with a move, unless it goes on. -/
def ending : Except EditFault Move → Option (Except Fault (Option ℕ))
  | .error f => some (.error f.toFault)
  | .ok .failure => some (.ok none)
  | .ok (.success s) => some (.ok (some s.position))
  | .ok (.next _) => none

/-- The course of an attempt from a state on: its visits and the calls made for them, with its
result and the world that it leaves. -/
inductive Passage (b : Behaviour η σ) (fatal : Bool) (p : Pattern) (a : Attempt) :
    List Node → MatchState → World η σ → List Visit → List (Invocation η σ) →
    Except Fault (Option ℕ) → World η σ → Prop
  | spent (s : MatchState) (w : World η σ) : Passage b fatal p a [] s w [] [] (.ok none) w
  | stops {n : Node} {ns : List Node} {s t : MatchState} {w w' : World η σ} {e : Fault}
      {calls : List (Call η (σ × MatchState))}
      (hvisit : Visited b fatal p ⟨a, n, s, .error e, t⟩ w calls w') :
      Passage b fatal p a (n :: ns) s w [⟨a, n, s, .error e, t⟩]
        (Visit.invocations ⟨a, n, s, .error e, t⟩ calls) (.error e) w'
  | ends {n : Node} {ns : List Node} {s t : MatchState} {w w' : World η σ} {report : Report}
      {calls : List (Call η (σ × MatchState))} {r : Except Fault (Option ℕ)}
      (hvisit : Visited b fatal p ⟨a, n, s, .ok report, t⟩ w calls w')
      (hends : ending (move a n t) = some r) :
      Passage b fatal p a (n :: ns) s w [⟨a, n, s, .ok report, t⟩]
        (Visit.invocations ⟨a, n, s, .ok report, t⟩ calls) r w'
  | next {n : Node} {ns : List Node} {s t u : MatchState} {w w' w'' : World η σ} {report : Report}
      {calls : List (Call η (σ × MatchState))} {visits : List Visit} {is : List (Invocation η σ)}
      {r : Except Fault (Option ℕ)}
      (hvisit : Visited b fatal p ⟨a, n, s, .ok report, t⟩ w calls w')
      (hmove : move a n t = .ok (.next u))
      (hrest : Passage b fatal p a ns u w' visits is r w'') :
      Passage b fatal p a (n :: ns) s w (⟨a, n, s, .ok report, t⟩ :: visits)
        (Visit.invocations ⟨a, n, s, .ok report, t⟩ calls ++ is) r w''

theorem exists_passage (b : Behaviour η σ) (fatal : Bool) (p : Pattern) (a : Attempt)
    (ns : List Node) (s : MatchState) (w : World η σ) :
    ∃ visits is r w', Passage b fatal p a ns s w visits is r w' := by
  induction ns generalizing s w with
  | nil => exact ⟨[], [], .ok none, w, .spent s w⟩
  | cons n ns ih =>
    obtain ⟨outcome, t, calls, w', hvisit⟩ := exists_visited b fatal p a n s w
    cases outcome with
    | error e => exact ⟨_, _, _, w', .stops hvisit⟩
    | ok report =>
      cases hmove : move a n t with
      | error f => exact ⟨_, _, .error f.toFault, w', .ends hvisit (by rw [hmove, ending])⟩
      | ok m =>
        cases m with
        | failure => exact ⟨_, _, .ok none, w', .ends hvisit (by rw [hmove, ending])⟩
        | success u => exact ⟨_, _, .ok (some u.position), w', .ends hvisit (by rw [hmove, ending])⟩
        | next u =>
          obtain ⟨visits, is, r, w'', hrest⟩ := ih u w'
          exact ⟨_, _, r, w'', .next hvisit hmove hrest⟩

/-- The course of a search over starts. -/
inductive Pursuit (b : Behaviour η σ) (fatal : Bool) (prog : Program) (subject : String) :
    List ℕ → World η σ → List Visit → List (Invocation η σ) → Except Fault (Option (ℕ × ℕ)) →
    World η σ → Prop
  | spent (w : World η σ) : Pursuit b fatal prog subject [] w [] [] (.ok none) w
  | stops {start : ℕ} {starts : List ℕ} {w w' : World η σ} {visits : List Visit}
      {is : List (Invocation η σ)} {e : Fault}
      (hpassage : Passage b fatal prog.pattern (.startingAt subject start) prog.nodes
        (.start (.startingAt subject start) 1) w visits is (.error e) w') :
      Pursuit b fatal prog subject (start :: starts) w visits is (.error e) w'
  | finds {start stop : ℕ} {starts : List ℕ} {w w' : World η σ} {visits : List Visit}
      {is : List (Invocation η σ)}
      (hpassage : Passage b fatal prog.pattern (.startingAt subject start) prog.nodes
        (.start (.startingAt subject start) 1) w visits is (.ok (some stop)) w') :
      Pursuit b fatal prog subject (start :: starts) w visits is (.ok (some (start, stop))) w'
  | next {start : ℕ} {starts : List ℕ} {w w' w'' : World η σ} {visits visits' : List Visit}
      {is is' : List (Invocation η σ)} {r : Except Fault (Option (ℕ × ℕ))}
      (hpassage : Passage b fatal prog.pattern (.startingAt subject start) prog.nodes
        (.start (.startingAt subject start) 1) w visits is (.ok none) w')
      (hrest : Pursuit b fatal prog subject starts w' visits' is' r w'') :
      Pursuit b fatal prog subject (start :: starts) w (visits ++ visits') (is ++ is') r w''

theorem exists_pursuit (b : Behaviour η σ) (fatal : Bool) (prog : Program) (subject : String)
    (starts : List ℕ) (w : World η σ) :
    ∃ visits is r w', Pursuit b fatal prog subject starts w visits is r w' := by
  induction starts generalizing w with
  | nil => exact ⟨[], [], .ok none, w, .spent w⟩
  | cons start starts ih =>
    obtain ⟨visits, is, r, w', hpassage⟩ := exists_passage b fatal prog.pattern
      (.startingAt subject start) prog.nodes (.start (.startingAt subject start) 1) w
    cases r with
    | error e => exact ⟨_, _, _, w', .stops hpassage⟩
    | ok found =>
      cases found with
      | some stop => exact ⟨_, _, _, w', .finds hpassage⟩
      | none =>
        obtain ⟨visits', is', r, w'', hrest⟩ := ih w'
        exact ⟨_, _, r, w'', .next hpassage hrest⟩

theorem Passage.mem_visits {b : Behaviour η σ} {fatal : Bool} {p : Pattern} {a : Attempt}
    {ns : List Node} {s : MatchState} {w w' : World η σ} {visits : List Visit}
    {is : List (Invocation η σ)} {r : Except Fault (Option ℕ)}
    (h : Passage b fatal p a ns s w visits is r w') :
    ∀ v ∈ visits, v.attempt = a ∧ v.node ∈ ns := by
  induction h with
  | spent s w => exact fun v hv => absurd hv List.not_mem_nil
  | stops hvisit => exact List.forall_mem_singleton.mpr ⟨rfl, List.mem_cons_self⟩
  | ends hvisit hends => exact List.forall_mem_singleton.mpr ⟨rfl, List.mem_cons_self⟩
  | next hvisit hmove hrest ih =>
    refine List.forall_mem_cons.mpr ⟨⟨rfl, List.mem_cons_self⟩, fun v hv => ?_⟩
    obtain ⟨hattempt, hnode⟩ := ih v hv
    exact ⟨hattempt, List.mem_cons_of_mem _ hnode⟩

theorem Pursuit.mem_visits {b : Behaviour η σ} {fatal : Bool} {prog : Program} {subject : String}
    {starts : List ℕ} {w w' : World η σ} {visits : List Visit} {is : List (Invocation η σ)}
    {r : Except Fault (Option (ℕ × ℕ))}
    (h : Pursuit b fatal prog subject starts w visits is r w') :
    ∀ v ∈ visits, ∃ start ∈ starts, v.attempt = .startingAt subject start ∧
      v.node ∈ prog.nodes := by
  induction h with
  | spent w => exact fun v hv => absurd hv List.not_mem_nil
  | stops hpassage =>
    exact fun v hv => ⟨_, List.mem_cons_self, hpassage.mem_visits v hv⟩
  | finds hpassage =>
    exact fun v hv => ⟨_, List.mem_cons_self, hpassage.mem_visits v hv⟩
  | next hpassage hrest ih =>
    intro v hv
    rcases List.mem_append.mp hv with hv | hv
    · exact ⟨_, List.mem_cons_self, hpassage.mem_visits v hv⟩
    · obtain ⟨start, hstart, hof⟩ := ih v hv
      exact ⟨start, List.mem_cons_of_mem _ hstart, hof⟩

section Builds
variable {b : Behaviour η σ} {fatal : Bool} {w w' : World η σ} {visits : List Visit}
  {is : List (Invocation η σ)}
  {P : World η σ → List Visit → List (Invocation η σ) → World η σ → Prop}

/-- What holds of single visits, and of one part of a run after another, holds of an attempt. -/
theorem Passage.builds {p : Pattern} {a : Attempt} {ns : List Node} {s : MatchState}
    {r : Except Fault (Option ℕ)} (h : Passage b fatal p a ns s w visits is r w')
    (hnil : ∀ w, P w [] [] w)
    (hvisit : ∀ {v w calls w'}, Visited b fatal p v w calls w' → P w [v] (v.invocations calls) w')
    (happend : ∀ {w w' w'' visits visits' is is'}, P w visits is w' → P w' visits' is' w'' →
      P w (visits ++ visits') (is ++ is') w'') : P w visits is w' := by
  induction h with
  | spent s w => exact hnil w
  | stops hvisited => exact hvisit hvisited
  | ends hvisited hends => exact hvisit hvisited
  | next hvisited hmove hrest ih => exact happend (hvisit hvisited) ih

/-- And so it holds of a search. -/
theorem Pursuit.builds {prog : Program} {subject : String} {starts : List ℕ}
    {r : Except Fault (Option (ℕ × ℕ))}
    (h : Pursuit b fatal prog subject starts w visits is r w') (hnil : ∀ w, P w [] [] w)
    (hvisit : ∀ {v w calls w'}, Visited b fatal prog.pattern v w calls w' →
      P w [v] (v.invocations calls) w')
    (happend : ∀ {w w' w'' visits visits' is is'}, P w visits is w' → P w' visits' is' w'' →
      P w (visits ++ visits') (is ++ is') w'') : P w visits is w' := by
  induction h with
  | spent w => exact hnil w
  | stops hpassage => exact hpassage.builds hnil hvisit happend
  | finds hpassage => exact hpassage.builds hnil hvisit happend
  | next hpassage hrest ih => exact happend (hpassage.builds hnil hvisit happend) ih

end Builds

/-- `h` visits nodes as dispatches to the hooks do, in worlds that hold what was put down. -/
def Follows (b : Behaviour η σ) (fatal : Bool) (h : Strategy ω)
    (put : World η σ → List Visit → List (Invocation η σ) → ω) : Prop :=
  ∀ {p v w calls w'} visits is, Visited b fatal p v w calls w' →
    h.execNode p v.node v.attempt v.arrived (put w visits is) =
      (v.outcome, v.left, put w' (visits ++ [v]) (is ++ v.invocations calls))

section Follows
variable {b : Behaviour η σ} {fatal : Bool}

theorem Visited.execNode_eq {p : Pattern} {v : Visit} {w w' : World η σ}
    {calls : List (Call η (σ × MatchState))} (h : Visited b fatal p v w calls w') :
    Dispatch.execNode b fatal p v.node v.attempt v.arrived w = (v.outcome, v.left, w') := by
  simp only [Dispatch.execNode, h.fire_eq, World.settle_lend]

theorem follows_plain : Follows b fatal (.ofHooks b fatal) fun w _ _ => w :=
  fun _ _ hvisit => hvisit.execNode_eq

theorem follows_watching :
    Follows b fatal (watching (.ofHooks b fatal)) fun w visits _ => (w, visits) := by
  intro p v w calls w' visits is hvisit
  simp only [watching, Strategy.ofHooks, hvisit.execNode_eq]

theorem follows_noting :
    Follows b fatal (.ofHooks (notingHooks b) fatal) fun w _ is => withNotes w is := by
  intro p v w calls w' visits is hvisit
  have hfire := hvisit.fire_keeping
    (keepsNotes_notingLent (.lent (.visit v.node v.attempt)) (b.onExecNode · p v.node v.attempt)) is
  simp only [Strategy.ofHooks, Dispatch.execNode]
  exact congrArg (fun x => (x.1, x.2.settle)) hfire

variable {h : Strategy ω} {put : World η σ → List Visit → List (Invocation η σ) → ω}

theorem Passage.attempt_eq {p : Pattern} {a : Attempt} {ns : List Node} {s : MatchState}
    {w w' : World η σ} {visits : List Visit} {is : List (Invocation η σ)}
    {r : Except Fault (Option ℕ)} (hpassage : Passage b fatal p a ns s w visits is r w')
    (hfollows : Follows b fatal h put) (noted : List HookFailure) (visits₀ : List Visit)
    (is₀ : List (Invocation η σ)) :
    attempt h p a ns s noted (put w visits₀ is₀) =
      ⟨r, noted ++ visits.flatMap Visit.failures, put w' (visits₀ ++ visits) (is₀ ++ is)⟩ := by
  induction hpassage generalizing noted visits₀ is₀ with
  | spent s w => simp only [attempt, List.flatMap_nil, List.append_nil]
  | stops hvisit =>
    have hexec := hfollows visits₀ is₀ hvisit
    simp only [attempt, hexec, List.flatMap_singleton, Visit.failures, List.append_nil]
  | @ends n ns s t w w' report calls r hvisit hends =>
    have hexec := hfollows visits₀ is₀ hvisit
    simp only [attempt, hexec, List.flatMap_singleton, Visit.failures]
    generalize move a n t = m at hends
    cases m with
    | error f => cases hends; rfl
    | ok m => cases m <;> cases hends <;> rfl
  | next hvisit hmove hrest ih =>
    have hexec := hfollows visits₀ is₀ hvisit
    simp only [attempt, hexec, hmove, ih, List.flatMap_cons, Visit.failures, List.append_assoc,
      List.singleton_append]

theorem Pursuit.search_eq {prog : Program} {subject : String} {starts : List ℕ}
    {w w' : World η σ} {visits : List Visit} {is : List (Invocation η σ)}
    {r : Except Fault (Option (ℕ × ℕ))}
    (hpursuit : Pursuit b fatal prog subject starts w visits is r w')
    (hfollows : Follows b fatal h put) (noted : List HookFailure) (visits₀ : List Visit)
    (is₀ : List (Invocation η σ)) :
    search h prog subject starts noted (put w visits₀ is₀) =
      ⟨r, noted ++ visits.flatMap Visit.failures, put w' (visits₀ ++ visits) (is₀ ++ is)⟩ := by
  induction hpursuit generalizing noted visits₀ is₀ with
  | spent w => simp only [search, List.flatMap_nil, List.append_nil]
  | stops hpassage => simp only [search, hpassage.attempt_eq hfollows]
  | finds hpassage => simp only [search, hpassage.attempt_eq hfollows]
  | next hpassage hrest ih =>
    simp only [search, hpassage.attempt_eq hfollows, ih, List.flatMap_append, List.append_assoc]

end Follows

section Exec
variable {b : Behaviour η σ} {fatal : Bool} {prog : Program} {subject : String} {w w' : World η σ}
  {visits : List Visit} {is : List (Invocation η σ)} {r : Except Fault (Option (ℕ × ℕ))}

theorem Pursuit.exec_eq
    (h : Pursuit b fatal prog subject (Text.boundaries subject.toList) w visits is r w')
    (noted : List HookFailure) :
    exec (.ofHooks b fatal) prog subject noted w =
      ⟨r, noted ++ visits.flatMap Visit.failures, w'⟩ :=
  h.search_eq follows_plain noted [] []

/-- Watching the visits changes nothing else. -/
theorem Pursuit.exec_watching
    (h : Pursuit b fatal prog subject (Text.boundaries subject.toList) w visits is r w')
    (noted : List HookFailure) (visits₀ : List Visit) :
    exec (watching (.ofHooks b fatal)) prog subject noted (w, visits₀) =
      ⟨r, noted ++ visits.flatMap Visit.failures, w', visits₀ ++ visits⟩ :=
  h.search_eq follows_watching noted visits₀ []

/-- Putting down the calls changes nothing else. -/
theorem Pursuit.exec_noting
    (h : Pursuit b fatal prog subject (Text.boundaries subject.toList) w visits is r w')
    (noted : List HookFailure) (is₀ : List (Invocation η σ)) :
    exec (.ofHooks (notingHooks b) fatal) prog subject noted (withNotes w is₀) =
      ⟨r, noted ++ visits.flatMap Visit.failures, withNotes w' (is₀ ++ is)⟩ :=
  h.search_eq follows_noting noted [] is₀

theorem Pursuit.execVisits_eq
    (h : Pursuit b fatal prog subject (Text.boundaries subject.toList) w visits is r w') :
    execVisits (.ofHooks b fatal) prog subject w = visits := by
  rw [execVisits, h.exec_watching]
  rfl

theorem Pursuit.execCalls_eq
    (h : Pursuit b fatal prog subject (Text.boundaries subject.toList) w visits is r w') :
    execCalls b fatal prog subject w = is := by
  rw [execCalls, h.exec_noting]
  rfl

/-- A search is the same when its visits are watched, and when its calls are put down. -/
theorem exec_undisturbed (b : Behaviour η σ) (fatal : Bool) (prog : Program) (subject : String)
    (noted : List HookFailure) (w : World η σ) :
    ∃ r noted' w', exec (.ofHooks b fatal) prog subject noted w = ⟨r, noted', w'⟩ ∧
      exec (watching (.ofHooks b fatal)) prog subject noted (w, []) =
        ⟨r, noted', w', execVisits (.ofHooks b fatal) prog subject w⟩ ∧
      exec (.ofHooks (notingHooks b) fatal) prog subject noted (withNotes w []) =
        ⟨r, noted', withNotes w' (execCalls b fatal prog subject w)⟩ := by
  obtain ⟨visits, is, r, w', h⟩ :=
    exists_pursuit b fatal prog subject (Text.boundaries subject.toList) w
  rw [h.execVisits_eq, h.execCalls_eq]
  exact ⟨r, _, w', h.exec_eq noted, h.exec_watching noted [], h.exec_noting noted []⟩

end Exec

/-- The hooks of a pattern are told of its compilation, from one world to another, and these calls
are made. -/
inductive Told (b : Behaviour η σ) (fatal : Bool) (p : Pattern) : Occasion → World η σ →
    List (Invocation η σ) → Except Fault Report → World η σ → Prop
  | begin {w w' : World η σ} {calls : List (Call η σ)} {outcome : Except Fault Report}
      (hround : Round fatal .compileBegin p (b.supports · .compileBegin) (b.onCompileBegin · p)
        p.hookKeys { phase := .compileBegin } (w.write (beginning p)) calls outcome w') :
      Told b fatal p .begin w (calls.map (.plain .begin)) outcome w'
  | node {n : Node} {w w' : World η σ} {calls : List (Call η σ)} {outcome : Except Fault Report}
      (hround : Round fatal .compileNode p (b.supports · .compileNode) (b.onCompileNode · p n)
        p.hookKeys { phase := .compileNode } (w.write (compiling p n)) calls outcome w') :
      Told b fatal p (.node n) w (calls.map (.plain (.node n))) outcome w'

/-- The course of a compilation: the occasions that hooks are told of, until a dispatch fails, with
the failures that are noted and the calls that are made. -/
inductive Announcement (b : Behaviour η σ) (fatal : Bool) (p : Pattern) : List Occasion →
    World η σ → List HookFailure → List (Invocation η σ) → Except Fault Unit → World η σ → Prop
  | done (w : World η σ) : Announcement b fatal p [] w [] [] (.ok ()) w
  | stops {o : Occasion} {os : List Occasion} {w w' : World η σ} {e : Fault}
      {is : List (Invocation η σ)} (htold : Told b fatal p o w is (.error e) w') :
      Announcement b fatal p (o :: os) w [] is (.error e) w'
  | next {o : Occasion} {os : List Occasion} {w w' w'' : World η σ} {report : Report}
      {fs : List HookFailure} {is is' : List (Invocation η σ)} {r : Except Fault Unit}
      (htold : Told b fatal p o w is (.ok report) w')
      (hrest : Announcement b fatal p os w' fs is' r w'') :
      Announcement b fatal p (o :: os) w (report.failures ++ fs) (is ++ is') r w''

/-- What the hooks of a pattern are told in its compilation. -/
def occasionsOf (p : Pattern) : List Occasion := .begin :: (nodesOf p.source).map .node

theorem exists_told_begin (b : Behaviour η σ) (fatal : Bool) (p : Pattern) (w : World η σ) :
    ∃ is outcome w', Told b fatal p .begin w is outcome w' := by
  obtain ⟨calls, outcome, w', hround⟩ := exists_round fatal .compileBegin p
    (b.supports · .compileBegin) (b.onCompileBegin · p) p.hookKeys { phase := .compileBegin }
    (w.write (beginning p))
  exact ⟨_, outcome, w', .begin hround⟩

theorem exists_told_node (b : Behaviour η σ) (fatal : Bool) (p : Pattern) (n : Node)
    (w : World η σ) : ∃ is outcome w', Told b fatal p (.node n) w is outcome w' := by
  obtain ⟨calls, outcome, w', hround⟩ := exists_round fatal .compileNode p
    (b.supports · .compileNode) (b.onCompileNode · p n) p.hookKeys { phase := .compileNode }
    (w.write (compiling p n))
  exact ⟨_, outcome, w', .node hround⟩

theorem exists_announcement (b : Behaviour η σ) (fatal : Bool) (p : Pattern) (w : World η σ) :
    ∃ fs is r w', Announcement b fatal p (occasionsOf p) w fs is r w' := by
  have hnodes : ∀ (ns : List Node) (w : World η σ),
      ∃ fs is r w', Announcement b fatal p (ns.map .node) w fs is r w' := by
    intro ns
    induction ns with
    | nil => exact fun w => ⟨[], [], .ok (), w, .done w⟩
    | cons n ns ih =>
      intro w
      obtain ⟨is, outcome, w', htold⟩ := exists_told_node b fatal p n w
      cases outcome with
      | error e => exact ⟨_, _, _, w', .stops htold⟩
      | ok report =>
        obtain ⟨fs, is', r, w'', hrest⟩ := ih w'
        exact ⟨_, _, r, w'', .next htold hrest⟩
  obtain ⟨is, outcome, w', htold⟩ := exists_told_begin b fatal p w
  cases outcome with
  | error e => exact ⟨_, _, _, w', .stops htold⟩
  | ok report =>
    obtain ⟨fs, is', r, w'', hrest⟩ := hnodes (nodesOf p.source) w'
    exact ⟨_, _, r, w'', .next htold hrest⟩

/-- `h` tells of a compilation as dispatches to the hooks do, in worlds that hold what was put
down. -/
structure Tells (b : Behaviour η σ) (fatal : Bool) (h : Strategy ω)
    (put : World η σ → List (Invocation η σ) → ω) : Prop where
  begin : ∀ {p w is outcome w'} is₀, Told b fatal p .begin w is outcome w' →
    h.compileBegin p (put w is₀) = (outcome, put w' (is₀ ++ is))
  node : ∀ {p n w is outcome w'} is₀, Told b fatal p (.node n) w is outcome w' →
    h.compileNode p n (put w is₀) = (outcome, put w' (is₀ ++ is))

section Tells
variable {b : Behaviour η σ} {fatal : Bool}

theorem tells_plain : Tells b fatal (.ofHooks b fatal) fun w _ => w where
  begin _ htold := by
    cases htold with
    | begin hround => exact hround.fire_eq
  node _ htold := by
    cases htold with
    | node hround => exact hround.fire_eq

theorem tells_noting : Tells b fatal (.ofHooks (notingHooks b) fatal) withNotes where
  begin is₀ htold := by
    cases htold with
    | begin hround => exact hround.fire_keeping (keepsNotes_noting _ _) is₀
  node is₀ htold := by
    cases htold with
    | node hround => exact hround.fire_keeping (keepsNotes_noting _ _) is₀

variable {h : Strategy ω} {put : World η σ → List (Invocation η σ) → ω} {p : Pattern}
  {w w' : World η σ} {fs : List HookFailure} {is : List (Invocation η σ)} {r : Except Fault Unit}

theorem Announcement.announce_eq {ns : List Node}
    (hannouncement : Announcement b fatal p (ns.map .node) w fs is r w')
    (htells : Tells b fatal h put) (noted : List HookFailure) (is₀ : List (Invocation η σ)) :
    announce h p ns noted (put w is₀) = ⟨r, noted ++ fs, put w' (is₀ ++ is)⟩ := by
  induction ns generalizing w fs is noted is₀ with
  | nil =>
    cases hannouncement
    simp only [announce, List.append_nil]
  | cons n ns ih =>
    rw [List.map_cons] at hannouncement
    cases hannouncement with
    | stops htold => simp only [announce, htells.node is₀ htold, List.append_nil]
    | next htold hrest => simp only [announce, htells.node is₀ htold, ih hrest, List.append_assoc]

theorem Announcement.compile_eq
    (hannouncement : Announcement b fatal p (occasionsOf p) w fs is r w')
    (htells : Tells b fatal h put) (noted : List HookFailure) (is₀ : List (Invocation η σ)) :
    compile h p noted (put w is₀) =
      ⟨r.map fun _ => ⟨p, nodesOf p.source⟩, noted ++ fs, put w' (is₀ ++ is)⟩ := by
  cases hannouncement with
  | stops htold =>
    simp only [compile, htells.begin is₀ htold, List.append_nil]
    rfl
  | next htold hrest =>
    simp only [compile, htells.begin is₀ htold, hrest.announce_eq htells, List.append_assoc]
    cases r <;> rfl

theorem Announcement.compileCalls_eq
    (hannouncement : Announcement b fatal p (occasionsOf p) w fs is r w') :
    compileCalls b fatal p w = is := by
  rw [compileCalls, hannouncement.compile_eq tells_noting]
  rfl

/-- A compilation is the same when its calls are put down. -/
theorem compile_undisturbed (b : Behaviour η σ) (fatal : Bool) (p : Pattern)
    (noted : List HookFailure) (w : World η σ) :
    ∃ r noted' w', compile (.ofHooks b fatal) p noted w = ⟨r, noted', w'⟩ ∧
      compile (.ofHooks (notingHooks b) fatal) p noted (withNotes w []) =
        ⟨r, noted', withNotes w' (compileCalls b fatal p w)⟩ := by
  obtain ⟨fs, is, r, w', h⟩ := exists_announcement b fatal p w
  rw [h.compileCalls_eq]
  exact ⟨_, _, w', h.compile_eq tells_plain noted [], h.compile_eq tells_noting noted []⟩

end Tells

end PatternHooks.EngineCourse
