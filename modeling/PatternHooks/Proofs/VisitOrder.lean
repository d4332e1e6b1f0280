import PatternHooks.Proofs.Attendance
import PatternHooks.Proofs.LeftmostMatch
import PatternHooks.Proofs.SteeredMatch
import PatternHooks.Proofs.StillHooks

/-!
Where a search with still hooks goes. It starts at the boundaries of the subject in order, up to the
one where the leftmost match starts, or at all of them if there is no match. From each it visits as
many nodes as characters of the source are accepted there, and one more: the node that rejects, or
the last one.
-/

namespace PatternHooks.VisitOrder

open Engine Dispatch CallLog EngineCourse MatchStateBounds Steering StillHooks LeftmostMatch Visits
open Attendance

variable {η σ ω : Type}

/-- The number of characters of a source that are accepted one by one at the beginning of a text. -/
def leading (source text : List Char) : ℕ :=
  ((source.zip text).takeWhile fun x => decide (Admits x.1 x.2)).length

theorem leading_of_admits {p c : Char} (h : Admits p c) (ps cs : List Char) :
    leading (p :: ps) (c :: cs) = leading ps cs + 1 := by
  simp [leading, h]

theorem leading_of_rejects {p : Char} {ps text : List Char}
    (h : ∀ c cs, text = c :: cs → ¬ Admits p c) : leading (p :: ps) text = 0 := by
  cases text with
  | nil => rfl
  | cons c cs => simp [leading, h c cs rfl]

theorem leading_nil (text : List Char) : leading [] text = 0 := rfl

/-- What is left of a subject from an offset on. -/
def restFrom (subject : String) (offset : ℕ) : List Char :=
  (Text.after? offset subject.toList).getD []

/-- The visits of an attempt from an offset on. -/
def occasionsAt (source subject : String) (offset : ℕ) : List Occasion :=
  ((nodesOf source).take (leading source.toList (restFrom subject offset) + 1)).map
    fun n => .visit n (.startingAt subject offset)

/-- The starts that are tried, when this is found: those up to the start of the match. -/
def tried (starts : List ℕ) : Option (ℕ × ℕ) → List ℕ
  | none => starts
  | some (start, _) => starts.filter (· ≤ start)

theorem stands_of_kept {a : Attempt} {s t : MatchState} {before rest : List Char}
    (h : Stands a s before rest) (ht : Kept a 1 t) (hposition : t.position = s.position) :
    Stands a t before rest where
  split := h.split
  stop := h.stop
  fits := h.fits
  start := h.start
  subject := ht.subject
  limit := ht.limit
  position := hposition.trans h.position
  slot := by rw [ht.slots]; exact Nat.one_pos

section Course
variable {b : Behaviour η σ} {fatal : Bool} {w w' : World η σ} {visits : List Visit}
  {is : List (Invocation η σ)}

/-- With still hooks an attempt visits a node for each character that it accepts, and one more. -/
theorem passage_visits {p : Pattern} {a : Attempt} {ps : List Char} {index offset : ℕ}
    {s : MatchState} {before rest : List Char} {r : Except Fault (Option ℕ)}
    (h : Passage b fatal p a (nodesFrom index offset ps) s w visits is r w') (hsteers : Steers b)
    (hstill : ∀ c ∈ is, KeepsPosition c) (hwell : fatal = true → ∀ c ∈ is, c.result = .ok ())
    (hs : Kept a 1 s) (hstands : Stands a s before rest) :
    visits.map Visit.occasion = ((nodesFrom index offset ps).take (leading ps rest + 1)).map
      fun n => .visit n a := by
  induction ps generalizing index offset s before rest w visits is with
  | nil =>
    rw [leading_nil]
    rw [nodesFrom] at h ⊢
    have hkind : (⟨index, .finish, offset, none⟩ : Node).kind = .finish := rfl
    cases h with
    | stops hvisit =>
      obtain ⟨report, houtcome⟩ := exists_report hvisit hwell
      cases houtcome
    | ends hvisit hends => rfl
    | next hvisit hmove hrest =>
      obtain ⟨hleft, hposition⟩ := kept_visited hsteers hvisit hs
        (List.forall_mem_append.mp hstill).1
      obtain ⟨t, hfinish, _⟩ := (stands_of_kept hstands hleft hposition).move_finish hkind
      cases hmove.symm.trans hfinish
  | cons p' ps ih =>
    rw [nodesFrom] at h ⊢
    have hkind : (⟨index, kindOf p', offset, some (index + 1)⟩ : Node).kind = kindOf p' := rfl
    cases h with
    | stops hvisit =>
      obtain ⟨report, houtcome⟩ := exists_report hvisit hwell
      cases houtcome
    | ends hvisit hends =>
      obtain ⟨hleft, hposition⟩ := kept_visited hsteers hvisit hs hstill
      have hstands' := stands_of_kept hstands hleft hposition
      have hrejects : ∀ c cs, rest = c :: cs → ¬ Admits p' c := by
        intro c cs hrest hadmits
        subst hrest
        obtain ⟨t, hmove, _⟩ := hstands'.move_admits hkind hadmits
        rw [hmove] at hends
        cases hends
      rw [leading_of_rejects hrejects]
      rfl
    | next hvisit hmove hrest =>
      obtain ⟨hstill₁, hstill₂⟩ := List.forall_mem_append.mp hstill
      obtain ⟨hleft, hposition⟩ := kept_visited hsteers hvisit hs hstill₁
      have hstands' := stands_of_kept hstands hleft hposition
      -- The attempt goes on, so the character was accepted; a node that rejects has no next state.
      by_cases hc : ∃ c cs, rest = c :: cs ∧ Admits p' c
      · obtain ⟨c, cs, rfl, hadmits⟩ := hc
        obtain ⟨t, hmove', ht⟩ := hstands'.move_admits hkind hadmits
        cases hmove.symm.trans hmove'
        have hvisits := ih hrest hstill₂
          (fun hfatal => (List.forall_mem_append.mp (hwell hfatal)).2) (kept_next hleft hmove) ht
        rw [leading_of_admits hadmits, List.map_cons, hvisits]
        rfl
      · have hrejects : ∀ c cs, rest = c :: cs → ¬ Admits p' c := fun c cs hrest hadmits =>
          hc ⟨c, cs, hrest, hadmits⟩
        cases hmove.symm.trans (hstands'.move_rejects hkind hrejects)

theorem passage_occasions {p : Pattern} {subject : String} {start : ℕ}
    {r : Except Fault (Option ℕ)}
    (h : Passage b fatal p (.startingAt subject start) (nodesOf p.source)
      (.start (.startingAt subject start) 1) w visits is r w') (hsteers : Steers b)
    (hstill : ∀ c ∈ is, KeepsPosition c) (hwell : fatal = true → ∀ c ∈ is, c.result = .ok ())
    (hfits : subject.utf8ByteSize ≤ maxOffset)
    (hstart : start ∈ Text.boundaries subject.toList) :
    visits.map Visit.occasion = occasionsAt p.source subject start := by
  obtain ⟨before, rest, hsplit, rfl⟩ :=
    (Text.isBoundary_iff _ _).mp (Text.mem_boundaries_iff.mp hstart)
  have hrest : restFrom subject (Text.size before) = rest := by
    rw [restFrom, hsplit, Text.after?_append, Option.getD_some]
  rw [occasionsAt, hrest]
  exact passage_visits h hsteers hstill hwell (kept_start _ 1) (stands_start hsplit hfits)

/-- No start after that of the match is tried. -/
theorem tried_here {start : ℕ} {starts : List ℕ} (hlater : ∀ s ∈ starts, start < s) (stop : ℕ) :
    tried (start :: starts) (some (start, stop)) = [start] := by
  have hnone : starts.filter (· ≤ start) = [] := by
    rw [List.filter_eq_nil_iff]
    intro s hs
    have hlt : start < s := hlater s hs
    simp only [decide_eq_true_eq]
    omega
  rw [tried, List.filter_cons_of_pos (by simp), hnone]

theorem tried_next {start : ℕ} {starts : List ℕ} {found : Option (ℕ × ℕ)}
    (hlater : ∀ s ∈ starts, start < s) (hfound : ∀ s stop, found = some (s, stop) → s ∈ starts) :
    tried (start :: starts) found = start :: tried starts found := by
  cases found with
  | none => rfl
  | some m =>
    obtain ⟨s, stop⟩ := m
    have hlt : start < s := hlater s (hfound s stop rfl)
    rw [tried, tried, List.filter_cons_of_pos (by simp only [decide_eq_true_eq]; omega)]

/-- A search that finds something has tried the starts up to that of the match, and one that finds
nothing has tried them all. -/
theorem pursuit_visits {p : Pattern} {subject : String} {starts : List ℕ}
    {r : Except Fault (Option (ℕ × ℕ))} {found : Option (ℕ × ℕ)}
    (h : Pursuit b fatal ⟨p, nodesOf p.source⟩ subject starts w visits is r w')
    (hr : r = .ok found) (hsteers : Steers b) (hstill : ∀ c ∈ is, KeepsPosition c)
    (hwell : fatal = true → ∀ c ∈ is, c.result = .ok ())
    (hfits : subject.utf8ByteSize ≤ maxOffset)
    (hstarts : ∀ start ∈ starts, start ∈ Text.boundaries subject.toList)
    (hsorted : starts.Pairwise (· < ·)) :
    (∀ start stop, found = some (start, stop) → start ∈ starts) ∧
      visits.map Visit.occasion = (tried starts found).flatMap (occasionsAt p.source subject) := by
  induction h with
  | spent w =>
    cases hr
    exact ⟨fun start stop hfound => (nomatch hfound), rfl⟩
  | stops hpassage => cases hr
  | finds hpassage =>
    cases hr
    obtain ⟨hlater, _⟩ := List.pairwise_cons.mp hsorted
    have hoccasions := passage_occasions hpassage hsteers hstill hwell hfits
      (hstarts _ List.mem_cons_self)
    refine ⟨fun start stop hfound => ?_, ?_⟩
    · cases hfound
      exact List.mem_cons_self
    · rw [tried_here hlater, List.flatMap_singleton, hoccasions]
  | next hpassage hrest ih =>
    obtain ⟨hlater, hsorted'⟩ := List.pairwise_cons.mp hsorted
    obtain ⟨hstill₁, hstill₂⟩ := List.forall_mem_append.mp hstill
    have hoccasions := passage_occasions hpassage hsteers hstill₁
      (fun hfatal => (List.forall_mem_append.mp (hwell hfatal)).1) hfits
      (hstarts _ List.mem_cons_self)
    obtain ⟨hfound, hvisits⟩ := ih hr hstill₂
      (fun hfatal => (List.forall_mem_append.mp (hwell hfatal)).2)
      (fun start hstart => hstarts start (List.mem_cons_of_mem _ hstart)) hsorted'
    refine ⟨fun start stop heq => List.mem_cons_of_mem _ (hfound start stop heq), ?_⟩
    rw [List.map_append, hoccasions, hvisits, tried_next hlater hfound, List.flatMap_cons]

end Course

theorem compile_eq_ok {host : Strategy ω} {p : Pattern} {prog : Program}
    {noted : List HookFailure} {u : ω} (h : (compile host p noted u).result = .ok prog) :
    prog = ⟨p, nodesOf p.source⟩ := by
  unfold compile at h
  split at h
  · cases h
  · split at h
    · cases h
    · exact (Except.ok.inj h).symm

theorem mem_tried_iff {subject : String} {found : Option (ℕ × ℕ)} (s : ℕ) :
    s ∈ tried (Text.boundaries subject.toList) found ↔
      SteeredMatch.Cuts subject s ∧ ∀ start stop, found = some (start, stop) → s ≤ start := by
  rw [SteeredMatch.cuts_iff, ← Text.mem_boundaries_iff]
  cases found with
  | none => simp [tried]
  | some m =>
    obtain ⟨start, stop⟩ := m
    rw [tried, List.mem_filter, decide_eq_true_eq]
    refine and_congr_right fun _ => ⟨fun hle start' stop' heq => ?_, fun h => h start stop rfl⟩
    cases heq
    exact hle

/-- Hooks are called at exactly the visits of the matching process. Take a search whose hooks leave
the position and the registry, and do not fail where failures are fatal. It finds the leftmost match
of a compiled pattern. Its calls are those of the hooks that attend, in the order of the keys, at
each visit, and the visits are those of attempts from the boundaries of the subject in increasing
order up to where the match starts, or from all of them if there is none. Each attempt visits a node
for each character that it accepts, and one more. The search notes the failures of these calls in
their order and no others. Recording hooks, such as those of the library, gain the events of the
visits, in order and once for each key under which they attend, if the other hooks leave what they
have recorded. -/
theorem still_hooks_are_called_at_visits (b : Behaviour η σ) (fatal : Bool) (host : Strategy ω)
    (p : Pattern) (prog : Program) (subject : String) (noted₀ noted : List HookFailure) (u : ω)
    (w : World η σ) (hcompile : (compile host p noted₀ u).result = .ok prog) (hsteers : Steers b)
    (hfits : subject.utf8ByteSize ≤ maxOffset)
    (hstill : ∀ c ∈ execCalls b fatal prog subject w, KeepsPosition c)
    (hregistry : ∀ c ∈ execCalls b fatal prog subject w, c.after.registry = c.before.registry)
    (hwell : fatal = true → ∀ c ∈ execCalls b fatal prog subject w, c.result = .ok ()) :
    ∃ (found : Option (ℕ × ℕ)) (starts : List ℕ) (occasions : List Occasion)
      (run : Run (World η σ) (Option (ℕ × ℕ))) (calls : List (Invocation η σ)),
      exec (.ofHooks b fatal) prog subject noted w = run ∧
      execCalls b fatal prog subject w = calls ∧
      run.result = .ok found ∧
      (∀ start stop, found = some (start, stop) ↔
        MatchesAt p.source.toList subject.toList start stop ∧
          ∀ start' stop', MatchesAt p.source.toList subject.toList start' stop' →
            start ≤ start') ∧
      starts.Pairwise (· < ·) ∧
      (∀ s, s ∈ starts ↔ SteeredMatch.Cuts subject s ∧
        ∀ start stop, found = some (start, stop) → s ≤ start) ∧
      occasions = (starts.flatMap fun s =>
        ((nodesOf p.source).take (leading p.source.toList (restFrom subject s) + 1)).map
          fun n => Occasion.visit n (.startingAt subject s)) ∧
      ((∀ key ∈ p.hookKeys, ∃ e, w.registry.lookup key = some e ∧
          b.supports e.hooks .execNode = true) →
        (attending b p w.registry).map Prod.fst = p.hookKeys) ∧
      calls.map (fun c => (c.occasion, c.hooks)) =
        (occasions ×ˢ attending b p w.registry).map (fun x => (x.1, x.2.2)) ∧
      run.noted = noted ++ ((occasions ×ˢ attending b p w.registry).zip calls).filterMap
        (fun x => blame x.1.2.1 x.2.result) ∧
      (∀ fatal' depth id object, recordsAs id object = true →
        Records (HookObject.behaviour fatal' depth) (·.eventsOf id) object) ∧
      ∀ (events : σ → List String) (mine : η → Bool),
        (∀ hooks, mine hooks = true → Records b events hooks) →
        (∀ c ∈ calls, mine c.hooks = false → events c.after.own.1 = events c.before.own.1) →
        events run.world.own = events w.own ++ occasions.flatMap fun o =>
          ((attending b p w.registry).filter fun x => mine x.2).map fun _ => Bundled.event o := by
  obtain rfl := compile_eq_ok hcompile
  obtain ⟨visits, is, r, w', hpursuit⟩ := exists_pursuit b fatal ⟨p, nodesOf p.source⟩ subject
    (Text.boundaries subject.toList) w
  rw [hpursuit.execCalls_eq] at hstill hregistry hwell ⊢
  obtain ⟨found, hsilent, hfirst⟩ :=
    search_silent p (List.nil_append subject.toList).symm hfits [] ()
  have hresult : r = .ok found := by
    have hunmoved := search_unmoved hpursuit hsteers hstill hwell [] ()
    exact congrArg Run.result (hunmoved.symm.trans hsilent)
  obtain ⟨_, hvisits⟩ := pursuit_visits hpursuit hresult hsteers hstill hwell hfits
    (fun _ hstart => hstart) (Text.pairwise_boundariesFrom 0 _)
  have hattended := pursuit_attended hpursuit hregistry hwell
  refine ⟨found, tried (Text.boundaries subject.toList) found, visits.map Visit.occasion, _, is,
    hpursuit.exec_eq noted, rfl, hresult, hfirst.eq_some_iff, ?_, mem_tried_iff, hvisits,
    fun hkeys => ?_, hattended.calls, ?_, records_recording, ?_⟩
  · cases found with
    | none => exact Text.pairwise_boundariesFrom 0 _
    | some m => exact (Text.pairwise_boundariesFrom 0 _).filter _
  · rw [attending]
    exact map_fst_attendants hkeys
  · rw [hattended.failures]
  · intro events mine hmine hothers
    rw [← hattended.gained_eq mine]
    exact pursuit_records hpursuit hmine hothers

/-- One hook records visits, and another fails when a point of the source is visited. -/
def watched : World HookObject Memory where
  registry := ((Registry.empty .reject).insert "recorder" ⟨0, .recording [.execNode]⟩).insert
    "critic" ⟨1, .scripted none none (some [.whenOp ["REG_ANY"] [.fail "lost" []]])⟩
  own := {}

/-- A pattern with both of them in scope. -/
def recorded : Pattern := ⟨⟨0⟩, "b.", {}, ["recorder", "critic"], .epoch⟩

theorem watched_leaves (p : Pattern) (n : Node) (a : Attempt) :
    Leaves ((HookObject.behaviour false 0).onExecNode · p n a) watched.registry := by
  intro key e hentry w
  rw [watched, Registry.lookup_insert] at hentry
  split at hentry
  · cases hentry
    change (HookObject.callLent (Script.runAll _ p (.visit n a)
      [.whenOp ["REG_ANY"] [.fail "lost" []]]) w).2.registry = w.registry
    simp only [HookObject.callLent, Script.runAll, Script.runAction, Occasion.node?]
    cases ["REG_ANY"].contains n.op <;> rfl
  · rw [Registry.lookup_insert] at hentry
    split at hentry
    · cases hentry
      rfl
    · cases hentry

theorem still_hooks_are_called_at_visits_watched :
    (compile (.silent Unit) recorded [] ()).result = .ok ⟨recorded, nodesOf "b."⟩ ∧
      Steers (HookObject.behaviour false 0) ∧ "ébé".utf8ByteSize ≤ maxOffset ∧
      ∃ (run : Run (World HookObject Memory) (Option (ℕ × ℕ)))
        (calls : List (Invocation HookObject Memory)) (occasions : List Occasion),
        exec (.ofHooks (HookObject.behaviour false 0) false) ⟨recorded, nodesOf "b."⟩ "ébé" []
          watched = run ∧
        execCalls (HookObject.behaviour false 0) false ⟨recorded, nodesOf "b."⟩ "ébé" watched =
          calls ∧
        (∀ c ∈ calls, KeepsPosition c) ∧ (∀ c ∈ calls, c.after.registry = c.before.registry) ∧
        run.result = .ok (some (2, 5)) ∧ run.noted = [⟨"critic", "lost"⟩] ∧
        run.world.own.eventsOf 0 = ["exec:EXACT", "exec:EXACT", "exec:REG_ANY", "exec:END"] ∧
        occasions.map Bundled.event = run.world.own.eventsOf 0 ∧
        calls.map (fun c => c.hooks.id) = occasions.flatMap fun _ => [0, 1] := by
  have hsteers := steers_behaviour false 0
  have hfits : "ébé".utf8ByteSize ≤ maxOffset := by decide
  have hcompile : (compile (.silent Unit) recorded [] ()).result =
      .ok ⟨recorded, nodesOf "b."⟩ := rfl
  have hstill : ∀ c ∈ execCalls (HookObject.behaviour false 0) false
      ⟨recorded, nodesOf "b."⟩ "ébé" watched, KeepsPosition c := by decide +kernel
  have hothers : ∀ c ∈ execCalls (HookObject.behaviour false 0) false
      ⟨recorded, nodesOf "b."⟩ "ébé" watched, recordsAs 0 c.hooks = false →
        c.after.own.1.eventsOf 0 = c.before.own.1.eventsOf 0 := by decide +kernel
  obtain ⟨visits, is, r, w', hpursuit⟩ := exists_pursuit (HookObject.behaviour false 0) false
    ⟨recorded, nodesOf "b."⟩ "ébé" (Text.boundaries "ébé".toList) watched
  have hregistry := pursuit_leaves hpursuit (watched_leaves _)
  rw [← hpursuit.execCalls_eq] at hregistry
  obtain ⟨found, starts, occasions, run, calls, hrun, hcalls, hresult, _, _, _, _, _, hplan, _,
    hrecords, hevents⟩ := still_hooks_are_called_at_visits (HookObject.behaviour false 0) false
      (.silent Unit) _ _ "ébé" [] [] () watched hcompile hsteers hfits hstill hregistry nofun
  rw [hcalls] at hstill hregistry hothers
  have hgained := hevents (·.eventsOf 0) (recordsAs 0) (hrecords false 0 0) hothers
  refine ⟨hcompile, hsteers, hfits, run, calls, occasions, hrun, hcalls, hstill, hregistry, ?_, ?_,
    ?_, ?_, ?_⟩
  · rw [← hrun]
    decide +kernel
  · rw [← hrun]
    decide +kernel
  · rw [← hrun]
    decide +kernel
  · rw [hgained, List.map_eq_flatMap]
    rfl
  · have hids := congrArg (List.map fun x => x.2.id) hplan
    rw [List.map_map, List.map_map] at hids
    exact hids.trans List.map_flatMap

end PatternHooks.VisitOrder
