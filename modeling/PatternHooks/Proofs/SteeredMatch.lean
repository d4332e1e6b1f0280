import PatternHooks.Proofs.Steering

/-!
Hooks that steer a match, forwards or backwards, cannot lead the engine out of its subject. An
attempt begins at a boundary of the subject, and neither the hooks nor the moves of the engine leave
the boundaries. So the engine can always cut the subject where it stands and go on from there. There
is one thing left that hooks can bring about: that an attempt is to end before it has begun.
-/

namespace PatternHooks.SteeredMatch

open Engine Dispatch CallLog EngineCourse MatchStateBounds Steering Visits

variable {η σ α β : Type}

/-- The subject can be cut at the offset. -/
def Cuts (subject : String) (n : ℕ) : Prop :=
  n ≤ subject.utf8ByteSize ∧ (⟨n⟩ : String.Pos.Raw).IsValid subject

theorem cuts_iff (subject : String) (n : ℕ) :
    Cuts subject n ↔ Text.isBoundary n subject.toList = true := by
  rw [Text.isBoundary_toList_iff]
  exact ⟨fun h => h.2, fun h => ⟨h.le_utf8ByteSize, h⟩⟩

/-- An attempt from a boundary of its subject to the end. -/
structure Whole (a : Attempt) : Prop where
  start : Cuts a.subject a.start
  stop : a.stop = a.subject.utf8ByteSize
  fits : a.stop ≤ maxOffset

theorem whole_startingAt {subject : String} {start : ℕ}
    (hstart : start ∈ Text.boundaries subject.toList) (hfits : subject.utf8ByteSize ≤ maxOffset) :
    Whole (.startingAt subject start) ∧ (Attempt.startingAt subject start).start = start := by
  have hboundary : Text.isBoundary start subject.toList = true := Text.mem_boundaries_iff.mp hstart
  have hmin : min start (Text.size subject.toList) = start :=
    Nat.min_eq_left (Text.le_size_of_isBoundary hboundary)
  refine ⟨⟨?_, Text.size_toList subject, ?_⟩, hmin⟩
  · simp only [Attempt.startingAt, hmin]
    exact (cuts_iff subject start).mpr hboundary
  · rwa [Attempt.startingAt, Text.size_toList]

/-- The state of an attempt, when its position is at a boundary of the subject. -/
structure Sound (a : Attempt) (s : MatchState) : Prop where
  kept : Kept a 1 s
  position : Cuts a.subject s.position

theorem Whole.sound_start {a : Attempt} (ha : Whole a) : Sound a (.start a 1) :=
  ⟨kept_start a 1, ha.start⟩

section Step
variable {a : Attempt} {n : Node} {s : MatchState}

theorem Whole.within_iff (ha : Whole a) (n : ℕ) : Within a n ↔ Cuts a.subject n := by
  rw [Within, Cuts, ha.stop, Nat.min_self]

theorem Sound.after (h : Sound a s) (d : Deed) : Sound a (after s d) := by
  refine ⟨h.kept.after d, ?_⟩
  unfold MatchStateBounds.after
  cases hd : perform s d with
  | error e => exact h.position
  | ok t =>
    obtain ⟨_, hmoved, hstill⟩ := h.kept.perform hd
    by_cases hmoves : d.Moves
    · have hvalid := (hmoved hmoves).2
      exact ⟨hvalid.le_utf8ByteSize, hvalid⟩
    · have hposition : t.position = s.position := hstill hmoves
      rw [hposition]
      exact h.position

theorem Sound.run (h : Sound a s) (ds : List Deed) : Sound a (run s ds) :=
  List.foldlRecOn ds MatchStateBounds.after h fun _ ht d _ => ht.after d

theorem Sound.checkOffset (h : Sound a s) (ha : Whole a) {m : ℕ} (hm : Cuts a.subject m) :
    s.checkOffset m = .ok () :=
  (h.kept.checkOffset_iff m).mpr ((ha.within_iff m).mpr hm)

/-- The engine moves on over characters that are left, and this is not refused. -/
theorem Sound.advance (h : Sound a s) (ha : Whole a) {before xs behind : List Char}
    (hsplit : a.subject.toList = before ++ (xs ++ behind))
    (hposition : Text.size before = s.position) :
    ∃ t, s.advance (Text.size xs) = .ok t ∧ Sound a t := by
  have hnext : Cuts a.subject (s.position + Text.size xs) := by
    rw [cuts_iff, Text.isBoundary_iff]
    refine ⟨before ++ xs, behind, ?_, ?_⟩
    · rw [hsplit, List.append_assoc]
    · rw [Text.size_append, hposition]
  have hfits : min (s.position + Text.size xs) maxOffset = s.position + Text.size xs := by
    have hle := hnext.1
    have hstop := ha.stop
    have hmax := ha.fits
    omega
  refine ⟨{ s with position := s.position + Text.size xs }, ?_, ?_⟩
  · rw [MatchState.advance_eq_ok_iff, hfits]
    exact ⟨h.checkOffset ha hnext, rfl⟩
  · exact ⟨⟨h.kept.subject, h.kept.limit, h.kept.slots, h.kept.captures⟩, hnext⟩

/-- A node that compares characters goes on or fails, and refuses nothing. -/
theorem Sound.move_compares (h : Sound a s) (ha : Whole a) (hn : n.kind ≠ .finish) :
    move a n s = .ok .failure ∨ ∃ t, move a n s = .ok (.next t) ∧ Sound a t := by
  obtain ⟨before, rest, hsplit, hposition⟩ :=
    (Text.isBoundary_iff _ _).mp ((cuts_iff _ _).mp h.position)
  have hremaining : a.remaining s.position = rest := by
    rw [← hposition]
    exact Attempt.remaining_eq hsplit (ha.stop.trans (Text.size_toList a.subject).symm)
  rw [move_eq]
  cases hdemand : demand a n s.position with
  | nothing => exact .inl rfl
  | advance k =>
    obtain ⟨xs, behind, hrest, rfl⟩ := exists_of_demand_advance hdemand
    rw [← hremaining, hrest] at hsplit
    obtain ⟨t, hadvance, ht⟩ := h.advance ha hsplit hposition
    exact .inr ⟨t, congrArg (Except.map Move.next) hadvance, ht⟩
  | capture => exact absurd (demand_eq_capture_iff.mp hdemand) hn

/-- The last node takes what lies between the start and the position, if the position is not before
the start. -/
theorem Sound.move_finish (h : Sound a s) (ha : Whole a) (hn : n.kind = .finish) :
    (a.start ≤ s.position ∧ ∃ t, move a n s = .ok (.success t) ∧ t.position = s.position) ∨
    (s.position < a.start ∧ move a n s = .error (.inverted a.start s.position)) := by
  rcases Nat.lt_or_ge s.position a.start with hlt | hle
  · have hgroup : ¬ s.captures.length ≤ 0 := by rw [h.kept.slots]; omega
    refine .inr ⟨hlt, ?_⟩
    simp only [move, hn, MatchState.setCapture, if_neg hgroup, if_pos hlt]
    rfl
  · obtain ⟨t, hcapture, ht⟩ :
        ∃ t, s.setCapture 0 a.start s.position = .ok t ∧ t.position = s.position :=
      ⟨_, (MatchState.setCapture_eq_ok_iff s _ 0 a.start s.position).mpr
        ⟨by rw [h.kept.slots]; omega, hle, h.checkOffset ha ha.start,
          h.checkOffset ha h.position, rfl⟩, rfl⟩
    refine .inl ⟨hle, t, ?_, ht⟩
    simp only [move, hn, hcapture]
    rfl

end Step

/-- Steering hooks leave a sound state sound. -/
theorem Sound.visited {b : Behaviour η σ} {fatal : Bool} {p : Pattern} {v : Visit}
    {w w' : World η σ} {calls : List (Call η (σ × MatchState))} (h : Sound v.attempt v.arrived)
    (hsteers : Steers b) (hvisit : Visited b fatal p v w calls w') : Sound v.attempt v.left := by
  obtain ⟨ds, hds⟩ := hsteers.visited hvisit
  rw [hds]
  exact h.run ds

/-- The hooks of the last node have run, and have left the position before the start. -/
def Inverts (v : Visit) : Prop :=
  v.node.kind = .finish ∧ (∃ report, v.outcome = .ok report) ∧ v.left.position < v.attempt.start

def inversion (v : Visit) : Fault := (EditFault.inverted v.attempt.start v.left.position).toFault

/-- A fault for the last of the calls, which is the first that fails. -/
def BlamesLast (p : Pattern) (is : List (Invocation η σ)) (e : Fault) : Prop :=
  ∃ key earlier last t entry, e = fatalFault key .execNode t ∧ key ∈ p.hookKeys ∧
    is = earlier ++ [last] ∧ (∀ c ∈ earlier, c.result = .ok ()) ∧ last.result = .error t ∧
    last.before.registry.lookup key = some entry ∧ entry.hooks = last.hooks

/-- What holds of a run, or of a part of it, with its visits, its calls and its result: the engine
stands at boundaries, and its faults are those of hooks and of inversions. -/
structure Orderly (fatal : Bool) (p : Pattern) (visits : List Visit) (is : List (Invocation η σ))
    (r : Except Fault α) : Prop where
  sound : ∀ v ∈ visits, Sound v.attempt v.arrived ∧ Sound v.attempt v.left
  calm : fatal = true → ∀ x, r = .ok x → ∀ c ∈ is, c.result = .ok ()
  faults : ∀ e, r = .error e →
    (fatal = true ∧ BlamesLast p is e) ∨ ∃ v ∈ visits, Inverts v ∧ e = inversion v
  inverts : ∀ v ∈ visits, Inverts v → r = .error (inversion v)

section Orderly
variable {fatal : Bool} {p : Pattern} {visits₁ visits₂ : List Visit}
  {is₁ is₂ : List (Invocation η σ)}

theorem Orderly.nil (fatal : Bool) (p : Pattern) (x : α) :
    Orderly fatal p [] ([] : List (Invocation η σ)) (.ok x) where
  sound _ hv := absurd hv List.not_mem_nil
  calm _ _ _ _ hc := absurd hc List.not_mem_nil
  faults _ he := (nomatch he)
  inverts _ hv := absurd hv List.not_mem_nil

/-- A run goes on after a part that succeeds. -/
theorem Orderly.append {x : α} {r : Except Fault β} (h₁ : Orderly fatal p visits₁ is₁ (.ok x))
    (h₂ : Orderly fatal p visits₂ is₂ r) : Orderly fatal p (visits₁ ++ visits₂) (is₁ ++ is₂) r where
  sound v hv := by
    rcases List.mem_append.mp hv with hv | hv
    · exact h₁.sound v hv
    · exact h₂.sound v hv
  calm hfatal y hy c hc := by
    rcases List.mem_append.mp hc with hc | hc
    · exact h₁.calm hfatal x rfl c hc
    · exact h₂.calm hfatal y hy c hc
  faults e he := by
    rcases h₂.faults e he with ⟨hfatal, hblames⟩ | ⟨v, hv, hinverts, hfault⟩
    · obtain ⟨key, earlier, last, t, entry, hfault, hkey, hcalls, hwell, hlast⟩ := hblames
      refine .inl ⟨hfatal, key, is₁ ++ earlier, last, t, entry, hfault, hkey, ?_, ?_, hlast⟩
      · rw [hcalls, List.append_assoc]
      · intro c hc
        rcases List.mem_append.mp hc with hc | hc
        · exact h₁.calm hfatal x rfl c hc
        · exact hwell c hc
    · exact .inr ⟨v, List.mem_append_right visits₁ hv, hinverts, hfault⟩
  inverts v hv hinverts := by
    rcases List.mem_append.mp hv with hv | hv
    -- The first part has succeeded, and with an inversion it would have failed.
    · exact nomatch h₁.inverts v hv hinverts
    · exact h₂.inverts v hv hinverts

theorem Orderly.map {r : Except Fault α} (h : Orderly fatal p visits₁ is₁ r) (f : α → β) :
    Orderly fatal p visits₁ is₁ (r.map f) where
  sound := h.sound
  calm hfatal y hy := by
    cases r with
    | error e => cases hy
    | ok x => exact h.calm hfatal x rfl
  faults e he := by
    cases r with
    | error _ =>
      cases he
      exact h.faults e rfl
    | ok x => cases he
  inverts v hv hinverts := by
    rw [h.inverts v hv hinverts]
    rfl

end Orderly

section Course
variable {b : Behaviour η σ} {fatal : Bool} {p : Pattern} {a : Attempt} {n : Node}
  {s t : MatchState} {w w' : World η σ} {calls : List (Call η (σ × MatchState))}

/-- The faults of a dispatch are those of its last call. -/
theorem orderly_stops {e : Fault} (hsteers : Steers b) (hs : Sound a s)
    (hvisit : Visited b fatal p ⟨a, n, s, .error e, t⟩ w calls w') :
    Orderly fatal p [⟨a, n, s, .error e, t⟩] (Visit.invocations ⟨a, n, s, .error e, t⟩ calls)
      (.error e : Except Fault α) where
  sound := List.forall_mem_singleton.mpr ⟨hs, hs.visited hsteers hvisit⟩
  calm _ _ hx := (nomatch hx)
  faults e' he' := by
    cases he'
    rcases Round.ends hvisit with ⟨report, houtcome, _⟩ |
      ⟨hfatal, key, earlier, last, tr, entry, houtcome, hkey, hcalls, hbreaks, hentry, hhooks⟩
    · cases houtcome
    · cases houtcome
      refine .inl ⟨hfatal, key, earlier.map (.lent (.visit n a)), .lent (.visit n a) last, tr,
        entry, rfl, hkey, ?_, ?_, hbreaks.failed, hentry, hhooks⟩
      · rw [hcalls, Visit.invocations, List.map_append, List.map_singleton]
      · exact List.forall_mem_map.mpr hbreaks.well
  inverts := by
    refine List.forall_mem_singleton.mpr fun hinverts => ?_
    obtain ⟨_, ⟨report, houtcome⟩, _⟩ := hinverts
    cases houtcome

/-- A visit after which the engine makes its move. -/
theorem orderly_moves {report : Report} {r : Except Fault α} (hsteers : Steers b)
    (hs : Sound a s) (hvisit : Visited b fatal p ⟨a, n, s, .ok report, t⟩ w calls w')
    (hr : Inverts ⟨a, n, s, .ok report, t⟩ ∧ r = .error (inversion ⟨a, n, s, .ok report, t⟩) ∨
      ¬ Inverts ⟨a, n, s, .ok report, t⟩ ∧ ∃ x, r = .ok x) :
    Orderly fatal p [⟨a, n, s, .ok report, t⟩]
      (Visit.invocations ⟨a, n, s, .ok report, t⟩ calls) r where
  sound := List.forall_mem_singleton.mpr ⟨hs, hs.visited hsteers hvisit⟩
  calm hfatal _ _ := by
    rcases Round.ends hvisit with ⟨_, _, hwell⟩ | ⟨_, _, _, _, _, _, houtcome, _⟩
    · exact List.forall_mem_map.mpr (hwell hfatal)
    · cases houtcome
  faults e he := by
    rcases hr with ⟨hinverts, hr⟩ | ⟨_, x, hr⟩
    · rw [hr] at he
      cases he
      exact .inr ⟨_, List.mem_singleton_self _, hinverts, rfl⟩
    · rw [hr] at he
      cases he
  inverts := by
    refine List.forall_mem_singleton.mpr fun hinverts => ?_
    rcases hr with ⟨_, hr⟩ | ⟨hnot, _⟩
    · exact hr
    · exact absurd hinverts hnot

/-- An attempt stays within its subject to its end, and a match does not end before its start. -/
theorem orderly_passage {ns : List Node} {visits : List Visit} {is : List (Invocation η σ)}
    {r : Except Fault (Option ℕ)} (h : Passage b fatal p a ns s w visits is r w')
    (hsteers : Steers b) (ha : Whole a) (hs : Sound a s) :
    Orderly fatal p visits is r ∧
      ∀ stop, r = .ok (some stop) → a.start ≤ stop ∧ Cuts a.subject stop := by
  induction h with
  | spent s w => exact ⟨.nil fatal p none, fun stop hstop => by cases hstop⟩
  | stops hvisit =>
    exact ⟨orderly_stops hsteers hs hvisit, fun stop hstop => by cases hstop⟩
  | @ends n ns s t w w' report calls r hvisit hends =>
    have ht : Sound a t := hs.visited hsteers hvisit
    by_cases hn : n.kind = .finish
    · rcases ht.move_finish ha hn with ⟨hle, u, hmove, hu⟩ | ⟨hlt, hmove⟩
      · rw [hmove] at hends
        cases hends
        refine ⟨orderly_moves hsteers hs hvisit (.inr ⟨?_, _, rfl⟩), ?_⟩
        · exact fun hinverts => absurd hinverts.2.2 (Nat.not_lt.mpr hle)
        · intro stop hstop
          cases hstop
          rw [hu]
          exact ⟨hle, ht.position⟩
      · rw [hmove] at hends
        cases hends
        refine ⟨orderly_moves hsteers hs hvisit (.inl ⟨?_, rfl⟩), ?_⟩
        · exact ⟨hn, ⟨report, rfl⟩, hlt⟩
        · exact fun stop hstop => by cases hstop
    · rcases ht.move_compares ha hn with hmove | ⟨u, hmove, _⟩
      · rw [hmove] at hends
        cases hends
        refine ⟨orderly_moves hsteers hs hvisit (.inr ⟨?_, _, rfl⟩), ?_⟩
        · exact fun hinverts => hn hinverts.1
        · exact fun stop hstop => by cases hstop
      · rw [hmove] at hends
        cases hends
  | @next n ns s t u w w' w'' report calls visits is r hvisit hmove hrest ih =>
    have ht : Sound a t := hs.visited hsteers hvisit
    -- The last node never goes on, so this visit inverts nothing.
    have hn : n.kind ≠ .finish := by
      intro hn
      rcases ht.move_finish ha hn with ⟨_, u', hmove', _⟩ | ⟨_, hmove'⟩
      · cases hmove.symm.trans hmove'
      · cases hmove.symm.trans hmove'
    have hu : Sound a u := by
      rcases ht.move_compares ha hn with hmove' | ⟨u', hmove', hu'⟩
      · cases hmove.symm.trans hmove'
      · cases hmove.symm.trans hmove'
        exact hu'
    have hhere : Orderly fatal p [⟨a, n, s, .ok report, t⟩]
        (Visit.invocations ⟨a, n, s, .ok report, t⟩ calls) (.ok () : Except Fault Unit) :=
      orderly_moves hsteers hs hvisit (.inr ⟨fun hinverts => hn hinverts.1, (), rfl⟩)
    obtain ⟨horderly, hstop⟩ := ih hu
    exact ⟨hhere.append horderly, hstop⟩

theorem orderly_pursuit {prog : Program} {subject : String} {starts : List ℕ}
    {visits : List Visit} {is : List (Invocation η σ)} {r : Except Fault (Option (ℕ × ℕ))}
    (h : Pursuit b fatal prog subject starts w visits is r w') (hsteers : Steers b)
    (hstarts : ∀ start ∈ starts, start ∈ Text.boundaries subject.toList)
    (hfits : subject.utf8ByteSize ≤ maxOffset) :
    Orderly fatal prog.pattern visits is r ∧ ∀ start stop, r = .ok (some (start, stop)) →
      start ≤ stop ∧ Cuts subject start ∧ Cuts subject stop := by
  induction h with
  | spent w => exact ⟨.nil fatal prog.pattern none, fun start stop hfound => by cases hfound⟩
  | @stops start starts w w' visits is e hpassage =>
    obtain ⟨ha, _⟩ := whole_startingAt (hstarts start List.mem_cons_self) hfits
    obtain ⟨horderly, _⟩ := orderly_passage hpassage hsteers ha ha.sound_start
    exact ⟨horderly.map fun found => found.map fun stop => (start, stop),
      fun start stop hfound => by cases hfound⟩
  | @finds start stop starts w w' visits is hpassage =>
    obtain ⟨ha, hstart⟩ := whole_startingAt (hstarts start List.mem_cons_self) hfits
    obtain ⟨horderly, hstop⟩ := orderly_passage hpassage hsteers ha ha.sound_start
    refine ⟨horderly.map fun found => found.map fun stop => (start, stop), ?_⟩
    intro start' stop' hfound
    cases hfound
    obtain ⟨hle, hcuts⟩ := hstop stop rfl
    have hbegin := ha.start
    rw [hstart] at hle hbegin
    exact ⟨hle, hbegin, hcuts⟩
  | @next start starts w w' w'' visits visits' is is' r hpassage hrest ih =>
    obtain ⟨ha, _⟩ := whole_startingAt (hstarts start List.mem_cons_self) hfits
    obtain ⟨horderly, _⟩ := orderly_passage hpassage hsteers ha ha.sound_start
    obtain ⟨horderly', hfound⟩ :=
      ih fun start' hstart' => hstarts start' (List.mem_cons_of_mem _ hstart')
    exact ⟨horderly.append horderly', hfound⟩

end Course

/-- No steering hook can make the engine report a bad match or fail in an unforeseen way. Whatever
the program and whether or not failures are fatal, the search of a subject stands at boundaries of
the subject at every visit, and there no node but the last can be refused its move. A match that is
found is upright, and both its ends are at boundaries. A search that fails does so because its last
call failed, as the first one and with failures fatal, or because an attempt came to its end with
the position before its start; and if one does, the search fails for just that reason. -/
theorem steered_exec_stays_in_subject (b : Behaviour η σ) (fatal : Bool) (prog : Program)
    (subject : String) (noted : List HookFailure) (w : World η σ) (hsteers : Steers b)
    (hfits : subject.utf8ByteSize ≤ maxOffset) :
    ∃ visits result, execVisits (.ofHooks b fatal) prog subject w = visits ∧
      (exec (.ofHooks b fatal) prog subject noted w).result = result ∧
      (∀ v ∈ visits, v.attempt.subject = subject ∧ Cuts subject v.attempt.start ∧
        v.node ∈ prog.nodes ∧ Cuts subject v.arrived.position ∧ Cuts subject v.left.position ∧
        (v.node.kind ≠ .finish → ∃ m, move v.attempt v.node v.left = .ok m)) ∧
      (∀ start stop, result = .ok (some (start, stop)) →
        start ≤ stop ∧ Cuts subject start ∧ Cuts subject stop) ∧
      (∀ e, result = .error e →
        (fatal = true ∧ e.kind = .hookFailed ∧
          BlamesLast prog.pattern (execCalls b fatal prog subject w) e) ∨
        ∃ v ∈ visits, Inverts v ∧ e = ⟨.validation, "capture range " ++
          toString v.attempt.start ++ ".." ++ toString v.left.position ++ " is inverted", []⟩) ∧
      ∀ v ∈ visits, Inverts v → result = .error ⟨.validation, "capture range " ++
        toString v.attempt.start ++ ".." ++ toString v.left.position ++ " is inverted", []⟩ := by
  obtain ⟨visits, is, r, w', hpursuit⟩ :=
    exists_pursuit b fatal prog subject (Text.boundaries subject.toList) w
  obtain ⟨horderly, hfound⟩ := orderly_pursuit hpursuit hsteers (fun _ hstart => hstart) hfits
  refine ⟨visits, r, hpursuit.execVisits_eq, by rw [hpursuit.exec_eq noted], ?_, hfound, ?_,
    horderly.inverts⟩
  · intro v hv
    obtain ⟨start, hstart, hattempt, hnode⟩ := hpursuit.mem_visits v hv
    obtain ⟨harrived, hleft⟩ := horderly.sound v hv
    obtain ⟨ha, _⟩ := whole_startingAt hstart hfits
    rw [← hattempt] at ha
    have hsubject : v.attempt.subject = subject := by rw [hattempt]; rfl
    refine ⟨hsubject, hsubject ▸ ha.start, hnode, hsubject ▸ harrived.position,
      hsubject ▸ hleft.position, fun hn => ?_⟩
    rcases hleft.move_compares ha hn with hmove | ⟨t, hmove, _⟩
    · exact ⟨_, hmove⟩
    · exact ⟨_, hmove⟩
  · intro e he
    rw [hpursuit.execCalls_eq]
    rcases horderly.faults e he with ⟨hfatal, hblames⟩ | hinverts
    · have hkind : e.kind = .hookFailed := by
        obtain ⟨key, _, _, t, _, hfault, _⟩ := hblames
        rw [hfault]
        rfl
      exact .inl ⟨hfatal, hkind, hblames⟩
    · exact .inr hinverts

/-- The hooks under the only key go back to the beginning of the subject when a match is to end. -/
def turningBack : World HookObject Memory where
  registry := (Registry.empty .reject).insert "back"
    ⟨0, .scripted none none (some [.whenOp ["END"] [.edit (.setPosition 0)]])⟩
  own := {}

theorem steered_exec_stays_in_subject_turned_back :
    Steers (HookObject.behaviour false 0) ∧ "éb".utf8ByteSize ≤ maxOffset ∧
      (exec (.ofHooks (HookObject.behaviour false 0) false)
        ⟨⟨⟨0⟩, "b", {}, ["back"], .epoch⟩, nodesOf "b"⟩ "éb" [] turningBack).result =
          .error ⟨.validation, "capture range 2..0 is inverted", []⟩ ∧
      ∃ v ∈ execVisits (.ofHooks (HookObject.behaviour false 0) false)
        ⟨⟨⟨0⟩, "b", {}, ["back"], .epoch⟩, nodesOf "b"⟩ "éb" turningBack, Inverts v := by
  have hsteers := steers_behaviour false 0
  have hfits : "éb".utf8ByteSize ≤ maxOffset := by decide
  obtain ⟨visits, result, hvisits, hresult, _, _, hfaults, _⟩ := steered_exec_stays_in_subject
    (HookObject.behaviour false 0) false ⟨⟨⟨0⟩, "b", {}, ["back"], .epoch⟩, nodesOf "b"⟩ "éb" []
    turningBack hsteers hfits
  have herror : .error ⟨.validation, "capture range 2..0 is inverted", []⟩ = result := hresult
  rw [hresult, hvisits]
  refine ⟨hsteers, hfits, herror.symm, ?_⟩
  rcases hfaults _ herror.symm with ⟨hfatal, _⟩ | ⟨v, hv, hinverts, _⟩
  · cases hfatal
  · exact ⟨v, hv, hinverts⟩

end PatternHooks.SteeredMatch
