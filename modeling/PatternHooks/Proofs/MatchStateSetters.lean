import PatternHooks.Proofs.MatchStateBounds

/-!
The setters of a match state are all or nothing. A call works on the state in place: it makes its
checks one after another, and only then stores anything, so a call that is refused has stored
nothing. One that succeeds changes its own field. What a capture group holds after many calls is
therefore told by the last of them that set or cleared it, whatever was refused or done to other
groups in between.
-/

namespace PatternHooks.MatchStateSetters

open MatchState MatchStateBounds

/-- A step of a call that works in place: it checks the state, or stores into it. -/
inductive Step where
  | check (guard : MatchState → Except EditFault Unit)
  | store (write : MatchState → MatchState)

/-- Makes the steps in order, up to a check that fails. What was stored before stays stored. -/
def play : List Step → MatchState → Except EditFault Unit × MatchState
  | [], s => (.ok (), s)
  | .check guard :: steps, s =>
    match guard s with
    | .ok () => play steps s
    | .error e => (.error e, s)
  | .store write :: steps, s => play steps (write s)

def hasGroup (group : ℕ) (s : MatchState) : Except EditFault Unit :=
  if s.captures.length ≤ group then .error (.noGroup group s.captures.length) else .ok ()

def upright (start stop : ℕ) (_ : MatchState) : Except EditFault Unit :=
  if stop < start then .error (.inverted start stop) else .ok ()

/-- Where a state moves on to by `n` bytes. -/
def ahead (n : ℕ) (s : MatchState) : ℕ := min (s.position + n) maxOffset

/-- The steps of a deed. -/
def steps : Deed → List Step
  | .edit (.setPosition offset) =>
    [.check (·.checkOffset offset), .store fun s => { s with position := offset }]
  | .edit (.advance n) =>
    [.check fun s => s.checkOffset (ahead n s), .store fun s => { s with position := ahead n s }]
  | .edit (.setCapture group start stop) =>
    [.check (hasGroup group), .check (upright start stop), .check (·.checkOffset start),
      .check (·.checkOffset stop),
      .store fun s => { s with captures := s.captures.set group (some ⟨start, stop⟩) }]
  | .edit (.clearCapture group) => [.store (·.clearCapture group)]
  | .edit .pushFrame => [.store pushFrame]
  | .edit .popFrame => [.store popFrame]
  | .edit (.scratchInsert key value) => [.store (·.scratchInsert key value)]
  | .edit (.scratchErase key) => [.store (·.scratchErase key)]
  | .edit (.scratchIncrement key) => [.store (·.scratchIncrement key)]
  | .write change => [.store fun s => { s with scratch := change s.scratch }]

section Play
variable {guard : MatchState → Except EditFault Unit} {s : MatchState}

theorem play_check_ok (h : guard s = .ok ()) (rest : List Step) :
    play (.check guard :: rest) s = play rest s := by
  rw [play, h]

theorem play_check_error {e : EditFault} (h : guard s = .error e) (rest : List Step) :
    play (.check guard :: rest) s = (.error e, s) := by
  rw [play, h]

/-- Checks come first, then what is stored: a call that fails has stored nothing. -/
theorem play_checks_store (guards : List (MatchState → Except EditFault Unit))
    (write : MatchState → MatchState) (s : MatchState) :
    (∃ e, play (guards.map .check ++ [.store write]) s = (.error e, s)) ∨
      (∀ guard ∈ guards, guard s = .ok ()) ∧
        play (guards.map .check ++ [.store write]) s = (.ok (), write s) := by
  induction guards with
  | nil => exact .inr ⟨fun guard hguard => absurd hguard List.not_mem_nil, rfl⟩
  | cons guard guards ih =>
    rw [List.map_cons, List.cons_append]
    cases hguard : guard s with
    | error e => exact .inl ⟨e, play_check_error hguard _⟩
    | ok u =>
      rw [play_check_ok hguard]
      rcases ih with hfails | ⟨hall, hplay⟩
      · exact .inl hfails
      · exact .inr ⟨List.forall_mem_cons.mpr ⟨hguard, hall⟩, hplay⟩

end Play

/-- Every deed makes all its checks before it stores. -/
theorem exists_checks (d : Deed) :
    ∃ guards write, steps d = List.map Step.check guards ++ [.store write] := by
  cases d with
  | write change => exact ⟨[], _, rfl⟩
  | edit e =>
    cases e with
    | setPosition offset => exact ⟨[_], _, rfl⟩
    | advance n => exact ⟨[_], _, rfl⟩
    | setCapture group start stop => exact ⟨[_, _, _, _], _, rfl⟩
    | _ => exact ⟨[], _, rfl⟩

theorem setCapture_play (s : MatchState) (group start stop : ℕ) :
    play (steps (.edit (.setCapture group start stop))) s =
      ((s.setCapture group start stop).map fun _ => (),
        after s (.edit (.setCapture group start stop))) := by
  simp only [steps, after, perform, edit, setCapture]
  by_cases hgroup : s.captures.length ≤ group
  · have hnone : hasGroup group s = .error (.noGroup group s.captures.length) := if_pos hgroup
    rw [play_check_error hnone, if_pos hgroup]
    rfl
  have hfound : hasGroup group s = .ok () := if_neg hgroup
  rw [play_check_ok hfound, if_neg hgroup]
  by_cases hrange : stop < start
  · have hinverted : upright start stop s = .error (.inverted start stop) := if_pos hrange
    rw [play_check_error hinverted, if_pos hrange]
    rfl
  have hupright : upright start stop s = .ok () := if_neg hrange
  rw [play_check_ok hupright, if_neg hrange]
  cases hstart : s.checkOffset start with
  | error e => rw [play_check_error hstart]; rfl
  | ok u =>
    rw [play_check_ok hstart]
    cases hstop : s.checkOffset stop with
    | error e => rw [play_check_error hstop]; rfl
    | ok u => rw [play_check_ok hstop]; rfl

/-- The steps of a deed come to what the deed is. -/
theorem play_steps (s : MatchState) (d : Deed) :
    play (steps d) s = ((perform s d).map fun _ => (), after s d) := by
  have hmove : ∀ offset : MatchState → ℕ,
      play [.check fun s => s.checkOffset (offset s),
          .store fun s => { s with position := offset s }] s =
        ((s.setPosition (offset s)).map fun _ => (),
          after s (.edit (.setPosition (offset s)))) := by
    intro offset
    simp only [after, perform, edit, setPosition]
    cases hcheck : s.checkOffset (offset s) with
    | error e => rw [play_check_error hcheck]; rfl
    | ok u => rw [play_check_ok hcheck]; rfl
  cases d with
  | write change => rfl
  | edit e =>
    cases e with
    | setPosition offset => exact hmove fun _ => offset
    | advance n => exact hmove (ahead n)
    | setCapture group start stop => exact setCapture_play s group start stop
    | _ => rfl

/-- A deed that fails leaves the state as it was, since it has stored nothing yet. -/
theorem play_failed {s t : MatchState} {d : Deed} {e : EditFault}
    (h : play (steps d) s = (.error e, t)) : t = s := by
  obtain ⟨guards, write, hsteps⟩ := exists_checks d
  rw [hsteps] at h
  rcases play_checks_store guards write s with ⟨e', hfails⟩ | ⟨_, hplay⟩
  · rw [hfails] at h
    exact (Prod.mk.inj h).2.symm
  · rw [hplay] at h
    cases h

/-- A deed that sets a group to a range, in a state that lets it. -/
def Sets (s : MatchState) (group : ℕ) (c : Capture) (d : Deed) : Prop :=
  d = .edit (.setCapture group c.start c.stop) ∧ ∃ t, perform s d = .ok t

/-- A deed that neither sets the group nor clears it. -/
def Spares (s : MatchState) (group : ℕ) (d : Deed) : Prop :=
  (∀ c, ¬ Sets s group c d) ∧ d ≠ .edit (.clearCapture group)

/-- None of the deeds sets or clears the group. -/
def Untouched (s : MatchState) (group : ℕ) (ds : List Deed) : Prop :=
  ∀ before d rest, ds = before ++ d :: rest → Spares (run s before) group d

/-- One of the deeds sets the group to the range, and none after it sets or clears the group. -/
def LastSet (s : MatchState) (group : ℕ) (c : Capture) (ds : List Deed) : Prop :=
  ∃ before d rest, ds = before ++ d :: rest ∧ Sets (run s before) group c d ∧
    Untouched (run s (before ++ [d])) group rest

theorem run_cons (s : MatchState) (d : Deed) (ds : List Deed) :
    run s (d :: ds) = run (after s d) ds := rfl

theorem untouched_nil (s : MatchState) (group : ℕ) : Untouched s group [] := by
  intro before d rest hsplit
  simp at hsplit

theorem untouched_cons_iff {s : MatchState} {group : ℕ} {d : Deed} {ds : List Deed} :
    Untouched s group (d :: ds) ↔ Spares s group d ∧ Untouched (after s d) group ds := by
  constructor
  · intro h
    refine ⟨h [] d ds rfl, ?_⟩
    intro before d' rest hsplit
    exact h (d :: before) d' rest (by rw [hsplit, List.cons_append])
  · intro h before d' rest hsplit
    cases before with
    | nil =>
      obtain ⟨rfl, _⟩ := List.cons.inj hsplit
      exact h.1
    | cons first before =>
      obtain ⟨rfl, hrest⟩ := List.cons.inj hsplit
      exact h.2 before d' rest hrest

theorem not_lastSet_nil (s : MatchState) (group : ℕ) (c : Capture) : ¬ LastSet s group c [] := by
  intro h
  obtain ⟨before, d, rest, hsplit, _⟩ := h
  simp at hsplit

theorem lastSet_cons_iff {s : MatchState} {group : ℕ} {c : Capture} {d : Deed} {ds : List Deed} :
    LastSet s group c (d :: ds) ↔
      Sets s group c d ∧ Untouched (after s d) group ds ∨ LastSet (after s d) group c ds := by
  constructor
  · intro h
    obtain ⟨before, d', rest, hsplit, hsets, hrest⟩ := h
    cases before with
    | nil =>
      obtain ⟨rfl, rfl⟩ := List.cons.inj hsplit
      exact .inl ⟨hsets, hrest⟩
    | cons first before =>
      obtain ⟨rfl, htail⟩ := List.cons.inj hsplit
      exact .inr ⟨before, d', rest, htail, hsets, hrest⟩
  · intro h
    rcases h with ⟨hsets, hrest⟩ | ⟨before, d', rest, hsplit, hsets, hrest⟩
    · exact ⟨[], d, ds, rfl, hsets, hrest⟩
    · exact ⟨d :: before, d', rest, by rw [hsplit, List.cons_append], hsets, hrest⟩

/-- Writing to a slot changes what its own group holds and nothing else. -/
theorem capture_slot (s : MatchState) (group other : ℕ) (slot : Option Capture) :
    ({ s with captures := s.captures.set other slot } : MatchState).capture group =
      if other = group ∧ group < s.captures.length then slot else s.capture group := by
  simp only [capture, List.getElem?_set]
  by_cases hsame : other = group
  · subst hsame
    by_cases hlt : other < s.captures.length
    · simp [hlt]
    · simp [hlt]
  · simp [hsame]

section Capture
variable {s : MatchState} {group : ℕ} {c : Capture} {d : Deed}

theorem capture_of_sets (h : Sets s group c d) : (after s d).capture group = some c := by
  obtain ⟨rfl, t, ht⟩ := h
  obtain ⟨hgroup, _, _, _, rfl⟩ := (setCapture_eq_ok_iff s t group c.start c.stop).mp ht
  rw [after, ht]
  exact (capture_slot s group group (some c)).trans (if_pos ⟨rfl, hgroup⟩)

theorem capture_after_clear (s : MatchState) (group : ℕ) :
    (after s (.edit (.clearCapture group))).capture group = none := by
  have hcapture := capture_slot s group group none
  by_cases hgroup : group < s.captures.length
  · rw [if_pos ⟨rfl, hgroup⟩] at hcapture
    exact hcapture
  · rw [if_neg fun h => hgroup h.2] at hcapture
    have hnone : s.capture group = none := by
      simp [capture, List.getElem?_eq_none (Nat.not_lt.mp hgroup)]
    exact hcapture.trans hnone

/-- A call that is refused or goes to another group leaves what the group holds. -/
theorem capture_of_spares (h : Spares s group d) : (after s d).capture group = s.capture group := by
  obtain ⟨hsets, hclear⟩ := h
  have hother : ∀ other slot, other ≠ group →
      ({ s with captures := s.captures.set other slot } : MatchState).capture group =
        s.capture group := by
    intro other slot hne
    rw [capture_slot, if_neg fun h => hne h.1]
  cases d with
  | write change => rfl
  | edit e =>
    cases e with
    | setPosition offset =>
      simp only [after, perform, edit, setPosition]
      cases s.checkOffset offset <;> rfl
    | advance n =>
      simp only [after, perform, edit, advance, setPosition]
      cases s.checkOffset (min (s.position + n) maxOffset) <;> rfl
    | setCapture other start stop =>
      cases hset : s.setCapture other start stop with
      | error e => simp only [after, perform, edit, hset]
      | ok t =>
        have hne : other ≠ group := by
          rintro rfl
          exact hsets ⟨start, stop⟩ ⟨rfl, t, hset⟩
        obtain ⟨_, _, _, _, rfl⟩ := (setCapture_eq_ok_iff s t other start stop).mp hset
        simp only [after, perform, edit, hset]
        exact hother other _ hne
    | clearCapture other =>
      have hne : other ≠ group := by
        rintro rfl
        exact hclear rfl
      exact hother other none hne
    | _ => rfl

/-- What a group holds after a deed: what the deed sets it to, or what it held before. -/
theorem capture_after_iff (s : MatchState) (group : ℕ) (c : Capture) (d : Deed) :
    (after s d).capture group = some c ↔
      Sets s group c d ∨ Spares s group d ∧ s.capture group = some c := by
  by_cases hsets : ∃ c', Sets s group c' d
  · obtain ⟨c', hsets⟩ := hsets
    rw [capture_of_sets hsets]
    constructor
    · intro heq
      obtain rfl := Option.some.inj heq
      exact .inl hsets
    · intro h
      rcases h with hsets' | ⟨hspares, _⟩
      · rw [← capture_of_sets hsets', capture_of_sets hsets]
      · exact absurd hsets (hspares.1 c')
  · have hnone : ∀ c', ¬ Sets s group c' d := fun c' h => hsets ⟨c', h⟩
    by_cases hclear : d = .edit (.clearCapture group)
    · subst hclear
      rw [capture_after_clear]
      constructor
      · intro heq
        cases heq
      · intro h
        rcases h with hsets' | ⟨hspares, _⟩
        · exact absurd hsets' (hnone c)
        · exact absurd rfl hspares.2
    · have hspares : Spares s group d := ⟨hnone, hclear⟩
      rw [capture_of_spares hspares]
      constructor
      · exact fun hheld => .inr ⟨hspares, hheld⟩
      · intro h
        rcases h with hsets' | ⟨_, hheld⟩
        · exact absurd hsets' (hnone c)
        · exact hheld

end Capture

/-- What a group holds after many deeds: what the last of them set it to, if it was not cleared
since, or what it held at first, if nothing touched it. -/
theorem capture_run_iff (s : MatchState) (group : ℕ) (c : Capture) (ds : List Deed) :
    (run s ds).capture group = some c ↔
      LastSet s group c ds ∨ Untouched s group ds ∧ s.capture group = some c := by
  induction ds generalizing s with
  | nil =>
    have hnot := not_lastSet_nil s group c
    have huntouched := untouched_nil s group
    rw [run, List.foldl_nil]
    tauto
  | cons d ds ih =>
    rw [run_cons, ih, capture_after_iff, lastSet_cons_iff, untouched_cons_iff]
    tauto

theorem capture_start (a : Attempt) (groups group : ℕ) :
    (MatchState.start a groups).capture group = none := by
  simp only [capture, MatchState.start, List.getElem?_replicate]
  split <;> rfl

/-- The setters of a match state are all or nothing. In place, a call stores nothing before all its
checks are made, so one that fails, always for a reason of validation, leaves the whole state as it
was. The position may be set to the offsets up to the limit that begin a character or end the
subject. A capture may be set for a group that is there, to an upright range between two such
offsets. A success changes the position, or the slot of the group, and nothing else. So after any
calls a group holds the range of the last of them that set it, unless it was cleared since, and
nothing otherwise. -/
theorem setters_are_all_or_nothing (s : MatchState) :
    (∀ d, play (steps d) s = ((perform s d).map fun _ => (), after s d)) ∧
    (∀ d e t, play (steps d) s = (.error e, t) → e.toFault.kind = .validation ∧ t = s) ∧
    (∀ offset, ((∃ t, s.setPosition offset = .ok t) ↔
        offset ≤ s.limit ∧ (⟨offset⟩ : String.Pos.Raw).IsValid s.subject) ∧
      ((∃ t, s.setPosition offset = .ok t) → offset ≤ s.subject.utf8ByteSize)) ∧
    (∀ group start stop, (∃ t, s.setCapture group start stop = .ok t) ↔
      group < s.captures.length ∧ start ≤ stop ∧ (∃ t, s.setPosition start = .ok t) ∧
        ∃ t, s.setPosition stop = .ok t) ∧
    (∀ offset t, s.setPosition offset = .ok t → t = { s with position := offset }) ∧
    (∀ n t, s.advance n = .ok t → t = { s with position := ahead n s }) ∧
    (∀ group start stop t, s.setCapture group start stop = .ok t →
      t = { s with captures := s.captures.set group (some ⟨start, stop⟩) } ∧
        t.capture group = some ⟨start, stop⟩ ∧
        ∀ other, other ≠ group → t.capture other = s.capture other) ∧
    ∀ ds group c,
      ((run s ds).capture group = some c ↔
        LastSet s group c ds ∨ Untouched s group ds ∧ s.capture group = some c) ∧
      ∀ a groups, s = .start a groups →
        ((run s ds).capture group = some c ↔ LastSet s group c ds) := by
  have hposition : ∀ offset, (∃ t, s.setPosition offset = .ok t) ↔
      s.checkOffset offset = .ok () := by
    intro offset
    simp only [setPosition_eq_ok_iff, exists_and_left, exists_eq, and_true]
  refine ⟨play_steps s, ?_, ?_, ?_, ?_, ?_, ?_, ?_⟩
  · exact fun d e t hplay => ⟨rfl, play_failed hplay⟩
  · intro offset
    rw [hposition, checkOffset_eq_ok_iff, Text.isBoundary_toList_iff]
    exact ⟨Iff.rfl, fun h => h.2.le_utf8ByteSize⟩
  · intro group start stop
    simp only [setCapture_eq_ok_iff, exists_and_left, exists_eq, and_true, hposition]
  · exact fun offset t ht => ((setPosition_eq_ok_iff s t offset).mp ht).2
  · exact fun n t ht => ((advance_eq_ok_iff s t n).mp ht).2
  · intro group start stop t ht
    obtain ⟨hgroup, _, _, _, rfl⟩ := (setCapture_eq_ok_iff s t group start stop).mp ht
    refine ⟨rfl, ?_, fun other hother => ?_⟩
    · rw [capture_slot, if_pos ⟨rfl, hgroup⟩]
    · rw [capture_slot, if_neg fun h => hother h.1.symm]
  · intro ds group c
    refine ⟨capture_run_iff s group c ds, ?_⟩
    rintro a groups rfl
    rw [capture_run_iff, capture_start]
    simp

/-- An attempt whose end lies past its subject of three bytes, in which one offset straddles a
character. -/
def overlong : Attempt := ⟨"aé", 0, 9⟩

/-- Calls on its groups, some of which are refused. -/
def mixed : List Deed :=
  [.edit (.setCapture 0 0 1), .edit (.setCapture 0 1 3), .edit (.setCapture 0 1 2),
    .edit (.setCapture 1 0 0), .edit (.clearCapture 1), .edit (.clearCapture 7)]

theorem setters_are_all_or_nothing_overlong :
    (∃ e t, play (steps (.edit (.setPosition 2))) (.start overlong 2) = (.error e, t) ∧
        e.toFault.kind = .validation ∧ t = .start overlong 2) ∧
      (∃ t, (MatchState.start overlong 2).setPosition 3 = .ok t ∧
        t = { MatchState.start overlong 2 with position := 3 }) ∧
      (¬ ∃ t, (MatchState.start overlong 2).setPosition 5 = .ok t) ∧
      (run (.start overlong 2) mixed).capture 0 = some ⟨1, 3⟩ ∧
      LastSet (.start overlong 2) 0 ⟨1, 3⟩ mixed := by
  obtain ⟨_, hfailed, hposition, _, hmoved, _, _, hruns⟩ :=
    setters_are_all_or_nothing (.start overlong 2)
  have hplay : play (steps (.edit (.setPosition 2))) (.start overlong 2) =
      (.error (.insideCharacter 2), .start overlong 2) := rfl
  refine ⟨⟨_, _, hplay, hfailed _ _ _ hplay⟩, ⟨_, rfl, hmoved 3 _ rfl⟩, ?_, rfl, ?_⟩
  · intro h
    exact absurd ((hposition 5).2 h) (by decide)
  · exact ((hruns mixed 0 ⟨1, 3⟩).2 overlong 2 rfl).mp rfl

end PatternHooks.MatchStateSetters
