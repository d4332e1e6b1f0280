import PatternHooks.Proofs.MatchStateBounds

/-!
Where a match state stands. Moving on adds in a machine word, and a sum that does not fit one is the
largest word; since no boundary lies there, the sums that are let through are exact. A state that is
made for a subject and an offset stands within the subject at once, but between characters only if
the offset does, or else from its first move on.
-/

namespace PatternHooks.MatchStatePosition

open MatchState MatchStateBounds

section Advance
variable {s t : MatchState} {n : ℕ}

/-- A subject that is not too long ends before the largest offset, so a sum that was cut down to it
is refused, and any other is what it is. -/
theorem checkOffset_sum_iff (hshort : s.subject.utf8ByteSize < maxOffset) (n : ℕ) :
    s.checkOffset (min (s.position + n) maxOffset) = .ok () ↔
      s.position + n ≤ min s.limit s.subject.utf8ByteSize ∧
        (⟨s.position + n⟩ : String.Pos.Raw).IsValid s.subject := by
  rw [checkOffset_eq_ok_iff, Text.isBoundary_toList_iff]
  constructor
  · intro h
    obtain ⟨hlimit, hvalid⟩ := h
    have hsize : min (s.position + n) maxOffset ≤ s.subject.utf8ByteSize := hvalid.le_utf8ByteSize
    have hexact : min (s.position + n) maxOffset = s.position + n := by omega
    rw [hexact] at hlimit hvalid hsize
    exact ⟨Nat.le_min.mpr ⟨hlimit, hsize⟩, hvalid⟩
  · intro h
    obtain ⟨hmin, hvalid⟩ := h
    have hexact : min (s.position + n) maxOffset = s.position + n := by omega
    rw [hexact]
    exact ⟨(Nat.le_min.mp hmin).1, hvalid⟩

theorem exists_advance_iff (hshort : s.subject.utf8ByteSize < maxOffset) (n : ℕ) :
    (∃ t, s.advance n = .ok t) ↔
      s.position + n ≤ min s.limit s.subject.utf8ByteSize ∧
        (⟨s.position + n⟩ : String.Pos.Raw).IsValid s.subject := by
  simp only [advance_eq_ok_iff, exists_and_left, exists_eq, and_true]
  exact checkOffset_sum_iff hshort n

theorem eq_of_advance (hshort : s.subject.utf8ByteSize < maxOffset) (h : s.advance n = .ok t) :
    t = { s with position := s.position + n } := by
  obtain ⟨hmin, _⟩ := (exists_advance_iff hshort n).mp ⟨t, h⟩
  have hexact : min (s.position + n) maxOffset = s.position + n := by omega
  obtain ⟨_, rfl⟩ := (advance_eq_ok_iff s t n).mp h
  rw [hexact]

/-- Two moves come to one over both distances. -/
theorem advance_add {u : MatchState} {m : ℕ} (hshort : s.subject.utf8ByteSize < maxOffset)
    (hn : s.advance n = .ok t) (hm : t.advance m = .ok u) : s.advance (n + m) = .ok u := by
  have ht := eq_of_advance hshort hn
  have hshort' : t.subject.utf8ByteSize < maxOffset := by rwa [ht]
  have hu := eq_of_advance hshort' hm
  have hreach := (exists_advance_iff hshort' m).mp ⟨u, hm⟩
  simp only [ht, Nat.add_assoc] at hu hreach
  obtain ⟨v, hv⟩ := (exists_advance_iff hshort (n + m)).mpr hreach
  rw [hv, eq_of_advance hshort hv, hu]

end Advance

/-- Moving on is exact, whatever the position and the limit, also past the subject or at the largest
offset. It succeeds for the distances whose sum with the position is a boundary within the limit and
the subject, and then changes the position to that sum and nothing else. A sum beyond the largest
offset is always refused, the position never goes back, and two moves in a row are one over the sum
of their distances, which is an offset again. -/
theorem advance_is_exact (s : MatchState) (hshort : s.subject.utf8ByteSize < maxOffset) :
    (∀ n, (∃ t, s.advance n = .ok t) ↔
      s.position + n ≤ min s.limit s.subject.utf8ByteSize ∧
        (⟨s.position + n⟩ : String.Pos.Raw).IsValid s.subject) ∧
    (∀ n t, s.advance n = .ok t → t = { s with position := s.position + n }) ∧
    (∀ n, maxOffset < s.position + n → ∃ e, s.advance n = .error e) ∧
    (∀ n, s.position ≤ (after s (.edit (.advance n))).position) ∧
    ∀ n m t u, s.advance n = .ok t → t.advance m = .ok u →
      n + m ≤ maxOffset ∧ s.advance (n + m) = .ok u := by
  refine ⟨exists_advance_iff hshort, fun n t => eq_of_advance hshort, ?_, ?_, ?_⟩
  · intro n hover
    cases hadvance : s.advance n with
    | error e => exact ⟨e, rfl⟩
    | ok t =>
      obtain ⟨hmin, _⟩ := (exists_advance_iff hshort n).mp ⟨t, hadvance⟩
      omega
  · intro n
    rw [after]
    simp only [perform, edit]
    cases hadvance : s.advance n with
    | error e => exact Nat.le_refl _
    | ok t =>
      rw [eq_of_advance hshort hadvance]
      exact Nat.le_add_right _ n
  · intro n m t u hn hm
    have hsum := advance_add hshort hn hm
    obtain ⟨hmin, _⟩ := (exists_advance_iff hshort (n + m)).mp ⟨u, hsum⟩
    exact ⟨by omega, hsum⟩

/-- A state before a character of two bytes, which may go as far as a word counts. -/
def boundless : MatchState := ⟨"aéb", 1, maxOffset, [], 0, []⟩

theorem advance_is_exact_boundless :
    "aéb".utf8ByteSize < maxOffset ∧ (∃ t, boundless.advance 2 = .ok t) ∧
      (¬ ∃ t, boundless.advance 1 = .ok t) ∧ (∃ e, boundless.advance maxOffset = .error e) ∧
      boundless.advance (2 + 1) = .ok { boundless with position := 4 } := by
  have hshort : boundless.subject.utf8ByteSize < maxOffset := by decide
  obtain ⟨hiff, _, hover, _, hsum⟩ := advance_is_exact boundless hshort
  refine ⟨hshort, (hiff 2).mpr ⟨by decide, by decide⟩, fun h => ?_, hover maxOffset (by decide),
    (hsum 2 1 { boundless with position := 3 } _ rfl rfl).2⟩
  exact absurd ((hiff 1).mp h).2 (by decide)

section Started
variable {subject : String} {start : ℕ}

/-- The offsets of such an attempt are the boundaries of its subject. -/
theorem within_startingAt_iff {offset : ℕ} :
    Within (.startingAt subject start) offset ↔ (⟨offset⟩ : String.Pos.Raw).IsValid subject := by
  have hstop : (Attempt.startingAt subject start).stop = subject.utf8ByteSize :=
    Text.size_toList subject
  rw [Within, hstop]
  constructor
  · exact fun h => h.2
  · exact fun h => ⟨Nat.le_min.mpr ⟨h.le_utf8ByteSize, h.le_utf8ByteSize⟩, h⟩

/-- The start of such an attempt is a boundary if the offset is one, or is past the end. -/
theorem valid_start_iff (subject : String) (start : ℕ) :
    (⟨(Attempt.startingAt subject start).start⟩ : String.Pos.Raw).IsValid subject ↔
      subject.utf8ByteSize ≤ start ∨ (⟨start⟩ : String.Pos.Raw).IsValid subject := by
  have hstart : (Attempt.startingAt subject start).start = min start subject.utf8ByteSize := by
    rw [← Text.size_toList]
    rfl
  rw [hstart]
  constructor
  · intro h
    rcases Nat.le_total subject.utf8ByteSize start with hpast | hwithin
    · exact .inl hpast
    · rw [Nat.min_eq_left hwithin] at h
      exact .inr h
  · intro h
    rcases h with hpast | hvalid
    · rw [Nat.min_eq_right hpast]
      exact String.Pos.Raw.isValid_rawEndPos
    · rw [Nat.min_eq_left hvalid.le_utf8ByteSize]
      exact hvalid

/-- What is left from a boundary on follows the bytes before it, and from no other offset. -/
theorem remaining_follows_iff {offset : ℕ} :
    (∃ before, subject.toList = before ++ (Attempt.startingAt subject start).remaining offset ∧
        Text.size before = offset) ↔ (⟨offset⟩ : String.Pos.Raw).IsValid subject := by
  rw [← Text.isBoundary_toList_iff, Text.isBoundary_iff]
  constructor
  · intro h
    obtain ⟨before, hsplit, hsize⟩ := h
    exact ⟨before, _, hsplit, hsize⟩
  · intro h
    obtain ⟨before, rest, hsplit, rfl⟩ := h
    have hremaining := Attempt.remaining_eq (a := .startingAt subject start) hsplit rfl
    exact ⟨before, by rw [hremaining, hsplit], rfl⟩

end Started

/-- A state that is made for a subject and an offset, and whatever is done to it: it never stands
past the end, and it stands at a boundary if the offset is one or past the end, or if any move has
succeeded. At a boundary its position may be set again, or moved on by nothing, without a change,
and what is left of the subject follows the bytes before it. Elsewhere none of this holds. -/
theorem started_states_stand_at_boundaries (subject : String) (start groups : ℕ) (ds : List Deed)
    (hfits : subject.utf8ByteSize ≤ maxOffset) :
    ∃ a s, Attempt.startingAt subject start = a ∧ run (.start a groups) ds = s ∧
      s.position ≤ subject.utf8ByteSize ∧
      ((⟨s.position⟩ : String.Pos.Raw).IsValid subject ↔ subject.utf8ByteSize ≤ start ∨
        (⟨start⟩ : String.Pos.Raw).IsValid subject ∨ Moved (.start a groups) ds) ∧
      (s.setPosition s.position = .ok s ↔ (⟨s.position⟩ : String.Pos.Raw).IsValid subject) ∧
      (s.advance 0 = .ok s ↔ (⟨s.position⟩ : String.Pos.Raw).IsValid subject) ∧
      ((∃ before, subject.toList = before ++ a.remaining s.position ∧
        Text.size before = s.position) ↔ (⟨s.position⟩ : String.Pos.Raw).IsValid subject) := by
  have hkept := kept_run (.startingAt subject start) groups ds
  obtain ⟨hmoved, hstill⟩ := position_run (.startingAt subject start) groups ds
  generalize hs : run (.start (.startingAt subject start) groups) ds = s at hkept hmoved hstill
  have hset : s.setPosition s.position = .ok s ↔
      (⟨s.position⟩ : String.Pos.Raw).IsValid subject := by
    rw [setPosition_eq_ok_iff, hkept.checkOffset_iff, within_startingAt_iff]
    exact and_iff_left rfl
  have hposition : s.position ≤ subject.utf8ByteSize := by
    by_cases hany : Moved (.start (.startingAt subject start) groups) ds
    · exact (hmoved hany).2.le_utf8ByteSize
    · rw [hstill hany, ← Text.size_toList]
      exact Nat.min_le_right _ _
  refine ⟨_, s, rfl, hs, hposition, ?_, hset, ?_, remaining_follows_iff⟩
  · rw [← or_assoc, ← valid_start_iff]
    by_cases hany : Moved (.start (.startingAt subject start) groups) ds
    · exact iff_of_true (hmoved hany).2 (.inr hany)
    · rw [hstill hany, or_iff_left hany]
  · have hzero : min (s.position + 0) maxOffset = s.position := by omega
    rw [advance, hzero]
    exact hset

/-- An offset past the end of a subject with a wide character, and one inside it from which a move
leads to a boundary. -/
theorem started_states_stand_at_boundaries_astray :
    "aé".utf8ByteSize ≤ maxOffset ∧
      (MatchState.start (.startingAt "aé" 9) 1).advance 0 = .ok (.start (.startingAt "aé" 9) 1) ∧
      (⟨(run (.start (.startingAt "aé" 2) 1) [.edit (.advance 1)]).position⟩ :
        String.Pos.Raw).IsValid "aé" := by
  have hfits : "aé".utf8ByteSize ≤ maxOffset := by decide
  obtain ⟨_, _, rfl, rfl, _, hpast, _, hadvance, _⟩ :=
    started_states_stand_at_boundaries "aé" 9 1 [] hfits
  obtain ⟨_, _, rfl, rfl, _, hmoved, _⟩ :=
    started_states_stand_at_boundaries "aé" 2 1 [.edit (.advance 1)] hfits
  exact ⟨hfits, hadvance.mpr (hpast.mpr (.inl (by decide))),
    hmoved.mpr (.inr (.inr ⟨[], _, [], _, rfl, trivial, rfl⟩))⟩

/-- A state may be made for an offset inside a character. It stands there, its own guard refuses to
set the position that it has, and nothing of the subject is left to it. -/
theorem started_inside_character :
    ¬ (⟨(MatchState.start (.startingAt "é" 1) 0).position⟩ : String.Pos.Raw).IsValid "é" ∧
      (MatchState.start (.startingAt "é" 1) 0).setPosition
        (MatchState.start (.startingAt "é" 1) 0).position = .error (.insideCharacter 1) ∧
      (MatchState.start (.startingAt "é" 1) 0).advance 0 = .error (.insideCharacter 1) ∧
      (Attempt.startingAt "é" 1).remaining 1 = [] :=
  ⟨by decide, rfl, rfl, rfl⟩

end PatternHooks.MatchStatePosition
