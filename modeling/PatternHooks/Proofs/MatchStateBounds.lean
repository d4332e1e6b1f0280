import Mathlib.Data.List.Induction
import PatternHooks.MatchState

/-!
What a match state keeps while it is lent to hooks. An attempt may have any start and any end, also
one past its subject. Whatever the hooks then do to the state, and whether or not they succeed, the
captures lie upright within the attempt and between characters, and so does the position once it has
been moved.
-/

namespace PatternHooks.MatchStateBounds

open MatchState

/-- The offsets that an attempt may use: not past its end or its subject, and between two characters
of the UTF-8 form. -/
def Within (a : Attempt) (n : ℕ) : Prop :=
  n ≤ min a.stop a.subject.utf8ByteSize ∧ (⟨n⟩ : String.Pos.Raw).IsValid a.subject

/-- What hooks can do to a state that is lent to them: edit it, or write to its scratch data at
will. -/
inductive Deed where
  | edit (e : Edit)
  | write (change : List (String × Json) → List (String × Json))

def Deed.Moves : Deed → Prop
  | edit (.setPosition _) => True
  | edit (.advance _) => True
  | _ => False

def perform (s : MatchState) : Deed → Except EditFault MatchState
  | .edit e => s.edit e
  | .write change => .ok { s with scratch := change s.scratch }

/-- The state after a deed; a refused one changes nothing. -/
def after (s : MatchState) (d : Deed) : MatchState :=
  match perform s d with
  | .ok t => t
  | .error _ => s

def run (s : MatchState) (ds : List Deed) : MatchState := ds.foldl after s

/-- Some move of the position has succeeded. -/
def Moved (s : MatchState) (ds : List Deed) : Prop :=
  ∃ before d rest t, ds = before ++ d :: rest ∧ d.Moves ∧ perform (run s before) d = .ok t

/-- The invariant of a state that began as that of the attempt `a`. -/
structure Kept (a : Attempt) (groups : ℕ) (s : MatchState) : Prop where
  subject : s.subject = a.subject
  limit : s.limit = a.stop
  slots : s.captures.length = groups
  captures : ∀ c, some c ∈ s.captures → c.start ≤ c.stop ∧ Within a c.start ∧ Within a c.stop

theorem kept_start (a : Attempt) (groups : ℕ) : Kept a groups (.start a groups) where
  subject := rfl
  limit := rfl
  slots := List.length_replicate
  captures c hc := by simp [MatchState.start] at hc

section Step
variable {a : Attempt} {groups : ℕ} {s t : MatchState}

/-- The guard of all moves and captures lets through the offsets of the attempt. -/
theorem Kept.checkOffset_iff (h : Kept a groups s) (n : ℕ) :
    s.checkOffset n = .ok () ↔ Within a n := by
  rw [checkOffset_eq_ok_iff, h.limit, h.subject, Text.isBoundary_toList_iff, Within]
  constructor
  · intro h
    obtain ⟨hlimit, hvalid⟩ := h
    exact ⟨Nat.le_min.mpr ⟨hlimit, hvalid.le_utf8ByteSize⟩, hvalid⟩
  · intro h
    obtain ⟨hmin, hvalid⟩ := h
    exact ⟨(Nat.le_min.mp hmin).1, hvalid⟩

theorem Kept.set_slot (h : Kept a groups s) (group : ℕ) (slot : Option Capture)
    (hslot : ∀ c, slot = some c → c.start ≤ c.stop ∧ Within a c.start ∧ Within a c.stop) :
    Kept a groups { s with captures := s.captures.set group slot } where
  subject := h.subject
  limit := h.limit
  slots := by rw [List.length_set, h.slots]
  captures c hc := by
    rcases List.mem_or_eq_of_mem_set hc with hold | hnew
    · exact h.captures c hold
    · exact hslot c hnew.symm

/-- One deed keeps the invariant, and moves the position within the attempt or not at all. -/
theorem Kept.perform (h : Kept a groups s) {d : Deed} (hd : perform s d = .ok t) :
    Kept a groups t ∧ (d.Moves → Within a t.position) ∧ (¬ d.Moves → t.position = s.position) := by
  have hmove : ∀ n : ℕ, s.checkOffset n = .ok () → Kept a groups { s with position := n } ∧
      Within a n := fun n hn =>
    ⟨⟨h.subject, h.limit, h.slots, h.captures⟩, (h.checkOffset_iff n).mp hn⟩
  cases d with
  | write change =>
    cases hd
    exact ⟨⟨h.subject, h.limit, h.slots, h.captures⟩, False.elim, fun _ => rfl⟩
  | edit e =>
    cases e with
    | setPosition offset =>
      obtain ⟨hcheck, rfl⟩ := (setPosition_eq_ok_iff s t offset).mp hd
      exact ⟨(hmove offset hcheck).1, fun _ => (hmove offset hcheck).2, fun hn => (hn trivial).elim⟩
    | advance n =>
      obtain ⟨hcheck, rfl⟩ := (advance_eq_ok_iff s t n).mp hd
      exact ⟨(hmove _ hcheck).1, fun _ => (hmove _ hcheck).2, fun hn => (hn trivial).elim⟩
    | setCapture group start stop =>
      obtain ⟨_, hrange, hstart, hstop, rfl⟩ := (setCapture_eq_ok_iff s t group start stop).mp hd
      refine ⟨h.set_slot group _ ?_, False.elim, fun _ => rfl⟩
      intro c hc
      cases hc
      exact ⟨hrange, (h.checkOffset_iff start).mp hstart, (h.checkOffset_iff stop).mp hstop⟩
    | clearCapture group =>
      cases hd
      exact ⟨h.set_slot group none (by simp), False.elim, fun _ => rfl⟩
    | _ =>
      cases hd
      exact ⟨⟨h.subject, h.limit, h.slots, h.captures⟩, False.elim, fun _ => rfl⟩

/-- A deed that is refused leaves the state as it was, so the invariant holds after any deed. -/
theorem Kept.after (h : Kept a groups s) (d : Deed) : Kept a groups (after s d) := by
  unfold MatchStateBounds.after
  cases hd : MatchStateBounds.perform s d with
  | ok t => exact (h.perform hd).1
  | error e => exact h

end Step

theorem run_append (s : MatchState) (ds : List Deed) (d : Deed) :
    run s (ds ++ [d]) = after (run s ds) d := by
  simp [run]

theorem moved_append_iff (s : MatchState) (ds : List Deed) (d : Deed) :
    Moved s (ds ++ [d]) ↔ Moved s ds ∨ d.Moves ∧ ∃ t, perform (run s ds) d = .ok t := by
  constructor
  · intro hmoved
    obtain ⟨before, d', rest, t, hsplit, hmoves, hd'⟩ := hmoved
    rcases List.eq_nil_or_concat rest with rfl | ⟨rest', last, rfl⟩
    · obtain ⟨rfl, hlast⟩ := List.append_inj' hsplit rfl
      cases hlast
      exact .inr ⟨hmoves, t, hd'⟩
    · rw [List.concat_eq_append, ← List.cons_append, ← List.append_assoc] at hsplit
      obtain ⟨rfl, _⟩ := List.append_inj' hsplit rfl
      exact .inl ⟨before, d', rest', t, rfl, hmoves, hd'⟩
  · intro h
    rcases h with ⟨before, d', rest, t, rfl, hmoves, hd'⟩ | ⟨hmoves, t, hd⟩
    · exact ⟨before, d', rest ++ [d], t, by simp, hmoves, hd'⟩
    · exact ⟨ds, d, [], t, rfl, hmoves, hd⟩

theorem kept_run (a : Attempt) (groups : ℕ) (ds : List Deed) :
    Kept a groups (run (.start a groups) ds) := by
  induction ds using List.reverseRecOn with
  | nil => exact kept_start a groups
  | append_singleton ds d ih =>
    rw [run_append]
    exact ih.after d

/-- The position is within the attempt once it has been moved, and at the start before that. -/
theorem position_run (a : Attempt) (groups : ℕ) (ds : List Deed) :
    (Moved (.start a groups) ds → Within a (run (.start a groups) ds).position) ∧
      (¬ Moved (.start a groups) ds → (run (.start a groups) ds).position = a.start) := by
  induction ds using List.reverseRecOn with
  | nil =>
    refine ⟨?_, fun _ => rfl⟩
    intro hmoved
    obtain ⟨before, d, rest, t, hsplit, _⟩ := hmoved
    simp at hsplit
  | append_singleton ds d ih =>
    rw [run_append, moved_append_iff, after]
    cases hd : perform (run (.start a groups) ds) d with
    | error e => simpa using ih
    | ok t =>
      obtain ⟨_, hmoved, hstill⟩ := (kept_run a groups ds).perform hd
      by_cases hmoves : d.Moves
      · exact ⟨fun _ => hmoved hmoves, fun hnot => (hnot (.inr ⟨hmoves, t, rfl⟩)).elim⟩
      · simp only [hstill hmoves, hmoves, false_and, or_false]
        exact ih

/-- A hook cannot corrupt the match state. After any deeds, done or refused, on the state of any
attempt: the subject, the limit and the number of slots are those of the beginning; every capture is
upright and within the attempt; and the position is within the attempt if any move has succeeded,
and otherwise still the start, so that a start within the attempt never leads out of it. -/
theorem deeds_stay_within (a : Attempt) (groups : ℕ) (ds : List Deed) :
    ∃ s, run (.start a groups) ds = s ∧
      s.captures.length = groups ∧ s.subject = a.subject ∧ s.limit = a.stop ∧
      (∀ c, some c ∈ s.captures → c.start ≤ c.stop ∧
        c.stop ≤ min a.stop a.subject.utf8ByteSize ∧
        (⟨c.start⟩ : String.Pos.Raw).IsValid a.subject ∧
        (⟨c.stop⟩ : String.Pos.Raw).IsValid a.subject) ∧
      (Moved (.start a groups) ds → Within a s.position) ∧
      (¬ Moved (.start a groups) ds → s.position = a.start) ∧
      (Within a a.start → Within a s.position) := by
  have hkept := kept_run a groups ds
  obtain ⟨hmoved, hstill⟩ := position_run a groups ds
  refine ⟨_, rfl, hkept.slots, hkept.subject, hkept.limit, fun c hc => ?_, hmoved, hstill,
    fun hstart => ?_⟩
  · obtain ⟨hrange, hfirst, hlast⟩ := hkept.captures c hc
    exact ⟨hrange, hlast.1, hfirst.2, hlast.2⟩
  · by_cases hany : Moved (.start a groups) ds
    · exact hmoved hany
    · rw [hstill hany]
      exact hstart

end PatternHooks.MatchStateBounds
