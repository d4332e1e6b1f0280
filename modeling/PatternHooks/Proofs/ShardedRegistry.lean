import Mathlib.Algebra.Order.Group.Multiset
import Mathlib.Data.List.FinRange
import Mathlib.Tactic.Abel
import PatternHooks.Proofs.RegistryRoll

/-!
A registry that many clients use at once. Its entries are spread over shards, and a key always
belongs to the same one. A call that registers or removes a key holds the lock of its shard and is
one step. A call that empties the registry locks the shards one after another, and other calls go on
between its steps. What a step does to its shard is what the registry's own operation does.
-/

namespace PatternHooks.ShardedRegistry

open RegistryRoll

variable {n : ℕ} {η : Type}

/-- A call that empties the registry: the shards that it has yet to visit, and the number of entries
that it has removed. -/
structure Clearing (n : ℕ) where
  todo : List (Fin n)
  removed : ℕ := 0

/-- Any number of calls may be under way. The calls that empty the registry stay in the list when
they are done, with nothing left to visit. -/
structure State (n : ℕ) (η : Type) where
  policy : DuplicatePolicy
  shard : Fin n → List (Entry η) := fun _ => []
  nextSequence : ℕ := 0
  clearings : List (Clearing n) := []

namespace State

/-- The registry that a call works on while it holds the lock of a shard. -/
def view (s : State n η) (i : Fin n) : Registry η := ⟨s.policy, s.shard i, s.nextSequence⟩

/-- The state after a call that has made this of its shard. -/
def put (s : State n η) (i : Fin n) (r : Registry η) : State n η :=
  { s with shard := Function.update s.shard i r.entries, nextSequence := r.nextSequence }

/-- The registry with the entries of all shards. -/
def whole (s : State n η) : Registry η :=
  ⟨s.policy, (List.finRange n).flatMap s.shard, s.nextSequence⟩

theorem mem_whole_iff (s : State n η) (e : Entry η) :
    e ∈ s.whole.entries ↔ ∃ i, e ∈ s.shard i := by
  simp [whole]

theorem shard_put_self (s : State n η) (i : Fin n) (r : Registry η) :
    (s.put i r).shard i = r.entries := by
  simp [put]

theorem shard_put_of_ne (s : State n η) {i j : Fin n} (hne : j ≠ i) (r : Registry η) :
    (s.put i r).shard j = s.shard j := by
  simp [put, hne]

end State

/-- What a step of a call tells. A step of a call that empties the registry tells which call it is,
and what it has removed. -/
inductive Event (η : Type) where
  | insert (e : Entry η)
  | replace (key : String)
  | refuse (key : String) (f : RegisterFault)
  | unregister (key : String) (removed : Option (Entry η))
  | start
  | sweep (call : ℕ) (removed : List (Entry η))

/-- A key with the number that its entry was given. The hooks of an entry may be replaced, but its
ticket stays. -/
abbrev Ticket := String × ℕ

def ticket (e : Entry η) : Ticket := (e.key, e.sequence)

namespace Event

def inserted : Event η → List Ticket
  | insert e => [ticket e]
  | _ => []

def removed : Event η → List Ticket
  | unregister _ removed => removed.toList.map ticket
  | sweep _ removed => removed.map ticket
  | _ => []

/-- The event is a removal that found an entry. -/
def unregisters : Event η → Bool
  | unregister _ removed => removed.isSome
  | _ => false

def swept : Event η → ℕ
  | sweep _ removed => removed.length
  | _ => 0

end Event

/-- The tickets of all registrations that inserted an entry, in their order. -/
def insertions (trace : List (Event η)) : List Ticket := trace.flatMap Event.inserted

/-- The tickets of all entries that were removed, once for each removal. -/
def removals (trace : List (Event η)) : List Ticket := trace.flatMap Event.removed

/-- One step of one of the calls; `home` tells the shard of a key. -/
inductive Step (home : String → Fin n) : State n η → Event η → State n η → Prop
  | insert {s : State n η} {key : String} {hooks : η} {r : Registry η}
      (h : (s.view (home key)).register key hooks = .ok (false, r)) :
      Step home s (.insert ⟨key, hooks, s.nextSequence⟩) (s.put (home key) r)
  | replace {s : State n η} {key : String} {hooks : η} {r : Registry η}
      (h : (s.view (home key)).register key hooks = .ok (true, r)) :
      Step home s (.replace key) (s.put (home key) r)
  | refuse {s : State n η} {key : String} {hooks : η} {f : RegisterFault}
      (h : (s.view (home key)).register key hooks = .error f) : Step home s (.refuse key f) s
  | unregister (s : State n η) (key : String) :
      Step home s (.unregister key ((s.view (home key)).unregister key).1)
        (s.put (home key) ((s.view (home key)).unregister key).2)
  | start (s : State n η) {order : List (Fin n)} (h : order.Perm (List.finRange n)) :
      Step home s .start { s with clearings := s.clearings ++ [⟨order, 0⟩] }
  | sweep {s : State n η} {before after : List (Clearing n)} {i : Fin n} {todo : List (Fin n)}
      {removed : ℕ} (h : s.clearings = before ++ ⟨i :: todo, removed⟩ :: after) :
      Step home s (.sweep before.length (s.shard i))
        { s.put i (s.view i).clear.2 with
          clearings := before ++ ⟨todo, removed + (s.view i).clear.1⟩ :: after }

/-- The steps of any number of calls, in any order, from an empty registry. -/
inductive Run (policy : DuplicatePolicy) (home : String → Fin n) :
    List (Event η) → State n η → Prop
  | start : Run policy home [] { policy }
  | step {trace : List (Event η)} {s s' : State n η} {e : Event η} (h : Run policy home trace s)
      (hstep : Step home s e s') : Run policy home (trace ++ [e]) s'

/-- What every step keeps: keys stand once and in their own shards; the tickets are numbered in the
order of the insertions; and each ticket is live or was removed, and not both. -/
structure Kept (home : String → Fin n) (trace : List (Event η)) (s : State n η) : Prop where
  homed : ∀ i, ∀ e ∈ s.shard i, home e.key = i
  distinct : ∀ i, ((s.shard i).map (·.key)).Nodup
  numbered : (insertions trace).map Prod.snd = List.range s.nextSequence
  balance : (insertions trace).Perm (s.whole.entries.map ticket ++ removals trace)

/-- What a call that holds the lock of a shard owes to the others when it makes `r` of the shard. -/
structure Accounts (home : String → Fin n) (s : State n η) (e : Event η) (i : Fin n)
    (r : Registry η) : Prop where
  homed : ∀ x ∈ r.entries, home x.key = i
  distinct : (r.entries.map (·.key)).Nodup
  numbered : List.range s.nextSequence ++ e.inserted.map Prod.snd = List.range r.nextSequence
  balance : ((s.shard i).map ticket ++ e.inserted).Perm (r.entries.map ticket ++ e.removed)

theorem insertions_append (trace : List (Event η)) (e : Event η) :
    insertions (trace ++ [e]) = insertions trace ++ e.inserted := by
  rw [insertions, List.flatMap_append, List.flatMap_singleton, insertions]

theorem removals_append (trace : List (Event η)) (e : Event η) :
    removals (trace ++ [e]) = removals trace ++ e.removed := by
  rw [removals, List.flatMap_append, List.flatMap_singleton, removals]

/-- To change one part of a list is to put the new part beside the others. -/
theorem perm_flatMap_update {α β : Type} [DecidableEq α] {l : List α} (hl : l.Nodup) {i : α}
    (hi : i ∈ l) (f : α → List β) (x : List β) :
    (l.flatMap (Function.update f i x)).Perm (x ++ (l.erase i).flatMap f) := by
  have hothers : (l.erase i).flatMap (Function.update f i x) = (l.erase i).flatMap f := by
    refine List.flatMap_congr fun j hj => ?_
    have hne : j ≠ i := fun heq => hl.not_mem_erase (heq ▸ hj)
    rw [Function.update_of_ne hne]
  have hsplit := (List.perm_cons_erase hi).flatMap_right (Function.update f i x)
  rw [List.flatMap_cons, Function.update_self, hothers] at hsplit
  exact hsplit

/-- The entries of the other shards stay beside those of a shard that a call changes. -/
theorem exists_others (s : State n η) (i : Fin n) : ∃ others,
    s.whole.entries.Perm (s.shard i ++ others) ∧
      ∀ r, (s.put i r).whole.entries.Perm (r.entries ++ others) := by
  have hi : i ∈ List.finRange n := List.mem_finRange i
  refine ⟨((List.finRange n).erase i).flatMap s.shard, ?_, fun r => ?_⟩
  · exact (List.perm_cons_erase hi).flatMap_right s.shard
  · exact perm_flatMap_update (List.nodup_finRange n) hi s.shard r.entries

section Kept
variable {home : String → Fin n} {trace : List (Event η)} {s s' : State n η} {e : Event η}

theorem kept_start (policy : DuplicatePolicy) (home : String → Fin n) :
    Kept home ([] : List (Event η)) { policy } where
  homed _ _ hx := absurd hx List.not_mem_nil
  distinct _ := List.nodup_nil
  numbered := rfl
  balance := by simp [insertions, removals, State.whole]

/-- A call that accounts for what it makes of its shard keeps what all steps keep. -/
theorem Kept.put (h : Kept home trace s) {i : Fin n} {r : Registry η}
    (ha : Accounts home s e i r) : Kept home (trace ++ [e]) (s.put i r) where
  homed j x hx := by
    by_cases hj : j = i
    · subst hj
      rw [s.shard_put_self] at hx
      exact ha.homed x hx
    · rw [s.shard_put_of_ne hj] at hx
      exact h.homed j x hx
  distinct j := by
    by_cases hj : j = i
    · subst hj
      rw [s.shard_put_self]
      exact ha.distinct
    · rw [s.shard_put_of_ne hj]
      exact h.distinct j
  numbered := by
    rw [insertions_append, List.map_append, h.numbered]
    exact ha.numbered
  balance := by
    obtain ⟨others, hwhole, hput⟩ := exists_others s i
    have hold := (hwhole.map ticket).append_right (removals trace)
    have hnew := (hput r).map ticket
    rw [List.map_append] at hold hnew
    rw [insertions_append, removals_append, ← Multiset.coe_eq_coe]
    have hbalance := Multiset.coe_eq_coe.mpr (h.balance.trans hold)
    have haccounts := Multiset.coe_eq_coe.mpr ha.balance
    have hplaced := Multiset.coe_eq_coe.mpr hnew
    simp only [← Multiset.coe_add] at hbalance haccounts hplaced ⊢
    rw [hbalance, hplaced]
    calc _ = ((s.shard i).map ticket + e.inserted : Multiset Ticket) + others.map ticket +
          removals trace := by abel
      _ = _ := by rw [haccounts]; abel

/-- A call that inserts an entry accounts for it. -/
theorem Kept.accounts_insert (h : Kept home trace s) {key : String} {hooks : η} {r : Registry η}
    (hr : (s.view (home key)).register key hooks = .ok (false, r)) :
    Accounts home s (.insert ⟨key, hooks, s.nextSequence⟩) (home key) r := by
  obtain ⟨hnew, rfl⟩ := insert_of_register hr
  have hkeys := (contains_eq_false_iff _ key).mp hnew
  refine ⟨?_, ?_, ?_, ?_⟩
  · exact List.forall_mem_cons.mpr ⟨rfl, h.homed (home key)⟩
  · refine List.nodup_cons.mpr ⟨fun hmem => ?_, h.distinct (home key)⟩
    obtain ⟨e, he, hkey⟩ := List.mem_map.mp hmem
    exact hkeys e he hkey
  · exact List.range_succ.symm
  · exact (List.append_nil _).symm ▸ List.perm_append_singleton _ _

theorem Kept.accounts_replace (h : Kept home trace s) {key : String} {hooks : η} {r : Registry η}
    (hr : (s.view (home key)).register key hooks = .ok (true, r)) :
    Accounts home s (.replace key) (home key) r := by
  obtain ⟨_, rfl⟩ := substitute_of_register hr
  have hsame : ∀ x : Entry η, (if x.key = key then { x with hooks } else x).key = x.key ∧
      ticket (if x.key = key then { x with hooks } else x) = ticket x := by
    intro x
    split <;> exact ⟨rfl, rfl⟩
  refine ⟨fun x hx => ?_, ?_, ?_, ?_⟩
  · obtain ⟨y, hy, rfl⟩ := List.mem_map.mp hx
    rw [(hsame y).1]
    exact h.homed (home key) y hy
  · simp only [Registry.substitute, List.map_map, Function.comp_def, hsame]
    exact h.distinct (home key)
  · exact List.append_nil _
  · simp only [Registry.substitute, List.map_map, Function.comp_def, hsame]
    exact .refl _

theorem Kept.accounts_unregister (h : Kept home trace s) (key : String) :
    Accounts home s (.unregister key ((s.view (home key)).unregister key).1) (home key)
      ((s.view (home key)).unregister key).2 := by
  refine ⟨fun x hx => h.homed (home key) x (List.mem_of_mem_filter hx), ?_, List.append_nil _, ?_⟩
  · exact (h.distinct (home key)).sublist (List.filter_sublist.map _)
  · have hsplit := (s.shard (home key)).filter_append_perm (·.key != key)
    simp only [bne, Bool.not_not] at hsplit
    rw [filter_key_eq_toList (h.distinct (home key))] at hsplit
    have htickets := (hsplit.map ticket).symm
    rw [List.map_append] at htickets
    exact (List.append_nil _).symm ▸ htickets

theorem accounts_sweep (home : String → Fin n) (s : State n η) (call : ℕ) (i : Fin n) :
    Accounts home s (.sweep call (s.shard i)) i (s.view i).clear.2 where
  homed _ hx := absurd hx List.not_mem_nil
  distinct := List.nodup_nil
  numbered := List.append_nil _
  balance := by
    change ((s.shard i).map ticket ++ []).Perm ([] ++ (s.shard i).map ticket)
    rw [List.append_nil, List.nil_append]

/-- A step that changes no shard keeps what all steps keep. -/
theorem Kept.idle (h : Kept home trace s) (hinserted : e.inserted = [])
    (hremoved : e.removed = []) :
    Kept home (trace ++ [e]) s where
  homed := h.homed
  distinct := h.distinct
  numbered := by rw [insertions_append, hinserted, List.append_nil, h.numbered]
  balance := by
    rw [insertions_append, removals_append, hinserted, hremoved, List.append_nil, List.append_nil]
    exact h.balance

/-- The calls under way do not matter to what is kept. -/
theorem Kept.set_clearings (h : Kept home trace s) (clearings : List (Clearing n)) :
    Kept home trace { s with clearings } :=
  ⟨h.homed, h.distinct, h.numbered, h.balance⟩

theorem Step.kept (hstep : Step home s e s') (h : Kept home trace s) :
    Kept home (trace ++ [e]) s' := by
  cases hstep with
  | insert hr => exact h.put (h.accounts_insert hr)
  | replace hr => exact h.put (h.accounts_replace hr)
  | refuse hr => exact h.idle rfl rfl
  | unregister key => exact h.put (h.accounts_unregister key)
  | start horder => exact (h.idle rfl rfl).set_clearings _
  | sweep hcall => exact (h.put (accounts_sweep home s _ _)).set_clearings _

theorem Run.kept {policy : DuplicatePolicy} (h : Run policy home trace s) : Kept home trace s := by
  induction h with
  | start => exact kept_start policy home
  | step h hstep ih => exact hstep.kept ih

/-- The tickets are given once, and no two of them have the same number. -/
theorem Kept.nodup_numbers (h : Kept home trace s) :
    ((s.whole.entries.map ticket ++ removals trace).map Prod.snd).Nodup := by
  have hnumbers : ((insertions trace).map Prod.snd).Nodup := by
    rw [h.numbered]
    exact List.nodup_range
  exact (h.balance.map Prod.snd).nodup_iff.mp hnumbers

end Kept

section Counts
variable {home : String → Fin n} {policy : DuplicatePolicy} {trace : List (Event η)}
  {s s' : State n η} {e : Event η}

/-- A removal of one key removes an entry or none, and a sweep all that it tells. -/
theorem length_removed (e : Event η) :
    e.removed.length = (if e.unregisters then 1 else 0) + e.swept := by
  cases e with
  | unregister key removed => cases removed <;> rfl
  | sweep call removed =>
    change (removed.map ticket).length = 0 + removed.length
    rw [List.length_map, Nat.zero_add]
  | _ => rfl

theorem length_removals (trace : List (Event η)) :
    (removals trace).length = trace.countP Event.unregisters + (trace.map Event.swept).sum := by
  induction trace with
  | nil => rfl
  | cons e trace ih =>
    have hlength : (removals (e :: trace)).length = e.removed.length + (removals trace).length :=
      List.length_append
    rw [hlength, length_removed, ih, List.countP_cons, List.map_cons, List.sum_cons]
    omega

/-- A sweep adds what it removes to the count of its own call; no other step adds to a count. -/
theorem Step.counts (hstep : Step home s e s') :
    (s'.clearings.map (·.removed)).sum = (s.clearings.map (·.removed)).sum + e.swept := by
  cases hstep with
  | start horder =>
    simp only [List.map_append, List.sum_append, List.map_singleton, List.sum_singleton,
      Event.swept]
  | @sweep before after i todo removed hcall =>
    have hsize : (s.view i).clear.1 = (s.shard i).length := rfl
    rw [hcall, hsize]
    simp only [List.map_append, List.map_cons, List.sum_append, List.sum_cons, Event.swept]
    omega
  | _ => rfl

theorem Run.counts (h : Run policy home trace s) :
    (s.clearings.map (·.removed)).sum = (trace.map Event.swept).sum := by
  induction h with
  | start => rfl
  | step h hstep ih =>
    rw [hstep.counts, ih, List.map_append, List.sum_append, List.map_singleton,
      List.sum_singleton]

/-- However the steps of the calls mix, at every moment each registration that inserted an entry is
accounted for: its entry is live, or one call has removed it and counts it. No two live entries have
the same number. -/
theorem registrations_balance (policy : DuplicatePolicy) (home : String → Fin n)
    (trace : List (Event η)) (s : State n η) (h : Run policy home trace s) :
    (insertions trace).length = s.whole.size + trace.countP Event.unregisters +
        (s.clearings.map (·.removed)).sum ∧
      (insertions trace).Perm (s.whole.entries.map ticket ++ removals trace) ∧
      (s.whole.entries.map ticket ++ removals trace).Nodup ∧
      (s.whole.entries.map (·.sequence)).Nodup := by
  have hkept := h.kept
  have hnumbers := hkept.nodup_numbers
  refine ⟨?_, hkept.balance, .of_map _ hnumbers, ?_⟩
  · have hlength := hkept.balance.length_eq
    rw [List.length_append, List.length_map, length_removals, ← h.counts] at hlength
    rw [Registry.size]
    omega
  · rw [List.map_append, List.map_map] at hnumbers
    exact (List.nodup_append.mp hnumbers).1

/-- Two clearings overlap. The key that was inserted behind the first is removed by the second, and
the one inserted behind both stays. -/
theorem registrations_balance_overlapping :
    ∃ (trace : List (Event ℕ)) (s : State 2 ℕ),
      Run .reject (fun key => if key = "a" then 0 else 1) trace s ∧
      trace.map Event.removed =
        [[], [], [], [("a", 0)], [], [], [("b", 1)], [], [("a", 2)], []] ∧
      s.clearings.map (·.removed) = [1, 2] ∧
      (insertions trace).length = 4 ∧
      (insertions trace).Perm (s.whole.entries.map ticket ++ removals trace) ∧
      s.whole.entries = [⟨"b", 4, 3⟩] := by
  have h₀ : Run .reject (fun key => if key = "a" then 0 else 1) []
      ({ policy := .reject } : State 2 ℕ) := .start
  have h₁ := h₀.step (.insert (rfl : (State.view _ _).register "a" 1 = _))
  have h₂ := h₁.step (.insert (rfl : (State.view _ _).register "b" 2 = _))
  have h₃ := h₂.step (.start _ (.refl [0, 1]))
  have h₄ := h₃.step (.sweep (rfl : State.clearings _ = [] ++ ⟨[0, 1], 0⟩ :: []))
  have h₅ := h₄.step (.insert (rfl : (State.view _ _).register "a" 3 = _))
  have h₆ := h₅.step (.start _ (.swap 0 1 []))
  have h₇ := h₆.step (.sweep (rfl : State.clearings _ = [⟨[1], 1⟩] ++ ⟨[1, 0], 0⟩ :: []))
  have h₈ := h₇.step (.sweep (rfl : State.clearings _ = [] ++ ⟨[1], 1⟩ :: [⟨[0], 1⟩]))
  have h₉ := h₈.step (.sweep (rfl : State.clearings _ = [⟨[], 1⟩] ++ ⟨[0], 1⟩ :: []))
  have h₁₀ := h₉.step (.insert (rfl : (State.view _ _).register "b" 4 = _))
  obtain ⟨hcount, hbalance, _, _⟩ := registrations_balance _ _ _ _ h₁₀
  exact ⟨_, _, h₁₀, rfl, rfl, hcount, hbalance, rfl⟩

end Counts

end PatternHooks.ShardedRegistry
