import Mathlib.Data.List.Sort
import PatternHooks.Proofs.ShardedRegistry
import PatternHooks.Scope

/-!
Listing the keys of a registry that others go on changing. A listing reads every shard once, each in
one step, and sorts what it has read by the sequence numbers. It does not show the registry of any
one moment. What it shows of each key was so at the moment when the shard of the key was read, and
since no number is given twice, sorting restores the order of the insertions.
-/

namespace PatternHooks.ShardedRegistry

open RegistryRoll

variable {n : ℕ} {η : Type}

/-- The steps that others take between two reads, with the states that they leave behind. -/
inductive Steps (home : String → Fin n) :
    State n η → List (Event η) → List (State n η) → State n η → Prop
  | none (s : State n η) : Steps home s [] [] s
  | step {s s' s'' : State n η} {e : Event η} {trace : List (Event η)} {moments : List (State n η)}
      (hstep : Step home s e s') (h : Steps home s' trace moments s'') :
      Steps home s (e :: trace) (s :: moments) s''

/-- A listing reads the shards in the given order, and others take steps between its reads. The
moments are the states from the first read to the last, and `seen` are the entries that were read.
-/
inductive Listing (home : String → Fin n) :
    List (Fin n) → State n η → List (Event η) → List (State n η) → List (Entry η) →
      State n η → Prop
  | last (s : State n η) (i : Fin n) {seen : List (Entry η)} (hread : seen.Perm (s.shard i)) :
      Listing home [i] s [] [s] seen s
  | next {s s' s'' : State n η} {i : Fin n} {order : List (Fin n)} {trace trace' : List (Event η)}
      {moments moments' : List (State n η)} {read seen : List (Entry η)}
      (hread : read.Perm (s.shard i)) (hothers : Steps home s trace moments s')
      (h : Listing home order s' trace' moments' seen s'') :
      Listing home (i :: order) s (trace ++ trace') (s :: moments ++ moments') (read ++ seen) s''

/-- The registry that a listing shows. -/
def State.shown (s : State n η) (seen : List (Entry η)) : Registry η :=
  { s.whole with entries := seen }

/-- At every one of the moments the key has an entry, and always the one with this number. -/
def Stays (moments : List (State n η)) (t : Ticket) : Prop :=
  ∀ m ∈ moments, ∃ e, m.whole.lookup t.1 = some e ∧ e.sequence = t.2

section Kept
variable {home : String → Fin n} {trace : List (Event η)} {s : State n η}

/-- When every key is in its own shard and stands once there, it stands once in all shards. -/
theorem nodup_keys_of_homed {order : List (Fin n)} (horder : order.Nodup)
    {read : Fin n → List (Entry η)} (hhomed : ∀ i, ∀ e ∈ read i, home e.key = i)
    (hdistinct : ∀ i, ((read i).map (·.key)).Nodup) :
    ((order.flatMap read).map (·.key)).Nodup := by
  rw [List.map_flatMap, List.nodup_flatMap]
  refine ⟨fun i _ => hdistinct i, horder.imp fun {i j} hne => ?_⟩
  intro key hi hj
  obtain ⟨e, he, hkey⟩ := List.mem_map.mp hi
  obtain ⟨e', he', hkey'⟩ := List.mem_map.mp hj
  have hhome : home e.key = home e'.key := congrArg home (hkey.trans hkey'.symm)
  exact hne ((hhomed i e he).symm.trans (hhome.trans (hhomed j e' he')))

/-- A key is found in the registry exactly at its entry in its own shard. -/
theorem Kept.lookup_whole_iff (h : Kept home trace s) (key : String) (e : Entry η) :
    s.whole.lookup key = some e ↔ e ∈ s.shard (home key) ∧ e.key = key := by
  have hkeys : (s.whole.entries.map (·.key)).Nodup :=
    nodup_keys_of_homed (List.nodup_finRange n) h.homed h.distinct
  rw [Registry.lookup, find?_key_eq_some_iff hkeys, s.mem_whole_iff]
  constructor
  · rintro ⟨⟨i, hi⟩, rfl⟩
    have hhome := h.homed i e hi
    subst hhome
    exact ⟨hi, rfl⟩
  · rintro ⟨he, rfl⟩
    exact ⟨⟨_, he⟩, rfl⟩

/-- A live entry was inserted under its key and with its number. -/
theorem Kept.ticket_mem_insertions (h : Kept home trace s) {i : Fin n} {e : Entry η}
    (he : e ∈ s.shard i) : ticket e ∈ insertions trace := by
  have hlive : e ∈ s.whole.entries := (s.mem_whole_iff e).mpr ⟨i, he⟩
  exact h.balance.symm.subset (List.mem_append_left _ (List.mem_map_of_mem hlive))

/-- The insertions are in the order of their numbers. -/
theorem Kept.insertions_rise (h : Kept home trace s) :
    (insertions trace).Pairwise (·.2 < ·.2) := by
  have hrange : ((insertions trace).map Prod.snd).Pairwise (· < ·) := by
    rw [h.numbered]
    exact List.pairwise_lt_range
  exact List.pairwise_map.mp hrange

end Kept

section Listing
variable {home : String → Fin n} {policy : DuplicatePolicy} {past trace during : List (Event η)}
  {s s' : State n η} {moments : List (State n η)} {order : List (Fin n)} {seen : List (Entry η)}

theorem insertions_subset_append (trace trace' : List (Event η)) :
    insertions trace ⊆ insertions (trace ++ trace') := by
  rw [insertions, insertions, List.flatMap_append]
  exact List.subset_append_left _ _

theorem Steps.run (h : Steps home s trace moments s') (hpast : Run policy home past s) :
    Run policy home (past ++ trace) s' := by
  induction h generalizing past with
  | none s => rwa [List.append_nil]
  | step hstep h ih =>
    have hrun := ih (hpast.step hstep)
    rwa [List.append_assoc, List.singleton_append] at hrun

theorem Listing.run (h : Listing home order s during moments seen s')
    (hpast : Run policy home past s) : Run policy home (past ++ during) s' := by
  induction h generalizing past with
  | last s i hread => rwa [List.append_nil]
  | next hread hothers h ih =>
    have hrun := ih (hothers.run hpast)
    rwa [List.append_assoc] at hrun

/-- Every state between two reads is one that a run leaves, whose insertions are among those of the
whole time. -/
theorem Steps.moment_run (h : Steps home s trace moments s') (hpast : Run policy home past s) :
    ∀ m ∈ moments, ∃ trace', Run policy home trace' m ∧
      insertions trace' ⊆ insertions (past ++ trace) := by
  induction h generalizing past with
  | none s => simp
  | @step s s' s'' e trace moments hstep h ih =>
    intro m hm
    rcases List.mem_cons.mp hm with rfl | hlater
    · exact ⟨past, hpast, insertions_subset_append past _⟩
    · obtain ⟨trace', hrun, hsub⟩ := ih (hpast.step hstep) m hlater
      rw [List.append_assoc, List.singleton_append] at hsub
      exact ⟨trace', hrun, hsub⟩

theorem Listing.moment_run (h : Listing home order s during moments seen s')
    (hpast : Run policy home past s) :
    ∀ m ∈ moments, ∃ trace', Run policy home trace' m ∧
      insertions trace' ⊆ insertions (past ++ during) := by
  induction h generalizing past with
  | last s i hread =>
    intro m hm
    rw [List.mem_singleton.mp hm]
    exact ⟨past, hpast, insertions_subset_append past _⟩
  | @next s s' s'' i order trace trace' moments moments' read seen hread hothers h ih =>
    intro m hm
    rcases List.mem_append.mp hm with hbefore | hafter
    · rcases List.mem_cons.mp hbefore with rfl | hbetween
      · exact ⟨past, hpast, insertions_subset_append past _⟩
      · obtain ⟨trace'', hrun, hsub⟩ := hothers.moment_run hpast m hbetween
        have hwhole := insertions_subset_append (past ++ trace) trace'
        rw [List.append_assoc] at hwhole
        exact ⟨trace'', hrun, fun t ht => hwhole (hsub ht)⟩
    · obtain ⟨trace'', hrun, hsub⟩ := ih (hothers.run hpast) m hafter
      rw [List.append_assoc] at hsub
      exact ⟨trace'', hrun, hsub⟩

/-- What a listing has seen are the shards, each as it was at one of the moments. -/
theorem Listing.reads (h : Listing home order s during moments seen s') (horder : order.Nodup) :
    ∃ moment : Fin n → State n η, (∀ i ∈ order, moment i ∈ moments) ∧
      seen.Perm (order.flatMap fun i => (moment i).shard i) := by
  induction h with
  | last s i hread =>
    refine ⟨fun _ => s, fun _ _ => List.mem_singleton_self s, ?_⟩
    rwa [List.flatMap_singleton]
  | @next s s' s'' i order trace trace' moments moments' read seen hread hothers h ih =>
    obtain ⟨hfresh, hrest⟩ := List.nodup_cons.mp horder
    obtain ⟨moment, hmoment, hseen⟩ := ih hrest
    have hne : ∀ j ∈ order, j ≠ i := fun j hj heq => hfresh (heq ▸ hj)
    have hsame : (order.flatMap fun j => (Function.update moment i s j).shard j) =
        order.flatMap fun j => (moment j).shard j :=
      List.flatMap_congr fun j hj => by rw [Function.update_of_ne (hne j hj)]
    refine ⟨Function.update moment i s, fun j hj => ?_, ?_⟩
    · rcases List.mem_cons.mp hj with rfl | hlater
      · rw [Function.update_self]
        exact List.mem_append_left _ List.mem_cons_self
      · rw [Function.update_of_ne (hne j hlater)]
        exact List.mem_append_right _ (hmoment j hlater)
    · rw [List.flatMap_cons, Function.update_self, hsame]
      exact hread.append hseen

/-- What the entries that a listing has seen owe to the registry at its moments. -/
structure Faithful (home : String → Fin n) (trace : List (Event η)) (moments : List (State n η))
    (seen : List (Entry η)) : Prop where
  distinct : (seen.map (·.key)).Nodup
  sound : ∀ e ∈ seen, ∃ m ∈ moments, m.whole.lookup e.key = some e
  complete : ∀ key, ∃ m ∈ moments, ∀ e, m.whole.lookup key = some e → e ∈ seen
  inserted : ∀ e ∈ seen, ticket e ∈ insertions trace

theorem Listing.faithful (h : Listing home order s during moments seen s')
    (hpast : Run policy home past s) (horder : order.Perm (List.finRange n)) :
    Faithful home (past ++ during) moments seen := by
  have hnodup : order.Nodup := horder.nodup_iff.mpr (List.nodup_finRange n)
  have hall : ∀ i, i ∈ order := fun i => horder.mem_iff.mpr (List.mem_finRange i)
  obtain ⟨moment, hmoment, hseen⟩ := h.reads hnodup
  have hkept : ∀ i, ∃ trace', Kept home trace' (moment i) ∧
      insertions trace' ⊆ insertions (past ++ during) := by
    intro i
    obtain ⟨trace', hrun, hsub⟩ := h.moment_run hpast (moment i) (hmoment i (hall i))
    exact ⟨trace', hrun.kept, hsub⟩
  have hhomed : ∀ i, ∀ e ∈ (moment i).shard i, home e.key = i := fun i =>
    let ⟨_, hk, _⟩ := hkept i
    hk.homed i
  have hread : ∀ e, e ∈ seen ↔ e ∈ (moment (home e.key)).shard (home e.key) := by
    intro e
    rw [hseen.mem_iff, List.mem_flatMap]
    constructor
    · rintro ⟨i, _, he⟩
      have hhome := hhomed i e he
      subst hhome
      exact he
    · intro he
      exact ⟨home e.key, hall _, he⟩
  refine ⟨?_, fun e he => ?_, fun key => ?_, fun e he => ?_⟩
  · rw [(hseen.map _).nodup_iff]
    exact nodup_keys_of_homed hnodup hhomed fun i =>
      let ⟨_, hk, _⟩ := hkept i
      hk.distinct i
  · obtain ⟨trace', hk, _⟩ := hkept (home e.key)
    have hlookup := (hk.lookup_whole_iff e.key e).mpr ⟨(hread e).mp he, rfl⟩
    exact ⟨moment (home e.key), hmoment _ (hall _), hlookup⟩
  · obtain ⟨trace', hk, _⟩ := hkept (home key)
    refine ⟨moment (home key), hmoment _ (hall _), fun e hlookup => ?_⟩
    obtain ⟨he, rfl⟩ := (hk.lookup_whole_iff key e).mp hlookup
    exact (hread e).mpr he
  · obtain ⟨trace', hk, hsub⟩ := hkept (home e.key)
    exact hsub (hk.ticket_mem_insertions ((hread e).mp he))

end Listing

section Order
variable {l l' : List Ticket} {seen : List (Entry η)}

/-- Among tickets in the order of their numbers, some that are in that order too are a sublist. -/
theorem sublist_of_rising (hsub : l ⊆ l') (hl : l.Pairwise (·.2 < ·.2))
    (hl' : l'.Pairwise (·.2 < ·.2)) : l.Sublist l' := by
  have hasymm : Std.Antisymm fun (t t' : Ticket) => t.2 < t'.2 :=
    ⟨fun t t' h h' => absurd h (Nat.lt_asymm h')⟩
  have hnodup : l.Nodup := hl.imp fun {t t'} hlt heq => absurd (heq ▸ hlt) (Nat.lt_irrefl _)
  exact List.sublist_of_subperm_of_pairwise (List.subperm_of_subset hnodup hsub) hl hl'

/-- Sorting entries by their numbers restores the order in which their tickets were given. -/
theorem sorted_tickets_sublist (hkeys : (seen.map (·.key)).Nodup)
    (hmem : ∀ e ∈ seen, ticket e ∈ l) (hl : l.Pairwise (·.2 < ·.2)) :
    ((seen.mergeSort fun a b => a.sequence ≤ b.sequence).map ticket).Sublist l := by
  have hperm := List.mergeSort_perm seen fun a b => a.sequence ≤ b.sequence
  have hnumbers : (l.map Prod.snd).Nodup := List.pairwise_map.mpr (hl.imp Nat.ne_of_lt)
  have hne : (seen.mergeSort fun a b => a.sequence ≤ b.sequence).Pairwise (·.key ≠ ·.key) :=
    List.pairwise_map.mp ((hperm.map _).nodup_iff.mpr hkeys)
  have hsub : (seen.mergeSort fun a b => a.sequence ≤ b.sequence).map ticket ⊆ l := by
    intro t ht
    obtain ⟨e, he, rfl⟩ := List.mem_map.mp ht
    exact hmem e (hperm.subset he)
  refine sublist_of_rising hsub (List.pairwise_map.mpr ?_) hl
  refine ((pairwise_mergeSort_sequence seen).and hne).imp_of_mem fun {a b} ha hb hab => ?_
  obtain ⟨hle, hkey⟩ := hab
  refine Nat.lt_of_le_of_ne hle fun heq => hkey ?_
  have hticket : ticket a = ticket b :=
    List.inj_on_of_nodup_map hnumbers (hmem a (hperm.subset ha)) (hmem b (hperm.subset hb)) heq
  exact congrArg Prod.fst hticket

end Order

/-- A listing of the keys that mixes with the steps of others shows each key at most once, every key
that stays, and only keys that were there at one of the moments. Its order is that of the insertions
that were observed, so two keys that stay come in the order in which they were inserted. -/
theorem listing_is_weak_snapshot (policy : DuplicatePolicy) (home : String → Fin n)
    (past during : List (Event η)) (s s' : State n η) (order : List (Fin n))
    (moments : List (State n η)) (seen : List (Entry η)) (hpast : Run policy home past s)
    (horder : order.Perm (List.finRange n))
    (h : Listing home order s during moments seen s') :
    (Scope.all (s'.shown seen)).keys = (s'.shown seen).keys ∧
    (s'.shown seen).keys.Nodup ∧
    (∀ t, Stays moments t → t.1 ∈ (s'.shown seen).keys) ∧
    (∀ key ∈ (s'.shown seen).keys, ∃ m ∈ moments, m.whole.contains key = true) ∧
    (∃ observed : List Ticket, (s'.shown seen).keys = observed.map Prod.fst ∧
      observed.Sublist (insertions (past ++ during)) ∧
      (∀ t ∈ observed, ∃ m ∈ moments, ∃ e, m.whole.lookup t.1 = some e ∧ e.sequence = t.2) ∧
      ∀ t, Stays moments t → t ∈ observed) ∧
    ∀ t t', Stays moments t → Stays moments t' →
      [t, t'].Sublist (insertions (past ++ during)) →
      [t.1, t'.1].Sublist (s'.shown seen).keys := by
  have hfaithful := h.faithful hpast horder
  have hrise := (h.run hpast).kept.insertions_rise
  have hperm := List.mergeSort_perm seen fun a b => a.sequence ≤ b.sequence
  set sorted := seen.mergeSort fun a b => a.sequence ≤ b.sequence
  have hkeys : (s'.shown seen).keys = sorted.map (·.key) := rfl
  have htickets : sorted.map (·.key) = (sorted.map ticket).map Prod.fst := by
    rw [List.map_map]
    rfl
  have hobserved : (sorted.map ticket).Sublist (insertions (past ++ during)) :=
    sorted_tickets_sublist hfaithful.distinct hfaithful.inserted hrise
  have hstays : ∀ t, Stays moments t → t ∈ sorted.map ticket := by
    intro t ht
    obtain ⟨m, hm, hcomplete⟩ := hfaithful.complete t.1
    obtain ⟨e, hlookup, hnumber⟩ := ht m hm
    have hkey : e.key = t.1 := by simpa using List.find?_some hlookup
    have hmem := hperm.symm.subset (hcomplete e hlookup)
    exact List.mem_map.mpr ⟨e, hmem, Prod.ext hkey hnumber⟩
  have hlive : ∀ t ∈ sorted.map ticket,
      ∃ m ∈ moments, ∃ e, m.whole.lookup t.1 = some e ∧ e.sequence = t.2 := by
    intro t ht
    obtain ⟨e, he, rfl⟩ := List.mem_map.mp ht
    obtain ⟨m, hm, hlookup⟩ := hfaithful.sound e (hperm.subset he)
    exact ⟨m, hm, e, hlookup, rfl⟩
  rw [hkeys, htickets]
  refine ⟨htickets, ?_, fun t ht => ?_, fun key hkey => ?_, ⟨_, rfl, hobserved, hlive, hstays⟩,
    fun t t' ht ht' hin => ?_⟩
  · rw [← htickets]
    exact (hperm.map _).nodup_iff.mpr hfaithful.distinct
  · exact List.mem_map_of_mem (hstays t ht)
  · obtain ⟨t, ht, rfl⟩ := List.mem_map.mp hkey
    obtain ⟨m, hm, e, hlookup, _⟩ := hlive t ht
    refine ⟨m, hm, ?_⟩
    rw [Registry.contains, hlookup]
    rfl
  · have hpair : [t, t'] ⊆ sorted.map ticket :=
      List.cons_subset.mpr ⟨hstays t ht, List.cons_subset.mpr ⟨hstays t' ht', List.nil_subset _⟩⟩
    have hboth : [t, t'].Sublist (sorted.map ticket) :=
      sublist_of_rising hpair (hrise.sublist hin) (hrise.sublist hobserved)
    exact hboth.map Prod.fst

/-- Between the two reads one key is removed behind the listing, and another is removed and inserted
again ahead of it. -/
theorem listing_is_weak_snapshot_reinserted :
    ∃ (past during : List (Event ℕ)) (s s' : State 2 ℕ) (moments : List (State 2 ℕ))
      (seen : List (Entry ℕ)),
      (Run .reject (fun key => if key = "a" then 0 else 1) past s ∧
        Listing (fun key => if key = "a" then 0 else 1) [1, 0] s during moments seen s' ∧
        insertions (past ++ during) = [("a", 0), ("b", 1), ("c", 2), ("a", 3)] ∧
        seen.map ticket = [("c", 2), ("b", 1), ("a", 3)] ∧
        s'.whole.entries.map ticket = [("a", 3), ("c", 2)] ∧ Stays moments ("c", 2)) ∧
      (s'.shown seen).keys.Nodup ∧ "c" ∈ (s'.shown seen).keys := by
  have hrun : ∃ (past during : List (Event ℕ)) (s s' : State 2 ℕ) (moments : List (State 2 ℕ))
      (seen : List (Entry ℕ)),
      Run .reject (fun key => if key = "a" then 0 else 1) past s ∧
        Listing (fun key => if key = "a" then 0 else 1) [1, 0] s during moments seen s' ∧
        insertions (past ++ during) = [("a", 0), ("b", 1), ("c", 2), ("a", 3)] ∧
        seen.map ticket = [("c", 2), ("b", 1), ("a", 3)] ∧
        s'.whole.entries.map ticket = [("a", 3), ("c", 2)] ∧ Stays moments ("c", 2) := by
    have h₀ : Run .reject (fun key => if key = "a" then 0 else 1) []
        ({ policy := .reject } : State 2 ℕ) := .start
    have h₁ := h₀.step (.insert (rfl : (State.view _ _).register "a" 1 = _))
    have h₂ := h₁.step (.insert (rfl : (State.view _ _).register "b" 2 = _))
    have hpast := h₂.step (.insert (rfl : (State.view _ _).register "c" 3 = _))
    refine ⟨_, _, _, _, _, _, hpast, .next (.refl _) (.step (.unregister _ "b")
      (.step (.unregister _ "a") (.step (.insert (rfl : (State.view _ _).register "a" 4 = _))
        (.none _)))) (.last _ 0 (.refl _)), rfl, rfl, rfl, ?_⟩
    refine List.forall_mem_cons.mpr ⟨⟨_, rfl, rfl⟩, List.forall_mem_cons.mpr ⟨⟨_, rfl, rfl⟩, ?_⟩⟩
    refine List.forall_mem_cons.mpr ⟨⟨_, rfl, rfl⟩, List.forall_mem_cons.mpr ⟨⟨_, rfl, rfl⟩, ?_⟩⟩
    exact List.forall_mem_singleton.mpr ⟨_, rfl, rfl⟩
  obtain ⟨past, during, s, s', moments, seen, hrun⟩ := hrun
  obtain ⟨_, hnodup, hall, _⟩ :=
    listing_is_weak_snapshot _ _ _ _ _ _ _ _ _ hrun.1 (.swap 0 1 []) hrun.2.1
  exact ⟨past, during, s, s', moments, seen, hrun, hnodup, hall _ hrun.2.2.2.2.2⟩

end PatternHooks.ShardedRegistry
