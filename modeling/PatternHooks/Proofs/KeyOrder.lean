import Mathlib.Data.List.FinRange
import Mathlib.Data.List.Perm.Basic
import Mathlib.Logic.Equiv.Basic
import PatternHooks.Proofs.RegistryCalls
import PatternHooks.Proofs.RegistryRoll

/-!
The order of calls on different keys. What a call on a key comes to depends on the policy, the hooks
under that key and the call, and it leaves what is under other keys. So the calls on each key make a
history of their own, and histories that have the same calls on every key in the same order cannot
be told apart, but for the order in which new keys were numbered.
-/

namespace PatternHooks.KeyOrder

open RegistryCalls

variable {η σ γ : Type}

/-- A call on one key. -/
abbrev Call (η : Type) := {c : Change η // c ≠ .clear}

theorem isSome_key? {c : Change η} (h : c ≠ .clear) : c.key?.isSome := by
  cases c with
  | register key hooks => rfl
  | unregister key => rfl
  | clear => exact absurd rfl h

def Call.key (c : Call η) : String := c.1.key?.get (isSome_key? c.2)

/-- Makes a call. Of an entry that was removed the hooks are told. -/
def perform (w : World η σ) (c : Call η) : Reply η × World η σ :=
  ((c.1.perform w).1.map Entry.hooks, (c.1.perform w).2)

/-- All answers in order, and the world at the end. -/
def performAll : World η σ → List (Call η) → List (Reply η) × World η σ
  | w, [] => ([], w)
  | w, c :: calls =>
    ((perform w c).1 :: (performAll (perform w c).2 calls).1,
      (performAll (perform w c).2 calls).2)

/-- The hooks that a registry has under a key. -/
def held (key : String) (r : Registry η) : List η :=
  (r.entries.filter (·.key == key)).map Entry.hooks

/-- What a registration comes to when these are the hooks under its key. -/
def respondRegister (policy : DuplicatePolicy) (under : List η) (key : String) (hooks : η) :
    Reply η × List η :=
  match Registry.checkKey key with
  | .error e => (.registered (.error e), under)
  | .ok () =>
    if under = [] then (.registered (.ok ()), [hooks])
    else
      match policy with
      | .reject => (.registered (.error (.taken key)), under)
      | .replace => (.registered (.ok ()), under.map fun _ => hooks)

/-- What a call comes to when these are the hooks under its key. -/
def respond (policy : DuplicatePolicy) (under : List η) : Change η → Reply η × List η
  | .register key hooks => respondRegister policy under key hooks
  | .unregister _ => (.removed under.head?, [])
  | .clear => (.emptied under.length, [])

def respondAll (policy : DuplicatePolicy) : List η → List (Call η) → List (Reply η) × List η
  | under, [] => ([], under)
  | under, c :: calls =>
    ((respond policy under c.1).1 :: (respondAll policy (respond policy under c.1).2 calls).1,
      (respondAll policy (respond policy under c.1).2 calls).2)

section Held
variable (r : Registry η) {key other : String} (hooks : η)

theorem map_lookup (key : String) : (r.lookup key).map Entry.hooks = (held key r).head? := by
  rw [held, List.head?_map, List.head?_filter, Registry.lookup]

theorem held_eq_nil_iff (key : String) : held key r = [] ↔ r.contains key = false := by
  rw [RegistryRoll.contains_eq_false_iff, held, List.map_eq_nil_iff, List.filter_eq_nil_iff]
  simp only [beq_iff_eq]

theorem held_insert_self : held key (r.insert key hooks) = hooks :: held key r := by
  simp [held, Registry.insert]

theorem held_insert_of_ne (hne : key ≠ other) :
    held other (r.insert key hooks) = held other r := by
  simp [held, Registry.insert, hne]

/-- A substitution leaves all entries under their keys. -/
theorem held_substitute (key other : String) : held other (r.substitute key hooks) =
    (r.entries.filter (·.key == other)).map fun e => if e.key = key then hooks else e.hooks := by
  rw [held, Registry.substitute, List.filter_map, List.map_map]
  have hkeys : ((·.key == other) ∘ fun e : Entry η => if e.key = key then { e with hooks } else e) =
      (·.key == other) := by
    funext e
    by_cases he : e.key = key <;> simp [he]
  rw [hkeys]
  refine List.map_congr_left fun e _ => ?_
  by_cases he : e.key = key <;> simp [he]

theorem held_substitute_self :
    held key (r.substitute key hooks) = (held key r).map fun _ => hooks := by
  rw [held_substitute, held, List.map_map]
  refine List.map_congr_left fun e he => ?_
  exact if_pos (beq_iff_eq.mp (List.mem_filter.mp he).2)

theorem held_substitute_of_ne (hne : key ≠ other) :
    held other (r.substitute key hooks) = held other r := by
  rw [held_substitute, held]
  refine List.map_congr_left fun e he => ?_
  exact if_neg fun hkey => hne (hkey.symm.trans (beq_iff_eq.mp (List.mem_filter.mp he).2))

theorem held_unregister_self : held key (r.unregister key).2 = [] := by
  simp [held, Registry.unregister, List.filter_filter]

theorem held_unregister_of_ne (hne : key ≠ other) :
    held other (r.unregister key).2 = held other r := by
  rw [held, Registry.unregister, List.filter_filter, held]
  congr 2
  funext e
  by_cases he : e.key = other
  · simp [he, Ne.symm hne]
  · simp [he]

end Held

section Step
variable (w : World η σ)

/-- A registration changes nothing, or it puts its hooks into the entry of its key or adds one. -/
theorem registry_register_cases (key : String) (hooks : η) :
    (w.register key hooks).2.registry = w.registry ∨
      (w.register key hooks).2.registry = w.registry.substitute key hooks ∨
      (w.register key hooks).2.registry = w.registry.insert key hooks := by
  rcases RegistryRoll.register_cases w.registry key hooks with ⟨_, hr⟩ | ⟨_, _, _, hr⟩ |
    ⟨_, _, _, hr⟩ | ⟨_, _, hr⟩
  · exact .inl (by rw [World.register, hr])
  · exact .inl (by rw [World.register, hr])
  · exact .inr (.inl (by rw [World.register, hr]; rfl))
  · exact .inr (.inr (by rw [World.register, hr]; rfl))

/-- A registration is answered by what is under its key. -/
theorem register_respond (key : String) (hooks : η) :
    .registered (w.register key hooks).1 =
      (respondRegister w.registry.policy (held key w.registry) key hooks).1 ∧
    held key (w.register key hooks).2.registry =
      (respondRegister w.registry.policy (held key w.registry) key hooks).2 := by
  have hempty := held_eq_nil_iff w.registry key
  cases hcheck : Registry.checkKey key with
  | error e => simp [respondRegister, World.register, Registry.register, hcheck]
  | ok u =>
    cases hcontains : w.registry.contains key with
    | false =>
      have hnone := hempty.mpr hcontains
      simp [respondRegister, World.register, Registry.register, hcheck, hcontains, hnone,
        World.setRegistry, held_insert_self]
    | true =>
      have hsome : held key w.registry ≠ [] := fun hnil => by simp [hempty.mp hnil] at hcontains
      cases hpolicy : w.registry.policy with
      | reject =>
        simp [respondRegister, World.register, Registry.register, hcheck, hcontains, hsome,
          hpolicy]
      | replace =>
        simp [respondRegister, World.register, Registry.register, hcheck, hcontains, hsome,
          hpolicy, World.setRegistry, held_substitute_self]

/-- And so is any call. -/
theorem perform_respond (c : Call η) :
    (perform w c).1 = (respond w.registry.policy (held c.key w.registry) c.1).1 ∧
      held c.key (perform w c).2.registry =
        (respond w.registry.policy (held c.key w.registry) c.1).2 := by
  obtain ⟨c, hc⟩ := c
  cases c with
  | register key hooks => exact register_respond w key hooks
  | unregister key =>
    refine ⟨?_, ?_⟩
    · have hhead : (w.unregister key).1.map Entry.hooks = (held key w.registry).head? := by
        rw [World.fst_unregister, map_lookup]
      exact congrArg Reply.removed hhead
    · change held key (w.unregister key).2.registry = []
      rw [World.registry_unregister]
      exact held_unregister_self w.registry
  | clear => exact absurd rfl hc

/-- A call leaves what is under other keys. -/
theorem perform_of_ne (c : Call η) {key : String} (hne : c.key ≠ key) :
    held key (perform w c).2.registry = held key w.registry := by
  obtain ⟨c, hc⟩ := c
  cases c with
  | register other hooks =>
    change held key (w.register other hooks).2.registry = held key w.registry
    rcases registry_register_cases w other hooks with hr | hr | hr
    · rw [hr]
    · rw [hr]
      exact held_substitute_of_ne w.registry hooks hne
    · rw [hr]
      exact held_insert_of_ne w.registry hooks hne
  | unregister other =>
    change held key (w.unregister other).2.registry = held key w.registry
    rw [World.registry_unregister]
    exact held_unregister_of_ne w.registry hne
  | clear => exact absurd rfl hc

theorem policy_perform (c : Call η) : (perform w c).2.registry.policy = w.registry.policy := by
  obtain ⟨c, hc⟩ := c
  cases c with
  | register key hooks =>
    change (w.register key hooks).2.registry.policy = w.registry.policy
    rcases registry_register_cases w key hooks with hr | hr | hr <;> rw [hr] <;> rfl
  | unregister key =>
    change (w.unregister key).2.registry.policy = w.registry.policy
    rw [World.registry_unregister]
    rfl
  | clear => exact absurd rfl hc

end Step

section Run

theorem length_performAll (w : World η σ) (calls : List (Call η)) :
    (performAll w calls).1.length = calls.length := by
  induction calls generalizing w with
  | nil => rfl
  | cons c calls ih => rw [performAll, List.length_cons, ih, List.length_cons]

/-- The calls on a key are answered as if they were the only ones. The calls may carry tags. -/
theorem performAll_under (w : World η σ) (calls : List (γ × Call η)) (key : String) :
    (calls.zip (performAll w (calls.map Prod.snd)).1).filter (fun x => x.1.2.key = key) =
      (calls.filter fun c => c.2.key = key).zip (respondAll w.registry.policy (held key w.registry)
        ((calls.filter fun c => c.2.key = key).map Prod.snd)).1 ∧
    held key (performAll w (calls.map Prod.snd)).2.registry =
      (respondAll w.registry.policy (held key w.registry)
        ((calls.filter fun c => c.2.key = key).map Prod.snd)).2 := by
  induction calls generalizing w with
  | nil => exact ⟨rfl, rfl⟩
  | cons c calls ih =>
    obtain ⟨hanswers, hheld⟩ := ih (perform w c.2).2
    rw [policy_perform] at hanswers hheld
    rw [List.map_cons, performAll, List.zip_cons_cons]
    by_cases hkey : c.2.key = key
    · subst hkey
      obtain ⟨hanswer, hunder⟩ := perform_respond w c.2
      rw [hunder] at hanswers hheld
      rw [List.filter_cons_of_pos (by simp), List.filter_cons_of_pos (by simp), List.map_cons,
        respondAll, List.zip_cons_cons, hanswers, hanswer]
      exact ⟨rfl, hheld⟩
    · rw [perform_of_ne w c.2 hkey] at hanswers hheld
      rw [List.filter_cons_of_neg (by simpa using hkey),
        List.filter_cons_of_neg (by simpa using hkey)]
      exact ⟨hanswers, hheld⟩

end Run

section Listing
variable {r₁ r₂ : Registry η}

open Classical in
theorem count_held (es : List (Entry η)) (key : String) (hooks : η) :
    (es.map fun e => (e.key, e.hooks)).count (key, hooks) =
      ((es.filter (·.key == key)).map Entry.hooks).count hooks := by
  induction es with
  | nil => rfl
  | cons e es ih =>
    rw [List.map_cons, List.count_cons, ih]
    by_cases hkey : e.key = key
    · rw [List.filter_cons_of_pos (by simpa using hkey), List.map_cons, List.count_cons]
      simp [hkey]
    · rw [List.filter_cons_of_neg (by simpa using hkey)]
      simp [hkey]

/-- Registries with the same hooks under all keys have the same entries, but for their order and
their numbers. -/
theorem perm_of_held_eq (h : ∀ key, held key r₁ = held key r₂) :
    (r₁.entries.map fun e => (e.key, e.hooks)).Perm (r₂.entries.map fun e => (e.key, e.hooks)) := by
  classical
  refine List.perm_iff_count.mpr fun x => ?_
  have hcount := congrArg (List.count x.2) (h x.1)
  rw [held, held, ← count_held, ← count_held] at hcount
  exact hcount

theorem keys_perm_of_held_eq (h : ∀ key, held key r₁ = held key r₂) : r₁.keys.Perm r₂.keys := by
  have hsorted : ∀ r : Registry η, r.keys.Perm (r.entries.map Entry.key) := fun r =>
    (List.mergeSort_perm r.entries _).map _
  have hentries := (perm_of_held_eq h).map Prod.fst
  rw [List.map_map, List.map_map] at hentries
  exact (hsorted r₁).trans (hentries.trans (hsorted r₂).symm)

end Listing

/-- An order-preserving way from some positions of a list to some of another lists the latter in
order. -/
theorem map_filter_finRange {m n : ℕ} (move : Fin m ≃ Fin n) (p : Fin m → Bool) (q : Fin n → Bool)
    (hq : ∀ i, q (move i) = p i)
    (hrises : ∀ i j, p i = true → p j = true → i < j → move i < move j) :
    ((List.finRange m).filter p).map move = (List.finRange n).filter q := by
  have hrising : (((List.finRange m).filter p).map move).Pairwise (· < ·) := by
    refine List.pairwise_map.mpr (((List.pairwise_lt_finRange m).filter _).imp_of_mem ?_)
    intro i j hi hj hij
    exact hrises i j (List.mem_filter.mp hi).2 (List.mem_filter.mp hj).2 hij
  have hrising' : ((List.finRange n).filter q).Pairwise (· < ·) :=
    (List.pairwise_lt_finRange n).filter _
  have hperm : (((List.finRange m).filter p).map move).Perm ((List.finRange n).filter q) := by
    refine (List.perm_ext_iff_of_nodup (hrising.imp ne_of_lt) (hrising'.imp ne_of_lt)).mpr ?_
    intro j
    constructor
    · intro hj
      obtain ⟨i, hi, rfl⟩ := List.mem_map.mp hj
      exact List.mem_filter.mpr ⟨List.mem_finRange _, (hq i).trans (List.mem_filter.mp hi).2⟩
    · intro hj
      refine List.mem_map.mpr ⟨move.symm j, List.mem_filter.mpr ⟨List.mem_finRange _, ?_⟩,
        move.apply_symm_apply j⟩
      rw [← hq, move.apply_symm_apply]
      exact (List.mem_filter.mp hj).2
  exact hperm.eq_of_pairwise (fun a b _ _ hab hba => absurd hab (lt_asymm hba)) hrising hrising'

section Histories
variable {calls₁ calls₂ : List (Call η)} {move : Fin calls₁.length ≃ Fin calls₂.length}

/-- The calls of a history, each with its position in another. -/
def tagged (calls : List (Call η)) {m : ℕ} (position : Fin calls.length → Fin m) :
    List (Fin m × Call η) :=
  (List.finRange calls.length).map fun i => (position i, calls[i])

theorem map_snd_tagged (calls : List (Call η)) {m : ℕ} (position : Fin calls.length → Fin m) :
    (tagged calls position).map Prod.snd = calls := by
  rw [tagged, List.map_map]
  exact List.map_get_finRange calls

theorem mem_zip_tagged {calls : List (Call η)} {m : ℕ} {position : Fin calls.length → Fin m}
    {answers : List (Reply η)} {k : Fin m} {c : Call η} {a : Reply η} :
    ((k, c), a) ∈ (tagged calls position).zip answers ↔
      ∃ i, position i = k ∧ calls[i] = c ∧ answers[i]? = some a := by
  rw [List.mem_iff_getElem?]
  constructor
  · rintro ⟨i, hi⟩
    obtain ⟨hcall, hanswer⟩ := List.getElem?_zip_eq_some.mp hi
    obtain ⟨hlt, hi⟩ := List.getElem?_eq_some_iff.mp hcall
    simp only [tagged, List.length_map, List.length_finRange] at hlt
    simp only [tagged, List.getElem_map, List.getElem_finRange, Prod.mk.injEq] at hi
    exact ⟨⟨i, hlt⟩, hi.1, hi.2, hanswer⟩
  · rintro ⟨i, rfl, rfl, hanswer⟩
    refine ⟨i, List.getElem?_zip_eq_some.mpr ⟨?_, hanswer⟩⟩
    simp [tagged]

/-- If the calls on a key keep their order, they are the same with the same positions. -/
theorem tagged_under (hcalls : ∀ i, calls₂[move i] = calls₁[i])
    (horder : ∀ i j, calls₁[i].key = calls₁[j].key → i < j → move i < move j) (key : String) :
    (tagged calls₁ move).filter (fun c => c.2.key = key) =
      (tagged calls₂ id).filter fun c => c.2.key = key := by
  have hpositions := map_filter_finRange move (fun i => decide (calls₁[i].key = key))
    (fun j => decide (calls₂[j].key = key)) (fun i => by rw [hcalls i]) fun i j hi hj =>
      horder i j ((of_decide_eq_true hi).trans (of_decide_eq_true hj).symm)
  rw [tagged, tagged, List.filter_map, List.filter_map]
  calc ((List.finRange calls₁.length).filter
          fun i : Fin calls₁.length => decide (calls₁[i].key = key)).map
          (fun i => (move i, calls₁[i]))
      = (((List.finRange calls₁.length).filter
          fun i : Fin calls₁.length => decide (calls₁[i].key = key)).map move).map
          fun j => (j, calls₂[j]) := by
        rw [List.map_map]
        exact List.map_congr_left fun i _ => congrArg (Prod.mk (move i)) (hcalls i).symm
    _ = _ := by
        rw [hpositions]
        rfl

theorem performAll_reordered (hcalls : ∀ i, calls₂[move i] = calls₁[i])
    (horder : ∀ i j, calls₁[i].key = calls₁[j].key → i < j → move i < move j) (w : World η σ)
    (key : String) :
    ((tagged calls₁ move).zip (performAll w calls₁).1).filter (fun x => x.1.2.key = key) =
      ((tagged calls₂ id).zip (performAll w calls₂).1).filter (fun x => x.1.2.key = key) ∧
    held key (performAll w calls₁).2.registry = held key (performAll w calls₂).2.registry := by
  obtain ⟨hanswers₁, hheld₁⟩ := performAll_under w (tagged calls₁ move) key
  obtain ⟨hanswers₂, hheld₂⟩ := performAll_under w (tagged calls₂ id) key
  rw [map_snd_tagged] at hanswers₁ hheld₁ hanswers₂ hheld₂
  rw [hanswers₁, hheld₁, hanswers₂, hheld₂, tagged_under hcalls horder key]
  exact ⟨rfl, rfl⟩

theorem answer_reordered (hcalls : ∀ i, calls₂[move i] = calls₁[i])
    (horder : ∀ i j, calls₁[i].key = calls₁[j].key → i < j → move i < move j) (w : World η σ)
    (i : Fin calls₁.length) : (performAll w calls₂).1[move i]? = (performAll w calls₁).1[i]? := by
  have hlt : i.val < (performAll w calls₁).1.length :=
    (length_performAll w calls₁).symm ▸ i.isLt
  obtain ⟨a, hanswer⟩ : ∃ a, (performAll w calls₁).1[i]? = some a :=
    ⟨_, List.getElem?_eq_getElem hlt⟩
  have hmem : ((move i, calls₁[i]), a) ∈ (tagged calls₁ move).zip (performAll w calls₁).1 :=
    mem_zip_tagged.mpr ⟨i, rfl, rfl, hanswer⟩
  -- Among the calls on its key the call has kept its position, and so its answer.
  have hunder : ((move i, calls₁[i]), a) ∈ ((tagged calls₁ move).zip (performAll w calls₁).1).filter
      (fun x => x.1.2.key = calls₁[i].key) := List.mem_filter.mpr ⟨hmem, decide_eq_true rfl⟩
  rw [(performAll_reordered hcalls horder w calls₁[i].key).1] at hunder
  obtain ⟨j, hj, _, hsame⟩ := mem_zip_tagged.mp (List.mem_filter.mp hunder).1
  rw [hanswer, ← hsame, ← hj]
  rfl

end Histories

/-- Calls on different keys commute. If one history of calls is the other in another order, and the
calls on each key keep their order, then from the same registry each call is answered as in the
other history, with the same reason for a refusal and the same removed hooks; and in the end each
key has the same hooks or none, the registry has the same size, and it lists the same keys. -/
theorem calls_on_different_keys_commute (w : World η σ) (calls₁ calls₂ : List (Call η))
    (move : Fin calls₁.length ≃ Fin calls₂.length) (hcalls : ∀ i, calls₂[move i] = calls₁[i])
    (horder : ∀ i j, calls₁[i].key = calls₁[j].key → i < j → move i < move j) :
    ∃ answers₁ w₁ answers₂ w₂, performAll w calls₁ = (answers₁, w₁) ∧
      performAll w calls₂ = (answers₂, w₂) ∧ answers₁.length = calls₁.length ∧
      answers₂.length = calls₂.length ∧ (∀ i, answers₂[move i]? = answers₁[i]?) ∧
      (∀ key, (w₁.registry.lookup key).map Entry.hooks =
        (w₂.registry.lookup key).map Entry.hooks) ∧
      w₁.registry.size = w₂.registry.size ∧ w₁.registry.keys.Perm w₂.registry.keys := by
  have hheld := fun key => (performAll_reordered hcalls horder w key).2
  refine ⟨_, _, _, _, rfl, rfl, length_performAll w calls₁, length_performAll w calls₂,
    answer_reordered hcalls horder w, fun key => ?_, ?_, keys_perm_of_held_eq hheld⟩
  · rw [map_lookup, map_lookup, hheld key]
  · have hentries := (perm_of_held_eq hheld).length_eq
    rwa [List.length_map, List.length_map] at hentries

/-- A registry in which one key is taken. -/
def stocked : World ℕ Unit where
  registry := (Registry.empty .reject).insert "b" 9
  own := ()

/-- Calls on three keys, one of which is unusable. -/
def mixed : List (Call ℕ) :=
  [⟨.register "a" 1, nofun⟩, ⟨.unregister "b", nofun⟩, ⟨.register " " 5, nofun⟩,
    ⟨.register "b" 2, nofun⟩]

def remixed : List (Call ℕ) :=
  [⟨.unregister "b", nofun⟩, ⟨.register "b" 2, nofun⟩, ⟨.register "a" 1, nofun⟩,
    ⟨.register " " 5, nofun⟩]

def remix : Fin 4 ≃ Fin 4 where
  toFun
    | 0 => 2
    | 1 => 0
    | 2 => 3
    | 3 => 1
  invFun
    | 0 => 1
    | 1 => 3
    | 2 => 0
    | 3 => 2
  left_inv i := by revert i; decide
  right_inv i := by revert i; decide

theorem calls_on_different_keys_commute_remixed :
    (∀ i : Fin 4, remixed[remix i] = mixed[i]) ∧
      (∀ i j : Fin 4, mixed[i].key = mixed[j].key → i < j → remix i < remix j) ∧
      ∃ answers₁ w₁ answers₂ w₂, performAll stocked mixed = (answers₁, w₁) ∧
        performAll stocked remixed = (answers₂, w₂) ∧
        (∀ i : Fin 4, answers₂[remix i]? = answers₁[i]?) ∧
        answers₁ = [.registered (.ok ()), .removed (some 9),
          .registered (.error (.unusableKey " ")), .registered (.ok ())] ∧
        w₁.registry.lookup "a" = some ⟨"a", 1, 1⟩ ∧ w₂.registry.lookup "a" = some ⟨"a", 1, 2⟩ ∧
        w₁.registry.keys.Perm w₂.registry.keys := by
  have hcalls : ∀ i : Fin 4, remixed[remix i] = mixed[i] := by decide +kernel
  have horder : ∀ i j : Fin 4, mixed[i].key = mixed[j].key → i < j → remix i < remix j := by
    decide +kernel
  obtain ⟨answers₁, w₁, answers₂, w₂, hrun₁, hrun₂, _, _, hanswers, _, _, hkeys⟩ :=
    calls_on_different_keys_commute stocked mixed remixed remix hcalls horder
  have hentry₁ : (performAll stocked mixed).2.registry.lookup "a" = some ⟨"a", 1, 1⟩ := rfl
  have hentry₂ : (performAll stocked remixed).2.registry.lookup "a" = some ⟨"a", 1, 2⟩ := rfl
  rw [hrun₁] at hentry₁
  rw [hrun₂] at hentry₂
  exact ⟨hcalls, horder, _, _, _, _, hrun₁, hrun₂, hanswers, (congrArg Prod.fst hrun₁).symm,
    hentry₁, hentry₂, hkeys⟩

end PatternHooks.KeyOrder
