import Mathlib.Data.List.Nodup
import PatternHooks.Registry

/-!
A roll is a list of entries in the order in which their keys were appended, with the number of keys
appended so far. A registry agrees with a roll when it holds the same entries in whatever order, and
counts what the roll counts. Every operation of the registry keeps up with its operation on the
roll, and each look at the registry shows what the roll shows: its order is that of the sequence
numbers, which never come twice.
-/

namespace PatternHooks.RegistryRoll

variable {η : Type}

/-- The keys that can be registered. -/
def Usable (key : String) : Prop :=
  key ≠ "" ∧ ∀ c ∈ key.toList, Text.isBlank c = false ∧ Text.isControl c = false

-- This instance goes through the characters of the key; a general one may go through all there are.
instance (key : String) : Decidable (Usable key) :=
  decidable_of_iff
    (key ≠ "" ∧ key.toList.all (fun c => !Text.isBlank c && !Text.isControl c) = true)
    (by simp [Usable])

/-- Among entries with distinct keys a key is found exactly at its entry. -/
theorem find?_key_eq_some_iff {es : List (Entry η)} (hd : (es.map (·.key)).Nodup) (key : String)
    (e : Entry η) : es.find? (·.key == key) = some e ↔ e ∈ es ∧ e.key = key := by
  constructor
  · intro he
    exact ⟨List.mem_of_find?_eq_some he, by simpa using List.find?_some he⟩
  · intro h
    obtain ⟨hmem, rfl⟩ := h
    cases hfound : es.find? (·.key == e.key) with
    | none =>
      have hnone := List.find?_eq_none.mp hfound e hmem
      simp at hnone
    | some e' =>
      have hmem' : e' ∈ es := List.mem_of_find?_eq_some hfound
      have hkey : e'.key = e.key := by simpa using List.find?_some hfound
      rw [List.inj_on_of_nodup_map hd hmem' hmem hkey]

/-- Among entries with distinct keys the entry of a key is all that there is to remove. -/
theorem eraseP_key_eq_filter {es : List (Entry η)} (hd : (es.map (·.key)).Nodup) (key : String) :
    es.eraseP (·.key == key) = es.filter (·.key != key) := by
  induction es with
  | nil => rfl
  | cons e es ih =>
    simp only [List.map_cons, List.nodup_cons] at hd
    by_cases he : e.key = key
    · have hothers : es.filter (·.key != key) = es := by
        refine List.filter_eq_self.mpr fun e' he' => ?_
        have hne : e'.key ≠ key := fun heq =>
          hd.1 (List.mem_map.mpr ⟨e', he', heq.trans he.symm⟩)
        simpa using hne
      rw [List.eraseP_cons_of_pos (by simpa using he), List.filter_cons_of_neg (by simpa using he),
        hothers]
    · rw [List.eraseP_cons_of_neg (by simpa using he), List.filter_cons_of_pos (by simpa using he),
        ih hd.2]

theorem checkKey_of_usable {key : String} (h : Usable key) : Registry.checkKey key = .ok () := by
  unfold Registry.checkKey
  rw [if_neg h.1, if_neg]
  intro hany
  obtain ⟨c, hc, hbad⟩ := List.any_eq_true.mp hany
  simp [h.2 c hc] at hbad

/-- Why a key that is not usable is refused. -/
def unusable (key : String) : RegisterFault := if key = "" then .emptyKey else .unusableKey key

theorem kind_unusable (key : String) : (unusable key).toFault.kind = .invalidKey := by
  unfold unusable
  split <;> rfl

theorem checkKey_of_not_usable {key : String} (h : ¬ Usable key) :
    Registry.checkKey key = .error (unusable key) := by
  unfold Registry.checkKey unusable
  by_cases hempty : key = ""
  · rw [if_pos hempty, if_pos hempty]
  · rw [if_neg hempty, if_neg hempty, if_pos]
    by_contra hnone
    refine h ⟨hempty, fun c hc => ?_⟩
    simp only [List.any_eq_true, not_exists, not_and, Bool.or_eq_true, not_or,
      Bool.not_eq_true] at hnone
    exact hnone c hc

/-- What a registration can come to: a key is refused when it is unusable, and otherwise when it is
taken and the policy is to reject; the hooks of a taken key are replaced; a new key is inserted. -/
theorem register_cases (r : Registry η) (key : String) (hooks : η) :
    (¬ Usable key ∧ r.register key hooks = .error (unusable key)) ∨
    (Usable key ∧ r.contains key = true ∧ r.policy = .reject ∧
      r.register key hooks = .error (.taken key)) ∨
    (Usable key ∧ r.contains key = true ∧ r.policy = .replace ∧
      r.register key hooks = .ok (true, r.substitute key hooks)) ∨
    (Usable key ∧ r.contains key = false ∧
      r.register key hooks = .ok (false, r.insert key hooks)) := by
  by_cases hu : Usable key
  · have hcheck := checkKey_of_usable hu
    cases hc : r.contains key with
    | false => exact .inr (.inr (.inr ⟨hu, rfl, by simp [Registry.register, hcheck, hc]⟩))
    | true =>
      cases hp : r.policy with
      | reject => exact .inr (.inl ⟨hu, rfl, rfl, by simp [Registry.register, hcheck, hc, hp]⟩)
      | replace =>
        exact .inr (.inr (.inl ⟨hu, rfl, rfl, by simp [Registry.register, hcheck, hc, hp]⟩))
  · have hcheck := checkKey_of_not_usable hu
    exact .inl ⟨hu, by simp [Registry.register, hcheck]⟩

/-- A registration that replaces nothing inserts an entry for a key that has none. -/
theorem insert_of_register {r r' : Registry η} {key : String} {hooks : η}
    (h : r.register key hooks = .ok (false, r')) :
    r.contains key = false ∧ r' = r.insert key hooks := by
  rcases register_cases r key hooks with ⟨_, hr⟩ | ⟨_, _, _, hr⟩ | ⟨_, _, _, hr⟩ | ⟨_, hc, hr⟩
  · cases h.symm.trans hr
  · cases h.symm.trans hr
  · cases h.symm.trans hr
  · cases h.symm.trans hr
    exact ⟨hc, rfl⟩

theorem substitute_of_register {r r' : Registry η} {key : String} {hooks : η}
    (h : r.register key hooks = .ok (true, r')) :
    r.contains key = true ∧ r' = r.substitute key hooks := by
  rcases register_cases r key hooks with ⟨_, hr⟩ | ⟨_, _, _, hr⟩ | ⟨_, hc, _, hr⟩ | ⟨_, _, hr⟩
  · cases h.symm.trans hr
  · cases h.symm.trans hr
  · cases h.symm.trans hr
    exact ⟨hc, rfl⟩
  · cases h.symm.trans hr

theorem contains_eq_false_iff (r : Registry η) (key : String) :
    r.contains key = false ↔ ∀ e ∈ r.entries, e.key ≠ key := by
  simp [Registry.contains, Registry.lookup]

/-- Among entries with distinct keys a key has one entry or none. -/
theorem filter_key_eq_toList {es : List (Entry η)} (hd : (es.map (·.key)).Nodup) (key : String) :
    es.filter (·.key == key) = (es.find? (·.key == key)).toList := by
  induction es with
  | nil => rfl
  | cons e es ih =>
    simp only [List.map_cons, List.nodup_cons] at hd
    by_cases he : e.key = key
    · have hnone : es.filter (·.key == key) = [] := by
        refine List.filter_eq_nil_iff.mpr fun e' he' => ?_
        have hne : e'.key ≠ key := fun heq =>
          hd.1 (List.mem_map.mpr ⟨e', he', heq.trans he.symm⟩)
        simpa using hne
      rw [List.filter_cons_of_pos (by simpa using he), List.find?_cons_of_pos (by simpa using he),
        hnone, Option.toList_some]
    · rw [List.filter_cons_of_neg (by simpa using he), List.find?_cons_of_neg (by simpa using he),
        ih hd.2]

theorem pairwise_mergeSort_sequence (es : List (Entry η)) :
    (es.mergeSort fun a b => a.sequence ≤ b.sequence).Pairwise (·.sequence ≤ ·.sequence) := by
  have hsorted : (es.mergeSort fun a b => a.sequence ≤ b.sequence).Pairwise
      fun a b => decide (a.sequence ≤ b.sequence) = true := by
    apply List.pairwise_mergeSort
    · intro a b c hab hbc
      simp only [decide_eq_true_eq] at hab hbc ⊢
      omega
    · intro a b
      simp only [Bool.or_eq_true, decide_eq_true_eq]
      omega
  exact hsorted.imp of_decide_eq_true

structure Roll (η : Type) where
  entries : List (Entry η) := []
  appended : ℕ := 0

namespace Roll

def keys (l : Roll η) : List String := l.entries.map (·.key)

def entry? (l : Roll η) (key : String) : Option (Entry η) := l.entries.find? (·.key == key)

def append (l : Roll η) (key : String) (hooks : η) : Roll η :=
  ⟨l.entries ++ [⟨key, hooks, l.appended⟩], l.appended + 1⟩

/-- Other hooks in the place of those of a key. -/
def replace (l : Roll η) (key : String) (hooks : η) : Roll η :=
  { l with entries := l.entries.map fun e => if e.key = key then { e with hooks } else e }

def remove (l : Roll η) (key : String) : Roll η :=
  { l with entries := l.entries.eraseP (·.key == key) }

def clear (l : Roll η) : Roll η := { l with entries := [] }

/-- The sequence numbers rise along the roll and stay below the number of appended keys, and no key
stands in it twice. -/
structure Orderly (l : Roll η) : Prop where
  distinct : l.keys.Nodup
  rising : l.entries.Pairwise (·.sequence < ·.sequence)
  below : ∀ e ∈ l.entries, e.sequence < l.appended

theorem keys_replace (l : Roll η) (key : String) (hooks : η) :
    (l.replace key hooks).keys = l.keys := by
  simp only [keys, replace, List.map_map]
  apply List.map_congr_left
  intro e he
  by_cases h : e.key = key <;> simp [h]

theorem orderly_empty : ({} : Roll η).Orderly := by
  constructor <;> simp [keys]

theorem Orderly.append {l : Roll η} (h : l.Orderly) {key : String} (hnew : key ∉ l.keys)
    (hooks : η) : (l.append key hooks).Orderly where
  distinct := by
    simp only [keys, Roll.append, List.map_append, List.map_cons, List.map_nil]
    refine List.nodup_append.mpr ⟨h.distinct, List.nodup_singleton key, ?_⟩
    intro k hk k' hk' heq
    rw [List.mem_singleton] at hk'
    subst heq hk'
    exact hnew hk
  rising := by
    refine List.pairwise_append.mpr ⟨h.rising, List.pairwise_singleton _ _, ?_⟩
    intro e he e' he'
    rw [List.mem_singleton] at he'
    subst he'
    exact h.below e he
  below := by
    intro e he
    rcases List.mem_append.mp he with hold | hlast
    · exact Nat.lt_succ_of_lt (h.below e hold)
    · rw [List.mem_singleton] at hlast
      subst hlast
      exact Nat.lt_succ_self _

theorem Orderly.replace {l : Roll η} (h : l.Orderly) (key : String) (hooks : η) :
    (l.replace key hooks).Orderly where
  distinct := by
    rw [keys_replace]
    exact h.distinct
  rising := by
    refine List.pairwise_map.mpr (h.rising.imp ?_)
    intro a b hab
    split <;> split <;> exact hab
  below := by
    intro e he
    obtain ⟨e', he', rfl⟩ := List.mem_map.mp he
    split <;> exact h.below e' he'

theorem Orderly.of_sublist {l l' : Roll η} (h : l.Orderly) (hsub : l'.entries.Sublist l.entries)
    (hcount : l'.appended = l.appended) : l'.Orderly where
  distinct := h.distinct.sublist (hsub.map _)
  rising := h.rising.sublist hsub
  below := fun e he => hcount ▸ h.below e (hsub.subset he)

theorem Orderly.remove {l : Roll η} (h : l.Orderly) (key : String) : (l.remove key).Orderly :=
  h.of_sublist List.eraseP_sublist rfl

theorem Orderly.clear {l : Roll η} (h : l.Orderly) : l.clear.Orderly :=
  h.of_sublist (List.nil_sublist _) rfl

end Roll

/-- The registry holds the entries of the roll, in any order, and has counted as many keys. -/
structure Agrees (r : Registry η) (l : Roll η) : Prop where
  entries : r.entries.Perm l.entries
  counted : r.nextSequence = l.appended
  orderly : l.Orderly

theorem agrees_empty (policy : DuplicatePolicy) : Agrees (Registry.empty policy : Registry η) {} :=
  ⟨.refl _, rfl, Roll.orderly_empty⟩

namespace Agrees

variable {r : Registry η} {l : Roll η}

/-- A registry that holds its entries in another order agrees with the same roll. -/
theorem reorder (h : Agrees r l) {entries : List (Entry η)} (hp : entries.Perm r.entries) :
    Agrees { r with entries } l :=
  ⟨hp.trans h.entries, h.counted, h.orderly⟩

theorem lookup_eq (h : Agrees r l) (key : String) : r.lookup key = l.entry? key := by
  have hdistinct : (r.entries.map (·.key)).Nodup :=
    (h.entries.map _).nodup_iff.mpr h.orderly.distinct
  apply Option.ext
  intro e
  change r.entries.find? (·.key == key) = some e ↔ l.entries.find? (·.key == key) = some e
  rw [find?_key_eq_some_iff hdistinct, find?_key_eq_some_iff h.orderly.distinct,
    h.entries.mem_iff]

theorem contains_iff (h : Agrees r l) (key : String) : r.contains key = true ↔ key ∈ l.keys := by
  simp [Registry.contains, h.lookup_eq, Roll.entry?, Roll.keys, List.find?_isSome]

theorem size_eq (h : Agrees r l) : r.size = l.entries.length := h.entries.length_eq

theorem isEmpty_iff (h : Agrees r l) : r.isEmpty = true ↔ l.entries = [] := by
  rw [Registry.isEmpty, List.isEmpty_iff]
  constructor
  · intro hr
    exact List.nil_perm.mp (hr ▸ h.entries)
  · intro hl
    exact List.perm_nil.mp (hl ▸ h.entries)

/-- Sorting the entries by their sequence numbers restores the roll, in whatever order they are. -/
theorem mergeSort_entries (h : Agrees r l) :
    (r.entries.mergeSort fun a b => a.sequence ≤ b.sequence) = l.entries := by
  have hp := (List.mergeSort_perm r.entries fun a b => a.sequence ≤ b.sequence).trans h.entries
  have hsequences : (l.entries.map (·.sequence)).Nodup :=
    List.pairwise_map.mpr (h.orderly.rising.imp Nat.ne_of_lt)
  refine List.Perm.eq_of_pairwise ?_ (pairwise_mergeSort_sequence r.entries)
    (h.orderly.rising.imp Nat.le_of_lt) hp
  intro a b ha hb hab hba
  have heq : a.sequence = b.sequence := by omega
  exact List.inj_on_of_nodup_map hsequences (hp.subset ha) hb heq

theorem keys_eq (h : Agrees r l) : r.keys = l.keys := by
  rw [Registry.keys, h.mergeSort_entries, Roll.keys]

theorem insert (h : Agrees r l) {key : String} (hnew : key ∉ l.keys) (hooks : η) :
    Agrees (r.insert key hooks) (l.append key hooks) where
  entries := by
    rw [Registry.insert, h.counted]
    exact (h.entries.cons _).trans (List.perm_append_singleton _ _).symm
  counted := by rw [Registry.insert, h.counted]; rfl
  orderly := h.orderly.append hnew hooks

theorem substitute (h : Agrees r l) (key : String) (hooks : η) :
    Agrees (r.substitute key hooks) (l.replace key hooks) where
  entries := h.entries.map _
  counted := h.counted
  orderly := h.orderly.replace key hooks

theorem unregister (h : Agrees r l) (key : String) :
    Agrees (r.unregister key).2 (l.remove key) where
  entries := by
    rw [Roll.remove, eraseP_key_eq_filter h.orderly.distinct]
    exact h.entries.filter _
  counted := h.counted
  orderly := h.orderly.remove key

theorem clear (h : Agrees r l) : Agrees r.clear.2 l.clear where
  entries := .refl _
  counted := h.counted
  orderly := h.orderly.clear

end Agrees

end PatternHooks.RegistryRoll
