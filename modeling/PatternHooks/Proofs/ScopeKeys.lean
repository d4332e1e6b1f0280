import PatternHooks.Json.Formats
import PatternHooks.Proofs.CallLog
import PatternHooks.Proofs.RegistryRoll

/-!
The keys of scopes. A scope that starts empty or with the keys of a registry lists no key twice,
whatever is enabled and disabled, and a dispatch on a pattern made from it calls the hooks of an
entry at most once. Only a scope that was read from a text may list a key more often: as often as
the text does.
-/

namespace PatternHooks.ScopeKeys

open CallLog Dispatch RegistryRoll Visits

variable {η ρ : Type}

/-- The ways to a scope, if the texts that scopes are read from list no key more often than they
may. -/
inductive Obtained (times : String → ℕ) : Scope → Prop
  | empty : Obtained times .empty
  -- Whatever calls have made a registry, it agrees with some roll.
  | all {η : Type} {r : Registry η} {l : Roll η} (h : Agrees r l) : Obtained times (.all r)
  | read {text : String} {s : Scope} (hread : Json.scopeFormat.read text = .ok s)
      (htimes : ∀ key, s.keys.count key ≤ times key) : Obtained times s
  | enable {s : Scope} (h : Obtained times s) (key : String) : Obtained times (s.enable key).2
  | withKey {s : Scope} (h : Obtained times s) (key : String) : Obtained times (s.withKey key)
  | disable {s : Scope} (h : Obtained times s) (key : String) : Obtained times (s.disable key).2

/-- A key that is enabled already is not listed again. -/
theorem count_enable (s : Scope) (key other : String) :
    (s.enable key).2.keys.count other ≤ max 1 (s.keys.count other) := by
  unfold Scope.enable
  split
  · exact Nat.le_max_right 1 _
  · rename_i hnew
    rw [Scope.isEnabled_iff] at hnew
    rw [List.count_append, List.count_singleton]
    by_cases hkey : key = other
    · subst hkey
      rw [List.count_eq_zero_of_not_mem hnew, beq_self_eq_true, if_pos rfl]
      exact Nat.le_max_left 1 _
    · rw [beq_false_of_ne hkey, if_neg Bool.false_ne_true, Nat.add_zero]
      exact Nat.le_max_right 1 _

theorem count_disable (s : Scope) (key other : String) :
    (s.disable key).2.keys.count other ≤ s.keys.count other :=
  List.filter_sublist.count_le other

theorem Obtained.count_le {times : String → ℕ} {s : Scope} (h : Obtained times s) (key : String) :
    s.keys.count key ≤ max 1 (times key) := by
  induction h with
  | empty => exact Nat.zero_le _
  | all h =>
    have hdistinct : (Scope.all _).keys.Nodup := h.keys_eq ▸ h.orderly.distinct
    exact Nat.le_trans (List.nodup_iff_count_le_one.mp hdistinct key) (Nat.le_max_left 1 _)
  | read hread htimes => exact Nat.le_trans (htimes key) (Nat.le_max_right 1 _)
  | enable h other ih | withKey h other ih =>
    exact Nat.le_trans (count_enable _ other key) (Nat.max_le.mpr ⟨Nat.le_max_left 1 _, ih⟩)
  | disable h other ih => exact Nat.le_trans (count_disable _ other key) ih

theorem Obtained.nodup {times : String → ℕ} {s : Scope} (h : Obtained times s)
    (honce : ∀ key, times key ≤ 1) : s.keys.Nodup := by
  refine List.nodup_iff_count_le_one.mpr fun key => ?_
  exact Nat.le_trans (h.count_le key) (Nat.max_le.mpr ⟨Nat.le_refl 1, honce key⟩)

/-- The calls are calls of the hooks that a registry has under some keys, in order. -/
def Serve (r : Registry η) (keys : List String) (calls : List (Call η ρ)) : Prop :=
  List.Forall₂ (fun key c => ∃ e, r.lookup key = some e ∧ e.hooks = c.hooks) keys calls

/-- Hooks that stand under one key only are called as often as the key is served. -/
theorem Serve.count_le [DecidableEq η] {r : Registry η} {keys : List String}
    {calls : List (Call η ρ)} (h : Serve r keys calls) {key : String} {hooks : η}
    (honly : ∀ other e, r.lookup other = some e → e.hooks = hooks → other = key) :
    (calls.map Call.hooks).count hooks ≤ keys.count key := by
  induction h with
  | nil => exact Nat.le_refl 0
  | @cons other c keys calls hcall hrest ih =>
    obtain ⟨e, hentry, hhooks⟩ := hcall
    rw [List.map_cons, List.count_cons, List.count_cons]
    by_cases hc : c.hooks = hooks
    · have hother : other = key := honly other e hentry (hhooks.trans hc)
      rw [if_pos (beq_of_eq hc), if_pos (beq_of_eq hother)]
      exact Nat.succ_le_succ ih
    · rw [if_neg (by simpa using hc)]
      exact Nat.le_trans ih (Nat.le_add_right _ _)

section Round
variable {fatal : Bool} {phase : Phase} {p : Pattern} {supports : η → Bool}
  {call : η → Effect η ρ} {key : String} {keys : List String} {report : Report} {w w' : World η ρ}
  {v : Verdict} {called : List η} {calls : List (Call η ρ)} {outcome : Except Fault Report}

/-- A turn serves its key or none. -/
theorem serve_turn (h : Decided supports call key w v called w')
    (hkept : ∀ c ∈ turnCalls w v called w', c.after.registry = c.before.registry) :
    w'.registry = w.registry ∧
      ∃ served, served.Sublist [key] ∧ Serve w.registry served (turnCalls w v called w') := by
  cases h with
  | missing hentry => exact ⟨rfl, [], List.nil_sublist _, .nil⟩
  | unsupported hentry hs => exact ⟨rfl, [], List.nil_sublist _, .nil⟩
  | fired hentry hs hcall =>
    exact ⟨hkept _ List.mem_cons_self, [key], List.Sublist.refl _, .cons ⟨_, hentry, rfl⟩ .nil⟩
  | failed hentry hs hcall =>
    exact ⟨hkept _ List.mem_cons_self, [key], List.Sublist.refl _, .cons ⟨_, hentry, rfl⟩ .nil⟩

/-- The calls of a round go to the keys in order, each position being served once at most. -/
theorem Round.serves (h : Round fatal phase p supports call keys report w calls outcome w')
    (hkept : ∀ c ∈ calls, c.after.registry = c.before.registry) :
    ∃ served, served.Sublist keys ∧ Serve w.registry served calls := by
  induction h with
  | done report w => exact ⟨[], List.Sublist.refl _, .nil⟩
  | @goes key keys report w w₁ w₂ v called calls outcome hturn hgoes hrest ih =>
    rw [List.forall_mem_append] at hkept
    obtain ⟨hregistry, first, hfirst, hserve⟩ := serve_turn hturn hkept.1
    obtain ⟨rest, hsub, hserves⟩ := ih hkept.2
    rw [(alike_chronicle phase p key w₁ v).registry, hregistry] at hserves
    exact ⟨first ++ rest, hfirst.append hsub, List.rel_append hserve hserves⟩
  | @stops key keys report w w₁ t called hfatal hturn =>
    obtain ⟨_, first, hfirst, hserve⟩ := serve_turn hturn hkept
    exact ⟨first, hfirst.trans (List.singleton_sublist.mpr List.mem_cons_self), hserve⟩

end Round

/-- A scope lists each key at most once, however it was obtained, but for keys that a text it was
read from lists more often; such a key is listed at most as often as in the text. A dispatch on a
pattern made from the scope, whose hooks do not change the registry, calls the hooks of entries in
the order in which the scope lists their keys, and those of each entry as often as its key is listed
at most. So the hooks of an entry that stand under no other key are called at most once, if no text
lists the key twice. -/
theorem scope_serves_keys_as_often_as_listed [DecidableEq η] {times : String → ℕ} {s : Scope}
    (hs : Obtained times s) :
    (∀ key, s.keys.count key ≤ max 1 (times key)) ∧ ((∀ key, times key ≤ 1) → s.keys.Nodup) ∧
      ∀ (fatal : Bool) (phase : Phase) (supports : η → Phase → Bool) (call : η → Effect η ρ)
        (id : PatternId) (time : Time.Instant) (source : String) (flags : PatternFlags)
        (w : World η ρ) (calls : List (Call η ρ)),
        fireCalls fatal phase (s.pattern id time source flags) supports call w = calls →
        (∀ c ∈ calls, c.after.registry = c.before.registry) →
        ∃ served, served.Sublist s.keys ∧ Serve w.registry served calls ∧
          ∀ key, served.count key ≤ max 1 (times key) ∧
            ∀ e, w.registry.lookup key = some e →
              (∀ other e', w.registry.lookup other = some e' → e'.hooks = e.hooks → other = key) →
              (calls.map Call.hooks).count e.hooks ≤ max 1 (times key) := by
  refine ⟨hs.count_le, hs.nodup, ?_⟩
  rintro fatal phase supports call id time source flags w calls rfl hkept
  obtain ⟨calls, outcome, w', hround⟩ := exists_round fatal phase
    (s.pattern id time source flags) (supports · phase) call s.keys { phase } w
  rw [hround.fireCalls_eq] at hkept ⊢
  obtain ⟨served, hsub, hserve⟩ := Round.serves hround hkept
  have hcount : ∀ key, served.count key ≤ max 1 (times key) := fun key =>
    Nat.le_trans (hsub.count_le key) (hs.count_le key)
  exact ⟨served, hsub, hserve, fun key => ⟨hcount key, fun e _ honly =>
    Nat.le_trans (hserve.count_le honly) (hcount key)⟩⟩

theorem eq_ok_of_toOption {ε α : Type} {x : Except ε α} {a : α} (h : x.toOption = some a) :
    x = .ok a := by
  cases x with
  | error e => cases h
  | ok b => exact congrArg Except.ok (Option.some.inj h)

/-- A scope that was read from a text and then changed. -/
def patched : Scope := ((⟨["b", "a"]⟩ : Scope).withKey "a").withKey "c"

/-- Hooks for two of its keys. -/
def numbered : World ℕ (List ℕ) where
  registry := ((Registry.empty .reject).insert "a" 1).insert "b" 2
  own := []

def tally (hooks : ℕ) : Effect ℕ (List ℕ) := fun w => (.ok (), { w with own := w.own ++ [hooks] })

theorem scope_serves_keys_as_often_as_listed_patched :
    Obtained (fun _ => 1) patched ∧ patched.keys = ["b", "a", "c"] ∧ patched.keys.Nodup ∧
      ∃ calls, fireCalls true .compileBegin (patched.pattern ⟨0⟩ .epoch "x" {}) (fun _ _ => true)
          tally numbered = calls ∧
        (∀ c ∈ calls, c.after.registry = c.before.registry) ∧ calls.map Call.hooks = [2, 1] ∧
        (calls.map Call.hooks).count 1 ≤ 1 := by
  have hread : (Json.scopeFormat.read "\x7b\"keys\": [\"b\", \"a\"]\x7d").toOption =
      some ⟨["b", "a"]⟩ := by decide +kernel
  have hobtained : Obtained (fun _ => 1) patched := by
    have honce : ∀ key, (["b", "a"] : List String).count key ≤ 1 :=
      List.nodup_iff_count_le_one.mp (by decide)
    exact ((Obtained.read (eq_ok_of_toOption hread) honce).withKey "a").withKey "c"
  obtain ⟨_, hnodup, hcalls⟩ :=
    @scope_serves_keys_as_often_as_listed ℕ (List ℕ) _ _ _ hobtained
  have hkept : ∀ c ∈ fireCalls true .compileBegin (patched.pattern ⟨0⟩ .epoch "x" {})
      (fun _ _ => true) tally numbered, c.after.registry = c.before.registry := by
    intro c hc
    obtain ⟨_, _, _, hround⟩ := exists_round true .compileBegin
      (patched.pattern ⟨0⟩ .epoch "x" {}) (fun _ => true) tally patched.keys
      { phase := .compileBegin } numbered
    rw [hround.fireCalls_eq] at hc
    have hafter : (tally c.hooks c.before).2 = c.after := congrArg Prod.snd (hround.made c hc)
    rw [← hafter]
    rfl
  obtain ⟨served, _, _, hserved⟩ := hcalls true .compileBegin _ tally _ _ _ _ _ _ rfl hkept
  have honly : ∀ other e, numbered.registry.lookup other = some e → e.hooks = 1 → other = "a" := by
    intro other e hentry hhooks
    rw [numbered, Registry.lookup_insert, Registry.lookup_insert] at hentry
    split at hentry
    · rw [← Option.some.inj hentry] at hhooks
      exact absurd hhooks (by decide)
    · split at hentry
      · rename_i hother
        exact hother.symm
      · cases hentry
  exact ⟨hobtained, by decide +kernel, hnodup fun _ => Nat.le_refl 1, _, rfl, hkept,
    by decide +kernel, (hserved "a").2 ⟨"a", 1, 0⟩ rfl honly⟩

/-- A text may list a key twice, and then so does the scope that is read from it, and a dispatch
calls the hooks of the key twice. -/
theorem read_scope_lists_key_twice :
    Json.scopeFormat.read "\x7b\"keys\":[\"a\",\"a\"]\x7d" = .ok ⟨["a", "a"]⟩ ∧
      ¬ (⟨["a", "a"]⟩ : Scope).keys.Nodup ∧
      (fireCalls false .compileBegin ((⟨["a", "a"]⟩ : Scope).pattern ⟨0⟩ .epoch "x" {})
        (fun _ _ => true) tally numbered).map Call.hooks = [1, 1] := by
  have hread : (Json.scopeFormat.read "\x7b\"keys\":[\"a\",\"a\"]\x7d").toOption =
      some ⟨["a", "a"]⟩ := by decide +kernel
  exact ⟨eq_ok_of_toOption hread, by decide, by decide +kernel⟩

end PatternHooks.ScopeKeys
