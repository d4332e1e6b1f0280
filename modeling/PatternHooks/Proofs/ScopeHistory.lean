import Mathlib.Data.Finset.Card
import PatternHooks.Proofs.RegistryHistory

/-!
Histories of scopes. A scope begins empty, or with the keys of a registry in the order of their
registration, and keys are then enabled and disabled. Which keys it holds in the end, and in which
order, is told by the history of each key alone: a key is on since the first time it was enabled
after it was last disabled, and the keys stand in the order of these moments.
-/

namespace PatternHooks.ScopeHistory

open RegistryCalls RegistryHistory

/-- The calls that change a scope. The builder form of enabling tells nobody what it did. -/
inductive Call where
  | enable (key : String)
  | withKey (key : String)
  | disable (key : String)
  deriving DecidableEq

namespace Call

def key : Call → String
  | enable key => key
  | withKey key => key
  | disable key => key

def Enables (key : String) : Call → Prop
  | enable other => other = key
  | withKey other => other = key
  | disable _ => False

end Call

def perform (s : Scope) : Call → Scope
  | .enable key => (s.enable key).2
  | .withKey key => s.withKey key
  | .disable key => (s.disable key).2

/-- Whether a call does anything. -/
def effective (s : Scope) : Call → Bool
  | .enable key => (s.enable key).1
  | .withKey key => (s.enable key).1
  | .disable key => (s.disable key).1

def run (s : Scope) (calls : List Call) : Scope := calls.foldl perform s

/-- The calls that did something, in order. -/
def effects (s : Scope) : List Call → List Call
  | [] => []
  | c :: calls =>
    if effective s c then c :: effects (perform s c) calls else effects (perform s c) calls

/-- The last call that did something to a key. -/
def lastEffect? (s : Scope) (calls : List Call) (key : String) : Option Call :=
  ((effects s calls).filter (·.key = key)).getLast?

/-- A scope that begins with some keys: with none, or with those of a registry, whatever calls have
made it. -/
inductive Begins : List String → Scope → Prop
  | empty : Begins [] .empty
  | all {η σ β : Type} {assemble : Option β → Option β → η} {policy : DuplicatePolicy}
      {calls : List (RegistryHistory.Call η β)} {answers : List (Reply (Entry η))} {w : World η σ}
      (h : History assemble policy calls answers w) :
      Begins (enactAll assemble policy calls).2.keys (.all w.registry)

/-- The key was not there at first and never enabled, or it was not enabled again after it was last
disabled. -/
def Off (initial : List String) (calls : List Call) (key : String) : Prop :=
  (key ∉ initial ∧ ∀ c ∈ calls, ¬ c.Enables key) ∨
    ∃ before after, calls = before ++ .disable key :: after ∧ ∀ c ∈ after, ¬ c.Enables key

/-- The key is on since a moment. It was there at first, in the place that the moment tells, and was
never disabled; or it was off until the call at that moment enabled it, and was not disabled since.
The calls come after the places of the keys that were there at first. -/
def Since (initial : List String) (calls : List Call) (key : String) (moment : ℕ) : Prop :=
  (initial[moment]? = some key ∧ .disable key ∉ calls) ∨
    ∃ before c after, calls = before ++ c :: after ∧ moment = initial.length + before.length ∧
      Off initial before key ∧ c.Enables key ∧ .disable key ∉ after

/-- A history with one more call is split at that call or before it. -/
theorem append_singleton_eq_iff {calls before after : List Call} {c d : Call} :
    calls ++ [c] = before ++ d :: after ↔
      (before = calls ∧ d = c ∧ after = []) ∨
        ∃ rest, after = rest ++ [c] ∧ calls = before ++ d :: rest := by
  constructor
  · intro h
    rcases List.eq_nil_or_concat after with rfl | ⟨rest, last, rfl⟩
    · obtain ⟨rfl, hlast⟩ := List.append_inj' h rfl
      exact .inl ⟨rfl, (List.singleton_inj.mp hlast).symm, rfl⟩
    · have hsplit : calls ++ [c] = (before ++ d :: rest) ++ [last] := by
        rw [h, List.concat_eq_append, List.append_assoc, List.cons_append]
      obtain ⟨hcalls, hlast⟩ := List.append_inj' hsplit rfl
      refine .inr ⟨rest, ?_, hcalls⟩
      rw [List.singleton_inj.mp hlast, List.concat_eq_append]
  · intro h
    rcases h with ⟨rfl, rfl, rfl⟩ | ⟨rest, rfl, rfl⟩
    · rfl
    · rw [List.append_assoc, List.cons_append]

section Step
variable {initial : List String} {calls : List Call} {c : Call} {key : String}

theorem Call.Enables.ne_disable (h : c.Enables key) : c ≠ .disable key := by
  rintro rfl
  exact h

theorem Call.Enables.key_eq (h : c.Enables key) : c.key = key := by
  cases c with
  | disable other => exact h.elim
  | _ => exact h

theorem Call.eq_disable (h : ¬ c.Enables c.key) : c = .disable c.key := by
  cases c with
  | disable other => rfl
  | _ => exact absurd rfl h

theorem off_append_iff :
    Off initial (calls ++ [c]) key ↔
      c = .disable key ∨ Off initial calls key ∧ ¬ c.Enables key := by
  constructor
  · intro h
    rcases h with ⟨hnew, hnever⟩ | ⟨before, after, hsplit, hafter⟩
    · obtain ⟨hcalls, hc⟩ := List.forall_mem_append.mp hnever
      exact .inr ⟨.inl ⟨hnew, hcalls⟩, hc c (List.mem_singleton_self c)⟩
    · rcases append_singleton_eq_iff.mp hsplit with ⟨_, hc, _⟩ | ⟨rest, rfl, hcalls⟩
      · exact .inl hc.symm
      · obtain ⟨hrest, hc⟩ := List.forall_mem_append.mp hafter
        exact .inr ⟨.inr ⟨before, rest, hcalls, hrest⟩, hc c (List.mem_singleton_self c)⟩
  · intro h
    rcases h with rfl | ⟨⟨hnew, hnever⟩ | ⟨before, after, rfl, hafter⟩, hc⟩
    · exact .inr ⟨calls, [], rfl, fun c hc => absurd hc List.not_mem_nil⟩
    · exact .inl ⟨hnew, List.forall_mem_append.mpr ⟨hnever, List.forall_mem_singleton.mpr hc⟩⟩
    · refine .inr ⟨before, after ++ [c], by rw [List.append_assoc, List.cons_append], ?_⟩
      exact List.forall_mem_append.mpr ⟨hafter, List.forall_mem_singleton.mpr hc⟩

theorem disable_not_mem_append_iff :
    .disable key ∉ calls ++ [c] ↔ .disable key ∉ calls ∧ c ≠ .disable key := by
  rw [List.mem_append, List.mem_singleton, not_or, eq_comm]

theorem since_append_iff {moment : ℕ} :
    Since initial (calls ++ [c]) key moment ↔
      Since initial calls key moment ∧ c ≠ .disable key ∨
        Off initial calls key ∧ c.Enables key ∧ moment = initial.length + calls.length := by
  constructor
  · intro h
    rcases h with ⟨hinitial, hnever⟩ | ⟨before, d, after, hsplit, hmoment, hoff, hd, hafter⟩
    · obtain ⟨hcalls, hc⟩ := disable_not_mem_append_iff.mp hnever
      exact .inl ⟨.inl ⟨hinitial, hcalls⟩, hc⟩
    · rcases append_singleton_eq_iff.mp hsplit with ⟨rfl, rfl, rfl⟩ | ⟨rest, rfl, hcalls⟩
      · exact .inr ⟨hoff, hd, hmoment⟩
      · obtain ⟨hrest, hc⟩ := disable_not_mem_append_iff.mp hafter
        exact .inl ⟨.inr ⟨before, d, rest, hcalls, hmoment, hoff, hd, hrest⟩, hc⟩
  · intro h
    rcases h with ⟨⟨hinitial, hnever⟩ | ⟨before, d, after, rfl, hmoment, hoff, hd, hafter⟩, hc⟩ |
      ⟨hoff, hc, hmoment⟩
    · exact .inl ⟨hinitial, disable_not_mem_append_iff.mpr ⟨hnever, hc⟩⟩
    · refine .inr ⟨before, d, after ++ [c], by rw [List.append_assoc, List.cons_append], hmoment,
        hoff, hd, disable_not_mem_append_iff.mpr ⟨hafter, hc⟩⟩
    · exact .inr ⟨calls, c, [], rfl, hmoment, hoff, hc, List.not_mem_nil⟩

end Step

section Perform
variable {s : Scope} {c : Call} {key : String}

theorem keys_enable (s : Scope) (key : String) :
    (s.enable key).2.keys = if key ∈ s.keys then s.keys else s.keys ++ [key] := by
  by_cases h : key ∈ s.keys
  · rw [Scope.enable, if_pos ((s.isEnabled_iff key).mpr h), if_pos h]
  · rw [Scope.enable, if_neg fun hon => h ((s.isEnabled_iff key).mp hon), if_neg h]

theorem enable_eq_true_iff (s : Scope) (key : String) : (s.enable key).1 = true ↔ key ∉ s.keys := by
  unfold Scope.enable
  split
  · rename_i h
    simpa using (s.isEnabled_iff key).mp h
  · rename_i h
    simpa using mt (s.isEnabled_iff key).mpr h

theorem mem_disable_iff (s : Scope) (key other : String) :
    other ∈ (s.disable key).2.keys ↔ other ∈ s.keys ∧ other ≠ key := by
  simp [Scope.disable]

theorem disable_eq_true_iff (s : Scope) (key : String) :
    (s.disable key).1 = true ↔ key ∈ s.keys := by
  unfold Scope.disable
  rw [bne_iff_ne, ne_eq, List.length_filter_eq_length_iff]
  simp

/-- A call that does nothing leaves the scope as it was. -/
theorem perform_of_not_effective (h : effective s c = false) : perform s c = s := by
  cases c with
  | disable key =>
    have hoff : key ∉ s.keys := fun hon =>
      Bool.false_ne_true (h.symm.trans ((disable_eq_true_iff s key).mpr hon))
    have hkept : s.keys.filter (· != key) = s.keys := by
      refine List.filter_eq_self.mpr fun other hother => ?_
      simpa using fun heq : other = key => hoff (heq ▸ hother)
    simp only [perform, Scope.disable, hkept]
  | _ =>
    rename_i key
    have hon : s.isEnabled key = true := by
      by_contra hoff
      have htrue := (enable_eq_true_iff s key).mpr (mt (s.isEnabled_iff key).mpr hoff)
      exact Bool.false_ne_true (h.symm.trans htrue)
    simp only [perform, Scope.withKey, Scope.enable, if_pos hon]

theorem mem_perform_iff :
    key ∈ (perform s c).keys ↔ c.Enables key ∨ key ∈ s.keys ∧ c ≠ .disable key := by
  have henable : ∀ other, key ∈ (s.enable other).2.keys ↔ other = key ∨ key ∈ s.keys := by
    intro other
    rw [keys_enable]
    split
    · rename_i hon
      constructor
      · exact .inr
      · rintro (rfl | hkey)
        · exact hon
        · exact hkey
    · rw [List.mem_append, List.mem_singleton, or_comm, eq_comm]
  cases c with
  | enable other => simpa [perform, Call.Enables] using henable other
  | withKey other => simpa [perform, Call.Enables, Scope.withKey] using henable other
  | disable other =>
    simp only [perform, Call.Enables, mem_disable_iff, false_or, ne_eq, Call.disable.injEq, eq_comm]

/-- A call leaves the other keys, and the order in which they stand. -/
theorem filter_perform (s : Scope) (c : Call) :
    (perform s c).keys.filter (· ≠ c.key) = s.keys.filter (· ≠ c.key) := by
  have henable : ∀ key, (s.enable key).2.keys.filter (· ≠ key) = s.keys.filter (· ≠ key) := by
    intro key
    rw [keys_enable]
    split
    · rfl
    · simp
  cases c with
  | enable key => exact henable key
  | withKey key => exact henable key
  | disable key =>
    simp only [perform, Scope.disable, Call.key, List.filter_filter]
    congr 1
    funext other
    by_cases h : other = key <;> simp [h]

/-- A call takes keys away, or it appends a new one. -/
theorem keys_perform_cases (s : Scope) (c : Call) :
    (perform s c).keys.Sublist s.keys ∨
      c.Enables c.key ∧ c.key ∉ s.keys ∧ (perform s c).keys = s.keys ++ [c.key] := by
  have henable : ∀ key, (s.enable key).2.keys.Sublist s.keys ∨
      key ∉ s.keys ∧ (s.enable key).2.keys = s.keys ++ [key] := by
    intro key
    rw [keys_enable]
    by_cases h : key ∈ s.keys
    · exact .inl (by rw [if_pos h])
    · exact .inr ⟨h, if_neg h⟩
  cases c with
  | enable key => exact (henable key).imp_right fun h => ⟨rfl, h⟩
  | withKey key => exact (henable key).imp_right fun h => ⟨rfl, h⟩
  | disable key => exact .inl List.filter_sublist

theorem nodup_perform (h : s.keys.Nodup) (c : Call) : (perform s c).keys.Nodup := by
  cases c with
  | enable key => exact Scope.nodup_withKey h key
  | withKey key => exact Scope.nodup_withKey h key
  | disable key => exact Scope.nodup_disable h key

end Perform

theorem run_append (s : Scope) (calls : List Call) (c : Call) :
    run s (calls ++ [c]) = perform (run s calls) c := by
  simp [run]

/-- What the history of calls on a scope with these keys at first tells of the scope in the end. -/
structure Told (initial : List String) (calls : List Call) (s : Scope) : Prop where
  off_iff : ∀ key, Off initial calls key ↔ key ∉ s.keys
  since_iff : ∀ key, (∃ moment, Since initial calls key moment) ↔ key ∈ s.keys
  past : ∀ key moment, Since initial calls key moment → moment < initial.length + calls.length
  once : ∀ key m n, Since initial calls key m → Since initial calls key n → m = n
  rising : s.keys.Pairwise fun a b =>
    ∀ m n, Since initial calls a m → Since initial calls b n → m < n

theorem off_nil_iff {initial : List String} {key : String} :
    Off initial [] key ↔ key ∉ initial := by
  constructor
  · intro h
    rcases h with ⟨hnew, _⟩ | ⟨before, after, hsplit, _⟩
    · exact hnew
    · simp at hsplit
  · exact fun h => .inl ⟨h, fun c hc => absurd hc List.not_mem_nil⟩

theorem since_nil_iff {initial : List String} {key : String} {moment : ℕ} :
    Since initial [] key moment ↔ initial[moment]? = some key := by
  constructor
  · intro h
    rcases h with ⟨hinitial, _⟩ | ⟨before, c, after, hsplit, _⟩
    · exact hinitial
    · simp at hsplit
  · exact fun h => .inl ⟨h, List.not_mem_nil⟩

theorem told_start {initial : List String} (h : initial.Nodup) : Told initial [] ⟨initial⟩ where
  off_iff key := off_nil_iff
  since_iff key := by
    simp only [since_nil_iff]
    exact List.mem_iff_getElem?.symm
  past key moment hsince := by
    obtain ⟨hlt, _⟩ := List.getElem?_eq_some_iff.mp (since_nil_iff.mp hsince)
    exact hlt
  once key m n hm hn := by
    rw [since_nil_iff] at hm hn
    obtain ⟨hlt, _⟩ := List.getElem?_eq_some_iff.mp hm
    exact (List.getElem?_inj hlt h).mp (hm.trans hn.symm)
  rising := by
    refine List.pairwise_iff_getElem.mpr fun i j hi hj hlt m n hm hn => ?_
    rw [since_nil_iff] at hm hn
    have hsame : ∀ k moment (hk : k < initial.length), initial[moment]? = some initial[k] →
        moment = k := fun k moment hk hmoment =>
      ((List.getElem?_inj hk h).mp ((List.getElem?_eq_getElem hk).trans hmoment.symm)).symm
    rw [hsame i m hi hm, hsame j n hj hn]
    exact hlt

theorem Told.perform {initial : List String} {calls : List Call} {s : Scope}
    (h : Told initial calls s) (c : Call) : Told initial (calls ++ [c]) (perform s c) := by
  -- The keys that were there before the call are on since the same moments as before.
  have hsame : ∀ key ∈ s.keys, ∀ moment, Since initial (calls ++ [c]) key moment →
      Since initial calls key moment := by
    intro key hkey moment hsince
    rcases since_append_iff.mp hsince with ⟨hold, _⟩ | ⟨hoff, _⟩
    · exact hold
    · exact absurd hkey ((h.off_iff key).mp hoff)
  constructor
  case off_iff =>
    intro key
    rw [off_append_iff, h.off_iff, mem_perform_iff, not_or, not_and_or, not_not]
    constructor
    · intro hoff
      rcases hoff with rfl | ⟨hkey, hc⟩
      · exact ⟨id, .inr rfl⟩
      · exact ⟨hc, .inl hkey⟩
    · intro hoff
      obtain ⟨hc, hkey | hdisable⟩ := hoff
      · exact .inr ⟨hkey, hc⟩
      · exact .inl hdisable
  case since_iff =>
    intro key
    rw [mem_perform_iff]
    constructor
    · rintro ⟨moment, hsince⟩
      rcases since_append_iff.mp hsince with ⟨hold, hc⟩ | ⟨_, hc, _⟩
      · exact .inr ⟨(h.since_iff key).mp ⟨moment, hold⟩, hc⟩
      · exact .inl hc
    · intro hkey
      by_cases hold : key ∈ s.keys
      · obtain ⟨moment, hsince⟩ := (h.since_iff key).mpr hold
        have hc : c ≠ .disable key := hkey.elim Call.Enables.ne_disable And.right
        exact ⟨moment, since_append_iff.mpr (.inl ⟨hsince, hc⟩)⟩
      · have hc : c.Enables key := hkey.resolve_right fun hon => hold hon.1
        exact ⟨_, since_append_iff.mpr (.inr ⟨(h.off_iff key).mpr hold, hc, rfl⟩)⟩
  case past =>
    intro key moment hsince
    rw [List.length_append, List.length_singleton]
    rcases since_append_iff.mp hsince with ⟨hold, _⟩ | ⟨_, _, hmoment⟩
    · have hpast := h.past key moment hold
      omega
    · omega
  case once =>
    intro key m n hm hn
    by_cases hkey : key ∈ s.keys
    · exact h.once key m n (hsame key hkey m hm) (hsame key hkey n hn)
    · have hnew : ∀ moment, Since initial (calls ++ [c]) key moment →
          moment = initial.length + calls.length := by
        intro moment hsince
        rcases since_append_iff.mp hsince with ⟨hold, _⟩ | ⟨_, _, hmoment⟩
        · exact absurd ((h.since_iff key).mp ⟨moment, hold⟩) hkey
        · exact hmoment
      rw [hnew m hm, hnew n hn]
  case rising =>
    have hrising : s.keys.Pairwise fun a b => ∀ m n, Since initial (calls ++ [c]) a m →
        Since initial (calls ++ [c]) b n → m < n := by
      refine h.rising.imp_of_mem fun ha hb hab m n hm hn => ?_
      exact hab m n (hsame _ ha m hm) (hsame _ hb n hn)
    rcases keys_perform_cases s c with hsub | ⟨_, hnew, hkeys⟩
    · exact hrising.sublist hsub
    · rw [hkeys]
      refine List.pairwise_append.mpr ⟨hrising, List.pairwise_singleton _ _, ?_⟩
      intro a ha b hb m n hm hn
      obtain rfl := List.mem_singleton.mp hb
      have hpast := h.past a m (hsame a ha m hm)
      rcases since_append_iff.mp hn with ⟨hold, _⟩ | ⟨_, _, hmoment⟩
      · exact absurd ((h.since_iff _).mp ⟨n, hold⟩) hnew
      · omega

theorem told_run {initial : List String} (h : initial.Nodup) (calls : List Call) :
    Told initial calls (run ⟨initial⟩ calls) := by
  induction calls using List.reverseRecOn with
  | nil => exact told_start h
  | append_singleton calls c ih =>
    rw [run_append]
    exact ih.perform c

theorem nodup_run {s : Scope} (h : s.keys.Nodup) (calls : List Call) :
    (run s calls).keys.Nodup := by
  induction calls using List.reverseRecOn with
  | nil => exact h
  | append_singleton calls c ih =>
    rw [run_append]
    exact nodup_perform ih c

theorem effects_append (s : Scope) (calls : List Call) (c : Call) :
    effects s (calls ++ [c]) =
      effects s calls ++ if effective (run s calls) c then [c] else [] := by
  induction calls generalizing s with
  | nil => rfl
  | cons d calls ih =>
    rw [List.cons_append, effects, effects, ih]
    split
    · rw [List.cons_append]
      rfl
    · rfl

theorem lastEffect?_append (s : Scope) (calls : List Call) (c : Call) (key : String) :
    lastEffect? s (calls ++ [c]) key =
      if c.key = key ∧ effective (run s calls) c = true then some c
      else lastEffect? s calls key := by
  rw [lastEffect?, effects_append, List.filter_append]
  by_cases heffective : effective (run s calls) c = true
  · by_cases hkey : c.key = key
    · simp [heffective, hkey]
    · simp [heffective, hkey, lastEffect?]
  · simp [heffective, lastEffect?]

/-- A key is there if the last call that did something to it was one that enables it, or if it was
there at first and has never been disabled. -/
theorem mem_run_iff (s : Scope) (calls : List Call) (key : String) :
    key ∈ (run s calls).keys ↔
      (∃ c, lastEffect? s calls key = some c ∧ c.Enables key) ∨
        key ∈ s.keys ∧ .disable key ∉ calls := by
  induction calls using List.reverseRecOn with
  | nil => simp [run, lastEffect?, effects]
  | append_singleton calls c ih =>
    rw [run_append, lastEffect?_append, disable_not_mem_append_iff]
    by_cases hhit : c.key = key ∧ effective (run s calls) c = true
    · rw [if_pos hhit, mem_perform_iff]
      obtain ⟨rfl, _⟩ := hhit
      by_cases hc : c.Enables c.key
      · exact ⟨fun _ => .inl ⟨c, rfl, hc⟩, fun _ => .inl hc⟩
      · have hdisable : c = .disable c.key := Call.eq_disable hc
        constructor
        · intro hkey
          rcases hkey with henables | ⟨_, hne⟩
          · exact absurd henables hc
          · exact absurd hdisable hne
        · intro hkey
          rcases hkey with ⟨d, hd, henables⟩ | ⟨_, _, hne⟩
          · cases hd
            exact absurd henables hc
          · exact absurd hdisable hne
    · have hsame : key ∈ (perform (run s calls) c).keys ↔ key ∈ (run s calls).keys := by
        by_cases hkey : c.key = key
        · have hidle : effective (run s calls) c = false :=
            Bool.eq_false_iff.mpr fun heffective => hhit ⟨hkey, heffective⟩
          rw [perform_of_not_effective hidle]
        · have hother : ¬ c.Enables key := fun h => hkey h.key_eq
          have hne : c ≠ .disable key := by
            rintro rfl
            exact hkey rfl
          rw [mem_perform_iff]
          exact ⟨fun h => (h.resolve_left hother).1, fun h => .inr ⟨h, hne⟩⟩
      -- A call that would disable the key does nothing, so the key is not there.
      have hidle : c = .disable key → key ∉ (run s calls).keys := by
        rintro rfl hon
        exact hhit ⟨rfl, (disable_eq_true_iff _ _).mpr hon⟩
      rw [if_neg hhit, hsame, ih]
      constructor
      · intro hkey
        rcases hkey with hlast | ⟨hinitial, hnever⟩
        · exact .inl hlast
        · exact .inr ⟨hinitial, hnever, fun hc => hidle hc (ih.mpr (.inr ⟨hinitial, hnever⟩))⟩
      · intro hkey
        rcases hkey with hlast | ⟨hinitial, hnever, _⟩
        · exact .inl hlast
        · exact .inr ⟨hinitial, hnever⟩

/-- Enabling tells whether it changed what the scope holds, and so does disabling. -/
theorem told_of_change (s : Scope) (key : String) :
    ((s.enable key).1 = true ↔ ¬ (key ∈ s.keys ↔ key ∈ (s.enable key).2.keys)) ∧
      ((s.disable key).1 = true ↔ ¬ (key ∈ s.keys ↔ key ∈ (s.disable key).2.keys)) := by
  have hon : key ∈ (s.enable key).2.keys := (mem_perform_iff (c := .enable key)).mpr (.inl rfl)
  have hoff : key ∉ (s.disable key).2.keys := fun h => ((mem_disable_iff s key key).mp h).2 rfl
  constructor
  · rw [enable_eq_true_iff, iff_true_right hon]
  · rw [disable_eq_true_iff, iff_false_right hoff, not_not]

theorem isEmpty_iff_size (s : Scope) : s.isEmpty = true ↔ s.size = 0 := by
  rw [Scope.isEmpty, List.isEmpty_iff, Scope.size, List.length_eq_zero_iff]

theorem isEmpty_iff_isEnabled (s : Scope) :
    s.isEmpty = true ↔ ∀ key, s.isEnabled key = false := by
  rw [Scope.isEmpty, List.isEmpty_iff, List.eq_nil_iff_forall_not_mem]
  simp only [← Scope.isEnabled_iff, Bool.not_eq_true]

/-- A key that is disabled and enabled again moves to the end. -/
theorem keys_disable_enable (s : Scope) (key : String) :
    ((s.disable key).2.enable key).2.keys = s.keys.filter (· ≠ key) ++ [key] := by
  have hgone : key ∉ (s.disable key).2.keys := fun h => ((mem_disable_iff s key key).mp h).2 rfl
  rw [keys_enable, if_neg hgone]
  congr 1
  simp only [Scope.disable]
  congr 1
  funext other
  by_cases h : other = key <;> simp [h]

theorem Begins.keys_eq {initial : List String} {s : Scope} (h : Begins initial s) :
    s.keys = initial ∧ initial.Nodup := by
  cases h with
  | empty => exact ⟨rfl, List.nodup_nil⟩
  | all h =>
    obtain ⟨_, hagrees, _⟩ := h.agrees
    exact ⟨hagrees.keys_eq, hagrees.orderly.distinct⟩

/-- A scope is a set of keys in the order of their enabling. It begins with no keys, or with those
of a registry in the order of registration. After any calls it holds the keys whose last call that
did something enabled them, and those that were there at first and were never disabled. They stand
in the order of the moments since which they are on, and the history of each key alone tells this
moment. A call tells whether it changed what the scope holds, and leaves the scope as it was if not.
All looks at the scope agree. The other keys keep their order, and a key that is disabled and
enabled again moves to the end. -/
theorem scope_keeps_enable_order {initial : List String} {s₀ : Scope} (h : Begins initial s₀)
    (calls : List Call) :
    s₀.keys = initial ∧ ∃ s, run s₀ calls = s ∧
      (∀ key, key ∈ s.keys ↔ (∃ c, lastEffect? s₀ calls key = some c ∧ c.Enables key) ∨
        key ∈ initial ∧ .disable key ∉ calls) ∧
      (∀ key, key ∈ s.keys ↔ ∃ moment, Since initial calls key moment) ∧
      (∀ key m n, Since initial calls key m → Since initial calls key n → m = n) ∧
      s.keys.Nodup ∧
      (s.keys.Pairwise fun a b =>
        ∀ m n, Since initial calls a m → Since initial calls b n → m < n) ∧
      (∀ key, s.withKey key = (s.enable key).2 ∧
        ((s.enable key).1 = true ↔ ¬ (key ∈ s.keys ↔ key ∈ (s.enable key).2.keys)) ∧
        ((s.enable key).1 = false → (s.enable key).2 = s) ∧
        ((s.disable key).1 = true ↔ ¬ (key ∈ s.keys ↔ key ∈ (s.disable key).2.keys)) ∧
        ((s.disable key).1 = false → (s.disable key).2 = s)) ∧
      (∀ key, s.isEnabled key = true ↔ key ∈ s.keys) ∧
      s.size = s.keys.toFinset.card ∧
      (s.isEmpty = true ↔ s.size = 0) ∧
      (s.isEmpty = true ↔ ∀ key, s.isEnabled key = false) ∧
      (∀ c, (perform s c).keys.filter (· ≠ c.key) = s.keys.filter (· ≠ c.key)) ∧
      ∀ key, ((s.disable key).2.enable key).2.keys = s.keys.filter (· ≠ key) ++ [key] := by
  obtain ⟨hkeys, hnodup⟩ := h.keys_eq
  obtain rfl : s₀ = ⟨initial⟩ := by rw [← hkeys]
  have htold := told_run hnodup calls
  have hdistinct := nodup_run hnodup calls
  refine ⟨rfl, _, rfl, mem_run_iff _ calls, fun key => (htold.since_iff key).symm, htold.once,
    hdistinct, htold.rising, fun key => ?_, fun key => Scope.isEnabled_iff _ key,
    (List.toFinset_card_of_nodup hdistinct).symm, isEmpty_iff_size _, isEmpty_iff_isEnabled _,
    filter_perform _, keys_disable_enable _⟩
  obtain ⟨henable, hdisable⟩ := told_of_change (run ⟨initial⟩ calls) key
  exact ⟨rfl, henable, perform_of_not_effective (c := .enable key), hdisable,
    perform_of_not_effective (c := .disable key)⟩

/-- Calls that enable a new key, enable one that is on, and disable one for a while. -/
def toggles : List Call := [.withKey "c", .disable "a", .enable "b", .enable "a"]

theorem scope_keeps_enable_order_toggled :
    ∃ w : World ℕ Unit, Begins ["a", "b"] (.all w.registry) ∧
      (run (.all w.registry) toggles).keys = ["b", "c", "a"] ∧
      lastEffect? (.all w.registry) toggles "b" = none ∧
      (∃ moment, Since ["a", "b"] toggles "b" moment) ∧
      ∀ m n, Since ["a", "b"] toggles "c" m → Since ["a", "b"] toggles "a" n → m < n := by
  have h₀ : History (fun (_ _ : Option Unit) => 9) .reject [] []
      (⟨.empty .reject, [], ()⟩ : World ℕ Unit) := .start rfl
  have hbegins : Begins ["a", "b"] _ :=
    .all ((h₀.call (.change (.register "a" 1))).call (.change (.register "b" 2)))
  obtain ⟨hinitial, s, hrun, _, hsince, _, _, hrising, _⟩ :=
    scope_keeps_enable_order hbegins toggles
  have hstart : Scope.all _ = ⟨["a", "b"]⟩ := congrArg Scope.mk hinitial
  have hkeys : s.keys = ["b", "c", "a"] := by
    rw [← hrun, hstart]
    decide
  rw [hkeys] at hsince hrising
  refine ⟨_, hbegins, hrun ▸ hkeys, ?_, (hsince "b").mp List.mem_cons_self, ?_⟩
  · rw [hstart]
    decide
  · exact (List.pairwise_cons.mp (List.pairwise_cons.mp hrising).2).1 "a" List.mem_cons_self

end PatternHooks.ScopeHistory
