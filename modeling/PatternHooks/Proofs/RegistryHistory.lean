import PatternHooks.Host
import PatternHooks.Proofs.RegistryCalls
import PatternHooks.Proofs.RegistryRoll

/-!
Histories of calls on a registry that was empty. The entries are held in a map that may hand them
out in another order after every call. Whatever the calls, the registry answers as a roll does and
shows the entries of the roll in the order in which their keys were appended.
-/

namespace PatternHooks.RegistryHistory

open RegistryCalls RegistryRoll

variable {η σ β : Type}

/-- What a client may ask of a host: to change its registry, also by hooks given by what they do
when compilation begins and at visits, or to shut down. -/
inductive Call (η β : Type) where
  | change (c : Change η)
  | registerFns (key : String) (onBegin onVisit : Option β)
  | shutdown

/-- A call on a registry; `assemble` makes hooks of what they do. -/
def perform (assemble : Option β → Option β → η) (w : World η σ) :
    Call η β → Reply (Entry η) × World η σ
  | .change c => c.perform w
  | .registerFns key onBegin onVisit =>
    (Change.register key (assemble onBegin onVisit)).perform w
  | .shutdown => (.emptied (Host.shutdown w).1, (Host.shutdown w).2)

/-- A registration on a roll: the key is checked first, a new one is appended, and the policy
decides about one that is taken. -/
def register (policy : DuplicatePolicy) (l : Roll η) (key : String) (hooks : η) :
    Reply (Entry η) × Roll η :=
  if ¬ Usable key then (.registered (.error (unusable key)), l)
  else if key ∉ l.keys then (.registered (.ok ()), l.append key hooks)
  else
    match policy with
    | .reject => (.registered (.error (.taken key)), l)
    | .replace => (.registered (.ok ()), l.replace key hooks)

/-- A change of a roll. -/
def change (policy : DuplicatePolicy) (l : Roll η) : Change η → Reply (Entry η) × Roll η
  | .register key hooks => register policy l key hooks
  | .unregister key => (.removed (l.entry? key), l.remove key)
  | .clear => (.emptied l.entries.length, l.clear)

/-- A call on a roll. -/
def enact (assemble : Option β → Option β → η) (policy : DuplicatePolicy) (l : Roll η) :
    Call η β → Reply (Entry η) × Roll η
  | .change c => change policy l c
  | .registerFns key onBegin onVisit => register policy l key (assemble onBegin onVisit)
  | .shutdown => (.emptied l.entries.length, l.clear)

/-- All answers and the roll at the end of a sequence of calls. -/
def enactAll (assemble : Option β → Option β → η) (policy : DuplicatePolicy)
    (calls : List (Call η β)) : List (Reply (Entry η)) × Roll η :=
  calls.foldl (fun (answers, l) c =>
    (answers ++ [(enact assemble policy l c).1], (enact assemble policy l c).2)) ([], {})

/-- A history of calls with their answers, from an empty registry to a world. -/
inductive History (assemble : Option β → Option β → η) (policy : DuplicatePolicy) :
    List (Call η β) → List (Reply (Entry η)) → World η σ → Prop
  | start {w : World η σ} (hempty : w.registry = .empty policy) : History assemble policy [] [] w
  | call {calls : List (Call η β)} {answers : List (Reply (Entry η))} {w : World η σ}
      (h : History assemble policy calls answers w) (c : Call η β) :
      History assemble policy (calls ++ [c]) (answers ++ [(perform assemble w c).1])
        (perform assemble w c).2
  | reorder {calls : List (Call η β)} {answers : List (Reply (Entry η))} {w : World η σ}
      {entries : List (Entry η)} (h : History assemble policy calls answers w)
      (hp : entries.Perm w.registry.entries) :
      History assemble policy calls answers (w.setRegistry { w.registry with entries })

section Step
variable {w : World η σ} {l : Roll η} {policy : DuplicatePolicy}

theorem register_agrees (h : Agrees w.registry l) (hpolicy : w.registry.policy = policy)
    (key : String) (hooks : η) :
    .registered (w.register key hooks).1 = (register policy l key hooks).1 ∧
      Agrees (w.register key hooks).2.registry (register policy l key hooks).2 ∧
      (w.register key hooks).2.registry.policy = policy := by
  have hkey := h.contains_iff key
  subst hpolicy
  rcases register_cases w.registry key hooks with ⟨hu, hr⟩ | ⟨hu, hc, hp, hr⟩ |
    ⟨hu, hc, hp, hr⟩ | ⟨hu, hc, hr⟩
  · simp only [World.register, hr, register, hu]
    exact ⟨rfl, h, trivial⟩
  · have hmem : key ∈ l.keys := hkey.mp hc
    simp only [World.register, hr, register, hu, hmem, hp]
    exact ⟨rfl, h, trivial⟩
  · have hmem : key ∈ l.keys := hkey.mp hc
    simp only [World.register, hr, register, hu, hmem, hp]
    exact ⟨rfl, h.substitute key hooks, hp⟩
  · have hnew : key ∉ l.keys := fun hmem => by simp [hkey.mpr hmem] at hc
    simp only [World.register, hr, register, hu, hnew]
    exact ⟨rfl, h.insert hnew hooks, rfl⟩

theorem change_agrees (h : Agrees w.registry l) (hpolicy : w.registry.policy = policy)
    (c : Change η) :
    (c.perform w).1 = (change policy l c).1 ∧
      Agrees (c.perform w).2.registry (change policy l c).2 ∧
      (c.perform w).2.registry.policy = policy := by
  cases c with
  | register key hooks => exact register_agrees h hpolicy key hooks
  | unregister key =>
    simp only [Change.perform, change, World.fst_unregister, World.registry_unregister,
      h.lookup_eq]
    exact ⟨trivial, h.unregister key, hpolicy⟩
  | clear =>
    simp only [Change.perform, change, World.fst_clear, World.registry_clear, h.size_eq]
    exact ⟨trivial, h.clear, hpolicy⟩

theorem perform_agrees (assemble : Option β → Option β → η) (h : Agrees w.registry l)
    (hpolicy : w.registry.policy = policy) (c : Call η β) :
    (perform assemble w c).1 = (enact assemble policy l c).1 ∧
      Agrees (perform assemble w c).2.registry (enact assemble policy l c).2 ∧
      (perform assemble w c).2.registry.policy = policy := by
  cases c with
  | change c => exact change_agrees h hpolicy c
  | registerFns key onBegin onVisit =>
    exact register_agrees h hpolicy key (assemble onBegin onVisit)
  | shutdown => exact change_agrees h hpolicy .clear

end Step

theorem enactAll_append (assemble : Option β → Option β → η) (policy : DuplicatePolicy)
    (calls : List (Call η β)) (c : Call η β) :
    enactAll assemble policy (calls ++ [c]) =
      ((enactAll assemble policy calls).1 ++
        [(enact assemble policy (enactAll assemble policy calls).2 c).1],
        (enact assemble policy (enactAll assemble policy calls).2 c).2) := by
  simp [enactAll]

theorem History.agrees {assemble : Option β → Option β → η} {policy : DuplicatePolicy}
    {calls : List (Call η β)} {answers : List (Reply (Entry η))} {w : World η σ}
    (h : History assemble policy calls answers w) :
    answers = (enactAll assemble policy calls).1 ∧
      Agrees w.registry (enactAll assemble policy calls).2 ∧ w.registry.policy = policy := by
  induction h with
  | start hempty =>
    rw [hempty]
    exact ⟨rfl, agrees_empty policy, rfl⟩
  | call h c ih =>
    obtain ⟨hanswers, hagrees, hpolicy⟩ := ih
    obtain ⟨hanswer, hagrees', hpolicy'⟩ := perform_agrees assemble hagrees hpolicy c
    rw [enactAll_append]
    refine ⟨?_, hagrees', hpolicy'⟩
    rw [← hanswers, hanswer]
  | reorder h hp ih =>
    obtain ⟨hanswers, hagrees, hpolicy⟩ := ih
    exact ⟨hanswers, hagrees.reorder hp, hpolicy⟩

/-- The kind of fault for which a registration was refused, if it was. -/
def refusal : Except RegisterFault Unit → Option FaultKind
  | .ok () => none
  | .error e => some e.toFault.kind

theorem refusal_cases (w : World η σ) (key : String) (hooks : η) :
    (refusal (w.register key hooks).1 = some .invalidKey ↔ ¬ Usable key) ∧
    (refusal (w.register key hooks).1 = some .duplicateKey ↔
      Usable key ∧ w.registry.contains key = true ∧ w.registry.policy = .reject) ∧
    (refusal (w.register key hooks).1 ≠ none → (w.register key hooks).2 = w) := by
  rcases register_cases w.registry key hooks with ⟨hu, hr⟩ | ⟨hu, hc, hp, hr⟩ |
    ⟨hu, hc, hp, hr⟩ | ⟨hu, hc, hr⟩
  · simp [World.register, hr, refusal, kind_unusable, hu]
  · simp [World.register, hr, refusal, RegisterFault.toFault, hu, hc, hp]
  · simp [World.register, hr, refusal, hu, hc, hp]
  · simp [World.register, hr, refusal, hu, hc]

/-- A registry is an ordered association list. After any history its answers were those of the roll,
and it shows the roll: every look-up finds the entry of the roll, and the keys come in the order in
which they were appended, each with the number of keys appended before it. A registration is refused
for an unusable key first, then for a taken one under the policy to reject, and a refusal changes
nothing. -/
theorem history_shows_roll (assemble : Option β → Option β → η) (policy : DuplicatePolicy)
    (calls : List (Call η β)) (answers : List (Reply (Entry η))) (w : World η σ)
    (h : History assemble policy calls answers w) :
    ∃ l : Roll η, enactAll assemble policy calls = (answers, l) ∧ l.Orderly ∧
      w.registry.policy = policy ∧
      w.registry.nextSequence = l.appended ∧
      w.registry.entries.Perm l.entries ∧
      w.registry.keys = l.keys ∧
      (Scope.all w.registry).keys = l.keys ∧
      w.registry.size = l.entries.length ∧
      (w.registry.isEmpty = true ↔ l.entries = []) ∧
      (∀ key, w.registry.lookup key = l.entry? key ∧
        (Host.require w key).toOption = l.entry? key ∧
        (w.registry.contains key = true ↔ key ∈ l.keys)) ∧
      ∀ key hooks,
        (refusal (w.register key hooks).1 = some .invalidKey ↔
          key = "" ∨ ∃ c ∈ key.toList, Text.isBlank c = true ∨ Text.isControl c = true) ∧
        (refusal (w.register key hooks).1 = some .duplicateKey ↔
          Usable key ∧ key ∈ l.keys ∧ policy = .reject) ∧
        (refusal (w.register key hooks).1 ≠ none → (w.register key hooks).2 = w) := by
  obtain ⟨hanswers, hagrees, hpolicy⟩ := h.agrees
  refine ⟨(enactAll assemble policy calls).2, by rw [hanswers], hagrees.orderly, hpolicy,
    hagrees.counted, hagrees.entries, hagrees.keys_eq, hagrees.keys_eq, hagrees.size_eq,
    hagrees.isEmpty_iff, fun key => ⟨hagrees.lookup_eq key, ?_, hagrees.contains_iff key⟩,
    fun key hooks => ?_⟩
  · rw [← hagrees.lookup_eq key, Host.require]
    cases w.registry.lookup key <;> rfl
  · obtain ⟨hinvalid, hduplicate, hsame⟩ := refusal_cases w key hooks
    rw [hagrees.contains_iff, hpolicy] at hduplicate
    refine ⟨hinvalid.trans ?_, hduplicate, hsame⟩
    rw [Usable, not_and_or, not_not]
    simp only [not_forall, not_and_or, Bool.not_eq_false, exists_prop]

theorem history_shows_roll_reordered :
    ∃ (answers : List (Reply (Entry ℕ))) (w : World ℕ Unit),
      History (fun (_ _ : Option Unit) => 9) .replace
        [.change (.register "a" 1), .change (.register "b" 2), .change (.register "a" 3),
          .change (.unregister "b"), .registerFns "b" (some ()) none] answers w ∧
      w.registry.entries = [⟨"a", 3, 0⟩, ⟨"b", 9, 2⟩] ∧ w.registry.keys = ["a", "b"] := by
  have h₀ : History (fun (_ _ : Option Unit) => 9) .replace [] []
      (⟨.empty .replace, [], ()⟩ : World ℕ Unit) := .start rfl
  have h₁ := (h₀.call (.change (.register "a" 1))).call (.change (.register "b" 2))
  have hp₁ : List.Perm [⟨"a", 1, 0⟩, ⟨"b", 2, 1⟩] [(⟨"b", 2, 1⟩ : Entry ℕ), ⟨"a", 1, 0⟩] :=
    .swap _ _ _
  have h₂ := (((h₁.reorder hp₁).call (.change (.register "a" 3))).call
    (.change (.unregister "b"))).call (.registerFns "b" (some ()) none)
  have hp₂ : List.Perm [⟨"a", 3, 0⟩, ⟨"b", 9, 2⟩] [(⟨"b", 9, 2⟩ : Entry ℕ), ⟨"a", 3, 0⟩] :=
    .swap _ _ _
  obtain ⟨l, hroll, _, _, _, _, hkeys, _⟩ := history_shows_roll _ _ _ _ _ (h₂.reorder hp₂)
  have hl : _ = l := congrArg Prod.snd hroll
  refine ⟨_, _, h₂.reorder hp₂, rfl, hkeys.trans ?_⟩
  rw [← hl]
  decide

end PatternHooks.RegistryHistory
