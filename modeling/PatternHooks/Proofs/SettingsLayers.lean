import Mathlib.Data.List.TakeWhile
import PatternHooks.Proofs.TomlKeys
import PatternHooks.Settings.Load

/-!
Settings in layers. What the environment sets goes over what the file sets, and both go over the
defaults, each leaf by itself: nothing that is set for one leaf, or in a table beside it, changes
another. Loading fails where a leaf in force does not fit, and only there.
-/

namespace PatternHooks.SettingsLayers

open Settings TomlKeys

variable {α β : Type}

/-- The leaves of the settings. -/
inductive Slot where
  | onDuplicate
  | fatalErrors
  | level
  | format
  deriving DecidableEq

namespace Slot

def part : Slot → String
  | onDuplicate | fatalErrors => "hooks"
  | level | format => "logging"

def name : Slot → String
  | onDuplicate => "on_duplicate"
  | fatalErrors => "fatal_errors"
  | level => "level"
  | format => "format"

/-- The name of the variable that sets a leaf, in lower case. -/
def variableName (slot : Slot) : String := "rehook__" ++ slot.part ++ "__" ++ slot.name

theorem name_injective {slot other : Slot} (h : slot.name = other.name) : slot = other := by
  cases slot <;> cases other <;> first | rfl | exact absurd h (by decide)

theorem variableName_injective {slot other : Slot} (h : slot.variableName = other.variableName) :
    slot = other := by
  cases slot <;> cases other <;> first | rfl | exact absurd h (by decide)

theorem lead_prefix_variableName (slot : Slot) :
    "rehook__".toList <+: slot.variableName.toList := by
  cases slot <;> decide

end Slot

/-- What an environment sets for a leaf; of several variables for it the last. -/
def setByVariable (environment : List (String × String)) (slot : Slot) : Option Scalar :=
  (environment.reverse.find? fun v => Text.lower v.1 == slot.variableName).map fun v =>
    Variable.scalar v.2

def memberOf? : Toml.Value → String → Option Toml.Value
  | .table members, key => members.lookup key
  | _, _ => none

/-- What a document sets for a leaf. -/
def setByFile (members : List (String × Toml.Value)) (slot : Slot) : Option Toml.Value :=
  (members.lookup slot.part).bind (memberOf? · slot.name)

/-- What is in force for a leaf: the value of its variable, or else that of the file, if there is
either. -/
def inForce (environment : List (String × String)) (path : String)
    (members : List (String × Toml.Value)) (slot : Slot) : Option Tree :=
  ((setByVariable environment slot).map (.scalar (some Variable.origin))).or
    ((setByFile members slot).map (.ofToml (some path)))

/-- What a leaf is with something in force for it, or nothing. -/
def outcome (leaf : Leaf α) (t : Option Tree) : Except Misfit α :=
  t.elim (.ok leaf.fallback) leaf.read

/-- A tree put over nothing. -/
def laid (t : Tree) : Tree := Settings.Tree.nil.merge t

theorem ofKey_plain {key : String} (hne : key ≠ "")
    (hplain : key.toList.all Path.isNameLetter = true) : Path.ofKey key = [.key key] := by
  have hletters : ∀ c ∈ key.toList, Path.isNameLetter c = true := List.all_eq_true.mp hplain
  have htake : key.toList.takeWhile Path.isNameLetter = key.toList :=
    List.takeWhile_eq_self_iff.mpr hletters
  have hdrop : key.toList.dropWhile Path.isNameLetter = [] :=
    List.dropWhile_eq_nil_iff.mpr hletters
  have hname : Path.name? key.toList = some (key, []) := by
    unfold Path.name?
    rw [htake, hdrop]
    split
    · rename_i hnil
      exact absurd (String.toList_eq_nil_iff.mp hnil) hne
    · rw [String.ofList_toList]
  simp [Path.ofKey, Path.ofExpression?, hname, Path.more?]

theorem onto_plain {layer : Layer} (hplain : ∀ m ∈ layer, Path.ofKey m.1 = [.key m.1])
    (under : Tree) : layer.onto under = under.mergeMembers layer := by
  induction layer generalizing under with
  | nil => rfl
  | cons m layer ih =>
    obtain ⟨key, child⟩ := m
    have hkey : Path.ofKey key = [.key key] := hplain (key, child) List.mem_cons_self
    rw [Tree.mergeMembers_cons, ← ih fun m hm => hplain m (List.mem_cons_of_mem _ hm), ← hkey]
    rfl

theorem setMember_absent {key : String} {t : Tree} {ms : List (String × Tree)}
    (h : key ∉ ms.map Prod.fst) : Tree.setMember key t ms = ms ++ [(key, t)] := by
  induction ms with
  | nil => rfl
  | cons m ms ih =>
    obtain ⟨k, s⟩ := m
    obtain ⟨hk, hms⟩ := List.ne_and_not_mem_of_not_mem_cons h
    rw [Tree.setMember, if_neg (Ne.symm hk), ih hms]
    rfl

theorem lookup_eq_none {key : String} {ms : List (String × β)} (h : key ∉ ms.map Prod.fst) :
    ms.lookup key = none := by
  refine List.lookup_eq_none_iff.mpr fun m hm => ?_
  have hne : key ≠ m.1 := fun heq => h (heq ▸ List.mem_map_of_mem hm)
  simpa using hne

theorem lookup_map (f : α → β) (key : String) (ms : List (String × α)) :
    (ms.map fun m => (m.1, f m.2)).lookup key = (ms.lookup key).map f := by
  induction ms with
  | nil => rfl
  | cons m ms ih =>
    obtain ⟨k, a⟩ := m
    rw [List.map_cons, List.lookup_cons, List.lookup_cons]
    cases key == k with
    | true => rfl
    | false => exact ih

/-- Members under new keys are added at the end, each as it lies over nothing. -/
theorem mergeMembers_absent (origin : Option String) (old ms : List (String × Tree))
    (hkeys : (ms.map Prod.fst).Nodup) (hnew : ∀ k ∈ ms.map Prod.fst, k ∉ old.map Prod.fst) :
    (Tree.table origin old).mergeMembers ms =
      .table origin (old ++ ms.map fun m => (m.1, laid m.2)) := by
  induction ms generalizing old with
  | nil => simp [Tree.mergeMembers]
  | cons m ms ih =>
    obtain ⟨key, top⟩ := m
    obtain ⟨hfresh, hrest⟩ := List.nodup_cons.mp hkeys
    have habsent : key ∉ old.map Prod.fst := hnew key List.mem_cons_self
    have hmember : (Tree.table origin old).member? key = none := lookup_eq_none habsent
    have hinsert : (Tree.table origin old).insert key (laid top) =
        .table origin (old ++ [(key, laid top)]) := by
      rw [Tree.insert, setMember_absent habsent]
    rw [Tree.mergeMembers, hmember]
    refine Eq.trans (congrArg (Tree.mergeMembers · ms) hinsert) ?_
    rw [ih _ hrest ?_, List.append_assoc]
    · rfl
    · intro k hk
      rw [List.map_append, List.mem_append, not_or]
      refine ⟨hnew k (List.mem_cons_of_mem _ hk), ?_⟩
      rintro hkey
      rw [List.mem_singleton.mp hkey] at hk
      exact hfresh hk

theorem laid_table (origin : Option String) {ms : List (String × Tree)}
    (hkeys : (ms.map Prod.fst).Nodup) :
    laid (.table origin ms) = .table none (ms.map fun m => (m.1, laid m.2)) := by
  have hmerge := mergeMembers_absent none [] ms hkeys (by simp)
  simpa [laid, Settings.Tree.nil, Tree.merge, Tree.empty] using hmerge

theorem ofTomlMembers_eq_map (origin : Option String) (members : List (String × Toml.Value)) :
    Tree.ofTomlMembers origin members = members.map fun m => (m.1, Tree.ofToml origin m.2) := by
  induction members with
  | nil => rfl
  | cons m members ih => rw [Tree.ofTomlMembers, ih, List.map_cons]

/-- A leaf in a tree, which is only seen where its part is a table. -/
def leafOf (t : Tree) (slot : Slot) : Option Tree :=
  (t.member? slot.part).bind (·.member? slot.name)

/-- The parts that are there are tables. -/
def Parted (t : Tree) : Prop :=
  ∀ slot : Slot, ∀ part, t.member? slot.part = some part → ∃ origin ms, part = .table origin ms

/-- The tree of a document over nothing. -/
def fileTree (path : String) (members : List (String × Toml.Value)) : Tree :=
  Layer.onto (Tree.ofTomlMembers (some path) members) .empty

section File
variable {path : String} {members : List (String × Toml.Value)}

def isTable : Toml.Value → Bool
  | .table _ => true
  | _ => false

/-- The parts of a document are tables, and its other keys are plain names. -/
structure Regular (members : List (String × Toml.Value)) : Prop where
  parts : ∀ key ∈ ["hooks", "logging"], ∀ v ∈ members.lookup key, isTable v = true
  plain : ∀ m ∈ members, m.1 ∉ ["hooks", "logging"] →
    m.1 ≠ "" ∧ m.1.toList.all Path.isNameLetter = true

theorem Regular.part (h : Regular members) {slot : Slot} {v : Toml.Value}
    (hv : members.lookup slot.part = some v) : ∃ ms, v = .table ms := by
  have hpart : slot.part ∈ ["hooks", "logging"] := by
    cases slot <;> decide
  have htable := h.parts slot.part hpart v hv
  cases v with
  | table ms => exact ⟨ms, rfl⟩
  | flag | integer | real | text | list => exact absurd htable Bool.false_ne_true

theorem Regular.ofKey (h : Regular members) {m : String × Toml.Value} (hm : m ∈ members) :
    Path.ofKey m.1 = [.key m.1] := by
  by_cases hhooks : m.1 = "hooks"
  · rw [hhooks]
    decide +kernel
  · by_cases hlogging : m.1 = "logging"
    · rw [hlogging]
      decide +kernel
    · obtain ⟨hne, hletters⟩ := h.plain m hm (by simp [hhooks, hlogging])
      exact ofKey_plain hne hletters

theorem fileTree_eq (h : Regular members) (hkeys : (members.map Prod.fst).Nodup) :
    fileTree path members =
      .table none (members.map fun m => (m.1, laid (.ofToml (some path) m.2))) := by
  have hplain : ∀ m ∈ Tree.ofTomlMembers (some path) members, Path.ofKey m.1 = [.key m.1] := by
    rw [ofTomlMembers_eq_map]
    intro m hm
    obtain ⟨m', hm', rfl⟩ := List.mem_map.mp hm
    exact h.ofKey hm'
  have hkeys' : ((Tree.ofTomlMembers (some path) members).map Prod.fst).Nodup := by
    rw [ofTomlMembers_eq_map, List.map_map]
    exact hkeys
  rw [fileTree, onto_plain hplain, Tree.empty, mergeMembers_absent none [] _ hkeys' (by simp),
    ofTomlMembers_eq_map, List.map_map, List.nil_append]
  rfl

theorem member?_fileTree (h : Regular members) (hkeys : (members.map Prod.fst).Nodup)
    (key : String) : (fileTree path members).member? key =
      (members.lookup key).map fun v => laid (.ofToml (some path) v) := by
  rw [fileTree_eq h hkeys, Tree.member?, Tree.members,
    lookup_map (fun v => laid (.ofToml (some path) v))]

theorem laid_ofToml_table {ms : List (String × Toml.Value)} (hkeys : (ms.map Prod.fst).Nodup) :
    laid (.ofToml (some path) (.table ms)) =
      .table none (ms.map fun m => (m.1, laid (.ofToml (some path) m.2))) := by
  have hkeys' : ((Tree.ofTomlMembers (some path) ms).map Prod.fst).Nodup := by
    rw [ofTomlMembers_eq_map, List.map_map]
    exact hkeys
  rw [Tree.ofToml, laid_table _ hkeys', ofTomlMembers_eq_map, List.map_map]
  rfl

/-- A key of a table stands for one value of it. -/
theorem keyed_of_lookup {members : List (String × Toml.Value)} (h : Keyed (.table members))
    {key : String} {v : Toml.Value} (hv : members.lookup key = some v) : Keyed v := by
  cases h with
  | table _ heach =>
    obtain ⟨l₁, l₂, rfl, _⟩ := List.lookup_eq_some_iff.mp hv
    exact heach (key, v) (by simp)

theorem nodup_of_keyed {members : List (String × Toml.Value)} (h : Keyed (.table members)) :
    (members.map Prod.fst).Nodup := by
  cases h with
  | table hkeys _ => exact hkeys

theorem parted_fileTree (h : Regular members) (hkeyed : Keyed (.table members)) :
    Parted (fileTree path members) := by
  intro slot part hpart
  rw [member?_fileTree h (nodup_of_keyed hkeyed)] at hpart
  obtain ⟨v, hv, rfl⟩ := Option.map_eq_some_iff.mp hpart
  obtain ⟨ms, rfl⟩ := h.part hv
  exact ⟨none, _, laid_ofToml_table (nodup_of_keyed (keyed_of_lookup hkeyed hv))⟩

theorem leafOf_fileTree (h : Regular members) (hkeyed : Keyed (.table members)) (slot : Slot) :
    leafOf (fileTree path members) slot =
      (setByFile members slot).map fun v => laid (.ofToml (some path) v) := by
  rw [leafOf, member?_fileTree h (nodup_of_keyed hkeyed), setByFile]
  cases hpart : members.lookup slot.part with
  | none => rfl
  | some v =>
    obtain ⟨ms, rfl⟩ := h.part hpart
    have hkeys := nodup_of_keyed (keyed_of_lookup hkeyed hpart)
    rw [Option.map_some, Option.bind_some, Option.bind_some, laid_ofToml_table hkeys]
    exact lookup_map (fun v => laid (.ofToml (some path) v)) slot.name ms

end File

section Environment
variable {environment : List (String × String)}

/-- Every variable that is marked as a setting sets one of the leaves. -/
def OnlyLeaves (environment : List (String × String)) : Prop :=
  ∀ v ∈ environment, "rehook__".toList <+: (Text.lower v.1).toList →
    ∃ slot : Slot, Text.lower v.1 = slot.variableName

def putLeaf (t : Tree) (slot : Slot) (top : Tree) : Tree :=
  t.put [.key slot.part, .key slot.name] top

theorem leafOf_putLeaf (t : Tree) (slot other : Slot) (origin : Option String) (s : Scalar) :
    leafOf (putLeaf t slot (.scalar origin s)) other =
      if other = slot then some (.scalar origin s) else leafOf t other := by
  have hnil : ∀ key, Settings.Tree.nil.member? key = none := fun _ => rfl
  by_cases hpart : other.part = slot.part
  · have hname : other.name = slot.name ↔ other = slot := ⟨Slot.name_injective, congrArg _⟩
    cases hmember : t.member? slot.part with
    | none => by_cases heq : other = slot <;>
        simp [leafOf, putLeaf, hpart, hmember, hname, heq, hnil]
    | some part => by_cases heq : other = slot <;>
        simp [leafOf, putLeaf, hpart, hmember, hname, heq]
  · have hne : other ≠ slot := fun heq => hpart (congrArg _ heq)
    simp [leafOf, putLeaf, hpart, hne]

theorem parted_putLeaf {t : Tree} (h : Parted t) (slot : Slot) (top : Tree) :
    Parted (putLeaf t slot top) := by
  have hinsert : ∀ (u child : Tree) (key : String), ∃ origin ms, u.insert key child =
      .table origin ms := by
    intro u child key
    cases u <;> exact ⟨_, _, rfl⟩
  intro other part hpart
  rw [putLeaf, Tree.put_key, Tree.member?_insert] at hpart
  by_cases heq : other.part = slot.part
  · rw [if_pos heq, Tree.put_key] at hpart
    exact Option.some.inj hpart ▸ hinsert _ _ _
  · rw [if_neg heq] at hpart
    exact h other part hpart

/-- The key that the variable of a leaf sets leads to the leaf. -/
theorem key?_of_variableName {name : String} {slot : Slot}
    (h : Text.lower name = slot.variableName) :
    ∃ key, Variable.key? name = some key ∧ Path.ofKey key = [.key slot.part, .key slot.name] := by
  refine ⟨slot.part ++ "." ++ slot.name, ?_, ?_⟩
  · rw [Variable.key?, h]
    cases slot <;> decide +kernel
  · cases slot <;> decide +kernel

theorem onto_variable {v : String × String} {slot : Slot} (h : Text.lower v.1 = slot.variableName)
    (t : Tree) : (Layer.ofEnvironment [v]).onto t =
      putLeaf t slot (.scalar (some Variable.origin) (Variable.scalar v.2)) := by
  obtain ⟨key, hkey, hpath⟩ := key?_of_variableName h
  have hlayer : Layer.ofEnvironment [v] =
      [(key, .scalar (some Variable.origin) (Variable.scalar v.2))] := by
    simp [Layer.ofEnvironment, hkey]
  rw [hlayer, putLeaf, ← hpath]
  rfl

theorem onto_unmarked {v : String × String}
    (h : ¬ "rehook__".toList <+: (Text.lower v.1).toList) (t : Tree) :
    (Layer.ofEnvironment [v]).onto t = t := by
  have hlayer : Layer.ofEnvironment [v] = [] := by
    simp [Layer.ofEnvironment, Variable.key?_eq_none h]
  rw [hlayer]
  rfl

theorem onto_environment_cons (v : String × String) (environment : List (String × String))
    (t : Tree) : (Layer.ofEnvironment (v :: environment)).onto t =
      (Layer.ofEnvironment environment).onto ((Layer.ofEnvironment [v]).onto t) := by
  have hlayer : Layer.ofEnvironment (v :: environment) =
      Layer.ofEnvironment [v] ++ Layer.ofEnvironment environment :=
    List.filterMap_append (l := [v])
  rw [hlayer]
  exact List.foldl_append

theorem setByVariable_cons (v : String × String) (environment : List (String × String))
    (slot : Slot) : setByVariable (v :: environment) slot =
      (setByVariable environment slot).or (setByVariable [v] slot) := by
  rw [setByVariable, List.reverse_cons, List.find?_append, Option.map_or]
  rfl

/-- An environment over a tree: its variables set their leaves, and the other leaves are those of
the tree. -/
theorem leafOf_onto_environment (h : OnlyLeaves environment) {t : Tree} (ht : Parted t) :
    Parted ((Layer.ofEnvironment environment).onto t) ∧ ∀ slot,
      leafOf ((Layer.ofEnvironment environment).onto t) slot =
        ((setByVariable environment slot).map (.scalar (some Variable.origin))).or
          (leafOf t slot) := by
  induction environment generalizing t with
  | nil => exact ⟨ht, fun slot => rfl⟩
  | cons v environment ih =>
    have hrest : OnlyLeaves environment := fun u hu => h u (List.mem_cons_of_mem v hu)
    rw [onto_environment_cons]
    by_cases hmarked : "rehook__".toList <+: (Text.lower v.1).toList
    · obtain ⟨slot, hslot⟩ := h v List.mem_cons_self hmarked
      rw [onto_variable hslot]
      obtain ⟨hparted, hleaves⟩ := ih hrest (parted_putLeaf ht slot _)
      refine ⟨hparted, fun other => ?_⟩
      rw [hleaves other, leafOf_putLeaf, setByVariable_cons, Option.map_or, Option.or_assoc]
      by_cases heq : other = slot
      · simp [setByVariable, hslot, heq]
      · have hne : slot.variableName ≠ other.variableName :=
          fun hname => heq (Slot.variableName_injective hname).symm
        simp [setByVariable, hslot, heq, hne]
    · rw [onto_unmarked hmarked]
      obtain ⟨hparted, hleaves⟩ := ih hrest ht
      refine ⟨hparted, fun slot => ?_⟩
      have hne : Text.lower v.1 ≠ slot.variableName :=
        fun hname => hmarked (hname ▸ slot.lead_prefix_variableName)
      rw [hleaves slot, setByVariable_cons]
      simp [setByVariable, hne]

end Environment

section Understanding

/-- A value read by each of the ways to read a leaf is read alike where it lies over nothing. -/
theorem read_laid {v : Toml.Value} (hv : Keyed v) (origin : Option String) :
    Tree.policy (laid (.ofToml origin v)) = Tree.policy (.ofToml origin v) ∧
      Tree.flag (laid (.ofToml origin v)) = Tree.flag (.ofToml origin v) ∧
      Tree.text (laid (.ofToml origin v)) = Tree.text (.ofToml origin v) := by
  have hscalar : ∀ s, laid (.scalar origin s) = .scalar origin s := fun s => Tree.merge_scalar ..
  cases v with
  | flag | integer | real | text => simp only [Tree.ofToml, hscalar, and_self]
  | list items =>
    have hlist : ∀ ts, laid (.list origin ts) = .list origin ts := fun ts => by
      simp [laid, Tree.merge]
    simp only [Tree.ofToml, hlist, and_self]
  | table ms =>
    have hkeys : ((Tree.ofTomlMembers origin ms).map Prod.fst).Nodup := by
      rw [ofTomlMembers_eq_map, List.map_map]
      exact nodup_of_keyed hv
    rw [Tree.ofToml, laid_table _ hkeys, ofTomlMembers_eq_map]
    refine ⟨?_, rfl, rfl⟩
    rcases ms with _ | ⟨m, _ | ⟨m', ms⟩⟩ <;> rfl

theorem mapError_eq_ok_iff {ε ε' : Type} {f : ε → ε'} {x : Except ε α} {a : α} :
    x.mapError f = .ok a ↔ x = .ok a := by
  cases x with
  | ok b => exact ⟨fun h => congrArg _ (Except.ok.inj h), fun h => congrArg _ (Except.ok.inj h)⟩
  | error e => exact ⟨nofun, nofun⟩

theorem bind_eq_ok_iff {ε : Type} {x : Except ε α} {k : α → Except ε β} {b : β} :
    (x >>= k) = .ok b ↔ ∃ a, x = .ok a ∧ k a = .ok b := by
  cases x <;> simp [bind, Except.bind]

theorem value_eq_ok_iff (leaf : Leaf α) (place : String) (origin : Option String)
    (ms : List (String × Tree)) (a : α) :
    leaf.value place (.table origin ms) = .ok a ↔ outcome leaf (ms.lookup leaf.name) = .ok a := by
  rw [Leaf.value, Leaf.find?]
  cases ms.lookup leaf.name with
  | none => simp [outcome]
  | some t => exact mapError_eq_ok_iff

theorem hooksOf_eq_ok_iff (origin : Option String) (ms : List (String × Tree)) (s : HookSettings) :
    hooksOf (.table origin ms) = .ok s ↔
      outcome Settings.onDuplicate (ms.lookup "on_duplicate") = .ok s.onDuplicate ∧
        outcome Settings.fatalErrors (ms.lookup "fatal_errors") = .ok s.fatalErrors := by
  obtain ⟨policy, fatal⟩ := s
  have hpolicy := value_eq_ok_iff Settings.onDuplicate "hooks" origin ms policy
  have hfatal := value_eq_ok_iff Settings.fatalErrors "hooks" origin ms fatal
  refine Iff.trans ?_ (and_congr hpolicy hfatal)
  simp [hooksOf, bind_eq_ok_iff, expectPart, pure, Except.pure]

theorem loggingOf_eq_ok_iff (origin : Option String) (ms : List (String × Tree)) (s : LogSettings) :
    loggingOf (.table origin ms) = .ok s ↔
      outcome Settings.level (ms.lookup "level") = .ok s.level ∧
        outcome Settings.format (ms.lookup "format") = .ok s.format := by
  obtain ⟨level, format⟩ := s
  have hlevel := value_eq_ok_iff Settings.level "logging" origin ms level
  have hformat := value_eq_ok_iff Settings.format "logging" origin ms format
  refine Iff.trans ?_ (and_congr hlevel hformat)
  simp [loggingOf, bind_eq_ok_iff, expectPart, pure, Except.pure]

/-- The settings of a tree whose parts are tables are those of its leaves. -/
theorem ofTree_eq_ok_iff {t : Tree} (h : Parted t) (s : Settings) :
    ofTree t = .ok s ↔
      (outcome Settings.onDuplicate (leafOf t .onDuplicate) = .ok s.hooks.onDuplicate ∧
        outcome Settings.fatalErrors (leafOf t .fatalErrors) = .ok s.hooks.fatalErrors) ∧
      outcome Settings.level (leafOf t .level) = .ok s.logging.level ∧
        outcome Settings.format (leafOf t .format) = .ok s.logging.format := by
  obtain ⟨hooks, logging⟩ := s
  have hhooks : (t.member? "hooks").elim (.ok {}) hooksOf = .ok hooks ↔
      outcome Settings.onDuplicate (leafOf t .onDuplicate) = .ok hooks.onDuplicate ∧
        outcome Settings.fatalErrors (leafOf t .fatalErrors) = .ok hooks.fatalErrors := by
    rw [leafOf, leafOf, Slot.part, Slot.part]
    cases hpart : t.member? "hooks" with
    | none =>
      obtain ⟨policy, fatal⟩ := hooks
      simp [outcome, Settings.onDuplicate, Settings.fatalErrors]
    | some part =>
      obtain ⟨origin, ms, rfl⟩ := h .onDuplicate part hpart
      exact hooksOf_eq_ok_iff origin ms hooks
  have hlogging : (t.member? "logging").elim (.ok {}) loggingOf = .ok logging ↔
      outcome Settings.level (leafOf t .level) = .ok logging.level ∧
        outcome Settings.format (leafOf t .format) = .ok logging.format := by
    rw [leafOf, leafOf, Slot.part, Slot.part]
    cases hpart : t.member? "logging" with
    | none =>
      obtain ⟨level, format⟩ := logging
      simp [outcome, Settings.level, Settings.format]
    | some part =>
      obtain ⟨origin, ms, rfl⟩ := h .level part hpart
      exact loggingOf_eq_ok_iff origin ms logging
  rw [← hhooks, ← hlogging, ofTree]
  simp [bind_eq_ok_iff, pure, Except.pure]

/-- A leaf is read from a document as it is from the tree in which the document is laid. -/
theorem outcome_inForce (environment : List (String × String)) (path : String)
    {members : List (String × Toml.Value)} (hkeyed : Keyed (.table members)) (slot : Slot)
    {leaf : Leaf α}
    (hread : ∀ v, Keyed v → leaf.read (laid (.ofToml (some path) v)) =
      leaf.read (.ofToml (some path) v)) :
    outcome leaf (((setByVariable environment slot).map (.scalar (some Variable.origin))).or
        ((setByFile members slot).map fun v => laid (.ofToml (some path) v))) =
      outcome leaf (inForce environment path members slot) := by
  unfold inForce
  cases setByVariable environment slot with
  | some s => rfl
  | none =>
    cases hentry : setByFile members slot with
    | none => rfl
    | some v =>
      obtain ⟨part, hpart, hv⟩ := Option.bind_eq_some_iff.mp hentry
      cases part with
      | flag | integer | real | text | list => exact absurd hv (by simp [memberOf?])
      | table ms => exact hread v (keyed_of_lookup (keyed_of_lookup hkeyed hpart) hv)

end Understanding

section Misfits

/-- A list or a table. -/
def Composite (t : Tree) : Prop :=
  (∃ origin items, t = .list origin items) ∨ ∃ origin ms, t = .table origin ms

/-- Neither the name of a policy nor a table with the name of one as its only key. -/
def NoPolicy (t : Tree) : Prop :=
  ∀ (p : DuplicatePolicy) (origin : Option String),
    t ≠ .scalar origin (.text p.name) ∧ ∀ u, t ≠ .table origin [(p.name, u)]

/-- A list, a table, or a word that stands for no flag. -/
def NoFlag (t : Tree) : Prop :=
  Composite t ∨ ∃ origin s, t = .scalar origin (.text s) ∧
    Text.lower s ∉ ["1", "true", "on", "yes", "0", "false", "off", "no"]

def Fails {ε : Type} (x : Except ε α) : Prop := ∃ e, x = .error e

theorem not_fails_iff {ε : Type} {x : Except ε α} : ¬ Fails x ↔ ∃ a, x = .ok a := by
  cases x <;> simp [Fails]

theorem policyNamed_name (p : DuplicatePolicy) : Tree.policyNamed p.name = .ok p := by
  cases p <;> rfl

theorem policyNamed_fails_iff (name : String) :
    Fails (Tree.policyNamed name) ↔ ∀ p : DuplicatePolicy, name ≠ p.name := by
  constructor
  · rintro ⟨m, hm⟩ p rfl
    rw [policyNamed_name] at hm
    exact absurd hm (by simp)
  · intro h
    have hreject : ("reject" == name) = false := beq_false_of_ne (h .reject).symm
    have hreplace : ("replace" == name) = false := beq_false_of_ne (h .replace).symm
    refine ⟨.unknownPolicy name, ?_⟩
    simp [Tree.policyNamed, DuplicatePolicy.name, List.find?, hreject, hreplace]

theorem policy_fails_iff (t : Tree) : Fails t.policy ↔ NoPolicy t := by
  have hnone : Fails (.error .noPolicy : Except Misfit DuplicatePolicy) := ⟨_, rfl⟩
  rcases t with ⟨origin, s⟩ | ⟨origin, items⟩ | ⟨origin, ms⟩
  · cases s with
    | text name => simpa [NoPolicy, Tree.policy] using policyNamed_fails_iff name
    | nil | flag | integer | real => simpa [NoPolicy, Tree.policy] using hnone
  · simpa [NoPolicy, Tree.policy] using hnone
  · rcases ms with _ | ⟨⟨key, u⟩, _ | ⟨m, ms⟩⟩
    · simpa [NoPolicy, Tree.policy] using hnone
    · simpa [NoPolicy, Tree.policy] using policyNamed_fails_iff key
    · simpa [NoPolicy, Tree.policy] using hnone

/-- Something is there. -/
def Present (t : Tree) : Prop := ∀ origin, t ≠ .scalar origin .nil

theorem flagOfWord?_eq_none_iff (word : String) : Tree.flagOfWord? word = none ↔
    word ∉ ["1", "true", "on", "yes", "0", "false", "off", "no"] := by
  have hwords : ["1", "true", "on", "yes", "0", "false", "off", "no"] =
      ["1", "true", "on", "yes"] ++ ["0", "false", "off", "no"] := rfl
  rw [hwords, List.mem_append, not_or, Tree.flagOfWord?]
  by_cases hyes : word ∈ ["1", "true", "on", "yes"]
  · simp [hyes]
  · by_cases hno : word ∈ ["0", "false", "off", "no"]
    · simp [hno, hyes]
    · simp [hyes, hno]

theorem flag_fails_iff {t : Tree} (h : Present t) : Fails t.flag ↔ NoFlag t := by
  rcases t with ⟨origin, s⟩ | ⟨origin, items⟩ | ⟨origin, ms⟩
  · cases s with
    | nil => exact absurd rfl (h origin)
    | flag | integer | real => simp [Fails, NoFlag, Composite, Tree.flag]
    | text word =>
      have hno : NoFlag (.scalar origin (.text word)) ↔
          Text.lower word ∉ ["1", "true", "on", "yes", "0", "false", "off", "no"] := by
        constructor
        · rintro (hcomposite | ⟨_, _, heq, hword⟩)
          · exact absurd hcomposite (by simp [Composite])
          · cases heq
            exact hword
        · exact fun hword => .inr ⟨origin, word, rfl, hword⟩
      rw [hno, ← flagOfWord?_eq_none_iff]
      cases hflag : Tree.flagOfWord? (Text.lower word) <;> simp [Fails, Tree.flag, hflag]
  · simp [Fails, NoFlag, Composite, Tree.flag]
  · simp [Fails, NoFlag, Composite, Tree.flag]

theorem text_fails_iff {t : Tree} (h : Present t) : Fails t.text ↔ Composite t := by
  rcases t with ⟨origin, s⟩ | ⟨origin, items⟩ | ⟨origin, ms⟩
  · cases s with
    | nil => exact absurd rfl (h origin)
    | flag | integer | real | text => simp [Fails, Composite, Tree.text]
  · simp [Fails, Composite, Tree.text]
  · simp [Fails, Composite, Tree.text]

theorem scalar_ne_nil (value : String) : Variable.scalar value ≠ .nil := by
  unfold Variable.scalar
  simp only
  split
  · simp
  · split
    · simp
    · split <;> simp

theorem present_inForce {environment : List (String × String)} {path : String}
    {members : List (String × Toml.Value)} {slot : Slot} {t : Tree}
    (h : inForce environment path members slot = some t) : Present t := by
  intro origin hnil
  subst hnil
  rcases Option.or_eq_some_iff.mp h with h | ⟨_, h⟩
  · obtain ⟨s, hs, heq⟩ := Option.map_eq_some_iff.mp h
    obtain ⟨v, _, rfl⟩ := Option.map_eq_some_iff.mp hs
    exact scalar_ne_nil v.2 (Tree.scalar.inj heq).2
  · obtain ⟨v, _, heq⟩ := Option.map_eq_some_iff.mp h
    cases v <;> simp [Tree.ofToml] at heq

theorem outcome_fails_iff (leaf : Leaf α) (t : Option Tree) :
    Fails (outcome leaf t) ↔ ∃ u, t = some u ∧ Fails (leaf.read u) := by
  cases t <;> simp [outcome, Fails]

end Misfits

theorem load_eq_ok_iff_ofFile (files : Files) (environment : List (String × String))
    (path : String) (s : Settings) :
    (load files environment path).1 = .ok s ↔ ofFile files environment path = .ok s := by
  rw [load]
  cases ofFile files environment path <;> simp

section Loading
variable {files : Files} {environment : List (String × String)} {path : String} {file : File}
  {members : List (String × Toml.Value)} (hfind : files.find? path = some file)
  (hkind : file.kind = .toml) (hread : Toml.read? file.text = some members)
  (hregular : Regular members) (honly : OnlyLeaves environment)
include hfind hkind hread hregular honly

/-- What is in force for the four leaves makes the settings. -/
theorem load_eq_ok_iff (s : Settings) :
    (load files environment path).1 = .ok s ↔
      (outcome Settings.onDuplicate (inForce environment file.path members .onDuplicate) =
          .ok s.hooks.onDuplicate ∧
        outcome Settings.fatalErrors (inForce environment file.path members .fatalErrors) =
          .ok s.hooks.fatalErrors) ∧
      outcome Settings.level (inForce environment file.path members .level) =
          .ok s.logging.level ∧
        outcome Settings.format (inForce environment file.path members .format) =
          .ok s.logging.format := by
  have hkeyed := keyed_document hread
  have hlayer : file.layer? = some (Tree.ofTomlMembers (some file.path) members) := by
    simp [File.layer?, hkind, hread]
  have hfile : ofFile files environment path = (ofTree ((Layer.ofEnvironment environment).onto
      (fileTree file.path members))).mapError .unfit := by
    simp only [ofFile, hfind, hlayer]
    rfl
  have hload : (load files environment path).1 = .ok s ↔
      ofTree ((Layer.ofEnvironment environment).onto (fileTree file.path members)) = .ok s := by
    rw [load_eq_ok_iff_ofFile, hfile, mapError_eq_ok_iff]
  have hparted : Parted (fileTree file.path members) := parted_fileTree hregular hkeyed
  obtain ⟨hparted, hleaves⟩ := leafOf_onto_environment honly hparted
  have hforce : ∀ slot, leafOf ((Layer.ofEnvironment environment).onto
      (fileTree file.path members)) slot =
        ((setByVariable environment slot).map (.scalar (some Variable.origin))).or
          ((setByFile members slot).map fun v => laid (.ofToml (some file.path) v)) := by
    intro slot
    rw [hleaves slot, leafOf_fileTree hregular hkeyed]
  rw [hload, ofTree_eq_ok_iff hparted, hforce, hforce, hforce, hforce,
    outcome_inForce environment file.path hkeyed .onDuplicate fun v hv => (read_laid hv _).1,
    outcome_inForce environment file.path hkeyed .fatalErrors fun v hv => (read_laid hv _).2.1,
    outcome_inForce environment file.path hkeyed .level fun v hv => (read_laid hv _).2.2,
    outcome_inForce environment file.path hkeyed .format fun v hv => (read_laid hv _).2.2]

theorem load_fails_iff :
    Fails (load files environment path).1 ↔
      Fails (outcome Settings.onDuplicate (inForce environment file.path members .onDuplicate)) ∨
      Fails (outcome Settings.fatalErrors (inForce environment file.path members .fatalErrors)) ∨
      Fails (outcome Settings.level (inForce environment file.path members .level)) ∨
      Fails (outcome Settings.format (inForce environment file.path members .format)) := by
  have hload := load_eq_ok_iff hfind hkind hread hregular honly
  rw [← not_iff_not, not_or, not_or, not_or, not_fails_iff, not_fails_iff, not_fails_iff,
    not_fails_iff, not_fails_iff]
  constructor
  · rintro ⟨s, hs⟩
    obtain ⟨⟨hpolicy, hfatal⟩, hlevel, hformat⟩ := (hload s).mp hs
    exact ⟨⟨_, hpolicy⟩, ⟨_, hfatal⟩, ⟨_, hlevel⟩, ⟨_, hformat⟩⟩
  · rintro ⟨⟨policy, hpolicy⟩, ⟨fatal, hfatal⟩, ⟨level, hlevel⟩, ⟨format, hformat⟩⟩
    exact ⟨⟨⟨policy, fatal⟩, ⟨level, format⟩⟩, (hload _).mpr ⟨⟨hpolicy, hfatal⟩, hlevel, hformat⟩⟩

end Loading

/-- A leaf fails where what is in force does not fit. -/
theorem outcome_inForce_fails_iff {environment : List (String × String)} {path : String}
    {members : List (String × Toml.Value)} {slot : Slot} {leaf : Leaf α} {Misfit : Tree → Prop}
    (hmisfit : ∀ t, Present t → (Fails (leaf.read t) ↔ Misfit t)) :
    Fails (outcome leaf (inForce environment path members slot)) ↔
      ∃ t, inForce environment path members slot = some t ∧ Misfit t := by
  rw [outcome_fails_iff]
  refine exists_congr fun t => and_congr_right fun ht => ?_
  exact hmisfit t (present_inForce ht)

/-- A document with a misfit, an unknown key in a part, an unknown key beside the parts, and nothing
for one of the leaves. -/
def mixed : String :=
  "colour = 1\n[hooks]\non_duplicate = \"merge\"\nfatal_errors = \"Off\"\nextra = [1]\n" ++
    "[logging]\nformat = 7\n"

/-- Two variables, one of which goes over the misfit. -/
def surrounding : List (String × String) :=
  [("Rehook__HOOKS__on_Duplicate", "replace"), ("HOME", "/")]

end PatternHooks.SettingsLayers
