import PatternHooks.Proofs.SettingsLayers

/-!
What settings owe to where they come from. Each value remembers its origin, and nothing but the end
of a complaint ever shows it: trees whose origins are relabelled are merged, changed and understood
as before. So a document says the same whether it is given as a text or found in a file: settings,
if everything in it fits, and a complaint otherwise.
-/

namespace PatternHooks.SettingsOrigins

open Settings SettingsLayers

variable {α β ε : Type}

section Relabel
variable (f : Option String → Option String)

mutual

/-- The tree with its origins relabelled. -/
def relabel : Tree → Tree
  | .scalar origin s => .scalar (f origin) s
  | .list origin items => .list (f origin) (relabelItems items)
  | .table origin members => .table (f origin) (relabelMembers members)

def relabelItems : List Tree → List Tree
  | [] => []
  | t :: items => relabel t :: relabelItems items

def relabelMembers : List (String × Tree) → List (String × Tree)
  | [] => []
  | (key, t) :: members => (key, relabel t) :: relabelMembers members

end

theorem relabelItems_eq_map (items : List Tree) : relabelItems f items = items.map (relabel f) := by
  induction items with
  | nil => rfl
  | cons t items ih => rw [relabelItems, ih, List.map_cons]

@[simp] theorem members_relabel (t : Tree) :
    (relabel f t).members = relabelMembers f t.members := by
  cases t <;> rfl

@[simp] theorem origin_relabel (t : Tree) : (relabel f t).origin = f t.origin := by
  cases t <;> rfl

theorem lookup_relabelMembers (key : String) (ms : List (String × Tree)) :
    (relabelMembers f ms).lookup key = (ms.lookup key).map (relabel f) := by
  induction ms with
  | nil => rfl
  | cons m ms ih =>
    obtain ⟨k, t⟩ := m
    rw [relabelMembers, Tree.lookup_cons_eq, Tree.lookup_cons_eq, ih]
    by_cases h : key = k
    · simp [h]
    · simp [h]

@[simp] theorem member?_relabel (t : Tree) (key : String) :
    (relabel f t).member? key = (t.member? key).map (relabel f) := by
  rw [Tree.member?, members_relabel, lookup_relabelMembers]
  rfl

theorem setMember_relabel (key : String) (t : Tree) (ms : List (String × Tree)) :
    Tree.setMember key (relabel f t) (relabelMembers f ms) =
      relabelMembers f (Tree.setMember key t ms) := by
  induction ms with
  | nil => rfl
  | cons m ms ih =>
    obtain ⟨k, s⟩ := m
    by_cases h : k = key
    · simp [Tree.setMember, relabelMembers, h]
    · simp [Tree.setMember, relabelMembers, h, ih]

end Relabel

theorem map_modify {r g g' : α → α} (hg : ∀ a, r (g a) = g' (r a)) (n : Nat) (as : List α) :
    (as.modify n g).map r = (as.map r).modify n g' := by
  induction as generalizing n with
  | nil => simp
  | cons a as ih => cases n <;> simp [hg, ih]

section Changes
-- Wherever a tree has to be made its origin is none, so relabellings that keep none commute with
-- every way to change a tree.
variable {f : Option String → Option String} (hf : f none = none)
include hf

theorem relabel_nil : relabel f .nil = .nil := by
  simp [Settings.Tree.nil, relabel, hf]

theorem relabel_insert (t child : Tree) (key : String) :
    relabel f (t.insert key child) = (relabel f t).insert key (relabel f child) := by
  cases t with
  | table origin ms => simp [Tree.insert, relabel, setMember_relabel]
  | scalar origin s => simp [Tree.insert, relabel, relabelMembers, hf]
  | list origin items => simp [Tree.insert, relabel, relabelMembers, hf]

theorem getD_relabel (t : Option Tree) :
    (t.map (relabel f)).getD .nil = relabel f (t.getD .nil) := by
  cases t with
  | none => exact (relabel_nil hf).symm
  | some t => rfl

mutual

theorem relabel_merge (under : Tree) :
    ∀ top, relabel f (under.merge top) = (relabel f under).merge (relabel f top)
  | .scalar origin s => by simp [Tree.merge, relabel]
  | .list origin items => by simp [Tree.merge, relabel]
  | .table origin members => by
    cases under with
    | table => simp only [Tree.merge, relabel, relabel_mergeMembers _ members]
    | scalar => simp [Tree.merge, relabel, relabel_mergeMembers _ members, Tree.empty, hf,
        relabelMembers]
    | list => simp [Tree.merge, relabel, relabel_mergeMembers _ members, Tree.empty, hf,
        relabelMembers]

theorem relabel_mergeMembers (under : Tree) :
    ∀ members, relabel f (under.mergeMembers members) =
      (relabel f under).mergeMembers (relabelMembers f members)
  | [] => by simp [Tree.mergeMembers, relabelMembers]
  | (key, top) :: members => by
    rw [Tree.mergeMembers, relabel_mergeMembers _ members, relabel_insert hf, relabel_merge _ top,
      ← getD_relabel hf, ← member?_relabel, relabelMembers, Tree.mergeMembers]

end

theorem reach_relabel (items : List Tree) (index : Int) :
    Tree.reach (items.map (relabel f)) index =
      ((Tree.reach items index).1.map (relabel f), (Tree.reach items index).2) := by
  unfold Tree.reach
  by_cases hfront : 0 ≤ index
  · simp [hfront, relabel_nil hf]
  · by_cases hin : index.natAbs ≤ items.length
    · simp [hfront, hin]
    · simp [hfront, hin, relabel_nil hf]

theorem relabel_modifyItem {g g' : Tree → Tree} (hg : ∀ t, relabel f (g t) = g' (relabel f t))
    (t : Tree) (index : Int) :
    relabel f (t.modifyItem index g) = (relabel f t).modifyItem index g' := by
  have hlist : ∀ origin items, relabel f ((Tree.list origin items).modifyItem index g) =
      (Tree.list (f origin) (items.map (relabel f))).modifyItem index g' := by
    intro origin items
    simp only [Tree.modifyItem, relabel, relabelItems_eq_map, reach_relabel hf, map_modify hg]
  cases t with
  | list origin items => rw [hlist, relabel, relabelItems_eq_map]
  | scalar origin s => rw [show (Tree.scalar origin s).modifyItem index g =
      (Tree.list none []).modifyItem index g from rfl, hlist, hf]; rfl
  | table origin members => rw [show (Tree.table origin members).modifyItem index g =
      (Tree.list none []).modifyItem index g from rfl, hlist, hf]; rfl

theorem relabel_modify {g g' : Tree → Tree} (hg : ∀ t, relabel f (g t) = g' (relabel f t))
    (path : List Step) (t : Tree) :
    relabel f (t.modify g path) = (relabel f t).modify g' path := by
  induction path generalizing t with
  | nil => exact hg t
  | cons step path ih =>
    cases step with
    | key name =>
      simp only [Tree.modify, relabel_insert hf, ih, member?_relabel, getD_relabel hf]
    | index i => exact relabel_modifyItem hf ih t i

theorem relabel_put (t top : Tree) (path : List Step) :
    relabel f (t.put path top) = (relabel f t).put path (relabel f top) :=
  relabel_modify hf (fun t => relabel_merge hf t top) path t

theorem relabel_onto (layer : Layer) (under : Tree) :
    relabel f (layer.onto under) =
      Layer.onto (relabelMembers f layer) (relabel f under) := by
  induction layer generalizing under with
  | nil => rfl
  | cons m layer ih =>
    obtain ⟨key, child⟩ := m
    have hput := relabel_put hf under child (Path.ofKey key)
    simp only [Layer.onto, List.foldl_cons] at ih ⊢
    rw [ih, hput]
    rfl

theorem relabel_empty : relabel f .empty = .empty := by
  simp [Tree.empty, relabel, relabelMembers, hf]

end Changes

mutual

theorem relabel_ofToml (f : Option String → Option String) (origin : Option String) :
    ∀ v, relabel f (.ofToml origin v) = .ofToml (f origin) v
  | .flag b | .integer n | .real x | .text s => rfl
  | .list items => by
    rw [Tree.ofToml, Tree.ofToml, relabel, relabel_ofTomlItems]
  | .table members => by
    rw [Tree.ofToml, Tree.ofToml, relabel, relabel_ofTomlMembers]

theorem relabel_ofTomlItems (f : Option String → Option String) (origin : Option String) :
    ∀ items, relabelItems f (Tree.ofTomlItems origin items) = Tree.ofTomlItems (f origin) items
  | [] => rfl
  | v :: items => by
    rw [Tree.ofTomlItems, Tree.ofTomlItems, relabelItems, relabel_ofToml, relabel_ofTomlItems]

theorem relabel_ofTomlMembers (f : Option String → Option String) (origin : Option String) :
    ∀ members, relabelMembers f (Tree.ofTomlMembers origin members) =
      Tree.ofTomlMembers (f origin) members
  | [] => rfl
  | (key, v) :: members => by
    rw [Tree.ofTomlMembers, Tree.ofTomlMembers, relabelMembers, relabel_ofToml,
      relabel_ofTomlMembers]

end

section Understanding
variable (f : Option String → Option String)

theorem flag_relabel (t : Tree) : (relabel f t).flag = t.flag := by
  cases t with
  | scalar origin s => cases s <;> rfl
  | list | table => rfl

theorem text_relabel (t : Tree) : (relabel f t).text = t.text := by
  cases t with
  | scalar origin s => cases s <;> rfl
  | list | table => rfl

theorem policy_relabel (t : Tree) : (relabel f t).policy = t.policy := by
  cases t with
  | scalar origin s => cases s <;> rfl
  | list origin items => rfl
  | table origin members =>
    rcases members with _ | ⟨⟨key, t⟩, _ | ⟨m, ms⟩⟩ <;> rfl

/-- The complaint with its origin relabelled. -/
def relabelComplaint (c : Complaint) : Complaint := { c with origin := f c.origin }

theorem find?_relabel (leaf : Leaf α) (place : String) (part : Tree) :
    leaf.find? place (relabel f part) =
      (leaf.find? place part).map fun found => (found.1, relabel f found.2) := by
  cases part with
  | scalar origin s => rfl
  | list origin items =>
    simp only [Leaf.find?, relabel, relabelItems_eq_map, List.getElem?_map, Option.map_map]
    rfl
  | table origin members =>
    simp only [Leaf.find?, relabel, lookup_relabelMembers, Option.map_map]
    rfl

theorem mapError_bind {ε ε' β : Type} (g : ε → ε') (x : Except ε α) (k : α → Except ε β) :
    (x >>= k).mapError g = x.mapError g >>= fun a => (k a).mapError g := by
  cases x <;> rfl

variable {f} (hf : f none = none)
include hf

theorem value_relabel (leaf : Leaf α) (hread : ∀ t, leaf.read (relabel f t) = leaf.read t)
    (place : String) (part : Tree) :
    leaf.value place (relabel f part) =
      (leaf.value place part).mapError (relabelComplaint f) := by
  rw [Leaf.value, Leaf.value, find?_relabel f]
  cases leaf.find? place part with
  | none => rfl
  | some found =>
    obtain ⟨place, t⟩ := found
    simp only [Option.map_some, hread, origin_relabel]
    cases leaf.read t with
    | ok a => rfl
    | error m =>
      have hcomplaint : (⟨m, place, if leaf.traced then f t.origin else none⟩ : Complaint) =
          relabelComplaint f ⟨m, place, if leaf.traced then t.origin else none⟩ := by
        cases leaf.traced <;> simp [relabelComplaint, hf]
      exact congrArg Except.error hcomplaint

theorem expectPart_relabel (place title : String) (t : Tree) :
    expectPart place title (relabel f t) =
      (expectPart place title t).mapError (relabelComplaint f) := by
  cases t with
  | scalar origin s =>
    have hcomplaint : relabelComplaint f
        { misfit := .kind (Tree.scalar origin s).found (.part title), place } =
          { misfit := .kind (relabel f (.scalar origin s)).found (.part title), place } := by
      cases s <;> simp [relabelComplaint, relabel, Tree.found, hf]
    exact congrArg Except.error hcomplaint.symm
  | list | table => rfl

theorem hooksOf_relabel (t : Tree) :
    hooksOf (relabel f t) = (hooksOf t).mapError (relabelComplaint f) := by
  have hpolicy := value_relabel hf onDuplicate (policy_relabel f) "hooks" t
  have hfatal := value_relabel hf fatalErrors (flag_relabel f) "hooks" t
  rw [hooksOf, hooksOf, expectPart_relabel hf, hpolicy, hfatal]
  simp only [mapError_bind]
  rfl

theorem loggingOf_relabel (t : Tree) :
    loggingOf (relabel f t) = (loggingOf t).mapError (relabelComplaint f) := by
  have hlevel := value_relabel hf level (text_relabel f) "logging" t
  have hformat := value_relabel hf format (text_relabel f) "logging" t
  rw [loggingOf, loggingOf, expectPart_relabel hf, hlevel, hformat]
  simp only [mapError_bind]
  rfl

/-- The origins in a tree are seen in a complaint only. -/
theorem ofTree_relabel (t : Tree) :
    ofTree (relabel f t) = (ofTree t).mapError (relabelComplaint f) := by
  have hhooks : ((relabel f t).member? "hooks").elim (.ok {}) hooksOf =
      ((t.member? "hooks").elim (.ok {}) hooksOf).mapError (relabelComplaint f) := by
    rw [member?_relabel]
    cases t.member? "hooks" with
    | none => rfl
    | some part => exact hooksOf_relabel hf part
  have hlogging : ((relabel f t).member? "logging").elim (.ok {}) loggingOf =
      ((t.member? "logging").elim (.ok {}) loggingOf).mapError (relabelComplaint f) := by
    rw [member?_relabel]
    cases t.member? "logging" with
    | none => rfl
    | some part => exact loggingOf_relabel hf part
  rw [ofTree, ofTree, hhooks, hlogging]
  simp only [mapError_bind]
  rfl

end Understanding

/-- The tree of a document alone. -/
def documentTree (origin : Option String) (members : List (String × Toml.Value)) : Tree :=
  Layer.stack [Tree.ofTomlMembers origin members]

theorem documentTree_relabel {f : Option String → Option String} (hf : f none = none)
    (origin : Option String) (members : List (String × Toml.Value)) :
    relabel f (documentTree origin members) = documentTree (f origin) members := by
  have honto := relabel_onto hf (Tree.ofTomlMembers origin members) .empty
  rw [relabel_ofTomlMembers, relabel_empty hf] at honto
  exact honto

/-- What a document of some origin says, it says as well with no origin told; a complaint tells that
origin or none. -/
theorem ofTree_documentTree (origin : String) (members : List (String × Toml.Value)) :
    (∃ s, ofTree (documentTree (some origin) members) = .ok s ∧
      ofTree (documentTree none members) = .ok s) ∨
    ∃ (c : Complaint) (told : Option String), (told = none ∨ told = some origin) ∧
      c.origin = none ∧
      ofTree (documentTree (some origin) members) = .error { c with origin := told } ∧
      ofTree (documentTree none members) = .error c := by
  let forget : Option String → Option String := fun _ => none
  let keep : Option String → Option String := fun o => if o = some origin then o else none
  have hforget := ofTree_relabel (f := forget) rfl (documentTree (some origin) members)
  have hkeep := ofTree_relabel (f := keep) (by simp [keep]) (documentTree (some origin) members)
  rw [documentTree_relabel rfl] at hforget
  rw [documentTree_relabel (by simp [keep]), show keep (some origin) = some origin by
    simp [keep]] at hkeep
  cases hload : ofTree (documentTree (some origin) members) with
  | ok s =>
    rw [hload] at hforget
    exact .inl ⟨s, rfl, hforget⟩
  | error c =>
    rw [hload] at hforget hkeep
    have horigin : c = relabelComplaint keep c := Except.error.inj hkeep
    refine .inr ⟨relabelComplaint forget c, keep c.origin, ?_, rfl, ?_, hforget⟩
    · by_cases h : c.origin = some origin <;> simp [keep, h]
    · exact congrArg Except.error horigin

section Entries
variable {files : Files} {text : String}

theorem find?_document (hfile : files.content? ["c.toml"] = some text) :
    files.find? "c.toml" = some ⟨"c.toml", .toml, text⟩ := by
  have hsplit : Text.split '/' "c.toml" = ["c.toml"] := by decide +kernel
  have hnames : Files.names "c.toml" = ["c.toml"] := by decide +kernel
  have hopen : files.open? ["c.toml"] = some text := hfile
  have hkind : Files.kind? ["c.toml"] = some .toml := by decide +kernel
  have hpath : Files.path ["c.toml"] = "c.toml" := by decide +kernel
  rw [Files.find?, hsplit, hnames, hkind, hpath]
  simp only [hopen]
  rfl

theorem text_of_no_mark (path : String) (kind : FileKind)
    (hmark : text.toList.head? ≠ some '\ufeff') : File.text ⟨path, kind, text⟩ = text := by
  unfold File.text
  split
  · rename_i cs hcs
    simp only at hcs
    simp [hcs] at hmark
  · rfl

theorem ofEnvironment_eq_nil {environment : List (String × String)}
    (h : ∀ v ∈ environment, ¬ "rehook__".toList <+: (Text.lower v.1).toList) :
    Layer.ofEnvironment environment = [] := by
  refine List.filterMap_eq_nil_iff.mpr fun v hv => ?_
  simp only [Variable.key?_eq_none (h v hv), Option.map_none]

/-- A file that holds a document says what the document says, with the file as its origin. -/
theorem ofFile_document {environment : List (String × String)}
    (hfile : files.content? ["c.toml"] = some text) (hmark : text.toList.head? ≠ some '\ufeff')
    (hunmarked : ∀ v ∈ environment, ¬ "rehook__".toList <+: (Text.lower v.1).toList) :
    ofFile files environment "c.toml" = match Toml.read? text with
      | none => .error .malformed
      | some members => (ofTree (documentTree (some "c.toml") members)).mapError .unfit := by
  have hlayer : File.layer? ⟨"c.toml", .toml, text⟩ =
      (Toml.read? text).map (Tree.ofTomlMembers (some "c.toml")) := by
    rw [File.layer?, text_of_no_mark "c.toml" .toml hmark]
  simp only [ofFile, find?_document hfile, hlayer, ofEnvironment_eq_nil hunmarked]
  cases Toml.read? text <;> rfl

end Entries

section Misfits

/-- What a part of the settings has for a leaf: its member, or its item where the part is a list. -/
def seated (name : String) (position : ℕ) : Tree → Option Tree
  | .table _ members => members.lookup name
  | .list _ items => items[position]?
  | .scalar .. => none

/-- Neither a table nor a list. -/
def Plain (t : Tree) : Prop := ∃ origin s, t = .scalar origin s

/-- An item that was added to a list to reach another. -/
def Blank (t : Tree) : Prop := ∃ origin, t = .scalar origin .nil

/-- Something in a tree does not fit: a part of the settings is a plain value, or one of the leaves
has a value that it cannot have. -/
inductive Unfit (t : Tree) : Prop
  | part {key : String} {part : Tree} (hkey : key = "hooks" ∨ key = "logging")
      (hpart : t.member? key = some part) (hplain : Plain part) : Unfit t
  | onDuplicate {part u : Tree} (hpart : t.member? "hooks" = some part)
      (hleaf : seated "on_duplicate" 0 part = some u) (hno : NoPolicy u) : Unfit t
  | fatalErrors {part u : Tree} (hpart : t.member? "hooks" = some part)
      (hleaf : seated "fatal_errors" 1 part = some u) (hno : Blank u ∨ NoFlag u) : Unfit t
  | level {part u : Tree} (hpart : t.member? "logging" = some part)
      (hleaf : seated "level" 0 part = some u) (hno : Blank u ∨ Composite u) : Unfit t
  | format {part u : Tree} (hpart : t.member? "logging" = some part)
      (hleaf : seated "format" 1 part = some u) (hno : Blank u ∨ Composite u) : Unfit t

theorem fails_mapError_iff {ε' : Type} {f : ε → ε'} {x : Except ε α} :
    Fails (x.mapError f) ↔ Fails x := by
  cases x <;> simp [Fails, Except.mapError]

/-- Of two steps the first fails or the second does, if that is the same for all results of the
first. -/
theorem fails_bind_iff {x : Except ε α} {k : α → Except ε β} {P : Prop}
    (hk : ∀ a, Fails (k a) ↔ P) : Fails (x >>= k) ↔ Fails x ∨ P := by
  cases x with
  | ok a => exact (hk a).trans (or_iff_right (by simp [Fails])).symm
  | error e => exact iff_of_true ⟨e, rfl⟩ (.inl ⟨e, rfl⟩)

theorem fails_elim_iff {o : Option α} {b : β} {f : α → Except ε β} :
    Fails (o.elim (.ok b) f) ↔ ∃ a, o = some a ∧ Fails (f a) := by
  cases o <;> simp [Fails]

theorem value_fails_iff (leaf : Leaf α) (place : String) (part : Tree) :
    Fails (leaf.value place part) ↔
      ∃ u, seated leaf.name leaf.position part = some u ∧ Fails (leaf.read u) := by
  have hfind : (leaf.find? place part).map Prod.snd = seated leaf.name leaf.position part := by
    cases part <;> simp [Leaf.find?, seated, Function.comp_def]
  rw [← hfind, Leaf.value]
  cases leaf.find? place part with
  | none => simp [Fails]
  | some found =>
    simp only [fails_mapError_iff, Option.map_some, Option.some.injEq, exists_eq_left']

theorem expectPart_fails_iff (place title : String) (part : Tree) :
    Fails (expectPart place title part) ↔ Plain part := by
  cases part <;> simp [expectPart, Fails, Plain]

/-- The members of a part are read one after another. -/
theorem part_fails_iff {γ : Type} (place title : String) (part : Tree) (first : Leaf α)
    (second : Leaf β) (make : α → β → γ) :
    Fails (do
      expectPart place title part
      return make (← first.value place part) (← second.value place part)) ↔
    Plain part ∨ (∃ u, seated first.name first.position part = some u ∧ Fails (first.read u)) ∨
      ∃ u, seated second.name second.position part = some u ∧ Fails (second.read u) := by
  rw [← expectPart_fails_iff place title, ← value_fails_iff first place,
    ← value_fails_iff second place]
  refine fails_bind_iff fun _ => fails_bind_iff fun a => ?_
  refine (fails_bind_iff (P := False) fun b => ?_).trans (or_iff_left not_false)
  simp [Fails, pure, Except.pure]

theorem not_present_iff (t : Tree) : ¬ Present t ↔ Blank t := by
  simp [Present, Blank]

theorem flag_fails_iff_blank_or (t : Tree) : Fails t.flag ↔ Blank t ∨ NoFlag t := by
  by_cases h : Present t
  · rw [flag_fails_iff h, ← not_present_iff, or_iff_right (not_not.mpr h)]
  · obtain ⟨origin, rfl⟩ := (not_present_iff t).mp h
    exact iff_of_true ⟨_, rfl⟩ (.inl ⟨origin, rfl⟩)

theorem text_fails_iff_blank_or (t : Tree) : Fails t.text ↔ Blank t ∨ Composite t := by
  by_cases h : Present t
  · rw [text_fails_iff h, ← not_present_iff, or_iff_right (not_not.mpr h)]
  · obtain ⟨origin, rfl⟩ := (not_present_iff t).mp h
    exact iff_of_true ⟨_, rfl⟩ (.inl ⟨origin, rfl⟩)

theorem hooksOf_fails_iff (part : Tree) : Fails (hooksOf part) ↔ Plain part ∨
    (∃ u, seated "on_duplicate" 0 part = some u ∧ NoPolicy u) ∨
    ∃ u, seated "fatal_errors" 1 part = some u ∧ (Blank u ∨ NoFlag u) := by
  simp only [hooksOf, part_fails_iff, ← policy_fails_iff, ← flag_fails_iff_blank_or]
  rfl

theorem loggingOf_fails_iff (part : Tree) : Fails (loggingOf part) ↔ Plain part ∨
    (∃ u, seated "level" 0 part = some u ∧ (Blank u ∨ Composite u)) ∨
    ∃ u, seated "format" 1 part = some u ∧ (Blank u ∨ Composite u) := by
  simp only [loggingOf, part_fails_iff, ← text_fails_iff_blank_or]
  rfl

theorem ofTree_fails_iff_part_fails (t : Tree) : Fails (ofTree t) ↔
    (∃ part, t.member? "hooks" = some part ∧ Fails (hooksOf part)) ∨
    ∃ part, t.member? "logging" = some part ∧ Fails (loggingOf part) := by
  rw [← fails_elim_iff (b := {}), ← fails_elim_iff (b := {})]
  refine fails_bind_iff fun _ => (fails_bind_iff (P := False) fun _ => ?_).trans
    (or_iff_left not_false)
  simp [Fails, pure, Except.pure]

/-- A tree makes settings unless something in it does not fit. -/
theorem ofTree_fails_iff (t : Tree) : Fails (ofTree t) ↔ Unfit t := by
  simp only [ofTree_fails_iff_part_fails, hooksOf_fails_iff, loggingOf_fails_iff]
  constructor
  · rintro (⟨part, hpart, hplain | ⟨u, hleaf, hno⟩ | ⟨u, hleaf, hno⟩⟩ |
      ⟨part, hpart, hplain | ⟨u, hleaf, hno⟩ | ⟨u, hleaf, hno⟩⟩)
    · exact .part (.inl rfl) hpart hplain
    · exact .onDuplicate hpart hleaf hno
    · exact .fatalErrors hpart hleaf hno
    · exact .part (.inr rfl) hpart hplain
    · exact .level hpart hleaf hno
    · exact .format hpart hleaf hno
  · rintro (⟨hkey, hpart, hplain⟩ | ⟨hpart, hleaf, hno⟩ | ⟨hpart, hleaf, hno⟩ |
      ⟨hpart, hleaf, hno⟩ | ⟨hpart, hleaf, hno⟩)
    · rcases hkey with rfl | rfl
      · exact .inl ⟨_, hpart, .inl hplain⟩
      · exact .inr ⟨_, hpart, .inl hplain⟩
    · exact .inl ⟨_, hpart, .inr (.inl ⟨_, hleaf, hno⟩)⟩
    · exact .inl ⟨_, hpart, .inr (.inr ⟨_, hleaf, hno⟩)⟩
    · exact .inr ⟨_, hpart, .inr (.inl ⟨_, hleaf, hno⟩)⟩
    · exact .inr ⟨_, hpart, .inr (.inr ⟨_, hleaf, hno⟩)⟩

end Misfits

/-- How both ways to the settings of one text end. If everything in its document fits, with the
settings that the document makes, and a record of those that were loaded. If it is no document, or
something in it does not fit, with faults. These differ by what was being done and by the name of
the file; and the one of the text is caused by what refused it, while the one of the file has no
causes. -/
inductive Agree (text : String) :
    Except Fault Settings × List Record → Except Fault Settings → Prop where
  | settings (members : List (String × Toml.Value)) (s : Settings)
      (hread : Toml.read? text = some members) (hfits : ¬ Unfit (documentTree none members))
      (hmakes : ofTree (documentTree none members) = .ok s) :
    Agree text
      (.ok s, [Reporter.settings.record .info "Configuration loaded" [("path", .text "c.toml"),
        ("on_duplicate", .text s.hooks.onDuplicate.name),
        ("fatal_errors", .flag s.hooks.fatalErrors)]])
      (.ok s)
  | malformed (hread : Toml.read? text = none) :
    Agree text (.error ⟨.configuration, "Failed to build config: <syntax>", []⟩, [])
      (.error ⟨.configuration, "Configuration error: <syntax>", ["<syntax>"]⟩)
  | unfit (members : List (String × Toml.Value)) (c : Complaint) (tail : String)
      (hread : Toml.read? text = some members) (hunfit : Unfit (documentTree none members))
      (hmakes : ofTree (documentTree none members) = .error c) (hnone : c.origin = none)
      (htail : tail = "" ∨ tail = " in c.toml") :
    Agree text
      (.error ⟨.configuration, "Failed to deserialize config: " ++ c.message ++ tail, []⟩, [])
      (.error ⟨.configuration, "Configuration error: " ++ c.message, [c.message]⟩)

theorem Agree.unfit_of_error {text : String} {loaded : Except Fault Settings × List Record}
    {f : Fault} {members : List (String × Toml.Value)} (h : Agree text loaded (.error f))
    (hread : Toml.read? text = some members) : Unfit (documentTree none members) := by
  cases h with
  | malformed hnone =>
    rw [hread] at hnone
    cases hnone
  | unfit members' c tail hread' hunfit =>
    obtain rfl : members' = members := Option.some.inj (hread'.symm.trans hread)
    exact hunfit

/-- What a complaint says besides, if its origin is told. -/
def tail : Option String → String
  | some origin => " in " ++ origin
  | none => ""

theorem fault_told {c : Complaint} (hnone : c.origin = none) (told : Option String) :
    fault (.unfit { c with origin := told }) =
      ⟨.configuration, "Failed to deserialize config: " ++ c.message ++ tail told, []⟩ := by
  have hmessage : { c with origin := told }.message = c.message ++ tail told := by
    cases told <;> simp [Complaint.message, tail, hnone]
  rw [fault, Refusal.message, hmessage, ← String.append_assoc]
  rfl

/-- Loading a file where no variable is marked as a setting does what reading its text does. -/
theorem load_agrees_with_ofText (files : Files) (environment : List (String × String))
    (text : String) (hfile : files.content? ["c.toml"] = some text)
    (hmark : text.toList.head? ≠ some '\ufeff')
    (hunmarked : ∀ v ∈ environment, ¬ "rehook__".toList <+: (Text.lower v.1).toList) :
    Agree text (load files environment "c.toml") (ofText text) := by
  have hload := ofFile_document hfile hmark hunmarked
  cases hread : Toml.read? text with
  | none =>
    have htext : ofDocument text = .error .malformed := by
      simp [ofDocument, hread]
    simp only [hread] at hload
    rw [load, hload, ofText, htext]
    exact .malformed hread
  | some members =>
    have htext : ofDocument text = (ofTree (documentTree none members)).mapError .unfit := by
      simp only [ofDocument, hread]
      rfl
    have hfails := ofTree_fails_iff (documentTree none members)
    simp only [hread] at hload
    rcases ofTree_documentTree "c.toml" members with ⟨s, hs, hs'⟩ | ⟨c, told, htold, hnone, hc, hc'⟩
    · have hfits : ¬ Unfit (documentTree none members) := by
        rw [← hfails, not_fails_iff]
        exact ⟨s, hs'⟩
      rw [load, hload, hs, ofText, htext, hs']
      exact .settings members s hread hfits hs'
    · have htail : tail told = "" ∨ tail told = " in c.toml" := by
        rcases htold with rfl | rfl
        · exact .inl rfl
        · exact .inr rfl
      have hagree := Agree.unfit members c (tail told) hread (hfails.mp ⟨c, hc'⟩) hc' hnone htail
      rw [← fault_told hnone told] at hagree
      rw [load, hload, hc, ofText, htext, hc']
      exact hagree

/-- A document with a value that does not fit: the word stands for no flag. -/
def misfit : String := "[hooks]\nfatal_errors = \"perhaps\"\n"

def misfitMessage : String :=
  "invalid type: string \"perhaps\", expected a boolean for key \x60hooks.fatal_errors\x60"

theorem load_agrees_with_ofText_misfit :
    Files.content? [("c.toml", misfit)] ["c.toml"] = some misfit ∧
      misfit.toList.head? ≠ some '\ufeff' ∧
      (∀ v ∈ [("HOME", "/")], ¬ "rehook__".toList <+: (Text.lower v.1).toList) ∧
      load [("c.toml", misfit)] [("HOME", "/")] "c.toml" = (.error ⟨.configuration,
        "Failed to deserialize config: " ++ misfitMessage ++ " in c.toml", []⟩, []) ∧
      ofText misfit = .error ⟨.configuration, "Configuration error: " ++ misfitMessage,
        [misfitMessage]⟩ ∧
      ∃ members, Toml.read? misfit = some members ∧ Unfit (documentTree none members) := by
  have hfile : Files.content? [("c.toml", misfit)] ["c.toml"] = some misfit := by decide +kernel
  have hmark : misfit.toList.head? ≠ some '\ufeff' := by decide +kernel
  have hunmarked : ∀ v ∈ [("HOME", "/")], ¬ "rehook__".toList <+: (Text.lower v.1).toList := by
    decide +kernel
  have hload : load [("c.toml", misfit)] [("HOME", "/")] "c.toml" = (.error ⟨.configuration,
      "Failed to deserialize config: " ++ misfitMessage ++ " in c.toml", []⟩, []) := by
    decide +kernel
  have htext : ofText misfit = .error ⟨.configuration, "Configuration error: " ++ misfitMessage,
      [misfitMessage]⟩ := by
    decide +kernel
  obtain ⟨members, hread⟩ : ∃ members, Toml.read? misfit = some members :=
    Option.isSome_iff_exists.mp (by decide +kernel)
  have hagree := load_agrees_with_ofText _ _ misfit hfile hmark hunmarked
  rw [htext] at hagree
  exact ⟨hfile, hmark, hunmarked, hload, htext, members, hread, hagree.unfit_of_error hread⟩

end PatternHooks.SettingsOrigins
