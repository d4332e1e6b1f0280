import Mathlib.Data.List.Forall2
import Mathlib.Data.List.Nodup
import PatternHooks.Json.Schema
import PatternHooks.Proofs.JsonText

/-!
Checking against a schema. A value in the layout of a schema is read from its own text and accepted
as it is; and what is accepted, of whatever text, is in the layout of the schema.
-/

namespace PatternHooks.SchemaCheck

open Json JsonText

/-- A value whose text is read, and accepted by a schema without a change. -/
structure Says (s : Schema) (j : Json) : Prop where
  reads : Reads (render j) (readingOf j)
  accepted : (readingOf j).check s = .ok j

theorem says_whole {limit n : Nat} (title : String) (hlimit : limit ≤ Nat.pow 2 64)
    (hn : n < limit) : Says (.whole title limit) (.nat n) where
  reads := reads_nat (by simp only [Reading.maxWhole]; omega)
  accepted := by
    have hrange : (0 : Int) ≤ n ∧ (n : Int) < limit := by omega
    simp [Json.nat, readingOf, Reading.check, Reading.checkWhole, hrange]

theorem says_flag (b : Bool) : Says .flag (.flag b) where
  reads := reads_flag b
  accepted := by simp [readingOf, Reading.check, Reading.checkFlag]

theorem says_text {normal : String → Except String String} {s : String} (title : String)
    (h : normal s = .ok s) : Says (.text title normal) (.text s) where
  reads := reads_text s
  accepted := by simp [readingOf, Reading.check, Reading.checkText, h]

theorem checkItems_itemsOf {item : Schema} {items : List Json} (h : ∀ j ∈ items, Says item j) :
    Reading.checkItems (itemsOf items) item = .ok items := by
  induction items with
  | nil => rfl
  | cons j items ih =>
    have hitems := ih fun i hi => h i (List.mem_cons_of_mem j hi)
    simp [itemsOf, Reading.checkItems, (h j List.mem_cons_self).accepted, hitems, Except.map]

theorem says_list {item : Schema} {items : List Json} (h : ∀ j ∈ items, Says item j) :
    Says (.list item) (.list items) where
  reads := reads_list fun j hj => (h j hj).reads
  accepted := by simp [readingOf, Reading.check, checkItems_itemsOf h, Except.map]

section Choices
variable {variants : List Variant} {name : String}

theorem says_bare (h : variants.find? (·.name == name) = some (.bare name)) :
    Says (.choice variants) (.text name) where
  reads := reads_text name
  accepted := by simp [readingOf, Reading.check, Reading.checkName, h]

theorem says_tagged {content : Schema} {j : Json}
    (h : variants.find? (·.name == name) = some (.holding name content)) (hj : Says content j) :
    Says (.choice variants) (tagged name j) where
  reads := reads_object fun m hm => by
    rw [List.mem_singleton] at hm
    exact hm ▸ hj.reads
  accepted := by
    simp [tagged, readingOf, membersOf, Reading.check, Reading.checkVariant, h, hj.accepted,
      Reading.checkLast]

end Choices

/-- A value that a field has in a text. -/
inductive FieldSays (f : Field) : Json → Prop where
  | null (h : f.nullable = true) : FieldSays f .null
  | said {j : Json} (h : Says f.schema j) : FieldSays f j

theorem FieldSays.reads {f : Field} {j : Json} (h : FieldSays f j) :
    Reads (render j) (readingOf j) := by
  cases h with
  | null _ => exact reads_null
  | said h => exact h.reads

/-- A value that a field may have once a record is checked: it was in the text, or stands for a
field that was not. -/
inductive Admits (f : Field) : Json → Prop where
  | null (h : f.nullable = true) : Admits f .null
  | absent (h : f.absence = .null) : Admits f .null
  | filled {j : Json} (h : f.absence = .filled j) : Admits f j
  | checked {r : Reading} {j : Json} (h : r.check f.schema = .ok j) : Admits f j

/-- Members that are the fields in their order, with values that `P` holds of. -/
def Laid (P : Field → Json → Prop) (fields : List Field) (members : List (String × Json)) : Prop :=
  List.Forall₂ (fun f m => m.1 = f.name ∧ P f m.2) fields members

section Records
variable {fields : List Field} {members seen : List (String × Json)} {P Q : Field → Json → Prop}

theorem Laid.nil : Laid P [] [] := List.Forall₂.nil

theorem Laid.cons {f : Field} {j : Json} (hj : P f j) (h : Laid P fields members) :
    Laid P (f :: fields) ((f.name, j) :: members) := List.Forall₂.cons ⟨rfl, hj⟩ h

theorem Laid.exists_cons {f : Field} (h : Laid P (f :: fields) members) :
    ∃ j rest, members = (f.name, j) :: rest ∧ P f j ∧ Laid P fields rest := by
  rcases h with _ | @⟨_, m, _, rest, ⟨hname, hm⟩, hrest⟩
  exact ⟨m.2, rest, by rw [← hname], hm, hrest⟩

theorem Laid.imp (h : Laid P fields members)
    (himp : ∀ f ∈ fields, ∀ j, (f.name, j) ∈ members → P f j → Q f j) : Laid Q fields members := by
  obtain ⟨hlength, hzip⟩ := List.forall₂_iff_zip.mp h
  refine List.forall₂_iff_zip.mpr ⟨hlength, fun {f m} hm => ?_⟩
  obtain ⟨hf, hmember⟩ := List.of_mem_zip hm
  obtain ⟨hname, hP⟩ := hzip hm
  exact ⟨hname, himp f hf m.2 (hname ▸ hmember) hP⟩

theorem Laid.names_eq (h : Laid P fields members) :
    members.map Prod.fst = fields.map Field.name := by
  induction h with
  | nil => rfl
  | cons hm _ ih => rw [List.map_cons, List.map_cons, hm.1, ih]

theorem Laid.exists_field (h : Laid P fields members) {m : String × Json} (hm : m ∈ members) :
    ∃ f ∈ fields, m.1 = f.name ∧ P f m.2 := by
  induction h with
  | nil => simp at hm
  | @cons f m' fields members hf _ ih =>
    rcases List.mem_cons.mp hm with rfl | hm
    · exact ⟨f, List.mem_cons_self, hf⟩
    · obtain ⟨f', hf', hP⟩ := ih hm
      exact ⟨f', List.mem_cons_of_mem f hf', hP⟩

theorem find?_name (hnames : (fields.map Field.name).Nodup) {f : Field} (hf : f ∈ fields) :
    fields.find? (·.name == f.name) = some f := by
  induction fields with
  | nil => simp at hf
  | cons g fields ih =>
    obtain ⟨hfresh, hnames⟩ := List.nodup_cons.mp hnames
    rcases List.mem_cons.mp hf with rfl | hf
    · simp
    · have hne : g.name ≠ f.name := fun heq => hfresh (heq ▸ List.mem_map_of_mem hf)
      rw [List.find?_cons_of_neg (by simpa using hne)]
      exact ih hnames hf

theorem lookup_of_mem (hkeys : (members.map Prod.fst).Nodup) {key : String} {j : Json}
    (h : (key, j) ∈ members) : members.lookup key = some j := by
  obtain ⟨before, after, rfl⟩ := List.append_of_mem h
  refine List.lookup_eq_some_iff.mpr ⟨before, after, rfl, fun m hm => ?_⟩
  rw [List.map_append, List.map_cons] at hkeys
  have hne : m.1 ≠ key := (List.nodup_append.mp hkeys).2.2 m.1 (List.mem_map_of_mem hm) key
    List.mem_cons_self
  simpa using hne.symm

/-- A member is taken as it is said. -/
theorem checkMembers_cons (hnames : (fields.map Field.name).Nodup) {f : Field} (hf : f ∈ fields)
    {j : Json} (hj : FieldSays f j) (hseen : seen.lookup f.name = none) (rest : Members) :
    Reading.checkMembers (.more (.text (.ok f.name) none) (readingOf j) rest) fields seen =
      Reading.checkMembers rest fields ((f.name, j) :: seen) := by
  cases hj with
  | null h =>
    simp [Reading.checkMembers, find?_name hnames hf, hseen, readingOf, Reading.nullFor, h]
  | said h =>
    simp only [Reading.checkMembers, find?_name hnames hf, hseen, h.accepted, Option.isSome_none,
      Bool.false_eq_true, if_false]
    -- Only null may be taken for null, and it is null either way.
    cases j with
    | null => exact ite_self _
    | _ => simp [readingOf, Reading.nullFor]

/-- Members are piled up on those seen before them, and the fields are then filled from the pile. -/
theorem checkMembers_membersOf (hnames : (fields.map Field.name).Nodup)
    (h : ∀ m ∈ members, ∃ f ∈ fields, m.1 = f.name ∧ FieldSays f m.2)
    (hkeys : ((members.reverse ++ seen).map Prod.fst).Nodup) :
    Reading.checkMembers (membersOf members) fields seen =
      Reading.fillObject (members.reverse ++ seen) fields := by
  induction members generalizing seen with
  | nil => rfl
  | cons m members ih =>
    obtain ⟨key, j⟩ := m
    obtain ⟨f, hf, rfl, hj⟩ : ∃ f ∈ fields, key = f.name ∧ FieldSays f j :=
      h (key, j) List.mem_cons_self
    -- The first member goes on the pile, so that the pile at the end stays the same.
    rw [List.reverse_cons, List.append_assoc, List.singleton_append] at hkeys ⊢
    have hseen : seen.lookup f.name = none := by
      rw [List.map_append, List.map_cons] at hkeys
      have hfresh := (List.nodup_cons.mp (List.nodup_append.mp hkeys).2.1).1
      refine List.lookup_eq_none_iff.mpr fun m hm => ?_
      have hne : f.name ≠ m.1 := fun heq => hfresh (List.mem_map.mpr ⟨m, hm, heq.symm⟩)
      simpa using hne
    rw [membersOf, checkMembers_cons hnames hf hj hseen]
    exact ih (fun m hm => h m (List.mem_cons_of_mem _ hm)) hkeys

theorem fillObject_eq (h : Laid (fun f j => seen.lookup f.name = some j) fields members) :
    Reading.fillObject seen fields = .ok members := by
  induction h with
  | nil => rfl
  | @cons f m fields members hm _ ih =>
    obtain ⟨key, j⟩ := m
    obtain ⟨rfl, hlookup⟩ := hm
    simp only [Reading.fillObject, hlookup, ih]
    rfl

/-- An object with the fields of a record in their order is accepted as it is. -/
theorem says_record (title : String) (hnames : (fields.map Field.name).Nodup)
    (h : Laid FieldSays fields members) : Says (.record title fields) (.object members) where
  reads := reads_object fun m hm => by
    obtain ⟨f, _, _, hm⟩ := h.exists_field hm
    exact hm.reads
  accepted := by
    have hkeys : ((members.reverse ++ []).map Prod.fst).Nodup := by
      rw [List.append_nil, List.map_reverse, List.nodup_reverse, h.names_eq]
      exact hnames
    have hcheck := checkMembers_membersOf hnames (fun m hm => h.exists_field hm) hkeys
    have hfill : Reading.fillObject (members.reverse ++ []) fields = .ok members :=
      fillObject_eq (h.imp fun f _ j hj _ => lookup_of_mem hkeys (by simpa using hj))
    rw [readingOf, Reading.check, hcheck, hfill]
    rfl

theorem check_whole {r : Reading} {title : String} {limit : Nat} {j : Json}
    (h : r.check (.whole title limit) = .ok j) : ∃ n < limit, j = .nat n := by
  rw [Reading.check] at h
  unfold Reading.checkWhole at h
  split at h
  · rename_i n _
    split at h
    · rename_i hrange
      exact ⟨n.toNat, by omega, by rw [← Except.ok.inj h, Json.nat, Int.toNat_of_nonneg hrange.1]⟩
    · simp at h
  · simp at h

theorem laid_cons {f : Field} {j : Json} (hj : Admits f j)
    {x : Except DecodeFault (List (String × Json))}
    (hx : ∀ rest, x = .ok rest → Laid Admits fields rest)
    (h : x.map ((f.name, j) :: ·) = .ok members) : Laid Admits (f :: fields) members := by
  cases x with
  | error e => simp [Except.map] at h
  | ok rest =>
    obtain rfl := Except.ok.inj h
    exact .cons hj (hx rest rfl)

theorem laid_fillList {title : String} {found size : Nat}
    (h : Reading.fillList title found size fields = .ok members) : Laid Admits fields members := by
  induction fields generalizing members with
  | nil =>
    obtain rfl := Except.ok.inj h
    exact .nil
  | cons f fields ih =>
    rw [Reading.fillList] at h
    split at h
    · rename_i j hj
      exact laid_cons (.filled hj) (fun _ => ih) h
    · simp at h

theorem laid_fillObject (hseen : ∀ f ∈ fields, ∀ j, seen.lookup f.name = some j → Admits f j)
    (h : Reading.fillObject seen fields = .ok members) : Laid Admits fields members := by
  induction fields generalizing members with
  | nil =>
    obtain rfl := Except.ok.inj h
    exact .nil
  | cons f fields ih =>
    have hrest : ∀ rest, Reading.fillObject seen fields = .ok rest → Laid Admits fields rest :=
      fun _ => ih fun f' hf' => hseen f' (List.mem_cons_of_mem f hf')
    rw [Reading.fillObject] at h
    split at h
    · rename_i j hj
      exact laid_cons (hseen f List.mem_cons_self j hj) hrest h
    · rename_i j _ hj
      exact laid_cons (.filled hj) hrest h
    · rename_i _ hj
      exact laid_cons (.absent hj) hrest h
    · simp at h

theorem nullable_of_nullFor {f : Field} {r : Reading} (h : Reading.nullFor f r = true) :
    f.nullable = true := by
  unfold Reading.nullFor at h
  split at h
  · exact h
  · simp at h

theorem laid_checkFields {items : Items} {title : String} {size found : Nat}
    (h : Reading.checkFields items title size found fields = .ok members) :
    Laid Admits fields members := by
  induction fields generalizing items found members with
  | nil =>
    unfold Reading.checkFields at h
    split at h
    · obtain rfl := Except.ok.inj h
      exact .nil
    · simp at h
  | cons f fields ih =>
    rcases items with ⟨_ | p⟩ | ⟨r, rest⟩
    · exact laid_fillList h
    · simp [Reading.checkFields] at h
    · simp only [Reading.checkFields] at h
      split at h
      · rename_i hnull
        exact laid_cons (.null (nullable_of_nullFor hnull)) (fun _ => ih) h
      · split at h
        · simp at h
        · rename_i hj
          exact laid_cons (.checked hj) (fun _ => ih) h

/-- A name belongs to one field only, so the newest member is admitted by the field it is for. -/
theorem admits_of_seen (hnames : (fields.map Field.name).Nodup)
    (hseen : ∀ f ∈ fields, ∀ j, seen.lookup f.name = some j → Admits f j) {f : Field}
    (hf : f ∈ fields) {j : Json} (hj : Admits f j) :
    ∀ g ∈ fields, ∀ i, ((f.name, j) :: seen).lookup g.name = some i → Admits g i := by
  intro g hg i hi
  rw [List.lookup_cons] at hi
  split at hi
  · rename_i heq
    obtain rfl := Option.some.inj hi
    have hname : g.name = f.name := by simpa using heq
    have hfound := find?_name hnames hg
    rw [hname, find?_name hnames hf] at hfound
    exact Option.some.inj hfound ▸ hj
  · exact hseen g hg i hi

theorem laid_checkMembers (hnames : (fields.map Field.name).Nodup) (ms : Members)
    {known : List (String × Json)}
    (hknown : ∀ f ∈ fields, ∀ j, known.lookup f.name = some j → Admits f j)
    (h : Reading.checkMembers ms fields known = .ok members) : Laid Admits fields members := by
  -- On the members to come: whatever is known of a field is admitted by it.
  match ms with
  | .stop none => exact laid_fillObject hknown h
  | .stop (some p) => simp [Reading.checkMembers] at h
  | .more (.text (.ok name) _) r rest =>
    simp only [Reading.checkMembers] at h
    split at h
    · split at h
      · simp at h
      · exact laid_checkMembers hnames rest hknown h
    · rename_i f hfound
      have hf := List.mem_of_find?_eq_some hfound
      obtain rfl : f.name = name := by simpa using List.find?_some hfound
      split at h
      · simp at h
      split at h
      · rename_i hnull
        have hj : Admits f .null := .null (nullable_of_nullFor hnull)
        exact laid_checkMembers hnames rest (admits_of_seen hnames hknown hf hj) h
      · split at h
        · simp at h
        · rename_i j hj
          exact laid_checkMembers hnames rest (admits_of_seen hnames hknown hf (.checked hj)) h
  | .more (.text (.error _) _) _ _ | .more .null _ _ | .more (.flag _) _ _
  | .more (.number _ _) _ _ | .more (.list _) _ _ | .more (.object _) _ _
  | .more (.misspelt _) _ _ | .more (.broken _) _ _ => simp [Reading.checkMembers] at h

theorem laid_object {j : Json} {x : Except DecodeFault (List (String × Json))}
    (hx : ∀ members, x = .ok members → Laid Admits fields members) (h : x.map .object = .ok j) :
    ∃ members, j = .object members ∧ Laid Admits fields members := by
  cases x with
  | error e => simp [Except.map] at h
  | ok members => exact ⟨members, (Except.ok.inj h).symm, hx members rfl⟩

/-- A record may be written as an object or as a list; either way its members are laid out. -/
theorem check_record {title : String} (hnames : (fields.map Field.name).Nodup) {r : Reading}
    {j : Json} (h : r.check (.record title fields) = .ok j) :
    ∃ members, j = .object members ∧ Laid Admits fields members := by
  cases r with
  | list items =>
    rw [Reading.check] at h
    exact laid_object (fun _ => laid_checkFields) h
  | object ms =>
    rw [Reading.check] at h
    exact laid_object (fun _ => laid_checkMembers hnames ms (by simp)) h
  | _ => simp [Reading.check] at h

end Records

end PatternHooks.SchemaCheck
