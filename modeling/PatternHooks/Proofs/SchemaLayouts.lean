import PatternHooks.Proofs.JsonSource
import PatternHooks.Proofs.SchemaCheck

/-!
Layouts of a value. A schema looks for the fields of a record by their names in an object, or by
their places in a list; where they stand in the object, what stands between them, and whether a
field that has its default is there at all, is left to who writes it. So what is told of a value in
any layout is checked to the value in the layout of the schema; and the one thing that is missed is
a field without a default.
-/

namespace PatternHooks.SchemaLayouts

open Json JsonText SchemaCheck JsonSource

/-- The value of a field that is left out, if it may be. -/
def default? (f : Field) : Option Json :=
  match f.absence with
  | .refused => none
  | .null => some .null
  | .filled j => some j

def keys (members : List (TextLiteral × Source)) : List String := members.map (·.1.value)

/-- A source tells a value, whatever its layout, if it has the scalars of the value where the schema
looks for them. -/
inductive Tells : Schema → Json → Source → Prop
  | null (s : Schema) : Tells s .null .null
  | flag (s : Schema) (b : Bool) : Tells s (.flag b) (.flag b)
  | nat (s : Schema) {n : Nat} {lit : NumberLiteral} (hn : n ≤ Reading.maxWhole)
      (hlit : lit.text = render (.nat n)) : Tells s (.nat n) (.number lit)
  | text (s : Schema) (t : TextLiteral) : Tells s (.text t.value) (.text t)
  | list {item : Schema} {js : List Json} {vs : List Source} (hlength : js.length = vs.length)
      (told : ∀ j v, (j, v) ∈ js.zip vs → Tells item j v) :
      Tells (.list item) (.list js) (.list vs)
  | content {variants : List Variant} {content : Schema} {key : TextLiteral} {j : Json}
      {v : Source}
      (hfind : variants.find? (·.name == key.value) = some (.holding key.value content))
      (told : Tells content j v) :
      Tells (.choice variants) (tagged key.value j) (.object [(key, v)])
  | row {title : String} {fields : List Field} {ms : List (String × Json)} {vs : List Source}
      (laid : ms.map Prod.fst = fields.map Field.name) (hlength : fields.length = vs.length)
      (told : ∀ f j v, ((f, j), v) ∈ (fields.zip (ms.map Prod.snd)).zip vs →
        Tells f.schema j v) :
      Tells (.record title fields) (.object ms) (.list vs)
  | object {title : String} {fields : List Field} {ms : List (String × Json)}
      {members : List (TextLiteral × Source)} (laid : ms.map Prod.fst = fields.map Field.name)
      (once : ∀ f ∈ fields, (keys members).count f.name ≤ 1)
      (told : ∀ f ∈ fields, ∀ j, (f.name, j) ∈ ms → ∀ m ∈ members, m.1.value = f.name →
        Tells f.schema j m.2)
      (absent : ∀ f ∈ fields, ∀ j, (f.name, j) ∈ ms → f.name ∉ keys members →
        default? f = some j) :
      Tells (.record title fields) (.object ms) (.object members)

/-- What is written for the value is accepted and is the value. -/
def Accepted (s : Schema) (j : Json) : Prop := (readingOf j).check s = .ok j

/-- The value that a field is given by what is read for it. -/
def checkField (f : Field) (r : Reading) : Except DecodeFault Json :=
  if Reading.nullFor f r then .ok .null else r.check f.schema

section Members
variable {fields : List Field} {seen : List (String × Json)} {f : Field} {r : Reading}
  {rest : Members}

theorem checkMembers_known {name : String}
    (hfind : fields.find? (·.name == name) = some f) (hseen : seen.lookup name = none) {j : Json}
    (hj : checkField f r = .ok j) :
    Reading.checkMembers (.more (.text (.ok name) none) r rest) fields seen =
      Reading.checkMembers rest fields ((name, j) :: seen) := by
  rw [checkField] at hj
  simp only [Reading.checkMembers, hfind, hseen, Option.isSome_none, Bool.false_eq_true, if_false]
  split at hj
  · rename_i hnull
    obtain rfl := Except.ok.inj hj
    rw [if_pos hnull]
  · rename_i hnull
    rw [if_neg hnull, hj]

theorem checkMembers_refused {name : String}
    (hfind : fields.find? (·.name == name) = some f) (hseen : seen.lookup name = none)
    {e : DecodeFault} (he : checkField f r = .error e) :
    Reading.checkMembers (.more (.text (.ok name) none) r rest) fields seen = .error e := by
  rw [checkField] at he
  simp only [Reading.checkMembers, hfind, hseen, Option.isSome_none, Bool.false_eq_true, if_false]
  split at he
  · cases he
  · rename_i hnull
    rw [if_neg hnull, he]

theorem checkMembers_other {name : String} (hname : name ∉ fields.map Field.name)
    (hskip : r.skip = none) :
    Reading.checkMembers (.more (.text (.ok name) none) r rest) fields seen =
      Reading.checkMembers rest fields seen := by
  have hfind : fields.find? (·.name == name) = none := by
    refine List.find?_eq_none.mpr fun f hf heq => hname ?_
    exact List.mem_map.mpr ⟨f, hf, by simpa using heq⟩
  simp only [Reading.checkMembers, hfind, hskip]

variable (seen) in
/-- What is known of the fields after some members, each of which gives its field the value that it
has in the record: their own values of those fields, and what was known before of the others. -/
theorem checkMembers_append {ms : List (String × Json)} {before : List (TextLiteral × Source)}
    (hnames : (fields.map Field.name).Nodup) (laid : ms.map Prod.fst = fields.map Field.name)
    (once : ∀ f ∈ fields, (keys before).count f.name ≤ 1)
    (given : ∀ f ∈ fields, ∀ j, (f.name, j) ∈ ms → ∀ m ∈ before, m.1.value = f.name →
      checkField f m.2.reading = .ok j)
    (hseen : ∀ f ∈ fields, f.name ∈ keys before → seen.lookup f.name = none)
    (after : List (TextLiteral × Source)) :
    ∃ known, Reading.checkMembers (Source.membersReading (before ++ after)) fields seen =
        Reading.checkMembers (Source.membersReading after) fields known ∧
      ∀ f ∈ fields, known.lookup f.name =
        if f.name ∈ keys before then ms.lookup f.name else seen.lookup f.name := by
  induction before generalizing seen with
  | nil => exact ⟨seen, rfl, fun f _ => by simp [keys]⟩
  | cons m before ih =>
    obtain ⟨key, v⟩ := m
    have once' : ∀ f ∈ fields, (keys before).count f.name ≤ 1 := fun f hf =>
      Nat.le_trans List.count_le_count_cons (once f hf)
    have given' := fun f hf j hj m hm => given f hf j hj m (List.mem_cons_of_mem _ hm)
    by_cases hkey : key.value ∈ fields.map Field.name
    · obtain ⟨f, hf, hname⟩ := List.mem_map.mp hkey
      obtain ⟨⟨_, j⟩, hmember, rfl⟩ : ∃ m ∈ ms, m.1 = f.name :=
        List.mem_map.mp (laid ▸ List.mem_map_of_mem hf)
      have hj := given f hf j hmember (key, v) List.mem_cons_self hname.symm
      have hvalue : ms.lookup f.name = some j := lookup_of_mem (laid ▸ hnames) hmember
      -- The field does not come again, as it would be there twice.
      have hfresh : f.name ∉ keys before := by
        have hcount := once f hf
        rw [keys, List.map_cons, ← hname, List.count_cons_self] at hcount
        exact List.count_eq_zero.mp (by rw [keys]; omega)
      have hseen' : ∀ g ∈ fields, g.name ∈ keys before →
          ((f.name, j) :: seen).lookup g.name = none := by
        intro g hg hmem
        have hne : g.name ≠ f.name := fun heq => hfresh (heq ▸ hmem)
        rw [List.lookup_cons, beq_false_of_ne hne]
        exact hseen g hg (List.mem_cons_of_mem _ hmem)
      obtain ⟨known, hcheck, hknown⟩ := ih _ once' given' hseen'
      refine ⟨known, ?_, fun g hg => ?_⟩
      · rw [List.cons_append, Source.membersReading, ← hname,
          checkMembers_known (find?_name hnames hf)
            (hseen f hf (by rw [hname]; exact List.mem_cons_self)) hj]
        exact hcheck
      · rw [hknown g hg]
        by_cases hg' : g.name = f.name
        · have hmem : f.name ∈ keys ((key, v) :: before) := by
            rw [hname]
            exact List.mem_cons_self
          rw [hg', if_neg hfresh, if_pos hmem, List.lookup_cons_self, hvalue]
        · have hmem : g.name ∈ keys ((key, v) :: before) ↔ g.name ∈ keys before := by
            rw [keys, List.map_cons, List.mem_cons, ← hname, or_iff_right hg']
            rfl
          simp only [hmem, List.lookup_cons, beq_false_of_ne hg']
    · obtain ⟨known, hcheck, hknown⟩ := ih seen once' given'
        fun f hf hmem => hseen f hf (List.mem_cons_of_mem _ hmem)
      refine ⟨known, ?_, fun g hg => ?_⟩
      · rw [List.cons_append, Source.membersReading, checkMembers_other hkey (skip_reading v)]
        exact hcheck
      · have hne : g.name ≠ key.value := fun heq => hkey (heq ▸ List.mem_map_of_mem hg)
        have hmem : g.name ∈ keys ((key, v) :: before) ↔ g.name ∈ keys before := by
          rw [keys, List.map_cons, List.mem_cons, or_iff_right hne]
          rfl
        rw [hknown g hg]
        simp only [hmem]

end Members

section Fill
variable {fields : List Field} {known ms : List (String × Json)}

theorem fillObject_cons (f : Field) (fields : List Field) {j : Json}
    (hj : known.lookup f.name = some j ∨ known.lookup f.name = none ∧ default? f = some j) :
    Reading.fillObject known (f :: fields) =
      (Reading.fillObject known fields).map ((f.name, j) :: ·) := by
  rcases hj with hlookup | ⟨hlookup, hdefault⟩
  · simp only [Reading.fillObject, hlookup]
  · cases habsence : f.absence with
    | refused => simp [default?, habsence] at hdefault
    | null | filled _ =>
      simp only [default?, habsence, Option.some.injEq] at hdefault
      simp only [Reading.fillObject, hlookup, habsence, hdefault]

theorem fillObject_laid (h : Laid (fun f j => known.lookup f.name = some j ∨
    known.lookup f.name = none ∧ default? f = some j) fields ms) :
    Reading.fillObject known fields = .ok ms := by
  induction h with
  | nil => rfl
  | @cons f m fields ms hm _ ih =>
    obtain ⟨name, j⟩ := m
    obtain ⟨rfl, hj⟩ := hm
    rw [fillObject_cons f fields hj, ih]
    rfl

/-- The first field that is not there and may not be left out is missed. -/
theorem fillObject_missing {f : Field} (before after : List Field)
    (hbefore : ∀ g ∈ before, known.lookup g.name ≠ none ∨ default? g ≠ none)
    (hf : known.lookup f.name = none) (hdefault : default? f = none) :
    Reading.fillObject known (before ++ f :: after) =
      .error (.shape ("missing field " ++ Text.ticked f.name)) := by
  induction before with
  | nil =>
    cases habsence : f.absence with
    | refused => simp only [List.nil_append, Reading.fillObject, hf, habsence]
    | null | filled _ => simp [default?, habsence] at hdefault
  | cons g before ih =>
    obtain ⟨hg, hbefore⟩ := List.forall_mem_cons.mp hbefore
    obtain ⟨j, hj⟩ : ∃ j, known.lookup g.name = some j ∨
        known.lookup g.name = none ∧ default? g = some j := by
      cases hlookup : known.lookup g.name with
      | some j => exact ⟨j, .inl rfl⟩
      | none =>
        obtain ⟨j, hj⟩ := Option.ne_none_iff_exists'.mp (hg.resolve_left fun h => h hlookup)
        exact ⟨j, .inr ⟨rfl, hj⟩⟩
    rw [List.cons_append, fillObject_cons g _ hj, ih hbefore]
    rfl

theorem laid_of_names {P : Field → Json → Prop} (laid : ms.map Prod.fst = fields.map Field.name)
    (h : ∀ f ∈ fields, ∀ j, (f.name, j) ∈ ms → P f j) : Laid P fields ms := by
  induction fields generalizing ms with
  | nil =>
    obtain rfl := List.map_eq_nil_iff.mp laid
    exact .nil
  | cons f fields ih =>
    obtain ⟨⟨_, j⟩, rest, rfl, rfl, hrest⟩ := List.map_eq_cons_iff.mp laid
    refine .cons (h f List.mem_cons_self j List.mem_cons_self) (ih hrest fun g hg i hi => ?_)
    exact h g (List.mem_cons_of_mem _ hg) i (List.mem_cons_of_mem _ hi)

end Fill

theorem exists_of_map_eq_ok {ε α β : Type} {x : Except ε α} {f : α → β} {b : β}
    (h : x.map f = .ok b) : ∃ a, x = .ok a ∧ f a = b := by
  cases x with
  | error e => cases h
  | ok a => exact ⟨a, rfl, Except.ok.inj h⟩

section Accepted
variable {fields : List Field} {ms seen : List (String × Json)}

theorem accepted_items {item : Schema} {js : List Json} (h : Accepted (.list item) (.list js)) :
    ∀ j ∈ js, Accepted item j := by
  rw [Accepted, readingOf, Reading.check] at h
  obtain ⟨out, hitems, hout⟩ := exists_of_map_eq_ok h
  obtain rfl : out = js := Json.list.inj hout
  clear h hout
  induction out with
  | nil => exact fun _ hj => absurd hj List.not_mem_nil
  | cons j js ih =>
    simp only [itemsOf, Reading.checkItems] at hitems
    split at hitems
    · cases hitems
    · rename_i i hi
      obtain ⟨out, hrest, hout⟩ := exists_of_map_eq_ok hitems
      obtain ⟨rfl, rfl⟩ := List.cons.inj hout
      exact List.forall_mem_cons.mpr ⟨hi, ih hrest⟩

theorem accepted_content {variants : List Variant} {content : Schema} {name : String} {j : Json}
    (hfind : variants.find? (·.name == name) = some (.holding name content))
    (h : Accepted (.choice variants) (tagged name j)) : Accepted content j := by
  simp only [Accepted, tagged, readingOf, membersOf, Reading.check, Reading.checkVariant,
    hfind] at h
  split at h
  · cases h
  · rename_i i hi
    simp only [Reading.checkLast, Except.ok.injEq, object.injEq, List.cons.injEq, Prod.mk.injEq,
      true_and, and_true] at h
    rw [Accepted, hi, h]

/-- Members whose names are those of fields, when they are checked without a fault: the names are
distinct, and each member gave its field a value that is known in the end. -/
theorem exists_known {out : List (String × Json)}
    (h : Reading.checkMembers (membersOf ms) fields seen = .ok out)
    (hkeys : ∀ m ∈ ms, m.1 ∈ fields.map Field.name) :
    (ms.map Prod.fst).Nodup ∧ (∀ m ∈ ms, seen.lookup m.1 = none) ∧
      ∃ known, Reading.fillObject known fields = .ok out ∧
        (∀ name i, seen.lookup name = some i → known.lookup name = some i) ∧
        ∀ m ∈ ms, ∃ f i, fields.find? (·.name == m.1) = some f ∧
          checkField f (readingOf m.2) = .ok i ∧ known.lookup m.1 = some i := by
  induction ms generalizing seen with
  | nil => exact ⟨List.nodup_nil, by simp, seen, h, fun _ _ hi => hi, by simp⟩
  | cons m ms ih =>
    obtain ⟨name, j⟩ := m
    obtain ⟨hname, hkeys⟩ := List.forall_mem_cons.mp hkeys
    obtain ⟨f, hfind⟩ : ∃ f, fields.find? (·.name == name) = some f := by
      obtain ⟨f, hf, heq⟩ := List.mem_map.mp hname
      exact Option.isSome_iff_exists.mp (List.find?_isSome.mpr ⟨f, hf, by simpa using heq⟩)
    rw [membersOf] at h
    cases hseen : seen.lookup name with
    | some i => simp [Reading.checkMembers, hfind, hseen] at h
    | none =>
      cases hi : checkField f (readingOf j) with
      | error e =>
        rw [checkMembers_refused hfind hseen hi] at h
        cases h
      | ok i =>
        rw [checkMembers_known hfind hseen hi] at h
        obtain ⟨hnodup, hfresh, known, hfill, hold, hvalues⟩ := ih h hkeys
        have hnew : ∀ m ∈ ms, m.1 ≠ name ∧ seen.lookup m.1 = none := by
          intro m hm
          have hlookup := hfresh m hm
          rw [List.lookup_cons] at hlookup
          by_cases heq : m.1 = name
          · simp [heq] at hlookup
          · rw [beq_false_of_ne heq] at hlookup
            exact ⟨heq, hlookup⟩
        refine ⟨?_, ?_, known, hfill, ?_, ?_⟩
        · rw [List.map_cons, List.nodup_cons]
          refine ⟨fun hmem => ?_, hnodup⟩
          obtain ⟨m, hm, heq⟩ := List.mem_map.mp hmem
          exact (hnew m hm).1 heq
        · exact List.forall_mem_cons.mpr ⟨hseen, fun m hm => (hnew m hm).2⟩
        · intro name' i' hi'
          have hne : name' ≠ name := by
            rintro rfl
            rw [hseen] at hi'
            cases hi'
          exact hold name' i' (by rw [List.lookup_cons, beq_false_of_ne hne]; exact hi')
        · exact List.forall_mem_cons.mpr
            ⟨⟨f, i, hfind, hi, hold name i List.lookup_cons_self⟩, hvalues⟩

theorem laid_of_fillObject {known : List (String × Json)}
    (h : Reading.fillObject known fields = .ok ms) :
    Laid (fun f j => ∀ i, known.lookup f.name = some i → j = i) fields ms := by
  induction fields generalizing ms with
  | nil =>
    obtain rfl := Except.ok.inj h
    exact .nil
  | cons f fields ih =>
    rw [Reading.fillObject] at h
    split at h
    · rename_i j hj
      obtain ⟨rest, hrest, rfl⟩ := exists_of_map_eq_ok h
      refine .cons (fun i hi => ?_) (ih hrest)
      exact Option.some.inj (hj.symm.trans hi)
    · rename_i hnone _
      obtain ⟨rest, hrest, rfl⟩ := exists_of_map_eq_ok h
      exact .cons (fun i hi => by simp [hnone] at hi) (ih hrest)
    · rename_i hnone _
      obtain ⟨rest, hrest, rfl⟩ := exists_of_map_eq_ok h
      exact .cons (fun i hi => by simp [hnone] at hi) (ih hrest)
    · cases h

/-- The fields of a record have distinct names, and what is written for a field gives it its
value. -/
theorem accepted_fields {title : String} (laid : ms.map Prod.fst = fields.map Field.name)
    (h : Accepted (.record title fields) (.object ms)) :
    (fields.map Field.name).Nodup ∧
      ∀ f ∈ fields, ∀ j, (f.name, j) ∈ ms → checkField f (readingOf j) = .ok j := by
  rw [Accepted, readingOf, Reading.check] at h
  obtain ⟨out, hmembers, hout⟩ := exists_of_map_eq_ok h
  obtain rfl : out = ms := Json.object.inj hout
  obtain ⟨hnodup, _, known, hfill, _, hvalues⟩ := exists_known hmembers fun m hm => by
    rw [← laid]
    exact List.mem_map_of_mem hm
  rw [laid] at hnodup
  refine ⟨hnodup, fun f hf j hj => ?_⟩
  obtain ⟨g, i, hfind, hi, hknown⟩ := hvalues (f.name, j) hj
  obtain rfl : f = g := Option.some.inj ((find?_name hnodup hf).symm.trans hfind)
  obtain ⟨g, _, hname, hvalue⟩ := (laid_of_fillObject hfill).exists_field hj
  have hsame : j = i := hvalue i (hname ▸ hknown)
  rw [hsame] at hi ⊢
  exact hi

end Accepted

section Fields
variable {f : Field} {j : Json} {v : Source}

/-- A source is taken for null where its value is. -/
theorem Tells.nullFor_eq {s : Schema} (h : Tells s j v) (f : Field) :
    Reading.nullFor f v.reading = Reading.nullFor f (readingOf j) := by
  cases h with
  | @nat _ n lit _ _ =>
    obtain ⟨_, hreading, _⟩ := lit.exists_reading
    rw [Source.reading, hreading]
    rfl
  | _ => rfl

theorem checkField_of_check {r : Reading} (hnull : Reading.nullFor f r =
    Reading.nullFor f (readingOf j)) (hcheck : Accepted f.schema j → r.check f.schema = .ok j)
    (hj : checkField f (readingOf j) = .ok j) : checkField f r = .ok j := by
  rw [checkField] at hj ⊢
  rw [hnull]
  split
  · rename_i h
    rwa [if_pos h] at hj
  · rename_i h
    rw [if_neg h] at hj
    exact hcheck hj

end Fields

theorem checkItems_append {item : Schema} {js : List Json} {vs : List Source}
    (hlength : js.length = vs.length)
    (told : ∀ j v, (j, v) ∈ js.zip vs → v.reading.check item = .ok j) (after : List Source) :
    Reading.checkItems (Source.itemsReading (vs ++ after)) item =
      (Reading.checkItems (Source.itemsReading after) item).map (js ++ ·) := by
  induction js generalizing vs with
  | nil =>
    obtain rfl := List.eq_nil_of_length_eq_zero hlength.symm
    rw [List.nil_append]
    cases Reading.checkItems (Source.itemsReading after) item <;> rfl
  | cons j js ih =>
    obtain ⟨v, vs, rfl⟩ := List.exists_cons_of_length_eq_add_one hlength.symm
    have hv := told j v List.mem_cons_self
    have hrest := ih (Nat.succ.inj hlength) fun i u hu => told i u (List.mem_cons_of_mem _ hu)
    rw [List.cons_append, Source.itemsReading, Reading.checkItems, hv, hrest]
    cases Reading.checkItems (Source.itemsReading after) item <;> rfl

section Rows
variable {f : Field} {fields : List Field} {r : Reading} {rest : Items} {title : String}
  {size found : Nat}

theorem checkFields_known {j : Json} (hj : checkField f r = .ok j) :
    Reading.checkFields (.more r rest) title size found (f :: fields) =
      (Reading.checkFields rest title size (found + 1) fields).map ((f.name, j) :: ·) := by
  rw [checkField] at hj
  simp only [Reading.checkFields]
  split at hj
  · rename_i hnull
    obtain rfl := Except.ok.inj hj
    rw [if_pos hnull]
  · rename_i hnull
    rw [if_neg hnull, hj]

theorem checkFields_refused {e : DecodeFault} (he : checkField f r = .error e) :
    Reading.checkFields (.more r rest) title size found (f :: fields) = .error e := by
  rw [checkField] at he
  simp only [Reading.checkFields]
  split at he
  · cases he
  · rename_i hnull
    rw [if_neg hnull, he]

theorem checkFields_append {ms : List (String × Json)} {vs : List Source}
    (laid : ms.map Prod.fst = fields.map Field.name) (hlength : fields.length = vs.length)
    (given : ∀ f j v, ((f, j), v) ∈ (fields.zip (ms.map Prod.snd)).zip vs →
      checkField f v.reading = .ok j) (title : String) (size found : Nat) (after : List Source)
    (more : List Field) :
    ∃ found', Reading.checkFields (Source.itemsReading (vs ++ after)) title size found
        (fields ++ more) =
      (Reading.checkFields (Source.itemsReading after) title size found' more).map (ms ++ ·) := by
  induction fields generalizing ms vs found with
  | nil =>
    obtain rfl := List.map_eq_nil_iff.mp laid
    obtain rfl := List.eq_nil_of_length_eq_zero hlength.symm
    refine ⟨found, ?_⟩
    simp only [List.nil_append]
    cases Reading.checkFields (Source.itemsReading after) title size found more <;> rfl
  | cons f fields ih =>
    obtain ⟨⟨_, j⟩, ms, rfl, rfl, hrest⟩ := List.map_eq_cons_iff.mp laid
    obtain ⟨v, vs, rfl⟩ := List.exists_cons_of_length_eq_add_one hlength.symm
    have hv := given f j v List.mem_cons_self
    obtain ⟨found', hcheck⟩ := ih hrest (Nat.succ.inj hlength)
      (fun g i u hu => given g i u (List.mem_cons_of_mem _ hu)) (found + 1)
    refine ⟨found', ?_⟩
    rw [List.cons_append, List.cons_append, Source.itemsReading, checkFields_known hv, hcheck]
    cases Reading.checkFields (Source.itemsReading after) title size found' more <;> rfl

theorem mem_of_zip {ms : List (String × Json)} {j : Json}
    (laid : ms.map Prod.fst = fields.map Field.name) (h : (f, j) ∈ fields.zip (ms.map Prod.snd)) :
    f ∈ fields ∧ (f.name, j) ∈ ms := by
  refine ⟨(List.of_mem_zip h).1, ?_⟩
  have hnamed : (f.name, j) ∈ (fields.map Field.name).zip (ms.map Prod.snd) := by
    rw [List.zip_map_left]
    exact List.mem_map.mpr ⟨(f, j), h, rfl⟩
  rw [← laid, List.zip_map'] at hnamed
  simpa using hnamed

end Rows

/-- What is told of a value is accepted as it is. -/
theorem Tells.check {s : Schema} {j : Json} {v : Source} (h : Tells s j v) (hj : Accepted s j) :
    v.reading.check s = .ok j := by
  induction h with
  | null s => exact hj
  | flag s b => exact hj
  | text s t => exact hj
  | @nat s n lit hn hlit =>
    have hreading : lit.reading = readingOf (.nat n) := by
      obtain ⟨_, _, hlong⟩ := lit.exists_reading
      have hscan := hlong.scan (3 * lit.text.length) [] ends_nil (Nat.le_refl _)
      rw [hlit, (reads_nat hn).scan _ [] ends_nil (Nat.le_refl _)] at hscan
      exact (Prod.mk.inj hscan).1.symm
    rw [Source.reading, hreading]
    exact hj
  | list hlength _ ih =>
    have hitems := accepted_items hj
    have hcheck := checkItems_append hlength
      (fun i u hu => ih i u hu (hitems i (List.of_mem_zip hu).1)) []
    rw [List.append_nil] at hcheck
    rw [Source.reading, Reading.check, hcheck]
    simp [Source.itemsReading, Reading.checkItems, Except.map]
  | content hfind _ ih =>
    have hv := ih (accepted_content hfind hj)
    simp [Source.reading, Source.membersReading, Reading.check, Reading.checkVariant, hfind, hv,
      Reading.checkLast, tagged]
  | @row title fields ms vs laid hlength told ih =>
    obtain ⟨_, hfields⟩ := accepted_fields laid hj
    have given : ∀ f i u, ((f, i), u) ∈ (fields.zip (ms.map Prod.snd)).zip vs →
        checkField f u.reading = .ok i := by
      intro f i u hu
      obtain ⟨hf, hi⟩ := mem_of_zip laid (List.of_mem_zip hu).1
      exact checkField_of_check ((told f i u hu).nullFor_eq f) (ih f i u hu) (hfields f hf i hi)
    obtain ⟨_, hcheck⟩ := checkFields_append laid hlength given title fields.length 0 [] []
    simp only [List.append_nil] at hcheck
    rw [Source.reading, Reading.check, hcheck]
    simp [Source.itemsReading, Reading.checkFields, Reading.checkEnd, Except.map]
  | @object title fields ms members laid once told absent ih =>
    obtain ⟨hnames, hfields⟩ := accepted_fields laid hj
    obtain ⟨known, hcheck, hknown⟩ := checkMembers_append [] hnames laid once
      (fun f hf i hi m hm hname => checkField_of_check ((told f hf i hi m hm hname).nullFor_eq f)
        (ih f hf i hi m hm hname) (hfields f hf i hi)) (fun _ _ _ => rfl) []
    have hfill : Reading.fillObject known fields = .ok ms := by
      refine fillObject_laid (laid_of_names laid fun f hf i hi => ?_)
      rw [hknown f hf]
      by_cases hmem : f.name ∈ keys members
      · rw [if_pos hmem]
        exact .inl (lookup_of_mem (laid ▸ hnames) hi)
      · rw [if_neg hmem]
        exact .inr ⟨rfl, absent f hf i hi hmem⟩
    rw [List.append_nil] at hcheck
    rw [Source.reading, Reading.check, hcheck, Source.membersReading, Reading.checkMembers, hfill]
    rfl

/-- A source tells a value but for one field of a record, or of a record inside it: a field that may
not be left out is not there. What comes before it in the text is in order. -/
inductive Lacks (name : String) : Schema → Json → Source → Prop
  | field {title : String} {f : Field} {before after : List Field} {ms : List (String × Json)}
      {members : List (TextLiteral × Source)}
      (laid : ms.map Prod.fst = (before ++ f :: after).map Field.name)
      (once : ∀ g ∈ before ++ f :: after, (keys members).count g.name ≤ 1)
      (told : ∀ g ∈ before ++ f :: after, ∀ j, (g.name, j) ∈ ms → ∀ m ∈ members,
        m.1.value = g.name → Tells g.schema j m.2)
      (first : ∀ g ∈ before, g.name ∈ keys members ∨ default? g ≠ none)
      (hname : f.name = name) (habsent : name ∉ keys members) (hdefault : default? f = none) :
      Lacks name (.record title (before ++ f :: after)) (.object ms) (.object members)
  | member {title : String} {fields : List Field} {ms : List (String × Json)}
      {before after : List (TextLiteral × Source)} {f : Field} {j : Json} {key : TextLiteral}
      {v : Source} (laid : ms.map Prod.fst = fields.map Field.name)
      (once : ∀ g ∈ fields, (keys (before ++ [(key, v)])).count g.name ≤ 1)
      (told : ∀ g ∈ fields, ∀ i, (g.name, i) ∈ ms → ∀ m ∈ before, m.1.value = g.name →
        Tells g.schema i m.2)
      (hf : f ∈ fields) (hj : (f.name, j) ∈ ms) (hkey : key.value = f.name)
      (lacks : Lacks name f.schema j v) :
      Lacks name (.record title fields) (.object ms) (.object (before ++ (key, v) :: after))
  | row {title : String} {fields more : List Field} {ms ns : List (String × Json)} {f : Field}
      {j : Json} {before after : List Source} {v : Source}
      (laid : ms.map Prod.fst = fields.map Field.name) (hlength : fields.length = before.length)
      (laid' : ns.map Prod.fst = more.map Field.name)
      (told : ∀ g i u, ((g, i), u) ∈ (fields.zip (ms.map Prod.snd)).zip before →
        Tells g.schema i u)
      (lacks : Lacks name f.schema j v) :
      Lacks name (.record title (fields ++ f :: more)) (.object (ms ++ (f.name, j) :: ns))
        (.list (before ++ v :: after))
  | item {item : Schema} {js is : List Json} {j : Json} {before after : List Source} {v : Source}
      (hlength : js.length = before.length)
      (told : ∀ i u, (i, u) ∈ js.zip before → Tells item i u) (lacks : Lacks name item j v) :
      Lacks name (.list item) (.list (js ++ j :: is)) (.list (before ++ v :: after))
  | content {variants : List Variant} {content : Schema} {key : TextLiteral} {j : Json}
      {v : Source}
      (hfind : variants.find? (·.name == key.value) = some (.holding key.value content))
      (lacks : Lacks name content j v) :
      Lacks name (.choice variants) (tagged key.value j) (.object [(key, v)])

def missing (name : String) : DecodeFault := .shape ("missing field " ++ Text.ticked name)

/-- Nothing that lacks a field is null. -/
theorem Lacks.nullFor_eq {name : String} {s : Schema} {j : Json} {v : Source}
    (h : Lacks name s j v) (f : Field) :
    Reading.nullFor f v.reading = false ∧ Reading.nullFor f (readingOf j) = false := by
  cases h <;> exact ⟨rfl, rfl⟩

theorem Lacks.refuses {name : String} {f : Field} {j : Json} {v : Source}
    (h : Lacks name f.schema j v) (hj : checkField f (readingOf j) = .ok j)
    (hcheck : Accepted f.schema j → v.reading.check f.schema = .error (missing name)) :
    checkField f v.reading = .error (missing name) := by
  obtain ⟨hnull, hnull'⟩ := h.nullFor_eq f
  rw [checkField, hnull'] at hj
  rw [checkField, hnull]
  exact hcheck hj

/-- A field that is told is given its value. -/
theorem Tells.gives {f : Field} {j : Json} {v : Source} (h : Tells f.schema j v)
    (hj : checkField f (readingOf j) = .ok j) : checkField f v.reading = .ok j :=
  checkField_of_check (h.nullFor_eq f) h.check hj

section Refused
variable {title : String} {fields : List Field} {ms : List (String × Json)} {f : Field} {v : Source}
  {e : DecodeFault}

/-- What is known of the fields of a record after some members that are told. -/
theorem known_of_told {before : List (TextLiteral × Source)}
    (hj : Accepted (.record title fields) (.object ms))
    (laid : ms.map Prod.fst = fields.map Field.name)
    (once : ∀ f ∈ fields, (keys before).count f.name ≤ 1)
    (told : ∀ f ∈ fields, ∀ j, (f.name, j) ∈ ms → ∀ m ∈ before, m.1.value = f.name →
      Tells f.schema j m.2) (after : List (TextLiteral × Source)) :
    ∃ known, (Source.object (before ++ after)).reading.check (.record title fields) =
        (Reading.checkMembers (Source.membersReading after) fields known).map .object ∧
      ∀ f ∈ fields, known.lookup f.name =
        if f.name ∈ keys before then ms.lookup f.name else none := by
  obtain ⟨hnames, hfields⟩ := accepted_fields laid hj
  obtain ⟨known, hcheck, hknown⟩ := checkMembers_append [] hnames laid once
    (fun f hf j hj m hm hname => (told f hf j hj m hm hname).gives (hfields f hf j hj))
    (fun _ _ _ => rfl) after
  exact ⟨known, by rw [Source.reading, Reading.check, hcheck], hknown⟩

/-- The first field that is not among the members and may not be left out is missed. -/
theorem check_absent {before after : List Field} {members : List (TextLiteral × Source)}
    (hj : Accepted (.record title (before ++ f :: after)) (.object ms))
    (laid : ms.map Prod.fst = (before ++ f :: after).map Field.name)
    (once : ∀ g ∈ before ++ f :: after, (keys members).count g.name ≤ 1)
    (told : ∀ g ∈ before ++ f :: after, ∀ j, (g.name, j) ∈ ms → ∀ m ∈ members,
      m.1.value = g.name → Tells g.schema j m.2)
    (first : ∀ g ∈ before, g.name ∈ keys members ∨ default? g ≠ none)
    (habsent : f.name ∉ keys members) (hdefault : default? f = none) :
    (Source.object members).reading.check (.record title (before ++ f :: after)) =
      .error (missing f.name) := by
  obtain ⟨hnames, _⟩ := accepted_fields laid hj
  obtain ⟨known, hcheck, hknown⟩ := known_of_told hj laid once told []
  have hmissing : Reading.fillObject known (before ++ f :: after) = .error (missing f.name) := by
    refine fillObject_missing before after (fun g hg => ?_) ?_ hdefault
    · rcases first g hg with hmem | hother
      · have hg' : g ∈ before ++ f :: after := List.mem_append_left _ hg
        obtain ⟨m, hm, hm'⟩ := List.mem_map.mp (laid ▸ List.mem_map_of_mem hg')
        rw [hknown g hg', if_pos hmem, ← hm', lookup_of_mem (laid ▸ hnames) hm]
        exact .inl (Option.some_ne_none _)
      · exact .inr hother
    · rw [hknown f (List.mem_append_right _ List.mem_cons_self), if_neg habsent]
  rw [List.append_nil] at hcheck
  rw [hcheck, Source.membersReading, Reading.checkMembers, hmissing]
  rfl

/-- A member that is refused ends the record. -/
theorem check_refused_member {before after : List (TextLiteral × Source)} {key : TextLiteral}
    (hj : Accepted (.record title fields) (.object ms))
    (laid : ms.map Prod.fst = fields.map Field.name)
    (once : ∀ g ∈ fields, (keys (before ++ [(key, v)])).count g.name ≤ 1)
    (told : ∀ g ∈ fields, ∀ j, (g.name, j) ∈ ms → ∀ m ∈ before, m.1.value = g.name →
      Tells g.schema j m.2)
    (hf : f ∈ fields) (hkey : key.value = f.name) (hv : checkField f v.reading = .error e) :
    (Source.object (before ++ (key, v) :: after)).reading.check (.record title fields) =
      .error e := by
  obtain ⟨hnames, _⟩ := accepted_fields laid hj
  have hcount : ∀ g ∈ fields, (keys before).count g.name + [key.value].count g.name ≤ 1 := by
    intro g hg
    have h := once g hg
    rwa [keys, List.map_append, List.count_append] at h
  obtain ⟨known, hcheck, hknown⟩ := known_of_told hj laid
    (fun g hg => Nat.le_trans (Nat.le_add_right _ _) (hcount g hg)) told ((key, v) :: after)
  have hfresh : f.name ∉ keys before := by
    have h := hcount f hf
    rw [hkey, List.count_singleton_self] at h
    exact List.count_eq_zero.mp (by omega)
  have hunknown : known.lookup f.name = none := by rw [hknown f hf, if_neg hfresh]
  rw [hcheck, Source.membersReading, hkey,
    checkMembers_refused (find?_name hnames hf) hunknown hv]
  rfl

theorem laid_append {more : List Field} {ns : List (String × Json)}
    (laid : ms.map Prod.fst = fields.map Field.name)
    (laid' : ns.map Prod.fst = more.map Field.name) (f : Field) (j : Json) :
    (ms ++ (f.name, j) :: ns).map Prod.fst = (fields ++ f :: more).map Field.name := by
  rw [List.map_append, List.map_append, List.map_cons, List.map_cons, laid, laid']

/-- A field that is refused ends a record that is written as a list. -/
theorem check_refused_row {more : List Field} {ns : List (String × Json)} {j : Json}
    {before after : List Source}
    (hj : Accepted (.record title (fields ++ f :: more)) (.object (ms ++ (f.name, j) :: ns)))
    (laid : ms.map Prod.fst = fields.map Field.name) (hlength : fields.length = before.length)
    (laid' : ns.map Prod.fst = more.map Field.name)
    (told : ∀ g i u, ((g, i), u) ∈ (fields.zip (ms.map Prod.snd)).zip before → Tells g.schema i u)
    (hv : checkField f v.reading = .error e) :
    (Source.list (before ++ v :: after)).reading.check (.record title (fields ++ f :: more)) =
      .error e := by
  obtain ⟨_, hfields⟩ := accepted_fields (laid_append laid laid' f j) hj
  have given : ∀ g i u, ((g, i), u) ∈ (fields.zip (ms.map Prod.snd)).zip before →
      checkField g u.reading = .ok i := by
    intro g i u hu
    obtain ⟨hg, hi⟩ := mem_of_zip laid (List.of_mem_zip hu).1
    exact (told g i u hu).gives
      (hfields g (List.mem_append_left _ hg) i (List.mem_append_left _ hi))
  obtain ⟨_, hcheck⟩ := checkFields_append laid hlength given title (fields ++ f :: more).length 0
    (v :: after) (f :: more)
  rw [Source.reading, Reading.check, hcheck, Source.itemsReading, checkFields_refused hv]
  rfl

end Refused

/-- A field that is lacking is missed, wherever it is lacking. -/
theorem Lacks.check {name : String} {s : Schema} {j : Json} {v : Source} (h : Lacks name s j v)
    (hj : Accepted s j) : v.reading.check s = .error (missing name) := by
  induction h with
  | field laid once told first hname habsent hdefault =>
    rw [← hname] at habsent ⊢
    exact check_absent hj laid once told first habsent hdefault
  | @member title fields ms before after f j key v laid once told hf hj' hkey lacks ih =>
    have hf' := (accepted_fields laid hj).2 f hf j hj'
    exact check_refused_member hj laid once told hf hkey (lacks.refuses hf' ih)
  | @row title fields more ms ns f j before after v laid hlength laid' told lacks ih =>
    have hf' := (accepted_fields (laid_append laid laid' f j) hj).2 f
      (List.mem_append_right _ List.mem_cons_self) j
      (List.mem_append_right _ List.mem_cons_self)
    exact check_refused_row hj laid hlength laid' told (lacks.refuses hf' ih)
  | @item item js is j before after v hlength told lacks ih =>
    have hitems := accepted_items hj
    have hv := ih (hitems j (List.mem_append_right _ List.mem_cons_self))
    have hcheck := checkItems_append hlength
      (fun i u hu => (told i u hu).check
        (hitems i (List.mem_append_left _ (List.of_mem_zip hu).1))) (v :: after)
    rw [Source.reading, Reading.check, hcheck, Source.itemsReading, Reading.checkItems, hv]
    rfl
  | content hfind _ ih =>
    have hv := ih (accepted_content hfind hj)
    simp [Source.reading, Source.membersReading, Reading.check, Reading.checkVariant, hfind, hv]

/-- A field of a record with its value, and the member that is written for it, if any. -/
structure Part where
  field : Field
  value : Json
  given : Option (TextLiteral × Source)
  named : ∀ m ∈ given, m.1.value = field.name
  told : ∀ m ∈ given, Tells field.schema value m.2

def Part.written {j : Json} {v : Source} (f : Field) (key : TextLiteral) (hkey : key.value = f.name)
    (h : Tells f.schema j v) : Part :=
  ⟨f, j, some (key, v), fun _ hm => Option.some.inj hm ▸ hkey, fun _ hm => Option.some.inj hm ▸ h⟩

def Part.leftOut (f : Field) (j : Json) : Part := ⟨f, j, none, by simp, by simp⟩

/-- The members are those of the parts, in any order, and others of other names. -/
structure Arranged (parts : List Part) (others members : List (TextLiteral × Source)) : Prop where
  names : (parts.map (·.field.name)).Nodup
  perm : members.Perm (parts.filterMap (·.given) ++ others)
  other : ∀ m ∈ others, m.1.value ∉ parts.map (·.field.name)

def record (title : String) (parts : List Part) : Schema := .record title (parts.map (·.field))

def Part.member (p : Part) : String × Json := (p.field.name, p.value)

namespace Arranged

theorem given_sublist (parts : List Part) :
    (keys (parts.filterMap (·.given))).Sublist (parts.map (·.field.name)) := by
  induction parts with
  | nil => exact .slnil
  | cons p parts ih =>
    cases hgiven : p.given with
    | none =>
      rw [List.filterMap_cons_none hgiven]
      exact ih.cons _
    | some m =>
      rw [List.filterMap_cons_some hgiven, keys, List.map_cons, List.map_cons, p.named m hgiven]
      exact ih.cons_cons _

theorem laid (parts : List Part) :
    (parts.map Part.member).map Prod.fst = (parts.map (·.field)).map Field.name := by
  simp [Part.member]

variable {parts : List Part} {others members : List (TextLiteral × Source)}

theorem eq_of_name (h : Arranged parts others members) {p q : Part} (hp : p ∈ parts)
    (hq : q ∈ parts) (heq : p.field.name = q.field.name) : p = q :=
  List.inj_on_of_nodup_map h.names hp hq heq

theorem value_eq (h : Arranged parts others members) {p : Part} (hp : p ∈ parts) {j : Json}
    (hj : (p.field.name, j) ∈ parts.map Part.member) : p.value = j := by
  obtain ⟨q, hq, heq⟩ := List.mem_map.mp hj
  obtain ⟨hname, rfl⟩ := Prod.mk.inj heq
  rw [h.eq_of_name hq hp hname]

theorem once (h : Arranged parts others members) :
    ∀ f ∈ parts.map (·.field), (keys members).count f.name ≤ 1 := by
  intro f hf
  obtain ⟨p, hp, rfl⟩ := List.mem_map.mp hf
  have hother : (keys others).count p.field.name = 0 := by
    refine List.count_eq_zero.mpr fun hmem => ?_
    obtain ⟨m, hm, heq⟩ := List.mem_map.mp hmem
    exact h.other m hm (heq ▸ List.mem_map_of_mem hp)
  have hgiven : (keys (parts.filterMap (·.given))).count p.field.name ≤ 1 :=
    Nat.le_trans ((given_sublist parts).count_le _) (List.nodup_iff_count_le_one.mp h.names _)
  have hcount := (h.perm.map (·.1.value)).count_eq p.field.name
  rw [List.map_append, List.count_append] at hcount
  simp only [keys] at hother hgiven ⊢
  omega

theorem mem_given (h : Arranged parts others members) {p : Part} (hp : p ∈ parts)
    {m : TextLiteral × Source} (hm : m ∈ members) (hname : m.1.value = p.field.name) :
    m ∈ p.given := by
  rcases List.mem_append.mp (h.perm.mem_iff.mp hm) with hm | hm
  · obtain ⟨q, hq, hgiven⟩ := List.mem_filterMap.mp hm
    obtain rfl : q = p := h.eq_of_name hq hp ((q.named m hgiven).symm.trans hname)
    exact hgiven
  · exact absurd (hname ▸ List.mem_map_of_mem hp) (h.other m hm)

theorem told (h : Arranged parts others members) :
    ∀ f ∈ parts.map (·.field), ∀ j, (f.name, j) ∈ parts.map Part.member → ∀ m ∈ members,
      m.1.value = f.name → Tells f.schema j m.2 := by
  intro f hf j hj m hm hname
  obtain ⟨p, hp, rfl⟩ := List.mem_map.mp hf
  rw [← h.value_eq hp hj]
  exact p.told m (h.mem_given hp hm hname)

theorem mem_keys_iff (h : Arranged parts others members) {p : Part} (hp : p ∈ parts) :
    p.field.name ∈ keys members ↔ p.given ≠ none := by
  constructor
  · intro hmem
    obtain ⟨m, hm, hname⟩ := List.mem_map.mp hmem
    rw [h.mem_given hp hm hname]
    exact Option.some_ne_none m
  · intro hgiven
    obtain ⟨m, hm⟩ := Option.ne_none_iff_exists'.mp hgiven
    have hmember : m ∈ members :=
      h.perm.mem_iff.mpr (List.mem_append_left _ (List.mem_filterMap.mpr ⟨p, hp, hm⟩))
    rw [← p.named m hm]
    exact List.mem_map_of_mem hmember

/-- The record is told if no part is left out but those that have their defaults. -/
theorem tells (h : Arranged parts others members)
    (hgiven : ∀ p ∈ parts, p.given = none → default? p.field = some p.value) (title : String) :
    Tells (record title parts) (.object (parts.map Part.member)) (.object members) := by
  refine .object (laid parts) h.once h.told fun f hf j hj habsent => ?_
  obtain ⟨p, hp, rfl⟩ := List.mem_map.mp hf
  rw [← h.value_eq hp hj]
  refine hgiven p hp (Option.not_isSome_iff_eq_none.mp fun hsome => habsent ?_)
  exact (h.mem_keys_iff hp).mpr (Option.isSome_iff_ne_none.mp hsome)

/-- The first field that is left out and has no default is lacking. -/
theorem lacks {before after : List Part} {p : Part}
    (h : Arranged (before ++ p :: after) others members)
    (hbefore : ∀ q ∈ before, q.given ≠ none ∨ default? q.field ≠ none) (hgiven : p.given = none)
    (hdefault : default? p.field = none) (title : String) :
    Lacks p.field.name (record title (before ++ p :: after))
      (.object ((before ++ p :: after).map Part.member)) (.object members) := by
  have hfields : (before ++ p :: after).map (·.field) =
      before.map (·.field) ++ p.field :: after.map (·.field) := by simp
  have hp : p ∈ before ++ p :: after := List.mem_append_right _ List.mem_cons_self
  rw [record, hfields]
  refine .field (hfields ▸ laid _) (hfields ▸ h.once) (hfields ▸ h.told) (fun f hf => ?_) rfl
    (fun hmem => (h.mem_keys_iff hp).mp hmem hgiven) hdefault
  obtain ⟨q, hq, rfl⟩ := List.mem_map.mp hf
  exact (hbefore q hq).imp_left (h.mem_keys_iff (List.mem_append_left _ hq)).mpr

end Arranged

end PatternHooks.SchemaLayouts
