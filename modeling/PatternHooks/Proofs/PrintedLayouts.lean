import PatternHooks.Proofs.PrintedJson
import PatternHooks.Proofs.SchemaLayouts

/-!
The layout of the schema among all layouts. What is printed for a value that a schema accepts tells
it, and what is printed for the fields of a record are parts of it that may stand in any order.
-/

namespace PatternHooks.PrintedLayouts

open Json JsonText SchemaCheck JsonSource PrintedJson SchemaLayouts

mutual

/-- The whole numbers of a schema fit a machine word. -/
def narrow : Schema → Bool
  | .whole _ limit => limit ≤ Nat.pow 2 64
  | .flag => true
  | .text _ _ => true
  | .list item => narrow item
  | .record _ fields => narrowFields fields
  | .choice variants => narrowVariants variants

def narrowFields : List Field → Bool
  | [] => true
  | .mk _ schema _ _ :: fields => narrow schema && narrowFields fields

def narrowVariants : List Variant → Bool
  | [] => true
  | .bare _ :: variants => narrowVariants variants
  | .holding _ content :: variants => narrow content && narrowVariants variants

end

theorem narrowFields_cons (f : Field) (fields : List Field) :
    narrowFields (f :: fields) = (narrow f.schema && narrowFields fields) := by
  cases f
  rfl

theorem narrow_of_find {variants : List Variant} (h : narrowVariants variants = true)
    {name name' : String} {content : Schema}
    (hfind : variants.find? (·.name == name) = some (.holding name' content)) :
    narrow content = true := by
  have hmem := List.mem_of_find?_eq_some hfind
  clear hfind
  induction variants with
  | nil => cases hmem
  | cons variant variants ih =>
    rcases List.mem_cons.mp hmem with rfl | htail
    · exact (Bool.and_eq_true_iff.mp h).1
    · cases variant with
      | bare _ => exact ih h htail
      | holding _ _ => exact ih (Bool.and_eq_true_iff.mp h).2 htail

theorem tells_whole {n : Nat} (s : Schema) (hn : n ≤ Reading.maxWhole) :
    Tells s (.nat n) (.number (printedWhole n)) := .nat s hn (text_printedWhole n)

section Accepted
variable {s : Schema}

theorem whole_of_accepted {n : Numeral} (hnarrow : narrow s = true) (h : Accepted s (.number n)) :
    ∃ k ≤ Reading.maxWhole, n = .whole (k : Nat) := by
  cases s with
  | whole title limit =>
    obtain ⟨k, hk, heq⟩ := check_whole h
    have hlimit : limit ≤ Nat.pow 2 64 := of_decide_eq_true hnarrow
    exact ⟨k, by simp only [Reading.maxWhole]; omega, Json.number.inj heq⟩
  | flag | text _ _ | list _ | record _ _ | choice _ =>
    simp [Accepted, readingOf, Reading.check, Reading.checkFlag, Reading.checkText] at h

theorem list_of_accepted {items : List Json} (h : Accepted s (.list items)) :
    ∃ item, s = .list item := by
  cases s with
  | list item => exact ⟨item, rfl⟩
  | record title fields =>
    rw [Accepted, readingOf, Reading.check] at h
    obtain ⟨_, _, hout⟩ := exists_of_map_eq_ok h
    cases hout
  | whole _ _ | flag | text _ _ | choice _ =>
    simp [Accepted, readingOf, Reading.check, Reading.checkWhole, Reading.checkFlag,
      Reading.checkText] at h

/-- Once members are checked, the fields are filled from what is known. -/
theorem exists_fill {fields : List Field} (ms : Members) {seen out : List (String × Json)}
    (h : Reading.checkMembers ms fields seen = .ok out) :
    ∃ known, Reading.fillObject known fields = .ok out := by
  match ms with
  | .stop none => exact ⟨seen, h⟩
  | .stop (some p) => simp [Reading.checkMembers] at h
  | .more (.text (.ok name) _) r rest =>
    simp only [Reading.checkMembers] at h
    split at h
    · split at h
      · cases h
      · exact exists_fill rest h
    · split at h
      · cases h
      split at h
      · exact exists_fill rest h
      · split at h
        · cases h
        · exact exists_fill rest h
  | .more (.text (.error _) _) _ _ | .more .null _ _ | .more (.flag _) _ _
  | .more (.number _ _) _ _ | .more (.list _) _ _ | .more (.object _) _ _
  | .more (.misspelt _) _ _ | .more (.broken _) _ _ => simp [Reading.checkMembers] at h

/-- A record that is accepted as it is has its fields in order. -/
theorem laid_of_accepted {title : String} {fields : List Field} {ms : List (String × Json)}
    (h : Accepted (.record title fields) (.object ms)) :
    ms.map Prod.fst = fields.map Field.name := by
  rw [Accepted, readingOf, Reading.check] at h
  obtain ⟨out, hmembers, hout⟩ := exists_of_map_eq_ok h
  obtain rfl : out = ms := Json.object.inj hout
  obtain ⟨known, hfill⟩ := exists_fill _ hmembers
  exact (laid_of_fillObject hfill).names_eq

theorem content_of_accepted {variants : List Variant} {ms : List (String × Json)}
    (h : Accepted (.choice variants) (.object ms)) : ∃ name j content, ms = [(name, j)] ∧
      variants.find? (·.name == name) = some (.holding name content) ∧ Accepted content j := by
  rw [Accepted, readingOf, Reading.check] at h
  rcases ms with _ | ⟨⟨name, j⟩, ms⟩
  · simp [membersOf, Reading.checkVariant] at h
  simp only [membersOf, Reading.checkVariant] at h
  split at h
  · cases h
  · split at h
    · cases h
    · split at h <;> cases h
  · rename_i name' content hfind
    obtain rfl : name' = name := by simpa [Variant.name] using List.find?_some hfind
    split at h
    · cases h
    · rename_i i hi
      split at h
      · cases h
      · rename_i hlast
        obtain ⟨hm, hms⟩ := List.cons.inj (Json.object.inj (Except.ok.inj h))
        obtain ⟨_, rfl⟩ := Prod.mk.inj hm
        obtain rfl := hms
        exact ⟨_, _, content, rfl, hfind, hi⟩

end Accepted

/-- What a field may hold is null, or accepted by its schema. -/
theorem null_or_accepted {f : Field} {j : Json} (h : checkField f (readingOf j) = .ok j) :
    j = .null ∨ Accepted f.schema j := by
  rw [checkField] at h
  split at h
  · exact .inl (Except.ok.inj h).symm
  · exact .inr h

mutual

/-- What is printed for an accepted value tells it. -/
theorem exists_told : ∀ (j : Json) (s : Schema), narrow s = true → Accepted s j →
    ∃ v, Tells s j v ∧ v.tokens.flatten = render j
  | .null, s, _, _ => ⟨.null, .null s, rfl⟩
  | .flag b, s, _, _ => ⟨.flag b, .flag s b, by simp [Source.tokens]⟩
  | .number n, s, hnarrow, h => by
    obtain ⟨k, hk, rfl⟩ := whole_of_accepted hnarrow h
    exact ⟨_, tells_whole s hk, by simp [Source.tokens, text_printedWhole, render, numeralText]⟩
  | .text t, s, _, _ =>
    ⟨.text (printedText t), .text s (printedText t),
      by simp [Source.tokens, text_printedText, render]⟩
  | .list items, s, hnarrow, h => by
    obtain ⟨item, rfl⟩ := list_of_accepted h
    obtain ⟨vs, hlength, told, htext, _⟩ :=
      exists_told_items items item hnarrow (accepted_items h)
    exact ⟨.list vs, .list hlength told, by simp [Source.tokens, htext, render]⟩
  | .object ms, .record title fields, hnarrow, h => by
    have laid := laid_of_accepted h
    obtain ⟨hnames, hfields⟩ := accepted_fields laid h
    obtain ⟨parts, rfl, rfl, hgiven, htext, _⟩ :=
      exists_parts ms fields hnarrow (laid_of_names laid hfields)
    rw [List.map_map] at hnames
    have harranged : Arranged parts [] (parts.filterMap (·.given)) :=
      ⟨hnames, by rw [List.append_nil], by simp⟩
    refine ⟨.object (parts.filterMap (·.given)), ?_, by simp [Source.tokens, htext, render]⟩
    exact harranged.tells (fun p hp hnone => absurd hnone (hgiven p hp)) title
  | .object ms, .choice variants, hnarrow, h => by
    obtain ⟨name, j, content, rfl, hfind, hj⟩ := content_of_accepted h
    obtain ⟨v, hv, htext⟩ := exists_told j content (narrow_of_find hnarrow hfind) hj
    exact ⟨.object [(printedText name, v)], @Tells.content _ _ (printedText name) _ _ hfind hv,
      by simp [Source.tokens, Source.memberTokens, Source.moreMemberTokens, text_printedText, htext,
        render, renderMembers, renderMoreMembers]⟩
  | .object _, .whole _ _, _, h | .object _, .flag, _, h | .object _, .text _ _, _, h
  | .object _, .list _, _, h => by
    simp [Accepted, readingOf, Reading.check, Reading.checkWhole, Reading.checkFlag,
      Reading.checkText] at h

theorem exists_told_items : ∀ (items : List Json) (item : Schema), narrow item = true →
    (∀ j ∈ items, Accepted item j) → ∃ vs : List Source, items.length = vs.length ∧
      (∀ j v, (j, v) ∈ items.zip vs → Tells item j v) ∧
      (Source.itemTokens vs).flatten = renderItems items ∧
      (Source.moreItemTokens vs).flatten = renderMoreItems items
  | [], _, _, _ => ⟨[], rfl, by simp, rfl, rfl⟩
  | j :: items, item, hnarrow, h => by
    obtain ⟨hj, hitems⟩ := List.forall_mem_cons.mp h
    obtain ⟨v, hv, htext⟩ := exists_told j item hnarrow hj
    obtain ⟨vs, hlength, told, _, hmore⟩ := exists_told_items items item hnarrow hitems
    refine ⟨v :: vs, congrArg Nat.succ hlength, ?_, ?_, ?_⟩
    · intro i u hu
      rcases List.mem_cons.mp hu with heq | hu
      · obtain ⟨rfl, rfl⟩ := Prod.mk.inj heq
        exact hv
      · exact told i u hu
    · simp [Source.itemTokens, htext, hmore, renderItems]
    · simp [Source.moreItemTokens, htext, hmore, renderMoreItems]

/-- What is printed for the fields of a record are parts of it. -/
theorem exists_parts : ∀ (ms : List (String × Json)) (fields : List Field),
    narrowFields fields = true →
    Laid (fun f j => checkField f (readingOf j) = .ok j) fields ms → ∃ parts : List Part,
      parts.map (·.field) = fields ∧ parts.map Part.member = ms ∧
      (∀ p ∈ parts, p.given ≠ none) ∧
      (Source.memberTokens (parts.filterMap (·.given))).flatten = renderMembers ms ∧
      (Source.moreMemberTokens (parts.filterMap (·.given))).flatten = renderMoreMembers ms
  | [], fields, _, hlaid => by
    cases hlaid
    exact ⟨[], rfl, rfl, by simp, rfl, rfl⟩
  | (name, j) :: ms, [], _, hlaid => by cases hlaid
  | (name, j) :: ms, f :: fields, hnarrow, hlaid => by
    rw [narrowFields_cons] at hnarrow
    obtain ⟨hschema, hfields⟩ := Bool.and_eq_true_iff.mp hnarrow
    obtain ⟨_, _, heq, hj, hms⟩ := hlaid.exists_cons
    obtain ⟨hm, rfl⟩ := List.cons.inj heq
    obtain ⟨rfl, rfl⟩ := Prod.mk.inj hm
    obtain ⟨v, hv, htext⟩ : ∃ v, Tells f.schema j v ∧ v.tokens.flatten = render j := by
      rcases null_or_accepted hj with rfl | hj
      · exact ⟨.null, .null f.schema, rfl⟩
      · exact exists_told j f.schema hschema hj
    obtain ⟨parts, rfl, rfl, hgiven, _, hmore⟩ := exists_parts ms fields hfields hms
    have hcons : (Part.written f (printedText f.name) rfl hv :: parts).filterMap (·.given) =
        (printedText f.name, v) :: parts.filterMap (·.given) := List.filterMap_cons_some rfl
    refine ⟨.written f (printedText f.name) rfl hv :: parts, rfl, rfl,
      List.forall_mem_cons.mpr ⟨Option.some_ne_none _, hgiven⟩, ?_, ?_⟩
    · simp [hcons, Source.memberTokens, text_printedText, htext, hmore, renderMembers]
    · simp [hcons, Source.moreMemberTokens, text_printedText, htext, hmore, renderMoreMembers]

end

end PatternHooks.PrintedLayouts
