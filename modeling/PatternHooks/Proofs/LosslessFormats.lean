import PatternHooks.Json.Formats
import PatternHooks.Proofs.PatternIdText
import PatternHooks.Proofs.SchemaCheck
import PatternHooks.Proofs.TimestampText

/-!
The formats of the data model lose nothing: what is written for a value is read as that value, so
that different values have different texts, and a text that is read and written once is settled.
-/

namespace PatternHooks.LosslessFormats

open Json JsonText SchemaCheck

variable {α : Type}

/-- A value that comes through a format unchanged. -/
structure Faithful (f : Format α) (a : α) : Prop where
  said : Says f.schema (f.encode a)
  decodes : f.decode? (f.encode a) = some a

/-- Nothing is lost of the values that fit a format, and no other value is read. -/
structure Lossless (f : Format α) (Fits : α → Prop) : Prop where
  /-- What is written for a value is read as that value. -/
  read_write : ∀ a, Fits a → f.read (f.write a) = .ok a
  /-- Different values have different texts. -/
  write_injective : ∀ a b, Fits a → Fits b → f.write a = f.write b → a = b
  /-- Once read and written again, a text is settled. -/
  settled : ∀ text a, f.read text = .ok a →
    Fits a ∧ (f.read (f.write a)).map f.write = .ok (f.write a)

theorem Faithful.read_write {f : Format α} {a : α} (h : Faithful f a) :
    f.read (f.write a) = .ok a := by
  have hread := read_render h.said.reads
  simp [Format.read, Format.write, hread, Document.check, h.said.accepted, h.decodes]

theorem lossless_of_faithful {f : Format α} {Fits : α → Prop} (h : ∀ a, Fits a → Faithful f a)
    (hread : ∀ text a, f.read text = .ok a → Fits a) : Lossless f Fits where
  read_write a ha := (h a ha).read_write
  write_injective a b ha hb heq := by
    have hread := (h a ha).read_write
    rw [heq, (h b hb).read_write] at hread
    exact (Except.ok.inj hread).symm
  settled text a ha := by
    have hfits := hread text a ha
    rw [(h a hfits).read_write]
    exact ⟨hfits, rfl⟩

theorem lossless_of_always {f : Format α} (h : ∀ a, Faithful f a) : Lossless f fun _ => True :=
  lossless_of_faithful (fun a _ => h a) fun _ _ _ => trivial

theorem faithful_size {n : Nat} (hn : n < Nat.pow 2 64) : Faithful sizeFormat n where
  said := says_whole "usize" (Nat.le_refl _) hn
  decodes := by simp [sizeFormat, Json.nat, nat?]

theorem faithful_word32 (n : UInt32) : Faithful word32Format n where
  said := says_whole "u32" (by decide) n.toNat_lt
  decodes := by simp [word32Format, Json.nat, nat?]

theorem faithful_word8 (n : UInt8) : Faithful word8Format n where
  said := says_whole "u8" (by decide) n.toNat_lt
  decodes := by simp [word8Format, Json.nat, nat?]

theorem faithful_text (s : String) : Faithful textFormat s := ⟨says_text "a string" rfl, rfl⟩

theorem faithful_list {f : Format α} (h : ∀ a, Faithful f a) (as : List α) :
    Faithful (listFormat f) as where
  said := says_list fun j hj => by
    obtain ⟨a, _, rfl⟩ := List.mem_map.mp hj
    exact (h a).said
  decodes := decode?_encode_listFormat (fun a => (h a).decodes) as

theorem faithful_texts (ss : List String) : Faithful textsFormat ss :=
  faithful_list faithful_text ss

theorem faithful_name {all : List α} {name : α → String} (hall : ∀ a, a ∈ all)
    (hname : ∀ a b, name a = name b → a = b) (a : α) : Faithful (nameFormat all name) a := by
  have hfind : all.find? (name · == name a) = some a := by
    obtain ⟨b, hb⟩ : ∃ b, all.find? (name · == name a) = some b :=
      Option.isSome_iff_exists.mp (List.find?_isSome.mpr ⟨a, hall a, by simp⟩)
    have heq : name b = name a := by simpa using List.find?_some hb
    rw [hb, hname b a heq]
  refine ⟨says_bare ?_, by simp [nameFormat, text?, hfind]⟩
  have hnamed : ((·.name == name a) ∘ fun b => Variant.bare (name b)) = (name · == name a) := rfl
  rw [List.find?_map, hnamed, hfind]
  rfl

theorem faithful_patternId (id : PatternId) : Faithful patternIdFormat id where
  said := says_text _ (by simp [PatternIdText.parse_display])
  decodes := by simp [patternIdFormat, text?, PatternIdText.parse_display, Except.toOption]

theorem faithful_instant (i : Time.Instant) : Faithful instantFormat i where
  said := says_text _ (by simp [TimestampText.parse_timestamp])
  decodes := by simp [instantFormat, text?, TimestampText.parse_timestamp, Except.toOption]

theorem fieldSays_option {f : Format α} {o : Option α} (h : ∀ a ∈ o, Faithful f a) (name : String) :
    FieldSays (.optional name f.schema) (f.encodeOption o) := by
  cases o with
  | none => exact .null rfl
  | some a => exact .said (h a rfl).said

theorem decodeOption?_encodeOption {f : Format α} (hnull : ∀ a, f.encode a ≠ .null) {o : Option α}
    (h : ∀ a ∈ o, Faithful f a) : f.decodeOption? (f.encodeOption o) = some o := by
  cases o with
  | none => rfl
  | some a =>
    have hdecode := (h a rfl).decodes
    have ha := hnull a
    simp only [Format.encodeOption]
    unfold Format.decodeOption?
    split
    · contradiction
    · rw [hdecode]; rfl

theorem faithful_flags (fs : PatternFlags) : Faithful flagsFormat fs where
  said := says_record _ (by decide) <|
    .cons (.said (says_flag fs.caseInsensitive)) <| .cons (.said (says_flag fs.multiLine)) <|
    .cons (.said (says_flag fs.singleLine)) <| .cons (.said (says_flag fs.extended)) .nil
  decodes := by simp [flagsFormat, flag?]

theorem faithful_pattern (p : Pattern) : Faithful patternFormat p where
  said := says_record _ (by decide) <|
    .cons (.said (faithful_patternId p.id).said) <| .cons (.said (faithful_text p.source).said) <|
    .cons (.said (faithful_flags p.flags).said) <| .cons (.said (faithful_texts p.hookKeys).said) <|
    .cons (.said (faithful_instant p.compiledAt).said) .nil
  decodes := by
    simp [patternFormat, (faithful_patternId p.id).decodes, text?, (faithful_flags p.flags).decodes,
      (faithful_texts p.hookKeys).decodes, (faithful_instant p.compiledAt).decodes]

theorem faithful_phase (p : Phase) : Faithful phaseFormat p :=
  faithful_name (fun p => by cases p <;> decide)
    (fun p q h => by cases p <;> cases q <;> first | rfl | simp [Phase.name] at h) p

theorem faithful_failure (f : HookFailure) : Faithful failureFormat f where
  said := says_record _ (by decide) <|
    .cons (.said (faithful_text f.key).said) <| .cons (.said (faithful_text f.message).said) .nil
  decodes := by simp [failureFormat, text?]

theorem faithful_report (r : Report) : Faithful reportFormat r where
  said := says_record _ (by decide) <|
    .cons (.said (faithful_phase r.phase).said) <| .cons (.said (faithful_texts r.fired).said) <|
    .cons (.said (faithful_texts r.missing).said) <|
    .cons (.said (faithful_list faithful_failure r.failures).said) .nil
  decodes := by
    simp [reportFormat, (faithful_phase r.phase).decodes, (faithful_texts r.fired).decodes,
      (faithful_texts r.missing).decodes, (faithful_list faithful_failure r.failures).decodes]

theorem faithful_scope (s : Scope) : Faithful scopeFormat s where
  said := says_record _ (by decide) <| .cons (.said (faithful_texts s.keys).said) .nil
  decodes := by simp [scopeFormat, (faithful_texts s.keys).decodes]

theorem faithful_faultKind (k : FaultKind) : Faithful faultKindFormat k :=
  faithful_name (fun k => by cases k <;> decide)
    (fun k l h => by cases k <;> cases l <;> first | rfl | simp [faultKindName] at h) k

theorem faithful_policy (p : DuplicatePolicy) : Faithful policyFormat p :=
  faithful_name (fun p => by cases p <;> decide)
    (fun p q h => by cases p <;> cases q <;> first | rfl | simp [DuplicatePolicy.name] at h) p

theorem faithful_hookSettings (s : HookSettings) : Faithful hookSettingsFormat s where
  said := says_record _ (by decide) <|
    .cons (.said (faithful_policy s.onDuplicate).said) <|
    .cons (.said (says_flag s.fatalErrors)) .nil
  decodes := by simp [hookSettingsFormat, (faithful_policy s.onDuplicate).decodes, flag?]

theorem faithful_logSettings (s : LogSettings) : Faithful logSettingsFormat s where
  said := says_record _ (by decide) <|
    .cons (.said (faithful_text s.level).said) <| .cons (.said (faithful_text s.format).said) .nil
  decodes := by simp [logSettingsFormat, text?]

theorem faithful_settings (s : Settings) : Faithful settingsFormat s where
  said := says_record _ (by decide) <|
    .cons (.said (faithful_hookSettings s.hooks).said) <|
    .cons (.said (faithful_logSettings s.logging).said) .nil
  decodes := by
    simp [settingsFormat, (faithful_hookSettings s.hooks).decodes,
      (faithful_logSettings s.logging).decodes]

theorem says_curly (least : UInt32) (most : Option UInt32) : Says curlySchema
    (.object [("min", word32Format.encode least), ("max", word32Format.encodeOption most)]) :=
  says_record _ (by decide) <|
    .cons (.said (faithful_word32 least).said) <|
    .cons (fieldSays_option (fun n _ => faithful_word32 n) "max") .nil

theorem faithful_nodeKind (k : NodeKind) : Faithful nodeKindFormat k := by
  cases k with
  | exact s =>
    exact ⟨says_tagged rfl (faithful_text s).said, by simp [nodeKindFormat, tagged, text?]⟩
  | curly least most =>
    refine ⟨says_tagged rfl (says_curly least most), ?_⟩
    have hmost : word32Format.decodeOption? (word32Format.encodeOption most) = some most :=
      decodeOption?_encodeOption (fun n => by simp [word32Format, Json.nat])
        fun n _ => faithful_word32 n
    simp [nodeKindFormat, tagged, (faithful_word32 least).decodes, hmost]
  | opening n =>
    exact ⟨says_tagged rfl (faithful_word32 n).said,
      by simp [nodeKindFormat, tagged, (faithful_word32 n).decodes]⟩
  | closing n =>
    exact ⟨says_tagged rfl (faithful_word32 n).said,
      by simp [nodeKindFormat, tagged, (faithful_word32 n).decodes]⟩
  | other n =>
    exact ⟨says_tagged rfl (faithful_word8 n).said,
      by simp [nodeKindFormat, tagged, (faithful_word8 n).decodes]⟩
  | _ => exact ⟨says_bare rfl, rfl⟩

/-- The numbers of a node are those of machine words. -/
def NodeFits (n : Node) : Prop :=
  n.index < Nat.pow 2 64 ∧ n.offset < Nat.pow 2 64 ∧ ∀ next ∈ n.next, next < Nat.pow 2 64

/-- The offsets of a capture are those of machine words. -/
def CaptureFits (c : Capture) : Prop := c.start < Nat.pow 2 64 ∧ c.stop < Nat.pow 2 64

theorem faithful_node {n : Node} (h : NodeFits n) : Faithful nodeFormat n := by
  obtain ⟨hindex, hoffset, hnext⟩ := h
  have hnext : ∀ next ∈ n.next, Faithful sizeFormat next := fun next hn =>
    faithful_size (hnext next hn)
  have hdecode : sizeFormat.decodeOption? (sizeFormat.encodeOption n.next) = some n.next :=
    decodeOption?_encodeOption (fun n => by simp [sizeFormat, Json.nat]) hnext
  refine ⟨says_record _ (by decide) <|
    .cons (.said (faithful_size hindex).said) <| .cons (.said (faithful_nodeKind n.kind).said) <|
    .cons (.said (faithful_size hoffset).said) <| .cons (fieldSays_option hnext "next") .nil, ?_⟩
  simp [nodeFormat, (faithful_size hindex).decodes, (faithful_nodeKind n.kind).decodes,
    (faithful_size hoffset).decodes, hdecode]

theorem faithful_capture {c : Capture} (h : CaptureFits c) : Faithful captureFormat c where
  said := says_record _ (by decide) <|
    .cons (.said (faithful_size h.1).said) <| .cons (.said (faithful_size h.2).said) .nil
  decodes := by simp [captureFormat, (faithful_size h.1).decodes, (faithful_size h.2).decodes]

theorem check_root {d : Document} {s : Schema} {j : Json} (h : d.check s = .ok j) :
    d.root.check s = .ok j := by
  unfold Document.check at h
  split at h
  · simp at h
  · rename_i i hi
    split at h
    · simp at h
    · rw [hi, h]

theorem exists_checked {f : Format α} {text : String} {a : α} (h : f.read text = .ok a) :
    ∃ r j, Reading.check r f.schema = .ok j ∧ f.decode? j = some a := by
  unfold Format.read at h
  split at h
  · simp at h
  · rename_i j hj
    split at h
    · rename_i b hb
      obtain rfl := Except.ok.inj h
      exact ⟨_, j, check_root hj, hb⟩
    · simp at h

section Sizes
variable {name : String} {j : Json}

theorem lt_of_check {r : Reading} (h : r.check sizeFormat.schema = .ok j) {n : Nat}
    (hn : sizeFormat.decode? j = some n) : n < Nat.pow 2 64 := by
  obtain ⟨m, hm, rfl⟩ := check_whole h
  have heq : m = n := by simpa [sizeFormat, Json.nat, nat?] using hn
  exact heq ▸ hm

theorem lt_of_admits (h : Admits (.required name sizeFormat.schema) j) {n : Nat}
    (hn : sizeFormat.decode? j = some n) : n < Nat.pow 2 64 := by
  cases h with
  | checked h => exact lt_of_check h hn
  | null h | absent h | filled h => cases h

theorem lt_of_admits_optional (h : Admits (.optional name sizeFormat.schema) j) {o : Option Nat}
    (ho : sizeFormat.decodeOption? j = some o) : ∀ n ∈ o, n < Nat.pow 2 64 := by
  cases h with
  | null _ | absent _ =>
    obtain rfl := Option.some.inj ho
    simp
  | filled h => cases h
  | checked h =>
    obtain ⟨m, hm, rfl⟩ := check_whole h
    have heq : some m = o := by
      simpa [Format.decodeOption?, sizeFormat, Json.nat, nat?] using ho
    simpa [← heq] using hm

end Sizes

theorem nodeFits_of_read {text : String} {n : Node} (h : nodeFormat.read text = .ok n) :
    NodeFits n := by
  obtain ⟨r, j, hcheck, hdecode⟩ := exists_checked h
  obtain ⟨members, rfl, hlaid⟩ := check_record (by decide) hcheck
  obtain ⟨index, _, rfl, hindex, hlaid⟩ := hlaid.exists_cons
  obtain ⟨kind, _, rfl, _, hlaid⟩ := hlaid.exists_cons
  obtain ⟨offset, _, rfl, hoffset, hlaid⟩ := hlaid.exists_cons
  obtain ⟨next, _, rfl, hnext, _⟩ := hlaid.exists_cons
  simp only [nodeFormat, Field.required, Field.optional, Field.name, field?_cons, String.reduceEq,
    ↓reduceIte, Option.bind_eq_bind, Option.bind_eq_some_iff, Option.pure_def,
    Option.some.injEq] at hdecode
  obtain ⟨i, hi, k, _, o, ho, x, hx, rfl⟩ := hdecode
  exact ⟨lt_of_admits hindex hi, lt_of_admits hoffset ho, lt_of_admits_optional hnext hx⟩

theorem captureFits_of_read {text : String} {c : Capture} (h : captureFormat.read text = .ok c) :
    CaptureFits c := by
  obtain ⟨r, j, hcheck, hdecode⟩ := exists_checked h
  obtain ⟨members, rfl, hlaid⟩ := check_record (by decide) hcheck
  obtain ⟨start, _, rfl, hstart, hlaid⟩ := hlaid.exists_cons
  obtain ⟨stop, _, rfl, hstop, _⟩ := hlaid.exists_cons
  simp only [captureFormat, Field.required, Field.name, field?_cons, String.reduceEq, ↓reduceIte,
    Option.bind_eq_bind, Option.bind_eq_some_iff, Option.pure_def, Option.some.injEq] at hdecode
  obtain ⟨a, ha, b, hb, rfl⟩ := hdecode
  exact ⟨lt_of_admits hstart ha, lt_of_admits hstop hb⟩

/-- Every format of the data model is lossless: for all values, or all whose sizes fit a word. -/
theorem formats_are_lossless :
    Lossless nodeKindFormat (fun _ => True) ∧ Lossless nodeFormat NodeFits ∧
      Lossless captureFormat CaptureFits ∧ Lossless flagsFormat (fun _ => True) ∧
      Lossless patternIdFormat (fun _ => True) ∧ Lossless patternFormat (fun _ => True) ∧
      Lossless phaseFormat (fun _ => True) ∧ Lossless failureFormat (fun _ => True) ∧
      Lossless reportFormat (fun _ => True) ∧ Lossless scopeFormat (fun _ => True) ∧
      Lossless faultKindFormat (fun _ => True) ∧ Lossless policyFormat (fun _ => True) ∧
      Lossless hookSettingsFormat (fun _ => True) ∧ Lossless logSettingsFormat (fun _ => True) ∧
      Lossless settingsFormat (fun _ => True) :=
  ⟨lossless_of_always faithful_nodeKind,
    lossless_of_faithful (fun _ => faithful_node) fun _ _ => nodeFits_of_read,
    lossless_of_faithful (fun _ => faithful_capture) fun _ _ => captureFits_of_read,
    lossless_of_always faithful_flags, lossless_of_always faithful_patternId,
    lossless_of_always faithful_pattern, lossless_of_always faithful_phase,
    lossless_of_always faithful_failure, lossless_of_always faithful_report,
    lossless_of_always faithful_scope, lossless_of_always faithful_faultKind,
    lossless_of_always faithful_policy, lossless_of_always faithful_hookSettings,
    lossless_of_always faithful_logSettings, lossless_of_always faithful_settings⟩

/-- A node at the limits of a word, whose text has quotation marks and control characters. -/
def farNode : Node := ⟨maxOffset, .exact "\"\\\x00\x1f\n\x7f", 0, some maxOffset⟩

theorem formats_are_lossless_at_limits :
    NodeFits farNode ∧ nodeFormat.read (nodeFormat.write farNode) = .ok farNode := by
  have hfits : NodeFits farNode :=
    ⟨by decide, by decide, fun next hnext => by
      obtain rfl : maxOffset = next := Option.some.inj hnext
      decide⟩
  exact ⟨hfits, formats_are_lossless.2.1.read_write farNode hfits⟩

end PatternHooks.LosslessFormats
