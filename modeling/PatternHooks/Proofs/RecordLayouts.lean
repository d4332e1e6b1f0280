import PatternHooks.Proofs.LosslessFormats
import PatternHooks.Proofs.PrintedLayouts

/-!
The records of the data model depend on their fields alone. Their members may stand in any order,
among members of any other names and values and with blanks anywhere, or the fields may stand in a
list; a record inside another may be laid out either way. A field that has a default may be left out
and stands for the default; any other is missed.
-/

namespace PatternHooks.RecordLayouts

open Json JsonText SchemaCheck JsonSource PrintedJson SchemaLayouts PrintedLayouts LosslessFormats

variable {α : Type}

/-- Values that are read from every text that tells them, whatever its layout, and missed where a
field without a default is lacking. -/
structure AnyLayout (f : Format α) (Fits : α → Prop) : Prop where
  /-- What is written for a value tells it. -/
  write_tells : ∀ a, Fits a →
    ∃ v, Tells f.schema (f.encode a) v ∧ v.tokens.flatten = (f.write a).toList
  read_told : ∀ a v text, Fits a → Tells f.schema (f.encode a) v → Spaced v.tokens text.toList →
    f.read text = .ok a
  read_lacking : ∀ a v name text, Fits a → Lacks name f.schema (f.encode a) v →
    Spaced v.tokens text.toList →
    f.read text = .error (.shape ("missing field " ++ Text.ticked name))

theorem anyLayout_of_faithful {f : Format α} {Fits : α → Prop} (hnarrow : narrow f.schema = true)
    (h : ∀ a, Fits a → Faithful f a) : AnyLayout f Fits where
  write_tells a ha := by
    rw [Format.write, String.toList_ofList]
    exact exists_told (f.encode a) f.schema hnarrow (h a ha).said.accepted
  read_told a v text ha htold htext := by
    have hcheck := htold.check (h a ha).said.accepted
    simp [Format.read, Document.check, read_source htext, hcheck, (h a ha).decodes]
  read_lacking a v name text ha hlacks htext := by
    have hcheck := hlacks.check (h a ha).said.accepted
    simp [Format.read, Document.check, read_source htext, hcheck, missing]

theorem anyLayout_of_always {f : Format α} (hnarrow : narrow f.schema = true)
    (h : ∀ a, Faithful f a) : AnyLayout f fun _ => True :=
  anyLayout_of_faithful hnarrow fun a _ => h a

/-- A node whose kind holds a record. -/
def curlyNode : Node := ⟨7, .curly 1 none, 2, none⟩

/-- A member of another name, with lists and objects, a number with a fraction and a power of ten,
and a text with an escape. -/
def otherMember : TextLiteral × Source :=
  (printedText "later", .list [.object [(printedText "index", .null)],
    .number ⟨['-'], ['1'], ".5".toList, "e+3".toList, .inr rfl, digits_of_all (by simp) rfl,
      by simp, .inr ⟨['5'], digits_of_all (by simp) rfl, rfl⟩,
      .inr ⟨'e', by simp, ['+'], by simp, ['3'], digits_of_all (by simp) rfl, rfl⟩⟩,
    .text ⟨"é", "\\u00e9".toList, .code (⟨rfl, rfl⟩ : Quad 'é'.toNat "00e9".toList) .nil⟩])

/-- A kind that holds a record, written as a list. -/
def curlyKind : TextLiteral × Source :=
  (printedText "kind", .object [(printedText "curly", .list [.number (printedWhole 1), .null])])

theorem tells_curlyKind :
    Tells nodeKindFormat.schema (nodeKindFormat.encode curlyNode.kind) curlyKind.2 := by
  have hrow : Tells curlySchema (.object [("min", word32Format.encode 1), ("max", .null)])
      (.list [.number (printedWhole 1), .null]) := by
    refine .row rfl rfl fun f j v h => ?_
    simp only [List.map_cons, List.map_nil, List.zip_cons_cons, List.zip_nil_right, List.mem_cons,
      List.not_mem_nil, or_false, Prod.mk.injEq] at h
    rcases h with ⟨⟨rfl, rfl⟩, rfl⟩ | ⟨⟨rfl, rfl⟩, rfl⟩
    · exact tells_whole _ (by decide)
    · exact .null _
  exact @Tells.content _ _ (printedText "curly") _ _ rfl hrow

theorem curlyNode_fits : NodeFits curlyNode := ⟨by decide, by decide, by simp [curlyNode]⟩

def indexPart : Part :=
  .written (.required "index" sizeFormat.schema) (printedText "index") rfl
    (tells_whole _ (by decide : 7 ≤ Reading.maxWhole))

def kindPart : Part :=
  .written (.required "kind" nodeKindFormat.schema) (printedText "kind") rfl tells_curlyKind

def offsetPart : Part :=
  .written (.required "offset" sizeFormat.schema) (printedText "offset") rfl
    (tells_whole _ (by decide : 2 ≤ Reading.maxWhole))

def noOffset : Part := .leftOut (.required "offset" sizeFormat.schema) (.nat 2)

def noNext : Part := .leftOut (.optional "next" sizeFormat.schema) .null

/-- The members of the node from the last to the first, after the one that is not its own. -/
theorem arranged_reverse {offset : Part} (h : offset.field.name = "offset") :
    Arranged [indexPart, kindPart, offset, noNext] [otherMember]
      ([indexPart, kindPart, offset, noNext].filterMap (·.given) ++ [otherMember]).reverse where
  names := by simp only [List.map_cons, h]; decide
  perm := List.reverse_perm _
  other := by simp only [List.map_cons, h]; decide

theorem tells_curlyNode : Tells nodeFormat.schema (nodeFormat.encode curlyNode)
    (.object [otherMember, (printedText "offset", .number (printedWhole 2)), curlyKind,
      (printedText "index", .number (printedWhole 7))]) := by
  refine (@arranged_reverse offsetPart rfl).tells (fun p hp hgiven => ?_) "struct Node"
  simp only [List.mem_cons, List.not_mem_nil, or_false] at hp
  rcases hp with rfl | rfl | rfl | rfl
  · cases hgiven
  · cases hgiven
  · cases hgiven
  · rfl

theorem lacks_offset : Lacks "offset" nodeFormat.schema (nodeFormat.encode curlyNode)
    (.object [otherMember, curlyKind, (printedText "index", .number (printedWhole 7))]) := by
  refine @Arranged.lacks _ _ [indexPart, kindPart] [noNext] noOffset (arranged_reverse rfl)
    (fun q hq => .inl ?_) rfl rfl "struct Node"
  simp only [List.mem_cons, List.not_mem_nil, or_false] at hq
  rcases hq with rfl | rfl
  · exact Option.some_ne_none _
  · exact Option.some_ne_none _

end PatternHooks.RecordLayouts
