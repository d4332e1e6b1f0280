/-!
Byte offsets into a text. A text is measured in bytes of its UTF-8 form. An offset is a boundary
when no character straddles it, so the text can be cut there and nowhere else.
-/

namespace PatternHooks.Text

/-- The number of bytes. -/
def size : List Char → Nat
  | [] => 0
  | c :: cs => c.utf8Size + size cs

/-- What follows the first `n` bytes, if the text can be cut there. -/
def after? : Nat → List Char → Option (List Char)
  | 0, cs => some cs
  | _ + 1, [] => none
  | n + 1, c :: cs => if n + 1 < c.utf8Size then none else after? (n + 1 - c.utf8Size) cs

/-- The first `n` bytes, if the text can be cut there. -/
def upTo? : Nat → List Char → Option (List Char)
  | 0, _ => some []
  | _ + 1, [] => none
  | n + 1, c :: cs =>
    if n + 1 < c.utf8Size then none else (upTo? (n + 1 - c.utf8Size) cs).map (c :: ·)

/-- The bytes from `start` to `stop`, if the range is upright and both ends are boundaries. -/
def between? (start stop : Nat) (cs : List Char) : Option (List Char) :=
  if start ≤ stop then (after? start cs).bind (upTo? (stop - start)) else none

def isBoundary (n : Nat) (cs : List Char) : Bool := (after? n cs).isSome

/-- All boundaries in increasing order, for a text that begins at offset `n`. -/
def boundariesFrom (n : Nat) : List Char → List Nat
  | [] => [n]
  | c :: cs => n :: boundariesFrom (n + c.utf8Size) cs

def boundaries (cs : List Char) : List Nat := boundariesFrom 0 cs

/-- What is left of a text that begins with another one. -/
def strip? : List Char → List Char → Option (List Char)
  | [], cs => some cs
  | _ :: _, [] => none
  | p :: ps, c :: cs => if p = c then strip? ps cs else none

@[simp] theorem size_nil : size [] = 0 := rfl

@[simp] theorem size_cons (c : Char) (cs : List Char) : size (c :: cs) = c.utf8Size + size cs := rfl

@[simp] theorem size_append (xs ys : List Char) : size (xs ++ ys) = size xs + size ys := by
  induction xs with
  | nil => simp
  | cons c cs ih => simp [ih, Nat.add_assoc]

@[simp] theorem after?_zero (cs : List Char) : after? 0 cs = some cs := by
  cases cs <;> rfl

@[simp] theorem upTo?_zero (cs : List Char) : upTo? 0 cs = some [] := by
  cases cs <;> rfl

/-- A text can be cut after any of its initial segments. -/
theorem after?_append (xs ys : List Char) : after? (size xs) (xs ++ ys) = some ys := by
  induction xs with
  | nil => simp
  | cons c cs ih =>
    have hc := c.utf8Size_pos
    obtain ⟨n, hn⟩ : ∃ n, c.utf8Size + size cs = n + 1 := ⟨c.utf8Size + size cs - 1, by omega⟩
    rw [size_cons, List.cons_append, hn, after?, if_neg (by omega), ← hn]
    simpa using ih

/-- A cut leaves an initial segment of that many bytes before it. -/
theorem exists_of_after? {n : Nat} {cs rest : List Char} (h : after? n cs = some rest) :
    ∃ xs, cs = xs ++ rest ∧ size xs = n := by
  induction cs generalizing n with
  | nil =>
    cases n with
    | zero => exact ⟨[], by simpa using h, rfl⟩
    | succ n => simp [after?] at h
  | cons c cs ih =>
    cases n with
    | zero => exact ⟨[], by simpa using h, rfl⟩
    | succ n =>
      rw [after?] at h
      split at h
      · contradiction
      · obtain ⟨xs, rfl, hxs⟩ := ih h
        exact ⟨c :: xs, rfl, by simp only [size_cons]; omega⟩

theorem upTo?_append (xs ys : List Char) : upTo? (size xs) (xs ++ ys) = some xs := by
  induction xs with
  | nil => simp
  | cons c cs ih =>
    have hc := c.utf8Size_pos
    obtain ⟨n, hn⟩ : ∃ n, c.utf8Size + size cs = n + 1 := ⟨c.utf8Size + size cs - 1, by omega⟩
    rw [size_cons, List.cons_append, hn, upTo?, if_neg (by omega), ← hn, Nat.add_sub_cancel_left,
      ih, Option.map_some]

/-- The range from any boundary to the end is what follows the boundary. -/
theorem between?_append (xs ys : List Char) :
    between? (size xs) (size (xs ++ ys)) (xs ++ ys) = some ys := by
  have hys := upTo?_append ys []
  rw [List.append_nil] at hys
  rw [between?, if_pos (by simp), after?_append, Option.bind_some, size_append,
    Nat.add_sub_cancel_left, hys]

/-- A text is cut into the same two parts wherever the first has the same size. -/
theorem append_inj_of_size {xs₁ xs₂ ys₁ ys₂ : List Char} (h : xs₁ ++ ys₁ = xs₂ ++ ys₂)
    (hsize : size xs₁ = size xs₂) : xs₁ = xs₂ ∧ ys₁ = ys₂ := by
  have hafter := after?_append xs₁ ys₁
  rw [h, hsize, after?_append] at hafter
  have hys : ys₁ = ys₂ := (Option.some_inj.mp hafter).symm
  subst hys
  exact ⟨List.append_cancel_right h, rfl⟩

theorem isBoundary_iff (n : Nat) (cs : List Char) :
    isBoundary n cs = true ↔ ∃ xs ys, cs = xs ++ ys ∧ size xs = n := by
  constructor
  · intro h
    obtain ⟨rest, hrest⟩ := Option.isSome_iff_exists.mp h
    obtain ⟨xs, hxs, hn⟩ := exists_of_after? hrest
    exact ⟨xs, rest, hxs, hn⟩
  · intro h
    obtain ⟨xs, ys, rfl, rfl⟩ := h
    simp [isBoundary, after?_append]

theorem size_ofList (cs : List Char) : (String.ofList cs).utf8ByteSize = size cs := by
  induction cs with
  | nil => rfl
  | cons c cs ih =>
    rw [← List.singleton_append, String.ofList_append, String.utf8ByteSize_append, ih]
    simp

/-- The size of a text is that of its UTF-8 form. -/
theorem size_toList (s : String) : size s.toList = s.utf8ByteSize := by
  rw [← size_ofList, String.ofList_toList]

/-- The boundaries of a text are the positions at which a character of its UTF-8 form begins, and
the end. -/
theorem isBoundary_toList_iff (n : Nat) (s : String) :
    isBoundary n s.toList = true ↔ (⟨n⟩ : String.Pos.Raw).IsValid s := by
  rw [isBoundary_iff, String.Pos.Raw.isValid_iff_exists_append]
  constructor
  · intro h
    obtain ⟨xs, ys, hs, rfl⟩ := h
    refine ⟨.ofList xs, .ofList ys, ?_, ?_⟩
    · rw [← String.ofList_append, ← hs, String.ofList_toList]
    · rw [String.Pos.Raw.ext_iff, String.byteIdx_rawEndPos, size_ofList]
  · intro h
    obtain ⟨s₁, s₂, rfl, hn⟩ := h
    refine ⟨s₁.toList, s₂.toList, String.toList_append, ?_⟩
    rw [size_toList, ← String.byteIdx_rawEndPos, ← hn]

theorem le_size_of_isBoundary {n : Nat} {cs : List Char} (h : isBoundary n cs = true) :
    n ≤ size cs := by
  obtain ⟨xs, ys, rfl, rfl⟩ := (isBoundary_iff n cs).mp h
  simp

theorem mem_boundariesFrom_iff {m n : Nat} {cs : List Char} :
    n ∈ boundariesFrom m cs ↔ ∃ xs ys, cs = xs ++ ys ∧ n = m + size xs := by
  induction cs generalizing m with
  | nil =>
    rw [boundariesFrom, List.mem_singleton]
    constructor
    · exact fun h => ⟨[], [], rfl, h⟩
    · intro h
      obtain ⟨xs, ys, hcut, hn⟩ := h
      obtain ⟨rfl, rfl⟩ := List.append_eq_nil_iff.mp hcut.symm
      exact hn
  | cons c cs ih =>
    rw [boundariesFrom, List.mem_cons, ih]
    constructor
    · intro h
      rcases h with h | ⟨xs, ys, rfl, hn⟩
      · exact ⟨[], c :: cs, rfl, h⟩
      · exact ⟨c :: xs, ys, rfl, by rw [hn, size_cons, Nat.add_assoc]⟩
    · intro h
      obtain ⟨xs, ys, hcut, hn⟩ := h
      cases xs with
      | nil => exact .inl hn
      | cons x xs =>
        cases hcut
        exact .inr ⟨xs, ys, rfl, by rw [hn, size_cons, Nat.add_assoc]⟩

theorem mem_boundaries_iff {n : Nat} {cs : List Char} :
    n ∈ boundaries cs ↔ isBoundary n cs = true := by
  rw [boundaries, mem_boundariesFrom_iff, isBoundary_iff]
  simp only [Nat.zero_add, eq_comm]

theorem pairwise_boundariesFrom (m : Nat) (cs : List Char) :
    (boundariesFrom m cs).Pairwise (· < ·) := by
  induction cs generalizing m with
  | nil => exact List.pairwise_singleton _ m
  | cons c cs ih =>
    refine List.pairwise_cons.mpr ⟨?_, ih (m + c.utf8Size)⟩
    intro n hn
    obtain ⟨xs, ys, _, rfl⟩ := mem_boundariesFrom_iff.mp hn
    have hc := c.utf8Size_pos
    omega

/-- The boundary after the one before a character is the one after it. -/
theorem le_of_isBoundary_of_lt {n : Nat} {c : Char} {xs ys : List Char}
    (h : isBoundary n (xs ++ c :: ys) = true) (hlt : size xs < n) : size xs + c.utf8Size ≤ n := by
  obtain ⟨as, bs, has, rfl⟩ := (isBoundary_iff n _).mp h
  rcases List.append_eq_append_iff.mp has with ⟨zs, rfl, hzs⟩ | ⟨zs, rfl, _⟩
  · cases zs with
    | nil => simp at hlt
    | cons z zs =>
      cases hzs
      simp only [size_append, size_cons]
      omega
  · simp only [size_append] at hlt
    omega

theorem strip?_eq_some_iff {ps cs rest : List Char} :
    strip? ps cs = some rest ↔ cs = ps ++ rest := by
  induction ps generalizing cs with
  | nil => simp [strip?]
  | cons p ps ih =>
    cases cs with
    | nil => simp [strip?]
    | cons c cs =>
      by_cases hpc : p = c
      · simp [strip?, hpc, ih]
      · simp [strip?, hpc, Ne.symm hpc]

theorem strip?_eq_none {ps cs : List Char} (h : ¬ ps <+: cs) : strip? ps cs = none := by
  cases hstrip : strip? ps cs with
  | none => rfl
  | some rest => exact absurd ⟨rest, (strip?_eq_some_iff.mp hstrip).symm⟩ h

end PatternHooks.Text
