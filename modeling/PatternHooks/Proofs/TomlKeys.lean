import PatternHooks.Toml.Document

/-!
The keys of TOML tables. A key is given its place in a table only where it has none yet, so all the
tables of a document have distinct keys, however its lines, dotted keys and inline tables build them
up.
-/

namespace PatternHooks.TomlKeys

open Toml

/-- Every table in the value has distinct keys. -/
inductive Keyed : Value → Prop where
  | flag (b : Bool) : Keyed (.flag b)
  | integer (n : Int) : Keyed (.integer n)
  | real (x : Binary64) : Keyed (.real x)
  | text (s : String) : Keyed (.text s)
  | list {items : List Value} (h : ∀ v ∈ items, Keyed v) : Keyed (.list items)
  | table {members : List (String × Value)} (hkeys : (members.map Prod.fst).Nodup)
      (h : ∀ m ∈ members, Keyed m.2) : Keyed (.table members)

/-- Every table in the item has distinct keys. -/
inductive Tidy : Item → Prop where
  | value {v : Value} (h : Keyed v) : Tidy (.value v)
  | table {standing : Standing} {items : Items} (hkeys : (items.map Prod.fst).Nodup)
      (h : ∀ m ∈ items, Tidy m.2) : Tidy (.table standing items)
  | rows {tables : List Items} (hkeys : ∀ items ∈ tables, (items.map Prod.fst).Nodup)
      (h : ∀ items ∈ tables, ∀ m ∈ items, Tidy m.2) : Tidy (.rows tables)

/-- A table under construction whose keys are distinct, and those of the tables in it. -/
structure Tidied (items : Items) : Prop where
  keys : (items.map Prod.fst).Nodup
  each : ∀ m ∈ items, Tidy m.2

/-- A change of a table under construction that keeps keys distinct. -/
def Keeps (f : Items → Option Items) : Prop :=
  ∀ items items', Tidied items → f items = some items' → Tidied items'

theorem tidied_nil : Tidied [] := ⟨List.nodup_nil, by simp⟩

theorem Tidied.table {items : Items} (h : Tidied items) {standing : Standing} :
    Tidy (.table standing items) := .table h.keys h.each

theorem tidied_of_table {standing : Standing} {items : Items} (h : Tidy (.table standing items)) :
    Tidied items := by
  cases h with
  | table hkeys heach => exact ⟨hkeys, heach⟩

theorem tidy_rows {tables : List Items} (h : ∀ items ∈ tables, Tidied items) :
    Tidy (.rows tables) :=
  .rows (fun items hmem => (h items hmem).keys) fun items hmem => (h items hmem).each

theorem tidied_of_rows {tables : List Items} (h : Tidy (.rows tables)) :
    ∀ items ∈ tables, Tidied items := by
  cases h with
  | rows hkeys heach => exact fun items hmem => ⟨hkeys items hmem, heach items hmem⟩

section Alter
variable {key : String} {f : Option Item → Option Item}

theorem mem_keys_of_alter {items items' : Items} (h : items.alter key f = some items') :
    ∀ k ∈ items'.map Prod.fst, k = key ∨ k ∈ items.map Prod.fst := by
  induction items generalizing items' with
  | nil =>
    obtain ⟨item, _, rfl⟩ := Option.map_eq_some_iff.mp h
    simp
  | cons m items ih =>
    obtain ⟨name, item⟩ := m
    rw [Items.alter] at h
    by_cases hname : name = key
    · rw [if_pos hname] at h
      obtain ⟨item', _, rfl⟩ := Option.map_eq_some_iff.mp h
      intro k hk
      exact .inr hk
    · rw [if_neg hname] at h
      obtain ⟨rest, hrest, rfl⟩ := Option.map_eq_some_iff.mp h
      intro k hk
      rcases List.mem_cons.mp hk with rfl | hk
      · exact .inr List.mem_cons_self
      · rcases ih hrest k hk with hk | hk
        · exact .inl hk
        · exact .inr (List.mem_cons_of_mem _ hk)

/-- Where every change of an item keeps it tidy, so does a change of the item of a key. -/
theorem keeps_alter (hf : ∀ old new, (∀ item ∈ old, Tidy item) → f old = some new → Tidy new) :
    Keeps (Items.alter · key f) := by
  intro items items' hitems h
  induction items generalizing items' with
  | nil =>
    obtain ⟨item, hitem, rfl⟩ := Option.map_eq_some_iff.mp h
    have hnew : Tidy item := hf none item (by simp) hitem
    exact ⟨by simp, by simpa using hnew⟩
  | cons m items ih =>
    obtain ⟨name, item⟩ := m
    obtain ⟨hkeys, heach⟩ := hitems
    obtain ⟨hfresh, hrest⟩ := List.nodup_cons.mp hkeys
    have hitem : Tidy item := heach _ List.mem_cons_self
    have htail : ∀ m ∈ items, Tidy m.2 := fun m hm => heach m (List.mem_cons_of_mem _ hm)
    simp only [Items.alter] at h
    by_cases hname : name = key
    · rw [if_pos hname] at h
      obtain ⟨item', hitem', rfl⟩ := Option.map_eq_some_iff.mp h
      have hnew : Tidy item' := hf (some item) item' (by simpa using hitem) hitem'
      exact ⟨hkeys, List.forall_mem_cons.mpr ⟨hnew, htail⟩⟩
    · rw [if_neg hname] at h
      obtain ⟨rest, halter, rfl⟩ := Option.map_eq_some_iff.mp h
      obtain ⟨hrest', htail'⟩ := ih rest ⟨hrest, htail⟩ halter
      refine ⟨List.nodup_cons.mpr ⟨fun hmem => ?_, hrest'⟩,
        List.forall_mem_cons.mpr ⟨hitem, htail'⟩⟩
      rcases mem_keys_of_alter halter name hmem with hk | hk
      · exact hname hk
      · exact hfresh hk

end Alter

/-- A change at the end of a path keeps keys distinct where the change itself does. -/
theorem keeps_within (dotted : Bool) {f : Standing → Items → Option Items}
    (hf : ∀ standing, Keeps (f standing)) (path : List String) (standing : Standing) :
    Keeps (Items.within dotted f path standing) := by
  induction path generalizing standing with
  | nil => exact hf standing
  | cons key path ih =>
    refine keeps_alter fun old new hold h => ?_
    cases old with
    | none =>
      obtain ⟨inner, hinner, rfl⟩ := Option.map_eq_some_iff.mp h
      exact (ih _ [] inner tidied_nil hinner).table
    | some item =>
      have hitem : Tidy item := hold item rfl
      cases item with
      | value v => exact absurd h (by simp)
      | table before inner =>
        by_cases hclosed : (dotted && decide (before = .opened)) = true
        · simp [hclosed] at h
        · simp only [hclosed] at h
          obtain ⟨inner', hinner, rfl⟩ := Option.map_eq_some_iff.mp h
          exact (ih before inner inner' (tidied_of_table hitem) hinner).table
      | rows tables =>
        cases hlast : tables.getLast? with
        | none => simp [hlast] at h
        | some last =>
          simp only [hlast] at h
          obtain ⟨last', hwithin, rfl⟩ := Option.map_eq_some_iff.mp h
          have hrows := tidied_of_rows hitem
          have hlast' : Tidied last' :=
            ih .opened last last' (hrows last (List.mem_of_getLast? hlast)) hwithin
          refine tidy_rows fun items hmem => ?_
          rcases List.mem_append.mp hmem with hmem | hmem
          · exact hrows items (List.dropLast_subset tables hmem)
          · rwa [List.mem_singleton.mp hmem]

theorem keeps_insert {k : Key} {v : Value} (hv : Keyed v) (standing : Standing) :
    Keeps (Items.insert k v standing) := by
  refine keeps_within true (fun standing items items' hitems h => ?_) k.parents standing
  by_cases hopened : (!k.parents.isEmpty && decide (standing = .opened)) = true
  · simp [hopened] at h
  · simp only [hopened] at h
    refine keeps_alter (fun old new _ hnew => ?_) items items' hitems h
    cases old with
    | none => exact Option.some.inj hnew ▸ .value hv
    | some item => exact absurd hnew (by simp)

theorem keeps_openTable (k : Key) : Keeps (Items.openTable k) := by
  refine keeps_within false (fun _ => keeps_alter fun old new hold hnew => ?_) k.parents .opened
  rcases old with _ | v | ⟨standing, inner⟩ | tables
  · exact Option.some.inj hnew ▸ tidied_nil.table
  · exact absurd hnew (by simp)
  · have hinner : Tidied inner := tidied_of_table (hold _ rfl)
    cases standing with
    | implied => exact Option.some.inj hnew ▸ hinner.table
    | opened | dotted => exact absurd hnew (by simp)
  · exact absurd hnew (by simp)

theorem keeps_addRow (k : Key) : Keeps (Items.addRow k) := by
  refine keeps_within false (fun _ => keeps_alter fun old new hold hnew => ?_) k.parents .opened
  rcases old with _ | v | ⟨standing, inner⟩ | tables
  · refine Option.some.inj hnew ▸ tidy_rows fun items hmem => ?_
    exact List.mem_singleton.mp hmem ▸ tidied_nil
  · exact absurd hnew (by simp)
  · exact absurd hnew (by simp)
  · have hrows := tidied_of_rows (hold _ rfl)
    refine Option.some.inj hnew ▸ tidy_rows fun items hmem => ?_
    rcases List.mem_append.mp hmem with hmem | hmem
    · exact hrows items hmem
    · exact List.mem_singleton.mp hmem ▸ tidied_nil

theorem map_fst_finish (items : Items) :
    (Items.finish items).map Prod.fst = items.map Prod.fst := by
  induction items with
  | nil => rfl
  | cons m items ih => simp [Items.finish, ih]

mutual

theorem keyed_finishItem : ∀ {item : Item}, Tidy item → Keyed (Items.finishItem item)
  | .value v, .value h => h
  | .table _ items, .table hkeys h => .table (by rwa [map_fst_finish]) (keyed_finish items h)
  | .rows tables, .rows hkeys h => .list (keyed_finishRows tables hkeys h)

theorem keyed_finish : ∀ items : Items, (∀ m ∈ items, Tidy m.2) →
    ∀ m ∈ Items.finish items, Keyed m.2
  | [], _, _, hm => absurd hm List.not_mem_nil
  | (key, item) :: items, h, m, hm => by
    rcases List.mem_cons.mp hm with rfl | hm
    · exact keyed_finishItem (h _ List.mem_cons_self)
    · exact keyed_finish items (fun m hm => h m (List.mem_cons_of_mem _ hm)) m hm

theorem keyed_finishRows : ∀ tables : List Items,
    (∀ items ∈ tables, (items.map Prod.fst).Nodup) → (∀ items ∈ tables, ∀ m ∈ items, Tidy m.2) →
    ∀ v ∈ Items.finishRows tables, Keyed v
  | [], _, _, _, hv => absurd hv List.not_mem_nil
  | items :: tables, hkeys, h, v, hv => by
    rcases List.mem_cons.mp hv with rfl | hv
    · have hitems := hkeys items List.mem_cons_self
      rw [← map_fst_finish] at hitems
      exact .table hitems (keyed_finish items (h items List.mem_cons_self))
    · exact keyed_finishRows tables (fun ms hms => hkeys ms (List.mem_cons_of_mem _ hms))
        (fun ms hms => h ms (List.mem_cons_of_mem _ hms)) v hv

end

theorem Tidied.finish {items : Items} (h : Tidied items) : Keyed (.table (Items.finish items)) :=
  have htidy : Tidy (.table .opened items) := h.table
  keyed_finishItem htidy

/-- What every step of a fold keeps, the fold keeps, if all its steps succeed. -/
theorem invariant_foldlM {σ ι : Type} {P : σ → Prop} {step : σ → ι → Option σ} {inputs : List ι}
    (hstep : ∀ s s', ∀ i ∈ inputs, P s → step s i = some s' → P s') (s s' : σ) (hs : P s)
    (h : inputs.foldlM step s = some s') : P s' := by
  induction inputs generalizing s with
  | nil => exact Option.some.inj h ▸ hs
  | cons i inputs ih =>
    rw [List.foldlM_cons] at h
    obtain ⟨t, ht, hrest⟩ := Option.bind_eq_some_iff.mp h
    exact ih (fun s s' j hj => hstep s s' j (List.mem_cons_of_mem i hj)) t
      (hstep s t i List.mem_cons_self hs ht) hrest

theorem keyed_ofPairs {pairs : List (Key × Value)} (hpairs : ∀ p ∈ pairs, Keyed p.2) {v : Value}
    (h : ofPairs? pairs = some v) : Keyed v := by
  obtain ⟨items, hitems, rfl⟩ := Option.map_eq_some_iff.mp h
  have hstep : ∀ s s', ∀ p ∈ pairs, Tidied s → Items.insert p.1 p.2 .opened s = some s' →
      Tidied s' := fun s s' p hp => keeps_insert (hpairs p hp) .opened s s'
  exact (invariant_foldlM hstep [] items tidied_nil hitems).finish

/-- The value that a line gives to a key, if it does. -/
def valueOf? : Line → Option Value
  | .pair _ v => some v
  | _ => none

theorem keyed_ofLines {lines : List Line} (hlines : ∀ l ∈ lines, ∀ v ∈ valueOf? l, Keyed v)
    {members : List (String × Value)} (h : ofLines? lines = some members) :
    Keyed (.table members) := by
  obtain ⟨⟨place, items⟩, hfold, rfl⟩ := Option.map_eq_some_iff.mp h
  refine (invariant_foldlM (P := fun state => Tidied state.2) ?_ ([], []) (place, items) tidied_nil
    hfold).finish
  rintro ⟨place, items⟩ state' l hl hitems hstep
  cases l with
  | header k =>
    obtain ⟨items', hitems', rfl⟩ := Option.map_eq_some_iff.mp hstep
    exact keeps_openTable k items items' hitems hitems'
  | row k =>
    obtain ⟨items', hitems', rfl⟩ := Option.map_eq_some_iff.mp hstep
    exact keeps_addRow k items items' hitems hitems'
  | pair k v =>
    obtain ⟨items', hitems', rfl⟩ := Option.map_eq_some_iff.mp hstep
    have hv : Keyed v := hlines _ hl v rfl
    exact keeps_within false (keeps_insert hv) place .opened items items' hitems hitems'

theorem keyed_inRange {n : Int} {v : Value} (h : Word.inRange? n = some v) : Keyed v := by
  unfold Word.inRange? at h
  split at h
  · exact Option.some.inj h ▸ .integer n
  · exact absurd h (by simp)

theorem keyed_inBase {base : Nat} {cs : List Char} {v : Value} (h : Word.inBase? base cs = some v) :
    Keyed v := by
  obtain ⟨ds, _, hrange⟩ := Option.bind_eq_some_iff.mp h
  exact keyed_inRange hrange

theorem keyed_integer {cs : List Char} {v : Value} (h : Word.integer? cs = some v) : Keyed v := by
  unfold Word.integer? at h
  split at h
  · exact keyed_inBase h
  · exact keyed_inBase h
  · exact keyed_inBase h
  · obtain ⟨ds, _, hrange⟩ := Option.bind_eq_some_iff.mp h
    exact keyed_inRange hrange

theorem keyed_real {cs : List Char} {v : Value} (h : Word.real? cs = some v) : Keyed v := by
  have hparts : ∀ x : Binary64,
      (if x.isFinite = true then some (Value.real x) else none) = some v → Keyed v := by
    intro x hx
    split at hx
    · exact Option.some.inj hx ▸ .real x
    · exact absurd hx (by simp)
  simp only [Word.real?] at h
  split at h
  · exact Option.some.inj h ▸ .real _
  · split at h
    · exact Option.some.inj h ▸ .real _
    · obtain ⟨whole, _, h⟩ := Option.bind_eq_some_iff.mp h
      split at h
      all_goals
        obtain ⟨decimals, _, h⟩ := Option.bind_eq_some_iff.mp h
        obtain ⟨power, _, h⟩ := Option.bind_eq_some_iff.mp h
        exact hparts _ h

theorem keyed_word {cs : List Char} {v : Value} (h : Word.value? cs = some v) : Keyed v := by
  unfold Word.value? at h
  split at h
  · exact Option.some.inj h ▸ .flag true
  · split at h
    · exact Option.some.inj h ▸ .flag false
    · rcases Option.or_eq_some_iff.mp h with hinteger | ⟨_, h⟩
      · exact keyed_integer hinteger
      · rcases Option.or_eq_some_iff.mp h with hreal | ⟨_, h⟩
        · exact keyed_real hreal
        · obtain ⟨m, _, rfl⟩ := Option.map_eq_some_iff.mp h
          exact .text _

theorem keyed_read {cs : List Char} {r : Value × List Char} (h : Word.read cs = some r) :
    Keyed r.1 := by
  have hword : ∀ (word rest : List Char),
      (Word.value? word).bind (fun v => some (v, rest)) = some r → Keyed r.1 := by
    intro word rest hr
    obtain ⟨v, hv, hr⟩ := Option.bind_eq_some_iff.mp hr
    exact Option.some.inj hr ▸ keyed_word hv
  simp only [Word.read] at h
  split at h
  · split at h
    · exact hword _ _ h
    · exact hword _ _ h
  · exact hword _ _ h

/-- What so many steps of the grammar read has distinct keys in all its tables. -/
structure KeyedAt (fuel : Nat) : Prop where
  value : ∀ depth cs r, Grammar.value fuel depth cs = some r → Keyed r.1
  items : ∀ depth cs r, Grammar.items fuel depth cs = some r → ∀ v ∈ r.1, Keyed v
  pairs : ∀ depth cs r, Grammar.pairs fuel depth cs = some r → ∀ p ∈ r.1, Keyed p.2
  pair : ∀ depth pass cs r, Grammar.pair fuel depth pass cs = some r → Keyed r.1.2

section Grammar
variable {fuel : Nat} (h : KeyedAt fuel)
include h

theorem KeyedAt.value_succ (depth : Nat) (cs : List Char) (r : Value × List Char)
    (hread : Grammar.value (fuel + 1) depth cs = some r) : Keyed r.1 := by
  cases cs with
  | nil => exact absurd hread (by simp [Grammar.value])
  | cons c cs =>
    simp only [Grammar.value] at hread
    split at hread
    · obtain ⟨text, _, rfl⟩ := Option.map_eq_some_iff.mp hread
      exact .text _
    · split at hread
      · split at hread
        · exact absurd hread (by simp)
        · obtain ⟨items, hitems, rfl⟩ := Option.map_eq_some_iff.mp hread
          exact .list (h.items _ _ _ hitems)
      · split at hread
        · split at hread
          · exact absurd hread (by simp)
          · obtain ⟨pairs, hpairs, hread⟩ := Option.bind_eq_some_iff.mp hread
            obtain ⟨v, hv, hread⟩ := Option.bind_eq_some_iff.mp hread
            exact Option.some.inj hread ▸ keyed_ofPairs (h.pairs _ _ _ hpairs) hv
        · exact keyed_read hread

theorem KeyedAt.items_succ (depth : Nat) (cs : List Char) (r : List Value × List Char)
    (hread : Grammar.items (fuel + 1) depth cs = some r) : ∀ v ∈ r.1, Keyed v := by
  unfold Grammar.items at hread
  split at hread
  · exact Option.some.inj hread ▸ by simp
  · obtain ⟨⟨v, rest⟩, hvalue, hread⟩ := Option.bind_eq_some_iff.mp hread
    have hv : Keyed v := h.value _ _ _ hvalue
    simp only at hread
    split at hread
    · exact Option.some.inj hread ▸ by simpa using hv
    · obtain ⟨⟨vs, rest'⟩, hitems, hread⟩ := Option.bind_eq_some_iff.mp hread
      have hvs : ∀ v ∈ vs, Keyed v := h.items _ _ _ hitems
      exact Option.some.inj hread ▸ List.forall_mem_cons.mpr ⟨hv, hvs⟩
    · exact absurd hread (by simp)

theorem KeyedAt.pairs_succ (depth : Nat) (cs : List Char) (r : List (Key × Value) × List Char)
    (hread : Grammar.pairs (fuel + 1) depth cs = some r) : ∀ p ∈ r.1, Keyed p.2 := by
  unfold Grammar.pairs at hread
  split at hread
  · exact Option.some.inj hread ▸ by simp
  · obtain ⟨⟨p, rest⟩, hpair, hread⟩ := Option.bind_eq_some_iff.mp hread
    have hp : Keyed p.2 := h.pair _ _ _ _ hpair
    simp only at hread
    split at hread
    · exact Option.some.inj hread ▸ by simpa using hp
    · obtain ⟨⟨ps, rest'⟩, hpairs, hread⟩ := Option.bind_eq_some_iff.mp hread
      have hps : ∀ p ∈ ps, Keyed p.2 := h.pairs _ _ _ hpairs
      exact Option.some.inj hread ▸ List.forall_mem_cons.mpr ⟨hp, hps⟩
    · exact absurd hread (by simp)

theorem KeyedAt.pair_succ (depth : Nat) (pass : List Char → List Char) (cs : List Char)
    (r : (Key × Value) × List Char) (hread : Grammar.pair (fuel + 1) depth pass cs = some r) :
    Keyed r.1.2 := by
  simp only [Grammar.pair] at hread
  obtain ⟨⟨k, rest⟩, _, hread⟩ := Option.bind_eq_some_iff.mp hread
  simp only at hread
  split at hread
  · obtain ⟨⟨v, rest'⟩, hvalue, hread⟩ := Option.bind_eq_some_iff.mp hread
    exact Option.some.inj hread ▸ h.value _ _ _ hvalue
  · exact absurd hread (by simp)

end Grammar

theorem keyedAt (fuel : Nat) : KeyedAt fuel := by
  induction fuel with
  | zero =>
    exact ⟨fun _ _ _ h => by simp [Grammar.value] at h, fun _ _ _ h => by simp [Grammar.items] at h,
      fun _ _ _ h => by simp [Grammar.pairs] at h, fun _ _ _ _ h => by simp [Grammar.pair] at h⟩
  | succ fuel ih => exact ⟨ih.value_succ, ih.items_succ, ih.pairs_succ, ih.pair_succ⟩

theorem keyed_line {fuel : Nat} {cs : List Char} {r : Line × List Char}
    (h : Grammar.line fuel cs = some r) : ∀ v ∈ valueOf? r.1, Keyed v := by
  unfold Grammar.line at h
  split at h
  · obtain ⟨k, _, rfl⟩ := Option.map_eq_some_iff.mp h
    simp [valueOf?]
  · obtain ⟨k, _, rfl⟩ := Option.map_eq_some_iff.mp h
    simp [valueOf?]
  · obtain ⟨p, hpair, rfl⟩ := Option.map_eq_some_iff.mp h
    simpa [valueOf?] using (keyedAt fuel).pair _ _ _ _ hpair

theorem keyed_lines {fuel : Nat} {cs : List Char} {ls : List Line}
    (h : Grammar.lines fuel cs = some ls) : ∀ l ∈ ls, ∀ v ∈ valueOf? l, Keyed v := by
  induction fuel generalizing cs ls with
  | zero => exact absurd h (by simp [Grammar.lines])
  | succ fuel ih =>
    unfold Grammar.lines at h
    split at h
    · exact Option.some.inj h ▸ by simp
    · obtain ⟨⟨l, rest⟩, hline, h⟩ := Option.bind_eq_some_iff.mp h
      obtain ⟨rest', _, h⟩ := Option.bind_eq_some_iff.mp h
      obtain ⟨ls', hlines, h⟩ := Option.bind_eq_some_iff.mp h
      exact Option.some.inj h ▸ List.forall_mem_cons.mpr ⟨keyed_line hline, ih hlines⟩

/-- All tables of a document have distinct keys. -/
theorem keyed_document {text : String} {members : List (String × Value)}
    (h : Toml.read? text = some members) : Keyed (.table members) := by
  obtain ⟨ls, hlines, hmembers⟩ := Option.bind_eq_some_iff.mp h
  exact keyed_ofLines (keyed_lines hlines) hmembers

end PatternHooks.TomlKeys
