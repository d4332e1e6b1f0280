import PatternHooks.Proofs.Visits

/-!
The calls of a dispatch: what the notes of its hooks hold in the end. A round is a dispatch with its
calls beside it, whether failures are fatal or not. The calls of a round are linked: each finds the
registry and the hooks' own state as the one before has left them.
-/

namespace PatternHooks.CallLog

open Dispatch Visits

variable {η ρ σ μ : Type}

/-- The calls of a dispatch, in order. -/
def fireCalls (fatal : Bool) (phase : Phase) (p : Pattern) (supports : η → Phase → Bool)
    (call : η → Effect η ρ) (w : World η ρ) : List (Call η ρ) :=
  (fire fatal phase p supports (noting id call) (withNotes w [])).2.own.2

/-- Worlds that differ in their journal at most. -/
structure Alike (w w' : World η ρ) : Prop where
  registry : w'.registry = w.registry
  own : w'.own = w.own

theorem alike_chronicle (phase : Phase) (p : Pattern) (key : String) (w : World η ρ) (v : Verdict) :
    Alike w (chronicle phase p key w v) := by
  cases v <;> exact ⟨rfl, rfl⟩

/-- Calls each of which finds what the one before has left, but for the journal. -/
inductive Linked : World η ρ → List (Call η ρ) → World η ρ → Prop
  | nil {w w' : World η ρ} (hw : Alike w w') : Linked w [] w'
  | cons {w w' : World η ρ} {c : Call η ρ} {calls : List (Call η ρ)} (hw : Alike w c.before)
      (hrest : Linked c.after calls w') : Linked w (c :: calls) w'

theorem Alike.trans {w₁ w₂ w₃ : World η ρ} (h : Alike w₁ w₂) (h' : Alike w₂ w₃) : Alike w₁ w₃ :=
  ⟨h'.registry.trans h.registry, h'.own.trans h.own⟩

theorem Alike.linked {w₁ w₂ w₃ : World η ρ} {calls : List (Call η ρ)} (hw : Alike w₁ w₂)
    (h : Linked w₂ calls w₃) : Linked w₁ calls w₃ := by
  cases h with
  | nil hw' => exact .nil (hw.trans hw')
  | cons hw' hrest => exact .cons (hw.trans hw') hrest

theorem Linked.append {w₁ w₂ w₃ : World η ρ} {calls₁ calls₂ : List (Call η ρ)}
    (h₁ : Linked w₁ calls₁ w₂) (h₂ : Linked w₂ calls₂ w₃) : Linked w₁ (calls₁ ++ calls₂) w₃ := by
  induction h₁ with
  | nil hw => exact hw.linked h₂
  | cons hw hrest ih => exact .cons hw (ih h₂)

/-- What every call keeps, and the journal does not tell, is kept by all of them. -/
theorem Linked.keeps {P : World η ρ → Prop} {w w' : World η ρ} {calls : List (Call η ρ)}
    (h : Linked w calls w') (halike : ∀ {u u'}, Alike u u' → P u → P u')
    (hcalls : ∀ c ∈ calls, P c.before → P c.after) (hw : P w) : P w' := by
  induction h with
  | nil hw' => exact halike hw' hw
  | @cons w w' c calls hw' hrest ih =>
    have hafter : P c.after := hcalls c List.mem_cons_self (halike hw' hw)
    exact ih (fun c' hc' => hcalls c' (List.mem_cons_of_mem c hc')) hafter

/-- What each call adds to some part of the hooks' own state, all of them add in turn. -/
theorem Linked.grows {β : Type} {f : ρ → List β} {g : Call η ρ → List β} {w w' : World η ρ}
    {calls : List (Call η ρ)} (h : Linked w calls w')
    (hcalls : ∀ c ∈ calls, f c.after.own = f c.before.own ++ g c) :
    f w'.own = f w.own ++ calls.flatMap g := by
  induction h with
  | nil hw => rw [hw.own, List.flatMap_nil, List.append_nil]
  | @cons w w' c calls hw hrest ih =>
    have hc : f c.after.own = f c.before.own ++ g c := hcalls c List.mem_cons_self
    rw [ih fun c' hc' => hcalls c' (List.mem_cons_of_mem c hc'), hc, hw.own, List.flatMap_cons,
      List.append_assoc]

theorem linked_turn {supports : η → Bool} {call : η → Effect η ρ} {key : String}
    {w w' : World η ρ} {v : Verdict} {called : List η}
    (h : Decided supports call key w v called w') : Linked w (turnCalls w v called w') w' := by
  cases h with
  | missing hentry => exact .nil ⟨rfl, rfl⟩
  | unsupported hentry hs => exact .nil ⟨rfl, rfl⟩
  | fired hentry hs hcall => exact .cons ⟨rfl, rfl⟩ (.nil ⟨rfl, rfl⟩)
  | failed hentry hs hcall => exact .cons ⟨rfl, rfl⟩ (.nil ⟨rfl, rfl⟩)

theorem made_turn {supports : η → Bool} {call : η → Effect η ρ} {key : String}
    {w w' : World η ρ} {v : Verdict} {called : List η}
    (h : Decided supports call key w v called w') :
    ∀ c ∈ turnCalls w v called w', call c.hooks c.before = (c.result, c.after) := by
  cases h with
  | fired hentry hs hcall => exact List.forall_mem_singleton.mpr hcall
  | failed hentry hs hcall => exact List.forall_mem_singleton.mpr hcall
  | _ => exact fun c hc => absurd hc List.not_mem_nil

/-- A dispatch from a world on, with the calls that it makes: it goes on after any turn, unless the
hooks have failed and failures are fatal. -/
inductive Round (fatal : Bool) (phase : Phase) (p : Pattern) (supports : η → Bool)
    (call : η → Effect η ρ) : List String → Report → World η ρ → List (Call η ρ) →
    Except Fault Report → World η ρ → Prop
  | done (report : Report) (w : World η ρ) :
      Round fatal phase p supports call [] report w [] (.ok report) w
  | goes {key : String} {keys : List String} {report : Report} {w w₁ w₂ : World η ρ} {v : Verdict}
      {called : List η} {calls : List (Call η ρ)} {outcome : Except Fault Report}
      (hturn : Decided supports call key w v called w₁)
      (hgoes : fatal = false ∨ ∀ t, v ≠ .failed t)
      (hrest : Round fatal phase p supports call keys (note report key v)
        (chronicle phase p key w₁ v) calls outcome w₂) :
      Round fatal phase p supports call (key :: keys) report w (turnCalls w v called w₁ ++ calls)
        outcome w₂
  | stops {key : String} {keys : List String} {report : Report} {w w₁ : World η ρ} {t : Trouble}
      {called : List η} (hfatal : fatal = true)
      (hturn : Decided supports call key w (.failed t) called w₁) :
      Round fatal phase p supports call (key :: keys) report w
        (turnCalls w (.failed t) called w₁) (.error (fatalFault key phase t)) w₁

theorem exists_round (fatal : Bool) (phase : Phase) (p : Pattern) (supports : η → Bool)
    (call : η → Effect η ρ) (keys : List String) (report : Report) (w : World η ρ) :
    ∃ calls outcome w', Round fatal phase p supports call keys report w calls outcome w' := by
  induction keys generalizing report w with
  | nil => exact ⟨[], _, w, .done report w⟩
  | cons key keys ih =>
    obtain ⟨v, called, w₁, hturn⟩ := exists_decided supports call key w
    obtain ⟨calls, outcome, w₂, hrest⟩ := ih (note report key v) (chronicle phase p key w₁ v)
    by_cases hgoes : fatal = false ∨ ∀ t, v ≠ .failed t
    · exact ⟨_, outcome, w₂, .goes hturn hgoes hrest⟩
    · obtain ⟨hfatal, hfailed⟩ := not_or.mp hgoes
      obtain ⟨t, ht⟩ := not_forall.mp hfailed
      obtain rfl := not_not.mp ht
      exact ⟨_, _, w₁, .stops ((Bool.not_eq_false fatal).mp hfatal) hturn⟩

section Round
variable {fatal : Bool} {phase : Phase} {p : Pattern} {supports : η → Bool}
  {call : η → Effect η ρ} {keys : List String} {report : Report} {w w' : World η ρ}
  {calls : List (Call η ρ)} {outcome : Except Fault Report}

/-- A dispatch to hooks that keep notes is the same, and puts down the calls of the round. -/
theorem Round.fireFrom_keeping {ρ' : Type} {put : World η ρ → List μ → World η ρ'}
    {entry : Call η ρ → μ} {call' : η → Effect η ρ'} (k : KeepsNotes put entry call call')
    (h : Round fatal phase p supports call keys report w calls outcome w') (notes : List μ) :
    fireFrom fatal phase p (keys.map fun key => (key, consult supports call' key)) report
      (put w notes) = (outcome, put w' (notes ++ calls.map entry)) := by
  induction h generalizing notes with
  | done report w =>
    rw [List.map_nil, List.map_nil, List.append_nil]
    rfl
  | @goes key keys report w w₁ w₂ v called calls outcome hturn hgoes hrest ih =>
    have hvisit := (k.decided hturn notes).consult_eq
    rw [List.map_cons, fireFrom_cons phase p key _ report hvisit hgoes, k.chronicle_put, ih,
      List.map_append, List.append_assoc]
  | @stops key keys report w w₁ t called hfatal hturn =>
    have hvisit := (k.decided hturn notes).consult_eq
    simp only [List.map_cons, fireFrom, hvisit, hfatal, if_true]

theorem Round.linked (h : Round fatal phase p supports call keys report w calls outcome w') :
    Linked w calls w' := by
  induction h with
  | done report w => exact .nil ⟨rfl, rfl⟩
  | goes hturn hgoes hrest ih =>
    exact (linked_turn hturn).append ((alike_chronicle phase p _ _ _).linked ih)
  | stops hfatal hturn => exact linked_turn hturn

/-- The calls of a round are made: each leaves what its hooks make of the world they find. -/
theorem Round.made (h : Round fatal phase p supports call keys report w calls outcome w') :
    ∀ c ∈ calls, call c.hooks c.before = (c.result, c.after) := by
  induction h with
  | done report w => exact fun c hc => absurd hc List.not_mem_nil
  | goes hturn hgoes hrest ih =>
    intro c hc
    rcases List.mem_append.mp hc with hc | hc
    · exact made_turn hturn c hc
    · exact ih c hc
  | stops hfatal hturn => exact made_turn hturn

theorem Round.fire_eq {supports : η → Phase → Bool}
    (h : Round fatal phase p (supports · phase) call p.hookKeys { phase } w calls outcome w') :
    fire fatal phase p supports call w = (outcome, w') :=
  h.fireFrom_keeping (keepsNotes_self id call) []

theorem Round.fire_keeping {ρ' : Type} {put : World η ρ → List μ → World η ρ'}
    {entry : Call η ρ → μ} {call' : η → Effect η ρ'} (k : KeepsNotes put entry call call')
    {supports : η → Phase → Bool}
    (h : Round fatal phase p (supports · phase) call p.hookKeys { phase } w calls outcome w')
    (notes : List μ) :
    fire fatal phase p supports call' (put w notes) =
      (outcome, put w' (notes ++ calls.map entry)) :=
  h.fireFrom_keeping k notes

theorem Round.fireCalls_eq {supports : η → Phase → Bool}
    (h : Round fatal phase p (supports · phase) call p.hookKeys { phase } w calls outcome w') :
    fireCalls fatal phase p supports call w = calls := by
  have hfire := h.fire_keeping (keepsNotes_noting id call) []
  rw [List.map_id, List.nil_append] at hfire
  rw [fireCalls, hfire]
  rfl

end Round

/-- A dispatch is the same when its calls are put down. -/
theorem fire_noting (fatal : Bool) (phase : Phase) (p : Pattern) (supports : η → Phase → Bool)
    (call : η → Effect η ρ) (w : World η ρ) :
    fire fatal phase p supports (noting id call) (withNotes w []) =
      ((fire fatal phase p supports call w).1, withNotes (fire fatal phase p supports call w).2
        (fireCalls fatal phase p supports call w)) := by
  obtain ⟨calls, outcome, w', h⟩ :=
    exists_round fatal phase p (supports · phase) call p.hookKeys { phase } w
  rw [h.fire_keeping (keepsNotes_noting id call) [], h.fire_eq, h.fireCalls_eq, List.map_id,
    List.nil_append]

/-- The calls of a dispatch are made. -/
theorem made_fireCalls (fatal : Bool) (phase : Phase) (p : Pattern) (supports : η → Phase → Bool)
    (call : η → Effect η ρ) (w : World η ρ) : ∀ c ∈ fireCalls fatal phase p supports call w,
      call c.hooks c.before = (c.result, c.after) := by
  obtain ⟨calls, outcome, w', h⟩ :=
    exists_round fatal phase p (supports · phase) call p.hookKeys { phase } w
  rw [h.fireCalls_eq]
  exact h.made

/-- The first that fails among some calls, with those before it. -/
structure Breaks {α : Type} (result : α → Except Trouble Unit) (calls earlier : List α) (last : α)
    (t : Trouble) : Prop where
  begins : earlier ++ [last] <+: calls
  well : ∀ c ∈ earlier, result c = .ok ()
  failed : result last = .error t

section Breaks
variable {α β : Type} {result : α → Except Trouble Unit} {calls earlier : List α} {last : α}
  {t : Trouble}

theorem Breaks.after_well {before : List α} (h : Breaks result calls earlier last t)
    (hbefore : ∀ c ∈ before, result c = .ok ()) :
    Breaks result (before ++ calls) (before ++ earlier) last t where
  begins := by
    rw [List.append_assoc]
    exact (List.prefix_append_right_inj before).mpr h.begins
  well c hc := by
    rcases List.mem_append.mp hc with hc | hc
    · exact hbefore c hc
    · exact h.well c hc
  failed := h.failed

theorem Breaks.append (h : Breaks result calls earlier last t) (later : List α) :
    Breaks result (calls ++ later) earlier last t where
  begins := h.begins.trans (calls.prefix_append later)
  well := h.well
  failed := h.failed

theorem Breaks.map {result' : β → Except Trouble Unit} {f : α → β}
    (h : Breaks result calls earlier last t) (hf : ∀ c, result' (f c) = result c) :
    Breaks result' (calls.map f) (earlier.map f) (f last) t where
  begins := by
    rw [← List.map_singleton, ← List.map_append]
    exact h.begins.map f
  well c hc := by
    obtain ⟨c', hc', rfl⟩ := List.mem_map.mp hc
    rw [hf, h.well c' hc']
  failed := by rw [hf, h.failed]

end Breaks

section Round
variable {fatal : Bool} {phase : Phase} {p : Pattern} {supports : η → Bool}
  {call : η → Effect η ρ} {key : String} {keys : List String} {report : Report} {w w' : World η ρ}
  {v : Verdict} {called : List η} {calls : List (Call η ρ)} {outcome : Except Fault Report}

theorem turnCalls_well (hv : ∀ t, v ≠ .failed t) (c : Call η ρ) (hc : c ∈ turnCalls w v called w') :
    c.result = .ok () := by
  obtain ⟨h, _, rfl⟩ := List.mem_map.mp hc
  cases v with
  | failed t => exact absurd rfl (hv t)
  | _ => rfl

/-- A turn that fails is one call of the hooks found under the key. -/
theorem turnCalls_failed {t : Trouble} (h : Decided supports call key w (.failed t) called w') :
    ∃ e, w.registry.lookup key = some e ∧
      turnCalls w (.failed t) called w' = [⟨e.hooks, w, .error t, w'⟩] := by
  cases h with
  | failed hentry hs hcall => exact ⟨_, hentry, rfl⟩

/-- A dispatch that goes on although failures are fatal has met none. -/
theorem well_of_goes (hgoes : fatal = false ∨ ∀ t, v ≠ .failed t) (hfatal : fatal = true) :
    ∀ t, v ≠ .failed t :=
  hgoes.resolve_left fun hreports => Bool.noConfusion (hreports.symm.trans hfatal)

/-- A dispatch ends with a report, and after fatal failures only if there were none; or it ends with
the failure of its last call, which is the first to fail. -/
theorem Round.ends (h : Round fatal phase p supports call keys report w calls outcome w') :
    (∃ report', outcome = .ok report' ∧ (fatal = true → ∀ c ∈ calls, c.result = .ok ())) ∨
    (fatal = true ∧ ∃ key earlier last t e, outcome = .error (fatalFault key phase t) ∧
      key ∈ keys ∧ calls = earlier ++ [last] ∧ Breaks Call.result calls earlier last t ∧
      last.before.registry.lookup key = some e ∧ e.hooks = last.hooks) := by
  induction h with
  | done report w => exact .inl ⟨report, rfl, fun _ c hc => absurd hc List.not_mem_nil⟩
  | @goes key keys report w w₁ w₂ v called calls outcome hturn hgoes hrest ih =>
    have hwell : fatal = true → ∀ c ∈ turnCalls w v called w₁, c.result = .ok () :=
      fun hfatal c hc => turnCalls_well (well_of_goes hgoes hfatal) c hc
    rcases ih with ⟨report', houtcome, hcalls⟩ |
      ⟨hfatal, key', earlier, last, t, e, houtcome, hkey, hcalls, hbreaks, hentry, hhooks⟩
    · refine .inl ⟨report', houtcome, fun hfatal c hc => ?_⟩
      rcases List.mem_append.mp hc with hc | hc
      · exact hwell hfatal c hc
      · exact hcalls hfatal c hc
    · refine .inr ⟨hfatal, key', turnCalls w v called w₁ ++ earlier, last, t, e, houtcome,
        List.mem_cons_of_mem key hkey, ?_, hbreaks.after_well (hwell hfatal), hentry, hhooks⟩
      rw [hcalls, List.append_assoc]
  | @stops key keys report w w₁ t called hfatal hturn =>
    obtain ⟨e, hentry, hcalls⟩ := turnCalls_failed hturn
    rw [hcalls]
    exact .inr ⟨hfatal, key, [], _, t, e, rfl, List.mem_cons_self, rfl,
      ⟨List.prefix_rfl, fun c hc => absurd hc List.not_mem_nil, rfl⟩, hentry, rfl⟩

end Round

end PatternHooks.CallLog
