import PatternHooks.Proofs.FirstFailure
import PatternHooks.Proofs.VisitOrder

/-!
What compilation comes to. The nodes are laid out along the characters of the source, each at the
byte where its character begins, and the source can be read off them. Whatever strategy is told of
a compilation, it is told of its beginning and of these nodes in order, and can do no more than end
it; a dispatcher that tolerates failures cannot do that either.
-/

namespace PatternHooks.Compilation

open Engine Dispatch CallLog EngineCourse Attendance Visits

variable {η σ ω : Type}

/-- The text of the source that a node comes from. -/
def spelled : NodeKind → String
  | .exact text => text
  | .anyChar => "."
  | _ => ""

/-- A program of a pattern: a node for each character of the source and one for its end, each with
its index, the byte where it begins and the index of the next. -/
structure Faithful (p : Pattern) (prog : Program) : Prop where
  pattern : prog.pattern = p
  length : prog.nodes.length = p.source.toList.length + 1
  node : ∀ before c after, p.source.toList = before ++ c :: after →
    prog.nodes[before.length]? =
      some ⟨before.length, if c = '.' then .anyChar else .exact (String.singleton c),
        (String.ofList before).utf8ByteSize, some (before.length + 1)⟩
  finish : prog.nodes[p.source.toList.length]? =
    some ⟨p.source.toList.length, .finish, p.source.utf8ByteSize, none⟩
  source : String.join (prog.nodes.map fun n => spelled n.kind) = p.source

section Layout

theorem length_nodesFrom (index offset : ℕ) (cs : List Char) :
    (nodesFrom index offset cs).length = cs.length + 1 := by
  induction cs generalizing index offset with
  | nil => rfl
  | cons c cs ih => rw [nodesFrom, List.length_cons, ih, List.length_cons]

theorem nodesFrom_append (index offset : ℕ) (before : List Char) (c : Char) (after : List Char) :
    (nodesFrom index offset (before ++ c :: after))[before.length]? =
      some ⟨index + before.length, kindOf c, offset + Text.size before,
        some (index + before.length + 1)⟩ := by
  induction before generalizing index offset with
  | nil => rfl
  | cons d before ih =>
    rw [List.cons_append, nodesFrom, List.length_cons, List.getElem?_cons_succ, ih, Text.size,
      Nat.add_assoc offset, Nat.add_assoc index, Nat.add_comm 1]

theorem nodesFrom_finish (index offset : ℕ) (cs : List Char) :
    (nodesFrom index offset cs)[cs.length]? =
      some ⟨index + cs.length, .finish, offset + Text.size cs, none⟩ := by
  induction cs generalizing index offset with
  | nil => rfl
  | cons c cs ih =>
    rw [nodesFrom, List.length_cons, List.getElem?_cons_succ, ih, Text.size, Nat.add_assoc offset,
      Nat.add_assoc index, Nat.add_comm 1]

theorem spelled_kindOf (c : Char) : spelled (kindOf c) = String.singleton c := by
  unfold kindOf
  split
  · rename_i hpoint
    subst hpoint
    rfl
  · rfl

theorem join_spelled_nodesFrom (index offset : ℕ) (cs : List Char) :
    String.join ((nodesFrom index offset cs).map fun n => spelled n.kind) = String.ofList cs := by
  induction cs generalizing index offset with
  | nil => rfl
  | cons c cs ih =>
    rw [nodesFrom, List.map_cons, String.join_cons, ih, spelled_kindOf, String.ofList_cons]

theorem faithful_nodesOf (p : Pattern) : Faithful p ⟨p, nodesOf p.source⟩ where
  pattern := rfl
  length := length_nodesFrom 0 0 p.source.toList
  node before c after hsplit := by
    rw [nodesOf, hsplit, nodesFrom_append, Text.size_ofList, Nat.zero_add, Nat.zero_add]
    rfl
  finish := by rw [nodesOf, nodesFrom_finish, Text.size_toList, Nat.zero_add, Nat.zero_add]
  source := by rw [nodesOf, join_spelled_nodesFrom, String.ofList_toList]

example : nodesOf "é." =
    [⟨0, .exact "é", 0, some 1⟩, ⟨1, .anyChar, 2, some 2⟩, ⟨2, .finish, 3, none⟩] := by
  decide +kernel

end Layout

/-- What is told of the compilation of a program. -/
def tale (prog : Program) : List Occasion := .begin :: prog.nodes.map .node

/-- The same strategy, with a list beside its world in which it puts down what it is told, and of
which pattern. -/
def listening (h : Strategy ω) : Strategy (ω × List (Pattern × Occasion)) where
  compileBegin p w := match h.compileBegin p w.1 with
    | (outcome, w') => (outcome, w', w.2 ++ [(p, .begin)])
  compileNode p n w := match h.compileNode p n w.1 with
    | (outcome, w') => (outcome, w', w.2 ++ [(p, .node n)])
  execNode p n a s w := match h.execNode p n a s w.1 with
    | (outcome, t, w') => (outcome, t, w', w.2 ++ [(p, .visit n a)])

/-- A run that has told a beginning of what there is to tell, and all of it unless it failed, and
would have been the same had nobody listened. -/
def Heard {α : Type} (p : Pattern) (os : List Occasion) (earlier : List (Pattern × Occasion))
    (run : Run ω α) (run' : Run (ω × List (Pattern × Occasion)) α) : Prop :=
  ∃ told, run' = ⟨run.result, run.noted, run.world, earlier ++ told⟩ ∧
    told <+: os.map (Prod.mk p) ∧ ∀ a, run.result = .ok a → told = os.map (Prod.mk p)

theorem listening_begin (h : Strategy ω) (p : Pattern) (w : ω)
    (earlier : List (Pattern × Occasion)) :
    (listening h).compileBegin p (w, earlier) =
      ((h.compileBegin p w).1, (h.compileBegin p w).2, earlier ++ [(p, .begin)]) := rfl

theorem listening_node (h : Strategy ω) (p : Pattern) (n : Node) (w : ω)
    (earlier : List (Pattern × Occasion)) :
    (listening h).compileNode p n (w, earlier) =
      ((h.compileNode p n w).1, (h.compileNode p n w).2, earlier ++ [(p, .node n)]) := rfl

theorem heard_announce (h : Strategy ω) (p : Pattern) (ns : List Node) (noted : List HookFailure)
    (w : ω) (earlier : List (Pattern × Occasion)) :
    Heard p (ns.map .node) earlier (announce h p ns noted w)
      (announce (listening h) p ns noted (w, earlier)) := by
  induction ns generalizing noted w earlier with
  | nil => exact ⟨[], by rw [List.append_nil]; rfl, List.prefix_rfl, fun _ _ => rfl⟩
  | cons n ns ih =>
    rw [announce, announce, listening_node]
    rcases h.compileNode p n w with ⟨e | report, w'⟩
    · exact ⟨[(p, .node n)], rfl, List.prefix_append _ _, fun _ hok => by cases hok⟩
    · obtain ⟨told, hrun, hbegins, hall⟩ := ih (noted ++ report.failures) w'
        (earlier ++ [(p, .node n)])
      rw [← List.append_cons] at hrun
      refine ⟨(p, .node n) :: told, hrun, List.cons_prefix_cons.mpr ⟨rfl, hbegins⟩, ?_⟩
      intro a ha
      rw [hall a ha]
      rfl

theorem map_tale (p : Pattern) (nodes : List Node) : (tale ⟨p, nodes⟩).map (Prod.mk p) =
    (p, .begin) :: (nodes.map .node).map (Prod.mk p) := rfl

theorem heard_compile (h : Strategy ω) (p : Pattern) (noted : List HookFailure) (w : ω) :
    Heard p (tale ⟨p, nodesOf p.source⟩) [] (compile h p noted w)
      (compile (listening h) p noted (w, [])) := by
  rw [compile, compile, listening_begin]
  rcases h.compileBegin p w with ⟨e | report, w'⟩
  · exact ⟨[(p, .begin)], rfl, List.prefix_append _ _, fun _ hok => by cases hok⟩
  · obtain ⟨told, hrun, hbegins, hall⟩ :=
      heard_announce h p (nodesOf p.source) (noted ++ report.failures) w' [(p, .begin)]
    rw [Heard, map_tale]
    have hprefix : (p, .begin) :: told <+:
        (p, .begin) :: ((nodesOf p.source).map .node).map (Prod.mk p) :=
      List.cons_prefix_cons.mpr ⟨rfl, hbegins⟩
    simp only [List.nil_append, hrun]
    generalize announce h p (nodesOf p.source) (noted ++ report.failures) w' = run at hall
    rcases run with ⟨e | ⟨⟩, noted', w''⟩
    · exact ⟨_, rfl, hprefix, fun _ hok => by cases hok⟩
    · exact ⟨_, rfl, hprefix, fun _ _ => congrArg _ (hall () rfl)⟩

/-- The calls of the one dispatch that tells of an occasion of compilation. -/
def callsFor (b : Behaviour η σ) (fatal : Bool) (p : Pattern) :
    Occasion → World η σ → List (Invocation η σ)
  | .begin, w => (fireCalls fatal .compileBegin p b.supports (b.onCompileBegin · p) w).map
      (.plain .begin)
  | .node n, w => (fireCalls fatal .compileNode p b.supports (b.onCompileNode · p n) w).map
      (.plain (.node n))
  | .visit .., _ => []

/-- It has ended well, with no failed call; or with the failure of its last call, the only one that
has failed, of hooks found under a key of the pattern. -/
def EndsAtFailure {α : Type} (p : Pattern) (calls : List (Invocation η σ))
    (r : Except Fault α) : Prop :=
  ((∃ a, r = .ok a) ∧ ∀ c ∈ calls, c.result = .ok ()) ∨
  ∃ key earlier last t e, r = .error (fatalFault key last.occasion.phase t) ∧ key ∈ p.hookKeys ∧
    calls = earlier ++ [last] ∧ (∀ c ∈ earlier, c.result = .ok ()) ∧ last.result = .error t ∧
    last.before.registry.lookup key = some e ∧ e.hooks = last.hooks

section EndsAtFailure
variable {α β : Type} {p : Pattern} {calls : List (Invocation η σ)} {r : Except Fault α}

theorem EndsAtFailure.map (h : EndsAtFailure p calls r) (f : α → β) :
    EndsAtFailure p calls (r.map f) := by
  rcases h with ⟨⟨a, rfl⟩, hwell⟩ | ⟨key, earlier, last, t, e, rfl, hfails⟩
  · exact .inl ⟨⟨f a, rfl⟩, hwell⟩
  · exact .inr ⟨key, earlier, last, t, e, rfl, hfails⟩

theorem EndsAtFailure.after_well {before : List (Invocation η σ)} (h : EndsAtFailure p calls r)
    (hbefore : ∀ c ∈ before, c.result = .ok ()) : EndsAtFailure p (before ++ calls) r := by
  rcases h with ⟨hok, hwell⟩ | ⟨key, earlier, last, t, e, hr, hkey, hcalls, hearlier, hfails⟩
  · exact .inl ⟨hok, List.forall_mem_append.mpr ⟨hbefore, hwell⟩⟩
  · refine .inr ⟨key, before ++ earlier, last, t, e, hr, hkey, ?_,
      List.forall_mem_append.mpr ⟨hbefore, hearlier⟩, hfails⟩
    rw [hcalls, List.append_assoc]

theorem EndsAtFailure.well {a : α} (h : EndsAtFailure p calls (.ok a)) :
    ∀ c ∈ calls, c.result = .ok () := by
  rcases h with ⟨_, hwell⟩ | ⟨_, _, _, _, _, hr, _⟩
  · exact hwell
  · cases hr

theorem round_endsAtFailure (o : Occasion) {supports : η → Bool} {call : η → Effect η σ}
    {report : Report} {w w' : World η σ} {calls : List (Call η σ)} {outcome : Except Fault Report}
    (h : Round true o.phase p supports call p.hookKeys report w calls outcome w') :
    EndsAtFailure p (calls.map (.plain o)) outcome := by
  rcases h.ends with ⟨report', rfl, hwell⟩ |
    ⟨_, key, earlier, last, t, e, rfl, hkey, rfl, hbreaks, hentry, hhooks⟩
  · exact .inl ⟨⟨report', rfl⟩, List.forall_mem_map.mpr (hwell rfl)⟩
  · exact .inr ⟨key, earlier.map (.plain o), .plain o last, t, e, rfl, hkey,
      by rw [List.map_append, List.map_singleton], List.forall_mem_map.mpr hbreaks.well,
      hbreaks.failed, hentry, hhooks⟩

end EndsAtFailure

section Told
variable {b : Behaviour η σ} {fatal : Bool} {p : Pattern} {o : Occasion} {os : List Occasion}
  {w w' : World η σ} {fs : List HookFailure} {is : List (Invocation η σ)}
  {outcome : Except Fault Report} {r : Except Fault Unit}

theorem told_callsFor (h : Told b fatal p o w is outcome w') :
    ∃ u, is = callsFor b fatal p o u := by
  cases h with
  | begin hround => exact ⟨_, congrArg (List.map _) hround.fireCalls_eq.symm⟩
  | node hround => exact ⟨_, congrArg (List.map _) hround.fireCalls_eq.symm⟩

theorem told_endsAtFailure (h : Told b true p o w is outcome w') : EndsAtFailure p is outcome := by
  cases h with
  | begin hround => exact round_endsAtFailure .begin hround
  | node hround => exact round_endsAtFailure (.node _) hround

/-- A dispatch that leaves the registry tells each of the hooks that attend. -/
theorem told_attended (h : Told b fatal p o w is outcome w')
    (hregistry : ∀ c ∈ is, c.after.registry = c.before.registry)
    (hwell : fatal = true → ∀ c ∈ is, c.result = .ok ()) :
    w'.registry = w.registry ∧ is.map (fun c => (c.occasion, c.hooks)) =
      (attendants (b.supports · o.phase) w.registry p.hookKeys).map fun x => (o, x.2) := by
  have hround : ∀ {call : η → Effect η σ} {report : Report} {u : World η σ}
      {calls : List (Call η σ)}, Round fatal o.phase p (b.supports · o.phase) call p.hookKeys report
        u calls outcome w' → u.registry = w.registry → is = calls.map (.plain o) →
      w'.registry = w.registry ∧ is.map (fun c => (c.occasion, c.hooks)) =
        (attendants (b.supports · o.phase) w.registry p.hookKeys).map fun x => (o, x.2) := by
    rintro call report u calls hround hu rfl
    have hkept := List.forall_mem_map.mp hregistry
    obtain ⟨hhooks, _⟩ := round_attended hround hkept
      fun hfatal => List.forall_mem_map.mp (hwell hfatal)
    rw [hu] at hhooks
    refine ⟨(registry_of_linked hround.linked hkept).trans hu, ?_⟩
    calc (calls.map (Invocation.plain o)).map (fun c => (c.occasion, c.hooks))
        = (calls.map Call.hooks).map (Prod.mk o) := by
          rw [List.map_map, List.map_map]
          rfl
      _ = _ := by
          rw [hhooks, List.map_map]
          rfl
  cases h with
  | begin h => exact hround h rfl rfl
  | node h => exact hround h rfl rfl

/-- A compilation is one dispatch after another, as far as it gets. -/
theorem announcement_turns (h : Announcement b fatal p os w fs is r w') :
    ∃ turns : List (Occasion × World η σ),
      is = turns.flatMap (fun x => callsFor b fatal p x.1 x.2) ∧
      turns.map Prod.fst <+: os ∧ (r = .ok () → turns.map Prod.fst = os) := by
  induction h with
  | done w => exact ⟨[], rfl, List.prefix_rfl, fun _ => rfl⟩
  | @stops o os w w' e is htold =>
    obtain ⟨u, hcalls⟩ := told_callsFor htold
    refine ⟨[(o, u)], ?_, List.prefix_append [o] os, nofun⟩
    rw [hcalls, List.flatMap_singleton]
  | @next o os w w' w'' report fs is is' r htold hrest ih =>
    obtain ⟨u, hcalls⟩ := told_callsFor htold
    obtain ⟨turns, hturns, hbegins, hall⟩ := ih
    refine ⟨(o, u) :: turns, ?_, List.cons_prefix_cons.mpr ⟨rfl, hbegins⟩, fun hr => ?_⟩
    · rw [hcalls, hturns, List.flatMap_cons]
    · rw [List.map_cons, hall hr]

theorem announcement_endsAtFailure (h : Announcement b true p os w fs is r w') :
    EndsAtFailure p is r := by
  induction h with
  | done w => exact .inl ⟨⟨(), rfl⟩, fun c hc => absurd hc List.not_mem_nil⟩
  | stops htold => exact (told_endsAtFailure htold).map fun _ => ()
  | next htold hrest ih => exact ih.after_well (told_endsAtFailure htold).well

theorem announcement_attended (h : Announcement b fatal p os w fs is r w') (hok : r = .ok ())
    (hregistry : ∀ c ∈ is, c.after.registry = c.before.registry)
    (hwell : fatal = true → ∀ c ∈ is, c.result = .ok ()) :
    is.map (fun c => (c.occasion, c.hooks)) = os.flatMap fun o =>
      (attendants (b.supports · o.phase) w.registry p.hookKeys).map fun x => (o, x.2) := by
  induction h with
  | done w => rfl
  | stops htold => cases hok
  | next htold hrest ih =>
    obtain ⟨hregistry₁, hregistry₂⟩ := List.forall_mem_append.mp hregistry
    obtain ⟨hsame, hcalls⟩ := told_attended htold hregistry₁
      fun hfatal => (List.forall_mem_append.mp (hwell hfatal)).1
    have hrest := ih hok hregistry₂ fun hfatal => (List.forall_mem_append.mp (hwell hfatal)).2
    rw [hsame] at hrest
    rw [List.map_append, hcalls, hrest, List.flatMap_cons]

end Told

end PatternHooks.Compilation
