import PatternHooks.Proofs.EngineCourse

/-!
Fatal and tolerant runs from the same world. They are the same as long as no hook fails. If one
fails, the fatal run ends there: it has made the calls of the tolerant run up to the first that
fails, leaves the world that this call leaves, and reports the failure that the tolerant run notes
first. This holds of a single dispatch, of the compilation of a pattern, and of a search.
-/

namespace PatternHooks.FirstFailure

open Engine Dispatch CallLog EngineCourse Visits

variable {η ρ σ α : Type}

/-- The calls of a tolerant dispatch, up to the first that fails, are those of the fatal one. -/
theorem round_curtailed {phase : Phase} {p : Pattern} {supports : η → Bool}
    {call : η → Effect η ρ} {keys : List String} {report : Report} {w w' : World η ρ}
    {calls : List (Call η ρ)} {outcome : Except Fault Report}
    (h : Round false phase p supports call keys report w calls outcome w') :
    ∃ report' fs, outcome = .ok report' ∧ report'.failures = report.failures ++ fs ∧
      ((fs = [] ∧ (∀ c ∈ calls, c.result = .ok ()) ∧
          Round true phase p supports call keys report w calls outcome w') ∨
        ∃ f fs' earlier last t, fs = f :: fs' ∧ Breaks Call.result calls earlier last t ∧
          f.message = t.render ∧
          Round true phase p supports call keys report w (earlier ++ [last])
            (.error (fatalFault f.key phase t)) last.after) := by
  induction h with
  | done report w =>
    exact ⟨report, [], rfl, (List.append_nil _).symm,
      .inl ⟨rfl, fun c hc => absurd hc List.not_mem_nil, .done report w⟩⟩
  | @goes key keys report w w₁ w₂ v called calls outcome hturn _ hrest ih =>
    obtain ⟨report', fs, houtcome, hfs, hcases⟩ := ih
    by_cases hfailed : ∃ t, v = .failed t
    · obtain ⟨t, rfl⟩ := hfailed
      obtain ⟨e, hentry, hcalls⟩ := turnCalls_failed hturn
      have hstops : Round true phase p supports call (key :: keys) report w _
          (.error (fatalFault key phase t)) w₁ := .stops rfl hturn
      rw [hcalls] at hstops ⊢
      refine ⟨report', ⟨key, t.render⟩ :: fs, houtcome, ?_,
        .inr ⟨_, fs, [], ⟨e.hooks, w, .error t, w₁⟩, t, rfl, ?_, rfl, hstops⟩⟩
      · rw [hfs]
        exact List.append_assoc report.failures [_] fs
      · exact ⟨List.prefix_append [_] calls, fun c hc => absurd hc List.not_mem_nil, rfl⟩
    · have hv : ∀ t, v ≠ .failed t := fun t ht => hfailed ⟨t, ht⟩
      have hwell : ∀ c ∈ turnCalls w v called w₁, c.result = .ok () := turnCalls_well hv
      have hnote : (note report key v).failures = report.failures := by
        cases v with
        | failed t => exact absurd rfl (hv t)
        | _ => rfl
      rw [hnote] at hfs
      refine ⟨report', fs, houtcome, hfs, ?_⟩
      rcases hcases with ⟨rfl, hcalls, hround⟩ | ⟨f, fs', earlier, last, t, rfl, hbreaks, hmessage,
        hround⟩
      · refine .inl ⟨rfl, fun c hc => ?_, .goes hturn (.inr hv) hround⟩
        rcases List.mem_append.mp hc with hc | hc
        · exact hwell c hc
        · exact hcalls c hc
      · refine .inr ⟨f, fs', _, last, t, rfl, hbreaks.after_well hwell, hmessage, ?_⟩
        rw [List.append_assoc]
        exact .goes hturn (.inr hv) hround
  | stops hfatal hturn => exact absurd hfatal Bool.false_ne_true

/-- What becomes of a tolerant run when failures are fatal. The run notes the failures `fs`, makes
the calls `is`, and ends with `r` in the world `w`. -/
inductive Curtailed (fs : List HookFailure) (is : List (Invocation η σ)) (r : Except Fault α)
    (w : World η σ) : List (Invocation η σ) → Except Fault α → World η σ → Prop
  | whole (hfs : fs = []) (hwell : ∀ c ∈ is, c.result = .ok ()) : Curtailed fs is r w is r w
  | cut {f : HookFailure} {fs' : List HookFailure} {earlier : List (Invocation η σ)}
      {last : Invocation η σ} {t : Trouble} (hfs : fs = f :: fs')
      (hbreaks : Breaks Invocation.result is earlier last t) (hmessage : f.message = t.render) :
      Curtailed fs is r w (earlier ++ [last])
        (.error (fatalFault f.key last.occasion.phase t)) last.after.leave

section Curtailed
variable {fs fs₀ : List HookFailure} {is is₀ is' : List (Invocation η σ)} {r r' : Except Fault α}
  {w w' : World η σ}

theorem Curtailed.after_well (h : Curtailed fs is r w is' r' w')
    (hwell : ∀ c ∈ is₀, c.result = .ok ()) : Curtailed fs (is₀ ++ is) r w (is₀ ++ is') r' w' := by
  cases h with
  | whole hfs hwell' =>
    refine .whole hfs fun c hc => ?_
    rcases List.mem_append.mp hc with hc | hc
    · exact hwell c hc
    · exact hwell' c hc
  | cut hfs hbreaks hmessage =>
    rw [← List.append_assoc]
    exact .cut hfs (hbreaks.after_well hwell) hmessage

/-- The fatal run does not care what the tolerant one does after the first failure. -/
theorem Curtailed.of_cut {f : HookFailure} {fs' : List HookFailure}
    {earlier : List (Invocation η σ)} {last : Invocation η σ} {t : Trouble} (hfs : fs = f :: fs')
    (hbreaks : Breaks Invocation.result is earlier last t) (hmessage : f.message = t.render) :
    Curtailed (fs ++ fs₀) (is ++ is₀) r w (earlier ++ [last])
      (.error (fatalFault f.key last.occasion.phase t)) last.after.leave := by
  subst hfs
  exact .cut rfl (hbreaks.append is₀) hmessage

end Curtailed

section Engine
variable {b : Behaviour η σ} {p : Pattern} {w w' : World η σ}

/-- The same of a whole dispatch, whose calls are put down with their occasion. -/
theorem dispatch_curtailed {phase : Phase} {supports : η → Bool} {call : η → Effect η ρ}
    {keys : List String} {u u' : World η ρ} {calls : List (Call η ρ)}
    {outcome : Except Fault Report} {f : Call η ρ → Invocation η σ}
    (hf : ∀ c, (f c).result = c.result)
    (h : Round false phase p supports call keys { phase } u calls outcome u') :
    ∃ report, outcome = .ok report ∧
      ((report.failures = [] ∧ (∀ c ∈ calls.map f, c.result = .ok ()) ∧
          Round true phase p supports call keys { phase } u calls outcome u') ∨
        ∃ g fs earlier last t, report.failures = g :: fs ∧
          Breaks Invocation.result (calls.map f) (earlier.map f) (f last) t ∧
          g.message = t.render ∧
          Round true phase p supports call keys { phase } u (earlier ++ [last])
            (.error (fatalFault g.key phase t)) last.after) := by
  obtain ⟨report, fs, rfl, hfs, hcases⟩ := round_curtailed h
  rw [List.nil_append] at hfs
  refine ⟨report, rfl, ?_⟩
  rcases hcases with ⟨rfl, hwell, hround⟩ |
    ⟨g, fs', earlier, last, t, rfl, hbreaks, hmessage, hround⟩
  · refine .inl ⟨hfs, List.forall_mem_map.mpr fun c hc => ?_, hround⟩
    rw [hf, hwell c hc]
  · exact .inr ⟨g, fs', earlier, last, t, hfs, hbreaks.map hf, hmessage, hround⟩

theorem told_curtailed {o : Occasion} {is : List (Invocation η σ)} {outcome : Except Fault Report}
    (h : Told b false p o w is outcome w') :
    ∃ report, outcome = .ok report ∧
      ((report.failures = [] ∧ (∀ c ∈ is, c.result = .ok ()) ∧ Told b true p o w is outcome w') ∨
        ∃ f fs' earlier last t, report.failures = f :: fs' ∧
          Breaks Invocation.result is earlier last t ∧ f.message = t.render ∧
          Told b true p o w (earlier ++ [last])
            (.error (fatalFault f.key last.occasion.phase t)) last.after.leave) := by
  cases h with
  | begin hround =>
    obtain ⟨report, rfl, hcases⟩ := dispatch_curtailed (f := .plain .begin) (fun _ => rfl) hround
    refine ⟨report, rfl, ?_⟩
    rcases hcases with ⟨hfs, hwell, hround'⟩ | ⟨f, fs', _, _, t, hfs, hbreaks, hmessage, hround'⟩
    · exact .inl ⟨hfs, hwell, .begin hround'⟩
    · have htold := Told.begin hround'
      rw [List.map_append] at htold
      exact .inr ⟨f, fs', _, _, t, hfs, hbreaks, hmessage, htold⟩
  | @node n _ _ _ _ hround =>
    obtain ⟨report, rfl, hcases⟩ :=
      dispatch_curtailed (f := .plain (.node n)) (fun _ => rfl) hround
    refine ⟨report, rfl, ?_⟩
    rcases hcases with ⟨hfs, hwell, hround'⟩ | ⟨f, fs', _, _, t, hfs, hbreaks, hmessage, hround'⟩
    · exact .inl ⟨hfs, hwell, .node hround'⟩
    · have htold := Told.node hround'
      rw [List.map_append] at htold
      exact .inr ⟨f, fs', _, _, t, hfs, hbreaks, hmessage, htold⟩

theorem announcement_curtailed {os : List Occasion} {fs : List HookFailure}
    {is : List (Invocation η σ)} {r : Except Fault Unit}
    (h : Announcement b false p os w fs is r w') :
    r = .ok () ∧ ∃ is' r' w'', Announcement b true p os w [] is' r' w'' ∧
      Curtailed fs is r w' is' r' w'' := by
  induction h with
  | done w => exact ⟨rfl, [], _, w, .done w, .whole rfl fun c hc => absurd hc List.not_mem_nil⟩
  | stops htold =>
    obtain ⟨report, houtcome, _⟩ := told_curtailed htold
    cases houtcome
  | next htold hrest ih =>
    obtain ⟨hr, is', r', w'', hannouncement, hcurtailed⟩ := ih
    refine ⟨hr, ?_⟩
    obtain ⟨report, houtcome, hcases⟩ := told_curtailed htold
    cases houtcome
    rcases hcases with ⟨hfs, hwell, htold'⟩ | ⟨f, fs', earlier, last, t, hfs, hbreaks, hmessage,
      htold'⟩
    · have hnext := Announcement.next htold' hannouncement
      rw [hfs] at hnext ⊢
      exact ⟨_, r', w'', hnext, hcurtailed.after_well hwell⟩
    · exact ⟨_, _, _, .stops htold', .of_cut hfs hbreaks hmessage⟩

theorem visited_curtailed {v : Visit} {calls : List (Call η (σ × MatchState))}
    (h : Visited b false p v w calls w') :
    ∃ report, v.outcome = .ok report ∧
      ((report.failures = [] ∧ (∀ c ∈ v.invocations calls, c.result = .ok ()) ∧
          Visited b true p v w calls w') ∨
        ∃ f fs' earlier last t s calls', report.failures = f :: fs' ∧
          Breaks Invocation.result (v.invocations calls) earlier last t ∧ f.message = t.render ∧
          v.invocations calls' = earlier ++ [last] ∧
          Visited b true p ⟨v.attempt, v.node, v.arrived,
            .error (fatalFault f.key last.occasion.phase t), s⟩ w calls' last.after.leave) := by
  obtain ⟨report, houtcome, hcases⟩ :=
    dispatch_curtailed (f := .lent (.visit v.node v.attempt)) (fun _ => rfl) h
  refine ⟨report, houtcome, ?_⟩
  rcases hcases with ⟨hfs, hwell, hround⟩ | ⟨f, fs', earlier, last, t, hfs, hbreaks, hmessage,
    hround⟩
  · exact .inl ⟨hfs, hwell, hround⟩
  · exact .inr ⟨f, fs', earlier.map (.lent (.visit v.node v.attempt)),
      .lent (.visit v.node v.attempt) last, t, last.after.settle.1, _, hfs, hbreaks, hmessage,
      by rw [Visit.invocations, List.map_append]; rfl, hround⟩

theorem passage_curtailed {a : Attempt} {ns : List Node} {s : MatchState} {visits : List Visit}
    {is : List (Invocation η σ)} {r : Except Fault (Option ℕ)}
    (h : Passage b false p a ns s w visits is r w') :
    (∀ e, r = .error e → e.kind = .validation) ∧
      ∃ visits' is' r' w'', Passage b true p a ns s w visits' is' r' w'' ∧
        visits'.flatMap Visit.failures = [] ∧
        Curtailed (visits.flatMap Visit.failures) is r w' is' r' w'' := by
  induction h with
  | spent s w =>
    exact ⟨fun e he => (nomatch he), [], [], _, w, .spent s w, rfl,
      .whole rfl fun c hc => absurd hc List.not_mem_nil⟩
  | stops hvisit =>
    obtain ⟨report, houtcome, _⟩ := visited_curtailed hvisit
    cases houtcome
  | @ends n ns s t w w' report calls r hvisit hends =>
    refine ⟨?_, ?_⟩
    · intro e he
      subst he
      generalize move a n t = m at hends
      cases m with
      | error f => cases hends; rfl
      | ok m => cases m <;> cases hends
    · obtain ⟨report, houtcome, hcases⟩ := visited_curtailed hvisit
      cases houtcome
      rw [List.flatMap_singleton]
      rcases hcases with ⟨hfs, hwell, hvisit'⟩ | ⟨f, fs', earlier, last, tr, u, calls', hfs,
        hbreaks, hmessage, hcalls, hvisit'⟩
      · exact ⟨_, _, r, w', .ends hvisit' hends, by rw [List.flatMap_singleton]; exact hfs,
          .whole hfs hwell⟩
      -- The fatal attempt ends in the middle of this visit, before the move.
      · have hstops : Passage b true p a (n :: ns) s w _ _ (.error _) _ := .stops hvisit'
        exact ⟨_, _, _, _, hstops, rfl, hcalls ▸ .cut hfs hbreaks hmessage⟩
  | @next n ns s t u w w' w'' report calls visits is r hvisit hmove hrest ih =>
    obtain ⟨hr, visits', is', r', w₃, hpassage, hfailures, hcurtailed⟩ := ih
    refine ⟨hr, ?_⟩
    obtain ⟨report, houtcome, hcases⟩ := visited_curtailed hvisit
    cases houtcome
    rw [List.flatMap_cons]
    rcases hcases with ⟨hfs, hwell, hvisit'⟩ | ⟨f, fs', earlier, last, tr, x, calls', hfs,
      hbreaks, hmessage, hcalls, hvisit'⟩
    · have hnone : Visit.failures ⟨a, n, s, .ok report, t⟩ = [] := hfs
      refine ⟨_, _, r', w₃, .next hvisit' hmove hpassage, ?_, ?_⟩
      · rw [List.flatMap_cons, hnone, hfailures, List.append_nil]
      · rw [hnone, List.nil_append]
        exact hcurtailed.after_well hwell
    · have hstops : Passage b true p a (n :: ns) s w _ _ (.error _) _ := .stops hvisit'
      have hnoted : Visit.failures ⟨a, n, s, .ok report, t⟩ = f :: fs' := hfs
      exact ⟨_, _, _, _, hstops, rfl, hcalls ▸ .of_cut hnoted hbreaks hmessage⟩

theorem pursuit_curtailed {prog : Program} {subject : String} {starts : List ℕ}
    {visits : List Visit} {is : List (Invocation η σ)} {r : Except Fault (Option (ℕ × ℕ))}
    (h : Pursuit b false prog subject starts w visits is r w') :
    (∀ e, r = .error e → e.kind = .validation) ∧
      ∃ visits' is' r' w'', Pursuit b true prog subject starts w visits' is' r' w'' ∧
        visits'.flatMap Visit.failures = [] ∧
        Curtailed (visits.flatMap Visit.failures) is r w' is' r' w'' := by
  induction h with
  | spent w =>
    exact ⟨fun e he => (nomatch he), [], [], _, w, .spent w, rfl,
      .whole rfl fun c hc => absurd hc List.not_mem_nil⟩
  | stops hpassage =>
    obtain ⟨hkind, visits', is', r', w'', hpassage', hfailures, hcurtailed⟩ :=
      passage_curtailed hpassage
    refine ⟨fun e he => hkind e (by cases he; rfl), ?_⟩
    cases hcurtailed with
    | whole hfs hwell => exact ⟨_, _, _, _, .stops hpassage', hfailures, .whole hfs hwell⟩
    | cut hfs hbreaks hmessage =>
      exact ⟨_, _, _, _, .stops hpassage', hfailures, .cut hfs hbreaks hmessage⟩
  | finds hpassage =>
    obtain ⟨_, visits', is', r', w'', hpassage', hfailures, hcurtailed⟩ :=
      passage_curtailed hpassage
    refine ⟨fun e he => (nomatch he), ?_⟩
    cases hcurtailed with
    | whole hfs hwell => exact ⟨_, _, _, _, .finds hpassage', hfailures, .whole hfs hwell⟩
    | cut hfs hbreaks hmessage =>
      exact ⟨_, _, _, _, .stops hpassage', hfailures, .cut hfs hbreaks hmessage⟩
  | next hpassage hrest ih =>
    obtain ⟨hkind, visits₂, is₂, r₂, w₂, hpursuit, hfailures₂, hcurtailed₂⟩ := ih
    obtain ⟨_, visits₁, is₁, r₁, w₁, hpassage', hfailures₁, hcurtailed₁⟩ :=
      passage_curtailed hpassage
    refine ⟨hkind, ?_⟩
    rw [List.flatMap_append]
    cases hcurtailed₁ with
    | whole hfs hwell =>
      refine ⟨_, _, r₂, w₂, .next hpassage' hpursuit, ?_, ?_⟩
      · rw [List.flatMap_append, hfailures₁, hfailures₂, List.append_nil]
      · rw [hfs, List.nil_append]
        exact hcurtailed₂.after_well hwell
    | cut hfs hbreaks hmessage =>
      exact ⟨_, _, _, _, .stops hpassage', hfailures₁, .of_cut hfs hbreaks hmessage⟩

end Engine

theorem Curtailed.map {β : Type} {fs : List HookFailure} {is is' : List (Invocation η σ)}
    {r r' : Except Fault α} {w w' : World η σ} (h : Curtailed fs is r w is' r' w') (f : α → β) :
    Curtailed fs is (r.map f) w is' (r'.map f) w' := by
  cases h with
  | whole hfs hwell => exact .whole hfs hwell
  | cut hfs hbreaks hmessage => exact .cut hfs hbreaks hmessage

/-- A fatal run beside the tolerant one from the same world, each with its calls. -/
structure EndsAtFirst (noted : List HookFailure) (tolerant fatal : Run (World η σ) α)
    (tolerantCalls fatalCalls : List (Invocation η σ)) : Prop where
  grows : noted <+: tolerant.noted
  fails_iff : (∃ e, fatal.result = .error e ∧ e.kind = .hookFailed) ↔ tolerant.noted ≠ noted
  same : tolerant.noted = noted → fatal = tolerant ∧ fatalCalls = tolerantCalls
  first : ∀ f fs, tolerant.noted = noted ++ f :: fs → ∃ earlier last t,
    Breaks Invocation.result tolerantCalls earlier last t ∧ fatalCalls = earlier ++ [last] ∧
    f.message = ": ".intercalate t.accounts ∧
    fatal.result = .error ⟨.hookFailed, "Hook '" ++ f.key ++ "' failed during " ++
      last.occasion.phase.name ++ ": " ++ f.message, t.accounts⟩ ∧
    fatal.noted = noted ∧ fatal.world = last.after.leave

theorem Curtailed.endsAtFirst {fs : List HookFailure} {is is' : List (Invocation η σ)}
    {r r' : Except Fault α} {w w' : World η σ} (h : Curtailed fs is r w is' r' w')
    (hkind : ∀ e, r = .error e → e.kind = .validation) (noted : List HookFailure) :
    EndsAtFirst noted ⟨r, noted ++ fs, w⟩ ⟨r', noted, w'⟩ is is' := by
  cases h with
  | whole hfs hwell =>
    subst hfs
    rw [List.append_nil]
    refine ⟨List.prefix_rfl, ?_, fun _ => ⟨rfl, rfl⟩, fun f fs hnoted => ?_⟩
    · constructor
      · intro hfails
        obtain ⟨e, he, hfailed⟩ := hfails
        rw [hkind e he] at hfailed
        cases hfailed
      · exact fun hne => absurd rfl hne
    · exact absurd hnoted.symm (by simp)
  | @cut f fs' earlier last t hfs hbreaks hmessage =>
    subst hfs
    have hne : noted ++ f :: fs' ≠ noted := by simp
    refine ⟨List.prefix_append noted _, ?_, fun heq => absurd heq hne, fun f' fs'' hnoted => ?_⟩
    · exact ⟨fun _ => hne, fun _ => ⟨_, rfl, rfl⟩⟩
    · obtain ⟨rfl, rfl⟩ := List.cons.inj (List.append_cancel_left hnoted)
      refine ⟨earlier, last, t, hbreaks, rfl, hmessage, ?_, rfl, rfl⟩
      rw [hmessage]
      rfl

/-- Fatal and tolerant runs agree up to the first failure. If a tolerant dispatch reports none, the
fatal one ends with the same report in the same world, after the same calls. Otherwise it makes the
calls of the tolerant one up to the first that fails, leaves the world that this call leaves, and
ends with a failure that names the key and the message of the first one reported, and has the
accounts of the hook's own trouble for causes. The compilation of a pattern and the search of a
subject, whose dispatches are many, end with such a failure exactly if the tolerant run notes one.
-/
theorem fatal_runs_end_at_first_failure (phase : Phase) (p : Pattern) (supports : η → Phase → Bool)
    (call : η → Effect η ρ) (u : World η ρ) (b : Behaviour η σ) (prog : Program) (subject : String)
    (noted : List HookFailure) (w : World η σ) :
    (∃ report u', fire false phase p supports call u = (.ok report, u') ∧
      (report.failures = [] →
        fire true phase p supports call u = (.ok report, u') ∧
          fireCalls true phase p supports call u = fireCalls false phase p supports call u) ∧
      ∀ f fs, report.failures = f :: fs → ∃ earlier last t,
        Breaks Call.result (fireCalls false phase p supports call u) earlier last t ∧
        fireCalls true phase p supports call u = earlier ++ [last] ∧
        f.message = ": ".intercalate t.accounts ∧
        fire true phase p supports call u = (.error ⟨.hookFailed, "Hook '" ++ f.key ++
          "' failed during " ++ phase.name ++ ": " ++ f.message, t.accounts⟩, last.after)) ∧
    EndsAtFirst noted (compile (.ofHooks b false) p noted w) (compile (.ofHooks b true) p noted w)
      (compileCalls b false p w) (compileCalls b true p w) ∧
    EndsAtFirst noted (exec (.ofHooks b false) prog subject noted w)
      (exec (.ofHooks b true) prog subject noted w) (execCalls b false prog subject w)
      (execCalls b true prog subject w) := by
  refine ⟨?_, ?_, ?_⟩
  · obtain ⟨calls, outcome, u', hround⟩ :=
      exists_round false phase p (supports · phase) call p.hookKeys { phase } u
    obtain ⟨report, fs, rfl, hfs, hcases⟩ := round_curtailed hround
    rw [List.nil_append] at hfs
    rw [hround.fire_eq, hround.fireCalls_eq]
    refine ⟨report, u', rfl, fun hnone => ?_, fun f fs' hsome => ?_⟩
    · rcases hcases with ⟨_, _, hround'⟩ | ⟨f, fs', _, _, _, hcons, _⟩
      · exact ⟨hround'.fire_eq, hround'.fireCalls_eq⟩
      · exact absurd (hnone.symm.trans (hfs.trans hcons)) (List.cons_ne_nil f fs').symm
    · rcases hcases with ⟨hnil, _⟩ | ⟨f', fs'', earlier, last, t, hcons, hbreaks, hmessage, hround'⟩
      · exact absurd (hsome.symm.trans (hfs.trans hnil)) (List.cons_ne_nil f fs')
      · obtain ⟨rfl, rfl⟩ := List.cons.inj (hsome.symm.trans (hfs.trans hcons))
        refine ⟨earlier, last, t, hbreaks, hround'.fireCalls_eq, hmessage, ?_⟩
        rw [hround'.fire_eq, hmessage]
        rfl
  · obtain ⟨fs, is, r, w', htolerant⟩ := exists_announcement b false p w
    obtain ⟨hr, is', r', w'', hfatal, hcurtailed⟩ := announcement_curtailed htolerant
    have hends := (hcurtailed.map fun _ => (⟨p, nodesOf p.source⟩ : Program)).endsAtFirst
      (by subst hr; exact fun e he => nomatch he) noted
    rw [htolerant.compileCalls_eq, hfatal.compileCalls_eq]
    have htolerant' := htolerant.compile_eq tells_plain noted []
    have hfatal' := hfatal.compile_eq tells_plain noted []
    rw [List.append_nil] at hfatal'
    rw [htolerant', hfatal']
    exact hends
  · obtain ⟨visits, is, r, w', htolerant⟩ :=
      exists_pursuit b false prog subject (Text.boundaries subject.toList) w
    obtain ⟨hkind, visits', is', r', w'', hfatal, hfailures, hcurtailed⟩ :=
      pursuit_curtailed htolerant
    have hends := hcurtailed.endsAtFirst hkind noted
    have hfatal' := hfatal.exec_eq noted
    rw [hfailures, List.append_nil] at hfatal'
    rw [htolerant.execCalls_eq, hfatal.execCalls_eq, htolerant.exec_eq noted, hfatal']
    exact hends

end PatternHooks.FirstFailure
