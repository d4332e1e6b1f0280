import PatternHooks.Proofs.HostRuns
import PatternHooks.Proofs.RegistryHistory
import PatternHooks.Proofs.WorldSteps

/-!
The trail that a registry leaves in the journal. Every change of the registry leaves one record, and
what fails or finds nothing leaves none. Whoever replays the trail from its beginning knows the keys
that are registered, and their order, whenever one operation has ended and the next one has not
begun, also in the middle of a dispatch and in the middle of a hook.
-/

namespace PatternHooks.RegistryTrail

open CallLog Dispatch HostRuns RegistryCalls RegistryRoll WorldSteps Visits

variable {η ρ σ β : Type}

/-- What a record says about the registry. -/
inductive Notice where
  | registered (key : String) (replaced : Bool)
  | unregistered (key : String)
  | cleared (removed : ℕ)

def isTrail (r : Record) : Bool := r.level = .info && r.target == Reporter.registry.target

/-- The records of the registry. -/
def trail (journal : List Record) : List Record := journal.filter isTrail

theorem trail_write_append (w : World η ρ) {r : Record} (hr : isTrail r = true) :
    trail (w.write r).journal = trail w.journal ++ [r] := by
  simp [trail, World.write, hr]

/-- A record understood by its message and its data. -/
def notice? (r : Record) : Option Notice :=
  if r.message = "Hook set registered" then
    match r.data.lookup "key", r.data.lookup "replaced" with
    | some (.text key), some (.flag replaced) => some (.registered key replaced)
    | _, _ => none
  else if r.message = "Hook set unregistered" then
    match r.data.lookup "key" with
    | some (.text key) => some (.unregistered key)
    | _ => none
  else if r.message = "Hook registry cleared" then
    match r.data.lookup "removed" with
    | some (.count removed) => some (.cleared removed)
    | _ => none
  else none

namespace Notice

/-- What a notice makes of a list of keys. -/
def apply (keys : List String) : Notice → List String
  | registered key false => keys ++ [key]
  | registered _ true => keys
  | unregistered key => keys.erase key
  | cleared _ => []

/-- What a notice says about the keys that were there before. -/
def Fits (keys : List String) : Notice → Prop
  | registered key replaced => replaced = true ↔ key ∈ keys
  | unregistered key => key ∈ keys
  | cleared removed => removed = keys.length ∧ removed ≠ 0

end Notice

/-- The keys that a trail tells, with none at its beginning. -/
def replay (records : List Record) : List String :=
  records.foldl (fun keys r => (notice? r).elim keys (·.apply keys)) []

/-- Every record can be understood and fits what those before it tell. -/
def Sound (records : List Record) : Prop :=
  ∀ earlier r later, records = earlier ++ r :: later →
    ∃ n, notice? r = some n ∧ n.Fits (replay earlier)

/-- The trail is sound and tells the keys of the registry, in whatever order their entries are kept.
-/
structure Audited (w : World η ρ) : Prop where
  sound : Sound (trail w.journal)
  tells : ∀ entries, entries.Perm w.registry.entries →
    replay (trail w.journal) = ({ w.registry with entries } : Registry η).keys

theorem Audited.keys_eq {w : World η ρ} (h : Audited w) :
    w.registry.keys = replay (trail w.journal) :=
  (h.tells w.registry.entries (.refl _)).symm

theorem replay_append_singleton {r : Record} {n : Notice} (hn : notice? r = some n)
    (records : List Record) : replay (records ++ [r]) = n.apply (replay records) := by
  simp [replay, hn]

theorem sound_nil : Sound [] := by
  intro earlier r later h
  exact absurd h.symm (List.append_ne_nil_of_right_ne_nil earlier (List.cons_ne_nil r later))

theorem Sound.append_singleton {records : List Record} (h : Sound records) {r : Record}
    {n : Notice} (hn : notice? r = some n) (hfits : n.Fits (replay records)) :
    Sound (records ++ [r]) := by
  intro earlier r' later hsplit
  rcases List.eq_nil_or_concat later with rfl | ⟨between, last, rfl⟩
  · obtain ⟨rfl, hlast⟩ := List.append_inj' hsplit rfl
    obtain rfl : r = r' := List.singleton_inj.mp hlast
    exact ⟨n, hn, hfits⟩
  · rw [List.concat_eq_append, ← List.cons_append, ← List.append_assoc] at hsplit
    obtain ⟨hrecords, _⟩ := List.append_inj' hsplit rfl
    exact h earlier r' between hrecords

/-- A registry that agrees with a roll, and a trail that tells the keys of the roll. -/
structure Kept (w : World η ρ) (l : Roll η) : Prop where
  agrees : Agrees w.registry l
  tells : replay (trail w.journal) = l.keys
  sound : Sound (trail w.journal)

section Kept
variable {w : World η ρ} {l : Roll η}

theorem Kept.audited (h : Kept w l) : Audited w where
  sound := h.sound
  tells entries hp := by rw [h.tells, (h.agrees.reorder hp).keys_eq]

/-- A change of the registry, with its record. -/
theorem Kept.record (h : Kept w l) {r : Registry η} {l' : Roll η} (hagrees : Agrees r l')
    {note : Record} (hnote : isTrail note = true) {n : Notice} (hn : notice? note = some n)
    (hfits : n.Fits l.keys) (hkeys : n.apply l.keys = l'.keys) :
    Kept ((w.setRegistry r).write note) l' := by
  have htrail : trail ((w.setRegistry r).write note).journal = trail w.journal ++ [note] :=
    trail_write_append (w.setRegistry r) hnote
  constructor
  · exact hagrees
  · rw [htrail, replay_append_singleton hn, h.tells, hkeys]
  · rw [htrail]
    rw [← h.tells] at hfits
    exact h.sound.append_singleton hn hfits

theorem Kept.write (h : Kept w l) {r : Record} (hr : r.target ≠ Reporter.registry.target) :
    Kept (w.write r) l := by
  have htrail : trail (w.write r).journal = trail w.journal := by
    simp [trail, isTrail, World.write, hr]
  constructor
  · exact h.agrees
  · rw [htrail, h.tells]
  · rw [htrail]
    exact h.sound

theorem Kept.register (h : Kept w l) (key : String) (hooks : η) :
    ∃ l', Kept (w.register key hooks).2 l' := by
  have hcontains := h.agrees.contains_iff key
  rcases register_cases w.registry key hooks with ⟨_, hr⟩ | ⟨_, _, _, hr⟩ | ⟨_, hc, _, hr⟩ |
    ⟨_, hc, hr⟩
  · exact ⟨l, by simpa only [World.register, hr] using h⟩
  · exact ⟨l, by simpa only [World.register, hr] using h⟩
  · simp only [World.register, hr]
    have hmem : key ∈ l.keys := hcontains.mp hc
    refine ⟨l.replace key hooks, h.record (h.agrees.substitute key hooks)
      (n := .registered key true) rfl rfl ?_ ?_⟩
    · simp [Notice.Fits, hmem]
    · exact (l.keys_replace key hooks).symm
  · simp only [World.register, hr]
    have hnew : key ∉ l.keys := fun hmem => by simp [hcontains.mpr hmem] at hc
    refine ⟨l.append key hooks, h.record (h.agrees.insert hnew hooks)
      (n := .registered key false) rfl rfl ?_ ?_⟩
    · simp [Notice.Fits, hnew]
    · simp [Notice.apply, Roll.keys, Roll.append]

theorem keys_remove (l : Roll η) (key : String) : (l.remove key).keys = l.keys.erase key := by
  have hkey : (key == ·) ∘ Entry.key = fun e : Entry η => e.key == key := by
    funext e
    exact Bool.beq_comm
  rw [Roll.keys, Roll.keys, Roll.remove, List.erase_eq_eraseP, List.eraseP_map, hkey]

theorem Kept.unregister (h : Kept w l) (key : String) : ∃ l', Kept (w.unregister key).2 l' := by
  have hlookup := h.agrees.lookup_eq key
  have hagrees := h.agrees.unregister key
  cases hentry : w.registry.lookup key with
  | none =>
    have hnew : key ∉ l.keys := by
      rw [← h.agrees.contains_iff, Registry.contains, hentry]
      exact Bool.false_ne_true
    have hkeys : (l.remove key).keys = l.keys := by
      rw [keys_remove, List.erase_of_not_mem hnew]
    refine ⟨l.remove key, ?_⟩
    simp only [World.unregister, Registry.unregister, hentry]
    exact ⟨hagrees, by rw [hkeys]; exact h.tells, h.sound⟩
  | some e =>
    have hmem : key ∈ l.keys := by
      rw [← h.agrees.contains_iff, Registry.contains, hentry]
      rfl
    refine ⟨l.remove key, ?_⟩
    simp only [World.unregister, Registry.unregister, hentry]
    exact h.record hagrees (n := .unregistered key) rfl rfl hmem (keys_remove l key).symm

theorem Kept.clear (h : Kept w l) : ∃ l', Kept w.clear.2 l' := by
  have hsize : w.registry.size = l.keys.length := by
    rw [h.agrees.size_eq, Roll.keys, List.length_map]
  refine ⟨l.clear, ?_⟩
  by_cases hsome : 0 < w.registry.size
  · have hclear : w.clear.2 =
        (w.setRegistry w.registry.clear.2).write (World.cleared w.registry.size) := if_pos hsome
    rw [hclear]
    exact h.record h.agrees.clear (n := .cleared w.registry.size) rfl rfl
      ⟨hsize, Nat.ne_of_gt hsome⟩ rfl
  · have hclear : w.clear.2 = w.setRegistry w.registry.clear.2 := if_neg hsome
    have hnone : l.keys = [] := List.length_eq_zero_iff.mp (by omega)
    rw [hclear]
    exact ⟨h.agrees.clear, h.tells.trans hnone, h.sound⟩

end Kept

theorem Kept.step {w w' : World η Unit} {l : Roll η} (h : Kept w l) (hstep : Step w w') :
    ∃ l', Kept w' l' := by
  cases hstep with
  | change c =>
    cases c with
    | register key hooks => exact h.register key hooks
    | unregister key => exact h.unregister key
    | clear => exact h.clear
  | write r hr => exact ⟨l, h.write hr⟩

theorem kept_initial (settings : HookSettings) (own : σ) :
    Kept (Host.initial settings own : World η σ) {} := by
  have hr : (Host.initialized settings).target ≠ Reporter.registry.target :=
    show Reporter.host.target ≠ Reporter.registry.target by decide
  have hempty : Kept ({ registry := .empty settings.onDuplicate, own } : World η σ) {} :=
    ⟨agrees_empty settings.onDuplicate, rfl, sound_nil⟩
  exact hempty.write hr

theorem audited_of_leads {settings : HookSettings} {own : σ} {w : World η ρ}
    (h : Leads (Host.initial settings own : World η σ) w) : Audited w := by
  suffices hkept : ∀ u : World η Unit,
      Relation.ReflTransGen Step (bare (Host.initial settings own : World η σ)) u →
        ∃ l, Kept u l by
    obtain ⟨l, hl⟩ := hkept _ h
    have hw : Kept w l := ⟨hl.agrees, hl.tells, hl.sound⟩
    exact hw.audited
  intro u hu
  induction hu with
  | refl =>
    have hstart : Kept (Host.initial settings own : World η σ) {} := kept_initial settings own
    exact ⟨{}, hstart.agrees, hstart.tells, hstart.sound⟩
  | tail _ hstep ih =>
    obtain ⟨l, hl⟩ := ih
    exact hl.step hstep

/-- Whether a reply tells of a change. -/
def tellsChange : Reply (Entry η) → Bool
  | .registered (.ok ()) => true
  | .registered (.error _) => false
  | .removed entry => entry.isSome
  | .emptied count => 0 < count

theorem trail_register (w : World η ρ) (key : String) (hooks : η) :
    ∃ news, trail (w.register key hooks).2.journal = trail w.journal ++ news ∧
      news.length =
        if tellsChange (.registered (w.register key hooks).1 : Reply (Entry η)) then 1 else 0 := by
  cases hr : w.registry.register key hooks with
  | error e =>
    refine ⟨[], ?_, ?_⟩
    · simp [World.register, hr]
    · simp [World.register, hr, tellsChange]
  | ok answer =>
    refine ⟨[World.registered key answer.1 w.registry.policy], ?_, ?_⟩
    · simp only [World.register, hr]
      exact trail_write_append (w.setRegistry answer.2) rfl
    · simp [World.register, hr, tellsChange]

theorem trail_unregister (w : World η ρ) (key : String) :
    ∃ news, trail (w.unregister key).2.journal = trail w.journal ++ news ∧
      news.length = if (w.unregister key).1.isSome then 1 else 0 := by
  cases hentry : w.registry.lookup key with
  | none =>
    refine ⟨[], ?_, ?_⟩
    · simp [World.unregister, Registry.unregister, hentry, World.setRegistry]
    · simp [World.unregister, Registry.unregister, hentry]
  | some e =>
    refine ⟨[World.unregistered key], ?_, ?_⟩
    · simp only [World.unregister, Registry.unregister, hentry]
      exact trail_write_append (w.setRegistry _) rfl
    · simp [World.unregister, Registry.unregister, hentry]

theorem trail_clear (w : World η ρ) :
    ∃ news, trail w.clear.2.journal = trail w.journal ++ news ∧
      news.length = if 0 < w.registry.size then 1 else 0 := by
  by_cases hsome : 0 < w.registry.size
  · have hw : w.clear.2 =
        (w.setRegistry w.registry.clear.2).write (World.cleared w.registry.size) := if_pos hsome
    refine ⟨[World.cleared w.registry.size], ?_, ?_⟩
    · rw [hw]
      exact trail_write_append (w.setRegistry w.registry.clear.2) rfl
    · rw [if_pos hsome]
      rfl
  · have hw : w.clear.2 = w.setRegistry w.registry.clear.2 := if_neg hsome
    refine ⟨[], ?_, ?_⟩
    · rw [hw, List.append_nil]
      rfl
    · rw [if_neg hsome]
      rfl

theorem trail_change (w : World η σ) (c : Change η) :
    ∃ news, trail (c.perform w).2.journal = trail w.journal ++ news ∧
      news.length = if tellsChange (c.perform w).1 then 1 else 0 := by
  cases c with
  | register key hooks => exact trail_register w key hooks
  | unregister key => exact trail_unregister w key
  | clear =>
    obtain ⟨news, htrail, hlength⟩ := trail_clear w
    exact ⟨news, htrail, by simpa [Change.perform, tellsChange] using hlength⟩

/-- A call leaves one record if it changes the registry, and none otherwise. -/
theorem trail_perform (assemble : Option β → Option β → η) (w : World η σ)
    (c : RegistryHistory.Call η β) :
    ∃ news, trail (RegistryHistory.perform assemble w c).2.journal = trail w.journal ++ news ∧
      news.length = if tellsChange (RegistryHistory.perform assemble w c).1 then 1 else 0 := by
  cases c with
  | change c => exact trail_change w c
  | registerFns key onBegin onVisit => exact trail_register w key (assemble onBegin onVisit)
  | shutdown =>
    obtain ⟨news, htrail, hlength⟩ := trail_change w .clear
    have hlast : ∀ removed, isTrail (Host.wasShutDown removed) = false := fun _ => rfl
    refine ⟨news, ?_, hlength⟩
    rw [← htrail]
    simp [RegistryHistory.perform, Host.shutdown, Change.perform, World.write, trail, hlast]

/-- What a host may be told to do. -/
inductive Operation (η β : Type) where
  | call (c : RegistryHistory.Call η β)
  | dispatch (p : Pattern) (r : Request)

def Operation.perform (assemble : Option β → Option β → η) (b : Behaviour η σ) (fatal : Bool)
    (w : World η σ) : Operation η β → World η σ
  | call c => (RegistryHistory.perform assemble w c).2
  | dispatch p r => (r.perform b fatal p w).2

def run (assemble : Option β → Option β → η) (b : Behaviour η σ) (fatal : Bool) (w : World η σ)
    (operations : List (Operation η β)) : World η σ :=
  operations.foldl (Operation.perform assemble b fatal) w

/-- The worlds that the calls of a dispatch find and leave. -/
def moments (b : Behaviour η σ) (fatal : Bool) (p : Pattern) (w : World η σ) :
    Request → List (World η Unit)
  | .begin => (fireCalls fatal .compileBegin p b.supports (b.onCompileBegin · p)
      (w.write (beginning p))).flatMap fun c => [bare c.before, bare c.after]
  | .node n => (fireCalls fatal .compileNode p b.supports (b.onCompileNode · p n)
      (w.write (compiling p n))).flatMap fun c => [bare c.before, bare c.after]
  | .visit n a s => (fireCalls fatal .execNode p b.supports (b.onExecNode · p n a)
      ((w.write (visiting p n s)).lend s)).flatMap fun c => [bare c.before, bare c.after]

/-- A dispatch leads to the world that it leaves, and all its moments are on the way. -/
theorem leads_request {b : Behaviour η σ} (hb : BySteps b) (fatal : Bool) (p : Pattern)
    (w : World η σ) (r : Request) :
    Leads w (r.perform b fatal p w).2 ∧ ∀ m ∈ moments b fatal p w r, Leads w m := by
  have hmoments : ∀ {ρ : Type} {u : World η ρ} {calls : List (Call η ρ)}, Leads w u →
      (∀ c ∈ calls, Leads u c.before ∧ Leads u c.after) →
      ∀ m ∈ calls.flatMap fun c => [bare c.before, bare c.after], Leads w m := by
    intro ρ u calls hu hcalls m hm
    obtain ⟨c, hc, hm⟩ := List.mem_flatMap.mp hm
    rcases List.mem_pair.mp hm with rfl | rfl
    · exact hu.trans (hcalls c hc).1
    · exact hu.trans (hcalls c hc).2
  cases r with
  | begin =>
    have hopening : Leads w (w.write (beginning p)) := leads_dispatcher w ..
    obtain ⟨hfire, hcalls⟩ := leads_fire (hb.begin p) fatal .compileBegin p b.supports
      (w.write (beginning p))
    exact ⟨hopening.trans hfire, hmoments hopening hcalls⟩
  | node n =>
    have hopening : Leads w (w.write (compiling p n)) := leads_dispatcher w ..
    obtain ⟨hfire, hcalls⟩ := leads_fire (hb.node p n) fatal .compileNode p b.supports
      (w.write (compiling p n))
    exact ⟨hopening.trans hfire, hmoments hopening hcalls⟩
  | visit n a s =>
    have hopening : Leads w ((w.write (visiting p n s)).lend s) :=
      (leads_dispatcher w ..).trans (leads_of_bare rfl)
    obtain ⟨hfire, hcalls⟩ := leads_fire (hb.visit p n a) fatal .execNode p b.supports
      ((w.write (visiting p n s)).lend s)
    exact ⟨hopening.trans hfire, hmoments hopening hcalls⟩

theorem leads_call (assemble : Option β → Option β → η) (w : World η σ)
    (c : RegistryHistory.Call η β) : Leads w (RegistryHistory.perform assemble w c).2 := by
  cases c with
  | change c => exact leads_perform w c
  | registerFns key onBegin onVisit =>
    exact leads_perform w (.register key (assemble onBegin onVisit))
  | shutdown => exact leads_shutdown w

theorem leads_run (assemble : Option β → Option β → η) {b : Behaviour η σ} (hb : BySteps b)
    (fatal : Bool) (w : World η σ) (operations : List (Operation η β)) :
    Leads w (run assemble b fatal w operations) := by
  induction operations generalizing w with
  | nil => exact leads_refl w
  | cons operation operations ih =>
    have hfirst : Leads w (operation.perform assemble b fatal w) := by
      cases operation with
      | call c => exact leads_call assemble w c
      | dispatch p r => exact (leads_request hb fatal p w r).1
    exact hfirst.trans (ih _)

/-- Whatever a host has been told to do, the trail is sound and tells the keys that are registered,
in order. So it is at every moment of a further dispatch, and after every step that a hook takes
from there. A call leaves one record if it changes the registry, and none if it fails or finds
nothing. -/
theorem trail_tells_keys (assemble : Option β → Option β → η) (b : Behaviour η σ)
    (hb : BySteps b) (settings : HookSettings) (own : σ) (operations : List (Operation η β)) :
    let w := run assemble b settings.fatalErrors (Host.initial settings own) operations
    Audited w ∧
      (∀ p r, ∀ m ∈ moments b settings.fatalErrors p w r, ∀ u : World η Unit,
        Leads m u → Audited u) ∧
      ∀ (u : World η σ) (c : RegistryHistory.Call η β), ∃ news,
        trail (RegistryHistory.perform assemble u c).2.journal = trail u.journal ++ news ∧
          news.length = if tellsChange (RegistryHistory.perform assemble u c).1 then 1 else 0 := by
  intro w
  have hrun : Leads (Host.initial settings own) w := leads_run assemble hb settings.fatalErrors _ _
  refine ⟨audited_of_leads hrun, fun p r m hm u hu => ?_, fun u c => trail_perform assemble u c⟩
  have hmoment := (leads_request hb settings.fatalErrors p w r).2 m hm
  exact audited_of_leads ((hrun.trans hmoment).trans hu)

/-- A hook that removes another, dispatches to a third, which registers something, and registers
anew what it has removed. -/
def meddling : HookObject :=
  ⟨0, .scripted (some [.unregister "b", .dispatch ["c"], .register "b" "still"]) none none⟩

def adding : HookObject := ⟨1, .scripted (some [.register "d" "still"]) none none⟩

def still : HookObject := ⟨2, .silent []⟩

/-- Registrations, one of them refused, a removal of nothing, and a dispatch to the first hook. -/
def meddledWith : List (Operation HookObject Unit) :=
  [.call (.change (.register "a" meddling)), .call (.registerFns "b" none none),
    .call (.change (.unregister "z")), .call (.change (.register "c" adding)),
    .call (.change (.register "a" adding)), .dispatch ⟨.random 0, "x", {}, ["a"], .epoch⟩ .begin]

theorem trail_tells_keys_meddled :
    BySteps (HookObject.behaviour true 1) ∧
      ∃ w, w = run (fun _ _ => still) (HookObject.behaviour true 1) true
          (Host.initial ⟨.reject, true⟩ { named := [("still", still)] }) meddledWith ∧
        replay (trail w.journal) = ["a", "c", "d", "b"] ∧
        w.registry.keys = ["a", "c", "d", "b"] := by
  have hb := bySteps_behaviour true 1
  have hreplay : replay (trail (run (fun _ _ => still) (HookObject.behaviour true 1) true
      (Host.initial ⟨.reject, true⟩ { named := [("still", still)] }) meddledWith).journal) =
      ["a", "c", "d", "b"] := by decide +kernel
  obtain ⟨haudited, _⟩ := trail_tells_keys (fun _ _ => still) (HookObject.behaviour true 1) hb
    ⟨.reject, true⟩ { named := [("still", still)] } meddledWith
  exact ⟨hb, _, rfl, hreplay, haudited.keys_eq.trans hreplay⟩

end PatternHooks.RegistryTrail
