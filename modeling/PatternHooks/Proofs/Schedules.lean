import Mathlib.Data.List.Induction
import Mathlib.Logic.Function.Basic
import PatternHooks.Proofs.Turns

/-!
Schedules of works that share a world. Any of them may take the next turn, for any number of times.
A work is steady when each of its turns finds in every world what it needs, goes on in one way, and
adds to some logs what it adds in every world. Whatever the schedule, steady works come as far as
they would alone with the same number of turns, and the logs shuffle what each of them adds.
-/

namespace PatternHooks.Schedules

open Turns

variable {n : ℕ} {ι ω α β γ : Type}

/-- Works at one world. -/
structure Crew (n : ℕ) (ω α : Type) where
  world : ω
  works : Fin n → Work ω α

/-- The next turn is that of one of the works. A work that is done lets it pass. -/
def Crew.take (c : Crew n ω α) (j : Fin n) : Crew n ω α :=
  match c.works j with
  | .done _ => c
  | .turn act next => ⟨act c.world, Function.update c.works j (next c.world)⟩

def Crew.play (c : Crew n ω α) (schedule : List (Fin n)) : Crew n ω α := schedule.foldl take c

/-- What one of the parts has put into a list. -/
def share (j : Fin n) (tagged : List (Fin n × γ)) : List γ :=
  (tagged.filter (·.1 = j)).map Prod.snd

/-- Each element of the list is of one of the parts, and the list has all elements of each part in
the order in which they stand there. -/
def Shuffles (parts : Fin n → List γ) (whole : List γ) : Prop :=
  ∃ tagged : List (Fin n × γ), tagged.map Prod.snd = whole ∧ ∀ j, share j tagged = parts j

theorem share_append (j : Fin n) (xs ys : List (Fin n × γ)) :
    share j (xs ++ ys) = share j xs ++ share j ys := by
  rw [share, List.filter_append, List.map_append, share, share]

theorem share_own (j : Fin n) (xs : List γ) : share j (xs.map (Prod.mk j)) = xs := by
  have hall : (xs.map (Prod.mk j)).filter (·.1 = j) = xs.map (Prod.mk j) :=
    List.filter_eq_self.mpr (List.forall_mem_map.mpr fun x _ => decide_eq_true rfl)
  rw [share, hall, List.map_map]
  exact List.map_id xs

theorem share_other {j k : Fin n} (hne : k ≠ j) (xs : List γ) :
    share j (xs.map (Prod.mk k)) = [] := by
  have hnone : (xs.map (Prod.mk k)).filter (·.1 = j) = [] :=
    List.filter_eq_nil_iff.mpr (List.forall_mem_map.mpr fun x _ => by simpa using hne)
  rw [share, hnone, List.map_nil]

/-- In worlds with the property `K` the turns add to the logs what is listed for them, and the work
ends with `a`. -/
inductive Steady (K : ω → Prop) (log : ι → ω → List γ) :
    Work ω α → List (ι → List γ) → α → Prop
  | done (a : α) : Steady K log (.done a) [] a
  | turn {act : ω → ω} {next : ω → Work ω α} {gain : ι → List γ} {x : Work ω α}
      {gains : List (ι → List γ)} {a : α}
      (hact : ∀ w, K w → K (act w) ∧ ∀ i, log i (act w) = log i w ++ gain i)
      (hnext : ∀ w, K w → next w = x) (hrest : Steady K log x gains a) :
      Steady K log (.turn act next) (gain :: gains) a

section Steady
variable {K : ω → Prop} {log : ι → ω → List γ} {x : Work ω α} {gains : List (ι → List γ)} {a : α}

/-- A turn that adds nothing to the logs. -/
theorem Steady.idle {act : ω → ω} {next : ω → Work ω α}
    (hact : ∀ w, K w → K (act w) ∧ ∀ i, log i (act w) = log i w) (hnext : ∀ w, K w → next w = x)
    (hrest : Steady K log x gains a) :
    Steady K log (.turn act next) ((fun _ => []) :: gains) a := by
  refine .turn (fun w hw => ⟨(hact w hw).1, fun i => ?_⟩) hnext hrest
  rw [(hact w hw).2 i, List.append_nil]

theorem Steady.bind {k : α → Work ω β} {gains' : List (ι → List γ)} {b : β}
    (h : Steady K log x gains a) (hk : Steady K log (k a) gains' b) :
    Steady K log (x.bind k) (gains ++ gains') b := by
  induction h with
  | done a => exact hk
  | turn hact hnext hrest ih =>
    exact .turn hact (fun w hw => congrArg (·.bind k) (hnext w hw)) (ih hk)

theorem Steady.run (h : Steady K log x gains a) {w : ω} (hw : K w) :
    ∃ w', x.run w = (a, w') ∧ ∀ i, log i w' = log i w ++ gains.flatMap (· i) := by
  induction h generalizing w with
  | done a => exact ⟨w, rfl, fun i => (List.append_nil _).symm⟩
  | @turn act next gain x gains a hact hnext hrest ih =>
    obtain ⟨hkept, hgain⟩ := hact w hw
    obtain ⟨w', hrun, hlog⟩ := ih hkept
    refine ⟨w', ?_, fun i => ?_⟩
    · rw [Work.run, hnext w hw, hrun]
    · rw [hlog i, hgain i, List.flatMap_cons, List.append_assoc]

theorem Steady.turns (h : Steady K log x gains a) {w : ω} (hw : K w) :
    x.turns w = gains.length := by
  induction h generalizing w with
  | done a => rfl
  | turn hact hnext hrest ih => rw [Work.turns, hnext w hw, ih (hact w hw).1, List.length_cons]

theorem Steady.done_iff (h : Steady K log x gains a) (b : α) :
    x = .done b ↔ gains = [] ∧ b = a := by
  cases h with
  | done a =>
    constructor
    · rintro ⟨⟩
      exact ⟨rfl, rfl⟩
    · rintro ⟨-, rfl⟩
      rfl
  | turn hact hnext hrest => simp

end Steady

/-- What the turns that a schedule gives to a work add to a log. -/
def earned (gains : Fin n → List (ι → List γ)) (schedule : List (Fin n)) (i : ι) (j : Fin n) :
    List γ :=
  ((gains j).take (schedule.count j)).flatMap (· i)

/-- How far works have come under a schedule that began in the world `w`. -/
structure Progress (K : ω → Prop) (log : ι → ω → List γ) (gains : Fin n → List (ι → List γ))
    (results : Fin n → α) (w : ω) (schedule : List (Fin n)) (c : Crew n ω α) : Prop where
  world : K c.world
  works : ∀ j, Steady K log (c.works j) ((gains j).drop (schedule.count j)) (results j)
  logs : ∀ i, ∃ added, log i c.world = log i w ++ added ∧ Shuffles (earned gains schedule i) added

theorem count_append_self (schedule : List (Fin n)) (j : Fin n) :
    (schedule ++ [j]).count j = schedule.count j + 1 := by
  rw [List.count_append, List.count_singleton_self]

theorem count_append_other (schedule : List (Fin n)) {j k : Fin n} (hne : k ≠ j) :
    (schedule ++ [j]).count k = schedule.count k := by
  rw [List.count_append, List.count_singleton, if_neg (by simpa using Ne.symm hne), Nat.add_zero]

section Progress
variable {K : ω → Prop} {log : ι → ω → List γ} {gains : Fin n → List (ι → List γ)}
  {results : Fin n → α} {w : ω} {schedule : List (Fin n)} {c : Crew n ω α} {j k : Fin n}

theorem earned_other (gains : Fin n → List (ι → List γ)) (schedule : List (Fin n)) (i : ι)
    (hne : k ≠ j) : earned gains (schedule ++ [j]) i k = earned gains schedule i k := by
  rw [earned, count_append_other schedule hne, earned]

/-- One more turn adds the first of the gains that are left. -/
theorem earned_own {gain : ι → List γ} {rest : List (ι → List γ)} (i : ι)
    (hleft : (gains j).drop (schedule.count j) = gain :: rest) :
    earned gains (schedule ++ [j]) i j = earned gains schedule i j ++ gain i := by
  have hfirst : (gains j)[schedule.count j]? = some gain := by
    rw [← List.head?_drop, hleft, List.head?_cons]
  rw [earned, count_append_self, List.take_add_one, hfirst, List.flatMap_append, earned,
    Option.toList_some, List.flatMap_singleton]

theorem earned_of_length_le (i : ι) (hall : (gains j).length ≤ schedule.count j) :
    earned gains schedule i j = (gains j).flatMap (· i) := by
  rw [earned, List.take_of_length_le hall]

theorem earned_prefix (gains : Fin n → List (ι → List γ)) (schedule : List (Fin n)) (i : ι)
    (j : Fin n) : earned gains schedule i j <+: (gains j).flatMap (· i) :=
  ⟨((gains j).drop (schedule.count j)).flatMap (· i), by
    rw [earned, ← List.flatMap_append, List.take_append_drop]⟩

theorem progress_start {works : Fin n → Work ω α} (hw : K w)
    (hworks : ∀ j, Steady K log (works j) (gains j) (results j)) :
    Progress K log gains results w [] ⟨w, works⟩ where
  world := hw
  works := hworks
  logs _ := ⟨[], (List.append_nil _).symm, [], rfl, fun _ => rfl⟩

/-- A turn of a work that is done changes nothing. -/
theorem Progress.pass (h : Progress K log gains results w schedule c)
    (hdone : (gains j).drop (schedule.count j) = []) :
    Progress K log gains results w (schedule ++ [j]) c := by
  rw [List.drop_eq_nil_iff] at hdone
  have hmore : (gains j).length ≤ (schedule ++ [j]).count j := by
    rw [count_append_self]
    omega
  refine ⟨h.world, fun k => ?_, fun i => ?_⟩
  · by_cases hk : k = j
    · subst hk
      have hwork := h.works k
      rw [List.drop_of_length_le hdone] at hwork
      rw [List.drop_of_length_le hmore]
      exact hwork
    · rw [count_append_other schedule hk]
      exact h.works k
  · have hsame : earned gains (schedule ++ [j]) i = earned gains schedule i := by
      funext k
      by_cases hk : k = j
      · subst hk
        rw [earned_of_length_le i hmore, earned_of_length_le i hdone]
      · exact earned_other gains schedule i hk
    rw [hsame]
    exact h.logs i

/-- A turn takes the first of the gains that are left to a work, and leaves the others theirs. -/
theorem Progress.advance (h : Progress K log gains results w schedule c)
    {act : ω → ω} {next : ω → Work ω α} {gain : ι → List γ} {x : Work ω α}
    {rest : List (ι → List γ)} (hleft : (gains j).drop (schedule.count j) = gain :: rest)
    (hact : ∀ w, K w → K (act w) ∧ ∀ i, log i (act w) = log i w ++ gain i)
    (hnext : ∀ w, K w → next w = x) (hrest : Steady K log x rest (results j)) :
    Progress K log gains results w (schedule ++ [j])
      ⟨act c.world, Function.update c.works j (next c.world)⟩ := by
  obtain ⟨hkept, hgain⟩ := hact c.world h.world
  refine ⟨hkept, fun k => ?_, fun i => ?_⟩
  · change Steady K log (Function.update c.works j (next c.world) k) _ _
    by_cases hk : k = j
    · subst hk
      have hdrop : (gains k).drop (schedule.count k + 1) = rest := by
        rw [← List.tail_drop, hleft, List.tail_cons]
      rw [Function.update_self, count_append_self, hdrop, hnext c.world h.world]
      exact hrest
    · rw [Function.update_of_ne hk, count_append_other schedule hk]
      exact h.works k
  · obtain ⟨added, hlog, tagged, hadded, hparts⟩ := h.logs i
    refine ⟨added ++ gain i, ?_, tagged ++ (gain i).map (Prod.mk j), ?_, fun k => ?_⟩
    · rw [hgain i, hlog, List.append_assoc]
    · rw [List.map_append, hadded, List.map_map]
      exact congrArg (added ++ ·) (List.map_id _)
    · rw [share_append, hparts k]
      by_cases hk : k = j
      · subst hk
        rw [share_own, earned_own i hleft]
      · rw [share_other (Ne.symm hk), earned_other gains schedule i hk, List.append_nil]

theorem Progress.take (h : Progress K log gains results w schedule c) (j : Fin n) :
    Progress K log gains results w (schedule ++ [j]) (c.take j) := by
  have hwork := h.works j
  unfold Crew.take
  cases hx : c.works j with
  | done a =>
    rw [hx] at hwork
    generalize hleft : (gains j).drop (schedule.count j) = left at hwork
    cases hwork
    exact h.pass hleft
  | turn act next =>
    rw [hx] at hwork
    generalize hleft : (gains j).drop (schedule.count j) = left at hwork
    cases hwork with
    | turn hact hnext hrest => exact h.advance hleft hact hnext hrest

/-- Steady works make the same progress under any schedule, as far as it gives them turns. -/
theorem progress_play {works : Fin n → Work ω α} (hw : K w)
    (hworks : ∀ j, Steady K log (works j) (gains j) (results j)) (schedule : List (Fin n)) :
    Progress K log gains results w schedule ((⟨w, works⟩ : Crew n ω α).play schedule) := by
  induction schedule using List.reverseRecOn with
  | nil => exact progress_start hw hworks
  | append_singleton schedule j ih =>
    rw [Crew.play, List.foldl_append]
    exact ih.take j

theorem Progress.done_iff (h : Progress K log gains results w schedule c) (j : Fin n) (b : α) :
    c.works j = .done b ↔ (gains j).length ≤ schedule.count j ∧ b = results j := by
  rw [(h.works j).done_iff, List.drop_eq_nil_iff]

end Progress

end PatternHooks.Schedules
