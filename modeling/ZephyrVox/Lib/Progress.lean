import ZephyrVox.Lib.Transition

/-!
# Runs that come to an end

Tasks share a state. An action is a move of one task, or of something that serves
them. What a task has left to do is a number that each of its own moves makes smaller
and that no other action makes larger. Then a task makes only so many moves, and if
from every state with work left the actions can lead to less of it, every state is on
its way to one without any.

## Main definitions

* `Advances` — the actions that go on, and what they do to the work left.
* `guarded` — the steps that a guard lets through.
* `Advances.countP_le` — a task moves at most as often as its work left says.
* `Advances.completes` — if no task gets stuck, all of them can finish.
-/

namespace ZephyrVox.Transition

universe u v w

variable {σ : Type u} {α : Type v} {ι : Type w} {step : σ → α → Option σ}

/-- Going on makes the work left of the task that moves smaller and that of no other
task larger, in all states that satisfy an invariant. -/
structure Advances (step : σ → α → Option σ) (Inv : σ → Prop) (task : α → Option ι)
    (goesOn : α → Prop) (left : σ → ι → ℕ) : Prop where
  kept : ∀ s a t, Inv s → step s a = some t → Inv t
  less : ∀ s a t i, Inv s → goesOn a → task a = some i → step s a = some t → left t i < left s i
  others : ∀ s a t i, Inv s → goesOn a → task a ≠ some i → step s a = some t →
    left t i ≤ left s i

/-- From `s` going on leads to less work for some task. -/
def Lessens (step : σ → α → Option σ) (goesOn : α → Prop) (left : σ → ι → ℕ) (s : σ) : Prop :=
  ∃ (as : List α) (t : σ), (∀ a ∈ as, goesOn a) ∧ exec step s as = some t ∧
    ∃ i, left t i < left s i

/-- The steps that a guard lets through. -/
def guarded (step : σ → α → Option σ) (guard : σ → α → Bool) (s : σ) (a : α) : Option σ :=
  if guard s a then step s a else none

theorem guarded_eq_some {guard : σ → α → Bool} {s t : σ} {a : α}
    (h : guarded step guard s a = some t) : guard s a = true ∧ step s a = some t :=
  Option.ite_none_right_eq_some.mp h

/-- A guarded run is a run, and its actions passed the guard. -/
theorem exec_of_guarded {guard : σ → α → Bool} {P : α → Prop}
    (hguard : ∀ s a, guard s a = true → P a) {s t : σ} {as : List α}
    (h : exec (guarded step guard) s as = some t) :
    exec step s as = some t ∧ ∀ a ∈ as, P a := by
  induction as generalizing s with
  | nil => exact ⟨h, by simp⟩
  | cons a as ih =>
      obtain ⟨m, hm, h⟩ := Option.bind_eq_some_iff.mp h
      obtain ⟨hpass, hstep⟩ := guarded_eq_some hm
      obtain ⟨hrun, hall⟩ := ih h
      refine ⟨by rw [exec_cons, hstep]; exact hrun, fun b hb => ?_⟩
      rcases List.mem_cons.mp hb with rfl | hb
      · exact hguard s b hpass
      · exact hall b hb

namespace Advances

variable {Inv : σ → Prop} {task : α → Option ι} {goesOn : α → Prop} {left : σ → ι → ℕ}

/-- No step that goes on gives a task more to do. -/
theorem left_le (A : Advances step Inv task goesOn left) {s t : σ} {a : α} (hs : Inv s)
    (ha : goesOn a) (h : step s a = some t) (i : ι) : left t i ≤ left s i := by
  by_cases hi : task a = some i
  · exact (A.less s a t i hs ha hi h).le
  · exact A.others s a t i hs ha hi h

theorem exec_le (A : Advances step Inv task goesOn left) {s t : σ} {as : List α} (hs : Inv s)
    (has : ∀ a ∈ as, goesOn a) (h : exec step s as = some t) :
    Inv t ∧ ∀ i, left t i ≤ left s i := by
  induction as generalizing s with
  | nil =>
      cases h
      exact ⟨hs, fun i => le_rfl⟩
  | cons a as ih =>
      obtain ⟨m, hm, h⟩ := Option.bind_eq_some_iff.mp h
      obtain ⟨ht, hle⟩ := ih (A.kept s a m hs hm) (fun b hb => has b (List.mem_cons_of_mem _ hb)) h
      exact ⟨ht, fun i => (hle i).trans (A.left_le hs (has a List.mem_cons_self) hm i)⟩

/-- **A task moves at most as often as its work left says**, whatever the others do
meanwhile. -/
theorem countP_le [DecidableEq ι] (A : Advances step Inv task goesOn left) {s t : σ}
    {as : List α} (hs : Inv s) (has : ∀ a ∈ as, goesOn a) (h : exec step s as = some t) (i : ι) :
    as.countP (task · = some i) + left t i ≤ left s i := by
  induction as generalizing s with
  | nil =>
      cases h
      simp
  | cons a as ih =>
      obtain ⟨m, hm, h⟩ := Option.bind_eq_some_iff.mp h
      have ha : goesOn a := has a List.mem_cons_self
      have hrest := ih (A.kept s a m hs hm) (fun b hb => has b (List.mem_cons_of_mem _ hb)) h
      rw [List.countP_cons]
      by_cases hi : task a = some i
      · have hless := A.less s a m i hs ha hi hm
        simp only [hi, decide_true, if_true]
        omega
      · have hsame := A.others s a m i hs ha hi hm
        simp only [hi, decide_false, Bool.false_eq_true, if_false]
        omega

/-- A move of a task is less work for it. -/
theorem lessens (A : Advances step Inv task goesOn left) {s t : σ} {a : α} {i : ι} (hs : Inv s)
    (ha : goesOn a) (hi : task a = some i) (h : step s a = some t) :
    Lessens step goesOn left s :=
  ⟨[a], t, by simpa using ha, by simp [h], i, A.less s a t i hs ha hi h⟩

/-- **All tasks can finish**, if going on lessens the work while any is left, and only
the tasks of a finite set have any. -/
theorem completes (A : Advances step Inv task goesOn left)
    (hprogress : ∀ s i, Inv s → 0 < left s i → Lessens step goesOn left s)
    (tasks : Finset ι) {s : σ} (hs : Inv s) (htasks : ∀ i, i ∉ tasks → left s i = 0) :
    ∃ as t, (∀ a ∈ as, goesOn a) ∧ exec step s as = some t ∧ ∀ i, left t i = 0 := by
  -- by induction on the work left of all tasks together
  induction hn : ∑ i ∈ tasks, left s i using Nat.strong_induction_on generalizing s with
  | _ n ih =>
      by_cases hrest : ∀ i, left s i = 0
      · exact ⟨[], s, by simp, rfl, hrest⟩
      · obtain ⟨i, hi⟩ := not_forall.mp hrest
        obtain ⟨as, m, has, hm, j, hless⟩ := hprogress s i hs (Nat.pos_of_ne_zero hi)
        obtain ⟨hinv, hle⟩ := A.exec_le hs has hm
        have hmem : j ∈ tasks := by
          by_contra hout
          rw [htasks j hout] at hless
          exact absurd hless (Nat.not_lt_zero _)
        have hsum : ∑ j ∈ tasks, left m j < n := by
          rw [← hn]
          exact Finset.sum_lt_sum (fun j _ => hle j) ⟨j, hmem, hless⟩
        have hout : ∀ j, j ∉ tasks → left m j = 0 := by
          intro j hj
          exact Nat.le_zero.mp ((hle j).trans (htasks j hj).le)
        obtain ⟨bs, t, hbs, ht, hleft⟩ := ih _ hsum hinv hout rfl
        refine ⟨as ++ bs, t, fun b hb => ?_, by rw [exec_append, hm]; exact ht, hleft⟩
        rcases List.mem_append.mp hb with hb | hb
        · exact has b hb
        · exact hbs b hb

end Advances

end ZephyrVox.Transition
