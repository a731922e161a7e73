import Mathlib

/-!
# Tasks that share a mutex

Any number of tasks, each at a program counter, and one mutex. Which counters
lie between acquiring and releasing is a predicate `holds`; `Exclusive` says that
the mutex names exactly the task at such a counter. A fact about the shared
state that a task relies on while it holds the mutex survives every step of the
other tasks, because none of them is at a counter that holds it.

## Main definitions

* `Tasks ι π` — the holder of the mutex and the counter of each task.
* `Tasks.goto`, `Tasks.acquire`, `Tasks.release` — the moves of one task.
* `Tasks.Exclusive` — the mutual exclusion invariant, kept by the three moves
  (`Exclusive.move`).
* `Tasks.forall_of_holder` — facts held under the mutex are those of one task.
-/

namespace ZephyrVox.Gate

universe u v

variable {ι : Type u} {π : Type v}

/-- The holder of a mutex and the program counter of every task. -/
structure Tasks (ι : Type u) (π : Type v) where
  holder : Option ι
  pc : ι → π

namespace Tasks

/-- The mutex names exactly the task whose counter holds it. -/
def Exclusive (holds : π → Prop) (t : Tasks ι π) : Prop :=
  ∀ i, t.holder = some i ↔ holds (t.pc i)

variable {holds : π → Prop} {t : Tasks ι π} {i : ι} {p : π}

/-- While one task holds the mutex, no other does. -/
theorem Exclusive.others (h : t.Exclusive holds) (hi : holds (t.pc i)) :
    ∀ j, j ≠ i → ¬ holds (t.pc j) := by
  intro j hne hj
  have hiq := (h i).mpr hi
  have hjq := (h j).mpr hj
  rw [hiq] at hjq
  exact hne (Option.some.inj hjq).symm

/-- While the mutex is free, no task holds it. -/
theorem Exclusive.free (h : t.Exclusive holds) (hn : t.holder = none) (j : ι) :
    ¬ holds (t.pc j) := by
  intro hj
  rw [(h j).mpr hj] at hn
  cases hn

variable [DecidableEq ι]

/-- Move one task without touching the mutex. -/
def goto (t : Tasks ι π) (i : ι) (p : π) : Tasks ι π :=
  { t with pc := Function.update t.pc i p }

/-- Move one task into the mutex, if it is free. -/
def acquire (t : Tasks ι π) (i : ι) (p : π) : Option (Tasks ι π) :=
  match t.holder with
  | none => some { holder := some i, pc := Function.update t.pc i p }
  | some _ => none

/-- Move one task out of the mutex. -/
def release (t : Tasks ι π) (i : ι) (p : π) : Tasks ι π :=
  { holder := none, pc := Function.update t.pc i p }

@[simp] theorem pc_goto_self (t : Tasks ι π) (i : ι) (p : π) : (t.goto i p).pc i = p := by
  simp [goto]

@[simp] theorem pc_release_self (t : Tasks ι π) (i : ι) (p : π) :
    (t.release i p).pc i = p := by
  simp [release]

theorem pc_goto_of_ne (t : Tasks ι π) {i j : ι} (p : π) (h : j ≠ i) :
    (t.goto i p).pc j = t.pc j := by
  simp [goto, h]

theorem pc_release_of_ne (t : Tasks ι π) {i j : ι} (p : π) (h : j ≠ i) :
    (t.release i p).pc j = t.pc j := by
  simp [release, h]

/-- What acquiring does: the mutex was free, and the task moved into it. -/
theorem acquire_eq_some {t t' : Tasks ι π} {i : ι} {p : π} (h : t.acquire i p = some t') :
    t.holder = none ∧ t'.holder = some i ∧ t'.pc = Function.update t.pc i p := by
  unfold acquire at h
  cases hh : t.holder with
  | none =>
      simp only [hh, Option.some.injEq] at h
      subst h
      exact ⟨rfl, rfl, rfl⟩
  | some j => simp [hh] at h

theorem Exclusive.acquire {t' : Tasks ι π} (h : t.Exclusive holds)
    (ha : t.acquire i p = some t') (hp : holds p) : t'.Exclusive holds := by
  obtain ⟨hnone, hholder, hpc⟩ := acquire_eq_some ha
  intro j
  rw [hholder, hpc]
  by_cases hj : j = i
  · subst hj
    simpa using hp
  · simp only [Function.update_of_ne hj, Option.some.injEq, Ne.symm hj, false_iff]
    exact h.free hnone j

theorem Exclusive.release (h : t.Exclusive holds) (hi : holds (t.pc i)) (hp : ¬ holds p) :
    (t.release i p).Exclusive holds := by
  intro j
  by_cases hj : j = i
  · subst hj
    simpa [Tasks.release] using hp
  · rw [pc_release_of_ne t p hj]
    simpa [Tasks.release] using h.others hi j hj

/-- A move that neither enters nor leaves the mutex. -/
theorem Exclusive.goto (h : t.Exclusive holds) (hp : holds p ↔ holds (t.pc i)) :
    (t.goto i p).Exclusive holds := by
  intro j
  by_cases hj : j = i
  · subst hj
    rw [pc_goto_self]
    exact (h j).trans hp.symm
  · rw [pc_goto_of_ne t p hj]
    exact h j

/-- One task moves, and the mutex is kept, taken while free, or released by it. -/
theorem Exclusive.move {t' : Tasks ι π} (h : t.Exclusive holds)
    (hpc : t'.pc = Function.update t.pc i p)
    (hmove : (t'.holder = t.holder ∧ (holds p ↔ holds (t.pc i))) ∨
      (t.holder = none ∧ t'.holder = some i ∧ holds p) ∨
      (holds (t.pc i) ∧ t'.holder = none ∧ ¬ holds p)) : t'.Exclusive holds := by
  obtain ⟨holder, pc⟩ := t'
  subst hpc
  rcases hmove with ⟨rfl, hp⟩ | ⟨hfree, rfl, hp⟩ | ⟨hi, rfl, hp⟩
  · exact h.goto hp
  · have hacquire : t.acquire i p = some ⟨some i, Function.update t.pc i p⟩ := by
      simp [Tasks.acquire, hfree]
    exact h.acquire hacquire hp
  · exact h.release hi hp

/-- A property of counters that is trivial outside the mutex holds of every task
when it holds of the one inside. -/
theorem forall_of_holder {Q : π → Prop} (htrivial : ∀ q, ¬ holds q → Q q)
    (hothers : ∀ j, j ≠ i → ¬ holds (t.pc j)) {pc : ι → π} (hpc : pc = Function.update t.pc i p)
    (hp : Q p) : ∀ j, Q (pc j) := by
  intro j
  subst hpc
  by_cases hj : j = i
  · subst hj
    simpa using hp
  · rw [Function.update_of_ne hj]
    exact htrivial _ (hothers j hj)

end Tasks

end ZephyrVox.Gate
