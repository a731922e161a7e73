import Mathlib

/-!
# Histories

A history is a list of events, the latest one last. A law on histories says of every
event what must have come before it; it can be checked as the history grows, and bounds
on how often something happens follow from it.

## Main definitions

* `Justified P log` — every event of `log` satisfies `P` with the events before it.
* `Justified.length_filterMap_le` — events that need fewer than `n` of their kind before
  them occur at most `n` times.
-/

namespace ZephyrVox.History

universe u v

variable {E : Type u} {β : Type v} {P : List E → E → Prop} {log : List E}

/-- Every event satisfies `P` with the events before it. -/
def Justified (P : List E → E → Prop) (log : List E) : Prop :=
  ∀ before e after, log = before ++ e :: after → P before e

theorem justified_nil : Justified P [] := by
  intro before e after h
  cases before <;> cases h

/-- A history that grows by a justified event. -/
theorem Justified.snoc (h : Justified P log) {e : E} (he : P log e) :
    Justified P (log ++ [e]) := by
  intro before e' after heq
  rcases List.eq_nil_or_concat after with rfl | ⟨after, last, rfl⟩
  · obtain ⟨rfl, hlast⟩ := List.append_inj' heq rfl
    obtain rfl : e = e' := by simpa using hlast
    exact he
  · rw [List.concat_eq_append, ← List.cons_append, ← List.append_assoc] at heq
    exact h before e' after (List.append_inj' heq rfl).1

/-- The law holds of every part of a history that has passed. -/
theorem Justified.of_append {rest : List E} (h : Justified P (log ++ rest)) : Justified P log := by
  intro before e after heq
  refine h before e (after ++ rest) ?_
  rw [heq, List.append_assoc, List.cons_append]

/-- Events that need fewer than `n` of their kind before them occur at most `n` times. -/
theorem Justified.length_filterMap_le {f : E → Option β} {n : ℕ} (h : Justified P log)
    (hP : ∀ before e b, P before e → f e = some b → (before.filterMap f).length < n) :
    (log.filterMap f).length ≤ n := by
  induction log using List.reverseRecOn with
  | nil => simp
  | append_singleton log e ih =>
      have hlog := ih h.of_append
      rw [List.filterMap_append, List.length_append]
      cases he : f e with
      | none => simpa [he] using hlog
      | some b =>
          have hlt := hP log e b (h log e [] (by simp)) he
          simpa [he] using hlt

end ZephyrVox.History
