import Mathlib

/-!
# Messages that need what was given before

A message needs some knowledge of its reader and gives it some. Knowledge is an
element of a join-semilattice. Messages on their way to a reader are supplied at
what it knows when none of them needs more than the reader knows by the time it
takes it; then any reader that knows more can take them too.

## Main definitions

* `reach gives r ms` — what a reader that knows `r` knows after the messages `ms`.
* `Supplied needs gives r ms` — each message needs at most what is known when it comes.
* `Supplied.taken` — the rest stays supplied for a reader that took the first message,
  or learned more otherwise.
-/

namespace ZephyrVox.Supply

universe u v

variable {M : Type u} {L : Type v} [SemilatticeSup L] {needs gives : M → L} {r r' : L}
  {m : M} {ms ns : List M}

/-- What is known after some messages. -/
def reach (gives : M → L) (r : L) (ms : List M) : L := ms.foldl (fun r m => r ⊔ gives m) r

/-- Each message needs at most what is known when it comes. -/
def Supplied (needs gives : M → L) : L → List M → Prop
  | _, [] => True
  | r, m :: ms => needs m ≤ r ∧ Supplied needs gives (r ⊔ gives m) ms

@[simp] theorem reach_nil (r : L) : reach gives r [] = r := rfl

@[simp] theorem reach_cons (r : L) (m : M) (ms : List M) :
    reach gives r (m :: ms) = reach gives (r ⊔ gives m) ms := rfl

theorem reach_append (r : L) (ms ns : List M) :
    reach gives r (ms ++ ns) = reach gives (reach gives r ms) ns := List.foldl_append

/-- Nothing is forgotten. -/
theorem le_reach (r : L) (ms : List M) : r ≤ reach gives r ms := by
  induction ms generalizing r with
  | nil => exact le_rfl
  | cons m ms ih => exact le_sup_left.trans (ih _)

/-- A reader that knows more ends with more. -/
theorem reach_mono (h : r ≤ r') (ms : List M) : reach gives r ms ≤ reach gives r' ms := by
  induction ms generalizing r r' with
  | nil => exact h
  | cons m ms ih => exact ih (sup_le_sup_right h _)

/-- What each message gives is known in the end. -/
theorem gives_le_reach (r : L) (h : m ∈ ms) : gives m ≤ reach gives r ms := by
  induction ms generalizing r with
  | nil => cases h
  | cons n ms ih =>
      rcases List.mem_cons.mp h with rfl | h
      · exact le_sup_right.trans (le_reach _ _)
      · exact ih _ h

/-- What holds of the knowledge at the start and is kept by each message holds in the
end. -/
theorem reach_induct {P : L → Prop} (hr : P r) (h : ∀ m ∈ ms, ∀ r, P r → P (r ⊔ gives m)) :
    P (reach gives r ms) := by
  induction ms generalizing r with
  | nil => exact hr
  | cons m ms ih =>
      exact ih (h m List.mem_cons_self r hr) fun n hn => h n (List.mem_cons_of_mem _ hn)

/-- Messages give no more than a bound of them all. -/
theorem reach_le {b : L} (hr : r ≤ b) (h : ∀ m ∈ ms, gives m ≤ b) : reach gives r ms ≤ b :=
  reach_induct (P := fun known => known ≤ b) hr fun m hm _ hknown => sup_le hknown (h m hm)

theorem supplied_cons :
    Supplied needs gives r (m :: ms) ↔ needs m ≤ r ∧ Supplied needs gives (r ⊔ gives m) ms :=
  Iff.rfl

/-- What suffices for a reader suffices for one that knows more. -/
theorem Supplied.mono (H : Supplied needs gives r ms) (h : r ≤ r') :
    Supplied needs gives r' ms := by
  induction ms generalizing r r' with
  | nil => trivial
  | cons m ms ih => exact ⟨H.1.trans h, ih H.2 (sup_le_sup_right h _)⟩

theorem supplied_append :
    Supplied needs gives r (ms ++ ns) ↔
      Supplied needs gives r ms ∧ Supplied needs gives (reach gives r ms) ns := by
  induction ms generalizing r with
  | nil => exact (and_iff_right trivial).symm
  | cons m ms ih => rw [List.cons_append, supplied_cons, supplied_cons, ih, and_assoc, reach_cons]

/-- One more message. -/
theorem Supplied.snoc (H : Supplied needs gives r ms) (h : needs m ≤ reach gives r ms) :
    Supplied needs gives r (ms ++ [m]) := supplied_append.mpr ⟨H, h, trivial⟩

/-- The reader took the first message, or learned more than that otherwise. -/
theorem Supplied.taken (H : Supplied needs gives r (m :: ms)) (h : r ⊔ gives m ≤ r') :
    Supplied needs gives r' ms ∧ reach gives r (m :: ms) ≤ reach gives r' ms :=
  ⟨H.2.mono h, reach_mono h ms⟩

end ZephyrVox.Supply
