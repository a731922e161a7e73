import Mathlib

/-!
# Duplicate suppression with a window

Labelled messages arrive in some order, late ones and copies among them. A
receiver takes a message if its label is new and less than `width` behind every
label it took. It keeps no more than that: a message it once refused for being
late may not come back, since what it took never gets less.

Which labels are taken depends on the arrivals alone: a label is taken exactly if
it arrives before every label that is `width` or more ahead of it.

## Main definitions

* `Admits width seen n` — a receiver that took `seen` takes `n`.
* `admitted width arrivals` — the labels taken from a list of arrivals, oldest first.
* `mem_admitted_iff` — the labels taken, in terms of the arrivals.
* `Timely width arrivals` — nothing arrives `width` or more behind an earlier arrival.
-/

namespace ZephyrVox.Window

variable {width n : ℕ} {arrivals later : List ℕ}

/-- A receiver that took the labels `seen` takes `n`: it is new, and less than
`width` behind each of them. -/
def Admits (width : ℕ) (seen : List ℕ) (n : ℕ) : Prop := n ∉ seen ∧ ∀ m ∈ seen, m < n + width

instance (width : ℕ) (seen : List ℕ) (n : ℕ) : Decidable (Admits width seen n) :=
  inferInstanceAs (Decidable (_ ∧ _))

/-- The labels taken after one more arrival. -/
def offer (width : ℕ) (seen : List ℕ) (n : ℕ) : List ℕ :=
  if Admits width seen n then seen ++ [n] else seen

/-- The labels taken from a list of arrivals, oldest first. -/
def admitted (width : ℕ) (arrivals : List ℕ) : List ℕ := arrivals.foldl (offer width) []

/-- Nothing arrives `width` or more behind what arrived before it. -/
def Timely (width : ℕ) (arrivals : List ℕ) : Prop := arrivals.Pairwise fun m n => m < n + width

@[simp] theorem admitted_nil : admitted width [] = [] := rfl

theorem admitted_snoc (arrivals : List ℕ) (n : ℕ) :
    admitted width (arrivals ++ [n]) = offer width (admitted width arrivals) n := by
  simp [admitted]

theorem admitted_snoc_of_admits (h : Admits width (admitted width arrivals) n) :
    admitted width (arrivals ++ [n]) = admitted width arrivals ++ [n] := by
  rw [admitted_snoc, offer, if_pos h]

theorem admitted_snoc_of_not (h : ¬ Admits width (admitted width arrivals) n) :
    admitted width (arrivals ++ [n]) = admitted width arrivals := by
  rw [admitted_snoc, offer, if_neg h]

/-- What is taken is taken in the order of arrival. -/
theorem admitted_sublist (arrivals : List ℕ) : (admitted width arrivals).Sublist arrivals := by
  induction arrivals using List.reverseRecOn with
  | nil => exact List.Sublist.refl _
  | append_singleton arrivals n ih =>
      by_cases h : Admits width (admitted width arrivals) n
      · rw [admitted_snoc_of_admits h]
        exact ih.append (List.Sublist.refl _)
      · rw [admitted_snoc_of_not h]
        exact ih.trans (List.sublist_append_left _ _)

/-- No label is taken twice. -/
theorem nodup_admitted (arrivals : List ℕ) : (admitted width arrivals).Nodup := by
  induction arrivals using List.reverseRecOn with
  | nil => exact List.nodup_nil
  | append_singleton arrivals n ih =>
      by_cases h : Admits width (admitted width arrivals) n
      · rw [admitted_snoc_of_admits h]
        refine List.nodup_append'.mpr ⟨ih, List.nodup_singleton n, ?_⟩
        intro m hm hn
        rw [List.mem_singleton.mp hn] at hm
        exact h.1 hm
      · rw [admitted_snoc_of_not h]
        exact ih

/-- What was taken stays taken. -/
theorem mem_admitted_append (h : n ∈ admitted width arrivals) (later : List ℕ) :
    n ∈ admitted width (arrivals ++ later) := by
  induction later using List.reverseRecOn with
  | nil => simpa using h
  | append_singleton later m ih =>
      rw [← List.append_assoc]
      by_cases hm : Admits width (admitted width (arrivals ++ later)) m
      · rw [admitted_snoc_of_admits hm]
        exact List.mem_append_left _ ih
      · rw [admitted_snoc_of_not hm]
        exact ih

/-- An arrival is taken or is `width` or more behind what is taken. -/
theorem mem_or_stale (h : n ∈ arrivals) :
    n ∈ admitted width arrivals ∨ ∃ m ∈ admitted width arrivals, n + width ≤ m := by
  obtain ⟨before, after, rfl⟩ := List.append_of_mem h
  rw [List.append_cons]
  by_cases hadmits : Admits width (admitted width before) n
  · refine .inl (mem_admitted_append ?_ after)
    rw [admitted_snoc_of_admits hadmits]
    exact List.mem_append_right _ (List.mem_singleton_self n)
  · have hkept : ∀ m ∈ admitted width before, m ∈ admitted width (before ++ [n] ++ after) := by
      intro m hm
      rw [List.append_assoc]
      exact mem_admitted_append hm _
    simp only [Admits, not_and_or, not_not, not_forall, not_lt] at hadmits
    rcases hadmits with hseen | ⟨m, hm, hstale⟩
    · exact .inl (hkept n hseen)
    · exact .inr ⟨m, hkept m hm, hstale⟩

/-- The labels taken reach as far ahead as the arrivals. -/
theorem exists_le_admitted (h : n ∈ arrivals) : ∃ m ∈ admitted width arrivals, n ≤ m := by
  rcases mem_or_stale h with hn | ⟨m, hm, hle⟩
  · exact ⟨n, hn, le_rfl⟩
  · exact ⟨m, hm, Nat.le_of_add_right_le hle⟩

/-- A receiver decides as if it had taken every arrival. -/
theorem admits_admitted_iff :
    Admits width (admitted width arrivals) n ↔ Admits width arrivals n := by
  constructor
  · rintro ⟨hnew, hahead⟩
    refine ⟨?_, ?_⟩
    · intro hn
      rcases mem_or_stale hn with hn | ⟨m, hm, hstale⟩
      · exact hnew hn
      · exact absurd (hahead m hm) (Nat.not_lt.mpr hstale)
    · intro m hm
      obtain ⟨k, hk, hle⟩ := exists_le_admitted hm
      exact Nat.lt_of_le_of_lt hle (hahead k hk)
  · rintro ⟨hnew, hahead⟩
    have hsub := (admitted_sublist arrivals : (admitted width arrivals).Sublist arrivals).subset
    exact ⟨fun hn => hnew (hsub hn), fun m hm => hahead m (hsub hm)⟩

/-- **What is taken**: the labels that arrive before every label `width` or more
ahead of them. -/
theorem mem_admitted_iff :
    n ∈ admitted width arrivals ↔
      ∃ before after, arrivals = before ++ n :: after ∧ Admits width before n := by
  constructor
  · intro h
    induction arrivals using List.reverseRecOn with
    | nil => cases h
    | append_singleton arrivals m ih =>
        by_cases hm : Admits width (admitted width arrivals) m
        · rw [admitted_snoc_of_admits hm] at h
          rcases List.mem_append.mp h with hold | hnew
          · obtain ⟨before, after, rfl, hadmits⟩ := ih hold
            exact ⟨before, after ++ [m], by simp, hadmits⟩
          · rw [List.mem_singleton.mp hnew]
            exact ⟨arrivals, [], rfl, admits_admitted_iff.mp hm⟩
        · rw [admitted_snoc_of_not hm] at h
          obtain ⟨before, after, rfl, hadmits⟩ := ih h
          exact ⟨before, after ++ [m], by simp, hadmits⟩
  · rintro ⟨before, after, rfl, hadmits⟩
    rw [List.append_cons]
    refine mem_admitted_append ?_ after
    rw [admitted_snoc_of_admits (admits_admitted_iff.mpr hadmits)]
    exact List.mem_append_right _ (List.mem_singleton_self n)

/-- From timely arrivals every label is taken. -/
theorem mem_admitted_of_timely (h : Timely width arrivals) (hn : n ∈ arrivals) :
    n ∈ admitted width arrivals := by
  obtain ⟨before, after, rfl, hnew⟩ := List.eq_append_cons_of_mem hn
  refine mem_admitted_iff.mpr ⟨before, after, rfl, hnew, ?_⟩
  intro m hm
  exact (List.pairwise_append.mp h).2.2 m hm n List.mem_cons_self

end ZephyrVox.Window
