import Mathlib

/-!
# Counters under keys

Any number of owners, each with a counter and perhaps a key under which it uses
the counter's values. Owners that share no key never use one value of one key
twice, in whatever order they work.

## Main definitions

* `Owner κ` — a key and the next value of its counter.
* `Fresh owners log` — the log has every use once, and all of them lie behind.
* `Fresh.add`, `Fresh.use`, `Fresh.skip` — a new owner, a logged use, a value left
  out.
-/

namespace ZephyrVox.Counters

universe u

variable {κ : Type u}

/-- A key and the next value of its counter. -/
structure Owner (κ : Type u) where
  key : Option κ
  next : ℕ

/-- No two owners share a key, every logged use lies behind the counter of an
owner of its key, and nothing is logged twice. -/
structure Fresh (owners : List (Owner κ)) (log : List (κ × ℕ)) : Prop where
  distinct : ∀ (i j : ℕ) (k : κ), (owners[i]?.bind Owner.key) = some k →
    (owners[j]?.bind Owner.key) = some k → i = j
  behind : ∀ e ∈ log, ∃ o ∈ owners, o.key = some e.1 ∧ e.2 < o.next
  nodup : log.Nodup

variable {owners : List (Owner κ)} {log : List (κ × ℕ)}

theorem fresh_nil : Fresh ([] : List (Owner κ)) [] :=
  ⟨(fun _ _ _ h => by cases h), (fun _ h => by cases h), List.nodup_nil⟩

/-- A new owner whose key no other owner has. -/
theorem Fresh.add (h : Fresh owners log) {o : Owner κ}
    (hkey : ∀ o' ∈ owners, ∀ k, o.key = some k → o'.key ≠ some k) :
    Fresh (owners ++ [o]) log := by
  have old {i : ℕ} {k : κ} (hi : ((owners ++ [o])[i]?.bind Owner.key) = some k) :
      (owners[i]?.bind Owner.key) = some k ∨ (i = owners.length ∧ o.key = some k) := by
    by_cases hlt : i < owners.length
    · rw [List.getElem?_append_left hlt] at hi
      exact .inl hi
    · obtain ⟨x, hx, hk⟩ := Option.bind_eq_some_iff.mp hi
      rw [List.getElem?_append_right (by omega), List.getElem?_singleton] at hx
      obtain ⟨hzero, heq⟩ := Option.ite_none_right_eq_some.mp hx
      cases heq
      exact .inr ⟨by omega, hk⟩
  have absent {i : ℕ} {k : κ} (hi : (owners[i]?.bind Owner.key) = some k)
      (ho : o.key = some k) : False := by
    obtain ⟨o', hget, hk⟩ := Option.bind_eq_some_iff.mp hi
    exact hkey o' (List.mem_of_getElem? hget) k ho hk
  refine ⟨?_, ?_, h.nodup⟩
  · intro i j k hi hj
    rcases old hi with hi | ⟨hi, ho⟩
    · rcases old hj with hj | ⟨-, ho⟩
      · exact h.distinct i j k hi hj
      · exact (absent hi ho).elim
    · rcases old hj with hj | ⟨hj, -⟩
      · exact (absent hj ho).elim
      · rw [hi, hj]
  · intro e he
    obtain ⟨o', ho', hk⟩ := h.behind e he
    exact ⟨o', List.mem_append_left _ ho', hk⟩

/-- One owner moves its counter on. -/
theorem Fresh.skip (h : Fresh owners log) {i : ℕ} {o : Owner κ} (hi : owners[i]? = some o) :
    Fresh (owners.set i { o with next := o.next + 1 }) log := by
  have hlt : i < owners.length := (List.getElem?_eq_some_iff.mp hi).1
  have same (j : ℕ) : ((owners.set i { o with next := o.next + 1 })[j]?.bind Owner.key) =
      (owners[j]?.bind Owner.key) := by
    by_cases hj : i = j
    · subst hj
      rw [List.getElem?_set_self hlt, hi]
      rfl
    · rw [List.getElem?_set_ne hj]
  refine ⟨?_, ?_, h.nodup⟩
  · intro j j' k hj hj'
    rw [same] at hj hj'
    exact h.distinct j j' k hj hj'
  · intro e he
    obtain ⟨o', ho', hk, hbehind⟩ := h.behind e he
    obtain ⟨j, hj⟩ := List.getElem?_of_mem ho'
    by_cases hij : i = j
    · subst hij
      rw [hi] at hj
      cases hj
      exact ⟨_, List.mem_set hlt _, hk, Nat.lt_succ_of_lt hbehind⟩
    · refine ⟨o', List.mem_of_getElem? (i := j) ?_, hk, hbehind⟩
      rw [List.getElem?_set_ne hij, hj]

/-- **One owner uses the next value of its counter**, which is new. -/
theorem Fresh.use (h : Fresh owners log) {i : ℕ} {o : Owner κ} {k : κ}
    (hi : owners[i]? = some o) (hk : o.key = some k) :
    Fresh (owners.set i { o with next := o.next + 1 }) (log ++ [(k, o.next)]) := by
  have hskip := h.skip hi
  have hlt : i < owners.length := (List.getElem?_eq_some_iff.mp hi).1
  refine ⟨hskip.distinct, ?_, ?_⟩
  · intro e he
    rcases List.mem_append.mp he with he | he
    · exact hskip.behind e he
    · obtain rfl := List.mem_singleton.mp he
      exact ⟨_, List.mem_set hlt _, hk, Nat.lt_succ_self _⟩
  · refine List.nodup_append.mpr ⟨h.nodup, List.nodup_singleton _, ?_⟩
    rintro e he e' he' rfl
    obtain rfl := List.mem_singleton.mp he'
    -- The only owner of the key is the one that moves.
    obtain ⟨o', ho', hk', hbehind⟩ := h.behind _ he
    obtain ⟨j, hj⟩ := List.getElem?_of_mem ho'
    have hij : i = j := h.distinct i j k (by rw [hi]; exact hk) (by rw [hj]; exact hk')
    subst hij
    rw [hi] at hj
    cases hj
    exact Nat.lt_irrefl _ hbehind

end ZephyrVox.Counters
