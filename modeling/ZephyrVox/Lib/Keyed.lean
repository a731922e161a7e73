import Mathlib

/-!
# Lists with a key

A table kept as a plain list, whose entries are told apart by a key computed from
them. Writers replace the first entry with a key, append, or delete by a
predicate; the facts below say when the keys stay distinct, without reference to
how a writer searches the list.

## Main definitions

* `Unique key items` — no two entries have the same key.
* `Upserted key old new item` — `new` is `old` with the entry for the key of
  `item` set to `item`, and the other entries as they were.
-/

namespace ZephyrVox.Keyed

universe u v

variable {T : Type u} {K : Type v} {key : T → K} {old new items : List T} {item : T}

/-- No two entries have the same key. -/
def Unique (key : T → K) (items : List T) : Prop := (items.map key).Nodup

/-- Deleting entries keeps the keys distinct. -/
theorem Unique.filter (h : Unique key items) (p : T → Bool) : Unique key (items.filter p) :=
  h.sublist (List.filter_sublist.map key)

theorem unique_cons : Unique key (item :: items) ↔
    (∀ x ∈ items, key x ≠ key item) ∧ Unique key items := by
  unfold Unique
  rw [List.map_cons, List.nodup_cons]
  refine and_congr_left fun _ => ?_
  constructor
  · intro h x hx heq
    exact h (heq ▸ List.mem_map_of_mem hx)
  · intro h hmem
    obtain ⟨x, hx, heq⟩ := List.mem_map.mp hmem
    exact h x hx heq

variable [DecidableEq K]

/-- The entry for the key of `item` is `item`, once; the entries with another key
are unchanged and in the same order. -/
structure Upserted (key : T → K) (old new : List T) (item : T) : Prop where
  entry : new.filter (fun x => key x = key item) = [item]
  others : new.filter (fun x => key x ≠ key item) = old.filter (fun x => key x ≠ key item)

/-- **An update keeps the keys distinct.** -/
theorem Upserted.unique (h : Upserted key old new item) (hu : Unique key old) :
    Unique key new := by
  have hperm : (item :: old.filter fun x => key x ≠ key item).Perm new := by
    have hsplit := List.filter_append_perm (fun x => decide (key x = key item)) new
    have hnot : (new.filter fun x => !decide (key x = key item)) =
        new.filter fun x => decide (key x ≠ key item) := by
      refine List.filter_congr fun x _ => ?_
      simp
    rw [hnot, h.entry, h.others] at hsplit
    exact hsplit
  have hcons : Unique key (item :: old.filter fun x => key x ≠ key item) := by
    refine unique_cons.mpr ⟨fun x hx => ?_, hu.filter _⟩
    simpa using (List.mem_filter.mp hx).2
  exact (hperm.map key).nodup hcons

/-- The first entry of an empty table. -/
theorem upserted_nil : Upserted key [] [item] item := by
  constructor <;> simp

/-- Replacing the first entry, when no other one has its key. -/
theorem upserted_head {x : T} (hx : key x = key item) (h : ∀ y ∈ items, key y ≠ key item) :
    Upserted key (x :: items) (item :: items) item := by
  constructor
  · rw [List.filter_cons_of_pos (by simp), List.filter_eq_nil_iff.mpr (by simpa using h)]
  · simp [hx]

/-- An update of the rest of the table, behind an entry with another key. -/
theorem Upserted.cons {x : T} (h : Upserted key old new item) (hx : key x ≠ key item) :
    Upserted key (x :: old) (x :: new) item := by
  constructor
  · rw [List.filter_cons_of_neg (by simpa using hx)]
    exact h.entry
  · rw [List.filter_cons_of_pos (by simpa using hx), List.filter_cons_of_pos (by simpa using hx),
      h.others]

end ZephyrVox.Keyed
