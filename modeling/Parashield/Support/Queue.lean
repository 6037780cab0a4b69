import Mathlib.Data.List.Nodup
import Mathlib.Data.List.Perm.Basic

/-!
# Lists that enumerate a predicate

A list enumerates a predicate if it holds exactly the elements that satisfy
it, each of them once.  Such a queue is kept by appending what starts to
satisfy the predicate, by erasing what ceases to, and by reordering.
-/

namespace Support

variable {ι : Type*} {xs ys : List ι} {P Q : ι → Prop} {i : ι}

structure Enumerates (xs : List ι) (P : ι → Prop) : Prop where
  nodup : xs.Nodup
  mem_iff : ∀ i, i ∈ xs ↔ P i

theorem Enumerates.empty (h : ∀ i, ¬ P i) : Enumerates [] P where
  nodup := .nil
  mem_iff i := by simp [h i]

theorem Enumerates.congr (h : Enumerates xs P) (hsame : ∀ j, Q j ↔ P j) :
    Enumerates xs Q :=
  ⟨h.nodup, fun j => (h.mem_iff j).trans (hsame j).symm⟩

/-- An element joins the queue. -/
theorem Enumerates.push (h : Enumerates xs P) (hnew : ¬ P i)
    (hQ : ∀ j, Q j ↔ P j ∨ j = i) : Enumerates (xs ++ [i]) Q where
  nodup := by
    refine h.nodup.append (List.nodup_singleton i) ?_
    rw [List.disjoint_singleton, h.mem_iff]
    exact hnew
  mem_iff j := by
    rw [List.mem_append, h.mem_iff, List.mem_singleton, hQ]

/-- An element leaves the queue, if it was there. -/
theorem Enumerates.erase [DecidableEq ι] (h : Enumerates xs P)
    (hQ : ∀ j, Q j ↔ j ≠ i ∧ P j) : Enumerates (xs.erase i) Q where
  nodup := h.nodup.erase i
  mem_iff j := by rw [h.nodup.mem_erase_iff, h.mem_iff, hQ]

/-- The elements that fail a test leave the queue. -/
theorem Enumerates.filter {p : ι → Bool} (h : Enumerates xs P)
    (hQ : ∀ j, Q j ↔ P j ∧ p j = true) : Enumerates (xs.filter p) Q where
  nodup := h.nodup.filter p
  mem_iff j := by rw [List.mem_filter, h.mem_iff, hQ]

theorem Enumerates.perm (h : Enumerates xs P) (hperm : ys.Perm xs) :
    Enumerates ys P :=
  ⟨hperm.nodup_iff.mpr h.nodup,
    fun j => hperm.mem_iff.trans (h.mem_iff j)⟩

end Support
