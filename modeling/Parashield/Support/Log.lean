import Mathlib.Data.List.Basic
import Mathlib.Data.List.Pairwise
import Mathlib.Order.Basic

/-!
# Keyed logs

A log of entries, oldest first, read by key: `entriesOf key log k` is the part
of it with key `k`, of which the last entry is the current one.  A log is
increasing if along every key the rank of the entries grows.
-/

namespace Support

variable {α κ ρ : Type*} [DecidableEq κ] {key : α → κ} {log : List α} {x : α}
  {k : κ}

/-- The entries of a log with key `k`. -/
def entriesOf (key : α → κ) (log : List α) (k : κ) : List α :=
  log.filter fun a => decide (key a = k)

@[simp] theorem entriesOf_nil : entriesOf key [] k = [] := rfl

theorem entriesOf_concat_self :
    entriesOf key (log ++ [x]) (key x) = entriesOf key log (key x) ++ [x] := by
  simp [entriesOf]

theorem entriesOf_concat_of_ne (h : key x ≠ k) :
    entriesOf key (log ++ [x]) k = entriesOf key log k := by
  simp [entriesOf, h]

/-- Entries that all have one key. -/
theorem entriesOf_append_self {xs : List α} (h : ∀ a ∈ xs, key a = k) :
    entriesOf key (log ++ xs) k = entriesOf key log k ++ xs := by
  have hall : entriesOf key xs k = xs :=
    List.filter_eq_self.mpr fun a ha => decide_eq_true (h a ha)
  unfold entriesOf at hall ⊢
  rw [List.filter_append, hall]

theorem entriesOf_append_of_ne {xs : List α} (h : ∀ a ∈ xs, key a ≠ k) :
    entriesOf key (log ++ xs) k = entriesOf key log k := by
  have hnone : entriesOf key xs k = [] :=
    List.filter_eq_nil_iff.mpr fun a ha => by simpa using h a ha
  unfold entriesOf at hnone ⊢
  rw [List.filter_append, hnone, List.append_nil]

/-- The newest entry with key `k`. -/
def lastOf (key : α → κ) (log : List α) (k : κ) : Option α :=
  (entriesOf key log k).getLast?

@[simp] theorem lastOf_nil : lastOf key [] k = none := rfl

theorem lastOf_concat_self : lastOf key (log ++ [x]) (key x) = some x := by
  simp [lastOf, entriesOf_concat_self]

theorem lastOf_concat_of_ne (h : key x ≠ k) :
    lastOf key (log ++ [x]) k = lastOf key log k := by
  rw [lastOf, entriesOf_concat_of_ne h, lastOf]

section Increasing

variable [Preorder ρ] {rank : α → ρ}

/-- Along every key the ranks strictly increase. -/
def Increasing (key : α → κ) (rank : α → ρ) (log : List α) : Prop :=
  ∀ k, ((entriesOf key log k).map rank).Pairwise (· < ·)

theorem increasing_nil : Increasing key rank [] := fun _ => .nil

/-- The last entry of an increasing list has the largest rank. -/
theorem rank_le_of_getLast {xs : List α} {y z : α}
    (h : (xs.map rank).Pairwise (· < ·)) (hlast : xs.getLast? = some y)
    (hz : z ∈ xs) : rank z ≤ rank y := by
  obtain ⟨ys, rfl⟩ := List.getLast?_eq_some_iff.mp hlast
  rw [List.map_append, List.pairwise_append] at h
  rcases List.mem_append.mp hz with hz | hz
  · exact (h.2.2 _ (List.mem_map_of_mem hz) _ (by simp)).le
  · rw [List.mem_singleton.mp hz]

/-- An entry above the newest one of its key extends the log. -/
theorem Increasing.concat (h : Increasing key rank log)
    (hnew : ∀ y ∈ lastOf key log (key x), rank y < rank x) :
    Increasing key rank (log ++ [x]) := by
  intro k
  by_cases hk : key x = k
  · subst hk
    rw [entriesOf_concat_self, List.map_append, List.pairwise_append]
    refine ⟨h (key x), by simp, ?_⟩
    intro r hr r' hr'
    obtain ⟨z, hz, rfl⟩ := List.mem_map.mp hr
    obtain rfl := List.mem_singleton.mp hr'
    obtain ⟨y, hy⟩ : ∃ y, lastOf key log (key x) = some y :=
      Option.isSome_iff_exists.mp (by
        rw [lastOf, List.getLast?_isSome]
        exact List.ne_nil_of_mem hz)
    exact (rank_le_of_getLast (h (key x)) hy hz).trans_lt (hnew y hy)
  · rw [entriesOf_concat_of_ne hk]
    exact h k

end Increasing

end Support
