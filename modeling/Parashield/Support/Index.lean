import Mathlib.Data.List.Nodup
import Mathlib.Logic.Function.Basic

/-!
# Indexes that mirror a table

A table relates records to keys, and an index names one record for a key.  The
index mirrors the table if it finds exactly the records that are there; then no
two records share a key.  An index is kept by writing it where a record comes or
goes.

Where records may share a key, the index lists them instead, each once.  A
collection that only grows is numbered: every member has one slot.
-/

namespace Support

variable {ι κ : Type*} {index : κ → Option ι} {has has' : ι → κ → Prop}
  {i : ι} {k : κ}

/-- The index finds exactly the records with each key. -/
def Mirrors (index : κ → Option ι) (has : ι → κ → Prop) : Prop :=
  ∀ k i, index k = some i ↔ has i k

theorem Mirrors.empty : Mirrors (fun _ : κ => (none : Option ι))
    fun _ _ => False :=
  fun _ _ => by simp

theorem Mirrors.congr (h : Mirrors index has)
    (hsame : ∀ j k', has' j k' ↔ has j k') : Mirrors index has' :=
  fun k' j => (h k' j).trans (hsame j k').symm

theorem Mirrors.unique (h : Mirrors index has) {j : ι} (hi : has i k)
    (hj : has j k) : i = j := by
  have hfound := (h k i).mpr hi
  rw [(h k j).mpr hj] at hfound
  exact (Option.some.inj hfound).symm

variable [DecidableEq κ]

/-- A record comes under a key that is free. -/
theorem Mirrors.insert (h : Mirrors index has) (hfree : index k = none)
    (hhas : ∀ j k', has' j k' ↔ (j = i ∧ k' = k) ∨ has j k') :
    Mirrors (Function.update index k (some i)) has' := by
  intro k' j
  rw [hhas]
  by_cases hk : k' = k
  · subst hk
    have hnone : ¬ has j k' := by
      rw [← h k' j, hfree]
      exact nofun
    simp only [Function.update_self, Option.some.injEq, and_true, hnone,
      or_false]
    exact eq_comm
  · simp [hk, h k' j]

/-- The only record of a key goes. -/
theorem Mirrors.remove (h : Mirrors index has) (hi : has i k)
    (honly : ∀ k', has i k' → k' = k)
    (hhas : ∀ j k', has' j k' ↔ has j k' ∧ j ≠ i) :
    Mirrors (Function.update index k none) has' := by
  intro k' j
  rw [hhas]
  by_cases hk : k' = k
  · subst hk
    simp only [Function.update_self, reduceCtorEq, false_iff, not_and, not_not]
    exact fun hj => h.unique hj hi
  · rw [Function.update_of_ne hk, h k' j]
    refine ⟨fun hj => ⟨hj, ?_⟩, And.left⟩
    rintro rfl
    exact hk (honly k' hj)

/-! ## Records with one key at most -/

section Keyed

variable [DecidableEq ι] {key : ι → Option κ}

/-- A record without a key gets one that is free. -/
theorem Mirrors.insert_key (h : Mirrors index fun j k' => key j = some k')
    (hfree : index k = none) (hnew : key i = none) :
    Mirrors (Function.update index k (some i)) fun j k' =>
      Function.update key i (some k) j = some k' := by
  refine h.insert hfree fun j k' => ?_
  by_cases hj : j = i
  · subst hj
    simp [hnew, eq_comm]
  · simp [hj]

/-- A record loses its key. -/
theorem Mirrors.remove_key (h : Mirrors index fun j k' => key j = some k')
    (hi : key i = some k) :
    Mirrors (Function.update index k none) fun j k' =>
      Function.update key i none j = some k' := by
  refine h.remove hi (fun k' hk' => ?_) fun j k' => ?_
  · rw [hi, Option.some.injEq] at hk'
    exact hk'.symm
  · by_cases hj : j = i
    · simp [hj]
    · simp [hj]

end Keyed

/-! ## Lists of the records with each key -/

section Lists

variable {lists : κ → List ι} {key key' : ι → Option κ}

/-- Every record is on the list of its key, once, and on no other. -/
structure Lists (lists : κ → List ι) (key : ι → Option κ) : Prop where
  nodup : ∀ k, (lists k).Nodup
  mem_iff : ∀ k i, i ∈ lists k ↔ key i = some k

omit [DecidableEq κ] in
theorem Lists.empty : Lists (fun _ : κ => ([] : List ι)) fun _ => none where
  nodup _ := List.nodup_nil
  mem_iff _ _ := by simp

omit [DecidableEq κ] in
theorem Lists.not_mem (h : Lists lists key) (hi : key i = none) :
    i ∉ lists k := by
  rw [h.mem_iff, hi]
  exact nofun

variable [DecidableEq ι]

/-- A record without a key gets one. -/
theorem Lists.append (h : Lists lists key) (hnew : key i = none) :
    Lists (Function.update lists k (lists k ++ [i]))
      (Function.update key i (some k)) where
  nodup c := by
    by_cases hc : c = k
    · subst hc
      rw [Function.update_self, List.nodup_append_comm]
      exact (h.nodup c).cons (h.not_mem hnew)
    · rw [Function.update_of_ne hc]
      exact h.nodup c
  mem_iff c j := by
    by_cases hj : j = i
    · subst hj
      rw [Function.update_self, Option.some.injEq]
      by_cases hc : c = k
      · simp [hc]
      · rw [Function.update_of_ne hc]
        exact iff_of_false (h.not_mem hnew) (Ne.symm hc)
    · rw [Function.update_of_ne hj, ← h.mem_iff]
      by_cases hc : c = k
      · simp [hc, hj]
      · rw [Function.update_of_ne hc]

/-- A record loses its key. -/
theorem Lists.erase (h : Lists lists key) (hi : key i = some k) :
    Lists (Function.update lists k ((lists k).erase i))
      (Function.update key i none) where
  nodup c := by
    by_cases hc : c = k
    · subst hc
      rw [Function.update_self]
      exact (h.nodup c).erase i
    · rw [Function.update_of_ne hc]
      exact h.nodup c
  mem_iff c j := by
    by_cases hc : c = k
    · subst hc
      rw [Function.update_self, (h.nodup c).mem_erase_iff, h.mem_iff]
      by_cases hj : j = i
      · simp [hj]
      · simp [hj]
    · rw [Function.update_of_ne hc, h.mem_iff]
      by_cases hj : j = i
      · subst hj
        rw [Function.update_self, hi, Option.some.injEq]
        exact iff_of_false (Ne.symm hc) nofun
      · rw [Function.update_of_ne hj]

end Lists

/-! ## Numbered collections -/

section Numbered

variable {slot : ℕ → Option ι} {count : ℕ} {member member' : ι → Prop}

/-- The slots below `count` hold the members, each once. -/
structure Numbered (slot : ℕ → Option ι) (count : ℕ) (member : ι → Prop) :
    Prop where
  listed : ∀ i, member i → ∃! n, n < count ∧ slot n = some i
  filled : ∀ n < count, ∃ i, slot n = some i ∧ member i

theorem Numbered.empty : Numbered slot 0 fun _ => False where
  listed _ := False.elim
  filled _ hn := absurd hn (Nat.not_lt_zero _)

theorem Numbered.congr (h : Numbered slot count member)
    (hsame : ∀ i, member' i ↔ member i) : Numbered slot count member' where
  listed i hi := h.listed i ((hsame i).mp hi)
  filled n hn := by
    obtain ⟨i, hslot, hi⟩ := h.filled n hn
    exact ⟨i, hslot, (hsame i).mpr hi⟩

/-- A new member gets the next slot. -/
theorem Numbered.add (h : Numbered slot count member) (hnew : ¬ member i)
    (hmember : ∀ j, member' j ↔ j = i ∨ member j) :
    Numbered (Function.update slot count (some i)) (count + 1) member' where
  listed j hj := by
    rcases (hmember j).mp hj with rfl | hj
    · refine ⟨count, ⟨Nat.lt_succ_self _, Function.update_self ..⟩, ?_⟩
      rintro n ⟨hn, hslot⟩
      by_contra hne
      rw [Function.update_of_ne hne] at hslot
      obtain ⟨k, hk, hmem⟩ := h.filled n (by omega)
      obtain rfl := Option.some.inj (hslot.symm.trans hk)
      exact hnew hmem
    · obtain ⟨n, ⟨hn, hslot⟩, honly⟩ := h.listed j hj
      refine ⟨n, ⟨by omega, ?_⟩, ?_⟩
      · rwa [Function.update_of_ne (by omega)]
      · rintro n' ⟨hn', hslot'⟩
        by_cases hne : n' = count
        · rw [hne, Function.update_self] at hslot'
          obtain rfl := Option.some.inj hslot'
          exact absurd hj hnew
        · rw [Function.update_of_ne hne] at hslot'
          exact honly n' ⟨by omega, hslot'⟩
  filled n hn := by
    by_cases hne : n = count
    · exact ⟨i, by rw [hne, Function.update_self], (hmember i).mpr (.inl rfl)⟩
    · obtain ⟨j, hslot, hj⟩ := h.filled n (by omega)
      exact ⟨j, by rwa [Function.update_of_ne hne], (hmember j).mpr (.inr hj)⟩

end Numbered

end Support
