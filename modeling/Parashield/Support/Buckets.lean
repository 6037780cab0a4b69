import Mathlib.Data.List.Basic
import Mathlib.Data.Nat.Basic

/-!
# Counting in buckets

Events are counted as they come.  A sliding window counts those less than
`window` before the newest one.  A bucket needs no list: an event opens it and
the events less than `window` after that one are counted in it, until the next
event opens another.  A bucket never counts more than the window does, and it
counts fewer where the window reaches back behind the start of the bucket.

Times are listed newest first.  No bucket is open at time zero.
-/

namespace Support

/-- In a descending list, the entries with a property that large values have
come first. -/
theorem lt_countP_iff {α : Type*} [Preorder α] {p : α → Bool} {xs : List α}
    (hsorted : xs.Pairwise (· ≥ ·)) (hup : ∀ x y, x ≤ y → p x → p y) {k : ℕ} :
    k < xs.countP p ↔ ∃ x, xs[k]? = some x ∧ p x := by
  induction xs generalizing k with
  | nil => simp
  | cons a xs ih =>
      obtain ⟨hbelow, hsorted⟩ := List.pairwise_cons.mp hsorted
      by_cases ha : p a = true
      · rw [List.countP_cons_of_pos ha]
        cases k with
        | zero => simp [ha]
        | succ k =>
            rw [List.getElem?_cons_succ, ← ih hsorted]
            exact Nat.succ_lt_succ_iff
      · have hnone : ∀ x ∈ xs, ¬ p x = true :=
          fun x hx hp => ha (hup x a (hbelow x hx) hp)
        rw [List.countP_cons_of_neg ha, List.countP_eq_zero.mpr hnone]
        refine ⟨nofun, ?_⟩
        rintro ⟨x, hx, hp⟩
        rcases List.mem_cons.mp (List.mem_of_getElem? hx) with rfl | hmem
        · exact absurd hp ha
        · exact absurd hp (hnone x hmem)

namespace Bucket

variable (window : ℕ)

/-- When the bucket was opened that counts the newest event. -/
def start : List ℕ → ℕ
  | [] => 0
  | t :: older =>
      if start older = 0 ∨ window ≤ t - start older then t else start older

/-- How many events that bucket has counted. -/
def count : List ℕ → ℕ
  | [] => 0
  | t :: older =>
      if start window older = 0 ∨ window ≤ t - start window older then 1
      else count older + 1

/-- How many events the window before `now` counts. -/
def recent (now : ℕ) (times : List ℕ) : ℕ :=
  times.countP fun t => now - t < window

variable {window : ℕ} {times older : List ℕ} {t now k n : ℕ}

theorem opens_or_joins (window t : ℕ) (older : List ℕ) :
    ((start window older = 0 ∨ window ≤ t - start window older) ∧
        start window (t :: older) = t ∧ count window (t :: older) = 1) ∨
      (start window older ≠ 0 ∧ t - start window older < window ∧
        start window (t :: older) = start window older ∧
        count window (t :: older) = count window older + 1) := by
  by_cases h : start window older = 0 ∨ window ≤ t - start window older
  · exact .inl ⟨h, if_pos h, if_pos h⟩
  · have hjoins := not_or.mp h
    exact .inr ⟨hjoins.1, Nat.lt_of_not_le hjoins.2, if_neg h, if_neg h⟩

/-- A bucket takes in less than a window. -/
theorem sub_start_lt (hwindow : 0 < window) :
    t - start window (t :: older) < window := by
  rcases opens_or_joins window t older with
    ⟨-, hstart, -⟩ | ⟨-, hlt, hstart, -⟩
  · rw [hstart]
    omega
  · rw [hstart]
    exact hlt

/-- While no bucket is open, all events were at time zero. -/
theorem eq_zero_of_start_eq_zero (hwindow : 0 < window)
    (h : start window times = 0) : ∀ t ∈ times, t = 0 := by
  induction times with
  | nil => exact List.forall_mem_nil _
  | cons t older ih =>
      rcases opens_or_joins window t older with
        ⟨hopens, hstart, -⟩ | ⟨hopen, -, hstart, -⟩
      · have ht : t = 0 := hstart.symm.trans h
        have hnone : start window older = 0 := by omega
        exact List.forall_mem_cons.mpr ⟨ht, ih hnone⟩
      · exact absurd (hstart.symm.trans h) hopen

theorem count_of_start_eq_zero (h : start window (t :: older) = 0) :
    count window (t :: older) = 1 := by
  rcases opens_or_joins window t older with
    ⟨-, -, hcount⟩ | ⟨hopen, -, hstart, -⟩
  · exact hcount
  · exact absurd (hstart.symm.trans h) hopen

theorem start_mem (h : start window times ≠ 0) :
    start window times ∈ times := by
  induction times with
  | nil => exact absurd rfl h
  | cons t older ih =>
      rcases opens_or_joins window t older with
        ⟨-, hstart, -⟩ | ⟨hopen, -, hstart, -⟩
      · rw [hstart]
        exact List.mem_cons_self
      · rw [hstart]
        exact List.mem_cons_of_mem t (ih hopen)

/-- A bucket opens with an event that is later than all before it. -/
theorem lt_of_opens (hwindow : 0 < window)
    (hsorted : (t :: older).Pairwise (· ≥ ·)) (ht : t ≠ 0)
    (hopens : start window older = 0 ∨ window ≤ t - start window older) :
    ∀ x ∈ older, x < t := by
  intro x hx
  rcases hopens with hnone | hlong
  · have hzero := eq_zero_of_start_eq_zero hwindow hnone x hx
    omega
  · cases older with
    | nil => cases hx
    | cons y older =>
        have hlt : y - start window (y :: older) < window :=
          sub_start_lt hwindow
        have hle : x ≤ y := by
          rcases List.mem_cons.mp hx with rfl | hx
          · exact Nat.le_refl x
          · exact List.rel_of_pairwise_cons hsorted.of_cons hx
        omega

/-- A bucket counts the events since its start. -/
theorem count_eq_countP (hwindow : 0 < window)
    (hsorted : times.Pairwise (· ≥ ·)) (hopen : start window times ≠ 0) :
    count window times =
      times.countP fun t => start window times ≤ t := by
  induction times with
  | nil => exact absurd rfl hopen
  | cons t older ih =>
      rcases opens_or_joins window t older with
        ⟨hopens, hstart, hcount⟩ | ⟨hopen', -, hstart, hcount⟩
      · rw [hstart] at hopen
        have hnone : ∀ x ∈ older, ¬ decide (t ≤ x) = true := by
          intro x hx hle
          have hlt := lt_of_opens hwindow hsorted hopen hopens x hx
          exact absurd (of_decide_eq_true hle) (Nat.not_le_of_lt hlt)
        rw [hcount, hstart, List.countP_cons_of_pos (by simp),
          List.countP_eq_zero.mpr hnone]
      · have hin : start window older ≤ t :=
          List.rel_of_pairwise_cons hsorted (start_mem hopen')
        rw [hcount, hstart, List.countP_cons_of_pos (by simp [hin]),
          ih hsorted.of_cons hopen']

/-- The bucket counts what the window does, back to its start. -/
theorem count_le_recent (hwindow : 0 < window)
    (hsorted : (now :: older).Pairwise (· ≥ ·)) :
    count window (now :: older) ≤ recent window now (now :: older) := by
  by_cases hopen : start window (now :: older) = 0
  · rw [count_of_start_eq_zero hopen]
    have hself : 0 < recent window now (now :: older) :=
      List.countP_pos_iff.mpr ⟨now, List.mem_cons_self, by simp [hwindow]⟩
    exact hself
  · rw [count_eq_countP hwindow hsorted hopen]
    refine List.countP_mono_left fun t _ ht => ?_
    have hlt : now - start window (now :: older) < window :=
      sub_start_lt hwindow
    have hle : start window (now :: older) ≤ t := of_decide_eq_true ht
    exact decide_eq_true (by omega)

theorem lt_recent_iff (hsorted : times.Pairwise (· ≥ ·)) :
    k < recent window now times ↔
      ∃ t, times[k]? = some t ∧ now - t < window := by
  refine (lt_countP_iff hsorted fun x y hxy hx => ?_).trans (by simp)
  have hlt : now - x < window := of_decide_eq_true hx
  exact decide_eq_true (by omega)

theorem lt_count_iff (hwindow : 0 < window)
    (hsorted : times.Pairwise (· ≥ ·)) (hopen : start window times ≠ 0) :
    k < count window times ↔
      ∃ t, times[k]? = some t ∧ start window times ≤ t := by
  rw [count_eq_countP hwindow hsorted hopen]
  refine (lt_countP_iff hsorted fun x y hxy hx => ?_).trans (by simp)
  have hlow : start window times ≤ x := of_decide_eq_true hx
  exact decide_eq_true (Nat.le_trans hlow hxy)

/-- The `n`-th event from the newest one is inside the window but before the
start of the bucket. -/
def Straddles (window n : ℕ) (now : ℕ) (older : List ℕ) : Prop :=
  ∃ t, (now :: older)[n - 1]? = some t ∧ now - t < window ∧
    (t < start window (now :: older) ∨
      start window (now :: older) = 0 ∧ 1 < n)

/-- The bucket reaches `n` when the window does, unless the last `n` events
straddle the start of the bucket. -/
theorem le_count_iff (hwindow : 0 < window) (hn : 0 < n)
    (hsorted : (now :: older).Pairwise (· ≥ ·)) :
    n ≤ count window (now :: older) ↔
      n ≤ recent window now (now :: older) ∧
        ¬ Straddles window n now older := by
  obtain ⟨k, rfl⟩ : ∃ k, n = k + 1 := ⟨n - 1, by omega⟩
  have hle := count_le_recent hwindow hsorted
  simp only [Straddles, Nat.add_sub_cancel, Nat.add_one_le_iff]
  by_cases hopen : start window (now :: older) = 0
  · rw [count_of_start_eq_zero hopen] at hle ⊢
    constructor
    · intro hk
      refine ⟨by omega, ?_⟩
      rintro ⟨t, -, -, hearly | ⟨-, hlate⟩⟩
      · omega
      · omega
    · rintro ⟨hk, hnot⟩
      obtain ⟨t, ht, hin⟩ := (lt_recent_iff hsorted).mp hk
      by_contra hlate
      exact hnot ⟨t, ht, hin, .inr ⟨hopen, by omega⟩⟩
  · constructor
    · intro hk
      obtain ⟨t, ht, hlow⟩ := (lt_count_iff hwindow hsorted hopen).mp hk
      refine ⟨Nat.lt_of_lt_of_le hk hle, ?_⟩
      rintro ⟨t', ht', -, hearly | ⟨hzero, -⟩⟩
      · obtain rfl := Option.some.inj (ht.symm.trans ht')
        omega
      · exact hopen hzero
    · rintro ⟨hk, hnot⟩
      obtain ⟨t, ht, hin⟩ := (lt_recent_iff hsorted).mp hk
      refine (lt_count_iff hwindow hsorted hopen).mpr ⟨t, ht, ?_⟩
      by_contra hearly
      exact hnot ⟨t, ht, hin, .inl (Nat.lt_of_not_le hearly)⟩

end Bucket

end Support
