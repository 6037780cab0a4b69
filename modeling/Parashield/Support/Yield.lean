import Mathlib.Algebra.BigOperators.Ring.Finset
import Mathlib.Algebra.Order.BigOperators.Group.Finset
import Mathlib.Data.Int.ModEq
import Mathlib.Tactic.Linarith
import Mathlib.Tactic.Ring

/-!
# Accumulated yield

A pool of shares earns yield through one accumulator: the yield per share, in
units of `1 / scale`.  An account remembers the part of the accumulator that
was already there when its shares were last counted (its debt), rounded down.
This module bounds what all accounts together can claim: how the claims grow
when yield accrues, and how much a recount may add by rounding the debt.
-/

namespace Support

/-! ## Families with a bounded sum -/

section Capped

variable {ι : Type*} {f g : ι → ℤ} {bound : ℤ}

/-- Every finite part of the family sums to at most `bound`. -/
def Capped (f : ι → ℤ) (bound : ℤ) : Prop :=
  ∀ F : Finset ι, ∑ i ∈ F, f i ≤ bound

theorem Capped.mono (h : Capped f bound) {bound' : ℤ} (hle : bound ≤ bound') :
    Capped f bound' :=
  fun F => (h F).trans hle

theorem Capped.nonneg (h : Capped f bound) : 0 ≤ bound := by
  have hempty := h ∅
  rwa [Finset.sum_empty] at hempty

theorem Capped.apply_le (h : Capped f bound) (i : ι) : f i ≤ bound := by
  have hsingle := h {i}
  rwa [Finset.sum_singleton] at hsingle

theorem Capped.of_le (h : Capped g bound) (hle : ∀ i, f i ≤ g i) :
    Capped f bound :=
  fun F => (Finset.sum_le_sum fun i _ => hle i).trans (h F)

/-- Growth in proportion to another family of bounded sum. -/
theorem Capped.add_mul {w : ι → ℤ} {total k : ℤ} (h : Capped f bound)
    (hw : Capped w total) (hk : 0 ≤ k) (hg : ∀ i, g i ≤ f i + k * w i) :
    Capped g (bound + k * total) := by
  intro F
  calc ∑ i ∈ F, g i
      ≤ ∑ i ∈ F, (f i + k * w i) := Finset.sum_le_sum fun i _ => hg i
    _ = ∑ i ∈ F, f i + k * ∑ i ∈ F, w i := by
        rw [Finset.sum_add_distrib, Finset.mul_sum]
    _ ≤ bound + k * total :=
        add_le_add (h F) (mul_le_mul_of_nonneg_left (hw F) hk)

/-- Changing one member changes the bound by as much, also when that member
was not among those counted. -/
theorem Capped.update [DecidableEq ι] (h : Capped f bound) (a : ι) {v : ℤ}
    (hv : 0 ≤ v) :
    Capped (Function.update f a v) (bound + (v - f a)) := by
  intro F
  have hall := h (insert a F)
  have hsplit : ∑ i ∈ insert a F, f i = f a + ∑ i ∈ F.erase a, f i := by
    rw [← Finset.insert_erase (Finset.mem_insert_self a F),
      Finset.sum_insert (Finset.notMem_erase a _), Finset.erase_insert_eq_erase]
  have hrest : ∑ i ∈ F.erase a, Function.update f a v i =
      ∑ i ∈ F.erase a, f i := by
    apply Finset.sum_congr rfl
    intro i hi
    rw [Function.update_of_ne (Finset.ne_of_mem_erase hi)]
  have hpart : ∑ i ∈ F, Function.update f a v i ≤
      v + ∑ i ∈ F.erase a, f i := by
    by_cases ha : a ∈ F
    · rw [← Finset.insert_erase ha,
        Finset.sum_insert (Finset.notMem_erase a F), Function.update_self,
        Finset.erase_insert_eq_erase, Finset.erase_idem, hrest]
    · rw [← Finset.erase_eq_of_notMem ha, Finset.erase_idem, hrest]
      omega
  omega

end Capped

/-! ## Families with a finite total -/

section HasTotal

variable {ι : Type*} {f : ι → ℤ} {total : ℤ}

/-- Finitely many members are not zero, and they sum to `total`. -/
def HasTotal (f : ι → ℤ) (total : ℤ) : Prop :=
  ∃ F : Finset ι, (∀ i, i ∉ F → f i = 0) ∧ ∑ i ∈ F, f i = total

theorem HasTotal.zero : HasTotal (fun _ : ι => 0) 0 :=
  ⟨∅, fun _ _ => rfl, Finset.sum_empty⟩

theorem HasTotal.congr (h : HasTotal f total) {total' : ℤ}
    (heq : total = total') : HasTotal f total' :=
  heq ▸ h

/-- The total may be taken over any set with all members that are not zero. -/
theorem HasTotal.sum_eq [DecidableEq ι] (h : HasTotal f total)
    {G : Finset ι} (hG : ∀ i, i ∉ G → f i = 0) : ∑ i ∈ G, f i = total := by
  obtain ⟨F, hF, hsum⟩ := h
  have hleft : ∑ i ∈ F, f i = ∑ i ∈ F ∪ G, f i :=
    Finset.sum_subset Finset.subset_union_left fun i _ hi => hF i hi
  have hright : ∑ i ∈ G, f i = ∑ i ∈ F ∪ G, f i :=
    Finset.sum_subset Finset.subset_union_right fun i _ hi => hG i hi
  rw [hright, ← hleft, hsum]

theorem HasTotal.update [DecidableEq ι] (h : HasTotal f total) (a : ι)
    (v : ℤ) : HasTotal (Function.update f a v) (total + (v - f a)) := by
  have hf := h
  obtain ⟨F, hF, -⟩ := hf
  have hcover : ∀ i, i ∉ insert a F → f i = 0 := by
    intro i hi
    rw [Finset.mem_insert, not_or] at hi
    exact hF i hi.2
  have hall := h.sum_eq hcover
  refine ⟨insert a F, ?_, ?_⟩
  · intro i hi
    have hne : i ≠ a := fun heq => hi (heq ▸ Finset.mem_insert_self a F)
    rw [Function.update_of_ne hne]
    exact hcover i hi
  · rw [← Finset.insert_erase (Finset.mem_insert_self a F),
      Finset.sum_insert (Finset.notMem_erase a _)] at hall ⊢
    have hrest : ∑ i ∈ (insert a F).erase a, Function.update f a v i =
        ∑ i ∈ (insert a F).erase a, f i := by
      apply Finset.sum_congr rfl
      intro i hi
      rw [Function.update_of_ne (Finset.ne_of_mem_erase hi)]
    rw [Function.update_self, hrest]
    omega

theorem HasTotal.nonneg (h : HasTotal f total) (hf : ∀ i, 0 ≤ f i) :
    0 ≤ total := by
  obtain ⟨F, -, rfl⟩ := h
  exact Finset.sum_nonneg fun i _ => hf i

theorem HasTotal.apply_le (h : HasTotal f total) (hf : ∀ i, 0 ≤ f i) (i : ι) :
    f i ≤ total := by
  have htotal := h.nonneg hf
  obtain ⟨F, hF, rfl⟩ := h
  by_cases hi : i ∈ F
  · exact Finset.single_le_sum (fun j _ => hf j) hi
  · rw [hF i hi]
    exact htotal

theorem HasTotal.sum_le [DecidableEq ι] (h : HasTotal f total)
    (hf : ∀ i, 0 ≤ f i) (G : Finset ι) : ∑ i ∈ G, f i ≤ total := by
  obtain ⟨F, hF, -⟩ := id h
  have hall : ∑ i ∈ F ∪ G, f i = total :=
    h.sum_eq fun i hi => hF i fun hmem => hi (Finset.mem_union_left _ hmem)
  rw [← hall]
  exact Finset.sum_le_sum_of_subset_of_nonneg Finset.subset_union_right
    fun i _ _ => hf i

/-- A family has one total. -/
theorem HasTotal.unique [DecidableEq ι] (h : HasTotal f total) {total' : ℤ}
    (h' : HasTotal f total') : total = total' := by
  obtain ⟨F, hF, rfl⟩ := h'
  exact (h.sum_eq hF).symm

/-- A family below another has a total below. -/
theorem HasTotal.mono [DecidableEq ι] {g : ι → ℤ} {total' : ℤ}
    (h : HasTotal f total) (h' : HasTotal g total') (hle : ∀ i, f i ≤ g i) :
    total ≤ total' := by
  obtain ⟨F, hF, -⟩ := id h
  obtain ⟨G, hG, -⟩ := id h'
  have hleft : ∑ i ∈ F ∪ G, f i = total :=
    h.sum_eq fun i hi => hF i fun hmem => hi (Finset.mem_union_left _ hmem)
  have hright : ∑ i ∈ F ∪ G, g i = total' :=
    h'.sum_eq fun i hi => hG i fun hmem => hi (Finset.mem_union_right _ hmem)
  rw [← hleft, ← hright]
  exact Finset.sum_le_sum fun i _ => hle i

end HasTotal

/-! ## Accounts -/

namespace Yield

/-- The shares of an account and the yield counted before it. -/
structure Account where
  shares : ℤ
  debt : ℤ

/-- What the account has earned, in units of `1 / scale`. -/
def claim (scale acc : ℤ) (a : Account) : ℤ :=
  max 0 (acc * a.shares - scale * a.debt)

/-- What a settlement pays. -/
def pending (scale acc : ℤ) (a : Account) : ℤ :=
  max 0 (acc * a.shares / scale - a.debt)

/-- The account holding `n` shares from now on. -/
def rebased (scale acc n : ℤ) : Account where
  shares := n
  debt := acc * n / scale

/-- What the claim of `a` and a payment of `paid` leave uncovered once the
account is counted anew with `n` shares. -/
def rounding (scale acc : ℤ) (a : Account) (paid n : ℤ) : ℤ :=
  acc * n % scale - (claim scale acc a - scale * paid)

/-- Debt beyond what the shares have earned. -/
def overdrawn (scale acc : ℤ) (a : Account) : ℤ :=
  max 0 (a.debt - acc * a.shares / scale)

/-- Whole units the account earns when the accumulator grows by `k`. -/
def completed (scale acc k : ℤ) (a : Account) : ℤ :=
  (acc * a.shares % scale + k * a.shares) / scale

/-- The part of them that goes into overdrawn debt. -/
def withheld (scale acc k : ℤ) (a : Account) : ℤ :=
  min (completed scale acc k a) (overdrawn scale acc a)

section

variable {scale acc : ℤ} {a : Account}

theorem claim_nonneg : 0 ≤ claim scale acc a :=
  le_max_left _ _

theorem pending_nonneg : 0 ≤ pending scale acc a :=
  le_max_left _ _

/-- A settlement never pays more than the claim. -/
theorem scale_mul_pending_le (hscale : 0 < scale) :
    scale * pending scale acc a ≤ claim scale acc a := by
  have hdiv : scale * (acc * a.shares / scale) ≤ acc * a.shares :=
    Int.mul_ediv_self_le hscale.ne'
  unfold pending claim
  rcases le_total (acc * a.shares / scale - a.debt) 0 with hneg | hpos
  · rw [max_eq_left hneg, mul_zero]
    exact le_max_left _ _
  · rw [max_eq_right hpos]
    refine le_trans ?_ (le_max_right _ _)
    rw [mul_sub]
    omega

/-- A recounted account claims the rounded-off part of its debt. -/
theorem claim_rebased (hscale : 0 < scale) (n : ℤ) :
    claim scale acc (rebased scale acc n) = acc * n % scale := by
  have hmod : acc * n - scale * (acc * n / scale) = acc * n % scale := by
    have hdecomp := Int.emod_add_mul_ediv (acc * n) scale
    omega
  have hnonneg := Int.emod_nonneg (acc * n) hscale.ne'
  simp only [claim, rebased, hmod]
  exact max_eq_right hnonneg

theorem rounding_lt (hscale : 0 < scale) {paid n : ℤ}
    (hpaid : scale * paid ≤ claim scale acc a) :
    rounding scale acc a paid n ≤ scale - 1 := by
  have hmod := Int.emod_lt_of_pos (acc * n) hscale
  unfold rounding
  omega

/-- Yield accrues in proportion to the shares. -/
theorem claim_accrue (hshares : 0 ≤ a.shares) {k : ℤ} (hk : 0 ≤ k) :
    claim scale (acc + k) a ≤ claim scale acc a + k * a.shares := by
  have hgrow : 0 ≤ k * a.shares := mul_nonneg hk hshares
  have hexpand : (acc + k) * a.shares = acc * a.shares + k * a.shares := by
    ring
  unfold claim
  rw [hexpand]
  omega

theorem scale_mul_completed (k : ℤ) :
    scale * completed scale acc k a =
      k * a.shares + acc * a.shares % scale -
        (acc + k) * a.shares % scale := by
  have hexpand : (acc + k) * a.shares = acc * a.shares + k * a.shares := by
    ring
  have hsame : (acc * a.shares % scale + k * a.shares) % scale =
      (acc + k) * a.shares % scale := by
    rw [hexpand, Int.emod_add_emod]
  have hdecomp := Int.emod_add_mul_ediv
    (acc * a.shares % scale + k * a.shares) scale
  rw [hsame] at hdecomp
  unfold completed
  omega

/-- What an account can newly settle after the accumulator grew. -/
theorem pending_accrue (hscale : 0 < scale) {k : ℤ}
    (hgrow : 0 ≤ k * a.shares) :
    pending scale (acc + k) a - pending scale acc a =
      completed scale acc k a - withheld scale acc k a := by
  have hearned : (acc + k) * a.shares / scale =
      acc * a.shares / scale + completed scale acc k a := by
    have hexpand : (acc + k) * a.shares =
        (acc * a.shares % scale + k * a.shares) +
          scale * (acc * a.shares / scale) := by
      have hdecomp := Int.emod_add_mul_ediv (acc * a.shares) scale
      linarith [add_mul acc k a.shares]
    rw [hexpand, Int.add_mul_ediv_left _ _ hscale.ne', completed, add_comm]
  have hnonneg : 0 ≤ completed scale acc k a :=
    Int.ediv_nonneg (add_nonneg (Int.emod_nonneg _ hscale.ne') hgrow)
      hscale.le
  unfold pending withheld overdrawn
  rw [hearned]
  omega

/-- Fewer shares under the same debt claim less. -/
theorem claim_anti (hacc : 0 ≤ acc) {b : Account} (hdebt : b.debt = a.debt)
    (hshares : b.shares ≤ a.shares) :
    claim scale acc b ≤ claim scale acc a := by
  have hmul := mul_le_mul_of_nonneg_left hshares hacc
  unfold claim
  rw [hdebt]
  omega

end

end Yield

end Support
