import Parashield.OracleVerifier.Bounds
import Parashield.Support.Mass
import Mathlib.Algebra.Order.BigOperators.Group.List

/-!
# The weighted median is central

The scan walks up the sorted samples until it has half of the weight behind it.
Where it stops, at most half of the weight lies on either side, also where it
stops between two samples and returns a value that none of them has.
-/

namespace Parashield.OracleVerifier

open Support Check

/-- The scan went this far: what lies behind it is at most half. -/
structure Scanning (total cumulative : ℕ) (samples : List Sample) : Prop where
  sorted : samples.Pairwise fun x y => x.value ≤ y.value
  behind : 2 * cumulative ≤ total
  rest : cumulative + (samples.map Sample.weight).sum = total

section Scan

variable {total cumulative : ℕ} {samples rest : List Sample} {x y : Sample}
  {v : ℤ}

theorem Scanning.next (h : Scanning total cumulative (x :: rest))
    (hbehind : 2 * (cumulative + x.weight) ≤ total) :
    Scanning total (cumulative + x.weight) rest where
  sorted := h.sorted.of_cons
  behind := hbehind
  rest := by
    have hrest := h.rest
    rw [List.map_cons, List.sum_cons] at hrest
    omega

theorem Scanning.head_le (h : Scanning total cumulative (x :: rest)) :
    ∀ z ∈ rest, x.value ≤ z.value :=
  (List.pairwise_cons.mp h.sorted).1

/-- A value that lies between the first sample and the others. -/
theorem Scanning.central (h : Scanning total cumulative (x :: rest))
    (hx : x.value ≤ v) (hrest : ∀ z ∈ rest, v ≤ z.value)
    (hbelow : x.value < v → 2 * (cumulative + x.weight) ≤ total)
    (habove : total ≤ 2 * (cumulative + x.weight)) :
    2 * (cumulative +
        mass Sample.weight (fun z => z.value < v) (x :: rest)) ≤ total ∧
      2 * mass Sample.weight (fun z => v < z.value) (x :: rest) ≤ total := by
  have hbehind := h.behind
  have hsum := h.rest
  rw [List.map_cons, List.sum_cons] at hsum
  have hnone : mass Sample.weight (fun z => z.value < v) rest = 0 :=
    mass_eq_zero fun z hz => not_lt.mpr (hrest z hz)
  have hmost : mass Sample.weight (fun z => v < z.value) rest ≤
      (rest.map Sample.weight).sum := mass_le_sum
  rw [mass_cons, mass_cons, hnone, if_neg (not_lt.mpr hx)]
  constructor
  · split_ifs with hlt
    · have := hbelow hlt
      omega
    · omega
  · omega

theorem medianScan_central (h : Scanning total cumulative samples)
    (hscan : medianScan total cumulative samples = .ok v) :
    (∀ z ∈ samples.head?, z.value ≤ v) ∧
      2 * (cumulative +
        mass Sample.weight (fun z => z.value < v) samples) ≤ total ∧
      2 * mass Sample.weight (fun z => v < z.value) samples ≤ total := by
  induction samples generalizing cumulative with
  | nil => cases hscan
  | cons x rest ih =>
      have hhead := h.head_le
      simp only [List.head?_cons, Option.mem_def, Option.some.injEq,
        forall_eq']
      simp only [medianScan, bind_ok, unsigned_ok] at hscan
      obtain ⟨_, ⟨-, rfl⟩, hscan⟩ := hscan
      split_ifs at hscan with hpast hexact
      · -- more than half is reached with the first sample
        obtain rfl := pure_ok.mp hscan
        exact ⟨le_rfl, h.central le_rfl hhead (fun hlt => absurd hlt (lt_irrefl _))
          (by omega)⟩
      · cases rest with
        | nil =>
            obtain rfl := pure_ok.mp hscan
            exact ⟨le_rfl, h.central le_rfl hhead
              (fun hlt => absurd hlt (lt_irrefl _)) (by omega)⟩
        | cons y ys =>
            -- exactly half is reached, and the middle of the next two taken
            simp only [bind_ok, i128_ok, pure_ok] at hscan
            obtain ⟨_, ⟨-, rfl⟩, rfl⟩ := hscan
            have hxy := hhead y List.mem_cons_self
            obtain ⟨hlow, hhigh⟩ :
                x.value ≤ (x.value + y.value).tdiv 2 ∧
                  (x.value + y.value).tdiv 2 ≤ y.value :=
              tdiv_between (by decide) (by omega) (by omega)
            refine ⟨hlow, h.central hlow ?_ (fun _ => by omega) (by omega)⟩
            intro z hz
            rcases List.mem_cons.mp hz with rfl | hz
            · exact hhigh
            · exact hhigh.trans
                ((List.pairwise_cons.mp h.sorted.of_cons).1 z hz)
      · cases rest with
        | nil =>
            have hsum := h.rest
            rw [List.map_singleton, List.sum_singleton] at hsum
            omega
        | cons y ys =>
            have hbehind : 2 * (cumulative + x.weight) ≤ total := by omega
            obtain ⟨hy, hbelow, habove⟩ := ih (h.next hbehind) hscan
            have hle : x.value ≤ v :=
              (hhead y List.mem_cons_self).trans (hy y rfl)
            refine ⟨hle, ?_, ?_⟩
            · rw [mass_cons]
              split_ifs <;> omega
            · rw [mass_cons, if_neg (not_lt.mpr hle)]
              omega

end Scan

theorem byValue_total (x y : Sample) : ByValue x y ∨ ByValue y x := by
  unfold ByValue
  omega

theorem byValue_trans {x y z : Sample} (h : ByValue x y) (h' : ByValue y z) :
    ByValue x z := by
  unfold ByValue at *
  omega

theorem byValue_sorted (samples : List Sample) :
    (samples.insertionSort ByValue).Pairwise fun x y => x.value ≤ y.value := by
  have : Std.Total ByValue := ⟨byValue_total⟩
  have : IsTrans Sample ByValue := ⟨fun _ _ _ => byValue_trans⟩
  refine (List.pairwise_insertionSort ByValue samples).imp fun h => ?_
  unfold ByValue at h
  omega

section Median

variable {samples : List Sample}

theorem weightedMedian_central {v : ℤ}
    (h : weightedMedian samples (samples.map Sample.weight).sum = .ok v) :
    Central Sample.value Sample.weight samples v := by
  have hperm := samples.perm_insertionSort ByValue
  have hscanning : Scanning (samples.map Sample.weight).sum 0
      (samples.insertionSort ByValue) :=
    ⟨byValue_sorted samples, Nat.zero_le _,
      by rw [zero_add, (hperm.map Sample.weight).sum_eq]⟩
  obtain ⟨-, hbelow, habove⟩ := medianScan_central hscanning h
  rw [zero_add] at hbelow
  refine Central.perm (L := samples.insertionSort ByValue) ⟨?_, ?_⟩ hperm
  · rwa [(hperm.map Sample.weight).sum_eq]
  · rwa [(hperm.map Sample.weight).sum_eq]

/-- For samples that the contract can hold, the weighted median is there and
central, so that a majority of the weight decides where it lies. -/
theorem weighted_median_robust (samples : List Sample)
    (hne : samples ≠ []) (hlen : samples.length ≤ maxDataPoints)
    (hweight : ∀ x ∈ samples, 1 ≤ x.weight ∧ x.weight ≤ 100000)
    (hcap : ∀ x ∈ samples, |x.value| ≤ maxDataValue) :
    ∃ m, weightedMedian samples (samples.map Sample.weight).sum = .ok m ∧
      Central Sample.value Sample.weight samples m ∧
      ∀ a b, (samples.map Sample.weight).sum <
          2 * mass Sample.weight (fun x => a ≤ x.value ∧ x.value ≤ b)
            samples →
        a ≤ m ∧ m ≤ b := by
  have hsum := List.sum_le_card_nsmul (samples.map Sample.weight) 100000
    fun w hw => by
      obtain ⟨x, hx, rfl⟩ := List.mem_map.mp hw
      exact (hweight x hx).2
  rw [List.length_map, Nat.nsmul_eq_mul] at hsum
  have hfits : (samples.map Sample.weight).sum < 2 ^ 32 := by
    simp only [maxDataPoints] at hlen
    omega
  have hnever : (weightedMedian samples
      (samples.map Sample.weight).sum).Avoids fun _ => True :=
    weightedMedian_avoids hcap hne hfits
  cases hmedian : weightedMedian samples (samples.map Sample.weight).sum with
  | error e => exact absurd trivial (hnever e hmedian)
  | ok m =>
      have hcentral := weightedMedian_central hmedian
      exact ⟨m, rfl, hcentral, fun a b => hcentral.between⟩

/-- Two of three readings of a drought hold the aggregate, whatever the third
says. -/
theorem weighted_median_robust_drought :
    ∃ m, weightedMedian [⟨40, 100, 0⟩, ⟨-900, 120, 1⟩, ⟨42, 90, 2⟩] 310 =
        .ok m ∧ 40 ≤ m ∧ m ≤ 42 := by
  obtain ⟨m, hmedian, -, hrobust⟩ := weighted_median_robust
    [⟨40, 100, 0⟩, ⟨-900, 120, 1⟩, ⟨42, 90, 2⟩] (by decide) (by decide) (by decide) (by decide)
  exact ⟨m, hmedian, hrobust 40 42 (by decide)⟩

end Median

end Parashield.OracleVerifier
