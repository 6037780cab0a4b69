import Parashield.OracleVerifier.Averages
import Parashield.OracleVerifier.Orderings

/-!
# Samples of one time

In the time-weighted average the last of several samples of one time prevails
until the next time, and the others for a second.  Which one is last depends on
the order of the samples, unless they have the same say or the next time comes
within a second.
-/

namespace Parashield.OracleVerifier

open Support Check

section Times

variable {now t : ℕ} {samples samples' all rest pre post : List Sample}
  {x y : Sample}

/-- When the next sample comes after one of time `t`, or now. -/
def finish (now t : ℕ) (rest : List Sample) : ℕ :=
  match rest with
  | y :: _ => y.timestamp
  | [] => max now t

/-- What is measured of a sample that prevails until `stop`. -/
def measured (stop : ℕ) (x : Sample) : ℤ × ℤ :=
  (x.value, satI128 ((max (stop - x.timestamp) 1 : ℕ) * x.weight))

theorem weightedDurations_cons :
    weightedDurations now (x :: rest) =
      measured (finish now x.timestamp rest) x ::
        weightedDurations now rest := by
  cases rest with
  | nil => rfl
  | cons y rest => rfl

/-- A reading of time `t` prevails for a second at most. -/
def Momentary (now : ℕ) (samples : List Sample) (t : ℕ) : Prop :=
  (∃ z ∈ samples, z.timestamp = t + 1) ∨
    now ≤ t + 1 ∧ ∀ z ∈ samples, z.timestamp ≤ t

instance (now : ℕ) (samples : List Sample) (t : ℕ) :
    Decidable (Momentary now samples t) :=
  inferInstanceAs (Decidable (_ ∨ _))

/-- Samples in the order of their times, with all later ones of `all`. -/
structure Latest (all samples : List Sample) : Prop where
  sorted : samples.Pairwise fun x y => x.timestamp ≤ y.timestamp
  within : ∀ z ∈ samples, z ∈ all
  later : ∀ z ∈ all, ∀ x ∈ samples, x.timestamp < z.timestamp → z ∈ samples

theorem Latest.tail (h : Latest all (x :: rest)) : Latest all rest where
  sorted := h.sorted.of_cons
  within := fun z hz => h.within z (List.mem_cons_of_mem x hz)
  later := by
    intro z hz y hy hlt
    have hxy := List.rel_of_pairwise_cons h.sorted hy
    rcases List.mem_cons.mp (h.later z hz y (List.mem_cons_of_mem x hy) hlt)
      with rfl | hmem
    · omega
    · exact hmem

/-- After the samples of a momentary time, the next one comes within a
second. -/
theorem finish_momentary (hmoment : Momentary now all t)
    (hsorted : rest.Pairwise fun x y => x.timestamp ≤ y.timestamp)
    (hwithin : ∀ z ∈ rest, z ∈ all)
    (hlater : ∀ z ∈ all, t < z.timestamp → z ∈ rest) :
    finish now t rest ≤ t + 1 := by
  cases rest with
  | nil =>
      rcases hmoment with ⟨z, hz, hnext⟩ | ⟨hnow, -⟩
      · cases hlater z hz (by omega)
      · exact max_le hnow (Nat.le_succ t)
  | cons y rest =>
      show y.timestamp ≤ t + 1
      rcases hmoment with ⟨z, hz, hnext⟩ | ⟨-, hall⟩
      · rcases List.mem_cons.mp (hlater z hz (by omega)) with rfl | hmem
        · exact hnext.le
        · exact (List.rel_of_pairwise_cons hsorted hmem).trans hnext.le
      · exact (hall y (hwithin y List.mem_cons_self)).trans (Nat.le_succ t)

/-- Samples of one time have the same say, or prevail for a second each. -/
def Coincide (now : ℕ) (samples : List Sample) : Prop :=
  ∀ x ∈ samples, ∀ y ∈ samples, x.timestamp = y.timestamp →
    x.say = y.say ∨ Momentary now samples x.timestamp

instance (now : ℕ) (samples : List Sample) :
    Decidable (Coincide now samples) :=
  inferInstanceAs (Decidable (∀ x ∈ samples, ∀ y ∈ samples, _ → _))

theorem measured_say {stop : ℕ} (hsay : x.say = y.say)
    (htime : x.timestamp = y.timestamp) :
    measured stop x = measured stop y := by
  obtain ⟨hvalue, hweight⟩ := say_eq.mp hsay
  rw [measured, measured, hvalue, hweight, htime]

/-- Of two samples of one time, either may come first. -/
theorem measured_swap {stop : ℕ} (htime : x.timestamp = y.timestamp)
    (h : x.say = y.say ∨ stop ≤ x.timestamp + 1) (rows : List (ℤ × ℤ)) :
    (measured x.timestamp y :: measured stop x :: rows).Perm
      (measured y.timestamp x :: measured stop y :: rows) := by
  rcases h with hsay | hstop
  · rw [measured_say hsay htime, measured_say hsay.symm htime.symm, htime]
  · have hsecond (z : Sample) (hz : z.timestamp = x.timestamp) :
        measured stop z = measured x.timestamp z := by
      rw [measured, measured, hz, max_eq_right (by omega),
        max_eq_right (by omega)]
    rw [hsecond x rfl, hsecond y htime.symm, ← htime]
    exact .swap _ _ _

/-- A sample may come before those of its time. -/
theorem weightedDurations_front (now : ℕ)
    (hpre : ∀ y ∈ pre, x.timestamp = y.timestamp)
    (h : ∀ y ∈ pre,
      x.say = y.say ∨ finish now x.timestamp post ≤ x.timestamp + 1) :
    (weightedDurations now (pre ++ x :: post)).Perm
      (weightedDurations now (x :: (pre ++ post))) := by
  induction pre with
  | nil => exact .refl _
  | cons y pre ih =>
      obtain ⟨hy, hpre⟩ := List.forall_mem_cons.mp hpre
      obtain ⟨hsay, hrest⟩ := List.forall_mem_cons.mp h
      have hnext : finish now y.timestamp (pre ++ x :: post) =
          x.timestamp := by
        cases pre with
        | nil => rfl
        | cons z pre => exact (hpre z List.mem_cons_self).symm
      have hstop : x.say = y.say ∨
          finish now x.timestamp (pre ++ post) ≤ x.timestamp + 1 := by
        cases pre with
        | nil => exact hsay
        | cons z pre =>
            have hz := hpre z List.mem_cons_self
            exact .inr (hz.symm.le.trans (Nat.le_succ _))
      rw [List.cons_append, List.cons_append, weightedDurations_cons, hnext]
      refine ((ih hpre hrest).cons _).trans ?_
      rw [weightedDurations_cons, weightedDurations_cons (x := x),
        weightedDurations_cons, ← hy]
      exact measured_swap hy hstop _

theorem finish_perm
    (hsorted : samples.Pairwise fun x y => x.timestamp ≤ y.timestamp)
    (hsorted' : samples'.Pairwise fun x y => x.timestamp ≤ y.timestamp)
    (h : samples.Perm samples') :
    finish now t samples = finish now t samples' := by
  cases samples with
  | nil =>
      obtain rfl := h.symm.eq_nil
      rfl
  | cons x rest =>
      cases samples' with
      | nil => cases h.eq_nil
      | cons y rest' =>
          have hle {x y : Sample} {rest : List Sample}
              (hsorted : (x :: rest).Pairwise fun x y =>
                x.timestamp ≤ y.timestamp) (hy : y ∈ x :: rest) :
              x.timestamp ≤ y.timestamp := by
            rcases List.mem_cons.mp hy with rfl | hy
            · exact le_rfl
            · exact List.rel_of_pairwise_cons hsorted hy
          exact le_antisymm
            (hle hsorted (h.mem_iff.mpr List.mem_cons_self))
            (hle hsorted' (h.mem_iff.mp List.mem_cons_self))

/-- In whatever order of their times, the samples prevail alike. -/
theorem weightedDurations_perm (hall : Coincide now all)
    (hlatest : Latest all samples)
    (hsorted : samples'.Pairwise fun x y => x.timestamp ≤ y.timestamp)
    (h : samples.Perm samples') :
    (weightedDurations now samples).Perm (weightedDurations now samples') := by
  induction samples generalizing samples' with
  | nil =>
      obtain rfl := h.symm.eq_nil
      exact .refl _
  | cons x rest ih =>
      have hxall := hlatest.within x List.mem_cons_self
      obtain ⟨pre, post, rfl⟩ :=
        List.append_of_mem (h.mem_iff.mp List.mem_cons_self)
      have hrest : rest.Perm (pre ++ post) :=
        (h.trans List.perm_middle).cons_inv
      obtain ⟨-, hpost, hbefore⟩ := List.pairwise_append.mp hsorted
      have hpre : ∀ y ∈ pre, x.timestamp = y.timestamp := by
        intro y hy
        have hmem : y ∈ rest := hrest.mem_iff.mpr (List.mem_append_left _ hy)
        exact le_antisymm (List.rel_of_pairwise_cons hlatest.sorted hmem)
          (hbefore y hy x List.mem_cons_self)
      have hsorted' : (pre ++ post).Pairwise fun x y =>
          x.timestamp ≤ y.timestamp :=
        hsorted.sublist ((List.sublist_cons_self x post).append_left pre)
      have hmoved := weightedDurations_front now hpre
        fun y hy => by
          have hyall := hlatest.within y (List.mem_cons_of_mem x
            (hrest.mem_iff.mpr (List.mem_append_left post hy)))
          refine (hall x hxall y hyall (hpre y hy)).imp_right fun hmoment => ?_
          refine finish_momentary hmoment hpost.of_cons
            (fun z hz => hlatest.within z (List.mem_cons_of_mem x
              (hrest.mem_iff.mpr (List.mem_append_right pre hz)))) ?_
          intro z hz hlt
          have hmem := h.mem_iff.mp
            (hlatest.later z hz x List.mem_cons_self hlt)
          rcases List.mem_append.mp hmem with hz | hz
          · have := hpre z hz
            omega
          · rcases List.mem_cons.mp hz with rfl | hz
            · omega
            · exact hz
      refine .trans ?_ hmoved.symm
      rw [weightedDurations_cons, weightedDurations_cons,
        finish_perm hlatest.tail.sorted hsorted' hrest]
      exact (ih hlatest.tail hsorted' hrest).cons _

theorem weightedDurations_pos (now : ℕ) (h : ∀ x ∈ samples, 1 ≤ x.weight) :
    ∀ r ∈ weightedDurations now samples, 1 ≤ r.2 := by
  induction samples with
  | nil => nofun
  | cons x rest ih =>
      obtain ⟨hx, hrest⟩ := List.forall_mem_cons.mp h
      rw [weightedDurations_cons, List.forall_mem_cons]
      refine ⟨le_satI128 ?_ (by decide), ih hrest⟩
      rw [← Nat.cast_mul]
      exact_mod_cast Nat.mul_pos (le_max_right _ 1) hx

/-- Samples of one time have the same say, or prevail for a second each and are
added up without saturation. -/
def Timely (now : ℕ) (samples : List Sample) : Prop :=
  (∀ x ∈ samples, ∀ y ∈ samples, x.timestamp = y.timestamp →
      x.say = y.say) ∨
    Coincide now samples ∧
      Steady minI128 maxI128
        ((weightedDurations now (byTime samples)).map fun r =>
          satI128 (r.1 * r.2))

instance (now : ℕ) (samples : List Sample) : Decidable (Timely now samples) :=
  inferInstanceAs (Decidable
    ((∀ x ∈ samples, ∀ y ∈ samples, _ → _) ∨ _))

theorem byTime_sorted (samples : List Sample) :
    (byTime samples).Pairwise fun x y => x.timestamp ≤ y.timestamp := by
  have : Std.Total fun x y : Sample => x.timestamp ≤ y.timestamp :=
    ⟨fun _ _ => le_total _ _⟩
  have : IsTrans Sample fun x y => x.timestamp ≤ y.timestamp :=
    ⟨fun _ _ _ => le_trans⟩
  exact List.pairwise_insertionSort _ _

theorem byTime_latest (samples : List Sample) :
    Latest samples (byTime samples) where
  sorted := byTime_sorted samples
  within := fun _ hz => byTime_perm.mem_iff.mp hz
  later := fun _ hz _ _ _ => byTime_perm.mem_iff.mpr hz

/-- The average over two or more samples in the order of their times. -/
def averaged (now : ℕ) (active : List Sample) : ℤ :=
  let rows := weightedDurations now active
  let weightedSum := satSum (rows.map fun r => satI128 (r.1 * r.2))
  let totalWeightedDuration := satSum (rows.map Prod.snd)
  if totalWeightedDuration = 0 then
    (active.getLast?.map Sample.value).getD 0
  else
    weightedSum.tdiv totalWeightedDuration

theorem timeWeightedAverage_long (h : samples.length ≠ 1) :
    timeWeightedAverage now samples = averaged now (byTime samples) := by
  unfold timeWeightedAverage
  split
  · exact absurd rfl h
  · rfl

theorem averaged_of_pos (hne : samples ≠ [])
    (hweight : ∀ x ∈ samples, 1 ≤ x.weight) :
    averaged now samples =
      (satSum ((weightedDurations now samples).map fun r =>
          satI128 (r.1 * r.2))).tdiv
        (min ((weightedDurations now samples).map Prod.snd).sum maxI128) := by
  have hpos := weightedDurations_pos now hweight
  have hdurations : ∀ d ∈ (weightedDurations now samples).map Prod.snd,
      0 < d := by
    intro d hd
    obtain ⟨r, hr, rfl⟩ := List.mem_map.mp hd
    exact hpos r hr
  have hsum : 0 < ((weightedDurations now samples).map Prod.snd).sum := by
    refine List.sum_pos _ hdurations fun hnil => hne ?_
    have hlength := congrArg List.length hnil
    rw [List.length_map, weightedDurations_length] at hlength
    exact List.length_eq_zero_iff.mp hlength
  have htotal := satSum_nonneg_eq fun d hd => (hdurations d hd).le
  have hmax : 0 < maxI128 := by decide
  rw [averaged, htotal]
  exact if_neg (by omega)

theorem timeWeightedAverage_perm (htimely : Timely now samples)
    (hweight : ∀ x ∈ samples, 1 ≤ x.weight) (h : samples.Perm samples') :
    timeWeightedAverage now samples = timeWeightedAverage now samples' := by
  by_cases hone : samples.length = 1
  · obtain ⟨x, rfl⟩ := List.length_eq_one_iff.mp hone
    rw [List.singleton_perm.mp h]
  · have hsorts : (byTime samples).Perm (byTime samples') :=
      byTime_perm.trans (h.trans byTime_perm.symm)
    rw [timeWeightedAverage_long hone,
      timeWeightedAverage_long (h.length_eq ▸ hone)]
    rcases htimely with hsay | ⟨hcoincide, hsteady⟩
    · have hsame : byTime samples = byTime samples' := by
        refine List.Perm.eq_of_pairwise (fun x y hx hy hxy hyx => ?_)
          (byTime_sorted samples) (byTime_sorted samples') hsorts
        have htime := le_antisymm hxy hyx
        obtain ⟨hvalue, hweight⟩ := say_eq.mp (hsay x
          (byTime_perm.mem_iff.mp hx) y
          (h.mem_iff.mpr (byTime_perm.mem_iff.mp hy)) htime)
        cases x
        cases y
        simp_all
      rw [hsame]
    · rcases eq_or_ne samples [] with rfl | hne
      · rw [h.symm.eq_nil]
      · have hrows := weightedDurations_perm hcoincide
          (byTime_latest samples) (byTime_sorted samples') hsorts
        have hne' (samples : List Sample) (hne : samples ≠ []) :
            byTime samples ≠ [] := fun hnil =>
          hne (byTime_perm.symm.trans (.of_eq hnil)).eq_nil
        rw [averaged_of_pos (hne' samples hne)
            fun x hx => hweight x (byTime_perm.mem_iff.mp hx),
          averaged_of_pos (hne' samples' fun hnil => hne (hnil ▸ h).eq_nil)
            fun x hx => hweight x
              (h.mem_iff.mpr (byTime_perm.mem_iff.mp hx)),
          satSum_perm hsteady (hrows.map _), (hrows.map Prod.snd).sum_eq]

end Times

end Parashield.OracleVerifier
