import Parashield.Support.Mass

/-!
# Quantiles of weighted lists

The least value at which the weight, added up from below, reaches a share of the
whole.  It depends on the items of the list and not on their order.  Where the
share is reached without excess, the next greater value is the other candidate.
-/

namespace Support

variable {ι : Type*} {β : Type*} [LinearOrder β]

/-- The weight of the items with values up to `b`. -/
def upTo (v : ι → β) (w : ι → ℕ) (L : List ι) (b : β) : ℕ :=
  mass w (fun x => v x ≤ b) L

/-- The least value up to which the weight reaches `share`. -/
structure Quantile (v : ι → β) (w : ι → ℕ) (L : List ι) (share : ℕ) (b : β) :
    Prop where
  mem : ∃ x ∈ L, v x = b
  reached : share ≤ upTo v w L b
  least : ∀ x ∈ L, v x < b → upTo v w L (v x) < share

/-- Values with none of the others in between. -/
structure Adjacent (v : ι → β) (L : List ι) (b b' : β) : Prop where
  left : ∃ x ∈ L, v x = b
  right : ∃ x ∈ L, v x = b'
  lt : b < b'
  between : ∀ x ∈ L, b < v x → b' ≤ v x

section Quantile

variable {v : ι → β} {w : ι → ℕ} {L M : List ι} {x : ι} {share : ℕ}
  {a a' b b' : β}

theorem upTo_cons_of_le (hx : v x ≤ b) :
    upTo v w (x :: L) b = w x + upTo v w L b := by
  rw [upTo, mass_cons, if_pos hx]
  rfl

theorem upTo_mono (hle : b ≤ b') : upTo v w L b ≤ upTo v w L b' :=
  mass_mono fun _ _ hx => hx.trans hle

theorem upTo_eq_zero (h : ∀ y ∈ L, b < v y) : upTo v w L b = 0 :=
  mass_eq_zero fun y hy => not_le.mpr (h y hy)

/-- A step up to a greater value adds the weight of its items. -/
theorem upTo_lt_upTo (hpos : ∀ y ∈ L, 1 ≤ w y) (hx : x ∈ L) (hlt : b < v x) :
    upTo v w L b < upTo v w L (v x) := by
  induction L with
  | nil => cases hx
  | cons y ys ih =>
      have hmono : upTo v w ys b ≤ upTo v w ys (v x) := upTo_mono hlt.le
      rcases List.mem_cons.mp hx with rfl | hmem
      · have hone := hpos x List.mem_cons_self
        have hnot : ¬ v x ≤ b := not_le.mpr hlt
        rw [upTo_cons_of_le le_rfl, upTo, mass_cons, if_neg hnot]
        unfold upTo at hmono ⊢
        omega
      · have hys := ih (fun z hz => hpos z (List.mem_cons_of_mem y hz)) hmem
        unfold upTo at hys ⊢
        rw [mass_cons, mass_cons]
        by_cases hy : v y ≤ b
        · rw [if_pos hy, if_pos (hy.trans hlt.le)]
          omega
        · rw [if_neg hy]
          omega

theorem Quantile.perm (h : Quantile v w L share b) (hperm : L.Perm M) :
    Quantile v w M share b := by
  have hupTo : ∀ c, upTo v w M c = upTo v w L c := fun c =>
    (mass_perm hperm).symm
  refine ⟨?_, ?_, fun y hy hlt => ?_⟩
  · obtain ⟨y, hy, hvalue⟩ := h.mem
    exact ⟨y, hperm.mem_iff.mp hy, hvalue⟩
  · rw [hupTo]
    exact h.reached
  · rw [hupTo]
    exact h.least y (hperm.mem_iff.mpr hy) hlt

theorem Quantile.unique (h : Quantile v w L share b)
    (h' : Quantile v w L share b') : b = b' := by
  obtain ⟨x, hx, rfl⟩ := h.mem
  obtain ⟨x', hx', rfl⟩ := h'.mem
  rcases lt_trichotomy (v x) (v x') with hlt | heq | hlt
  · exact absurd h.reached (not_le.mpr (h'.least x hx hlt))
  · exact heq
  · exact absurd h'.reached (not_le.mpr (h.least x' hx' hlt))

/-- A value whose share is exact is where the share is reached first. -/
theorem Quantile.of_upTo_eq (hpos : ∀ y ∈ L, 1 ≤ w y) (hb : ∃ y ∈ L, v y = b)
    (h : upTo v w L b = share) : Quantile v w L share b where
  mem := hb
  reached := h.ge
  least y _ hlt := by
    obtain ⟨z, hz, rfl⟩ := hb
    rw [← h]
    exact upTo_lt_upTo hpos hz hlt

/-! ### A sorted list from its first item on -/

theorem Quantile.head (hsorted : ∀ y ∈ L, v x ≤ v y) (h : share ≤ w x) :
    Quantile v w (x :: L) share (v x) where
  mem := ⟨x, List.mem_cons_self, rfl⟩
  reached := by
    rw [upTo_cons_of_le le_rfl]
    omega
  least y hy hlt := by
    rcases List.mem_cons.mp hy with rfl | hmem
    · exact absurd hlt (lt_irrefl _)
    · exact absurd hlt (not_lt.mpr (hsorted y hmem))

theorem Quantile.cons (hsorted : ∀ y ∈ L, v x ≤ v y) (hlt : w x < share)
    (h : Quantile v w L (share - w x) b) : Quantile v w (x :: L) share b := by
  obtain ⟨z, hz, rfl⟩ := h.mem
  have hx : v x ≤ v z := hsorted z hz
  refine ⟨⟨z, List.mem_cons_of_mem x hz, rfl⟩, ?_, fun y hy hyz => ?_⟩
  · have hreached := h.reached
    rw [upTo_cons_of_le hx]
    omega
  · have hxy : v x ≤ v y := by
      rcases List.mem_cons.mp hy with rfl | hmem
      · exact le_rfl
      · exact hsorted y hmem
    rw [upTo_cons_of_le hxy]
    by_cases hsome : ∃ u ∈ L, v u = v y
    · obtain ⟨u, hu, hvalue⟩ := hsome
      have hleast := h.least u hu (hvalue ▸ hyz)
      rw [hvalue] at hleast
      omega
    · -- then `y` is `x`, and the rest lies above it
      rcases List.mem_cons.mp hy with rfl | hmem
      · have hzero : upTo v w L (v y) = 0 := upTo_eq_zero fun u hu =>
          lt_of_le_of_ne (hsorted u hu) fun heq => hsome ⟨u, hu, heq.symm⟩
        omega
      · exact absurd ⟨y, hmem, rfl⟩ hsome

theorem Adjacent.cons (hx : v x ≤ b) (h : Adjacent v L b b') :
    Adjacent v (x :: L) b b' where
  left := by
    obtain ⟨y, hy, hvalue⟩ := h.left
    exact ⟨y, List.mem_cons_of_mem x hy, hvalue⟩
  right := by
    obtain ⟨y, hy, hvalue⟩ := h.right
    exact ⟨y, List.mem_cons_of_mem x hy, hvalue⟩
  lt := h.lt
  between y hy hlt := by
    rcases List.mem_cons.mp hy with rfl | hmem
    · exact absurd hlt (not_lt.mpr hx)
    · exact h.between y hmem hlt

theorem Adjacent.perm (h : Adjacent v L b b') (hperm : L.Perm M) :
    Adjacent v M b b' where
  left := by
    obtain ⟨y, hy, hvalue⟩ := h.left
    exact ⟨y, hperm.mem_iff.mp hy, hvalue⟩
  right := by
    obtain ⟨y, hy, hvalue⟩ := h.right
    exact ⟨y, hperm.mem_iff.mp hy, hvalue⟩
  lt := h.lt
  between y hy hlt := h.between y (hperm.mem_iff.mpr hy) hlt

theorem Adjacent.unique (h : Adjacent v L b a) (h' : Adjacent v L b a') :
    a = a' := by
  obtain ⟨y, hy, rfl⟩ := h.right
  obtain ⟨y', hy', rfl⟩ := h'.right
  exact le_antisymm (h.between y' hy' h'.lt) (h'.between y hy h.lt)

end Quantile

end Support
