import Parashield.OracleVerifier.Aggregation
import Parashield.Support.Proportion

/-!
# Oracle verifier: aggregates under two weightings

The readings that are eligible for a key can be weighted in two ways, by
registered or by effective weights, and effective weights change over time.
This module says when two weightings lead to the same aggregate: when they
coincide, when they are proportional and the method only looks at shares of
the total, or when the method does not look at weights at all.
-/

namespace Parashield.OracleVerifier

open Support Check

/-- An eligible reading with the registration of its oracle. -/
abbrev Row := OracleDataPoint × OracleEntry

/-- The row as a sample of weight `w`. -/
def Row.sample (w : Row → ℕ) (x : Row) : Sample where
  value := x.1.value
  weight := w x
  timestamp := x.1.timestamp

@[simp] theorem Row.sample_value (w : Row → ℕ) (x : Row) :
    (x.sample w).value = x.1.value := rfl

@[simp] theorem Row.sample_weight (w : Row → ℕ) (x : Row) :
    (x.sample w).weight = w x := rfl

theorem map_sample_value (w : Row → ℕ) (L : List Row) :
    (L.map (Row.sample w)).map Sample.value = L.map fun x => x.1.value := by
  simp [Function.comp_def]

theorem map_sample_weight (w : Row → ℕ) (L : List Row) :
    (L.map (Row.sample w)).map Sample.weight = L.map w := by
  simp [Function.comp_def]

/-! ## Sorting -/

/-- Sorting rows by a property of their samples and then sampling them is
sampling them and then sorting. -/
theorem insertionSort_map {α β : Type} (f : α → β) (r : β → β → Prop)
    [DecidableRel r] (L : List α) :
    (L.map f).insertionSort r =
      (L.insertionSort fun a b => r (f a) (f b)).map f :=
  (List.map_insertionSort (fun a b => r (f a) (f b)) r f L
    fun _ _ _ _ => Iff.rfl).symm

/-- Relations that agree on a list sort it alike. -/
theorem insertionSort_congr {α : Type} {r r' : α → α → Prop}
    [DecidableRel r] [DecidableRel r'] {L : List α}
    (h : ∀ a ∈ L, ∀ b ∈ L, r a b ↔ r' a b) :
    L.insertionSort r = L.insertionSort r' := by
  have hmap := List.map_insertionSort r r' id L h
  simpa using hmap

theorem mem_of_mem_zipIdx {α : Type} {L : List α} {p : α × ℕ}
    (h : p ∈ L.zipIdx) : p.1 ∈ L :=
  List.mem_of_getElem? (List.mem_zipIdx_iff_getElem?.mp h)

/-- Of a list with positions, what is not at one of the first `count` positions
of another arrangement is the rest of that arrangement. -/
theorem unflagged_perm {α : Type} {L : List α} {order : List (α × ℕ)}
    (hperm : order.Perm L.zipIdx) (count : ℕ) :
    ((L.zipIdx.filter fun p =>
      decide (p.2 ∉ (order.take count).map Prod.snd)).map Prod.fst).Perm
      ((order.drop count).map Prod.fst) := by
  have hnodup : (order.map Prod.snd).Nodup := by
    rw [(hperm.map Prod.snd).nodup_iff, List.zipIdx_map_snd]
    exact List.nodup_range'
  have hsplit :
      (order.filter fun p =>
        decide (p.2 ∉ (order.take count).map Prod.snd)) =
        order.drop count := by
    conv_lhs =>
      arg 2
      rw [← List.take_append_drop count order]
    rw [List.filter_append]
    have htake :
        (order.take count).filter (fun p =>
          decide (p.2 ∉ (order.take count).map Prod.snd)) = [] := by
      rw [List.filter_eq_nil_iff]
      intro p hp
      rw [decide_eq_true_eq, not_not]
      exact List.mem_map_of_mem hp
    have hdrop :
        (order.drop count).filter (fun p =>
          decide (p.2 ∉ (order.take count).map Prod.snd)) =
          order.drop count := by
      rw [List.filter_eq_self]
      intro p hp
      rw [decide_eq_true_eq]
      rw [← List.take_append_drop count order, List.map_append,
        List.nodup_append] at hnodup
      intro hmem
      exact hnodup.2.2 _ hmem _ (List.mem_map_of_mem hp) rfl
    rw [htake, hdrop, List.nil_append]
  rw [← hsplit]
  exact (hperm.symm.filter _).map Prod.fst

section Sampled

variable {a b : ℕ} {L M : List Row} {w w' : Row → ℕ}

theorem byValue_iff (h : Scaled a b L w w') {x y : Row} (hx : x ∈ L)
    (hy : y ∈ L) :
    ByValue (x.sample w) (y.sample w) ↔
      ByValue (x.sample w') (y.sample w') := by
  simp only [ByValue, Row.sample_value, Row.sample_weight, h.le_iff hx hy]

theorem worse_iff (h : Scaled a b L w w') (median : ℤ) {x y : Row × ℕ}
    (hx : x.1 ∈ L) (hy : y.1 ∈ L) :
    Worse median (x.1.sample w, x.2) (y.1.sample w, y.2) ↔
      Worse median (x.1.sample w', x.2) (y.1.sample w', y.2) := by
  simp only [Worse, Row.sample_value, Row.sample_weight, h.le_iff hx hy]

/-- The positioned row as a positioned sample. -/
def positioned (w : Row → ℕ) (x : Row × ℕ) : Sample × ℕ :=
  (x.1.sample w, x.2)

/-- The removal order, on rows. -/
def rowOrder (median : ℤ) (w : Row → ℕ) (L : List Row) : List (Row × ℕ) :=
  L.zipIdx.insertionSort fun x y =>
    Worse median (positioned w x) (positioned w y)

theorem removalOrder_map (median : ℤ) (w : Row → ℕ) (L : List Row) :
    removalOrder median (L.map (Row.sample w)) =
      (rowOrder median w L).map (positioned w) := by
  have hzip : (L.map (Row.sample w)).zipIdx = L.zipIdx.map (positioned w) := by
    rw [List.zipIdx_map]
    rfl
  rw [removalOrder, hzip, insertionSort_map]
  rfl

theorem rowOrder_congr (h : Scaled a b L w w') (median : ℤ) :
    rowOrder median w L = rowOrder median w' L := by
  apply insertionSort_congr
  intro x hx y hy
  exact worse_iff h median (mem_of_mem_zipIdx hx) (mem_of_mem_zipIdx hy)

/-- The rows that stay when `count` are dropped. -/
def keptRows (median : ℤ) (count : ℕ) (w : Row → ℕ) (L : List Row) :
    List Row :=
  let flagged := ((rowOrder median w L).take count).map Prod.snd
  (L.zipIdx.filter fun p => decide (p.2 ∉ flagged)).map Prod.fst

theorem keptRows_subset {median : ℤ} {count : ℕ} {x : Row}
    (hx : x ∈ keptRows median count w L) : x ∈ L := by
  obtain ⟨p, hp, rfl⟩ := List.mem_map.mp hx
  exact mem_of_mem_zipIdx (List.mem_filter.mp hp).1

theorem dropOutliers_map (median : ℤ) (count : ℕ) (w : Row → ℕ)
    (L : List Row) :
    dropOutliers median count (L.map (Row.sample w)) =
      (keptRows median count w L).map (Row.sample w) := by
  have hzip : (L.map (Row.sample w)).zipIdx = L.zipIdx.map (positioned w) := by
    rw [List.zipIdx_map]
    rfl
  have hsnd : ((rowOrder median w L).map (positioned w)).take count =
      ((rowOrder median w L).take count).map (positioned w) :=
    List.map_take.symm
  simp only [dropOutliers, keptRows, removalOrder_map, hzip, hsnd,
    List.filter_map, List.map_map]
  rfl

/-! ## The filter on rows -/

/-- How many rows the filter drops. -/
def droppedCount (config : OutlierConfig) (bounds : ℤ × ℤ) (w : Row → ℕ)
    (L : List Row) : ℕ :=
  outlierCount bounds.1 bounds.2 (max config.minSampleSize 1) L.length
    ((rowOrder bounds.1 w L).map fun p => p.1.1.value)

/-- The outlier filter, on rows. -/
def filterRows (config : OutlierConfig) (w : Row → ℕ) (L : List Row) :
    View (List Row) :=
  if config.applies L.length then do
    let bounds ← outlierBounds config (L.map fun x => x.1.value)
    pure (keptRows bounds.1 (droppedCount config bounds w L) w L)
  else
    pure L

theorem filterOutliers_ok {config : OutlierConfig} {kept : List Sample}
    (h : filterOutliers config (L.map (Row.sample w)) = .ok kept) :
    ∃ M, filterRows config w L = .ok M ∧ kept = M.map (Row.sample w) := by
  unfold filterOutliers at h
  unfold filterRows
  rw [List.length_map] at h
  split at h
  · next happ =>
      rw [if_pos happ]
      simp only [bind_ok, pure_ok, map_sample_value] at h
      obtain ⟨⟨median, limit⟩, hbounds, rfl⟩ := h
      refine ⟨_, ?_, dropOutliers_map median _ w L⟩
      rw [hbounds]
      simp only [bind_ok, pure_ok, Except.ok.injEq, exists_eq_left',
        droppedCount, removalOrder_map, List.map_map]
      rfl
  · next happ =>
      rw [if_neg happ]
      rw [pure_ok] at h
      exact ⟨L, rfl, h⟩

theorem filterRows_subset {config : OutlierConfig}
    (h : filterRows config w L = .ok M) : ∀ x ∈ M, x ∈ L := by
  unfold filterRows at h
  split at h
  · simp only [bind_ok, pure_ok] at h
    obtain ⟨bounds, -, rfl⟩ := h
    intro x hx
    exact keptRows_subset hx
  · obtain rfl := pure_ok.mp h
    exact fun x hx => hx

theorem filterRows_length {config : OutlierConfig}
    (h : filterRows config w L = .ok M) : M.length ≤ L.length := by
  unfold filterRows at h
  split at h
  · simp only [bind_ok, pure_ok] at h
    obtain ⟨bounds, -, rfl⟩ := h
    calc
      (keptRows bounds.1 (droppedCount config bounds w L) w L).length ≤
          L.zipIdx.length := by
        rw [keptRows, List.length_map]
        exact List.length_filter_le _ _
      _ = L.length := List.length_zipIdx
  · obtain rfl := pure_ok.mp h
    exact le_rfl

/-- Proportional weights filter alike. -/
theorem filterRows_congr (h : Scaled a b L w w') (config : OutlierConfig) :
    filterRows config w L = filterRows config w' L := by
  have hkept : ∀ median count,
      keptRows median count w L = keptRows median count w' L := by
    intro median count
    rw [keptRows, keptRows, rowOrder_congr h]
  have hcount : ∀ bounds,
      droppedCount config bounds w L = droppedCount config bounds w' L := by
    intro bounds
    rw [droppedCount, droppedCount, rowOrder_congr h]
  simp only [filterRows, hkept, hcount]

/-! ## The filter without regard to weights -/

/-- Deviation first, then value: what the removal order sorts by before it
looks at weights. -/
def WorseValue (median : ℤ) (u v : ℤ) : Prop :=
  |v - median| < |u - median| ∨ (|u - median| = |v - median| ∧ u ≤ v)

theorem worseValue_antisymm {median u v : ℤ} (h : WorseValue median u v)
    (h' : WorseValue median v u) : u = v := by
  unfold WorseValue at h h'
  omega

theorem worse_total (median : ℤ) (x y : Sample × ℕ) :
    Worse median x y ∨ Worse median y x := by
  unfold Worse
  omega

theorem worse_trans {median : ℤ} {x y z : Sample × ℕ}
    (h : Worse median x y) (h' : Worse median y z) : Worse median x z := by
  unfold Worse at *
  omega

theorem worse_value {median : ℤ} {x y : Sample × ℕ} (h : Worse median x y) :
    WorseValue median x.1.value y.1.value := by
  unfold Worse at h
  unfold WorseValue
  omega

theorem rowOrder_values_sorted (median : ℤ) (w : Row → ℕ) (L : List Row) :
    ((rowOrder median w L).map fun p => p.1.1.value).Pairwise
      (WorseValue median) := by
  let R : Row × ℕ → Row × ℕ → Prop := fun x y =>
    Worse median (positioned w x) (positioned w y)
  have : Std.Total R := ⟨fun x y => worse_total median _ _⟩
  have : IsTrans (Row × ℕ) R := ⟨fun x y z => worse_trans⟩
  rw [List.pairwise_map]
  exact (List.pairwise_insertionSort R L.zipIdx).imp fun h => worse_value h

theorem rowOrder_perm (median : ℤ) (w : Row → ℕ) (L : List Row) :
    (rowOrder median w L).Perm L.zipIdx :=
  List.perm_insertionSort _ _

/-- The values in removal order do not depend on the weights. -/
theorem rowOrder_values (median : ℤ) (w w' : Row → ℕ) (L : List Row) :
    ((rowOrder median w L).map fun p => p.1.1.value) =
      (rowOrder median w' L).map fun p => p.1.1.value := by
  apply List.Perm.eq_of_pairwise
    (fun u v _ _ huv hvu => worseValue_antisymm huv hvu)
    (rowOrder_values_sorted median w L) (rowOrder_values_sorted median w' L)
  exact ((rowOrder_perm median w L).trans
    (rowOrder_perm median w' L).symm).map _

/-- What stays is what comes later in the removal order. -/
theorem keptRows_perm (median : ℤ) (count : ℕ) (w : Row → ℕ)
    (L : List Row) :
    (keptRows median count w L).Perm
      (((rowOrder median w L).drop count).map Prod.fst) :=
  unflagged_perm (rowOrder_perm median w L) count

/-- Whatever the weights, the same values survive the filter. -/
theorem filterRows_values {config : OutlierConfig} {M' : List Row}
    (h : filterRows config w L = .ok M)
    (h' : filterRows config w' L = .ok M') :
    (M.map fun x => x.1.value).Perm (M'.map fun x => x.1.value) := by
  unfold filterRows at h h'
  split at h
  · next happ =>
      rw [if_pos happ] at h'
      simp only [bind_ok, pure_ok] at h h'
      obtain ⟨bounds, hbounds, rfl⟩ := h
      obtain ⟨bounds', hbounds', rfl⟩ := h'
      obtain rfl : bounds = bounds' := by simpa [hbounds] using hbounds'
      have hvalues := rowOrder_values bounds.1 w w' L
      have hcount :
          droppedCount config bounds w L = droppedCount config bounds w' L := by
        simp only [droppedCount, hvalues]
      rw [hcount]
      have hdrop := congrArg (List.drop (droppedCount config bounds w' L))
        hvalues
      rw [← List.map_drop, ← List.map_drop] at hdrop
      have hkept := (keptRows_perm bounds.1 (droppedCount config bounds w' L)
        w L).map fun x => x.1.value
      have hkept' := (keptRows_perm bounds.1
        (droppedCount config bounds w' L) w' L).map fun x => x.1.value
      rw [List.map_map] at hkept hkept'
      refine hkept.trans (.trans ?_ hkept'.symm)
      exact .of_eq hdrop
  · next happ =>
      rw [if_neg happ] at h'
      obtain rfl := pure_ok.mp h
      obtain rfl := pure_ok.mp h'
      exact .refl _

end Sampled

end Parashield.OracleVerifier
