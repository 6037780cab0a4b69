import Parashield.Support.Check

/-!
# Calls that mirror each other

Two calls run from related states.  They mirror each other if they fail with
the same error, or both return, with related values and related states left.
An observer of the outcome cannot tell states apart on which a call mirrors
itself.  As for lockstep, this is established along the structure both calls
share; here a step that fails has to fail on both sides.
-/

namespace Support

open Contract

variable {ε σ α α' β β' ι : Type} {R : σ → σ → Prop} {V : α → β → Prop}
  {W : α' → β' → Prop}

/-- The same failure, or values related by `V` and states related by `R`. -/
inductive Mirrored (R : σ → σ → Prop) (V : α → β → Prop) :
    Except ε (α × σ) → Except ε (β × σ) → Prop
  | ok {a : α} {b : β} {s t : σ} :
      V a b → R s t → Mirrored R V (.ok (a, s)) (.ok (b, t))
  | error (e : ε) : Mirrored R V (.error e) (.error e)

/-- From states related by `R` the calls have mirrored outcomes. -/
def Mirror (R : σ → σ → Prop) (V : α → β → Prop) (c : Contract ε σ α)
    (d : Contract ε σ β) : Prop :=
  ∀ s t, R s t → Mirrored R V (c s) (d t)

/-- Mirrored outcomes with equal values look the same. -/
theorem Mirrored.map_fst {x y : Except ε (α × σ)}
    (h : Mirrored R Eq x y) : x.map Prod.fst = y.map Prod.fst := by
  cases h with
  | ok hab _ => rw [hab]; rfl
  | error => rfl

theorem Mirror.weaken {V' : α → β → Prop} {c : Contract ε σ α}
    {d : Contract ε σ β} (h : Mirror R V c d) (hV : ∀ a b, V a b → V' a b) :
    Mirror R V' c d := by
  intro s t hst
  have hmirrored := h s t hst
  generalize c s = x at hmirrored ⊢
  generalize d t = y at hmirrored ⊢
  cases hmirrored with
  | ok hab hst' => exact .ok (hV _ _ hab) hst'
  | error e => exact .error e

theorem mirror_pure {a : α} {b : β} (h : V a b) :
    Mirror R V (pure a : Contract ε σ α) (pure b) :=
  fun _ _ hst => .ok h hst

theorem mirror_throw (e : ε) :
    Mirror R V (throw e : Contract ε σ α) (throw e) :=
  fun _ _ _ => .error e

theorem mirror_bind {c : Contract ε σ α} {d : Contract ε σ β}
    {k : α → Contract ε σ α'} {l : β → Contract ε σ β'}
    (hc : Mirror R V c d) (hk : ∀ a b, V a b → Mirror R W (k a) (l b)) :
    Mirror R W (c >>= k) (d >>= l) := by
  intro s t hst
  have hfirst := hc s t hst
  simp only [bind, StateT.bind, Except.bind]
  generalize c s = x at hfirst ⊢
  generalize d t = y at hfirst ⊢
  cases hfirst with
  | ok hab hst₁ => exact hk _ _ hab _ _ hst₁
  | error e => exact .error e

theorem mirror_map {c d : Contract ε σ α} (f : α → β)
    (h : Mirror R Eq c d) : Mirror R Eq (f <$> c) (f <$> d) := by
  rw [map_eq_pure_bind, map_eq_pure_bind]
  exact mirror_bind h fun _ _ hab => mirror_pure (congrArg f hab)

/-- Both conditions hold once the calls have got past them. -/
theorem mirror_require {p q : Prop} [Decidable p] [Decidable q] (e : ε)
    (hpq : p ↔ q) :
    Mirror R (fun _ _ => p) (require p e : Contract ε σ Unit)
      (require q e) := by
  intro s t hst
  unfold require
  by_cases hp : p
  · rw [if_pos hp, if_pos (hpq.mp hp)]
    exact .ok hp hst
  · rw [if_neg hp, if_neg fun hq => hp (hpq.mpr hq)]
    exact .error e

theorem mirror_unwrap (o : Option α) (e : ε) :
    Mirror R Eq (unwrap o e : Contract ε σ α) (unwrap o e) := by
  cases o with
  | none => exact mirror_throw e
  | some a => exact mirror_pure rfl

theorem mirror_check (x : Check ε α) :
    Mirror R Eq (check x : Contract ε σ α) (check x) := by
  intro s t hst
  unfold check
  cases x with
  | error e => exact .error e
  | ok a => exact .ok rfl hst

theorem mirror_unsigned (bits x : ℕ) (e : ε) :
    Mirror R Eq (unsigned bits x e : Contract ε σ ℕ) (unsigned bits x e) :=
  mirror_bind (mirror_require e Iff.rfl) fun _ _ _ => mirror_pure rfl

theorem mirror_whenever {p q : Prop} [Decidable p] [Decidable q]
    {c d : Contract ε σ Unit} (hpq : p ↔ q) (h : Mirror R Eq c d) :
    Mirror R Eq (whenever p c) (whenever q d) := by
  unfold whenever
  by_cases hp : p
  · rw [if_pos hp, if_pos (hpq.mp hp)]
    exact h
  · rw [if_neg hp, if_neg fun hq => hp (hpq.mpr hq)]
    exact mirror_pure rfl

theorem mirror_get :
    Mirror R R (get : Contract ε σ σ) (get : Contract ε σ σ) :=
  fun _ _ hst => .ok hst hst

theorem mirror_modify {f g : σ → σ} (h : ∀ s t, R s t → R (f s) (g t)) :
    Mirror R Eq (modify f : Contract ε σ PUnit) (modify g) :=
  fun s t hst => .ok rfl (h s t hst)

/-- Loops over the same list mirror each other if each round does. -/
theorem mirror_forEach {xs : List ι} {f g : ι → Contract ε σ Unit}
    (h : ∀ x ∈ xs, Mirror R Eq (f x) (g x)) :
    Mirror R Eq (forEach xs f) (forEach xs g) := by
  induction xs with
  | nil => exact mirror_pure rfl
  | cons x xs ih =>
      refine mirror_bind (h x List.mem_cons_self) fun _ _ _ => ?_
      exact ih fun y hy => h y (List.mem_cons_of_mem _ hy)

theorem mirror_collect {xs : List ι} {f g : ι → Contract ε σ α}
    (h : ∀ x ∈ xs, Mirror R Eq (f x) (g x)) :
    Mirror R Eq (collect xs f) (collect xs g) := by
  induction xs with
  | nil => exact mirror_pure rfl
  | cons x xs ih =>
      refine mirror_bind (h x List.mem_cons_self) fun a b hab => ?_
      refine mirror_bind (ih fun y hy => h y (List.mem_cons_of_mem _ hy)) ?_
      rintro as _ rfl
      exact mirror_pure (congrArg (· :: as) hab)

end Support
