import Parashield.Support.Contract

/-!
# Calls in lockstep

Two calls run from related states.  They are in lockstep if, when both are
accepted, the values they return are related and so are the states they leave.
Nothing is said about a call that is rejected on one side.  Lockstep is
established step by step, along the structure both calls share.
-/

namespace Support

open Contract

variable {ε σ α α' β β' ι : Type} {R : σ → σ → Prop} {V : α → β → Prop}
  {W : α' → β' → Prop}

/-- Accepted from states related by `R`, the calls return values related by
`V` and leave states related by `R`. -/
def Lockstep (R : σ → σ → Prop) (V : α → β → Prop) (c : Contract ε σ α)
    (d : Contract ε σ β) : Prop :=
  ∀ s t, R s t → ∀ a s' b t', c s = .ok (a, s') → d t = .ok (b, t') →
    V a b ∧ R s' t'

/-- Calls in lockstep whose values do not matter. -/
abbrev LockstepUnit (R : σ → σ → Prop) (c : Contract ε σ α)
    (d : Contract ε σ β) : Prop :=
  Lockstep R (fun _ _ => True) c d

theorem Lockstep.weaken {V' : α → β → Prop} {c : Contract ε σ α}
    {d : Contract ε σ β} (h : Lockstep R V c d) (hV : ∀ a b, V a b → V' a b) :
    Lockstep R V' c d := by
  intro s t hst a s' b t' hc hd
  obtain ⟨hab, hst'⟩ := h s t hst a s' b t' hc hd
  exact ⟨hV a b hab, hst'⟩

theorem lockstep_pure {a : α} {b : β} (h : V a b) :
    Lockstep R V (pure a : Contract ε σ α) (pure b) := by
  intro s t hst a' s' b' t' hc hd
  obtain ⟨rfl, rfl⟩ := pure_ok.mp hc
  obtain ⟨rfl, rfl⟩ := pure_ok.mp hd
  exact ⟨h, hst⟩

theorem lockstep_bind {c : Contract ε σ α} {d : Contract ε σ β}
    {k : α → Contract ε σ α'} {l : β → Contract ε σ β'}
    (hc : Lockstep R V c d)
    (hk : ∀ a b, V a b → Lockstep R W (k a) (l b)) :
    Lockstep R W (c >>= k) (d >>= l) := by
  intro s t hst a' s' b' t' hleft hright
  obtain ⟨a, s₁, hcs, hks⟩ := bind_ok.mp hleft
  obtain ⟨b, t₁, hdt, hlt⟩ := bind_ok.mp hright
  obtain ⟨hab, hst₁⟩ := hc s t hst a s₁ b t₁ hcs hdt
  exact hk a b hab s₁ t₁ hst₁ a' s' b' t' hks hlt

/-- Both conditions hold once both calls have got past them. -/
theorem lockstep_require (p q : Prop) [Decidable p] [Decidable q]
    (e e' : ε) :
    Lockstep R (fun _ _ => p ∧ q) (require p e : Contract ε σ Unit)
      (require q e') := by
  intro s t hst _ s' _ t' hc hd
  obtain ⟨hp, rfl⟩ := require_ok.mp hc
  obtain ⟨hq, rfl⟩ := require_ok.mp hd
  exact ⟨⟨hp, hq⟩, hst⟩

theorem lockstep_unwrap (o : Option α) (o' : Option β) (e e' : ε) :
    Lockstep R (fun a b => o = some a ∧ o' = some b)
      (unwrap o e : Contract ε σ α) (unwrap o' e') := by
  intro s t hst a s' b t' hc hd
  obtain ⟨ha, rfl⟩ := unwrap_ok.mp hc
  obtain ⟨hb, rfl⟩ := unwrap_ok.mp hd
  exact ⟨⟨ha, hb⟩, hst⟩

theorem lockstep_ite {p q : Prop} [Decidable p] [Decidable q]
    {c c' : Contract ε σ α} {d d' : Contract ε σ β} (hpq : p ↔ q)
    (hthen : p → Lockstep R V c d) (helse : ¬ p → Lockstep R V c' d') :
    Lockstep R V (if p then c else c') (if q then d else d') := by
  by_cases hp : p
  · rw [if_pos hp, if_pos (hpq.mp hp)]
    exact hthen hp
  · rw [if_neg hp, if_neg fun hq => hp (hpq.mpr hq)]
    exact helse hp

theorem lockstep_whenever {p q : Prop} [Decidable p] [Decidable q]
    {c d : Contract ε σ Unit} (hpq : p ↔ q) (h : LockstepUnit R c d) :
    LockstepUnit R (whenever p c) (whenever q d) :=
  lockstep_ite hpq (fun _ => h) fun _ => lockstep_pure trivial

theorem lockstep_get :
    Lockstep R R (get : Contract ε σ σ) (get : Contract ε σ σ) := by
  intro s t hst a s' b t' hc hd
  obtain ⟨rfl, rfl⟩ := get_ok.mp hc
  obtain ⟨rfl, rfl⟩ := get_ok.mp hd
  exact ⟨hst, hst⟩

theorem lockstep_modify {f g : σ → σ} (h : ∀ s t, R s t → R (f s) (g t)) :
    LockstepUnit R (modify f : Contract ε σ PUnit) (modify g) := by
  intro s t hst _ s' _ t' hc hd
  rw [modify_ok.mp hc, modify_ok.mp hd]
  exact ⟨trivial, h s t hst⟩

/-- Loops over the same list are in lockstep if each round is. -/
theorem lockstep_forEach {xs : List ι} {f g : ι → Contract ε σ Unit}
    (h : ∀ x ∈ xs, LockstepUnit R (f x) (g x)) :
    LockstepUnit R (forEach xs f) (forEach xs g) := by
  induction xs with
  | nil => exact lockstep_pure trivial
  | cons x xs ih =>
      refine lockstep_bind (h x List.mem_cons_self) fun _ _ _ => ?_
      exact ih fun y hy => h y (List.mem_cons_of_mem _ hy)

theorem lockstep_collect {xs : List ι} {f g : ι → Contract ε σ α}
    (h : ∀ x ∈ xs, Lockstep R Eq (f x) (g x)) :
    Lockstep R Eq (collect xs f) (collect xs g) := by
  induction xs with
  | nil => exact lockstep_pure rfl
  | cons x xs ih =>
      refine lockstep_bind (h x List.mem_cons_self) fun a b hab => ?_
      refine lockstep_bind (ih fun y hy => h y (List.mem_cons_of_mem _ hy)) ?_
      rintro as _ rfl
      exact lockstep_pure (congrArg (· :: as) hab)

/-- The values collected for each element, next to it. -/
theorem lockstep_collect_zip {xs : List ι} {f : ι → Contract ε σ α}
    {g : ι → Contract ε σ β} {V : ι → α → β → Prop}
    (h : ∀ x ∈ xs, Lockstep R (V x) (f x) (g x)) :
    Lockstep R
      (fun as bs => List.Forall₂ (fun a b => b.1 = a.1 ∧ V a.1 a.2 b.2)
        (xs.zip as) (xs.zip bs))
      (collect xs f) (collect xs g) := by
  induction xs with
  | nil => exact lockstep_pure .nil
  | cons x xs ih =>
      refine lockstep_bind (h x List.mem_cons_self) fun a b hab => ?_
      refine lockstep_bind (ih fun y hy => h y (List.mem_cons_of_mem _ hy)) ?_
      intro as bs hall
      exact lockstep_pure (.cons ⟨rfl, hab⟩ hall)

end Support
