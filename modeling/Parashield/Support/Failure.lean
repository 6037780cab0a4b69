import Parashield.Support.Check

/-!
# Ruling out failures

A call may fail for many reasons.  `Avoids bad c s` says that `c`, started in
`s`, does not fail for a reason in `bad`.  The lemmas follow a call step by
step: each step has to avoid the failure from every state in which the accepted
steps before it can leave it.
-/

namespace Support

open Contract

variable {ε σ α β : Type} {bad : ε → Prop}

/-- Why a computation failed, if it did. -/
def failure (r : Except ε α) : Option ε :=
  match r with
  | .error e => some e
  | .ok _ => none

theorem failure_eq_some {r : Except ε α} {e : ε} :
    failure r = some e ↔ r = .error e := by
  cases r with
  | error e' => simp [failure]
  | ok a => simp [failure]

theorem exists_of_toOption {r : Except ε (α × σ)} {a : α}
    (h : r.toOption.map Prod.fst = some a) : ∃ s, r = .ok (a, s) := by
  cases r with
  | error e => cases h
  | ok x =>
      obtain ⟨b, s⟩ := x
      obtain rfl := Option.some.inj h
      exact ⟨s, rfl⟩

/-! ## Checked computations -/

namespace Check

/-- The computation does not fail for a reason in `bad`. -/
def Avoids (bad : ε → Prop) (x : Check ε α) : Prop :=
  ∀ e, x = .error e → ¬ bad e

@[simp] theorem avoids_ok (a : α) : Avoids bad (.ok a : Check ε α) :=
  nofun

@[simp] theorem avoids_pure (a : α) : Avoids bad (pure a : Check ε α) :=
  nofun

@[simp] theorem avoids_error {e : ε} :
    Avoids bad (.error e : Check ε α) ↔ ¬ bad e := by
  constructor
  · intro h
    exact h e rfl
  · rintro h _ ⟨⟩
    exact h

@[simp] theorem avoids_bind {x : Check ε α} {f : α → Check ε β} :
    Avoids bad (x >>= f) ↔
      Avoids bad x ∧ ∀ a, x = .ok a → Avoids bad (f a) := by
  cases x with
  | error e => simp [bind, Except.bind]
  | ok a => simp [bind, Except.bind]

@[simp] theorem avoids_map {x : Check ε α} {f : α → β} :
    Avoids bad (f <$> x) ↔ Avoids bad x := by
  rw [map_eq_pure_bind, avoids_bind]
  simp

@[simp] theorem avoids_ite {c : Prop} [Decidable c] {x y : Check ε α} :
    Avoids bad (if c then x else y) ↔
      (c → Avoids bad x) ∧ (¬ c → Avoids bad y) := by
  by_cases h : c
  · simp [h]
  · simp [h]

@[simp] theorem avoids_require {c : Prop} [Decidable c] {e : ε} :
    Avoids bad (require c e) ↔ (bad e → c) := by
  rw [require, avoids_ite]
  simp only [avoids_ok, avoids_error, implies_true, true_and]
  exact not_imp_not

@[simp] theorem avoids_i128 {x : ℤ} {e : ε} :
    Avoids bad (i128 x e : Check ε ℤ) ↔ (bad e → InI128 x) := by
  simp [i128]

@[simp] theorem avoids_unwrap {o : Option α} {e : ε} :
    Avoids bad (unwrap o e : Check ε α) ↔ (bad e → o ≠ none) := by
  cases o with
  | none => simp [unwrap]
  | some a => simp [unwrap]

@[simp] theorem avoids_unsigned {bits x : ℕ} {e : ε} :
    Avoids bad (unsigned bits x e : Check ε ℕ) ↔ (bad e → x < 2 ^ bits) := by
  simp [unsigned]

@[simp] theorem avoids_mulDiv {x y d : ℤ} {e zero : ε} :
    Avoids bad (mulDiv x y d e zero : Check ε ℤ) ↔
      (bad e → InI128 (x * y)) ∧
        (InI128 (x * y) → (bad zero → d ≠ 0) ∧
          (d ≠ 0 → bad e → InI128 ((x * y).tdiv d))) := by
  simp [mulDiv]

end Check

/-! ## Calls -/

namespace Contract

section Steps

variable {x : Contract ε σ α} {f : α → Contract ε σ β} {s t : σ} {a : α} {e : ε}

/-- An accepted step is passed. -/
theorem bind_of_ok (h : x s = .ok (a, t)) : (x >>= f) s = f a t := by
  simp only [bind, StateT.bind, Except.bind, h]

/-- A failed step is where the call ends. -/
theorem bind_of_error (h : x s = .error e) : (x >>= f) s = .error e := by
  simp only [bind, StateT.bind, Except.bind, h]

theorem require_of_not {c : Prop} [Decidable c] (hc : ¬ c) :
    (require c e : Contract ε σ Unit) s = .error e := by
  rw [require, if_neg hc]
  rfl

end Steps

/-- From `s` the call does not fail for a reason in `bad`. -/
def Avoids (bad : ε → Prop) (c : Contract ε σ α) (s : σ) : Prop :=
  ∀ e, c s = .error e → ¬ bad e

variable {s : σ}

@[simp] theorem avoids_bind {x : Contract ε σ α} {f : α → Contract ε σ β} :
    Avoids bad (x >>= f) s ↔
      Avoids bad x s ∧ ∀ a t, x s = .ok (a, t) → Avoids bad (f a) t := by
  simp only [Avoids, bind, StateT.bind, Except.bind]
  cases h : x s with
  | error e => simp
  | ok p =>
      obtain ⟨a, t⟩ := p
      simp

@[simp] theorem avoids_pure (a : α) : Avoids bad (pure a : Contract ε σ α) s :=
  nofun

@[simp] theorem avoids_get : Avoids bad (get : Contract ε σ σ) s :=
  nofun

@[simp] theorem avoids_set (t : σ) :
    Avoids bad (set t : Contract ε σ PUnit) s :=
  nofun

@[simp] theorem avoids_modify (f : σ → σ) :
    Avoids bad (modify f : Contract ε σ PUnit) s :=
  nofun

@[simp] theorem avoids_throw {e : ε} :
    Avoids bad (throw e : Contract ε σ α) s ↔ ¬ bad e := by
  constructor
  · intro h
    exact h e rfl
  · rintro h _ ⟨⟩
    exact h

@[simp] theorem avoids_map {x : Contract ε σ α} {f : α → β} :
    Avoids bad (f <$> x) s ↔ Avoids bad x s := by
  rw [map_eq_pure_bind, avoids_bind]
  simp

@[simp] theorem avoids_ite {c : Prop} [Decidable c] {x y : Contract ε σ α} :
    Avoids bad (if c then x else y) s ↔
      (c → Avoids bad x s) ∧ (¬ c → Avoids bad y s) := by
  by_cases h : c
  · simp [h]
  · simp [h]

@[simp] theorem avoids_require {c : Prop} [Decidable c] {e : ε} :
    Avoids bad (require c e : Contract ε σ Unit) s ↔ (bad e → c) := by
  rw [require, avoids_ite]
  simp only [avoids_pure, avoids_throw, implies_true, true_and]
  exact not_imp_not

@[simp] theorem avoids_unwrap {o : Option α} {e : ε} :
    Avoids bad (unwrap o e : Contract ε σ α) s ↔ (bad e → o ≠ none) := by
  cases o with
  | none => simp [unwrap]
  | some a => simp [unwrap]

@[simp] theorem avoids_check {x : Check ε α} :
    Avoids bad (check x : Contract ε σ α) s ↔ x.Avoids bad := by
  unfold Avoids Check.Avoids check
  cases x with
  | error e => simp
  | ok a => simp

@[simp] theorem avoids_i128 {x : ℤ} {e : ε} :
    Avoids bad (i128 x e : Contract ε σ ℤ) s ↔ (bad e → InI128 x) := by
  simp [i128]

@[simp] theorem avoids_unsigned {bits x : ℕ} {e : ε} :
    Avoids bad (unsigned bits x e : Contract ε σ ℕ) s ↔
      (bad e → x < 2 ^ bits) := by
  simp [unsigned]

@[simp] theorem avoids_whenever {c : Prop} [Decidable c]
    {x : Contract ε σ Unit} :
    Avoids bad (whenever c x) s ↔ (c → Avoids bad x s) := by
  simp [whenever]

/-- A loop whose body avoids the failure and keeps what it needs for that. -/
theorem avoids_collect {I : σ → Prop} {xs : List α} {f : α → Contract ε σ β}
    (hf : ∀ x ∈ xs, ∀ t, I t → Avoids bad (f x) t)
    (hI : ∀ x ∈ xs, Keeps I (f x)) (hs : I s) :
    Avoids bad (collect xs f) s := by
  induction xs generalizing s with
  | nil => exact avoids_pure []
  | cons x xs ih =>
      rw [collect, avoids_bind]
      refine ⟨hf x List.mem_cons_self s hs, fun b t hx => ?_⟩
      have ht : I t := hI x List.mem_cons_self s b t hs hx
      rw [avoids_bind]
      refine ⟨?_, fun bs t' _ => avoids_pure _⟩
      exact ih (fun y hy => hf y (List.mem_cons_of_mem x hy))
        (fun y hy => hI y (List.mem_cons_of_mem x hy)) ht

end Contract

end Support
