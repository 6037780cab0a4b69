import Parashield.Support.Failure

/-!
# What a call comes to

The answer of a call is what it returns or why it fails, without the state it
leaves.  Until a call changes the state, its answer is that of its checks.  Two
calls with a shared evaluation between their own gates and their own ends come
to the same if the gates and the ends do.
-/

namespace Support

open Contract

variable {ε σ α β : Type}

/-- What the call returns, or why it fails. -/
def answer (c : Contract ε σ α) (s : σ) : Check ε α :=
  (c s).map Prod.fst

section Steps

variable {s : σ} {e : ε}

theorem answer_error {c : Contract ε σ α} :
    answer c s = .error e ↔ c s = .error e := by
  unfold answer
  cases c s with
  | error d =>
      show (Except.error d : Check ε α) = .error e ↔ _
      simp
  | ok r => exact iff_of_false nofun nofun

theorem answer_check_bind {x : Check ε α} {f : α → Contract ε σ β} :
    answer (check x >>= f) s = x >>= fun a => answer (f a) s := by
  cases x with
  | error e => rfl
  | ok a => rfl

theorem answer_require_bind {c : Prop} [Decidable c]
    {f : Unit → Contract ε σ β} :
    answer (Contract.require c e >>= f) s =
      Check.require c e >>= fun u => answer (f u) s := by
  unfold Contract.require Check.require
  by_cases hc : c
  · simp only [if_pos hc]
    rfl
  · simp only [if_neg hc]
    rfl

theorem answer_unwrap_bind {o : Option α} {f : α → Contract ε σ β} :
    answer (Contract.unwrap o e >>= f) s =
      Check.unwrap o e >>= fun a => answer (f a) s := by
  cases o with
  | none => rfl
  | some a => rfl

theorem answer_bind_pure {c : Contract ε σ α} {b : β} :
    answer (c >>= fun _ => pure b) s =
      answer c s >>= fun _ => pure b := by
  show Except.map Prod.fst (c s >>= fun r => .ok (b, r.2)) =
    Except.map Prod.fst (c s) >>= fun _ => .ok b
  cases c s with
  | error e => rfl
  | ok r => rfl

end Steps

section Gates

variable {x y : Check ε Unit} {r : Check ε α} {f g : α → Check ε β}

/-- The gate lets pass, or refuses for the same reason. -/
def Masks (x : Check ε Unit) (e : ε) : Prop :=
  x = .ok () ∨ x = .error e

/-- Two gated calls come to the same exactly if their gates do and, behind open
gates, their ends do, or if what they share fails for the only reason for which
either gate refuses. -/
theorem gated_eq_iff
    (hf : ∀ e, y = .error e → ∀ a, f a ≠ .error e)
    (hg : ∀ e, x = .error e → ∀ a, g a ≠ .error e) :
    ((x >>= fun _ => r >>= f) = y >>= fun _ => r >>= g) ↔
      (x = y ∧ (x = .ok () → ∀ a, r = .ok a → f a = g a)) ∨
        ∃ e, r = .error e ∧ Masks x e ∧ Masks y e := by
  unfold Masks
  cases x with
  | error e =>
      cases y with
      | error e' =>
          show (Except.error e : Check ε β) = .error e' ↔ _
          simp only [Except.error.injEq, reduceCtorEq, false_imp_iff, and_true,
            false_or]
          refine ⟨.inl, ?_⟩
          rintro (hsame | ⟨d, -, hx, hy⟩)
          · exact hsame
          · exact hx.trans hy.symm
      | ok u =>
          cases r with
          | error d =>
              show (Except.error e : Check ε β) = .error d ↔ _
              simp [eq_comm]
          | ok a =>
              refine iff_of_false (fun h => hg e rfl a h.symm) ?_
              rintro (⟨⟨⟩, -⟩ | ⟨d, ⟨⟩, -⟩)
  | ok u =>
      cases y with
      | error e' =>
          cases r with
          | error d =>
              show (Except.error d : Check ε β) = .error e' ↔ _
              simp [eq_comm]
          | ok a =>
              refine iff_of_false (fun h => hf e' rfl a h) ?_
              rintro (⟨⟨⟩, -⟩ | ⟨d, ⟨⟩, -⟩)
      | ok u' =>
          cases r with
          | error d =>
              refine iff_of_true rfl (.inr ⟨d, rfl, .inl rfl, .inl rfl⟩)
          | ok a =>
              show f a = g a ↔ _
              simp

end Gates

end Support
