import Parashield.Support.Transition

/-!
# Machines that record their past

Next to a machine runs a record that takes note of every label.  The record
does not influence the machine, so both have the same runs; but guards and
invariants of the two together can speak about the past.
-/

namespace Support.TransitionSystem

variable {σ τ ℓ γ : Type*} {T : TransitionSystem σ ℓ}

/-- A map that takes steps to steps takes runs to runs. -/
theorem Run.image {T' : TransitionSystem τ ℓ} (f : σ → τ)
    (hstep : ∀ s l s', T.Step s l s' → T'.Step (f s) l (f s'))
    {s s' : σ} {ls : List ℓ} (hrun : T.Run s ls s') :
    T'.Run (f s) ls (f s') := by
  induction hrun with
  | nil => exact .nil _
  | cons h _ ih => exact .cons (hstep _ _ _ h) ih

/-- The machine next to a record that starts as `start`. -/
def recording (T : TransitionSystem σ ℓ) (start : γ) (note : γ → ℓ → γ) :
    TransitionSystem (σ × γ) ℓ where
  Init p := T.Init p.1 ∧ p.2 = start
  Step p l p' := T.Step p.1 l p'.1 ∧ p'.2 = note p.2 l

section Recording

variable {start : γ} {note : γ → ℓ → γ} {p p' : σ × γ} {ls : List ℓ}

theorem Run.of_recording (hrun : (T.recording start note).Run p ls p') :
    T.Run p.1 ls p'.1 := by
  refine hrun.image Prod.fst ?_
  rintro q l q' ⟨hstep, -⟩
  exact hstep

theorem Run.recording {s s' : σ} {r : γ} (hrun : T.Run s ls s') :
    (T.recording start note).Run (s, r) ls (s', ls.foldl note r) := by
  induction hrun generalizing r with
  | nil => exact .nil _
  | cons h _ ih => exact .cons ⟨h, rfl⟩ ih

end Recording

end Support.TransitionSystem
