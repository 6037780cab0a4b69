import Parashield.Host
import Parashield.Support.Transition

/-!
# Runs of a deployed contract

A contract with storage `S` and entry points `En` next to all tokens: anyone
calls it in any order while time passes and tokens move elsewhere.
-/

namespace Parashield

open Support Support.Contract

/-- A deployed contract at a ledger time. -/
structure World (S : Type) where
  now : ℕ
  machine : Machine S

/-- What can happen in one step of a run. -/
inductive Label (En : Type) where
  | call (signers : List Address) (entry : En)
  | tick (seconds : ℕ)
  | transfer (token sender recipient : Address) (amount : ℤ)
  | mint (token holder : Address) (amount : ℕ)

variable {E S En : Type}

/-- Run a call for its effect. -/
def Invocation.perform {α : Type} (c : Invocation E S α) :
    Invocation E S Unit := do
  let _ ← c
  pure ()

@[simp] theorem Invocation.perform_ok {α : Type} {c : Invocation E S α}
    {m m' : Machine S} {u : Unit} :
    perform c m = .ok (u, m') ↔ ∃ a, c m = .ok (a, m') := by
  simp [perform]

def callEnv (self : Address) (w : World S) (signers : List Address) :
    Env where
  now := w.now
  self := self
  signers := signers

section Steps

variable (exec : Env → En → Invocation E S Unit)

/-- Steps of the world around the contract deployed at `self`.  Nobody but
the contract signs for it. -/
inductive Step (self : Address) : World S → Label En → World S → Prop
  | call {w : World S} {signers : List Address} {e : En} {m' : Machine S} :
      self ∉ signers →
      exec (callEnv self w signers) e w.machine = .ok ((), m') →
      Step self w (.call signers e) { w with machine := m' }
  | tick {w : World S} {seconds : ℕ} :
      w.now + seconds ≤ maxU64 →
      Step self w (.tick seconds) { w with now := w.now + seconds }
  | transfer {w : World S} {token sender recipient : Address} {amount : ℤ}
      {B : Bank} :
      sender ≠ self →
      w.machine.bank.transfer token sender recipient amount = some B →
      Step self w (.transfer token sender recipient amount)
        { w with machine := { w.machine with bank := B } }
  | mint {w : World S} {token holder : Address} {amount : ℕ} :
      Step self w (.mint token holder amount)
        { w with machine :=
          { w.machine with bank := w.machine.bank.mint token holder amount } }

/-- The step function behind `Step`. -/
def step (self : Address) (w : World S) : Label En → Option (World S)
  | .call signers e =>
      if self ∈ signers then
        none
      else
        match exec (callEnv self w signers) e w.machine with
        | .ok (_, m') => some { w with machine := m' }
        | .error _ => none
  | .tick seconds =>
      if w.now + seconds ≤ maxU64 then
        some { w with now := w.now + seconds }
      else
        none
  | .transfer token sender recipient amount =>
      if sender = self then
        none
      else
        match w.machine.bank.transfer token sender recipient amount with
        | some B => some { w with machine := { w.machine with bank := B } }
        | none => none
  | .mint token holder amount =>
      some { w with machine :=
        { w.machine with bank := w.machine.bank.mint token holder amount } }

variable {exec}

theorem step_sound {self : Address} {w w' : World S} {l : Label En}
    (h : step exec self w l = some w') : Step exec self w l w' := by
  cases l with
  | call signers e =>
      simp only [step] at h
      split at h
      · cases h
      · next hself =>
          split at h
          · next u m' hexec =>
              obtain rfl := Option.some.inj h
              exact .call hself hexec
          · cases h
  | tick seconds =>
      simp only [step, Option.ite_none_right_eq_some, Option.some.injEq] at h
      obtain ⟨hle, rfl⟩ := h
      exact .tick hle
  | transfer token sender recipient amount =>
      simp only [step] at h
      split at h
      · cases h
      · next hself =>
          split at h
          · next B hB =>
              obtain rfl := Option.some.inj h
              exact .transfer hself hB
          · cases h
  | mint token holder amount =>
      obtain rfl := Option.some.inj h
      exact .mint

theorem step_eq_some_iff {self : Address} {w w' : World S} {l : Label En} :
    step exec self w l = some w' ↔ Step exec self w l w' := by
  refine ⟨step_sound, fun h => ?_⟩
  cases h with
  | call hself hexec => simp [step, hself, hexec]
  | tick hle => simp [step, hle]
  | transfer hself hB => simp [step, hself, hB]
  | mint => rfl

/-- What a call step executed. -/
theorem Step.exec_eq {self : Address} {w w' : World S}
    {signers : List Address} {e : En}
    (h : Step exec self w (.call signers e) w') :
    self ∉ signers ∧
      exec (callEnv self w signers) e w.machine = .ok ((), w'.machine) := by
  cases h with
  | call hself hexec => exact ⟨hself, hexec⟩

/-- Time does not run backwards. -/
theorem Step.now_le {self : Address} {w w' : World S} {l : Label En}
    (h : Step exec self w l w') : w.now ≤ w'.now := by
  cases h with
  | tick => exact Nat.le_add_right w.now _
  | _ => exact Nat.le_refl w.now

/-- A step has one outcome. -/
theorem Step.unique {self : Address} {w w₁ w₂ : World S} {l : Label En}
    (h : Step exec self w l w₁) (h' : Step exec self w l w₂) : w₁ = w₂ := by
  cases h with
  | call _ hexec =>
      cases h' with
      | call _ hexec' =>
          rw [hexec, Except.ok.injEq, Prod.mk.injEq] at hexec'
          rw [hexec'.2]
  | tick =>
      cases h'
      rfl
  | transfer _ hB =>
      cases h' with
      | transfer _ hB' =>
          rw [hB, Option.some.injEq] at hB'
          rw [hB']
  | mint =>
      cases h'
      rfl

variable (exec)

/-- Runs of the contract at `self`, from storage `deployed` next to any
tokens that have not moved yet. -/
def deployment (deployed : S) (self : Address) :
    TransitionSystem (World S) (Label En) where
  Init w := w.machine.store = deployed ∧ w.machine.bank.history = []
  Step := Step exec self

end Steps

end Parashield
