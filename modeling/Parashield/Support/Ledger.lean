import Mathlib.Algebra.BigOperators.Group.Finset.Basic
import Mathlib.Algebra.Order.BigOperators.Group.Finset

/-!
# Token ledgers

A token is a finitely supported assignment of balances to holders.  A transfer
moves an amount from one holder to another, fails when the sender does not
have it, and leaves the total unchanged.
-/

namespace Support

/-- Balances of one token.  Only finitely many holders have a balance. -/
structure Ledger (α : Type) where
  balance : α → ℕ
  holders : Finset α
  balance_eq_zero : ∀ a, a ∉ holders → balance a = 0

namespace Ledger

variable {α : Type}

/-- The ledger of a token nobody holds. -/
def empty : Ledger α where
  balance _ := 0
  holders := ∅
  balance_eq_zero _ _ := rfl

/-- Total supply. -/
def supply (L : Ledger α) : ℕ := ∑ a ∈ L.holders, L.balance a

theorem sum_balance_of_subset (L : Ledger α) {S : Finset α}
    (hS : L.holders ⊆ S) : ∑ a ∈ S, L.balance a = L.supply := by
  symm
  apply Finset.sum_subset hS
  intro a _ ha
  exact L.balance_eq_zero a ha

theorem sum_balance_le_supply [DecidableEq α] (L : Ledger α)
    (S : Finset α) : ∑ a ∈ S, L.balance a ≤ L.supply := by
  rw [← L.sum_balance_of_subset (S := L.holders ∪ S)
    Finset.subset_union_left]
  exact Finset.sum_le_sum_of_subset Finset.subset_union_right

variable [DecidableEq α]

/-- Give `amount` to `a` out of nothing. -/
def mint (L : Ledger α) (a : α) (amount : ℕ) : Ledger α where
  balance := Function.update L.balance a (L.balance a + amount)
  holders := insert a L.holders
  balance_eq_zero b hb := by
    rw [Finset.mem_insert, not_or] at hb
    rw [Function.update_of_ne hb.1]
    exact L.balance_eq_zero b hb.2

/-- Take `amount` away from `a`, or what it has. -/
def burn (L : Ledger α) (a : α) (amount : ℕ) : Ledger α where
  balance := Function.update L.balance a (L.balance a - amount)
  holders := L.holders
  balance_eq_zero b hb := by
    by_cases h : b = a
    · subst h
      rw [Function.update_self, L.balance_eq_zero b hb, Nat.zero_sub]
    · rw [Function.update_of_ne h, L.balance_eq_zero b hb]

@[simp] theorem mint_balance (L : Ledger α) (a b : α) (amount : ℕ) :
    (L.mint a amount).balance b =
      if b = a then L.balance a + amount else L.balance b := by
  simp [mint, Function.update_apply]

@[simp] theorem burn_balance (L : Ledger α) (a b : α) (amount : ℕ) :
    (L.burn a amount).balance b =
      if b = a then L.balance a - amount else L.balance b := by
  simp [burn, Function.update_apply]

theorem supply_mint (L : Ledger α) (a : α) (amount : ℕ) :
    (L.mint a amount).supply = L.supply + amount := by
  have hL : L.supply = ∑ b ∈ insert a L.holders, L.balance b :=
    (L.sum_balance_of_subset (Finset.subset_insert a L.holders)).symm
  have ha : a ∈ insert a L.holders := Finset.mem_insert_self a L.holders
  rw [hL, supply]
  show ∑ b ∈ insert a L.holders, (L.mint a amount).balance b = _
  rw [← Finset.add_sum_erase _ _ ha, ← Finset.add_sum_erase _ L.balance ha]
  have hrest : ∑ b ∈ (insert a L.holders).erase a, (L.mint a amount).balance b
      = ∑ b ∈ (insert a L.holders).erase a, L.balance b := by
    apply Finset.sum_congr rfl
    intro b hb
    simp [Finset.ne_of_mem_erase hb]
  rw [hrest]
  simp only [mint_balance, if_true]
  omega

theorem supply_burn (L : Ledger α) (a : α) {amount : ℕ}
    (h : amount ≤ L.balance a) :
    (L.burn a amount).supply + amount = L.supply := by
  by_cases ha : a ∈ L.holders
  · rw [supply, supply]
    show ∑ b ∈ L.holders, (L.burn a amount).balance b + amount = _
    rw [← Finset.add_sum_erase _ _ ha, ← Finset.add_sum_erase _ L.balance ha]
    have hrest : ∑ b ∈ L.holders.erase a, (L.burn a amount).balance b
        = ∑ b ∈ L.holders.erase a, L.balance b := by
      apply Finset.sum_congr rfl
      intro b hb
      simp [Finset.ne_of_mem_erase hb]
    rw [hrest]
    simp only [burn_balance, if_true]
    omega
  · have h0 : L.balance a = 0 := L.balance_eq_zero a ha
    have hamount : amount = 0 := by omega
    subst hamount
    rw [supply, supply, Nat.add_zero]
    apply Finset.sum_congr rfl
    intro b _
    by_cases hb : b = a <;> simp [hb]

/-- Move `amount` from `sender` to `recipient`. -/
def transfer (L : Ledger α) (sender recipient : α) (amount : ℕ) :
    Option (Ledger α) :=
  if amount ≤ L.balance sender then
    some ((L.burn sender amount).mint recipient amount)
  else
    none

theorem transfer_eq_some_iff {L L' : Ledger α} {sender recipient : α}
    {amount : ℕ} :
    L.transfer sender recipient amount = some L' ↔
      amount ≤ L.balance sender ∧
        (L.burn sender amount).mint recipient amount = L' := by
  simp [transfer]

theorem transfer_supply {L L' : Ledger α} {sender recipient : α}
    {amount : ℕ} (h : L.transfer sender recipient amount = some L') :
    L'.supply = L.supply := by
  obtain ⟨hle, rfl⟩ := transfer_eq_some_iff.mp h
  rw [supply_mint]
  exact L.supply_burn sender hle

theorem transfer_balance_of_ne {L L' : Ledger α} {sender recipient a : α}
    {amount : ℕ} (h : L.transfer sender recipient amount = some L')
    (hs : a ≠ sender) (hr : a ≠ recipient) : L'.balance a = L.balance a := by
  obtain ⟨_, rfl⟩ := transfer_eq_some_iff.mp h
  simp [hs, hr]

theorem transfer_balance_sender {L L' : Ledger α} {sender recipient : α}
    {amount : ℕ} (h : L.transfer sender recipient amount = some L')
    (hne : sender ≠ recipient) :
    L'.balance sender + amount = L.balance sender := by
  obtain ⟨hle, rfl⟩ := transfer_eq_some_iff.mp h
  simp [hne]
  omega

theorem transfer_balance_recipient {L L' : Ledger α}
    {sender recipient : α} {amount : ℕ}
    (h : L.transfer sender recipient amount = some L')
    (hne : sender ≠ recipient) :
    L'.balance recipient = L.balance recipient + amount := by
  obtain ⟨_, rfl⟩ := transfer_eq_some_iff.mp h
  simp [hne.symm]

/-- A transfer to oneself changes no balance. -/
theorem transfer_self_balance {L L' : Ledger α} {sender : α} {amount : ℕ}
    (h : L.transfer sender sender amount = some L') (a : α) :
    L'.balance a = L.balance a := by
  obtain ⟨hle, rfl⟩ := transfer_eq_some_iff.mp h
  by_cases ha : a = sender
  · subst ha
    simp
    omega
  · simp [ha]

end Ledger

end Support
