import Parashield.Support.Failure
import Parashield.Support.Ledger

/-!
# The host the contracts run on

Addresses, symbols, the environment of one invocation, and the token
contracts.  Every contract of the protocol runs on a `Machine`: its own
storage next to the bank of all tokens.
-/

namespace Parashield

open Support Support.Contract

/-! ## Values -/

/-- A ledger address: an account key (`G…`) or a contract (`C…`). -/
inductive Address where
  | account (id : ℕ)
  | contract (id : ℕ)
  deriving DecidableEq, Repr

/-- The all-zero account key. -/
def Address.zero : Address := .account 0

def Address.isContract : Address → Bool
  | .account _ => false
  | .contract _ => true

/-- A short name over letters, digits and underscores. -/
structure Symbol where
  chars : List Char
  deriving DecidableEq, Repr

abbrev Bytes := List UInt8

namespace Symbols

def crop : Symbol := ⟨['c', 'r', 'o', 'p']⟩
def flight : Symbol := ⟨['f', 'l', 'i', 'g', 'h', 't']⟩
def disaster : Symbol := ⟨['d', 'i', 's', 'a', 's', 't', 'e', 'r']⟩
def health : Symbol := ⟨['h', 'e', 'a', 'l', 't', 'h']⟩
def defi : Symbol := ⟨['d', 'e', 'f', 'i']⟩
def weather : Symbol := ⟨['w', 'e', 'a', 't', 'h', 'e', 'r']⟩
def onchain : Symbol := ⟨['o', 'n', 'c', 'h', 'a', 'i', 'n']⟩

end Symbols

/-- Why an invocation failed: an error code of the contract, a trap of the
host (missing authorization, a failing sub-call), or a 128-bit result out of
range, which is reported as the error code `code` or as a trap. -/
inductive Fault (E : Type) where
  | error (e : E)
  | trap
  | overflow (code : Option E)
  deriving DecidableEq, Repr

/-- The failure comes from a 128-bit result out of range. -/
def Fault.IsOverflow {E : Type} (f : Fault E) : Prop :=
  ∃ code, f = .overflow code

@[simp] theorem Fault.not_isOverflow_error {E : Type} {e : E} :
    ¬ (Fault.error e).IsOverflow :=
  nofun

@[simp] theorem Fault.not_isOverflow_trap {E : Type} :
    ¬ (Fault.trap : Fault E).IsOverflow :=
  nofun

@[simp] theorem Fault.isOverflow_overflow {E : Type} {code : Option E} :
    (Fault.overflow code).IsOverflow :=
  ⟨code, rfl⟩

/-- The environment of one invocation: the ledger time, the contract being
run, and the addresses whose authorization it carries. -/
structure Env where
  now : ℕ
  self : Address
  signers : List Address
  deriving DecidableEq

/-- The environment of a sub-call into `callee`.  A contract authorizes the
calls it makes itself. -/
def Env.enter (env : Env) (callee : Address) : Env where
  now := env.now
  self := callee
  signers := env.self :: env.signers

@[simp] theorem Env.enter_now (env : Env) (callee : Address) :
    (env.enter callee).now = env.now := rfl

@[simp] theorem Env.enter_self (env : Env) (callee : Address) :
    (env.enter callee).self = callee := rfl

@[simp] theorem Env.enter_signers (env : Env) (callee : Address) :
    (env.enter callee).signers = env.self :: env.signers := rfl

/-! ## Machine arithmetic of the host -/

/-- Largest ledger time. -/
def maxU64 : ℕ := 2 ^ 64 - 1

def maxI128 : ℤ := 2 ^ 127 - 1

def minI128 : ℤ := -2 ^ 127

/-- Delay of every two-step administrator change. -/
def adminTransferTimelock : ℕ := 48 * 60 * 60

/-- `saturating_add` on unsigned 64-bit integers. -/
def satAddU64 (a b : ℕ) : ℕ := min (a + b) maxU64

/-- Clamp to the signed 128-bit range, as the saturating operations do. -/
def satI128 (x : ℤ) : ℤ := max minI128 (min x maxI128)

/-! ## Tokens -/

/-- One accepted token transfer. -/
structure Transfer where
  token : Address
  sender : Address
  recipient : Address
  amount : ℕ
  deriving DecidableEq, Repr

/-- All token contracts, with the transfers they accepted, newest first. -/
structure Bank where
  ledger : Address → Option (Ledger Address)
  history : List Transfer

namespace Bank

/-- Balance of `a` in `token`; none is held where no token is deployed. -/
def balance (B : Bank) (token a : Address) : ℕ :=
  match B.ledger token with
  | some L => L.balance a
  | none => 0

/-- A standard transfer of a non-negative amount. -/
def transfer (B : Bank) (token sender recipient : Address) (amount : ℤ) :
    Option Bank :=
  if 0 ≤ amount then
    match B.ledger token with
    | some L =>
        match L.transfer sender recipient amount.toNat with
        | some L' =>
            some
              { ledger := Function.update B.ledger token (some L')
                history :=
                  ⟨token, sender, recipient, amount.toNat⟩ :: B.history }
        | none => none
    | none => none
  else
    none

theorem transfer_eq_some {B B' : Bank} {token sender recipient : Address}
    {amount : ℤ} (h : B.transfer token sender recipient amount = some B') :
    0 ≤ amount ∧ ∃ L L', B.ledger token = some L ∧
      L.transfer sender recipient amount.toNat = some L' ∧
      B'.ledger = Function.update B.ledger token (some L') ∧
      B'.history =
        ⟨token, sender, recipient, amount.toNat⟩ :: B.history := by
  unfold transfer at h
  split at h
  · next hpos =>
      cases hL : B.ledger token with
      | none => simp [hL] at h
      | some L =>
          cases hL' : L.transfer sender recipient amount.toNat with
          | none => simp [hL, hL'] at h
          | some L' =>
              simp only [hL, hL', Option.some.injEq] at h
              subst h
              exact ⟨hpos, L, L', rfl, hL', rfl, rfl⟩
  · cases h

theorem transfer_history {B B' : Bank} {token sender recipient : Address}
    {amount : ℤ} (h : B.transfer token sender recipient amount = some B') :
    B'.history = ⟨token, sender, recipient, amount.toNat⟩ :: B.history := by
  obtain ⟨-, L, L', -, -, -, hist⟩ := transfer_eq_some h
  exact hist

/-- A positive amount can be sent by whoever has it. -/
theorem exists_transfer_iff {B : Bank} {token sender recipient : Address}
    {amount : ℤ} (hpos : 0 < amount) :
    (∃ B', B.transfer token sender recipient amount = some B') ↔
      amount ≤ B.balance token sender := by
  cases hL : B.ledger token with
  | none =>
      have hnone : ¬ amount ≤ (B.balance token sender : ℤ) := by
        simp only [balance, hL]
        omega
      simp [transfer, hL, hnone]
  | some L =>
      have hle : amount.toNat ≤ L.balance sender ↔
          amount ≤ (L.balance sender : ℤ) := by
        omega
      by_cases hfunds : amount.toNat ≤ L.balance sender
      · simp [transfer, hL, hpos.le, balance, Ledger.transfer, hfunds,
          hle.mp hfunds]
      · simp [transfer, hL, hpos.le, balance, Ledger.transfer, hfunds,
          mt hle.mpr hfunds]

/-- Balances of other tokens, and of holders on neither side, stay put. -/
theorem transfer_balance_of_ne {B B' : Bank}
    {token sender recipient token' a : Address} {amount : ℤ}
    (h : B.transfer token sender recipient amount = some B')
    (hne : token' ≠ token ∨ (a ≠ sender ∧ a ≠ recipient)) :
    B'.balance token' a = B.balance token' a := by
  obtain ⟨-, L, L', hL, hL', hledger, -⟩ := transfer_eq_some h
  by_cases htoken : token' = token
  · subst htoken
    rcases hne with hne | ⟨hs, hr⟩
    · exact absurd rfl hne
    · simp only [balance, hledger, Function.update_self, hL]
      exact Ledger.transfer_balance_of_ne hL' hs hr
  · simp only [balance, hledger, Function.update_of_ne htoken]

theorem transfer_balance_sender {B B' : Bank}
    {token sender recipient : Address} {amount : ℤ}
    (h : B.transfer token sender recipient amount = some B')
    (hne : sender ≠ recipient) :
    (B'.balance token sender : ℤ) + amount = B.balance token sender := by
  obtain ⟨hpos, L, L', hL, hL', hledger, -⟩ := transfer_eq_some h
  have hbal := Ledger.transfer_balance_sender hL' hne
  simp only [balance, hledger, Function.update_self, hL]
  omega

theorem transfer_balance_recipient {B B' : Bank}
    {token sender recipient : Address} {amount : ℤ}
    (h : B.transfer token sender recipient amount = some B')
    (hne : sender ≠ recipient) :
    (B'.balance token recipient : ℤ) =
      B.balance token recipient + amount := by
  obtain ⟨hpos, L, L', hL, hL', hledger, -⟩ := transfer_eq_some h
  have hbal := Ledger.transfer_balance_recipient hL' hne
  simp only [balance, hledger, Function.update_self, hL]
  omega

theorem transfer_balance_self {B B' : Bank}
    {token sender : Address} {amount : ℤ}
    (h : B.transfer token sender sender amount = some B')
    (token' a : Address) : B'.balance token' a = B.balance token' a := by
  obtain ⟨-, L, L', hL, hL', hledger, -⟩ := transfer_eq_some h
  by_cases htoken : token' = token
  · subst htoken
    simp only [balance, hledger, Function.update_self, hL]
    exact Ledger.transfer_self_balance hL' a
  · simp only [balance, hledger, Function.update_of_ne htoken]

/-- The sender loses at most the amount. -/
theorem balance_sub_le_transfer {B B' : Bank}
    {token sender recipient : Address} {amount : ℤ}
    (h : B.transfer token sender recipient amount = some B') :
    (B.balance token sender : ℤ) - amount ≤ B'.balance token sender := by
  by_cases hself : sender = recipient
  · subst hself
    have hpos := (transfer_eq_some h).1
    have hsame := transfer_balance_self h token sender
    omega
  · have hpaid := transfer_balance_sender h hself
    omega

/-- Only the sender of a transfer loses tokens. -/
theorem balance_le_transfer {B B' : Bank}
    {token sender recipient a : Address} {amount : ℤ}
    (h : B.transfer token sender recipient amount = some B')
    (hne : a ≠ sender) (token' : Address) :
    B.balance token' a ≤ B'.balance token' a := by
  by_cases hkept : token' ≠ token ∨ a ≠ recipient
  · have hsame := transfer_balance_of_ne h (hkept.imp_right fun hr => ⟨hne, hr⟩)
    exact hsame.ge
  · obtain ⟨htoken, hrecipient⟩ := not_or.mp hkept
    obtain rfl := not_not.mp htoken
    obtain rfl := not_not.mp hrecipient
    have hgain := transfer_balance_recipient h (Ne.symm hne)
    have hpos := (transfer_eq_some h).1
    omega

/-- Several transfers from one holder, in order. -/
def payAll (token sender : Address) :
    List (Address × ℤ) → Bank → Option Bank
  | [], B => some B
  | (recipient, amount) :: payments, B =>
      match B.transfer token sender recipient amount with
      | some B' => payAll token sender payments B'
      | none => none

@[simp] theorem payAll_nil {token sender : Address} {B : Bank} :
    payAll token sender [] B = some B := rfl

@[simp] theorem payAll_cons_eq_some {token sender recipient : Address}
    {amount : ℤ} {payments : List (Address × ℤ)} {B B' : Bank} :
    payAll token sender ((recipient, amount) :: payments) B = some B' ↔
      ∃ B₁, B.transfer token sender recipient amount = some B₁ ∧
        payAll token sender payments B₁ = some B' := by
  cases h : B.transfer token sender recipient amount with
  | none => simp [payAll, h]
  | some B₁ => simp [payAll, h]

theorem payAll_append {token sender : Address}
    {payments payments' : List (Address × ℤ)} {B B₁ B₂ : Bank}
    (h : payAll token sender payments B = some B₁)
    (h' : payAll token sender payments' B₁ = some B₂) :
    payAll token sender (payments ++ payments') B = some B₂ := by
  induction payments generalizing B with
  | nil =>
      obtain rfl := Option.some.inj h
      exact h'
  | cons payment payments ih =>
      obtain ⟨recipient, amount⟩ := payment
      obtain ⟨B', hfirst, hrest⟩ := payAll_cons_eq_some.mp h
      exact payAll_cons_eq_some.mpr ⟨B', hfirst, ih hrest⟩

/-- The sender loses at most the sum of the payments. -/
theorem payAll_balance {token sender : Address}
    {payments : List (Address × ℤ)} {B B' : Bank}
    (h : payAll token sender payments B = some B') :
    (B.balance token sender : ℤ) ≤
      B'.balance token sender + (payments.map Prod.snd).sum := by
  induction payments generalizing B with
  | nil =>
      obtain rfl := Option.some.inj h
      simp
  | cons payment payments ih =>
      obtain ⟨recipient, amount⟩ := payment
      obtain ⟨B₁, h₁, h₂⟩ := payAll_cons_eq_some.mp h
      have hrest := ih h₂
      obtain ⟨hpos, -⟩ := transfer_eq_some h₁
      simp only [List.map_cons, List.sum_cons]
      by_cases hself : sender = recipient
      · subst hself
        have hsame := transfer_balance_self h₁ token sender
        omega
      · have hpaid := transfer_balance_sender h₁ hself
        omega

/-- The token is deployed, and `a` holds `amount` of it. -/
def Affords (B : Bank) (token a : Address) (amount : ℤ) : Prop :=
  ∃ L, B.ledger token = some L ∧ amount ≤ L.balance a

theorem Affords.mono {B : Bank} {token a : Address} {amount amount' : ℤ}
    (h : B.Affords token a amount') (hle : amount ≤ amount') :
    B.Affords token a amount := by
  obtain ⟨L, hL, hamount⟩ := h
  exact ⟨L, hL, hle.trans hamount⟩

theorem Affords.le_balance {B : Bank} {token a : Address} {amount : ℤ}
    (h : B.Affords token a amount) : amount ≤ B.balance token a := by
  obtain ⟨L, hL, hamount⟩ := h
  simpa only [balance, hL] using hamount

/-- A transfer takes a sum that is not negative and that the sender holds. -/
theorem exists_transfer_iff_affords {B : Bank}
    {token sender recipient : Address} {amount : ℤ} :
    (∃ B', B.transfer token sender recipient amount = some B') ↔
      0 ≤ amount ∧ B.Affords token sender amount := by
  unfold Affords transfer
  by_cases hpos : 0 ≤ amount
  · cases hL : B.ledger token with
    | none => simp [hpos]
    | some L =>
        have hle : amount.toNat ≤ L.balance sender ↔
            amount ≤ (L.balance sender : ℤ) := by
          omega
        by_cases hfunds : amount.toNat ≤ L.balance sender
        · simp [hpos, Ledger.transfer, hfunds, hle.mp hfunds]
        · simp [hpos, Ledger.transfer, hfunds, mt hle.mpr hfunds]
  · simp [hpos]

/-- What the sender still affords after a transfer. -/
theorem affords_after_transfer {B B' : Bank}
    {token sender recipient : Address} {amount : ℤ}
    (h : B.transfer token sender recipient amount = some B')
    (hne : sender ≠ recipient) (rest : ℤ) :
    B'.Affords token sender rest ↔ B.Affords token sender (amount + rest) := by
  obtain ⟨hpos, L, L', hL, hL', hledger, -⟩ := transfer_eq_some h
  have hbal := Ledger.transfer_balance_sender hL' hne
  simp only [Affords, hledger, hL, Function.update_self, Option.some.injEq,
    exists_eq_left']
  omega

theorem affords_after_payAll {token sender : Address}
    {payments : List (Address × ℤ)} {B B' : Bank}
    (hothers : ∀ payment ∈ payments, sender ≠ payment.1)
    (h : payAll token sender payments B = some B') (rest : ℤ) :
    B'.Affords token sender rest ↔
      B.Affords token sender ((payments.map Prod.snd).sum + rest) := by
  induction payments generalizing B with
  | nil =>
      obtain rfl := Option.some.inj h
      simp
  | cons payment payments ih =>
      obtain ⟨recipient, amount⟩ := payment
      obtain ⟨B₁, h₁, h₂⟩ := payAll_cons_eq_some.mp h
      simp only [List.forall_mem_cons] at hothers
      rw [ih hothers.2 h₂, affords_after_transfer h₁ hothers.1, List.map_cons,
        List.sum_cons, add_assoc]

/-- Payments to others are made if and only if their sum is affordable. -/
theorem exists_payAll_iff {token sender : Address}
    {payments : List (Address × ℤ)} {B : Bank}
    (hothers : ∀ payment ∈ payments, sender ≠ payment.1)
    (hnonneg : ∀ payment ∈ payments, 0 ≤ payment.2) (hsome : payments ≠ []) :
    (∃ B', payAll token sender payments B = some B') ↔
      B.Affords token sender (payments.map Prod.snd).sum := by
  induction payments generalizing B with
  | nil => exact absurd rfl hsome
  | cons payment payments ih =>
      obtain ⟨recipient, amount⟩ := payment
      simp only [List.forall_mem_cons] at hothers hnonneg
      simp only [payAll_cons_eq_some, List.map_cons, List.sum_cons]
      have hrest : 0 ≤ (payments.map Prod.snd).sum :=
        List.sum_nonneg fun x hx => by
          obtain ⟨payment, hmem, rfl⟩ := List.mem_map.mp hx
          exact hnonneg.2 payment hmem
      constructor
      · rintro ⟨B', B₁, h₁, h₂⟩
        have hafter := affords_after_transfer h₁ hothers.1
          (payments.map Prod.snd).sum
        refine hafter.mp ?_
        by_cases hempty : payments = []
        · obtain ⟨L, hL, hle⟩ := (exists_transfer_iff_affords.mp ⟨B₁, h₁⟩).2
          refine hafter.mpr ⟨L, hL, ?_⟩
          simpa [hempty] using hle
        · exact (ih hothers.2 hnonneg.2 hempty).mp ⟨B', h₂⟩
      · intro hafford
        obtain ⟨B₁, h₁⟩ := exists_transfer_iff_affords.mpr
          ⟨hnonneg.1, hafford.mono (le_add_of_nonneg_right hrest)⟩
        have hafter := (affords_after_transfer h₁ hothers.1 _).mpr hafford
        by_cases hempty : payments = []
        · exact ⟨B₁, B₁, h₁, by rw [hempty, payAll_nil]⟩
        · obtain ⟨B', h₂⟩ := (ih hothers.2 hnonneg.2 hempty).mpr hafter
          exact ⟨B', B₁, h₁, h₂⟩

/-- What `sender` has transferred to `recipient` in `token` so far. -/
def sent (B : Bank) (token sender recipient : Address) : ℕ :=
  ((B.history.filter fun t =>
    t.token = token ∧ t.sender = sender ∧ t.recipient = recipient).map
      Transfer.amount).sum

theorem transfer_sent {B B' : Bank} {token sender recipient : Address}
    {amount : ℤ} (h : B.transfer token sender recipient amount = some B')
    (a : Address) :
    (B'.sent token sender a : ℤ) =
      B.sent token sender a + if recipient = a then amount else 0 := by
  have hpos := (transfer_eq_some h).1
  unfold sent
  rw [transfer_history h]
  by_cases ha : recipient = a
  · rw [List.filter_cons_of_pos (by simp [ha]), if_pos ha, List.map_cons,
      List.sum_cons]
    push_cast
    omega
  · rw [List.filter_cons_of_neg (by simp [ha]), if_neg ha, add_zero]

theorem transfer_sent_of_ne {B B' : Bank} {token sender recipient : Address}
    {amount : ℤ} (h : B.transfer token sender recipient amount = some B')
    {sender' : Address} (hne : sender ≠ sender') (token' a : Address) :
    B'.sent token' sender' a = B.sent token' sender' a := by
  unfold sent
  rw [transfer_history h, List.filter_cons_of_neg (by simp [hne])]

/-- Each recipient gets the sum of the payments in its name. -/
theorem payAll_sent {token sender : Address} {payments : List (Address × ℤ)}
    {B B' : Bank} (h : payAll token sender payments B = some B')
    (a : Address) :
    (B'.sent token sender a : ℤ) = B.sent token sender a +
      ((payments.filter fun payment => payment.1 = a).map Prod.snd).sum := by
  induction payments generalizing B with
  | nil =>
      obtain rfl := Option.some.inj h
      simp
  | cons payment payments ih =>
      obtain ⟨recipient, amount⟩ := payment
      obtain ⟨B₁, h₁, h₂⟩ := payAll_cons_eq_some.mp h
      rw [ih h₂, transfer_sent h₁ a]
      by_cases ha : recipient = a
      · rw [List.filter_cons_of_pos (by simp [ha]), if_pos ha, List.map_cons,
          List.sum_cons, add_assoc]
      · rw [List.filter_cons_of_neg (by simp [ha]), if_neg ha, add_zero]

/-- Issue `amount` of `token` to `holder`, deploying the token if need be. -/
def mint (B : Bank) (token holder : Address) (amount : ℕ) : Bank where
  ledger :=
    Function.update B.ledger token
      (some (((B.ledger token).getD Ledger.empty).mint holder amount))
  history := B.history

theorem balance_le_mint (B : Bank) (token holder : Address) (amount : ℕ)
    (token' a : Address) :
    B.balance token' a ≤ (B.mint token holder amount).balance token' a := by
  by_cases htoken : token' = token
  · subst htoken
    cases hL : B.ledger token' with
    | none => simp [balance, hL]
    | some L =>
        simp only [balance, mint, Function.update_self, hL, Option.getD_some,
          Ledger.mint_balance]
        split
        · next ha =>
            rw [ha]
            omega
        · omega
  · simp [balance, mint, Function.update_of_ne htoken]

/-- Total supply of `token`. -/
def supply (B : Bank) (token : Address) : ℕ :=
  match B.ledger token with
  | some L => L.supply
  | none => 0

theorem sum_balance_le_supply (B : Bank) (token : Address)
    (S : Finset Address) : ∑ a ∈ S, B.balance token a ≤ B.supply token := by
  unfold balance supply
  cases B.ledger token with
  | none => simp
  | some L => exact L.sum_balance_le_supply S

theorem transfer_supply {B B' : Bank} {token sender recipient : Address}
    {amount : ℤ} (h : B.transfer token sender recipient amount = some B')
    (token' : Address) : B'.supply token' = B.supply token' := by
  obtain ⟨-, L, L', hL, hL', hledger, -⟩ := transfer_eq_some h
  by_cases htoken : token' = token
  · subst htoken
    simp only [supply, hledger, Function.update_self, hL]
    exact Ledger.transfer_supply hL'
  · simp only [supply, hledger, Function.update_of_ne htoken]

end Bank

/-! ## Contracts on the host -/

/-- The storage of one contract next to all tokens. -/
structure Machine (S : Type) where
  store : S
  bank : Bank

/-- An invocation of a contract with storage `S` and error codes `E`. -/
abbrev Invocation (E S α : Type) := Contract (Fault E) (Machine S) α

namespace Invocation

variable {E S α : Type}

/-- Read the contract's storage. -/
def load : Invocation E S S := do
  let m ← get
  pure m.store

/-- A read-only computation on the contract's storage. -/
def view (f : S → Check (Fault E) α) : Invocation E S α := do
  let s ← load
  check (f s)

/-- Write the contract's storage. -/
def update (f : S → S) : Invocation E S Unit :=
  modify fun m => { m with store := f m.store }

/-- `require_auth`. -/
def requireAuth (env : Env) (a : Address) : Invocation E S Unit :=
  require (a ∈ env.signers) .trap

/-- Fail with the contract error `e` unless `c` holds. -/
def ensure (c : Prop) [Decidable c] (e : E) : Invocation E S Unit :=
  require c (.error e)

/-- A token transfer made by the running contract; `sender` is the contract
itself or has signed. -/
def transferToken (env : Env) (token sender recipient : Address)
    (amount : ℤ) (fault : Fault E := .trap) : Invocation E S Unit := do
  require (sender = env.self ∨ sender ∈ env.signers) fault
  let m ← get
  let bank ← unwrap (m.bank.transfer token sender recipient amount) fault
  set { m with bank := bank }

@[simp] theorem load_ok {m m' : Machine S} {s : S} :
    (load : Invocation E S S) m = .ok (s, m') ↔ s = m.store ∧ m' = m := by
  simp only [load, bind_ok, get_ok, pure_ok]
  constructor
  · rintro ⟨a, t, ⟨rfl, rfl⟩, rfl, rfl⟩
    exact ⟨rfl, rfl⟩
  · rintro ⟨rfl, rfl⟩
    exact ⟨_, _, ⟨rfl, rfl⟩, rfl, rfl⟩

@[simp] theorem view_ok {f : S → Check (Fault E) α} {m m' : Machine S} {a : α} :
    (view f : Invocation E S α) m = .ok (a, m') ↔
      f m.store = .ok a ∧ m' = m := by
  simp only [view, bind_ok, load_ok, check_ok]
  constructor
  · rintro ⟨_, _, ⟨rfl, rfl⟩, h, rfl⟩
    exact ⟨h, rfl⟩
  · rintro ⟨h, rfl⟩
    exact ⟨_, _, ⟨rfl, rfl⟩, h, rfl⟩

@[simp] theorem update_ok {f : S → S} {m m' : Machine S} {u : Unit} :
    (update f : Invocation E S Unit) m = .ok (u, m') ↔
      m' = { m with store := f m.store } :=
  modify_ok

@[simp] theorem requireAuth_ok {env : Env} {a : Address} {m m' : Machine S}
    {u : Unit} :
    (requireAuth env a : Invocation E S Unit) m = .ok (u, m') ↔
      a ∈ env.signers ∧ m' = m :=
  require_ok

@[simp] theorem ensure_ok {c : Prop} [Decidable c] {e : E} {m m' : Machine S}
    {u : Unit} :
    (ensure c e : Invocation E S Unit) m = .ok (u, m') ↔ c ∧ m' = m :=
  require_ok

@[simp] theorem transferToken_ok {env : Env} {token sender recipient : Address}
    {amount : ℤ} {fault : Fault E} {m m' : Machine S} {u : Unit} :
    (transferToken env token sender recipient amount fault :
        Invocation E S Unit) m = .ok (u, m') ↔
      (sender = env.self ∨ sender ∈ env.signers) ∧
        ∃ B, m.bank.transfer token sender recipient amount = some B ∧
          m' = { m with bank := B } := by
  simp only [transferToken, bind_ok, require_ok, get_ok, unwrap_ok, set_ok]
  constructor
  · rintro ⟨_, t, ⟨hs, rfl⟩, _, _, ⟨rfl, rfl⟩, B, _, ⟨hB, rfl⟩, rfl⟩
    exact ⟨hs, B, hB, rfl⟩
  · rintro ⟨hs, B, hB, rfl⟩
    exact ⟨(), m, ⟨hs, rfl⟩, m, m, ⟨rfl, rfl⟩, B, m, ⟨hB, rfl⟩, rfl⟩

/-- A transfer under a condition changes nothing but the bank. -/
@[simp high] theorem whenever_transferToken_ok {env : Env}
    {token sender recipient : Address} {amount : ℤ} {fault : Fault E}
    {c : Prop} [Decidable c] {m m' : Machine S} {u : Unit} :
    (whenever c (transferToken env token sender recipient amount fault) :
        Invocation E S Unit) m = .ok (u, m') ↔
      ∃ B,
        ((c ∧ (sender = env.self ∨ sender ∈ env.signers) ∧
            m.bank.transfer token sender recipient amount = some B) ∨
          (¬ c ∧ B = m.bank)) ∧
          m' = { m with bank := B } := by
  rw [whenever_ok, transferToken_ok]
  constructor
  · rintro (⟨hc, hauth, B, hB, rfl⟩ | ⟨hc, rfl⟩)
    · exact ⟨B, .inl ⟨hc, hauth, hB⟩, rfl⟩
    · exact ⟨_, .inr ⟨hc, rfl⟩, rfl⟩
  · rintro ⟨B, ⟨hc, hauth, hB⟩ | ⟨hc, rfl⟩, rfl⟩
    · exact .inl ⟨hc, hauth, B, hB, rfl⟩
    · exact .inr ⟨hc, rfl⟩

section Sequences

variable {m : Machine S} {r : α × Machine S}

theorem load_bind {f : S → Invocation E S α} :
    (load >>= f) m = .ok r ↔ f m.store m = .ok r :=
  Iff.rfl

theorem update_bind {f : S → S} {g : Unit → Invocation E S α} :
    (update f >>= g) m = .ok r ↔
      g () { m with store := f m.store } = .ok r :=
  Iff.rfl

/-- A call that checks a condition and leaves everything as it is. -/
theorem guard_bind {p : Prop} {guard : Invocation E S Unit}
    {f : Unit → Invocation E S α}
    (h : ∀ u m', guard m = .ok (u, m') ↔ p ∧ m' = m) :
    (guard >>= f) m = .ok r ↔ p ∧ f () m = .ok r := by
  constructor
  · intro hrun
    obtain ⟨u, m', hguard, hrest⟩ := bind_ok.mp hrun
    obtain ⟨hp, rfl⟩ := (h u m').mp hguard
    exact ⟨hp, hrest⟩
  · rintro ⟨hp, hrest⟩
    exact bind_ok.mpr ⟨(), m, (h () m).mpr ⟨hp, rfl⟩, hrest⟩

theorem ensure_bind {c : Prop} [Decidable c] {e : E}
    {f : Unit → Invocation E S α} :
    (ensure c e >>= f) m = .ok r ↔ c ∧ f () m = .ok r :=
  guard_bind fun _ _ => ensure_ok

theorem requireAuth_bind {env : Env} {a : Address}
    {f : Unit → Invocation E S α} :
    (requireAuth env a >>= f) m = .ok r ↔ a ∈ env.signers ∧ f () m = .ok r :=
  guard_bind fun _ _ => requireAuth_ok

end Sequences

section Keeps

variable {I : Machine S → Prop}

theorem keeps_load : Keeps I (load : Invocation E S S) :=
  keeps_bind keeps_get fun _ => keeps_pure _

theorem keeps_update {f : S → S}
    (h : ∀ m, I m → I { m with store := f m.store }) :
    Keeps I (update f : Invocation E S Unit) :=
  keeps_modify h

theorem keeps_requireAuth (env : Env) (a : Address) :
    Keeps I (requireAuth env a : Invocation E S Unit) :=
  keeps_require _ _

theorem keeps_ensure (c : Prop) [Decidable c] (e : E) :
    Keeps I (ensure c e : Invocation E S Unit) :=
  keeps_require _ _

theorem keeps_transferToken {env : Env} {token sender recipient : Address}
    {amount : ℤ} {fault : Fault E}
    (h : ∀ m B, I m → I { m with bank := B }) :
    Keeps I (transferToken env token sender recipient amount fault) := by
  intro m u m' hI hrun
  obtain ⟨-, B, -, rfl⟩ := transferToken_ok.mp hrun
  exact h m B hI

end Keeps

section Avoids

variable {bad : Fault E → Prop} {m : Machine S}

@[simp] theorem avoids_load : Avoids bad (load : Invocation E S S) m :=
  nofun

@[simp] theorem avoids_update (f : S → S) :
    Avoids bad (update f : Invocation E S Unit) m :=
  nofun

@[simp] theorem avoids_requireAuth {env : Env} {a : Address} :
    Avoids bad (requireAuth env a : Invocation E S Unit) m ↔
      (bad .trap → a ∈ env.signers) :=
  avoids_require

@[simp] theorem avoids_ensure {c : Prop} [Decidable c] {e : E} :
    Avoids bad (ensure c e : Invocation E S Unit) m ↔ (bad (.error e) → c) :=
  avoids_require

@[simp] theorem avoids_transferToken {env : Env} {token sender recipient : Address}
    {amount : ℤ} {fault : Fault E} (h : ¬ bad fault) :
    Avoids bad (transferToken env token sender recipient amount fault) m := by
  simp [transferToken, h]

end Avoids

end Invocation

/-! ## Who keeps and who gains tokens -/

namespace Bank

variable {a token sender recipient : Address} {B B' B'' : Bank}

/-- No token of `a` is spent from `B` to `B'`. -/
def Spares (a : Address) (B B' : Bank) : Prop :=
  ∀ token, B.balance token a ≤ B'.balance token a

theorem Spares.refl (a : Address) (B : Bank) : Spares a B B :=
  fun _ => le_rfl

theorem Spares.trans (h : Spares a B B') (h' : Spares a B' B'') :
    Spares a B B'' :=
  fun token => (h token).trans (h' token)

theorem Spares.transfer {amount : ℤ}
    (h : B.transfer token sender recipient amount = some B')
    (hne : a ≠ sender) : Spares a B B' :=
  balance_le_transfer h hne

theorem Spares.payAll {payments : List (Address × ℤ)}
    (h : Bank.payAll token sender payments B = some B') (hne : a ≠ sender) :
    Spares a B B' := by
  induction payments generalizing B with
  | nil =>
      obtain rfl := Option.some.inj h
      exact .refl a B
  | cons payment payments ih =>
      obtain ⟨recipient, amount⟩ := payment
      obtain ⟨B₁, h₁, h₂⟩ := payAll_cons_eq_some.mp h
      exact (Spares.transfer h₁ hne).trans (ih h₂)

/-- No token reaches `a` from `B` to `B'`. -/
def Withholds (a : Address) (B B' : Bank) : Prop :=
  ∀ token, B'.balance token a ≤ B.balance token a

theorem Withholds.refl (a : Address) (B : Bank) : Withholds a B B :=
  fun _ => le_rfl

theorem Withholds.trans (h : Withholds a B B') (h' : Withholds a B' B'') :
    Withholds a B B'' :=
  fun token => (h' token).trans (h token)

theorem Withholds.transfer {amount : ℤ}
    (h : B.transfer token sender recipient amount = some B')
    (hne : a ≠ recipient) : Withholds a B B' := by
  intro token'
  by_cases hsent : token' = token ∧ a = sender
  · obtain ⟨rfl, rfl⟩ := hsent
    have hpaid := transfer_balance_sender h hne
    have hpos := (transfer_eq_some h).1
    omega
  · have hsame : B'.balance token' a = B.balance token' a := by
      refine transfer_balance_of_ne h ?_
      rw [not_and_or] at hsent
      exact hsent.imp_right fun hs => ⟨hs, hne⟩
    exact hsame.le

theorem Withholds.payAll {payments : List (Address × ℤ)}
    (h : Bank.payAll token sender payments B = some B')
    (hne : ∀ payment ∈ payments, a ≠ payment.1) : Withholds a B B' := by
  induction payments generalizing B with
  | nil =>
      obtain rfl := Option.some.inj h
      exact .refl a B
  | cons payment payments ih =>
      obtain ⟨recipient, amount⟩ := payment
      obtain ⟨B₁, h₁, h₂⟩ := payAll_cons_eq_some.mp h
      obtain ⟨hfirst, hrest⟩ := List.forall_mem_cons.mp hne
      exact (Withholds.transfer h₁ hfirst).trans (ih h₂ hrest)

theorem Withholds.mint {holder : Address} {amount : ℕ} (hne : a ≠ holder) :
    Withholds a B (B.mint token holder amount) := by
  intro token'
  by_cases htoken : token' = token
  · subst htoken
    cases hL : B.ledger token' with
    | none =>
        simp [balance, Bank.mint, hL, Ledger.mint_balance, hne, Ledger.empty]
    | some L => simp [balance, Bank.mint, hL, Ledger.mint_balance, hne]
  · simp [balance, Bank.mint, Function.update_of_ne htoken]

end Bank

end Parashield
