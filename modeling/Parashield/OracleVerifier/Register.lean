import Mathlib.Logic.Relation
import Parashield.OracleVerifier.Writes

/-!
# Oracle verifier: the register

The part of the verifier that says who is an oracle and what each oracle has at
stake: the registrations with their two indexes, the stakes, the withdrawal
requests, and the tokens.  `Register.Change` lists what an entry point can do to
the register; each accepted call is a sequence of such changes.
-/

namespace Parashield.OracleVerifier

open Support Support.Contract Invocation

/-- Registrations and stakes. -/
@[ext] structure Register where
  oracles : Symbol × Address → Option OracleEntry
  oracleList : Symbol → List Address
  globalOracle : Address → Bool
  stakeToken : Option Address
  oracleStakeAmt : Symbol × Address → ℤ
  stakeWithdrawalReq : Symbol × Address → Option StakeWithdrawalRequest
  bank : Bank

/-- The register kept by a machine. -/
def register (m : Machine State) : Register where
  oracles := m.store.oracles
  oracleList := m.store.oracleList
  globalOracle := m.store.globalOracle
  stakeToken := m.store.stakeToken
  oracleStakeAmt := m.store.oracleStakeAmt
  stakeWithdrawalReq := m.store.stakeWithdrawalReq
  bank := m.bank

namespace Register

variable {r r' : Register} {dataType : Symbol} {oracle : Address}

/-- The oracle is registered for the data type and active. -/
def IsActive (r : Register) (dataType : Symbol) (oracle : Address) : Prop :=
  ∃ entry, r.oracles (dataType, oracle) = some entry ∧ entry.active = true

/-! ## Changes -/

def setEntry (r : Register) (entry : OracleEntry) (dataType : Symbol)
    (oracle : Address) : Register :=
  { r with
    oracles := Function.update r.oracles (dataType, oracle) (some entry) }

def enlisted (r : Register) (dataType : Symbol) (oracle : Address)
    (weight : ℕ) : Register :=
  { r.setEntry ⟨oracle, dataType, weight, true⟩ dataType oracle with
    globalOracle := Function.update r.globalOracle oracle true
    oracleList :=
      if oracle ∈ r.oracleList dataType then
        r.oracleList
      else
        Function.update r.oracleList dataType
          (r.oracleList dataType ++ [oracle]) }

/-- The oracle becomes inactive and leaves the list of its data type. -/
def unlisted (r : Register) (entry : OracleEntry) (dataType : Symbol)
    (oracle : Address) : Register :=
  { r.setEntry { entry with active := false } dataType oracle with
    oracleList :=
      Function.update r.oracleList dataType
        ((r.oracleList dataType).filter fun a => decide (a ≠ oracle)) }

/-- It also loses its global registration. -/
def struckOff (r : Register) (entry : OracleEntry) (dataType : Symbol)
    (oracle : Address) : Register :=
  { r.unlisted entry dataType oracle with
    globalOracle := Function.update r.globalOracle oracle false }

def setStake (r : Register) (dataType : Symbol) (oracle : Address)
    (amount : ℤ) (B : Bank) : Register :=
  { r with
    oracleStakeAmt :=
      Function.update r.oracleStakeAmt (dataType, oracle) amount
    bank := B }

def setRequest (r : Register) (dataType : Symbol) (oracle : Address)
    (req : Option StakeWithdrawalRequest) : Register :=
  { r with
    stakeWithdrawalReq :=
      Function.update r.stakeWithdrawalReq (dataType, oracle) req }

/-- What a slash of `slashed` leaves of a withdrawal request. -/
def reduced (slashed : ℤ) (req : StakeWithdrawalRequest) :
    Option StakeWithdrawalRequest :=
  if satI128 (req.amount - slashed) ≤ 0 then
    none
  else
    some { req with amount := satI128 (req.amount - slashed) }

/-- Slashed stake stays with the verifier or goes to a treasury. -/
def Paid (env : Env) (r : Register) (amount : ℤ) (B : Bank) : Prop :=
  B = r.bank ∨ ∃ token treasury, r.stakeToken = some token ∧
    r.bank.transfer token env.self treasury amount = some B

/-- The register after a slash by the admin. -/
def slashed (r : Register) (dataType : Symbol) (oracle : Address)
    (amount : ℤ) (B : Bank) : Register :=
  (r.setStake dataType oracle
      (r.oracleStakeAmt (dataType, oracle) - amount) B).setRequest
    dataType oracle
    ((r.stakeWithdrawalReq (dataType, oracle)).bind (reduced amount))

end Register

/-- The data type and oracle a submission is made for. -/
def Entry.submitsFor : Entry → Option (Symbol × Address)
  | .submitData oracle dataType .. => some (dataType, oracle)
  | .batchSubmitData oracle dataType _ => some (dataType, oracle)
  | .submitDataBatch oracle dataType _ => some (dataType, oracle)
  | .submitEncryptedData oracle dataType .. => some (dataType, oracle)
  | _ => none

/-- The call strikes off the oracle. -/
def Entry.strikesOff (e : Entry) (s : State) (now : ℕ) (dataType : Symbol)
    (oracle : Address) : Prop :=
  match e with
  | .removeOracle _ o t => t = dataType ∧ o = oracle
  | .deactivateInactiveOracles t =>
      t = dataType ∧ oracle ∈ s.oracleList dataType ∧
        s.oracleOffline now dataType oracle = true
  | _ => False

namespace Register

/-- One change by a call of entry `e` that began in storage `s`. -/
inductive Change (env : Env) (e : Entry) (s : State) (r : Register) :
    Register → Prop
  | enlist {admin oracle : Address} {dataType : Symbol} {weight : ℕ} :
      e = .addOracle admin oracle dataType weight →
      r.oracles (dataType, oracle) = none →
      r.globalOracle oracle = false →
      (r.oracleList dataType).length < maxOraclesPerKey →
      Change env e s r (r.enlisted dataType oracle weight)
  | reweigh {admin oracle : Address} {dataType : Symbol}
      {entry : OracleEntry} {weight : ℕ} :
      e = .updateOracleWeight admin oracle dataType weight →
      r.oracles (dataType, oracle) = some entry →
      Change env e s r
        (r.setEntry { entry with weight := weight } dataType oracle)
  | strikeOff {dataType : Symbol} {oracle : Address} {entry : OracleEntry} :
      e.strikesOff s env.now dataType oracle →
      r.oracles (dataType, oracle) = some entry →
      Change env e s r (r.struckOff entry dataType oracle)
  | setToken {admin token : Address} :
      e = .setStakeToken admin token →
      Change env e s r { r with stakeToken := some token }
  | stake {oracle token : Address} {dataType : Symbol} {amount : ℤ}
      {B : Bank} :
      e = .stake oracle dataType amount →
      oracle ∈ env.signers →
      0 < amount →
      r.stakeToken = some token →
      r.bank.transfer token oracle env.self amount = some B →
      Change env e s r
        (r.setStake dataType oracle
          (r.oracleStakeAmt (dataType, oracle) + amount) B)
  | request {oracle : Address} {dataType : Symbol} :
      e = .requestStakeWithdrawal oracle dataType →
      ¬ r.IsActive dataType oracle →
      0 < r.oracleStakeAmt (dataType, oracle) →
      r.stakeWithdrawalReq (dataType, oracle) = none →
      Change env e s r
        (r.setRequest dataType oracle
          (some
            { oracle := oracle
              dataType := dataType
              amount := r.oracleStakeAmt (dataType, oracle)
              requestedAt := env.now
              unlockAt := satAddU64 env.now s.challengePeriod }))
  | cancel {oracle : Address} {dataType : Symbol} :
      e = .cancelStakeWithdrawal oracle dataType →
      Change env e s r (r.setRequest dataType oracle none)
  | withdraw {oracle token : Address} {dataType : Symbol}
      {req : StakeWithdrawalRequest} {B : Bank} :
      e = .withdrawStake oracle dataType →
      r.stakeWithdrawalReq (dataType, oracle) = some req →
      req.unlockAt ≤ env.now →
      0 < r.oracleStakeAmt (dataType, oracle) →
      r.stakeToken = some token →
      r.bank.transfer token env.self oracle
        (min (r.oracleStakeAmt (dataType, oracle)) req.amount) = some B →
      Change env e s r
        ((r.setStake dataType oracle
            (r.oracleStakeAmt (dataType, oracle) -
              min (r.oracleStakeAmt (dataType, oracle)) req.amount)
            B).setRequest dataType oracle none)
  | slash {admin oracle : Address} {dataType : Symbol} {amount : ℤ}
      {B : Bank} :
      e = .slashOracle admin oracle dataType amount →
      0 < amount →
      0 < r.oracleStakeAmt (dataType, oracle) →
      Paid env r (min amount (r.oracleStakeAmt (dataType, oracle))) B →
      Change env e s r
        (r.slashed dataType oracle
          (min amount (r.oracleStakeAmt (dataType, oracle))) B)
  | unlist {admin oracle : Address} {dataType : Symbol} {amount : ℤ}
      {entry : OracleEntry} :
      e = .slashOracle admin oracle dataType amount →
      r.oracles (dataType, oracle) = some entry →
      Change env e s r (r.unlisted entry dataType oracle)
  | stale {dataType : Symbol} {oracle : Address} {amount : ℤ} {B : Bank} :
      e.submitsFor = some (dataType, oracle) →
      r.IsActive dataType oracle →
      0 < amount →
      amount ≤ r.oracleStakeAmt (dataType, oracle) →
      Paid env r amount B →
      Change env e s r
        (r.setStake dataType oracle
          (r.oracleStakeAmt (dataType, oracle) - amount) B)

/-- A sequence of changes. -/
abbrev Changes (env : Env) (e : Entry) (s : State) :
    Register → Register → Prop :=
  Relation.ReflTransGen (Change env e s)

end Register

section Changes

variable {env : Env} {e : Entry} {s : State} {m m' : Machine State}
  {u : Unit}

/-! ## Registrations -/

theorem addOracle_register {admin oracle : Address} {dataType : Symbol}
    {weight : ℕ}
    (h : addOracle env admin oracle dataType weight m = .ok (u, m')) :
    m.store.oracles (dataType, oracle) = none ∧
      m.store.globalOracle oracle = false ∧
      (m.store.oracleList dataType).length < maxOraclesPerKey ∧
      register m' = (register m).enlisted dataType oracle weight := by
  simp [addOracle, validateContractAddress, validateSymbolLen,
    storeOracle] at h
  obtain ⟨-, -, -, -, hnew, hglobal, hroom, -, hlist⟩ := h
  refine ⟨hnew, hglobal, hroom, ?_⟩
  rcases hlist with ⟨hmem, -, rfl⟩ | ⟨hmem, rfl⟩
  · simp [Register.enlisted, Register.setEntry, register, hmem]
  · simp [Register.enlisted, Register.setEntry, register, hmem]

theorem updateOracleWeight_register {admin oracle : Address}
    {dataType : Symbol} {weight : ℕ}
    (h : updateOracleWeight env admin oracle dataType weight m =
      .ok (u, m')) :
    ∃ entry, m.store.oracles (dataType, oracle) = some entry ∧
      register m' =
        (register m).setEntry { entry with weight := weight } dataType
          oracle := by
  simp [updateOracleWeight, storeOracle] at h
  obtain ⟨-, -, entry, hentry, rfl⟩ := h
  exact ⟨entry, hentry, rfl⟩

theorem deactivateOracle_register {oracle : Address} {dataType : Symbol}
    (h : deactivateOracle dataType oracle m = .ok (u, m')) :
    ∃ entry, m.store.oracles (dataType, oracle) = some entry ∧
      register m' = (register m).struckOff entry dataType oracle := by
  simp [deactivateOracle, storeOracle, pruneOracleList] at h
  obtain ⟨entry, hentry, rfl⟩ := h
  refine ⟨entry, hentry, ?_⟩
  simp [Register.struckOff, Register.unlisted, Register.setEntry, register]

theorem removeOracle_register {admin oracle : Address} {dataType : Symbol}
    (h : removeOracle env admin oracle dataType m = .ok (u, m')) :
    ∃ entry, m.store.oracles (dataType, oracle) = some entry ∧
      register m' = (register m).struckOff entry dataType oracle := by
  obtain ⟨_, m₀, hadmin, hrun⟩ := bind_ok.mp h
  obtain ⟨-, rfl⟩ := requireAdmin_ok.mp hadmin
  exact deactivateOracle_register hrun

/-- What offline detection reads has not changed. -/
def State.SameClock (s t : State) : Prop :=
  t.oracleInactivityLimit = s.oracleInactivityLimit ∧
    t.lastSubmission = s.lastSubmission

theorem State.SameClock.offline {t : State} (h : s.SameClock t) (now : ℕ)
    (dataType : Symbol) (oracle : Address) :
    t.oracleOffline now dataType oracle =
      s.oracleOffline now dataType oracle := by
  simp [State.oracleOffline, h.1, h.2]

/-- One oracle of the sweep. -/
def strikeOffline (env : Env) (dataType : Symbol) (oracle : Address) :
    Call (List Address) := do
  let t ← load
  if t.oracleOffline env.now dataType oracle then do
    deactivateOracle dataType oracle
    pure [oracle]
  else
    pure []

theorem strikeOffline_register {oracle : Address} {dataType : Symbol}
    {removed : List Address}
    (h : strikeOffline env dataType oracle m = .ok (removed, m')) :
    m.store.SameClock m'.store ∧
      ((m.store.oracleOffline env.now dataType oracle = false ∧ m' = m) ∨
        m.store.oracleOffline env.now dataType oracle = true ∧
          ∃ entry, m.store.oracles (dataType, oracle) = some entry ∧
            register m' = (register m).struckOff entry dataType oracle) := by
  simp only [strikeOffline, bind_ok, load_ok] at h
  obtain ⟨_, _, ⟨rfl, rfl⟩, h⟩ := h
  rcases ite_ok.mp h with ⟨hoffline, h⟩ | ⟨hoffline, h⟩
  · simp only [bind_ok, pure_ok] at h
    obtain ⟨_, _, hrun, -, rfl⟩ := h
    refine ⟨?_, .inr ⟨hoffline, deactivateOracle_register hrun⟩⟩
    simp [deactivateOracle, storeOracle, pruneOracleList] at hrun
    obtain ⟨entry, -, rfl⟩ := hrun
    exact ⟨rfl, rfl⟩
  · obtain ⟨-, rfl⟩ := pure_ok.mp h
    exact ⟨⟨rfl, rfl⟩, .inl ⟨by simpa using hoffline, rfl⟩⟩

namespace Register

variable {r : Register} {entry : OracleEntry} {dataType t : Symbol}
  {oracle o : Address}

theorem not_isActive_unlisted :
    ¬ (r.unlisted entry dataType oracle).IsActive dataType oracle := by
  rintro ⟨entry', hentry, hactive⟩
  simp only [unlisted, setEntry, Function.update_self,
    Option.some.injEq] at hentry
  rw [← hentry] at hactive
  cases hactive

/-- Nobody becomes active when an oracle leaves. -/
theorem IsActive.of_unlisted
    (h : (r.unlisted entry dataType oracle).IsActive t o) :
    r.IsActive t o ∧ (t, o) ≠ (dataType, oracle) := by
  have hne : (t, o) ≠ (dataType, oracle) := by
    rintro heq
    obtain ⟨rfl, rfl⟩ := Prod.mk.inj heq
    exact not_isActive_unlisted h
  refine ⟨?_, hne⟩
  obtain ⟨entry', hentry, hactive⟩ := h
  refine ⟨entry', ?_, hactive⟩
  simpa [unlisted, setEntry, Function.update_of_ne hne] using hentry

end Register

/-- The sweep strikes off the listed oracles that are offline. -/
theorem strikeOffline_all {dataType : Symbol} {xs : List Address}
    {flags : List (List Address)} (hclock : s.SameClock m.store)
    (hxs : ∀ o ∈ xs, o ∈ s.oracleList dataType)
    (h : collect xs (strikeOffline env dataType) m = .ok (flags, m')) :
    Register.Changes env (.deactivateInactiveOracles dataType) s (register m)
        (register m') ∧
      (∀ t o, (register m').IsActive t o → (register m).IsActive t o) ∧
      ∀ o ∈ xs, s.oracleOffline env.now dataType o = true →
        ¬ (register m').IsActive dataType o := by
  induction xs generalizing m flags with
  | nil =>
      obtain ⟨-, rfl⟩ := pure_ok.mp h
      exact ⟨.refl, fun _ _ => id, by simp⟩
  | cons x xs ih =>
      simp only [collect, bind_ok, pure_ok] at h
      obtain ⟨removed, m₁, hx, rest, m₂, hrest, -, rfl⟩ := h
      obtain ⟨hclock₁, hstruck⟩ := strikeOffline_register hx
      have hsame : s.SameClock m₁.store :=
        ⟨hclock₁.1.trans hclock.1, hclock₁.2.trans hclock.2⟩
      obtain ⟨hchanges, hless, hgone⟩ :=
        ih hsame (fun o ho => hxs o (List.mem_cons_of_mem x ho)) hrest
      rw [hclock.offline] at hstruck
      rcases hstruck with ⟨honline, rfl⟩ | ⟨hoffline, entry, hentry, heq⟩
      · refine ⟨hchanges, hless, ?_⟩
        rintro o (_ | ⟨_, ho⟩) hoffline
        · rw [honline] at hoffline
          cases hoffline
        · exact hgone o ho hoffline
      · refine ⟨?_, ?_, ?_⟩
        · refine .head ?_ hchanges
          rw [heq]
          exact .strikeOff ⟨rfl, hxs x List.mem_cons_self, hoffline⟩ hentry
        · intro t o hactive
          have hactive₁ := hless t o hactive
          rw [heq] at hactive₁
          exact (Register.IsActive.of_unlisted hactive₁).1
        · rintro o (_ | ⟨_, ho⟩) hoff hactive
          · have hactive₁ := hless dataType x hactive
            rw [heq] at hactive₁
            exact Register.not_isActive_unlisted hactive₁
          · exact hgone o ho hoff hactive

theorem deactivateInactiveOracles_register {dataType : Symbol}
    {removed : List Address}
    (h : deactivateInactiveOracles env dataType m = .ok (removed, m')) :
    Register.Changes env (.deactivateInactiveOracles dataType) m.store
        (register m) (register m') ∧
      ∀ o ∈ m.store.oracleList dataType,
        m.store.oracleOffline env.now dataType o = true →
          ¬ (register m').IsActive dataType o := by
  have hrun : (do
      let s ← load
      let flags ← collect (s.oracleList dataType) (strikeOffline env dataType)
      pure flags.flatten : Call (List Address)) m = .ok (removed, m') := h
  simp only [bind_ok, load_ok, pure_ok] at hrun
  obtain ⟨_, _, ⟨rfl, rfl⟩, flags, _, hloop, -, rfl⟩ := hrun
  obtain ⟨hchanges, -, hgone⟩ :=
    strikeOffline_all ⟨rfl, rfl⟩ (fun _ => id) hloop
  exact ⟨hchanges, hgone⟩

/-! ## Stakes -/

theorem stake_register {oracle : Address} {dataType : Symbol} {amount : ℤ}
    (h : stake env oracle dataType amount m = .ok (u, m')) :
    oracle ∈ env.signers ∧ 0 < amount ∧
      ∃ token B, m.store.stakeToken = some token ∧
        m.bank.transfer token oracle env.self amount = some B ∧
        register m' = (register m).setStake dataType oracle
          (m.store.oracleStakeAmt (dataType, oracle) + amount) B := by
  simp [stake, storeStake] at h
  obtain ⟨hauth, hpos, token, htoken, B, ⟨-, hB⟩, -, rfl⟩ := h
  exact ⟨hauth, hpos, token, B, htoken, hB, rfl⟩

@[simp] theorem ensureNotActive_ok {oracle : Address} {dataType : Symbol} :
    ensureNotActive dataType oracle m = .ok (u, m') ↔
      ¬ (register m).IsActive dataType oracle ∧ m' = m := by
  simp [ensureNotActive, Register.IsActive, register]
  tauto

theorem requestStakeWithdrawal_register {oracle : Address}
    {dataType : Symbol}
    (h : requestStakeWithdrawal env oracle dataType m = .ok (u, m')) :
    ¬ (register m).IsActive dataType oracle ∧
      0 < m.store.oracleStakeAmt (dataType, oracle) ∧
      m.store.stakeWithdrawalReq (dataType, oracle) = none ∧
      register m' = (register m).setRequest dataType oracle
        (some
          { oracle := oracle
            dataType := dataType
            amount := m.store.oracleStakeAmt (dataType, oracle)
            requestedAt := env.now
            unlockAt := satAddU64 env.now m.store.challengePeriod }) := by
  simp [requestStakeWithdrawal, storeWithdrawalRequest] at h
  obtain ⟨-, hinactive, hpos, hnone, rfl⟩ := h
  exact ⟨hinactive, hpos, hnone, rfl⟩

theorem cancelStakeWithdrawal_register {oracle : Address}
    {dataType : Symbol}
    (h : cancelStakeWithdrawal env oracle dataType m = .ok (u, m')) :
    Register.Change env (.cancelStakeWithdrawal oracle dataType) s
      (register m) (register m') := by
  simp [cancelStakeWithdrawal, storeWithdrawalRequest] at h
  obtain ⟨-, -, rfl⟩ := h
  exact .cancel rfl

theorem withdrawStake_register {oracle : Address} {dataType : Symbol}
    (h : withdrawStake env oracle dataType m = .ok (u, m')) :
    ∃ req token B,
      m.store.stakeWithdrawalReq (dataType, oracle) = some req ∧
      req.unlockAt ≤ env.now ∧
      0 < m.store.oracleStakeAmt (dataType, oracle) ∧
      m.store.stakeToken = some token ∧
      m.bank.transfer token env.self oracle
        (min (m.store.oracleStakeAmt (dataType, oracle)) req.amount) =
          some B ∧
      register m' = ((register m).setStake dataType oracle
        (m.store.oracleStakeAmt (dataType, oracle) -
          min (m.store.oracleStakeAmt (dataType, oracle)) req.amount)
        B).setRequest dataType oracle none := by
  simp [withdrawStake, storeStake, storeWithdrawalRequest] at h
  obtain ⟨-, -, req, hreq, hunlocked, hpos, -, token, htoken, B, hB,
    rfl⟩ := h
  exact ⟨req, token, B, hreq, hunlocked, hpos, htoken, hB, rfl⟩

theorem transferSlashed_ok {amount : ℤ}
    (h : transferSlashed env amount m = .ok (u, m')) :
    ∃ B, Register.Paid env (register m) amount B ∧
      m' = { m with bank := B } := by
  simp only [transferSlashed, bind_ok, load_ok] at h
  obtain ⟨t, _, ⟨ht, rfl⟩, h⟩ := h
  cases htoken : t.stakeToken with
  | none =>
      rw [htoken] at h
      obtain ⟨-, rfl⟩ := pure_ok.mp h
      exact ⟨_, .inl rfl, rfl⟩
  | some token =>
      cases htreasury : t.slashTreasury with
      | none =>
          rw [htoken, htreasury] at h
          obtain ⟨-, rfl⟩ := pure_ok.mp h
          exact ⟨_, .inl rfl, rfl⟩
      | some treasury =>
          rw [htoken, htreasury] at h
          obtain ⟨-, B, hB, rfl⟩ := transferToken_ok.mp h
          rw [ht] at htoken
          exact ⟨B, .inr ⟨token, treasury, htoken, hB⟩, rfl⟩

/-- A slash of `amount` takes an active oracle below the minimum stake. -/
def State.SlashDisables (s : State) (dataType : Symbol) (oracle : Address)
    (amount : ℤ) : Prop :=
  0 < s.minStake ∧
    s.oracleStakeAmt (dataType, oracle) -
        min amount (s.oracleStakeAmt (dataType, oracle)) < s.minStake ∧
    ∃ entry, s.oracles (dataType, oracle) = some entry ∧ entry.active = true

/-- The last part of a slash: an oracle below the minimum stake goes. -/
def dropBelowMinimum (s : State) (dataType : Symbol) (oracle : Address)
    (remaining : ℤ) : Call Unit :=
  whenever (0 < s.minStake ∧ remaining < s.minStake) do
    match s.oracles (dataType, oracle) with
    | none => pure ()
    | some entry =>
        whenever (entry.active = true) do
          storeOracle dataType oracle { entry with active := false }
          pruneOracleList dataType oracle

theorem dropBelowMinimum_register {dataType : Symbol} {oracle : Address}
    {remaining : ℤ}
    (h : dropBelowMinimum s dataType oracle remaining m = .ok (u, m')) :
    (0 < s.minStake ∧ remaining < s.minStake ∧
        ∃ entry, s.oracles (dataType, oracle) = some entry ∧
          entry.active = true ∧
          register m' = (register m).unlisted entry dataType oracle) ∨
      ¬ (0 < s.minStake ∧ remaining < s.minStake ∧
        ∃ entry, s.oracles (dataType, oracle) = some entry ∧
          entry.active = true) ∧ m' = m := by
  rcases whenever_ok.mp h with ⟨⟨hmin, hbelow⟩, h⟩ | ⟨hnot, rfl⟩
  swap
  · exact .inr ⟨fun hd => hnot ⟨hd.1, hd.2.1⟩, rfl⟩
  cases hentry : s.oracles (dataType, oracle) with
  | none =>
      rw [hentry] at h
      obtain ⟨-, rfl⟩ := pure_ok.mp h
      exact .inr ⟨by simp, rfl⟩
  | some entry =>
      rw [hentry] at h
      rcases whenever_ok.mp h with ⟨hactive, h⟩ | ⟨hinactive, rfl⟩
      · simp only [storeOracle, pruneOracleList, bind_ok, update_ok] at h
        obtain ⟨_, _, rfl, rfl⟩ := h
        exact .inl ⟨hmin, hbelow, entry, rfl, hactive, rfl⟩
      · exact .inr ⟨by simp [hinactive], rfl⟩

/-- What a slash of at most `amount` makes of the register. -/
def Slashed (env : Env) (dataType : Symbol) (oracle : Address) (amount : ℤ)
    (m m' : Machine State) : Prop :=
  ∃ B, Register.Paid env (register m)
      (min amount (m.store.oracleStakeAmt (dataType, oracle))) B ∧
    ((m.store.SlashDisables dataType oracle amount ∧
        ∃ entry, m.store.oracles (dataType, oracle) = some entry ∧
          entry.active = true ∧
          register m' = ((register m).slashed dataType oracle
            (min amount (m.store.oracleStakeAmt (dataType, oracle)))
            B).unlisted entry dataType oracle) ∨
      ¬ m.store.SlashDisables dataType oracle amount ∧
        register m' = (register m).slashed dataType oracle
          (min amount (m.store.oracleStakeAmt (dataType, oracle))) B)

/-- The end of a slash, once stake and request are reduced. -/
theorem slash_finish {dataType : Symbol} {oracle : Address} {amount : ℤ}
    {m₁ : Machine State}
    (h : (do
      transferSlashed env
        (min amount (m.store.oracleStakeAmt (dataType, oracle)))
      dropBelowMinimum m.store dataType oracle
        (m.store.oracleStakeAmt (dataType, oracle) -
          min amount (m.store.oracleStakeAmt (dataType, oracle))) :
      Call Unit) m₁ = .ok (u, m'))
    (hregister : ∀ B, register { m₁ with bank := B } =
      (register m).slashed dataType oracle
        (min amount (m.store.oracleStakeAmt (dataType, oracle))) B)
    (hbank : m₁.bank = m.bank)
    (htoken : m₁.store.stakeToken = m.store.stakeToken) :
    Slashed env dataType oracle amount m m' := by
  obtain ⟨_, m₂, hslash, hdrop⟩ := bind_ok.mp h
  obtain ⟨B, hpaid, rfl⟩ := transferSlashed_ok hslash
  refine ⟨B, ?_, ?_⟩
  · rcases hpaid with heq | ⟨token, treasury, htok, hB⟩
    · exact .inl (heq.trans hbank)
    · refine .inr ⟨token, treasury, htoken.symm.trans htok, ?_⟩
      rw [← hB]
      show m.bank.transfer _ _ _ _ = m₁.bank.transfer _ _ _ _
      rw [hbank]
  · rcases dropBelowMinimum_register hdrop with
      ⟨hmin, hbelow, entry, hentry, hactive, heq⟩ | ⟨hnot, rfl⟩
    · refine .inl ⟨⟨hmin, hbelow, entry, hentry, hactive⟩, entry, hentry,
        hactive, ?_⟩
      rw [heq, hregister]
    · exact .inr ⟨hnot, hregister B⟩

theorem slashOracle_register {admin oracle : Address} {dataType : Symbol}
    {amount : ℤ}
    (h : slashOracle env admin oracle dataType amount m = .ok (u, m')) :
    0 < amount ∧ 0 < m.store.oracleStakeAmt (dataType, oracle) ∧
      Slashed env dataType oracle amount m m' := by
  simp only [slashOracle, bind_ok, requireAdmin_ok, ensure_ok, load_ok,
    storeStake, update_ok] at h
  obtain ⟨_, _, ⟨-, rfl⟩, _, _, ⟨hpos, rfl⟩, _, _, ⟨rfl, rfl⟩, _, m₀,
    ⟨hstake, rfl⟩, _, _, rfl, h⟩ := h
  refine ⟨hpos, hstake, ?_⟩
  cases hreq : m₀.store.stakeWithdrawalReq (dataType, oracle) with
  | none =>
      rw [hreq] at h
      refine slash_finish (m := m₀) h (fun B => ?_) rfl rfl
      have hsame : Function.update m₀.store.stakeWithdrawalReq
          (dataType, oracle) none = m₀.store.stakeWithdrawalReq :=
        Function.update_eq_self_iff.mpr hreq.symm
      simp [Register.slashed, Register.setRequest, Register.setStake,
        register, hreq, hsame]
  | some req =>
      rw [hreq] at h
      obtain ⟨_, _, hrequest, h⟩ := bind_ok.mp h
      rw [update_ok.mp hrequest] at h
      refine slash_finish (m := m₀) h (fun B => ?_) rfl rfl
      simp [Register.slashed, Register.setRequest, Register.setStake,
        register, hreq, Register.reduced]

/-! ## Submissions -/

/-- A part of a submission: slashes of the active oracle that submits. -/
structure Penalized (env : Env) (e : Entry) (s : State) (m m' : Machine State) :
    Prop where
  changes : Register.Changes env e s (register m) (register m')
  oracles : m'.store.oracles = m.store.oracles

theorem Penalized.of_eq (h : register m' = register m) :
    Penalized env e s m m' := by
  refine ⟨?_, congrArg Register.oracles h⟩
  rw [h]

theorem Penalized.trans {m₁ m₂ m₃ : Machine State}
    (h : Penalized env e s m₁ m₂) (h' : Penalized env e s m₂ m₃) :
    Penalized env e s m₁ m₃ :=
  ⟨h.changes.trans h'.changes, h'.oracles.trans h.oracles⟩

theorem storeStaleCount_register {oracle : Address} {dataType : Symbol}
    {count : ℕ}
    (h : storeStaleCount dataType oracle count m = .ok (u, m')) :
    register m' = register m := by
  rw [update_ok.mp h]
  rfl

theorem handleStaleSubmission_penalized {oracle : Address}
    {dataType : Symbol} (he : e.submitsFor = some (dataType, oracle))
    (hactive : (register m).IsActive dataType oracle)
    (h : handleStaleSubmission env oracle dataType m = .ok (u, m')) :
    Penalized env e s m m' := by
  simp only [handleStaleSubmission, bind_ok, load_ok] at h
  obtain ⟨t, m₀, ⟨rfl, rfl⟩, _, m₁, hcount, h⟩ := h
  have hcounted := storeStaleCount_register hcount
  refine .trans (.of_eq hcounted) ?_
  rcases whenever_ok.mp h with ⟨-, h⟩ | ⟨-, rfl⟩
  swap
  · exact .of_eq rfl
  simp only [bind_ok] at h
  obtain ⟨_, m₂, hstake, _, m₃, hpenalty, hreset⟩ := h
  have hrated : register m₃ = register m₂ := by
    rcases whenever_ok.mp hpenalty with ⟨-, hrep⟩ | ⟨-, rfl⟩
    · rw [update_ok.mp hrep]
      rfl
    · rfl
  have hdone : register m' = register m₂ :=
    (storeStaleCount_register hreset).trans hrated
  refine .trans ?_ (.of_eq hdone)
  rcases whenever_ok.mp hstake with ⟨⟨hamount, hcurrent⟩, hstake⟩ | ⟨-, rfl⟩
  swap
  · exact .of_eq rfl
  simp only [bind_ok, storeStake, update_ok] at hstake
  obtain ⟨_, _, rfl, hslash⟩ := hstake
  obtain ⟨B, hpaid, rfl⟩ := transferSlashed_ok hslash
  have hpaid₁ : Register.Paid env (register m₁)
      (min m₀.store.staleSlashAmount
        (m₀.store.oracleStakeAmt (dataType, oracle))) B := hpaid
  have hstake₁ : m₀.store.oracleStakeAmt = m₁.store.oracleStakeAmt :=
    congrArg Register.oracleStakeAmt hcounted.symm
  rw [hstake₁] at hcurrent hpaid₁
  rw [← hcounted] at hactive
  refine ⟨.single ?_, rfl⟩
  simp only [hstake₁]
  exact .stale he hactive (lt_min hamount hcurrent) (min_le_right _ _) hpaid₁

theorem enforceRateLimit_register {dataType : Symbol} {oracle : Address}
    (h : enforceRateLimit env dataType oracle m = .ok (u, m')) :
    register m' = register m := by
  simp only [enforceRateLimit, bind_ok, load_ok, ensure_ok, update_ok] at h
  obtain ⟨_, _, ⟨-, rfl⟩, _, _, ⟨-, rfl⟩, rfl⟩ := h
  rfl

theorem submitData_penalized {oracle : Address} {dataType key : Symbol}
    {value : ℤ} {confidence timestamp : ℕ}
    (h : submitData env oracle dataType key value confidence timestamp m =
      .ok (u, m')) :
    Penalized env
      (.submitData oracle dataType key value confidence timestamp) s m
      m' := by
  obtain ⟨hadmitted, -, h⟩ :=
    (submitData_ok ⟨key, value, confidence, timestamp⟩).mp h
  split_ifs at h with hstale
  · have hstamp : register
        { m with store := m.store.stamp env.now dataType oracle } =
          register m := rfl
    exact .trans (.of_eq hstamp)
      (handleStaleSubmission_penalized rfl hadmitted.listed h)
  · obtain ⟨-, rfl⟩ := h
    exact .of_eq rfl

theorem openBatch_register {oracle : Address} {dataType : Symbol}
    (h : openBatch env oracle dataType m = .ok (u, m')) :
    (register m').IsActive dataType oracle ∧ register m' = register m := by
  simp only [openBatch, validateSymbolLen, requireDataTypeActive, bind_ok,
    requireAuth_ok, load_ok, ensure_ok, requireActiveOracle_ok] at h
  obtain ⟨_, _, ⟨-, rfl⟩, _, _, ⟨_, _, ⟨rfl, rfl⟩, -, rfl⟩, _, _, ⟨rfl, rfl⟩,
    _, _, ⟨-, rfl⟩, _, _, ⟨-, rfl⟩, _, m₀, ⟨hactive, rfl⟩, hrate⟩ := h
  have hquiet := enforceRateLimit_register hrate
  refine ⟨?_, hquiet⟩
  rw [hquiet]
  exact hactive

theorem acceptBatchReading_penalized {oracle : Address} {dataType : Symbol}
    {sub : OracleDataSubmission}
    (he : e.submitsFor = some (dataType, oracle))
    (hactive : (register m).IsActive dataType oracle)
    (h : acceptBatchReading env oracle dataType sub m = .ok (u, m')) :
    Penalized env e s m m' := by
  obtain ⟨-, h⟩ := acceptBatchReading_ok.mp h
  split_ifs at h
  · exact handleStaleSubmission_penalized he hactive h
  · rw [h]
    exact .of_eq rfl

/-- The readings of a batch are penalized one after the other. -/
theorem forEach_penalized {oracle : Address} {dataType : Symbol}
    {f : OracleDataSubmission → Call Unit} {xs : List OracleDataSubmission}
    (hactive : (register m).IsActive dataType oracle)
    (hf : ∀ x t v t', (register t).IsActive dataType oracle →
      f x t = .ok (v, t') → Penalized env e s t t')
    (h : forEach xs f m = .ok (u, m')) : Penalized env e s m m' := by
  have hkeeps : Keeps (Penalized env e s m) (forEach xs f) := by
    apply keeps_forEach
    intro x _ t v t' ht hrun
    refine ht.trans (hf x t v t' ?_ hrun)
    obtain ⟨entry, hentry, hentryActive⟩ := hactive
    refine ⟨entry, ?_, hentryActive⟩
    rw [show (register t).oracles = _ from ht.oracles]
    exact hentry
  exact hkeeps m u m' (.of_eq rfl) h

theorem batchSubmitData_penalized {oracle : Address} {dataType : Symbol}
    {submissions : List OracleDataSubmission}
    (h : batchSubmitData env oracle dataType submissions m = .ok (u, m')) :
    Penalized env (.batchSubmitData oracle dataType submissions) s m m' := by
  obtain ⟨_, m₁, hopen, hloop⟩ := bind_ok.mp h
  obtain ⟨hactive, hquiet⟩ := openBatch_register hopen
  refine .trans (.of_eq hquiet) (forEach_penalized hactive ?_ hloop)
  intro sub t v t' ht hrun
  simp only [validateKeyLen, bind_ok, ensure_ok] at hrun
  obtain ⟨_, _, ⟨-, rfl⟩, _, _, ⟨-, rfl⟩, _, t₀, ⟨-, rfl⟩, haccept⟩ := hrun
  exact acceptBatchReading_penalized rfl ht haccept

theorem submitDataBatch_penalized {oracle : Address} {dataType : Symbol}
    {submissions : List OracleDataSubmission}
    (h : submitDataBatch env oracle dataType submissions m = .ok (u, m')) :
    Penalized env (.submitDataBatch oracle dataType submissions) s m m' := by
  obtain ⟨_, m₁, hopen, h⟩ := bind_ok.mp h
  obtain ⟨_, m₂, hloop, hreset⟩ := bind_ok.mp h
  obtain ⟨hactive, hquiet⟩ := openBatch_register hopen
  refine .trans (.of_eq hquiet) (.trans (forEach_penalized hactive ?_ hloop)
    (.of_eq (storeStaleCount_register hreset)))
  intro sub t v t' ht hrun
  simp only [validateKeyLen, bind_ok, ensure_ok] at hrun
  obtain ⟨_, _, ⟨-, rfl⟩, _, _, ⟨-, rfl⟩, _, t₀, ⟨-, rfl⟩, haccept⟩ := hrun
  exact acceptBatchReading_penalized rfl ht haccept

theorem submitEncryptedData_penalized {oracle : Address}
    {dataType key : Symbol} {ciphertext nonce : Bytes}
    {confidence timestamp : ℕ}
    (h : submitEncryptedData env oracle dataType key ciphertext nonce
      confidence timestamp m = .ok (u, m')) :
    Penalized env
      (.submitEncryptedData oracle dataType key ciphertext nonce confidence
        timestamp) s m m' := by
  simp only [submitEncryptedData, validateSymbolLen, requireDataTypeActive,
    validateKeyLen, bind_ok, requireAuth_ok, load_ok, ensure_ok,
    requireActiveOracle_ok] at h
  obtain ⟨_, _, ⟨-, rfl⟩, _, _, ⟨_, _, ⟨rfl, rfl⟩, -, rfl⟩, _, _, ⟨-, rfl⟩,
    _, _, ⟨-, rfl⟩, _, _, ⟨-, rfl⟩, _, _, ⟨-, rfl⟩, _, _, ⟨-, rfl⟩, _, _,
    ⟨-, rfl⟩, _, m₀, ⟨hactive, rfl⟩, _, _, hrate, _, m₁, ⟨rfl, rfl⟩, h⟩ := h
  have hquiet := enforceRateLimit_register hrate
  refine .trans (.of_eq hquiet) ?_
  rcases ite_ok.mp h with ⟨-, h⟩ | ⟨-, h⟩
  · refine handleStaleSubmission_penalized rfl ?_ h
    rw [hquiet]
    exact hactive
  · simp only [bind_ok, update_ok] at h
    obtain ⟨_, m₂, hstore, hreset⟩ := h
    refine .of_eq ((storeStaleCount_register hreset).trans ?_)
    rw [hstore]
    rfl

/-! ## Every call -/

theorem setter_register {admin : Address} {f : State → State}
    (h : (do requireAdmin env admin; update f : Call Unit) m =
      .ok (u, m')) (hf : ∀ t B, register ⟨f t, B⟩ = register ⟨t, B⟩) :
    register m' = register m := by
  simp only [bind_ok, requireAdmin_ok, update_ok] at h
  obtain ⟨-, _, ⟨-, rfl⟩, rfl⟩ := h
  exact hf _ _

theorem setting_register {admin : Address} {valid : Prop} [Decidable valid]
    {error : Error} {f : State → State}
    (h : setting env admin valid error f m = .ok (u, m'))
    (hf : ∀ t B, register ⟨f t, B⟩ = register ⟨t, B⟩) :
    register m' = register m := by
  simp only [setting, bind_ok, requireAdmin_ok, ensure_ok, update_ok] at h
  obtain ⟨-, _, ⟨-, rfl⟩, -, _, ⟨-, rfl⟩, rfl⟩ := h
  exact hf _ _

theorem Scored.register_eq {dataType : Symbol} (h : Scored dataType m m') :
    register m' = register m := by
  have hstore : m'.store = _ := h.store
  unfold register
  rw [hstore, h.bank]

/-- Every accepted call is a sequence of changes. -/
theorem exec_changes (h : exec env e m = .ok ((), m')) :
    Register.Changes env e m.store (register m) (register m') := by
  have hkept : register m' = register m →
      Register.Changes env e m.store (register m) (register m') :=
    fun heq => heq ▸ .refl
  cases e with
  | addOracle =>
      obtain ⟨hnew, hglobal, hroom, heq⟩ := addOracle_register h
      rw [heq]
      exact .single (.enlist rfl hnew hglobal hroom)
  | updateOracleWeight =>
      obtain ⟨entry, hentry, heq⟩ := updateOracleWeight_register h
      rw [heq]
      exact .single (.reweigh rfl hentry)
  | removeOracle =>
      obtain ⟨entry, hentry, heq⟩ := removeOracle_register h
      rw [heq]
      exact .single (.strikeOff ⟨rfl, rfl⟩ hentry)
  | deactivateInactiveOracles =>
      obtain ⟨removed, h⟩ := perform_ok.mp h
      exact (deactivateInactiveOracles_register h).1
  | setStakeToken =>
      simp [exec, setStakeToken] at h
      obtain ⟨-, rfl⟩ := h
      exact .single (.setToken rfl)
  | stake =>
      obtain ⟨hsigned, hpos, token, B, htoken, hB, heq⟩ := stake_register h
      rw [heq]
      exact .single (.stake rfl hsigned hpos htoken hB)
  | requestStakeWithdrawal =>
      obtain ⟨hinactive, hpos, hnone, heq⟩ :=
        requestStakeWithdrawal_register h
      rw [heq]
      exact .single (.request rfl hinactive hpos hnone)
  | cancelStakeWithdrawal => exact .single (cancelStakeWithdrawal_register h)
  | withdrawStake =>
      obtain ⟨req, token, B, hreq, hunlocked, hpos, htoken, hB, heq⟩ :=
        withdrawStake_register h
      rw [heq]
      exact .single (.withdraw rfl hreq hunlocked hpos htoken hB)
  | slashOracle =>
      obtain ⟨hpos, hstake, B, hpaid, hslashed⟩ := slashOracle_register h
      rcases hslashed with ⟨-, entry, hentry, -, heq⟩ | ⟨-, heq⟩
      · rw [heq]
        exact .head (.slash rfl hpos hstake hpaid)
          (.single (.unlist rfl hentry))
      · rw [heq]
        exact .single (.slash rfl hpos hstake hpaid)
  | submitData => exact (submitData_penalized h).changes
  | batchSubmitData => exact (batchSubmitData_penalized h).changes
  | submitDataBatch => exact (submitDataBatch_penalized h).changes
  | submitEncryptedData => exact (submitEncryptedData_penalized h).changes
  | initializeVerifier =>
      simp [exec, initializeVerifier] at h
      obtain ⟨-, -, rfl⟩ := h
      exact .refl
  | pauseDataType => exact hkept (setter_register h fun _ _ => rfl)
  | resumeDataType => exact hkept (setter_register h fun _ _ => rfl)
  | setOracleInactivityLimit =>
      exact hkept (setter_register h fun _ _ => rfl)
  | setMinConfidence => exact hkept (setting_register h fun _ _ => rfl)
  | setMaxDataAge => exact hkept (setter_register h fun _ _ => rfl)
  | setMaxTimestampAge => exact hkept (setter_register h fun _ _ => rfl)
  | setTimestampFutureBuffer =>
      exact hkept (setter_register h fun _ _ => rfl)
  | setDataTypeMaxAge => exact hkept (setter_register h fun _ _ => rfl)
  | setAggregationMethod => exact hkept (setter_register h fun _ _ => rfl)
  | setOutlierConfig => exact hkept (setting_register h fun _ _ => rfl)
  | setDataTypeRange => exact hkept (setting_register h fun _ _ => rfl)
  | setMinOracleCount => exact hkept (setting_register h fun _ _ => rfl)
  | setDataTypeMinOracleCount =>
      exact hkept (setter_register h fun _ _ => rfl)
  | setCrossValidationRule => exact hkept (setting_register h fun _ _ => rfl)
  | removeCrossValidationRule =>
      simp [exec, removeCrossValidationRule] at h
      obtain ⟨-, -, rfl⟩ := h
      exact .refl
  | setMinSubmitInterval => exact hkept (setting_register h fun _ _ => rfl)
  | setMinStake => exact hkept (setting_register h fun _ _ => rfl)
  | setSlashTreasury => exact hkept (setter_register h fun _ _ => rfl)
  | setOracleGeoWeight => exact hkept (setting_register h fun _ _ => rfl)
  | setChallengePeriod => exact hkept (setter_register h fun _ _ => rfl)
  | setStaleThreshold => exact hkept (setter_register h fun _ _ => rfl)
  | setStaleSlashAmount => exact hkept (setting_register h fun _ _ => rfl)
  | setStaleReputationPenalty =>
      exact hkept (setting_register h fun _ _ => rfl)
  | setReputation =>
      simp [exec, setReputation, storeReputation] at h
      obtain ⟨-, -, rfl⟩ := h
      exact .refl
  | setEncryptionRequired => exact hkept (setter_register h fun _ _ => rfl)
  | setGuardians => exact hkept (setting_register h fun _ _ => rfl)
  | proposeNewAdmin =>
      simp [exec, proposeNewAdmin] at h
      obtain ⟨-, -, h⟩ := h
      rcases ite_ok.mp h with ⟨-, h⟩ | ⟨-, h⟩
      · obtain rfl := update_ok.mp h
        exact .refl
      · obtain rfl := update_ok.mp h
        exact .refl
  | approveAdminChange =>
      simp [exec, approveAdminChange] at h
      obtain ⟨-, -, pending, -, -, -, h⟩ := h
      rcases ite_ok.mp h with ⟨-, h⟩ | ⟨-, h⟩
      · obtain rfl := update_ok.mp h
        exact .refl
      · obtain rfl := update_ok.mp h
        exact .refl
  | acceptAdmin =>
      simp [exec, acceptAdmin] at h
      obtain ⟨-, -, -, -, rfl⟩ := h
      exact .refl
  | invalidateData =>
      simp [exec, invalidateData] at h
      obtain ⟨-, rfl⟩ := h
      exact .refl
  | verifyTrigger =>
      obtain ⟨b, h⟩ := perform_ok.mp h
      obtain ⟨v, -, -, hscored⟩ := verifyTrigger_spec h
      exact hkept hscored.register_eq
  | verifyTriggerFresh =>
      obtain ⟨b, h⟩ := perform_ok.mp h
      obtain ⟨v, -, -, hscored⟩ := verifyTriggerFresh_spec h
      exact hkept hscored.register_eq
  | batchVerifyFresh queries =>
      obtain ⟨bs, h⟩ := perform_ok.mp h
      have hkeeps : Keeps (fun t => register t = register m)
          (batchVerifyFresh env queries) := by
        apply keeps_collect
        intro query _ t b t' ht hrun
        obtain ⟨v, -, -, hscored⟩ := verifyTriggerFresh_spec hrun
        exact hscored.register_eq.trans ht
      exact hkept (hkeeps m bs m' rfl h)

end Changes

end Parashield.OracleVerifier
