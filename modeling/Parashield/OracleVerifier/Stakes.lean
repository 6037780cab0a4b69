import Parashield.OracleVerifier.Roster
import Parashield.Support.Yield

/-!
# Oracle verifier: what stands behind the stakes

The verifier holds the stakes it has recorded, and a withdrawal request never
asks for more than the stake.  This takes that oracles with a pending request
are not registered: the penalty for stale submissions, which only an active
oracle can incur, leaves the request as it is.
-/

namespace Parashield.OracleVerifier

open Support Support.Contract Invocation

namespace Register

/-- The verifier holds the recorded stakes, and pending requests are
covered by the stakes of inactive oracles. -/
structure Backed (verifier : Address) (r : Register) : Prop where
  nonneg : ∀ k, 0 ≤ r.oracleStakeAmt k
  unset : r.stakeToken = none → ∀ k, r.oracleStakeAmt k = 0
  funded : ∀ token, r.stakeToken = some token →
    Support.Capped r.oracleStakeAmt (r.bank.balance token verifier)
  pending : ∀ t o req, r.stakeWithdrawalReq (t, o) = some req →
    0 < req.amount ∧ req.amount ≤ r.oracleStakeAmt (t, o) ∧ ¬ r.IsActive t o

section Backed

variable {env : Env} {e : Entry} {s : State} {r r' : Register}
  {verifier : Address} {dataType t : Symbol} {oracle o : Address} {B : Bank}

theorem Backed.bank (h : r.Backed verifier)
    (hB : ∀ token, r.bank.balance token verifier ≤ B.balance token verifier) :
    Backed verifier { r with bank := B } where
  nonneg := h.nonneg
  unset := h.unset
  funded token htoken :=
    (h.funded token htoken).mono (by exact_mod_cast hB token)
  pending := h.pending

/-- Fewer active oracles do no harm. -/
theorem Backed.of_active (h : r.Backed verifier)
    (htoken : r'.stakeToken = r.stakeToken)
    (hstake : r'.oracleStakeAmt = r.oracleStakeAmt)
    (hreq : r'.stakeWithdrawalReq = r.stakeWithdrawalReq)
    (hbank : r'.bank = r.bank)
    (hactive : ∀ t o, r'.IsActive t o → r.IsActive t o ∨
      r.stakeWithdrawalReq (t, o) = none) : r'.Backed verifier where
  nonneg := hstake ▸ h.nonneg
  unset := by
    rw [htoken, hstake]
    exact h.unset
  funded := by
    rw [htoken, hstake, hbank]
    exact h.funded
  pending t o req hr := by
    rw [hreq] at hr
    rw [hstake]
    obtain ⟨hpos, hle, hinactive⟩ := h.pending t o req hr
    refine ⟨hpos, hle, fun hnow => ?_⟩
    rcases hactive t o hnow with hbefore | hnone
    · exact hinactive hbefore
    · rw [hr] at hnone
      cases hnone

theorem Backed.setToken {token : Address} (h : r.Backed verifier)
    (hset : ∀ k, r.oracleStakeAmt k ≠ 0 → r.stakeToken = some token) :
    Backed verifier { r with stakeToken := some token } where
  nonneg := h.nonneg
  unset := nofun
  funded token' htoken' := by
    obtain rfl := Option.some.inj htoken'
    by_cases hzero : ∀ k, r.oracleStakeAmt k = 0
    · intro F
      rw [Finset.sum_eq_zero fun k _ => hzero k]
      exact Int.natCast_nonneg _
    · obtain ⟨k, hk⟩ := not_forall.mp hzero
      exact h.funded _ (hset k hk)
  pending := h.pending

theorem reduced_eq_some {slashed : ℤ} {req req' : StakeWithdrawalRequest}
    (h : reduced slashed req = some req') :
    0 < req'.amount ∧ req'.amount ≤ req.amount - slashed ∧
      req'.requestedAt = req.requestedAt ∧ req'.unlockAt = req.unlockAt := by
  unfold reduced at h
  split at h
  · cases h
  · next hpos =>
      obtain rfl := Option.some.inj h
      refine ⟨by simpa using hpos, ?_, rfl, rfl⟩
      simp only [satI128, minI128, maxI128] at hpos ⊢
      omega

/-- The balance falls by no more than what is slashed. -/
theorem Paid.balance {amount : ℤ} (h : Paid env r amount B)
    (hamount : 0 ≤ amount) {token : Address}
    (htoken : r.stakeToken = some token) :
    (r.bank.balance token env.self : ℤ) - amount ≤
      B.balance token env.self := by
  rcases h with rfl | ⟨token', treasury, htoken', hB⟩
  · omega
  · rw [htoken, Option.some.injEq] at htoken'
    subst htoken'
    by_cases hself : env.self = treasury
    · subst hself
      have hsame := Bank.transfer_balance_self hB token env.self
      omega
    · have hpaid := Bank.transfer_balance_sender hB hself
      omega

/-- A stake that changes with the balance. -/
theorem Backed.setStake {amount : ℤ} (h : r.Backed verifier)
    (hpos : 0 ≤ amount) (htoken : r.stakeToken ≠ none ∨ amount = 0)
    (hbalance : ∀ token, r.stakeToken = some token →
      (r.bank.balance token verifier : ℤ) +
          (amount - r.oracleStakeAmt (dataType, oracle)) ≤
        B.balance token verifier)
    (hreq : ∀ req, r.stakeWithdrawalReq (dataType, oracle) = some req →
      req.amount ≤ amount) :
    (r.setStake dataType oracle amount B).Backed verifier where
  nonneg k := by
    by_cases hk : k = (dataType, oracle)
    · simpa [Register.setStake, hk] using hpos
    · simpa [Register.setStake, Function.update_of_ne hk] using h.nonneg k
  unset hnone k := by
    by_cases hk : k = (dataType, oracle)
    · rcases htoken with hsome | hzero
      · exact (hsome hnone).elim
      · simpa [Register.setStake, hk] using hzero
    · simpa [Register.setStake, Function.update_of_ne hk] using
        h.unset hnone k
  funded token htoken' :=
    ((h.funded token htoken').update _ hpos).mono (hbalance token htoken')
  pending t o req hr := by
    obtain ⟨hamount, hle, hinactive⟩ := h.pending t o req hr
    refine ⟨hamount, ?_, hinactive⟩
    by_cases hk : (t, o) = (dataType, oracle)
    · rw [hk] at hr
      simpa [Register.setStake, hk] using hreq req hr
    · simpa [Register.setStake, Function.update_of_ne hk] using hle

theorem Backed.setRequest {req : Option StakeWithdrawalRequest}
    (h : r.Backed verifier)
    (hreq : ∀ q, req = some q → 0 < q.amount ∧
      q.amount ≤ r.oracleStakeAmt (dataType, oracle) ∧
      ¬ r.IsActive dataType oracle) :
    (r.setRequest dataType oracle req).Backed verifier where
  nonneg := h.nonneg
  unset := h.unset
  funded := h.funded
  pending t o q hq := by
    by_cases hk : (t, o) = (dataType, oracle)
    · obtain ⟨rfl, rfl⟩ := Prod.mk.inj hk
      simp only [Register.setRequest, Function.update_self] at hq
      exact hreq q hq
    · simp only [Register.setRequest, Function.update_of_ne hk] at hq
      exact h.pending t o q hq

/-! ## Every change -/

theorem Change.backed (hchange : Change env e s r r')
    (hself : env.self ∉ env.signers) (h : r.Backed env.self)
    (hadd : ∀ admin o t weight, e = .addOracle admin o t weight →
      r.stakeWithdrawalReq (t, o) = none)
    (htoken : ∀ admin token, e = .setStakeToken admin token →
      ∀ k, r.oracleStakeAmt k ≠ 0 → r.stakeToken = some token) :
    r'.Backed env.self := by
  cases hchange with
  | enlist he =>
      refine h.of_active rfl rfl rfl rfl fun t o hactive => ?_
      rcases isActive_enlisted.mp hactive with heq | hbefore
      · refine .inr ?_
        rw [heq]
        exact hadd _ _ _ _ he
      · exact .inl hbefore
  | reweigh _ hentry =>
      refine h.of_active rfl rfl rfl rfl fun t o hactive => ?_
      exact .inl ((isActive_reweighed hentry).mp hactive)
  | strikeOff =>
      refine h.of_active rfl rfl rfl rfl fun t o hactive => ?_
      exact .inl (isActive_unlisted.mp hactive).1
  | unlist =>
      refine h.of_active rfl rfl rfl rfl fun t o hactive => ?_
      exact .inl (isActive_unlisted.mp hactive).1
  | setToken he => exact h.setToken (htoken _ _ he)
  | @stake oracle token dataType amount B _ hsigned hpos htok hB =>
      have hnonneg := h.nonneg (dataType, oracle)
      refine h.setStake (by omega) (.inl (by simp [htok])) ?_ ?_
      · intro token' htok'
        rw [htok, Option.some.injEq] at htok'
        subst htok'
        have hne : oracle ≠ env.self := fun heq => hself (heq ▸ hsigned)
        have hgain := Bank.transfer_balance_recipient hB hne
        omega
      · intro req hreq
        have hle := (h.pending _ _ _ hreq).2.1
        omega
  | request _ hinactive hpos =>
      refine h.setRequest fun q hq => ?_
      obtain rfl := Option.some.inj hq
      exact ⟨hpos, le_refl _, hinactive⟩
  | cancel => exact h.setRequest nofun
  | @withdraw oracle token dataType req B _ hreq _ hpos htok hB =>
      have hamount := (h.pending _ _ _ hreq).1
      have hcleared : (r.setRequest dataType oracle none).Backed env.self :=
        h.setRequest nofun
      show ((r.setRequest dataType oracle none).setStake dataType oracle
        (r.oracleStakeAmt (dataType, oracle) -
          min (r.oracleStakeAmt (dataType, oracle)) req.amount) B).Backed
        env.self
      refine hcleared.setStake (by omega) (.inl ?_) ?_ ?_
      · simp [setRequest, htok]
      · intro token' htok'
        have htok'' : r.stakeToken = some token' := htok'
        rw [htok'', Option.some.injEq] at htok
        subst htok
        have hfall := Paid.balance (.inr ⟨token', oracle, htok'', hB⟩)
          (by omega) htok''
        show (r.bank.balance token' env.self : ℤ) + (_ -
          r.oracleStakeAmt (dataType, oracle)) ≤ _
        omega
      · intro q hq
        simp [setRequest] at hq
  | @slash admin oracle dataType amount B _ hpos hstake hpaid =>
      have hreduced : (r.setRequest dataType oracle
          ((r.stakeWithdrawalReq (dataType, oracle)).bind
            (reduced (min amount (r.oracleStakeAmt (dataType, oracle)))))
          ).Backed env.self := by
        refine h.setRequest fun q hq => ?_
        obtain ⟨req, hreq, hq⟩ := Option.bind_eq_some_iff.mp hq
        obtain ⟨hqpos, hqle, -⟩ := reduced_eq_some hq
        obtain ⟨-, hle, hinactive⟩ := h.pending _ _ _ hreq
        exact ⟨hqpos, by omega, hinactive⟩
      show ((r.setRequest dataType oracle _).setStake dataType oracle
        (r.oracleStakeAmt (dataType, oracle) -
          min amount (r.oracleStakeAmt (dataType, oracle))) B).Backed env.self
      refine hreduced.setStake (by omega) (.inl fun hnone => ?_) ?_ ?_
      · have hzero := h.unset hnone (dataType, oracle)
        omega
      · intro token htok
        have hfall := hpaid.balance (by omega) htok
        show (r.bank.balance token env.self : ℤ) + (_ -
          r.oracleStakeAmt (dataType, oracle)) ≤ _
        omega
      · intro q hq
        have hq' : (r.stakeWithdrawalReq (dataType, oracle)).bind
            (reduced (min amount (r.oracleStakeAmt (dataType, oracle)))) =
              some q := by
          simpa [setRequest] using hq
        obtain ⟨req, hreq, hq'⟩ := Option.bind_eq_some_iff.mp hq'
        obtain ⟨-, hqle, -⟩ := reduced_eq_some hq'
        have hle := (h.pending _ _ _ hreq).2.1
        omega
  | @stale dataType oracle amount B _ hactive hpos hle hpaid =>
      refine h.setStake (by omega) ?_ ?_ ?_
      · refine .inl fun hnone => ?_
        have hzero := h.unset hnone (dataType, oracle)
        omega
      · intro token htok
        have hfall := hpaid.balance hpos.le htok
        omega
      · intro req hreq
        exact ((h.pending _ _ _ hreq).2.2 hactive).elim

theorem Changes.backed (hchanges : Changes env e s r r')
    (hself : env.self ∉ env.signers) (h : r.Backed env.self)
    (hadd : ∀ admin o t weight, e ≠ .addOracle admin o t weight)
    (htoken : ∀ admin token, e ≠ .setStakeToken admin token) :
    r'.Backed env.self := by
  induction hchanges with
  | refl => exact h
  | tail _ hchange ih =>
      exact hchange.backed hself ih
        (fun admin o t weight he => (hadd admin o t weight he).elim)
        (fun admin token he => (htoken admin token he).elim)

end Backed

end Register

/-! ## Where stake comes from and goes to -/

/-- Whose stake the call may take as a penalty. -/
def Entry.slashesFor : Entry → Option (Symbol × Address)
  | .slashOracle _ oracle dataType _ => some (dataType, oracle)
  | e => e.submitsFor

/-- Whose stake the call may change. -/
def Entry.restakesFor : Entry → Option (Symbol × Address)
  | .stake oracle dataType _ => some (dataType, oracle)
  | .withdrawStake oracle dataType => some (dataType, oracle)
  | e => e.slashesFor

/-- What the call stakes for `k`. -/
def Entry.staked (k : Symbol × Address) : Entry → ℤ
  | .stake oracle dataType amount =>
      if (dataType, oracle) = k then amount else 0
  | _ => 0

/-- What a withdrawal by `k` pays. -/
def State.payout (s : State) (k : Symbol × Address) : ℤ :=
  match s.stakeWithdrawalReq k with
  | some req => min (s.oracleStakeAmt k) req.amount
  | none => 0

/-- What the call withdraws for `k`. -/
def Entry.withdrawn (s : State) (k : Symbol × Address) : Entry → ℤ
  | .withdrawStake oracle dataType =>
      if (dataType, oracle) = k then s.payout k else 0
  | _ => 0

/-- What the call takes from the stake of `k` as a penalty. -/
def Entry.slashed (s s' : State) (k : Symbol × Address) (e : Entry) : ℤ :=
  if e.slashesFor = some k then s.oracleStakeAmt k - s'.oracleStakeAmt k
  else 0

section Flow

variable {env : Env} {e : Entry} {s : State} {r r' : Register}
  {m m' : Machine State} {k : Symbol × Address} {t : Symbol} {o : Address}

theorem restakesFor_of_submitsFor (h : e.submitsFor = some k) :
    e.restakesFor = some k := by
  cases e with
  | submitData => exact h
  | batchSubmitData => exact h
  | submitDataBatch => exact h
  | submitEncryptedData => exact h
  | _ => cases h

theorem Register.Change.stake_eq (hchange : Register.Change env e s r r')
    (hk : e.restakesFor ≠ some k) :
    r'.oracleStakeAmt k = r.oracleStakeAmt k := by
  have hne : ∀ i, e.restakesFor = some i → k ≠ i := by
    rintro i hi rfl
    exact hk hi
  cases hchange with
  | stake he => exact Function.update_of_ne (hne _ (by rw [he]; rfl)) ..
  | withdraw he => exact Function.update_of_ne (hne _ (by rw [he]; rfl)) ..
  | slash he => exact Function.update_of_ne (hne _ (by rw [he]; rfl)) ..
  | stale he =>
      exact Function.update_of_ne (hne _ (restakesFor_of_submitsFor he)) ..
  | _ => rfl

theorem Register.Changes.stake_eq
    (hchanges : Register.Changes env e s r r')
    (hk : e.restakesFor ≠ some k) :
    r'.oracleStakeAmt k = r.oracleStakeAmt k := by
  induction hchanges with
  | refl => rfl
  | tail _ hchange ih => exact (hchange.stake_eq hk).trans ih

/-- Every call accounts for what it does to a stake. -/
theorem exec_stake (h : exec env e m = .ok ((), m')) (k : Symbol × Address) :
    m'.store.oracleStakeAmt k =
      m.store.oracleStakeAmt k + e.staked k - e.withdrawn m.store k -
        e.slashed m.store m'.store k := by
  have hother : e.restakesFor ≠ some k →
      m'.store.oracleStakeAmt k = m.store.oracleStakeAmt k :=
    (exec_changes h).stake_eq
  have hpenalty : e.staked k = 0 → e.withdrawn m.store k = 0 →
      (e.slashesFor ≠ some k →
        m'.store.oracleStakeAmt k = m.store.oracleStakeAmt k) →
      m'.store.oracleStakeAmt k = m.store.oracleStakeAmt k + e.staked k -
        e.withdrawn m.store k - e.slashed m.store m'.store k := by
    intro hstaked hwithdrawn hsame
    rw [hstaked, hwithdrawn, Entry.slashed]
    split
    · omega
    · next hne =>
        rw [hsame hne]
        omega
  cases e with
  | stake oracle dataType amount =>
      obtain ⟨-, -, token, B, -, -, heq⟩ := stake_register h
      have hstake := congrArg (fun r => r.oracleStakeAmt k) heq
      simp only [register, Register.setStake] at hstake
      rw [hstake]
      by_cases hk : k = (dataType, oracle)
      · simp [hk, Entry.staked, Entry.withdrawn, Entry.slashed,
          Entry.slashesFor, Entry.submitsFor]
      · simp [hk, Ne.symm hk, Entry.staked, Entry.withdrawn, Entry.slashed,
          Entry.slashesFor, Entry.submitsFor]
  | withdrawStake oracle dataType =>
      obtain ⟨req, token, B, hreq, -, -, -, -, heq⟩ :=
        withdrawStake_register h
      have hstake := congrArg (fun r => r.oracleStakeAmt k) heq
      simp only [register, Register.setStake, Register.setRequest] at hstake
      rw [hstake]
      by_cases hk : k = (dataType, oracle)
      · simp [hk, hreq, State.payout, Entry.staked, Entry.withdrawn,
          Entry.slashed, Entry.slashesFor, Entry.submitsFor]
      · simp [hk, Ne.symm hk, Entry.staked, Entry.withdrawn, Entry.slashed,
          Entry.slashesFor, Entry.submitsFor]
  | _ => exact hpenalty rfl rfl hother

/-! ## Where a request comes from -/

/-- A request made at `since` that unlocks at `unlock` is pending for at least
`amount`. -/
def Register.Awaits (r : Register) (t : Symbol) (o : Address)
    (since unlock : ℕ) (amount : ℤ) : Prop :=
  ∃ req, r.stakeWithdrawalReq (t, o) = some req ∧
    req.requestedAt = since ∧ req.unlockAt = unlock ∧ amount ≤ req.amount

/-- Only a request brings a request about, and penalties only reduce it. -/
theorem Register.Change.awaits_before {since unlock : ℕ} {amount : ℤ}
    (hchange : Register.Change env e s r r')
    (he : e ≠ .requestStakeWithdrawal o t)
    (h : r'.Awaits t o since unlock amount) :
    r.Awaits t o since unlock amount := by
  obtain ⟨req', hreq', hsince, hunlock, hamount⟩ := h
  have hset : ∀ {i : Symbol × Address} {x : Option StakeWithdrawalRequest},
      (i = (t, o) → x = some req' → r.Awaits t o since unlock amount) →
      Function.update r.stakeWithdrawalReq i x (t, o) = some req' →
      r.Awaits t o since unlock amount := by
    intro i x hx hsome
    by_cases hi : (t, o) = i
    · rw [hi, Function.update_self] at hsome
      exact hx hi.symm hsome
    · rw [Function.update_of_ne hi] at hsome
      exact ⟨req', hsome, hsince, hunlock, hamount⟩
  cases hchange with
  | request hrequest =>
      refine hset (fun hi _ => ?_) hreq'
      obtain ⟨rfl, rfl⟩ := Prod.mk.inj hi
      exact (he hrequest).elim
  | cancel => exact hset (fun _ hnone => by cases hnone) hreq'
  | withdraw => exact hset (fun _ hnone => by cases hnone) hreq'
  | slash _ hpos hstake =>
      refine hset (fun hi hsome => ?_) hreq'
      obtain ⟨rfl, rfl⟩ := Prod.mk.inj hi
      obtain ⟨req, hreq, hreduced⟩ := Option.bind_eq_some_iff.mp hsome
      obtain ⟨-, hle, hat, huntil⟩ := Register.reduced_eq_some hreduced
      exact ⟨req, hreq, hat.symm.trans hsince, huntil.symm.trans hunlock,
        by omega⟩
  | _ => exact ⟨req', hreq', hsince, hunlock, hamount⟩

theorem Register.Changes.awaits_before {since unlock : ℕ} {amount : ℤ}
    (hchanges : Register.Changes env e s r r')
    (he : e ≠ .requestStakeWithdrawal o t)
    (h : r'.Awaits t o since unlock amount) :
    r.Awaits t o since unlock amount := by
  induction hchanges with
  | refl => exact h
  | tail _ hchange ih => exact ih (hchange.awaits_before he h)

end Flow

/-! ## Runs -/

/-- The token changes only while nothing is staked, no oracle is registered
that has asked for its stake, and challenge periods end before time does. -/
def StakesSafely (w : World State) : Label Entry → Prop
  | .call _ (.setStakeToken _ token) =>
      ∀ old k, w.machine.store.stakeToken = some old →
        w.machine.store.oracleStakeAmt k ≠ 0 → token = old
  | .call _ (.addOracle _ oracle dataType _) =>
      w.machine.store.stakeWithdrawalReq (dataType, oracle) = none
  | .call _ (.requestStakeWithdrawal _ _) =>
      w.now + w.machine.store.challengePeriod ≤ maxU64
  | _ => True

/-- What has been staked, withdrawn and slashed so far. -/
structure Tally where
  staked : Symbol × Address → ℤ
  withdrawn : Symbol × Address → ℤ
  slashed : Symbol × Address → ℤ

def Tally.zero : Tally where
  staked _ := 0
  withdrawn _ := 0
  slashed _ := 0

/-- The tally after a step. -/
def Tally.advance (T : Tally) (w : World State) (l : Label Entry)
    (w' : World State) : Tally :=
  match l with
  | .call _ e =>
      { staked := fun k => T.staked k + e.staked k
        withdrawn := fun k => T.withdrawn k + e.withdrawn w.machine.store k
        slashed := fun k =>
          T.slashed k + e.slashed w.machine.store w'.machine.store k }
  | _ => T

/-- Runs of the verifier with a tally. -/
def tallied (self : Address) :
    TransitionSystem (World State × Tally) (Label Entry) where
  Init x := (system self).Init x.1 ∧ x.2 = .zero
  Step x l x' := (system self).Step x.1 l x'.1 ∧ x'.2 = x.2.advance x.1 l x'.1

/-- The tally only watches: it is kept along every run of the verifier. -/
theorem exists_tallied {self : Address} {w : World State}
    (hw : (system self).Reachable w) :
    ∃ T, (tallied self).Reachable (w, T) := by
  induction hw with
  | init h => exact ⟨.zero, .init ⟨h, rfl⟩⟩
  | @step w w' l _ hstep ih =>
      obtain ⟨T, hT⟩ := ih
      exact ⟨T.advance w l w', .step hT ⟨hstep, rfl⟩⟩

/-- The stake of an oracle is what it staked less what it withdrew and what
was slashed. -/
theorem tallied_inductive (self : Address) :
    (tallied self).Inductive fun x => ∀ k,
      x.1.machine.store.oracleStakeAmt k =
        x.2.staked k - x.2.withdrawn k - x.2.slashed k where
  init x hinit k := by
    obtain ⟨w, T⟩ := x
    obtain ⟨hinit, rfl⟩ := hinit
    have hstore : w.machine.store = State.deployed := hinit.1
    simp [hstore, State.deployed, Tally.zero]
  step x l x' h hstep k := by
    obtain ⟨w, T⟩ := x
    obtain ⟨w', T'⟩ := x'
    obtain ⟨hstep, hadvance⟩ := hstep
    change T' = T.advance w l w' at hadvance
    subst hadvance
    have hk : w.machine.store.oracleStakeAmt k =
        T.staked k - T.withdrawn k - T.slashed k := h k
    change (system self).Step w l w' at hstep
    show w'.machine.store.oracleStakeAmt k = _
    cases hstep with
    | call _ hexec =>
        have hflow := exec_stake hexec k
        simp only [Tally.advance]
        omega
    | tick => exact hk
    | transfer => exact hk
    | mint => exact hk

section Runs

variable {self : Address} {w w' : World State} {l : Label Entry}
  {t : Symbol} {o : Address}

theorem exec_backed {env : Env} {e : Entry} {m m' : Machine State}
    (h : exec env e m = .ok ((), m')) (hself : env.self ∉ env.signers)
    (hadd : ∀ admin o t weight, e = .addOracle admin o t weight →
      m.store.stakeWithdrawalReq (t, o) = none)
    (htoken : ∀ admin token, e = .setStakeToken admin token → ∀ old k,
      m.store.stakeToken = some old → m.store.oracleStakeAmt k ≠ 0 →
      token = old)
    (hm : (register m).Backed env.self) : (register m').Backed env.self := by
  by_cases henlist : ∃ admin o t weight, e = .addOracle admin o t weight
  · obtain ⟨admin, o, t, weight, rfl⟩ := henlist
    obtain ⟨hnew, hglobal, hroom, heq⟩ := addOracle_register h
    rw [heq]
    exact (Register.Change.enlist (s := m.store) rfl hnew hglobal hroom).backed
      hself hm hadd nofun
  by_cases hset : ∃ admin token, e = .setStakeToken admin token
  · obtain ⟨admin, token, rfl⟩ := hset
    simp [exec, setStakeToken] at h
    obtain ⟨-, rfl⟩ := h
    refine hm.setToken fun k hk => ?_
    cases hold : m.store.stakeToken with
    | none => exact (hk (hm.unset hold k)).elim
    | some old =>
        rw [htoken _ _ rfl old k hold hk]
        exact hold
  refine (exec_changes h).backed hself hm ?_ ?_
  · exact fun admin o t weight he => henlist ⟨admin, o, t, weight, he⟩
  · exact fun admin token he => hset ⟨admin, token, he⟩

theorem step_backed (hsafe : StakesSafely w l) (hstep : Step exec self w l w')
    (h : (register w.machine).Backed self) :
    (register w'.machine).Backed self := by
  cases hstep with
  | call hself hexec =>
      refine exec_backed hexec hself ?_ ?_ h
      · rintro admin o t weight rfl
        exact hsafe
      · rintro admin token rfl
        exact hsafe
  | tick => exact h
  | transfer hsender hB =>
      exact h.bank fun token =>
        Bank.balance_le_transfer hB (Ne.symm hsender) token
  | mint => exact h.bank fun token => Bank.balance_le_mint _ _ _ _ _ _

theorem backed_inductive (self : Address) :
    ((system self).restrict StakesSafely).Inductive fun w =>
      (register w.machine).Backed self where
  init w hw := by
    have hstore : w.machine.store = State.deployed := hw.1
    exact
      { nonneg := by simp [register, hstore, State.deployed]
        unset := by simp [register, hstore, State.deployed]
        funded := by simp [register, hstore, State.deployed]
        pending := by simp [register, hstore, State.deployed] }
  step _ _ _ h hstep := step_backed hstep.1 hstep.2 h

/-- A request made at `since` has been pending for at least `amount`, which is
at stake, by an inactive oracle. -/
def Exposed (t : Symbol) (o : Address) (since : ℕ) (amount : ℤ)
    (w : World State) : Prop :=
  ∃ req, w.machine.store.stakeWithdrawalReq (t, o) = some req ∧
    req.requestedAt = since ∧ amount ≤ req.amount ∧
    req.amount ≤ w.machine.store.oracleStakeAmt (t, o) ∧
    ¬ (register w.machine).IsActive t o

/-- Backed requests are exposed as long as they are pending. -/
theorem Register.Awaits.exposed {since unlock : ℕ} {amount : ℤ}
    (h : (register w.machine).Awaits t o since unlock amount)
    (hw : (register w.machine).Backed self) : Exposed t o since amount w := by
  obtain ⟨req, hreq, hsince, -, hamount⟩ := h
  obtain ⟨-, hle, hinactive⟩ := hw.pending t o req hreq
  exact ⟨req, hreq, hsince, hamount, hle, hinactive⟩

/-- The step that brings a pending request about is that request. -/
theorem step_requested {since unlock : ℕ} {amount : ℤ}
    (hstep : Step exec self w l w')
    (h : ¬ (register w.machine).Awaits t o since unlock amount)
    (h' : (register w'.machine).Awaits t o since unlock amount) :
    ∃ signers, l = .call signers (.requestStakeWithdrawal o t) ∧
      since = w.now ∧ unlock = satAddU64 w.now w.machine.store.challengePeriod
    := by
  cases hstep with
  | @call signers e m' _ hexec =>
      by_cases he : e = .requestStakeWithdrawal o t
      · subst he
        obtain ⟨-, -, -, heq⟩ := requestStakeWithdrawal_register hexec
        obtain ⟨req, hreq, hsince, hunlock, -⟩ := h'
        have hreq' : (register m').stakeWithdrawalReq (t, o) = some req := hreq
        rw [heq] at hreq'
        simp only [Register.setRequest, Function.update_self,
          Option.some.injEq] at hreq'
        subst hreq'
        exact ⟨signers, rfl, hsince.symm, hunlock.symm⟩
      · exact (h ((exec_changes hexec).awaits_before he h')).elim
  | tick => exact (h h').elim
  | transfer => exact (h h').elim
  | mint => exact (h h').elim

/-- The withdrawal was requested a challenge period ago, and what it pays has
been exposed to slashing since, with the oracle inactive. -/
def Seasoned (self : Address) (w₀ : World State) (ls : List (Label Entry))
    (w : World State) (t : Symbol) (o : Address) (amount : ℤ) : Prop :=
  ∃ before signers after u v,
    ls = before ++ .call signers (.requestStakeWithdrawal o t) :: after ∧
      (system self).Run w₀ before u ∧
      (system self).Step u (.call signers (.requestStakeWithdrawal o t)) v ∧
      u.now + u.machine.store.challengePeriod ≤ w.now ∧
      ((system self).restrict fun x _ => Exposed t o u.now amount x).Run v
        after w ∧
      Exposed t o u.now amount w

theorem seasoned_of_pending {w₀ : World State} {ls : List (Label Entry)}
    {req : StakeWithdrawalRequest} {amount : ℤ}
    (hinit : (system self).Init w₀)
    (hrun : ((system self).restrict StakesSafely).Run w₀ ls w)
    (hreq : w.machine.store.stakeWithdrawalReq (t, o) = some req)
    (hunlocked : req.unlockAt ≤ w.now) (hamount : amount ≤ req.amount) :
    Seasoned self w₀ ls w t o amount := by
  have hawaits : (register w.machine).Awaits t o req.requestedAt req.unlockAt
      amount :=
    ⟨req, hreq, rfl, rfl, hamount⟩
  have hnone : ¬ (register w₀.machine).Awaits t o req.requestedAt
      req.unlockAt amount := by
    have hstore : w₀.machine.store = State.deployed := hinit.1
    simp [Register.Awaits, register, hstore, State.deployed]
  obtain ⟨before, l, after, u, v, rfl, hbefore, hstep, hnot, hthen, hafter⟩ :=
    hrun.onset (P := fun x => (register x.machine).Awaits t o
      req.requestedAt req.unlockAt amount) hnone hawaits
  obtain ⟨signers, rfl, hsince, hunlock⟩ :=
    step_requested hstep.2 hnot hthen
  have hw₀ : ((system self).restrict StakesSafely).Reachable w₀ := .init hinit
  have hv := ((hw₀.run hbefore).step hstep).invariant (backed_inductive self)
  have hw := (hw₀.run hrun).invariant (backed_inductive self)
  have hfits : u.now + u.machine.store.challengePeriod ≤ maxU64 := hstep.1
  refine ⟨before, signers, after, u, v, rfl, hbefore.of_restrict, hstep.2,
    ?_, ?_, hsince ▸ hawaits.exposed hw⟩
  · rw [hunlock, satAddU64, Nat.min_eq_left hfits] at hunlocked
    exact hunlocked
  · refine hafter.mono_invariant
      (I := fun x => (register x.machine).Backed self) ?_ hv
    rintro x l y hx ⟨hpending, hstep⟩
    refine ⟨(backed_inductive self).step x l y hx hstep, ?_, hstep.2⟩
    exact hsince ▸ hpending.exposed hx

end Runs

/-- In a run that is safe for stakes, the verifier holds all recorded stakes,
no more is withdrawn and slashed than was staked, requests are for a positive
part of the stake, and each withdrawal pays what was requested a challenge
period ago and exposed to slashing since. -/
theorem stake_accounting {self : Address} {w₀ w : World State}
    {ls : List (Label Entry)} (hinit : (system self).Init w₀)
    (hrun : ((system self).restrict StakesSafely).Run w₀ ls w) :
    (∀ token, w.machine.store.stakeToken = some token →
      ∀ F : Finset (Symbol × Address),
        ∑ k ∈ F, w.machine.store.oracleStakeAmt k ≤
          w.machine.bank.balance token self) ∧
    (∀ T, (tallied self).Reachable (w, T) → ∀ k,
      T.withdrawn k + T.slashed k ≤ T.staked k) ∧
    (∀ t o req, w.machine.store.stakeWithdrawalReq (t, o) = some req →
      0 < req.amount ∧
        req.amount ≤ w.machine.store.oracleStakeAmt (t, o)) ∧
    ∀ signers t o w',
      (system self).Step w (.call signers (.withdrawStake o t)) w' →
      ∃ token amount, 0 < amount ∧
        w.machine.store.stakeToken = some token ∧
        w.machine.bank.transfer token self o amount = some w'.machine.bank ∧
        w'.machine.store.oracleStakeAmt (t, o) =
          w.machine.store.oracleStakeAmt (t, o) - amount ∧
        Seasoned self w₀ ls w t o amount := by
  have hw₀ : ((system self).restrict StakesSafely).Reachable w₀ := .init hinit
  have hbacked := (hw₀.run hrun).invariant (backed_inductive self)
  refine ⟨fun token htoken => hbacked.funded token htoken, ?_, ?_, ?_⟩
  · intro T hT k
    have hflow := hT.invariant (tallied_inductive self) k
    have hnonneg := hbacked.nonneg k
    change w.machine.store.oracleStakeAmt k =
      T.staked k - T.withdrawn k - T.slashed k at hflow
    change 0 ≤ w.machine.store.oracleStakeAmt k at hnonneg
    omega
  · intro t o req hreq
    obtain ⟨hpos, hle, -⟩ := hbacked.pending t o req hreq
    exact ⟨hpos, hle⟩
  · intro signers t o w' hstep
    obtain ⟨-, hexec⟩ := hstep.exec_eq
    obtain ⟨req, token, B, hreq, hunlocked, hpos, htoken, hB, heq⟩ :=
      withdrawStake_register hexec
    obtain ⟨hamount, hle, -⟩ := hbacked.pending t o req hreq
    have hbank : w'.machine.bank = B := congrArg Register.bank heq
    have hstake : w'.machine.store.oracleStakeAmt (t, o) = _ :=
      congrArg (fun r => r.oracleStakeAmt (t, o)) heq
    refine ⟨token, min (w.machine.store.oracleStakeAmt (t, o)) req.amount,
      by omega, htoken, hbank ▸ hB, ?_, ?_⟩
    · rw [hstake]
      simp [Register.setRequest, Register.setStake]
    · exact seasoned_of_pending hinit hrun hreq hunlocked (min_le_right _ _)

/-! ## A withdrawal, and one that came too early -/

namespace Scenario

def openRun : List (Label Entry) :=
  [.mint stakeCoin oracleA 100,
    .call [admin] (.initializeVerifier admin)]

def opened : World State :=
  (TransitionSystem.execute (step exec verifier) openRun genesis).get
    (by decide +kernel)

def tokenChoice : Label Entry :=
  .call [admin] (.setStakeToken admin stakeCoin)

def tokenChosen : World State :=
  (step exec verifier opened tokenChoice).get (by decide +kernel)

def deposit : Label Entry :=
  .call [oracleA] (.stake oracleA Symbols.weather 10)

def deposited : World State :=
  (step exec verifier tokenChosen deposit).get (by decide +kernel)

def asking : Label Entry :=
  .call [oracleA] (.requestStakeWithdrawal oracleA Symbols.weather)

def askedBack : World State :=
  (step exec verifier deposited asking).get (by decide +kernel)

def weekLater : Label Entry := .tick 604800

def matured : World State :=
  (step exec verifier askedBack weekLater).get (by decide +kernel)

def takingBack : Label Entry :=
  .call [oracleA] (.withdrawStake oracleA Symbols.weather)

def takenBack : World State :=
  (step exec verifier matured takingBack).get (by decide +kernel)

def stakeRun : List (Label Entry) :=
  openRun ++ [tokenChoice, deposit, asking, weekLater]

/-- The oracle stakes, asks for the stake and waits. -/
theorem matured_run :
    ((system verifier).restrict StakesSafely).Run genesis stakeRun matured := by
  have hopen : (system verifier).Run genesis openRun opened :=
    TransitionSystem.run_of_execute (fun _ _ _ => step_sound)
      (Option.some_get _).symm
  refine .append (hopen.restrict ?_) (.cons (t := tokenChosen) ⟨?_, ?_⟩
    (.cons (t := deposited) ⟨trivial, ?_⟩ (.cons (t := askedBack) ⟨?_, ?_⟩
      (.cons (t := matured) ⟨trivial, ?_⟩ (.nil _)))))
  · simp [openRun, StakesSafely]
  · intro old k hold
    have hunset : opened.machine.store.stakeToken = none := by decide +kernel
    rw [hunset] at hold
    cases hold
  · exact step_sound (Option.some_get _).symm
  · exact step_sound (Option.some_get _).symm
  · show deposited.now + deposited.machine.store.challengePeriod ≤ maxU64
    decide +kernel
  · exact step_sound (Option.some_get _).symm
  · exact step_sound (Option.some_get _).symm

/-- Oracle A asks for its stake, is registered, and reports stale data. -/
def undercutRun : List (Label Entry) :=
  [.call [admin] (.addOracle admin oracleA Symbols.weather 100),
    .call [admin] (.setStaleThreshold admin 1),
    .call [admin] (.setStaleSlashAmount admin 6),
    .call [admin] (.setMaxDataAge admin 10),
    .call [oracleA] (.submitData oracleA Symbols.weather rain 10 90 999000)]

def undercut : World State :=
  (TransitionSystem.execute (step exec verifier) undercutRun askedBack).get
    (by decide +kernel)

/-- It waits, is removed and stakes again. -/
def toppedUpRun : List (Label Entry) :=
  [weekLater, dismissal, deposit]

def toppedUp : World State :=
  (TransitionSystem.execute (step exec verifier) toppedUpRun undercut).get
    (by decide +kernel)

def taken : World State :=
  (step exec verifier toppedUp takingBack).get (by decide +kernel)

end Scenario

open Scenario

/-- All of the stake can be taken back after the challenge period. -/
theorem stake_accounting_matured :
    ∃ token amount, 0 < amount ∧
      matured.machine.store.stakeToken = some token ∧
      matured.machine.bank.transfer token verifier oracleA amount =
        some takenBack.machine.bank ∧
      takenBack.machine.store.oracleStakeAmt (Symbols.weather, oracleA) =
        matured.machine.store.oracleStakeAmt (Symbols.weather, oracleA) -
          amount ∧
      Seasoned verifier genesis stakeRun matured Symbols.weather oracleA
        amount :=
  (stake_accounting ⟨rfl, rfl⟩ matured_run).2.2.2 [oracleA] Symbols.weather
    oracleA takenBack (step_sound (Option.some_get _).symm)

/-- An active oracle can have a pending request, which exceeds its stake after
a stale submission; once removed, it takes out what it staked just before. -/
theorem stake_taken_unseasoned :
    ((system verifier).Reachable undercut ∧
      ((undercut.machine.store.oracles (Symbols.weather, oracleA)).map
        OracleEntry.active) = some true ∧
      ((undercut.machine.store.stakeWithdrawalReq
        (Symbols.weather, oracleA)).map StakeWithdrawalRequest.amount) =
          some 10 ∧
      undercut.machine.store.oracleStakeAmt (Symbols.weather, oracleA) = 4) ∧
    ((system verifier).Run undercut toppedUpRun toppedUp ∧
      (system verifier).Step toppedUp takingBack taken ∧
      toppedUp.machine.store.oracleStakeAmt (Symbols.weather, oracleA) = 14 ∧
      taken.machine.store.oracleStakeAmt (Symbols.weather, oracleA) = 4) := by
  have hopen : (system verifier).Run genesis openRun opened :=
    TransitionSystem.run_of_execute (fun _ _ _ => step_sound)
      (Option.some_get _).symm
  have hopened : (system verifier).Reachable opened :=
    TransitionSystem.Reachable.run (.init ⟨rfl, rfl⟩) hopen
  have hchosen : (system verifier).Reachable tokenChosen :=
    hopened.step (step_sound (Option.some_get _).symm)
  have hstaked : (system verifier).Reachable deposited :=
    hchosen.step (step_sound (Option.some_get _).symm)
  have hasked : (system verifier).Reachable askedBack :=
    hstaked.step (step_sound (Option.some_get _).symm)
  have hundercut : (system verifier).Run askedBack undercutRun undercut :=
    TransitionSystem.run_of_execute (fun _ _ _ => step_sound)
      (Option.some_get _).symm
  have htopped : (system verifier).Run undercut toppedUpRun toppedUp :=
    TransitionSystem.run_of_execute (fun _ _ _ => step_sound)
      (Option.some_get _).symm
  refine ⟨⟨hasked.run hundercut, ?_, ?_, ?_⟩, htopped,
    step_sound (Option.some_get _).symm, ?_, ?_⟩
  all_goals decide +kernel

end Parashield.OracleVerifier
