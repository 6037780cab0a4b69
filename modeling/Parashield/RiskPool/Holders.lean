import Parashield.RiskPool.Mirroring

/-!
# Risk pool: holders along a run

Who ever held a position keeps a token that shows it and one slot, and can
deposit again once it has no shares left, as long as nobody is liquidated.  A
liquidation breaks this: the token of its provider shows shares that are gone.
-/

namespace Parashield.RiskPool

open Support Support.Contract Invocation Book Registry

/-! ## Depositing without shares -/

/-- What the pool and the funds of `a` allow: nothing here asks whether `a` has
a slot or a token, or what yield it was paid. -/
structure Affords (a : Address) (amount : ℤ) (m : Machine State) : Prop where
  funded : ∃ usdc, m.store.usdcToken = some usdc ∧
    amount ≤ m.bank.balance usdc a
  categorized : m.store.category ≠ none
  utilized : m.store.currentUtilizationBps <
    m.store.capacity.maxUtilizationBps
  sized : m.store.totalDeposited + amount ≤ m.store.capacity.maxTotalDeposited
  deposited : InI128 (m.store.totalDeposited + amount)
  priced : InI128 (amount * m.store.totalShares)
  issued : InI128
    (m.store.totalShares + (book m).bought amount + (book m).burned)
  earning : InI128 (m.store.accumulatedPerShare * (book m).bought amount)
  credited : InI128 ((book m).recorded a + amount)

section Affords

variable {now : ℕ} {a : Address} {amount : ℤ} {m : Machine State}
  {p : LpPosition}

/-- A position without shares has no yield to settle. -/
theorem settleYield_of_empty (hb : Sound (book m))
    (hp : m.store.lpPosition a = some p) (hempty : p.shares = 0) :
    ∃ r, m.store.settleYield now p = .ok r := by
  have hdebt : 0 ≤ p.yieldDebt := by
    have haccount := (hb.accounts a).2
    rwa [account_of_position (show (book m).lpPosition a = some p from hp)]
      at haccount
  unfold State.settleYield
  split
  · exact ⟨_, rfl⟩
  · have hnone : ¬ 0 < satI128 ((0 : ℤ).tdiv perShareScale - p.yieldDebt) := by
      rw [Int.zero_tdiv]
      unfold satI128 minI128 maxI128
      omega
    have hsettled : Check.i128 (m.store.accumulatedPerShare * p.shares)
        (.overflow none : Fault Error) = .ok 0 := by
      rw [hempty, mul_zero]
      exact Check.i128_ok.mpr ⟨by decide, rfl⟩
    refine ⟨⟨satI128 ((0 : ℤ).tdiv perShareScale - p.yieldDebt), p⟩,
      Check.bind_ok.mpr ⟨0, hsettled, ?_⟩⟩
    simp only [if_neg hnone]
    rfl

/-- For a position without shares the pool and the funds decide. -/
theorem receives_iff_affords (hb : Sound (book m))
    (hp : m.store.lpPosition a = some p) (hempty : p.shares = 0) :
    Receives now a amount m ↔ Affords a amount m := by
  have hheld : (book m).held a = 0 :=
    (held_of_position (show (book m).lpPosition a = some p from hp)).trans
      hempty
  constructor
  · intro h
    have hearning := h.earning
    rw [hheld, zero_add] at hearning
    exact { h with earning := hearning }
  · intro h
    refine { h with earning := ?_, settles := ?_, seated := ?_ }
    · rw [hheld, zero_add]
      exact h.earning
    · intro q hq
      obtain rfl := Option.some.inj (hp.symm.trans hq)
      exact settleYield_of_empty hb hp hempty
    · intro hnone
      rw [hp] at hnone
      cases hnone

end Affords

/-! ## Holders -/

/-- In the run `ls` from `s`, `a` held a position at some point. -/
def EverHeld (self : Address) (s : World State) (ls : List (Label Entry))
    (a : Address) : Prop :=
  ∃ before after t, ls = before ++ after ∧ (system self).Run s before t ∧
    t.machine.store.lpPosition a ≠ none

/-- The token of `a` shows what `a` holds. -/
def State.Tokened (s : State) (a : Address) (shares deposited : ℤ) : Prop :=
  ∃ tokenId nft, s.providerNft a = some tokenId ∧
    s.lpNft tokenId = some nft ∧ nft.provider = a ∧ nft.shares = shares ∧
    nft.deposited = deposited ∧ (nft.active = true ↔ 0 < shares)

/-- What stands for the providers that held a position in the run `ls` from `s`
to `w`. -/
structure HoldersKept (pool : Address) (s : World State)
    (ls : List (Label Entry)) (w : World State) : Prop where
  tokened : ∀ a, EverHeld pool s ls a →
    w.machine.store.Tokened a ((book w.machine).held a)
      ((book w.machine).recorded a)
  numbered : Numbered w.machine.store.lpAddress w.machine.store.lpCount
    (EverHeld pool s ls)
  returns : ∀ a signers, EverHeld pool s ls a →
    (book w.machine).held a = 0 → w.machine.store.status = .active →
    pool ∉ signers → a ∈ signers → w.machine.store.admin ≠ some a →
    a ≠ .zero →
    (Takes pool w signers a ↔ (book w.machine).Priced ∧
      ∃ n t, sweepExpiredExits (callEnv pool w signers) maxAutoExitScan
          (some a) w.machine = .ok (n, t) ∧
        Affords a (book t).leastDeposit t)

/-- The step liquidates nobody. -/
def Unliquidated (_ : World State) : Label Entry → Prop
  | .call _ e => e.liquidates = false
  | _ => True

section Runs

variable {self a : Address} {s w w' : World State} {ls : List (Label Entry)}
  {l : Label Entry}

theorem deployed_mirrored : State.deployed.registry.Mirrored where
  token _ _ hp := by cases hp
  untokened _ _ := rfl
  minted _ _ hid := by cases hid
  numbered := Numbered.empty.congr fun _ => iff_of_false (not_not.mpr rfl) id

theorem step_upholds (hb : Sound (book w.machine))
    (hstep : ((system self).restrict Unliquidated).Step w l w') :
    w.machine.store.registry.Upholds w'.machine.store.registry := by
  obtain ⟨hl, hstep⟩ := hstep
  cases hstep with
  | call _ hexec => exact exec_upholds hb hl hexec
  | tick => exact .refl _
  | transfer => exact .refl _
  | mint => exact .refl _

theorem registry_inductive (self : Address) :
    ((system self).restrict Unliquidated).Inductive fun w =>
      Sound (book w.machine) ∧ w.machine.store.registry.Mirrored := by
  refine ((sound_inductive self).restrict Unliquidated).and ?_ ?_
  · intro w hinit
    rw [show w.machine.store = State.deployed from hinit.1]
    exact deployed_mirrored
  · intro w l w' hb _ hr hstep
    exact (step_upholds hb hstep).mirrored hr

/-- Along a run without liquidations nobody loses a position. -/
theorem run_extends (hb : Sound (book s.machine))
    (hr : s.machine.store.registry.Mirrored)
    (hrun : ((system self).restrict Unliquidated).Run s ls w) :
    s.machine.store.registry.Extends w.machine.store.registry := by
  induction hrun with
  | nil => exact fun _ ha => ha
  | cons hstep _ ih =>
      have hb' := (sound_inductive self).step _ _ _ hb hstep.2
      have hupholds := step_upholds hb hstep
      intro a ha
      exact ih hb' (hupholds.mirrored hr) a (hupholds.extended hr a ha)

/-- Whoever ever held a position still does. -/
theorem everHeld_iff (hinit : (system self).Init s)
    (hrun : ((system self).restrict Unliquidated).Run s ls w) (a : Address) :
    EverHeld self s ls a ↔ w.machine.store.lpPosition a ≠ none := by
  constructor
  · rintro ⟨before, after, t, rfl, hbefore, ha⟩
    obtain ⟨t', hbefore', hafter⟩ := TransitionSystem.run_append_iff.mp hrun
    obtain rfl := hbefore'.of_restrict.unique (fun _ _ _ _ => Step.unique)
      hbefore
    obtain ⟨hb, hr⟩ := ((TransitionSystem.Reachable.init (T :=
      (system self).restrict Unliquidated) hinit).run hbefore').invariant
        (registry_inductive self)
    exact run_extends hb hr hafter a ha
  · intro ha
    exact ⟨ls, [], w, (List.append_nil ls).symm, hrun.of_restrict, ha⟩

/-- A token shows the position of its holder. -/
theorem Registry.Mirrored.tokened (hr : w.machine.store.registry.Mirrored)
    (ha : w.machine.store.lpPosition a ≠ none) :
    w.machine.store.Tokened a ((book w.machine).held a)
      ((book w.machine).recorded a) := by
  obtain ⟨p, hp⟩ := Option.ne_none_iff_exists'.mp ha
  have hbook : (book w.machine).lpPosition a = some p := hp
  obtain ⟨tokenId, nft, hid, hnft, hshows⟩ := hr.token a p hp
  rw [held_of_position hbook]
  simp only [recorded, hbook]
  refine ⟨tokenId, nft, hid, hnft, hshows.provider, hshows.shares,
    hshows.deposited, ?_⟩
  rw [hshows.active, decide_eq_true_iff]

/-- Who has no shares left is taken like anybody with the same funds. -/
theorem returns_iff {signers : List Address} (hw : (system self).Reachable w)
    (ha : w.machine.store.lpPosition a ≠ none)
    (hempty : (book w.machine).held a = 0)
    (hactive : w.machine.store.status = .active) (hself : self ∉ signers)
    (hsigned : a ∈ signers) (hadmin : w.machine.store.admin ≠ some a)
    (hzero : a ≠ .zero) :
    Takes self w signers a ↔ (book w.machine).Priced ∧
      ∃ n t, sweepExpiredExits (callEnv self w signers) maxAutoExitScan
          (some a) w.machine = .ok (n, t) ∧
        Affords a (book t).leastDeposit t := by
  obtain ⟨p, hp⟩ := Option.ne_none_iff_exists'.mp ha
  have hbook : (book w.machine).lpPosition a = some p := hp
  have hnone : p.shares = 0 := (held_of_position hbook).symm.trans hempty
  have hb := hw.invariant (sound_inductive self)
  rw [takes_iff hw hactive hself hsigned hadmin hzero]
  refine and_congr_right fun _ => exists_congr fun n => exists_congr fun t =>
    and_congr_right fun hsweep => ?_
  have hsame := (sweepExpiredExits_skips hsweep).1
  exact receives_iff_affords (sweepExpiredExits_sound hb hsweep)
    (hsame.trans hbook) hnone

/-- In a run without liquidations every provider that ever held a position has
a token that shows it and one slot, and can deposit again. -/
theorem run_holdersKept (hinit : (system self).Init s)
    (hrun : ((system self).restrict Unliquidated).Run s ls w) :
    HoldersKept self s ls w := by
  have hever := everHeld_iff hinit hrun
  have hreachable := (TransitionSystem.Reachable.init hinit).run
    hrun.of_restrict
  obtain ⟨-, hr⟩ := ((TransitionSystem.Reachable.init (T :=
    (system self).restrict Unliquidated) hinit).run hrun).invariant
      (registry_inductive self)
  refine ⟨fun a ha => hr.tokened ((hever a).mp ha), hr.numbered.congr hever, ?_⟩
  intro a signers ha hempty hactive hself hsigned hadmin hzero
  exact returns_iff hreachable ((hever a).mp ha) hempty hactive hself hsigned
    hadmin hzero

/-- After a liquidation a token shows shares that are gone. -/
theorem not_holdersKept (hinit : (system self).Init s)
    (hrun : ((system self).restrict Unliquidated).Run s ls w)
    (hstep : (system self).Step w l w') (hl : ¬ Unliquidated w l) :
    ¬ HoldersKept self s (ls ++ [l]) w' := by
  have hb := ((TransitionSystem.Reachable.init hinit).run
    hrun.of_restrict).invariant (sound_inductive self)
  cases hstep with
  | @call signers e m' _ hexec =>
      obtain ⟨a, ha, hless, hid, hnft⟩ :=
        exec_liquidation hb (Bool.not_eq_false _ ▸ hl) hexec
      have hever : EverHeld self s ls a := (everHeld_iff hinit hrun a).mpr ha
      obtain ⟨before, after, t, hls, hbefore, ht⟩ := hever
      intro hkept
      obtain ⟨i, nft, hi, hn, -, hshares, -⟩ :=
        (run_holdersKept hinit hrun).tokened a
          ⟨before, after, t, hls, hbefore, ht⟩
      obtain ⟨i', nft', hi', hn', -, hshares', -⟩ := hkept.tokened a
        ⟨before, after ++ [_], t, by rw [hls, List.append_assoc], hbefore, ht⟩
      rw [hid, hi] at hi'
      obtain rfl := Option.some.inj hi'
      rw [hnft, hn] at hn'
      obtain rfl := Option.some.inj hn'
      exact hless.ne (hshares'.symm.trans hshares)
  | _ => exact absurd trivial hl

end Runs

/-- In every run without liquidations, every provider that ever held a position
has a token that shows it and exactly one slot, and can deposit again once it
has no shares left.  The first liquidation breaks this. -/
theorem holders_kept (self : Address) (s w : World State)
    (ls : List (Label Entry)) (hinit : (system self).Init s)
    (hrun : ((system self).restrict Unliquidated).Run s ls w) :
    HoldersKept self s ls w ∧
      ∀ l w', (system self).Step w l w' →
        (HoldersKept self s (ls ++ [l]) w' ↔ Unliquidated w l) := by
  refine ⟨run_holdersKept hinit hrun, fun l w' hstep => ⟨fun hkept => ?_,
    fun hl => ?_⟩⟩
  · by_contra hl
    exact not_holdersKept hinit hrun hstep hl hkept
  · exact run_holdersKept hinit (hrun.concat ⟨hl, hstep⟩)

/-! ## A liquidated provider -/

namespace Scenario

/-- The provider is liquidated while its deposit is locked for a policy, and
the lock is released afterwards. -/
def liquidating : List (Label Entry) :=
  [wiring, funding,
    .call [admin] (.lockForPolicy admin 1 1000000),
    .call [admin] (.liquidatePosition admin provider),
    .call [admin] (.releaseForExpiry admin 1)]

def stranded : World State :=
  (TransitionSystem.execute (step exec pool) liquidating genesis).get
    (by decide +kernel)

/-- A deposit that the pool takes from others. -/
def returning (a : Address) : Label Entry :=
  .call [a] (.deposit a 1000000 0 false)

/-- The provider withdraws all its shares. -/
def cashingOut : List (Label Entry) :=
  [wiring, funding, .call [provider] (.withdraw provider 999999999999000)]

def cashedOut : World State :=
  (TransitionSystem.execute (step exec pool) cashingOut genesis).get
    (by decide +kernel)

end Scenario

open Scenario in
/-- A provider that withdrew all its shares keeps its token and its slot. -/
theorem holders_kept_cashed_out :
    cashedOut.machine.store.lpPosition provider ≠ none ∧
      (book cashedOut.machine).held provider = 0 ∧
      HoldersKept pool genesis cashingOut cashedOut := by
  have hrun : (system pool).Run genesis cashingOut cashedOut :=
    TransitionSystem.run_of_execute (fun _ _ _ => step_sound)
      (Option.some_get _).symm
  have hguarded : ((system pool).restrict Unliquidated).Run genesis cashingOut
      cashedOut := hrun.restrict (by
    intro l hl t
    simp only [cashingOut, List.mem_cons, List.not_mem_nil, or_false] at hl
    rcases hl with rfl | rfl | rfl <;> rfl)
  exact ⟨by decide +kernel, by decide +kernel,
    (holders_kept pool genesis cashedOut cashingOut ⟨rfl, rfl⟩ hguarded).1⟩

open Scenario in
/-- After its liquidation the provider has no position, its token shows the old
shares as active, and the pool takes deposits of others but none of it. -/
theorem holders_not_kept_stranded :
    (system pool).Run genesis liquidating stranded ∧
      EverHeld pool genesis liquidating provider ∧
      stranded.machine.store.lpPosition provider = none ∧
      stranded.machine.store.Tokened provider 999999999999000 1000000 ∧
      ¬ Takes pool stranded [provider] provider ∧
      Takes pool stranded [other] other ∧
      ¬ HoldersKept pool genesis liquidating stranded := by
  have hrun : (system pool).Run genesis liquidating stranded :=
    TransitionSystem.run_of_execute (fun _ _ _ => step_sound)
      (Option.some_get _).symm
  have hreachable := (TransitionSystem.Reachable.init
    (show (system pool).Init genesis from ⟨rfl, rfl⟩)).run hrun
  have hwiring : (system pool).Step genesis wiring wired :=
    step_sound (Option.some_get _).symm
  have hfunding : (system pool).Step wired funding funded :=
    step_sound (Option.some_get _).symm
  have hever : EverHeld pool genesis liquidating provider :=
    ⟨[wiring, funding], _, funded, rfl,
      .cons hwiring (.cons hfunding (.nil funded)), by decide +kernel⟩
  have hnone : stranded.machine.store.lpPosition provider = none := by
    decide +kernel
  have htoken : stranded.machine.store.lpNft 1 = some
      { tokenId := 1
        provider := provider
        category := Symbols.crop
        mintedAt := 1000000
        shares := 999999999999000
        deposited := 1000000
        active := true } := by
    decide +kernel
  have hid : stranded.machine.store.providerNft provider = some 1 := by
    decide +kernel
  have hidle : ¬ stranded.machine.store.ExitDue stranded.now
      (some provider) := by
    rintro ⟨idx, a, request, -, -, -, hrequest, -⟩
    have hnone : stranded.machine.store.exitReq a = none := by
      with_unfolding_all rfl
    rw [hnone] at hrequest
    cases hrequest
  have htopUp : (system pool).Step stranded (returning other)
      ((step exec pool stranded (returning other)).get (by decide +kernel)) :=
    step_sound (Option.some_get _).symm
  refine ⟨hrun, hever, hnone, ⟨1, _, hid, htoken, rfl, rfl, rfl, by decide⟩,
    fun htakes => ?_, ⟨1000000, 0, false, _, ⟨by decide, by decide⟩, htopUp⟩,
    fun hkept => ?_⟩
  · obtain ⟨-, hadmits⟩ := (takes_iff hreachable (by decide +kernel)
      (by decide) (by simp) (by decide +kernel) (by decide)).mp htakes
    have hreceives := (admits_iff_of_not_due hidle).mp hadmits
    have hfree := (hreceives.seated hnone).untokened
    exact absurd hfree (by decide +kernel)
  · obtain ⟨tokenId, nft, hid', hnft, -, hshares, -⟩ :=
      hkept.tokened provider hever
    obtain rfl := Option.some.inj (hid.symm.trans hid')
    obtain rfl := Option.some.inj (htoken.symm.trans hnft)
    have hheld : (book stranded.machine).held provider = 0 := by
      decide +kernel
    rw [hheld] at hshares
    exact absurd hshares (by decide)

end Parashield.RiskPool
