import Parashield.RiskPool.Soundness

/-!
# Risk pool: how a premium reaches the providers

What a premium adds to the yield of all providers, to the unit.  The
accumulator counts yield per share in units of `1 / perShareScale`; with more
shares than that, a premium may add less than one unit to it and is lost.
-/

namespace Parashield.RiskPool

open Support Support.Contract Invocation Book

namespace Book

variable {env : Env} {b b' : Book}

/-! ## All shares but the locked ones are held -/

/-- Shares held by anybody. -/
def outstanding (b : Book) : ℤ :=
  if b.totalShares = 0 then 0 else b.totalShares - lockedShares

/-- The positions hold all shares but those locked with the first deposit. -/
def AllHeld (b : Book) : Prop :=
  HasTotal b.held b.outstanding

theorem AllHeld.of_eq (h : AllHeld b) (haccount : b'.account = b.account)
    (htotal : b'.totalShares = b.totalShares) : AllHeld b' := by
  unfold AllHeld outstanding at *
  rwa [held_eq haccount, htotal]

theorem Sound.held_nonneg (hb : Sound b) (a : Address) : 0 ≤ b.held a :=
  (hb.accounts a).1

/-- One position gains or loses as many shares as there are. -/
theorem AllHeld.replace (h : AllHeld b) (hb' : Sound b')
    (hissued : b.totalShares ≠ 0) {a : Address} {q : Yield.Account}
    (haccount : b'.account = Function.update b.account a q)
    (htotal : b'.totalShares = b.totalShares + (q.shares - b.held a)) :
    AllHeld b' := by
  unfold AllHeld outstanding at h ⊢
  rw [if_neg hissued] at h
  have hupdated := h.update a q.shares
  rw [← held_update haccount] at hupdated
  have hnonneg := hupdated.nonneg hb'.held_nonneg
  have hlocked : (0 : ℤ) < lockedShares := by decide
  rw [if_neg (by omega), htotal]
  exact hupdated.congr (by omega)

theorem Change.allHeld_burn {provider : Address} {shares : ℤ} {joint : Bool}
    (hb : Sound b) (hall : AllHeld b)
    (h : Change env (.burn provider shares joint) b b') : AllHeld b' := by
  have hb' := h.sound hb
  cases h with
  | @burn _ _ _ p _ B hredeems _ =>
      have haccount := hb.reduced_account env.now (b.redeemed shares)
        hredeems.held
      refine hall.replace hb' hredeems.issued (account_update rfl) ?_
      rw [haccount, held_of_position hredeems.found]
      simp only [Yield.rebased]
      omega

theorem Change.allHeld_mint {provider : Address} {newShares : ℤ}
    {compound : Bool} (hb : Sound b) (hall : AllHeld b)
    (h : Change env (.mint provider newShares compound) b b') :
    AllHeld b' := by
  have hb' := h.sound hb
  cases h with
  | @mint _ _ amount _ burnShares _ usdc _ _ hmints _ _ _ _ =>
      have hnew := hmints.shares_ge
      unfold minShares at hnew
      have haccount := hb.increased_account env.now provider amount
        (some compound) (show 0 ≤ newShares by omega)
      by_cases hzero : b.totalShares = 0
      · obtain ⟨-, hburned⟩ := hmints.first hzero
        have hlocked : (0 : ℤ) < lockedShares := by decide
        have hupdated := HasTotal.update hall provider
          (b.held provider + newShares)
        unfold AllHeld outstanding at *
        rw [held_update (account_update rfl), haccount]
        simp only [hzero, hburned, if_true] at hupdated ⊢
        rw [if_neg (by omega)]
        exact hupdated.congr (by omega)
      · obtain ⟨-, hburned⟩ := hmints.later hzero
        refine hall.replace hb' hzero (account_update rfl) ?_
        rw [haccount, hburned]
        simp only [Yield.rebased]
        omega

theorem Change.allHeld_move {sender recipient : Address} {shares : ℤ}
    (hb : Sound b) (hall : AllHeld b)
    (h : Change env (.move sender recipient shares) b b') : AllHeld b' := by
  cases h with
  | @move _ _ _ _ amount p B hne hfound hpos hheld _ _ _ =>
      have hsender := hb.reduced_account env.now amount hheld
      have hrecipient :=
        hb.increased_account env.now recipient amount none hpos.le
      have hfirst := HasTotal.update hall sender (p.shares - shares)
      have hboth := hfirst.update recipient (b.held recipient + shares)
      rw [Function.update_of_ne (Ne.symm hne), held_of_position hfound]
        at hboth
      have hheld' : held { b with
          lpPosition :=
            Function.update
              (b.setPosition sender (b.reduced env.now p shares amount))
              recipient
              (some (b.increased env.now recipient shares amount
                none).position)
          bank := B } =
          Function.update (Function.update b.held sender (p.shares - shares))
            recipient (b.held recipient + shares) := by
        rw [held_update (b := { b with
          lpPosition :=
            b.setPosition sender (b.reduced env.now p shares amount) })
          (account_update rfl), hrecipient,
          held_update (b := b) (account_update rfl), hsender]
        rfl
      unfold AllHeld outstanding at hall ⊢
      rw [hheld']
      exact hboth.congr (by simp only [outstanding]; omega)

theorem Change.allHeld_liquidate {provider : Address} {seized : ℤ}
    (hb : Sound b) (hall : AllHeld b)
    (h : Change env (.liquidate provider seized) b b') : AllHeld b' := by
  have hb' := h.sound hb
  cases h with
  | @liquidate _ _ p bps _ h =>
      have hseized := (h.le_shares hb).trans (hb.held_le h.found)
      have hpos := h.seized_pos
      obtain ⟨q, haccount, -, hleft, -, -⟩ :=
        h.account_left hb (show Book.lpPosition { b with
          lpPosition := Function.update b.lpPosition provider
            (if (b.seizedPosition p seized).shares ≤ 0 then none
              else some (b.seizedPosition p seized))
          totalShares := satI128 (b.totalShares - seized)
          totalDeposited := satI128 (b.totalDeposited - b.recovered seized) } =
          _ from rfl)
      refine hall.replace hb' (by omega) haccount ?_
      have hrange : satI128 (b.totalShares - seized) =
          b.totalShares - seized := by
        refine satI128_eq ?_
        have htotal := hb.shares_range
        unfold InI128 at htotal ⊢
        omega
      rw [hleft, held_of_position h.found]
      show satI128 (b.totalShares - seized) = _
      omega

/-- Every change keeps all shares held. -/
theorem Change.allHeld {k : Kind} (hb : Sound b) (hall : AllHeld b)
    (h : Change env k b b') : AllHeld b' := by
  cases k with
  | burn => exact h.allHeld_burn hb hall
  | mint => exact h.allHeld_mint hb hall
  | move => exact h.allHeld_move hb hall
  | liquidate => exact h.allHeld_liquidate hb hall
  | wire =>
      cases h with
      | wire hfresh =>
          have hzero := (hb.unwired (hb.uninitialized hfresh)).2.2.1
          exact hall.of_eq rfl hzero.symm
  | collect provider =>
      cases h with
      | @collect _ _ p B hfound _ _ =>
          have hheld : held { b with
              lpPosition :=
                b.setPosition provider (b.settled env.now p).position
              bank := B } = b.held := by
            rw [held_update (account_update rfl)]
            refine Function.update_eq_iff.mpr ⟨?_, fun _ _ => rfl⟩
            rw [held_of_position hfound]
            exact settled_shares b env.now p
          unfold AllHeld
          rw [hheld]
          exact hall
  | toggle =>
      cases h with
      | @toggle _ _ p enabled hfound =>
          exact hall.of_eq (account_toggle hfound enabled) rfl
  | _ =>
      cases h
      exact hall.of_eq rfl rfl

/-! ## Finitely many positions -/

/-- The addresses with a position. -/
def Finite (b : Book) : Prop :=
  {a | b.lpPosition a ≠ none}.Finite

theorem Finite.update (h : Finite b) {a : Address} {p : Option LpPosition}
    (hposition : b'.lpPosition = Function.update b.lpPosition a p) :
    Finite b' := by
  refine (h.insert a).subset ?_
  intro x hx
  by_cases ha : x = a
  · exact Set.mem_insert_iff.mpr (.inl ha)
  · refine Set.mem_insert_of_mem a ?_
    rwa [Set.mem_ofPred_eq, hposition, Function.update_of_ne ha] at hx

theorem Change.finite {k : Kind} (hfinite : Finite b)
    (h : Change env k b b') : Finite b' := by
  cases h with
  | burn => exact hfinite.update rfl
  | mint => exact hfinite.update rfl
  | @move _ sender recipient shares amount p B _ _ _ _ _ _ _ =>
      have hfirst : Finite { b with
          lpPosition :=
            b.setPosition sender (b.reduced env.now p shares amount) } :=
        hfinite.update rfl
      exact hfirst.update rfl
  | collect => exact hfinite.update rfl
  | liquidate => exact hfinite.update rfl
  | toggle => exact hfinite.update rfl
  | _ => exact hfinite

/-! ## The exact gain -/

/-- The part of a premium that is too small for the accumulator. -/
def truncated (b : Book) (lpShare : ℤ) : ℤ :=
  lpShare * perShareScale % b.totalShares

/-- What rounding each settlement down adds to the gain of `a` when the
accumulator grows by `k`; it may be negative. -/
def rounded (b : Book) (k : ℤ) (a : Address) : ℤ :=
  b.accumulatedPerShare * b.held a % perShareScale -
    (b.accumulatedPerShare + k) * b.held a % perShareScale

/-- Whole units of the gain of `a` that go into overdrawn debt. -/
def withheld (b : Book) (k : ℤ) (a : Address) : ℤ :=
  Yield.withheld perShareScale b.accumulatedPerShare k (b.account a)

/-- Rounding, truncation and overdrawn debt balance for a premium: roundings
that become whole units are paid by what truncation, the locked shares and
overdrawn debt keep back, and these keep back no more than the roundings, a
unit for each position and one for the call. -/
structure Balances (b : Book) (lpShare : ℤ) (F : Finset Address) : Prop where
  most : ∑ a ∈ F, b.rounded (b.increment lpShare) a ≤
    b.truncated lpShare + lockedShares * b.increment lpShare +
      perShareScale * ∑ a ∈ F, b.withheld (b.increment lpShare) a
  least : (b.totalShares - lockedShares) * b.truncated lpShare +
      b.totalShares *
        (perShareScale * ∑ a ∈ F, b.withheld (b.increment lpShare) a) ≤
    b.totalShares *
      (∑ a ∈ F, b.rounded (b.increment lpShare) a +
        (F.card + 1) * perShareScale)

/-- What all positions gain when the accumulator grows by `k`. -/
theorem gain_eq (hb : Sound b) (hall : AllHeld b) (hissued : 0 < b.totalShares)
    {F : Finset Address} (hF : ∀ a, a ∉ F → b.held a = 0) {k : ℤ}
    (hk : 0 ≤ k) :
    perShareScale * ∑ a ∈ F,
        (Yield.pending perShareScale (b.accumulatedPerShare + k)
            (b.account a) - b.pending a) =
      k * (b.totalShares - lockedShares) + ∑ a ∈ F, b.rounded k a -
        perShareScale * ∑ a ∈ F, b.withheld k a := by
  have hheld : ∑ a ∈ F, b.held a = b.totalShares - lockedShares := by
    have hsum := HasTotal.sum_eq hall hF
    rwa [outstanding, if_neg hissued.ne'] at hsum
  have hterm : ∀ a ∈ F, perShareScale *
      (Yield.pending perShareScale (b.accumulatedPerShare + k)
          (b.account a) - b.pending a) =
      k * b.held a + b.rounded k a - perShareScale * b.withheld k a := by
    intro a _
    have hgrow : 0 ≤ k * (b.account a).shares :=
      mul_nonneg hk (hb.accounts a).1
    have hgain := @Yield.pending_accrue perShareScale b.accumulatedPerShare
      (b.account a) perShareScale_pos k hgrow
    have hcompleted := @Yield.scale_mul_completed perShareScale
      b.accumulatedPerShare (b.account a) k
    unfold pending rounded withheld held
    rw [hgain, mul_sub, hcompleted]
    omega
  rw [Finset.mul_sum, Finset.sum_congr rfl hterm, Finset.sum_sub_distrib,
    Finset.sum_add_distrib, ← Finset.mul_sum, ← Finset.mul_sum, hheld]

/-- What the accumulator takes up of a premium, and what it leaves. -/
theorem truncated_eq (hissued : 0 < b.totalShares) {lpShare : ℤ}
    (hlp : 0 ≤ lpShare) :
    lpShare * perShareScale =
      b.increment lpShare * b.totalShares + b.truncated lpShare := by
  have hprod : 0 ≤ lpShare * perShareScale :=
    mul_nonneg hlp perShareScale_pos.le
  unfold increment truncated
  rw [if_pos hissued, Int.tdiv_eq_ediv_of_nonneg hprod]
  exact (Int.ediv_mul_add_emod _ _).symm

section Balance

variable {S L P k t lp G R W c : ℤ}

/-- A gain stays below the premium where the roundings stay below what is
kept back. -/
theorem balances_most (hscale : 0 < P)
    (hgain : P * G = k * (S - L) + R - P * W)
    (hsplit : lp * P = k * S + t) :
    G ≤ lp ↔ R ≤ t + L * k + P * W := by
  have hmul : G ≤ lp ↔ P * G ≤ P * lp :=
    (mul_le_mul_iff_of_pos_left hscale).symm
  have hleft : P * lp - P * G = t + L * k + P * W - R := by
    rw [hgain, mul_comm P lp, hsplit]
    ring
  rw [hmul]
  omega

/-- A gain is no smaller than allowed where what is kept back stays below the
roundings and the allowance. -/
theorem balances_least (hscale : 0 < P)
    (hgain : P * G = k * (S - L) + R - P * W)
    (hsplit : lp * P = k * S + t) :
    lp * (S - L) ≤ S * (G + c + 1) ↔
      (S - L) * t + S * (P * W) ≤ S * (R + (c + 1) * P) := by
  have hmul : lp * (S - L) ≤ S * (G + c + 1) ↔
      P * (lp * (S - L)) ≤ P * (S * (G + c + 1)) :=
    (mul_le_mul_iff_of_pos_left hscale).symm
  have hdifference : P * (S * (G + c + 1)) - P * (lp * (S - L)) =
      S * (R + (c + 1) * P) - ((S - L) * t + S * (P * W)) := by
    calc P * (S * (G + c + 1)) - P * (lp * (S - L))
        = S * (P * G) + S * ((c + 1) * P) - (lp * P) * (S - L) := by ring
      _ = S * (k * (S - L) + R - P * W) + S * ((c + 1) * P) -
            (k * S + t) * (S - L) := by rw [hgain, hsplit]
      _ = S * (R + (c + 1) * P) - ((S - L) * t + S * (P * W)) := by ring
  rw [hmul]
  omega

end Balance

end Book

/-! ## Premiums in a run -/

theorem allHeld_inductive (self : Address) :
    (system self).Inductive fun w =>
      Sound (book w.machine) ∧ AllHeld (book w.machine) ∧
        Finite (book w.machine) := by
  refine (sound_inductive self).and ?_ ?_
  · intro w hinit
    obtain ⟨now, store, bank⟩ := w
    obtain ⟨rfl, -⟩ := hinit
    refine ⟨HasTotal.zero, Set.finite_empty.subset ?_⟩
    intro a ha
    exact absurd rfl ha
  · rintro w l w' hsound - ⟨hall, hfinite⟩ hstep
    cases hstep with
    | call _ hexec =>
        obtain ⟨-, hall', hfinite'⟩ := (exec_performs hexec).preserves
          (I := fun b => Sound b ∧ AllHeld b ∧ Finite b)
          (fun _ _ _ h hchange =>
            ⟨hchange.sound h.1, hchange.allHeld h.1 h.2.1,
              hchange.finite h.2.2⟩)
          ⟨hsound, hall, hfinite⟩
        exact ⟨hall', hfinite'⟩
    | tick => exact ⟨hall, hfinite⟩
    | transfer => exact ⟨hall, hfinite⟩
    | mint => exact ⟨hall, hfinite⟩

/-- The part of a premium of `amount` that is meant for the providers. -/
def State.lpShare (s : State) (amount : ℤ) : ℤ :=
  max 0 ((amount * s.premiumSplit.lpBps).tdiv 10000)

/-- What the providers in `F` can newly claim is the premium, less the part of
the locked shares, a unit for each position and one for the call. -/
structure Reaches (s s' : State) (lpShare : ℤ) (F : Finset Address) :
    Prop where
  most : ∑ a ∈ F, (s'.pendingYield a - s.pendingYield a) ≤ lpShare
  least : lpShare * (s.totalShares - lockedShares) ≤
    s.totalShares *
      (∑ a ∈ F, (s'.pendingYield a - s.pendingYield a) + F.card + 1)

variable {env : Env} {m m' : Machine State}

theorem accrue_nonneg {b b' : Book} {lpShare : ℤ} (hb : Sound b)
    (h : Change env (.accrue lpShare) b b') : 0 ≤ lpShare := by
  cases h with
  | accrue hpos _ _ _ _ heq =>
      rw [heq]
      exact (premiumPart_nonneg hpos.le hb.split_nonneg.1).1

theorem accrue_account {b b' : Book} {lpShare : ℤ}
    (h : Change env (.accrue lpShare) b b') :
    b'.account = b.account ∧
      b'.accumulatedPerShare =
        b.accumulatedPerShare + b.increment lpShare := by
  cases h with
  | accrue => exact ⟨rfl, rfl⟩

/-- A premium moves the accumulator and no position. -/
theorem receivePremium_accrues {caller : Address} {amount : ℤ} {u : Unit}
    (hb : Sound (book m))
    (h : receivePremium env caller amount m = .ok (u, m')) :
    (book m').account = (book m).account ∧
      (book m').accumulatedPerShare = (book m).accumulatedPerShare +
        (book m).increment (m.store.lpShare amount) := by
  rcases receivePremium_change h with ⟨hnone, hsame⟩ | hchange
  · have hshare : m.store.lpShare amount = 0 := by
      refine max_eq_left ?_
      have hmul : 0 ≤ -amount * m.store.premiumSplit.lpBps :=
        mul_nonneg (neg_nonneg.mpr hnone) hb.split_nonneg.1
      have hquot := Int.tdiv_nonneg hmul (show (0 : ℤ) ≤ 10000 by decide)
      rw [neg_mul, Int.neg_tdiv] at hquot
      omega
    rw [hsame, hshare]
    refine ⟨rfl, ?_⟩
    simp [increment]
  · have hshare : m.store.lpShare amount =
        (amount * m.store.premiumSplit.lpBps).tdiv 10000 :=
      max_eq_right (accrue_nonneg hb hchange)
    rw [hshare]
    exact accrue_account hchange

/-- Every premium reaches the providers exactly where rounding, truncation and
overdrawn debt balance. -/
theorem premium_reaches_lps_iff {self : Address} {w w' : World State}
    {signers : List Address} {caller : Address} {amount : ℤ}
    (hw : (system self).Reachable w)
    (hcall : (system self).Step w
      (.call signers (.receivePremium caller amount)) w')
    (hissued : 0 < w.machine.store.totalShares) :
    ∃ F : Finset Address,
      (∀ a, a ∈ F ↔ w.machine.store.lpPosition a ≠ none) ∧
      (Reaches w.machine.store w'.machine.store
          (w.machine.store.lpShare amount) F ↔
        (book w.machine).Balances (w.machine.store.lpShare amount) F) := by
  obtain ⟨hsound, hall, hfinite⟩ := hw.invariant (allHeld_inductive self)
  have hsound' := (hw.step hcall).invariant (sound_inductive self)
  refine ⟨hfinite.toFinset, fun a => Set.Finite.mem_toFinset hfinite, ?_⟩
  obtain ⟨haccount, hacc⟩ :=
    receivePremium_accrues hsound (Step.exec_eq hcall).2
  have hF : ∀ a, a ∉ hfinite.toFinset → (book w.machine).held a = 0 := by
    intro a ha
    have hnone : (book w.machine).lpPosition a = none := by
      by_contra hsome
      exact ha (hfinite.mem_toFinset.mpr hsome)
    show ((book w.machine).account a).shares = 0
    rw [account_of_none hnone]
  have hlp : 0 ≤ w.machine.store.lpShare amount := le_max_left _ _
  have hgain := gain_eq hsound hall hissued hF
    (increment_bounds (b := book w.machine) hlp).1
  have hsplit := truncated_eq (b := book w.machine) hissued hlp
  have hpending : ∀ a, w'.machine.store.pendingYield a -
      w.machine.store.pendingYield a =
      Yield.pending perShareScale ((book w.machine).accumulatedPerShare +
        (book w.machine).increment (w.machine.store.lpShare amount))
        ((book w.machine).account a) - (book w.machine).pending a := by
    intro a
    rw [hsound.pendingYield_eq a, hsound'.pendingYield_eq a, ← hacc,
      ← haccount]
    rfl
  have hsum := Finset.sum_congr (Eq.refl hfinite.toFinset)
    fun a _ => hpending a
  rw [← hsum] at hgain
  exact ⟨fun h => ⟨(balances_most perShareScale_pos hgain hsplit).mp h.most,
      (balances_least perShareScale_pos hgain hsplit).mp h.least⟩,
    fun h => ⟨(balances_most perShareScale_pos hgain hsplit).mpr h.most,
      (balances_least perShareScale_pos hgain hsplit).mpr h.least⟩⟩

/-! ## A small pool and a full one -/

namespace Scenario

/-- A deposit up to the default capacity. -/
def fill : Label Entry :=
  .call [provider] (.deposit provider (10 ^ 15) 0 false)

def full : World State :=
  (step exec pool wired fill).get (by decide +kernel)

/-- A premium of a million million units for the full pool. -/
def grandPremium : Label Entry :=
  .call [buyer] (.receivePremium buyer (10 ^ 12))

def unmoved : World State :=
  (step exec pool full grandPremium).get (by decide +kernel)

theorem funded_reachable : (system pool).Reachable funded :=
  .step wired_reachable (step_sound (Option.some_get _).symm)

theorem update_none_iff {p : Option LpPosition} (hp : p ≠ none)
    (a : Address) :
    Function.update (fun _ => none) provider p a ≠ none ↔ a = provider := by
  by_cases ha : a = provider
  · subst ha
    rw [Function.update_self]
    exact ⟨fun _ => rfl, fun _ => hp⟩
  · rw [Function.update_of_ne ha]
    exact ⟨fun h => absurd rfl h, fun h => absurd h ha⟩

theorem funded_position (a : Address) :
    funded.machine.store.lpPosition a ≠ none ↔ a = provider := by
  have hposition : funded.machine.store.lpPosition a =
      Function.update (fun _ => none) provider
        (funded.machine.store.lpPosition provider) a := by
    with_unfolding_all rfl
  rw [hposition]
  exact update_none_iff (by decide +kernel) a

theorem full_position (a : Address) :
    full.machine.store.lpPosition a ≠ none ↔ a = provider := by
  have hposition : full.machine.store.lpPosition a =
      Function.update (fun _ => none) provider
        (full.machine.store.lpPosition provider) a := by
    with_unfolding_all rfl
  rw [hposition]
  exact update_none_iff (by decide +kernel) a

end Scenario

open Scenario in
/-- With a deposit of a million units the premium arrives. -/
theorem premium_reaches_lps_iff_earning :
    funded.machine.store.lpShare 10000 = 8000 ∧
      Reaches funded.machine.store earning.machine.store 8000 {provider} := by
  have hshare : funded.machine.store.lpShare 10000 = 8000 := by
    decide +kernel
  have hpremium : (system pool).Step funded premium earning :=
    step_sound (Option.some_get _).symm
  obtain ⟨F, hF, hiff⟩ :=
    premium_reaches_lps_iff funded_reachable hpremium (by decide +kernel)
  have hproviders : F = {provider} := by
    ext a
    rw [hF, funded_position, Finset.mem_singleton]
  rw [hproviders, hshare] at hiff
  refine ⟨hshare, hiff.mpr ⟨?_, ?_⟩⟩
  all_goals
    simp only [Finset.sum_singleton, Finset.card_singleton]
    decide +kernel

open Scenario in
/-- With a deposit of the default capacity nothing arrives of a premium whose
LP share is 800000000000. -/
theorem premium_truncated_away :
    (system pool).Reachable full ∧
      full.machine.store.totalDeposited ≤ maxTotalDeposited ∧
      (system pool).Step full grandPremium unmoved ∧
      full.machine.store.lpShare (10 ^ 12) = 800000000000 ∧
      (∀ a, full.machine.store.lpPosition a ≠ none ↔ a = provider) ∧
      unmoved.machine.store.pendingYield provider =
        full.machine.store.pendingYield provider ∧
      ¬ Reaches full.machine.store unmoved.machine.store 800000000000
        {provider} := by
  have hsame : unmoved.machine.store.pendingYield provider =
      full.machine.store.pendingYield provider := by
    decide +kernel
  refine ⟨.step wired_reachable (step_sound (Option.some_get _).symm),
    by decide +kernel, step_sound (Option.some_get _).symm, by decide +kernel,
    full_position, hsame, fun h => ?_⟩
  have hleast := h.least
  rw [Finset.sum_singleton, hsame, Finset.card_singleton, sub_self] at hleast
  revert hleast
  decide +kernel

end Parashield.RiskPool
