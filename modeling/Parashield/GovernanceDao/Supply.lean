import Parashield.GovernanceDao.Counting

/-!
# Governance DAO: the votes and the supply

The tokens of a voter go into custody, those of a delegator are counted where
they are.  As long as nobody moves tokens that are counted, no proposal has
more votes than there are tokens.
-/

namespace Parashield.GovernanceDao

open Support Support.Contract Invocation

section Bounds

variable {token dao voter a : Address} {env : Env} {s s' : State}
  {m m' : Machine State} {w w' : World State} {now pid : ℕ} {p p' : Proposal}
  {B B' : Bank} {e : Entry} {choice : VoteChoice}
  {ballots : List (ℕ × Proposal)} {lock : ℤ}

/-! ## Covered weight -/

/-- The vote on `pid` is not over yet. -/
def State.Undecided (s : State) (now pid : ℕ) : Prop :=
  ∃ p, s.proposal pid = some p ∧ p.status.IsOpen ∧ now ≤ p.voteEnd

/-- With `balance` tokens next to those in custody, `a` has what is counted of
it on every proposal that is undecided. -/
def State.Covers (s : State) (now : ℕ) (a : Address) (balance : ℤ) : Prop :=
  ∀ pid, s.Undecided now pid →
    s.own pid a + s.lent pid a ≤ balance + s.custody a

/-- Everybody has the tokens that are counted of it, and those of its own
votes are in custody. -/
structure Backed (token dao : Address) (now : ℕ) (m : Machine State) :
    Prop where
  own_le : ∀ pid a, m.store.Undecided now pid → a ≠ dao →
    m.store.own pid a ≤ m.store.custody a
  covered : ∀ a, a ≠ dao → m.store.Covers now a (m.bank.balance token a)
  unlocked : ∀ pid a, m.store.voteRecord (pid, a) = none →
    m.store.lockedBalance (pid, a) = 0
  unvoted : ∀ pid, m.store.voteRecord (pid, dao) = none
  unlent : ∀ u ∈ m.store.uses, u.delegator ≠ dao

theorem State.Covers.mono {x y : ℤ} (h : s.Covers now a x) (hle : x ≤ y) :
    s.Covers now a y := by
  intro pid hopen
  have hcovered := h pid hopen
  omega

theorem State.Undecided.earlier {now' : ℕ} (h : s.Undecided now' pid)
    (hle : now ≤ now') : s.Undecided now pid := by
  obtain ⟨p, hp, hopen, hend⟩ := h
  exact ⟨p, hp, hopen, hle.trans hend⟩

theorem Backed.later {now' : ℕ} (h : Backed token dao now m)
    (hle : now ≤ now') : Backed token dao now' m :=
  { h with
    own_le := fun pid a hopen => h.own_le pid a (hopen.earlier hle)
    covered := fun a ha pid hopen => h.covered a ha pid (hopen.earlier hle) }

theorem Custody.custody_nonneg (h : Custody token dao m) (a : Address) :
    0 ≤ m.store.custody a :=
  Finset.sum_nonneg fun q _ => h.nonneg (.inl (q, a))

/-! ## No more votes than tokens -/

/-- All that is in custody is with the DAO. -/
theorem Custody.sum_custody_le (h : Custody token dao m)
    (H : Finset Address) :
    ∑ a ∈ H, m.store.custody a ≤ m.bank.balance token dao := by
  let locks := (H ×ˢ Finset.range m.store.nextProposalId).map
    ⟨fun k => (Sum.inl (k.2, k.1) : (ℕ × Address) ⊕ ℕ), by
      rintro ⟨a, q⟩ ⟨b, r⟩ heq
      cases heq
      rfl⟩
  calc ∑ a ∈ H, m.store.custody a
      = ∑ k ∈ locks, m.store.owed k := by
        rw [Finset.sum_map, Finset.sum_product]
        rfl
    _ ≤ m.bank.balance token dao := h.capped locks

theorem Backed.cast_le (h : Backed token dao now m) (ht : Tallied m.store)
    (hc : Custody token dao m) (hopen : m.store.Undecided now pid)
    (hp : m.store.proposal pid = some p) :
    p.cast ≤ m.bank.supply token := by
  obtain ⟨H, hcast, hcounted⟩ := ht.cast_eq hp
  have hothers : ∀ a ∈ H, a ≠ dao := by
    rintro a ha rfl
    rcases hcounted a ha with hvoted | ⟨u, hu, -, hself⟩
    · exact hvoted (h.unvoted pid)
    · exact h.unlent u hu hself
  have hmem : dao ∉ H := fun hdao => hothers dao hdao rfl
  have hsupply : (m.bank.balance token dao : ℤ) +
      ∑ a ∈ H, (m.bank.balance token a : ℤ) ≤ m.bank.supply token := by
    have hle := m.bank.sum_balance_le_supply token (insert dao H)
    rw [Finset.sum_insert hmem] at hle
    exact_mod_cast hle
  have hcustody := hc.sum_custody_le H
  calc p.cast = ∑ a ∈ H, (m.store.own pid a + m.store.lent pid a) := hcast
    _ ≤ ∑ a ∈ H, ((m.bank.balance token a : ℤ) + m.store.custody a) :=
        Finset.sum_le_sum fun a ha => h.covered a (hothers a ha) pid hopen
    _ = ∑ a ∈ H, (m.bank.balance token a : ℤ) +
        ∑ a ∈ H, m.store.custody a := Finset.sum_add_distrib
    _ ≤ m.bank.supply token := by omega

/-! ## Changes that count nobody -/

theorem Backed.unmoved (h : Backed token dao now m) (hm : Numbered m.store)
    (ht : Tallied m.store) (hc : Custody token dao m)
    (hrecord : m'.store.voteRecord = m.store.voteRecord)
    (huses : m'.store.uses = m.store.uses)
    (hlocks : m'.store.lockedBalance = m.store.lockedBalance)
    (hnext : m.store.nextProposalId ≤ m'.store.nextProposalId)
    (hopen : ∀ pid, m'.store.Undecided now pid →
      m.store.Undecided now pid ∨ m.store.proposal pid = none)
    (hcovered : ∀ a, a ≠ dao →
      m.store.Covers now a (m'.bank.balance token a)) :
    Backed token dao now m' := by
  have hcustody : ∀ a, m'.store.custody a = m.store.custody a := by
    intro a
    refine custody_congr hlocks hnext fun q hq => ?_
    refine h.unlocked q a (ht.unopened q a ?_)
    cases hp : m.store.proposal q with
    | none => rfl
    | some p =>
        have hlt := (hm.stored q p hp).2
        omega
  constructor
  case own_le =>
    intro pid a hundecided ha
    rw [own_congr hrecord huses, hcustody]
    rcases hopen pid hundecided with hundecided | hnone
    · exact h.own_le pid a hundecided ha
    · rw [(ht.uncounted hnone a).1]
      exact hc.custody_nonneg a
  case covered =>
    intro a ha pid hundecided
    rw [own_congr hrecord huses, lent_congr huses, hcustody]
    rcases hopen pid hundecided with hundecided | hnone
    · exact hcovered a ha pid hundecided
    · rw [(ht.uncounted hnone a).1, (ht.uncounted hnone a).2]
      have hnonneg := hc.custody_nonneg a
      omega
  case unlocked =>
    rw [hrecord, hlocks]
    exact h.unlocked
  case unvoted =>
    rw [hrecord]
    exact h.unvoted
  case unlent =>
    rw [huses]
    exact h.unlent

/-- What comes out of custody is not counted on an undecided proposal. -/
theorem Withdrawn.backed (h : Withdrawn env voter pid m m')
    (hb : Backed token env.self env.now m) (hm : Numbered m.store)
    (hc : Custody token env.self m)
    (hfree : ∀ q, m.store.Undecided env.now q →
      m.store.own q voter + m.store.lockedBalance (pid, voter) ≤
        m.store.custody voter)
    (hself : env.self ∉ env.signers) : Backed token env.self env.now m' := by
  have hvoter : voter ≠ env.self := fun heq => hself (heq ▸ h.signed)
  obtain ⟨p, hp, -⟩ := h.inactive
  obtain ⟨config, B, hconfig, hB, heq⟩ := h.change
  obtain rfl := hc.same_token config hconfig
  have hrecord : m'.store.voteRecord = m.store.voteRecord := by rw [heq]
  have huses : m'.store.uses = m.store.uses := by
    rw [heq]
    exact uses_of_silent [.tokensWithdrawn pid voter _] rfl (by simp [Event.use])
  have hproposal : m'.store.proposal = m.store.proposal := by rw [heq]
  have hlocks : m'.store.lockedBalance =
      Function.update m.store.lockedBalance (pid, voter) 0 := by rw [heq]
  have hcustody : ∀ a, m'.store.custody a = m.store.custody a +
      if a = voter then -m.store.lockedBalance (pid, voter) else 0 := by
    intro a
    refine custody_add (by rw [heq]) (hm.stored pid p hp).2 fun q => ?_
    rw [hlocks, Function.update_apply]
    by_cases hkey : (q, a) = (pid, voter)
    · obtain ⟨rfl, rfl⟩ := Prod.mk.inj hkey
      simp
    · rw [if_neg hkey]
      by_cases hq : q = pid
      · have ha : a ≠ voter := fun ha => hkey (by rw [hq, ha])
        simp [ha]
      · simp [hq]
  have hbank : m'.bank = B := by rw [heq]
  constructor
  case own_le =>
    intro q a hopen ha
    rw [State.Undecided, hproposal] at hopen
    rw [own_congr hrecord huses, hcustody]
    by_cases hav : a = voter
    · have hfree' := hfree q hopen
      rw [hav, if_pos rfl]
      omega
    · rw [if_neg hav, Int.add_zero]
      exact hb.own_le q a hopen ha
  case covered =>
    intro a ha q hopen
    rw [State.Undecided, hproposal] at hopen
    have hcovered := hb.covered a ha q hopen
    rw [own_congr hrecord huses, lent_congr huses, hcustody, hbank]
    by_cases hav : a = voter
    · have hpaid := Bank.transfer_balance_recipient hB (Ne.symm hvoter)
      rw [hav] at hcovered ⊢
      rw [if_pos rfl]
      omega
    · have hsame : B.balance config.govToken a =
          m.bank.balance config.govToken a :=
        Bank.transfer_balance_of_ne hB (.inr ⟨ha, hav⟩)
      rw [if_neg hav, hsame]
      omega
  case unlocked =>
    intro q a hnone
    rw [hrecord] at hnone
    rw [hlocks, Function.update_apply, hb.unlocked q a hnone, ite_self]
  case unvoted =>
    rw [hrecord]
    exact hb.unvoted
  case unlent =>
    rw [huses]
    exact hb.unlent

/-! ## Votes -/

/-- The first ballot puts `lock` tokens of the voter into custody. -/
theorem Voted.custody_eq (h : Voted env voter choice ballots m m')
    (hm : Numbered m.store)
    (hunlocked : ∀ pid a, m.store.voteRecord (pid, a) = none →
      m.store.lockedBalance (pid, a) = 0) {config : DaoConfig}
    (hconfig : m.store.config = some config) (a : Address) :
    m'.store.custody a = m.store.custody a + if a = voter then
      config.capped (m.bank.balance config.govToken voter) else 0 := by
  obtain ⟨config', lock, B, _, s, hconfig', -, hlock, -, -, hballots, rfl⟩ :=
    h.change
  obtain rfl := Option.some.inj (hconfig'.symm.trans hconfig)
  subst hlock
  obtain ⟨b, rest, rfl⟩ := List.exists_cons_of_ne_nil h.nonempty
  have hfresh : ∀ b' ∈ b :: rest, m.store.lockedBalance (b'.1, voter) = 0 :=
    fun b' hb' => hunlocked b'.1 voter (h.eligible b' hb').unvoted
  have hfirst := (h.eligible b List.mem_cons_self).stored
  refine custody_add (by rw [hballots.upToVotes.eq]) (hm.stored b.1 b.2 hfirst).2
    fun q => ?_
  by_cases hkey : q ∈ (b :: rest).map Prod.fst ∧ a = voter
  · obtain ⟨hmem, rfl⟩ := hkey
    rw [if_pos rfl]
    obtain ⟨b', hb', rfl⟩ := List.mem_map.mp hmem
    rw [hfresh b' hb', Int.zero_add]
    rcases List.mem_cons.mp hb' with rfl | hb'
    · rw [if_pos rfl]
      exact hballots.lockedBalance_head h.distinct
    · have hne : b'.1 ≠ b.1 := by
        have hnodup := h.distinct
        rw [List.map_cons, List.nodup_cons] at hnodup
        exact fun heq => hnodup.1 (List.mem_map.mpr ⟨b', hb', heq⟩)
      rw [if_neg hne]
      exact hballots.lockedBalance_tail h.distinct b' hb'
  · rw [hballots.lockedBalance_of_ne fun hmem heq => hkey ⟨hmem, heq⟩]
    by_cases hq : q = b.1
    · have ha : a ≠ voter := fun ha => hkey ⟨hq ▸ List.mem_cons_self, ha⟩
      simp [ha]
    · simp [hq]

/-- A vote opens no proposal. -/
theorem Voted.undecided (h : Voted env voter choice ballots m m')
    (hopen : m'.store.Undecided env.now pid) :
    m.store.Undecided env.now pid := by
  obtain ⟨_, _, _, _, s, -, -, -, -, -, hballots, rfl⟩ := h.change
  obtain ⟨p, hp, hopen, hend⟩ := hopen
  by_cases hmem : pid ∈ ballots.map Prod.fst
  · obtain ⟨b, hb, rfl⟩ := List.mem_map.mp hmem
    have heligible := h.eligible b hb
    exact ⟨b.2, heligible.stored, .inl heligible.active, heligible.voting⟩
  · have hsame : s.proposal pid = m.store.proposal pid :=
      hballots.proposal_of_notMem hmem
    exact ⟨p, hsame.symm.trans hp, hopen, hend⟩

/-- A delegator is counted once on a proposal, for what it holds at most. -/
theorem Voted.lends (h : Voted env voter choice ballots m m')
    (ht : Tallied m.store) (hd : Delegations env.self m.store)
    (hw : m.store.Weighs) {config : DaoConfig}
    (hconfig : m.store.config = some config) :
    ∃ us : List Use, m'.store.uses = m.store.uses ++ us ∧
      (m'.store.uses.map fun u => (u.proposalId, u.delegator)).Nodup ∧
      ∀ u ∈ us, (u.proposalId ∈ ballots.map Prod.fst ∧ u.delegate = voter) ∧
        u.delegator ∈ m.store.delegators voter ∧ 0 ≤ u.weight ∧
        u.weight ≤ m.bank.balance config.govToken u.delegator := by
  obtain ⟨htallied, -⟩ := h.tallied ht
  obtain ⟨config', _, B, Bc, s, hconfig', -, -, hB, hBc, hballots, rfl⟩ :=
    h.change
  obtain rfl := Option.some.inj (hconfig'.symm.trans hconfig)
  obtain ⟨us, huses, hus⟩ := hballots.uses
  refine ⟨us, huses, htallied.once, fun u hu => ⟨hus u hu, ?_⟩⟩
  have hmem : u ∈ s.uses := huses ▸ List.mem_append_right _ hu
  rcases hballots.lent_bounds hw u hmem with hold | ⟨hdelegator, hbounds⟩
  · have hkeys : ((m.store.uses ++ us).map
        fun u => (u.proposalId, u.delegator)).Nodup := huses ▸ htallied.once
    rw [List.map_append, List.nodup_append] at hkeys
    exact absurd rfl (hkeys.2.2 _ (List.mem_map_of_mem hold) _
      (List.mem_map_of_mem hu))
  · rw [hd.delegator_balance hB hBc hdelegator] at hbounds
    exact ⟨hdelegator, hbounds⟩

/-- What the voter pays in, it has in custody. -/
theorem Voted.held (h : Voted env voter choice ballots m m')
    (hself : env.self ∉ env.signers) (hm : Numbered m.store)
    (hunlocked : ∀ pid a, m.store.voteRecord (pid, a) = none →
      m.store.lockedBalance (pid, a) = 0) {config : DaoConfig}
    (hconfig : m.store.config = some config) (a : Address) :
    m.store.custody a ≤ m'.store.custody a ∧
      m.bank.balance config.govToken a + m.store.custody a ≤
        m'.bank.balance config.govToken a + m'.store.custody a := by
  have hvoter : voter ≠ env.self := fun heq => hself (heq ▸ h.signed)
  have hsum := h.custody_eq hm hunlocked hconfig a
  obtain ⟨config', lock, B, _, _, hconfig', hpos, hlock, hB, -, -, heq⟩ :=
    h.change
  obtain rfl := Option.some.inj (hconfig'.symm.trans hconfig)
  have hnonneg : 0 ≤ lock := hlock ▸ (config'.capped_pos hpos).le
  have hbank : m'.bank = B := by rw [heq]
  rw [← hlock] at hsum
  rw [hbank]
  by_cases ha : a = voter
  · rw [if_pos ha] at hsum
    have hpaid := Bank.transfer_balance_sender hB hvoter
    rw [ha] at hsum ⊢
    omega
  · rw [if_neg ha] at hsum
    have hkept := Bank.balance_le_transfer hB ha config'.govToken
    omega

/-- The own weight of a new record is in custody, all other own weight
stays. -/
theorem Voted.owned (h : Voted env voter choice ballots m m')
    (ht : Tallied m.store) (hd : Delegations env.self m.store)
    (hw : m.store.Weighs) {config : DaoConfig}
    (hconfig : m.store.config = some config) (pid : ℕ) (a : Address) :
    m'.store.own pid a = m.store.own pid a ∨
      (pid ∈ ballots.map Prod.fst ∧ a = voter) ∧ m'.store.own pid a ≤
        config.capped (m.bank.balance config.govToken voter) := by
  obtain ⟨us, huses, -, hus⟩ := h.lends ht hd hw hconfig
  obtain ⟨-, config', hconfig', hrecords⟩ := h.tallied ht
  obtain rfl := Option.some.inj (hconfig'.symm.trans hconfig)
  obtain ⟨config, lock, _, _, _, hconfig', hpos, hlock, -, -, hballots, rfl⟩ :=
    h.change
  obtain rfl := Option.some.inj (hconfig'.symm.trans hconfig)
  have hbounds : 0 ≤ m.store.timeWeighted env.now voter lock ∧
      m.store.timeWeighted env.now voter lock ≤ lock :=
    hw.bounds (hlock ▸ (config.capped_pos hpos).le)
  rw [← hlock] at hrecords ⊢
  by_cases hkey : pid ∈ ballots.map Prod.fst ∧ a = voter
  · refine .inr ⟨hkey, ?_⟩
    obtain ⟨hmem, rfl⟩ := hkey
    obtain ⟨b, hb, rfl⟩ := List.mem_map.mp hmem
    refine ((hrecords b hb).own_le hbounds.1 fun y hy => ?_).trans hbounds.2
    obtain ⟨u, hu, rfl⟩ := List.mem_map.mp hy
    obtain ⟨hu, hballot⟩ := List.mem_filter.mp hu
    obtain ⟨hpid, hdelegate⟩ := of_decide_eq_true hballot
    rw [huses, List.mem_append] at hu
    rcases hu with hold | hu
    · have hvoted := ht.recorded u hold
      rw [hpid, hdelegate] at hvoted
      exact absurd (h.eligible b hb).unvoted hvoted
    · exact (hus u hu).2.2.1
  · refine .inl (own_append huses ?_ fun u hu hballot => ?_)
    · exact hballots.voteRecord_of_ne fun hmem ha => hkey ⟨hmem, ha⟩
    · obtain ⟨⟨hmem, hdelegate⟩, -⟩ := hus u hu
      exact hkey ⟨hballot.1 ▸ hmem, hballot.2.symm.trans hdelegate⟩

/-- A voter on `pid` was not counted there before. -/
theorem Voted.lent_eq_zero (h : Voted env voter choice ballots m m')
    (ht : Tallied m.store) (hmem : pid ∈ ballots.map Prod.fst) :
    m.store.lent pid voter = 0 := by
  refine GovernanceDao.lent_eq_zero ?_
  rintro u hu ⟨rfl, rfl⟩
  obtain ⟨b, hb, heq⟩ := List.mem_map.mp hmem
  have hfree := (h.eligible b hb).uncounted
  rw [heq, ht.marked u hu] at hfree
  cases hfree

/-- A vote counts what it puts into custody and what the delegators hold. -/
theorem Voted.backed (h : Voted env voter choice ballots m m')
    (hself : env.self ∉ env.signers) (hb : Backed token env.self env.now m)
    (hm : Numbered m.store) (ht : Tallied m.store)
    (hc : Custody token env.self m) (hd : Delegations env.self m.store)
    (hw : m.store.Weighs) : Backed token env.self env.now m' := by
  have hvoter : voter ≠ env.self := fun heq => hself (heq ▸ h.signed)
  obtain ⟨-, config, hconfig, hrecords⟩ := h.tallied ht
  obtain rfl := hc.same_token config hconfig
  have hcustody := h.custody_eq hm hb.unlocked hconfig
  have hheld := h.held hself hm hb.unlocked hconfig
  have howned := h.owned ht hd hw hconfig
  obtain ⟨us, huses, honce, hus⟩ := h.lends ht hd hw hconfig
  obtain ⟨_, _, _, _, s, -, -, -, -, -, hballots, heq⟩ := h.change
  have hstore : m'.store = s := by rw [heq]
  constructor
  case own_le =>
    intro pid a hopen ha
    have hsum := hcustody a
    rcases howned pid a with hsame | ⟨⟨-, rfl⟩, hle⟩
    · have hle := hb.own_le pid a (h.undecided hopen) ha
      exact hsame.le.trans (hle.trans (hheld a).1)
    · rw [if_pos rfl] at hsum
      have hcustody₀ := hc.custody_nonneg a
      omega
  case covered =>
    intro a ha pid hopen
    have hopen := h.undecided hopen
    have hcovered := hb.covered a ha pid hopen
    have hcustody₀ := hc.custody_nonneg a
    have hkept := (hheld a).2
    have hlent := lent_append huses honce pid a
    rcases howned pid a with hsame | ⟨⟨hmem, rfl⟩, hle⟩
    · rcases hlent with hlent | ⟨u, hu, -, rfl, hlent⟩
      · omega
      · have hown := hb.own_le pid u.delegator hopen ha
        have hweight := (hus u hu).2.2.2
        omega
    · have hsum := hcustody a
      rw [if_pos rfl] at hsum
      have hzero : m'.store.lent pid a = 0 := by
        rcases hlent with hlent | ⟨u, hu, -, rfl, -⟩
        · exact hlent.trans (h.lent_eq_zero ht hmem)
        · exact absurd rfl (hd.delegator_ne (hus u hu).2.1).1
      omega
  case unlocked =>
    intro pid a hnone
    have hother : pid ∈ ballots.map Prod.fst → a ≠ voter := by
      rintro hmem rfl
      obtain ⟨b, hb', rfl⟩ := List.mem_map.mp hmem
      have hrecord := hrecords b hb'
      rw [State.Records, hnone] at hrecord
      cases hrecord
    rw [hstore, hballots.voteRecord_of_ne hother] at hnone
    rw [hstore, hballots.lockedBalance_of_ne hother]
    exact hb.unlocked pid a hnone
  case unvoted =>
    intro pid
    rw [hstore, hballots.voteRecord_of_ne fun _ => Ne.symm hvoter]
    exact hb.unvoted pid
  case unlent =>
    intro u hu
    rw [huses, List.mem_append] at hu
    rcases hu with hu | hu
    · exact hb.unlent u hu
    · exact (hd.delegator_ne (hus u hu).2.1).2

/-! ## Movements of tokens -/

/-- What one change does to the tokens. -/
inductive Moves (env : Env) (e : Entry) (m m' : Machine State) : Prop
  | nothing : m'.bank = m.bank → Moves env e m m'
  | paid {config : DaoConfig} {recipient : Address} {amount : ℤ} :
      m.store.config = some config →
      m.bank.transfer config.govToken env.self recipient amount =
        some m'.bank →
      Moves env e m m'
  | deposited {o : Opening} {config : DaoConfig} :
      e.opening env = some o → m.store.config = some config →
      m.bank.transfer config.govToken o.proposer env.self
        (o.proposal env m.store config).deposit = some m'.bank →
      Moves env e m m'
  | locked {voter : Address} {choice : VoteChoice}
      {ballots : List (ℕ × Proposal)} {config : DaoConfig} {amount : ℤ} :
      e.voting = some (voter, ballots.map Prod.fst, choice) →
      Voted env voter choice ballots m m' → m.store.config = some config →
      m.bank.transfer config.govToken voter env.self amount = some m'.bank →
      Moves env e m m'
  | executed {handles : Handles} {outcome : Outcome} {pid : ℕ}
      {result : Option ℕ} :
      e = .execute handles outcome pid →
      outcome m.bank = some (m'.bank, result) → Moves env e m m'
  | refunded {handles : Handles} {outcome : Outcome} {pid : ℕ}
      {result : Option ℕ} {config : DaoConfig} {recipient : Address}
      {amount : ℤ} {B : Bank} :
      e = .execute handles outcome pid → outcome m.bank = some (B, result) →
      m.store.config = some config →
      B.transfer config.govToken env.self recipient amount = some m'.bank →
      Moves env e m m'

theorem Change.moves (h : Change env e m m') : Moves env e m m' := by
  cases h with
  | aside _ _ hbank => exact .nothing hbank
  | initialized h =>
      obtain ⟨-, _, _, -, -, rfl⟩ := h
      exact .nothing rfl
  | configured h =>
      obtain ⟨-, _, -, rfl⟩ := h
      exact .nothing rfl
  | opened ho h =>
      obtain ⟨config, B, hconfig, hB, rfl⟩ := h.change
      exact .deposited ho hconfig hB
  | delegated _ _ _ heq => exact .nothing (by rw [heq])
  | revoked _ _ _ heq => exact .nothing (by rw [heq])
  | voted he h =>
      obtain ⟨config, _, B, _, _, hconfig, -, -, hB, -, -, heq⟩ := h.change
      have hbank : m'.bank = B := by rw [heq]
      exact .locked he h hconfig (hbank ▸ hB)
  | withdrawn _ h =>
      obtain ⟨config, B, hconfig, hB, rfl⟩ := h.change
      exact .paid hconfig hB
  | passed _ h =>
      obtain ⟨_, _, _, -, -, -, -, -, rfl⟩ := h
      exact .nothing rfl
  | refunded _ h =>
      obtain ⟨_, config, _, _, B, -, -, -, hconfig, -, hB, rfl⟩ := h.change
      exact .paid hconfig hB
  | started _ h =>
      obtain ⟨_, _, -, -, -, -, -, rfl⟩ := h
      exact .nothing rfl
  | lapsed _ h =>
      obtain ⟨_, -, -, rfl⟩ := h
      exact .nothing rfl
  | executed he h =>
      obtain ⟨_, result, _, B₁, B, -, -, -, houtcome, -, -, hrefund, rfl⟩ := h
      rcases hrefund with ⟨-, config, hconfig, hB⟩ | ⟨-, rfl⟩
      · exact .refunded he houtcome hconfig hB
      · exact .executed he houtcome
  | vetoed _ h =>
      obtain ⟨_, _, -, -, -, rfl⟩ := h.change
      exact .nothing rfl

/-- The call leaves the tokens where they are counted: a deposit comes out of
what the proposer has beyond them, the target of an execution takes nobody's
tokens, and a withdrawal leaves what the votes of the voter on undecided
proposals carry. -/
def Entry.Rests (token : Address) (env : Env) (m : Machine State) :
    Entry → Prop
  | .withdrawTokens voter pid => ∀ q, m.store.Undecided env.now q →
      m.store.own q voter + m.store.lockedBalance (pid, voter) ≤
        m.store.custody voter
  | .execute _ outcome _ => ∀ B result, outcome m.bank = some (B, result) →
      B.supply token = m.bank.supply token ∧
        ∀ a, m.bank.balance token a ≤ B.balance token a
  | e => ∀ o config, e.opening env = some o →
      m.store.config = some config →
      m.store.Covers env.now o.proposer (m.bank.balance token o.proposer -
        (o.proposal env m.store config).deposit)

theorem Entry.Rests.opening (h : e.Rests token env m) {o : Opening}
    {config : DaoConfig} (ho : e.opening env = some o)
    (hconfig : m.store.config = some config) :
    m.store.Covers env.now o.proposer (m.bank.balance token o.proposer -
      (o.proposal env m.store config).deposit) := by
  cases e with
  | withdrawTokens => cases ho
  | execute => cases ho
  | _ => exact h o config ho hconfig

theorem Moves.supply (h : Moves env e m m') (hrests : e.Rests token env m) :
    m'.bank.supply token = m.bank.supply token := by
  cases h with
  | nothing hbank => rw [hbank]
  | paid _ hB => exact Bank.transfer_supply hB token
  | deposited _ _ hB => exact Bank.transfer_supply hB token
  | locked _ _ _ hB => exact Bank.transfer_supply hB token
  | executed he houtcome =>
      subst he
      exact (hrests _ _ houtcome).1
  | refunded he houtcome _ hB =>
      subst he
      exact (Bank.transfer_supply hB token).trans (hrests _ _ houtcome).1

/-- Without a vote, everybody keeps the tokens that are counted of it. -/
theorem Moves.covers (h : Moves env e m m') (hrests : e.Rests token env m)
    (hb : Backed token env.self env.now m) (hc : Custody token env.self m)
    (hsilent : ¬ ∃ voter choice ballots,
      e.voting = some (voter, ballots.map Prod.fst, choice) ∧
        Voted env voter choice ballots m m') (ha : a ≠ env.self) :
    m.store.Covers env.now a (m'.bank.balance token a) := by
  have hcovered := hb.covered a ha
  cases h with
  | nothing hbank =>
      rw [hbank]
      exact hcovered
  | paid _ hB =>
      refine hcovered.mono ?_
      exact_mod_cast Bank.balance_le_transfer hB ha token
  | @deposited o config ho hconfig hB =>
      obtain rfl := hc.same_token config hconfig
      by_cases hproposer : a = o.proposer
      · rw [hproposer]
        refine (hrests.opening ho hconfig).mono ?_
        exact Bank.balance_sub_le_transfer hB
      · refine hcovered.mono ?_
        exact_mod_cast Bank.balance_le_transfer hB hproposer config.govToken
  | locked he hvoted => exact absurd ⟨_, _, _, he, hvoted⟩ hsilent
  | executed he houtcome =>
      subst he
      refine hcovered.mono ?_
      exact_mod_cast (hrests _ _ houtcome).2 a
  | refunded he houtcome _ hB =>
      subst he
      refine hcovered.mono ?_
      have hspared := (hrests _ _ houtcome).2 a
      have hpaid := Bank.balance_le_transfer hB ha token
      omega

/-! ## Every change -/

theorem Proposal.Move.isOpen (h : p.Move p') (hopen : p'.status.IsOpen) :
    p.status.IsOpen := by
  cases h with
  | counted _ _ hactive => exact .inl hactive
  | vetoed => exact hopen
  | started hdiscussed => exact .inr hdiscussed
  | passed _ hactive => exact .inl hactive
  | refunded _ hstatus => exact hstatus
  | lapsed => rcases hopen with hopen | hopen <;> cases hopen
  | executed => rcases hopen with hopen | hopen <;> cases hopen

theorem Change.undecided (h : Change env e m m') (hm : Numbered m.store)
    (hopen : m'.store.Undecided now pid) :
    m.store.Undecided now pid ∨ m.store.proposal pid = none := by
  obtain ⟨p', hp', hstatus, hend⟩ := hopen
  cases hp : m.store.proposal pid with
  | none => exact .inr rfl
  | some p =>
      refine .inl ⟨p, hp, ?_⟩
      rcases h.move hm hp with hsame | ⟨q, hq, hmove⟩
      · obtain rfl := Option.some.inj (hsame.symm.trans hp')
        exact ⟨hstatus, hend⟩
      · obtain rfl := Option.some.inj (hq.symm.trans hp')
        exact ⟨hmove.isOpen hstatus, hmove.sameTerms.voteEnd ▸ hend⟩

theorem Change.next_le (h : Change env e m m') (hm : Numbered m.store) :
    m.store.nextProposalId ≤ m'.store.nextProposalId := by
  rcases h.counter with hcounted | ⟨hfresh, -⟩
  · rcases hcounted.counter with heq | ⟨heq, -⟩ <;> omega
  · rw [(hm.unset hfresh).2.2]
    exact Nat.zero_le _

theorem Change.backed (h : Change env e m m') (hself : env.self ∉ env.signers)
    (hrests : e.Rests token env m) (hb : Backed token env.self env.now m)
    (hm : Numbered m.store) (ht : Tallied m.store)
    (hc : Custody token env.self m) (hd : Delegations env.self m.store)
    (hw : m.store.Weighs) : Backed token env.self env.now m' := by
  by_cases hvoted : ∃ voter choice ballots,
      e.voting = some (voter, ballots.map Prod.fst, choice) ∧
        Voted env voter choice ballots m m'
  · obtain ⟨voter, choice, ballots, -, hvoted⟩ := hvoted
    exact hvoted.backed hself hb hm ht hc hd hw
  by_cases hwithdrawn : ∃ voter pid, e = .withdrawTokens voter pid ∧
      Withdrawn env voter pid m m'
  · obtain ⟨voter, pid, rfl, hwithdrawn⟩ := hwithdrawn
    exact hwithdrawn.backed hb hm hc hrests hself
  have hlocks : m'.store.lockedBalance = m.store.lockedBalance := by
    rcases h.locks with hlocks | hcase | hcase
    · exact hlocks
    · exact absurd hcase hvoted
    · exact absurd hcase hwithdrawn
  have hrecords : m'.store.voteRecord = m.store.voteRecord ∧
      m'.store.uses = m.store.uses := by
    rcases h.tally with hsame | ⟨o, -, hopened⟩ | hcase
    · exact ⟨hsame.voteRecord, hsame.uses⟩
    · obtain ⟨config, B, -, -, rfl⟩ := hopened.change
      exact ⟨rfl, uses_of_silent [.proposalCreated _ _ _ _] rfl
        (by simp [Event.use])⟩
    · exact absurd hcase hvoted
  refine hb.unmoved hm ht hc hrecords.1 hrecords.2 hlocks (h.next_le hm)
    (fun pid hopen => h.undecided hm hopen) fun a ha => ?_
  exact h.moves.covers hrests hb hc hvoted ha

/-! ## Calls -/

/-- All that the bound on the votes rests on. -/
structure Accounted (token dao : Address) (now : ℕ) (m : Machine State) :
    Prop where
  numbered : Numbered m.store
  tallied : Tallied m.store
  custody : Custody token dao m
  delegations : Delegations dao m.store
  weighs : m.store.Weighs
  backed : Backed token dao now m

/-- A batch settles proposals one after the other; any other call makes one
change. -/
theorem exec_backed {u : Unit} (h : exec env e m = .ok (u, m'))
    (hself : env.self ∉ env.signers) (hstandard : e.Standard token env.self)
    (hrests : e.Rests token env m) (hm : Accounted token env.self env.now m) :
    Backed token env.self env.now m' ∧
      m'.bank.supply token = m.bank.supply token := by
  by_cases he : ∃ handles ids, e = .finalizeBatch handles ids
  · obtain ⟨handles, ids, rfl⟩ := he
    have hbatch := changes_keep
      (I := fun t => Accounted token env.self env.now t ∧
        t.bank.supply token = m.bank.supply token) ?_ (exec_changes h) ⟨hm, rfl⟩
    · exact ⟨hbatch.1.backed, hbatch.2⟩
    · rintro t t' hchange ⟨ht, hsupply⟩
      have hidle : (Entry.finalizeBatch handles ids).Rests token env t := by
        rintro o config ⟨⟩
      refine ⟨⟨hchange.numbered ht.numbered,
        hchange.tallied ht.numbered ht.tallied,
        hchange.custody hself hstandard ht.numbered ht.custody,
        ⟨hchange.graph ht.delegations.graph,
          hchange.self_undelegated hself ht.delegations.self_undelegated⟩,
        ht.weighs.congr (hchange.sameSettings id).toSameWeighing,
        hchange.backed hself hidle ht.backed ht.numbered ht.tallied ht.custody
          ht.delegations ht.weighs⟩, ?_⟩
      exact (hchange.moves.supply hidle).trans hsupply
  · push Not at he
    cases exec_single h he with
    | refl => exact ⟨hm.backed, rfl⟩
    | single hchange =>
        exact ⟨hchange.backed hself hrests hm.backed hm.numbered hm.tallied
          hm.custody hm.delegations hm.weighs, hchange.moves.supply hrests⟩

/-! ## Runs -/

/-- The step leaves tokens that are counted where they are, and makes none. -/
def KeepsCounted (token dao : Address) (w : World State) : Label Entry → Prop
  | .call signers e => e.Rests token (callEnv dao w signers) w.machine
  | .tick _ => True
  | .transfer t sender recipient amount => t = token → sender ≠ recipient →
      w.machine.store.Covers w.now sender
        (w.machine.bank.balance token sender - amount)
  | .mint t _ _ => t ≠ token

theorem Backed.transfer {t sender recipient : Address} {amount : ℤ}
    (h : Backed token dao now m)
    (hB : m.bank.transfer t sender recipient amount = some B)
    (hkeeps : t = token → sender ≠ recipient →
      m.store.Covers now sender (m.bank.balance token sender - amount)) :
    Backed token dao now { m with bank := B } := by
  refine { h with covered := fun a ha => ?_ }
  have hcovered := h.covered a ha
  show m.store.Covers now a (B.balance token a)
  by_cases ht : t = token
  · subst ht
    by_cases hself : sender = recipient
    · subst hself
      rw [Bank.transfer_balance_self hB]
      exact hcovered
    · by_cases hsender : a = sender
      · rw [hsender]
        exact (hkeeps rfl hself).mono (Bank.balance_sub_le_transfer hB)
      · refine hcovered.mono ?_
        exact_mod_cast Bank.balance_le_transfer hB hsender t
  · rw [Bank.transfer_balance_of_ne hB (.inl (Ne.symm ht))]
    exact hcovered

theorem step_backed {l : Label Entry} (hkeeps : KeepsCounted token dao w l)
    (hstandard : Standard token dao l) (hstep : (system dao).Step w l w')
    (hw : Accounted token dao w.now w.machine) :
    Backed token dao w'.now w'.machine ∧
      w'.machine.bank.supply token = w.machine.bank.supply token := by
  cases hstep with
  | @call signers e m' hself hexec =>
      exact exec_backed hexec hself hstandard hkeeps hw
  | tick => exact ⟨hw.backed.later (Nat.le_add_right _ _), rfl⟩
  | transfer _ hB =>
      exact ⟨hw.backed.transfer hB hkeeps, Bank.transfer_supply hB token⟩
  | @mint t holder amount =>
      have hne : token ≠ t := Ne.symm hkeeps
      have hledger : (w.machine.bank.mint t holder amount).ledger token =
          w.machine.bank.ledger token :=
        Function.update_of_ne hne _ _
      refine ⟨{ hw.backed with covered := fun a ha => ?_ }, ?_⟩
      · show w.machine.store.Covers w.now a
          ((w.machine.bank.mint t holder amount).balance token a)
        rw [Bank.balance, hledger]
        exact hw.backed.covered a ha
      · show (w.machine.bank.mint t holder amount).supply token = _
        rw [Bank.supply, hledger, Bank.supply]

/-- The DAO of a token that stays the same, in runs that leave counted tokens
where they are. -/
def prudent (token dao : Address) : TransitionSystem (World State) (Label Entry) :=
  ((system dao).restrict fun _ l => Standard token dao l).restrict
    (KeepsCounted token dao)

theorem accounted_inductive (token dao : Address) :
    (prudent token dao).Inductive fun w =>
      Accounted token dao w.now w.machine where
  init w hw := by
    have hstore : w.machine.store = .deployed := hw.1
    have hcustody := (custody_inductive token dao).init w hw
    have htallied := (tallied_inductive dao).init w hw
    refine ⟨htallied.1, htallied.2, hcustody.2,
      (delegations_inductive dao).init w hw, (weighs_inductive dao).init w hw,
      ?_⟩
    have hnone : ∀ pid, ¬ w.machine.store.Undecided w.now pid := by
      rw [hstore]
      rintro pid ⟨p, hp, -⟩
      cases hp
    constructor
    case own_le => exact fun pid a hopen => absurd hopen (hnone pid)
    case covered => exact fun a _ pid hopen => absurd hopen (hnone pid)
    all_goals rw [hstore]
    case unlocked => exact fun _ _ _ => rfl
    case unvoted => exact fun _ => rfl
    case unlent =>
      intro u hu
      cases hu
  step := by
    rintro w l w' hw ⟨hkeeps, hstandard, hstep⟩
    have hcustody := (custody_inductive token dao).step w l w'
      ⟨hw.numbered, hw.custody⟩ ⟨hstandard, hstep⟩
    have htallied := (tallied_inductive dao).step w l w'
      ⟨hw.numbered, hw.tallied⟩ hstep
    exact ⟨htallied.1, htallied.2, hcustody.2,
      (delegations_inductive dao).step w l w' hw.delegations hstep,
      (weighs_inductive dao).step w l w' hw.weighs hstep,
      (step_backed hkeeps hstandard hstep hw).1⟩

/-- Votes that a step adds are backed, and the others are bounded already. -/
theorem step_cast_le {l : Label Entry} {bound : ℤ}
    (hstep : (system dao).Step w l w')
    (hw : Accounted token dao w.now w.machine)
    (hw' : Accounted token dao w'.now w'.machine)
    (hsupply : (w'.machine.bank.supply token : ℤ) = bound)
    (h : ∀ pid p, w.machine.store.proposal pid = some p → p.cast ≤ bound)
    (hp' : w'.machine.store.proposal pid = some p') : p'.cast ≤ bound := by
  have hnonneg : 0 ≤ bound := hsupply ▸ Int.natCast_nonneg _
  cases hstep with
  | tick => exact h pid p' hp'
  | transfer => exact h pid p' hp'
  | mint => exact h pid p' hp'
  | @call signers e m' hself hexec =>
      cases hp : w.machine.store.proposal pid with
      | none =>
          obtain ⟨o, config, -, -, rfl⟩ := exec_created hexec hp hp'
          exact hnonneg
      | some p =>
          rcases exec_records hexec hw.numbered with ⟨-, hvotes⟩ |
              ⟨voter, choice, ballots, -, hvoted⟩
          · obtain ⟨q, hq, hsame⟩ := hvotes pid p hp
            obtain rfl := Option.some.inj (hq.symm.trans hp')
            rw [Proposal.cast_congr hsame]
            exact h pid p hp
          · by_cases hmem : pid ∈ ballots.map Prod.fst
            · obtain ⟨b, hb, rfl⟩ := List.mem_map.mp hmem
              have heligible := hvoted.eligible b hb
              obtain ⟨_, _, _, _, _, -, -, -, -, -, hballots, heq⟩ :=
                hvoted.change
              obtain ⟨weight, -, hcounted⟩ :=
                hballots.proposal_of_mem hvoted.distinct hb
              have hstored : m'.store.proposal b.1 =
                  some (b.2.setVotes choice (b.2.votes choice + weight)) := by
                rw [heq]
                exact hcounted
              have hmove : b.2.SameTerms
                  (b.2.setVotes choice (b.2.votes choice + weight)) := by
                cases choice <;>
                  exact ⟨rfl, rfl, rfl, rfl, rfl, rfl, rfl, rfl, rfl, rfl, rfl⟩
              have hopen : m'.store.Undecided w.now b.1 := by
                refine ⟨_, hstored, .inl ?_, ?_⟩
                · rw [Proposal.setVotes_status]
                  exact heligible.active
                · rw [hmove.voteEnd]
                  exact heligible.voting
              rw [← hsupply]
              exact hw'.backed.cast_le hw'.tallied hw'.custody hopen hp'
            · obtain ⟨_, _, _, _, _, -, -, -, -, -, hballots, heq⟩ :=
                hvoted.change
              refine h pid p' ?_
              rw [← hballots.proposal_of_notMem hmem]
              rw [heq] at hp'
              exact hp'

/-- In runs that leave counted tokens where they are, no proposal ever has more
votes than there were tokens at the start, and on every undecided proposal
everybody but the DAO still has what is counted of it. -/
theorem votes_within_supply (token dao : Address) (w₀ w : World State)
    (ls : List (Label Entry)) (hinit : (system dao).Init w₀)
    (hrun : (prudent token dao).Run w₀ ls w) :
    (∀ pid p, w.machine.store.proposal pid = some p →
      p.votesFor + p.votesAgainst + p.votesAbstain ≤
        w₀.machine.bank.supply token) ∧
    ∀ a, a ≠ dao → w.machine.store.Covers w.now a
      (w.machine.bank.balance token a) := by
  have hend := hrun.preserves
    (Q := fun v => Accounted token dao v.now v.machine ∧
      v.machine.bank.supply token = w₀.machine.bank.supply token ∧
      ∀ pid p, v.machine.store.proposal pid = some p →
        p.cast ≤ (w₀.machine.bank.supply token : ℤ)) ?_ ?_
  · exact ⟨hend.2.2, hend.1.backed.covered⟩
  · rintro v l v' ⟨hv, hsupply, hbound⟩ hstep
    have hv' := (accounted_inductive token dao).step v l v' hv hstep
    obtain ⟨hkeeps, hstandard, hstep⟩ := hstep
    have hsupply' := (step_backed hkeeps hstandard hstep hv).2.trans hsupply
    exact ⟨hv', hsupply', fun pid p hp =>
      step_cast_le hstep hv hv' (by rw [hsupply']) hbound hp⟩
  · refine ⟨(accounted_inductive token dao).init w₀ hinit, rfl, ?_⟩
    intro pid p hp
    rw [hinit.1] at hp
    cases hp

end Bounds

/-! ## Bob's tokens -/

namespace Scenario

def launched : World State :=
  (step exec dao genesis launch).get (by decide +kernel)

/-- Bob lends his weight to Carol, and voting ends. -/
def lending : List (Label Entry) :=
  [.call [bob] (.delegate bob carol), .call [carol] (.vote carol 0 .against),
    .call [alice] (.vote alice 0 .for), .tick 605101]

def ended : World State :=
  (TransitionSystem.execute (step exec dao) lending proposed).get
    (by decide +kernel)

def departing : Label Entry := .transfer shield bob dave 300

def departed : World State :=
  (step exec dao ended departing).get (by decide +kernel)

/-- Bob gives his tokens to Dave while they are counted for Carol, and Dave
votes with them. -/
def reusing : List (Label Entry) :=
  [departing, .call [dave] (.vote dave 0 .abstain)]

def reused : World State :=
  (TransitionSystem.execute (step exec dao) reusing swayed).get
    (by decide +kernel)

theorem covers_of_empty {w : World State} (hw : (system dao).Reachable w)
    (hnext : w.machine.store.nextProposalId = 0) (a : Address) (x : ℤ) :
    w.machine.store.Covers w.now a x := by
  rintro pid ⟨p, hp, -⟩
  have hlt := ((hw.invariant (numbered_inductive dao)).stored pid p hp).2
  omega

/-- Once voting has ended, Bob's tokens are free. -/
theorem ended_covers (hw : (system dao).Reachable ended) (x : ℤ) :
    ended.machine.store.Covers ended.now bob x := by
  rintro pid ⟨p, hp, -, hend⟩
  have hlt := ((hw.invariant (numbered_inductive dao)).stored pid p hp).2
  have hone : ended.machine.store.nextProposalId = 1 := by decide +kernel
  obtain rfl : pid = 0 := by omega
  have hover : (ended.machine.store.proposal 0).all
      (fun p => p.voteEnd < ended.now) = true := by decide +kernel
  rw [hp] at hover
  have hlate : p.voteEnd < ended.now := of_decide_eq_true hover
  omega

theorem departed_run :
    (prudent shield dao).Run genesis
      ([launch, motion] ++ (lending ++ [departing])) departed := by
  have hlending : (system dao).Run proposed lending ended :=
    TransitionSystem.run_of_execute (fun _ _ _ => step_sound)
      (Option.some_get _).symm
  have hdeparting : (system dao).Step ended departing departed :=
    step_sound (Option.some_get _).symm
  obtain ⟨t, hlaunch, hrest⟩ := TransitionSystem.run_cons_iff.mp proposed_run
  obtain ⟨u, hmotion, hnil⟩ := TransitionSystem.run_cons_iff.mp hrest
  obtain rfl := TransitionSystem.run_nil_iff.mp hnil
  obtain rfl : t = launched :=
    hlaunch.unique (step_sound (Option.some_get _).symm)
  have hgenesis : (system dao).Reachable genesis := .init ⟨rfl, rfl⟩
  have hlaunched := hgenesis.step hlaunch
  have hended := proposed_reachable.run hlending
  refine .append (.cons ⟨?_, ?_, hlaunch⟩ (.cons ⟨?_, ?_, hmotion⟩ (.nil _)))
    (.append ((hlending.restrict ?_).restrict ?_)
      (.cons ⟨?_, ?_, hdeparting⟩ (.nil _)))
  · rintro o config ⟨⟩
  · rfl
  · rintro o config ⟨⟩ -
    exact covers_of_empty hlaunched (by decide +kernel) _ _
  · trivial
  · simp only [lending, List.forall_mem_cons, List.not_mem_nil, false_imp_iff,
      implies_true, and_true]
    exact ⟨fun _ => trivial, fun _ => trivial, fun _ => trivial,
      fun _ => trivial⟩
  · simp only [lending, List.forall_mem_cons, List.not_mem_nil, false_imp_iff,
      implies_true, and_true]
    refine ⟨?_, ?_, ?_, fun _ => trivial⟩ <;> rintro _ o config ⟨⟩
  · exact fun _ _ => ended_covers hended _
  · trivial

end Scenario

open Scenario

theorem votes_within_supply_departed :
    (departed.machine.store.proposal 0).map (fun p =>
        (p.votesFor, p.votesAgainst)) = some (490, 500) ∧
      genesis.machine.bank.supply shield = 1000 ∧
      departed.machine.bank.balance shield dave = 300 ∧
      ∀ pid p, departed.machine.store.proposal pid = some p →
        p.votesFor + p.votesAgainst + p.votesAbstain ≤
          genesis.machine.bank.supply shield :=
  ⟨by decide +kernel, by decide +kernel, by decide +kernel,
    (votes_within_supply shield dao genesis departed _ ⟨rfl, rfl⟩
      departed_run).1⟩

/-- Tokens that are counted for a delegate are voted again by whoever they are
given to. -/
theorem moved_tokens_voted_again :
    (system dao).Run swayed reusing reused ∧
      (∀ l ∈ swaying ++ reusing, ∀ t a n, l ≠ .mint t a n) ∧
      (reused.machine.store.proposal 0).map (fun p =>
        p.votesFor + p.votesAgainst + p.votesAbstain) = some 1290 ∧
      reused.machine.bank.supply shield = 1000 :=
  ⟨TransitionSystem.run_of_execute (fun _ _ _ => step_sound)
      (Option.some_get _).symm, by
    simp only [swaying, reusing, List.cons_append, List.nil_append,
      List.forall_mem_cons, List.not_mem_nil, false_imp_iff, implies_true,
      and_true]
    refine ⟨?_, ?_, ?_, ?_, ?_, ?_, ?_⟩ <;> rintro t a n ⟨⟩,
    by decide +kernel, by decide +kernel⟩

end Parashield.GovernanceDao
