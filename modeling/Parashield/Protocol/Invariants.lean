import Parashield.PolicyEngine.Terms
import Parashield.Protocol.System

/-!
# Invariants of the docket

A step of the protocol moves the docket by moves of the claims processor, by
changes of the policy book, or around both.  What all three preserve holds in
every reachable state.  Every docket of a run is sound: its claims are
orderly, and each of them insures what its policy does.
-/

namespace Parashield.Protocol

open Support
open PolicyEngine (Policy Wired)
open ClaimsProcessor (Claim Docket Kind Move Network docket moves)

/-! ## What a move does to the claims and the policies -/

section Moves

variable {now : ℕ} {engine : Address} {k : Kind} {d d' : Docket}

/-- What holds of all claims and of a rewritten one. -/
theorem forall_setClaim {id : ℕ} {c' : Claim} {P : ℕ → Claim → Prop}
    (h : ∀ i c, d.claim i = some c → P i c) (hc' : P id c') :
    ∀ i c, d.setClaim id c' i = some c → P i c := by
  intro i c hc
  by_cases hi : i = id
  · subst hi
    rw [Docket.setClaim, Function.update_self, Option.some.injEq] at hc
    exact hc ▸ hc'
  · rw [Docket.setClaim, Function.update_of_ne hi] at hc
    exact h i c hc

/-- The claims are about the same loss. -/
structure SameSubject (c c' : Claim) : Prop where
  policyId : c'.policyId = c.policyId
  claimant : c'.claimant = c.claimant
  coverage : c'.coverageAmount = c.coverageAmount

theorem SameSubject.refl (c : Claim) : SameSubject c c := ⟨rfl, rfl, rfl⟩

theorem SameSubject.trans {c c₁ c₂ : Claim} (h : SameSubject c c₁)
    (h' : SameSubject c₁ c₂) : SameSubject c c₂ where
  policyId := h'.policyId.trans h.policyId
  claimant := h'.claimant.trans h.claimant
  coverage := h'.coverage.trans h.coverage

theorem sameSubject_of_approve {c c' : Claim} {bps : ℕ}
    (h : (c.judged now true).approve bps = .ok c') : SameSubject c c' := by
  obtain ⟨-, hpolicy, hclaimant, hcoverage, -⟩ :=
    ClaimsProcessor.Claim.approve_terms h
  exact ⟨hpolicy, hclaimant, hcoverage⟩

/-- The claim a move has filed. -/
inductive Filed (now : ℕ) (d : Docket) : Kind → Claim → Prop
  | file {policyId : ℕ} {byKeeper : Bool} {p : Policy} :
      d.policyClaim policyId = none →
      d.engine.policies policyId = some p →
      p.status = .active →
      (byKeeper = false → p.startTime ≤ now) →
      (byKeeper = true → now ≤ p.endTime) →
      Filed now d (.file policyId byKeeper)
        (.fresh d.nextClaimId policyId p.policyholder p.coverageAmount now)

/-- A claim found after a move was there before, or was just filed. -/
theorem move_arises (h : Move now engine k d d') :
    ∀ id c', d'.claim id = some c' →
      (∃ c, d.claim id = some c ∧ SameSubject c c') ∨ Filed now d k c' := by
  have hold : ∀ id c', d.claim id = some c' →
      (∃ c, d.claim id = some c ∧ SameSubject c c') ∨ Filed now d k c' :=
    fun id c hc => .inl ⟨c, hc, .refl c⟩
  cases h with
  | file _ hnone hp hactive _ hstart hend =>
      exact forall_setClaim hold (.inr (.file hnone hp hactive hstart hend))
  | refuse hc => exact forall_setClaim hold (.inl ⟨_, hc.found, rfl, rfl, rfl⟩)
  | hold hc _ happrove =>
      obtain ⟨hpolicy, hclaimant, hcoverage⟩ := sameSubject_of_approve happrove
      exact forall_setClaim hold
        (.inl ⟨_, hc.found, hpolicy, hclaimant, hcoverage⟩)
  | settle hc _ happrove =>
      exact forall_setClaim hold
        (.inl ⟨_, hc.found, sameSubject_of_approve happrove⟩)
  | payout hc => exact forall_setClaim hold (.inl ⟨_, hc, rfl, rfl, rfl⟩)
  | dispute hc => exact forall_setClaim hold (.inl ⟨_, hc, rfl, rfl, rfl⟩)
  | resolve hc => exact forall_setClaim hold (.inl ⟨_, hc, rfl, rfl, rfl⟩)
  | reject hc => exact forall_setClaim hold (.inl ⟨_, hc, rfl, rfl, rfl⟩)
  | escalate hc => exact forall_setClaim hold (.inl ⟨_, hc, rfl, rfl, rfl⟩)
  | installment hc _ hterms =>
      exact forall_setClaim hold (.inl ⟨_, hc, hterms.policyId,
        hterms.claimant, hterms.coverageAmount⟩)
  | annotate hc hterms =>
      exact forall_setClaim hold (.inl ⟨_, hc, hterms.policyId,
        hterms.claimant, hterms.coverageAmount⟩)
  | _ => exact hold

/-- A move leaves the book alone, or has one policy claimed or expired. -/
theorem move_book (h : Move now engine k d d') :
    d'.engine = d.engine ∨ ∃ env bk policyId,
      PolicyEngine.Book.Change env bk d.engine d'.engine ∧
        (bk = .claim policyId ∨ bk = .expire policyId) := by
  cases h with
  | settle _ _ _ _ hchange => exact .inr ⟨_, _, _, hchange, .inl rfl⟩
  | payout _ _ _ _ _ _ hchange => exact .inr ⟨_, _, _, hchange, .inl rfl⟩
  | expire _ _ _ hchange => exact .inr ⟨_, _, _, hchange, .inr rfl⟩
  | _ => exact .inl rfl

theorem move_engineRest (h : Move now engine k d d') :
    d'.engineRest = d.engineRest := by
  cases h <;> rfl

/-- A policy stays on the book, with its terms and its holder. -/
theorem move_continues (hbook : d.engine.Sound) (h : Move now engine k d d')
    {id : ℕ} {p : Policy} (hp : d.engine.policies id = some p) :
    ∃ p', d'.engine.policies id = some p' ∧ p.SameTerms p' ∧
      p'.policyholder = p.policyholder := by
  rcases move_book h with heq | ⟨env, bk, policyId, hchange, hbk⟩
  · exact ⟨p, by rw [heq, hp], .refl p, rfl⟩
  · obtain ⟨p', hp', hcontinues⟩ := hbook.continues hchange hp
    refine ⟨p', hp', hcontinues.terms, hcontinues.holder ?_⟩
    rintro rfl
    rcases hbk with hbk | hbk <;> cases hbk

end Moves

/-! ## Sound dockets -/

/-- The claim insures what its policy does. -/
def Covered (d : Docket) (c : Claim) : Prop :=
  ∃ p, d.engine.policies c.policyId = some p ∧
    p.coverageAmount = c.coverageAmount

/-- What the docket of every run keeps. -/
structure Sound (d : Docket) : Prop where
  orderly : d.Orderly
  wired : Wired d.engineRest
  book : d.engine.Sound
  covered : ∀ id c, d.claim id = some c → Covered d c

/-- The dockets agree but for tokens, readings, the pool and settings. -/
def SameRecords (d d' : Docket) : Prop :=
  ∃ bank engineRest oracle lock totalLocked poolRest,
    (Wired d.engineRest → Wired engineRest) ∧
      d' =
        { d with
          engine := { d.engine with bank := bank }
          engineRest := engineRest
          oracle := oracle
          lock := lock
          totalLocked := totalLocked
          poolRest := poolRest }

section Sound

variable {now : ℕ} {engine : Address} {k : Kind} {d d' : Docket}

theorem Sound.move (h : Sound d) (hmove : Move now engine k d d') :
    Sound d' := by
  have hkept : ∀ c, Covered d c → Covered d' c := by
    rintro c ⟨p, hp, hcoverage⟩
    obtain ⟨p', hp', hterms, -⟩ := move_continues h.book hmove hp
    exact ⟨p', hp', hterms.coverage.trans hcoverage⟩
  have hold : ∀ id c, d.claim id = some c → Covered d' c :=
    fun id c hc => hkept c (h.covered id c hc)
  have hbook : d'.engine.Sound := by
    rcases move_book hmove with heq | ⟨env, bk, policyId, hchange, -⟩
    · rw [heq]
      exact h.book
    · exact h.book.change hchange
  refine ⟨hmove.orderly h.orderly, ?_, hbook, ?_⟩
  · rw [move_engineRest hmove]
    exact h.wired
  intro id c' hc'
  rcases move_arises hmove id c' hc' with ⟨c, hc, hsubject⟩ | hfiled
  · obtain ⟨p, hp, hcoverage⟩ := hold id c hc
    exact ⟨p, by rw [hsubject.policyId, hp], hcoverage.trans
      hsubject.coverage.symm⟩
  · cases hfiled with
    | file _ hp =>
        obtain ⟨p', hp', hterms, -⟩ := move_continues h.book hmove hp
        exact ⟨p', hp', hterms.coverage⟩

theorem Sound.change {env : Env} {bk : PolicyEngine.Book.Kind}
    {b : PolicyEngine.Book} (h : Sound d)
    (hchange : PolicyEngine.Book.Change env bk d.engine b) :
    Sound { d with engine := b } where
  orderly := h.orderly.same rfl ⟨rfl, rfl, rfl, rfl⟩
  wired := h.wired
  book := h.book.change hchange
  covered := by
    intro id c hc
    obtain ⟨p, hp, hcoverage⟩ := h.covered id c hc
    obtain ⟨p', hp', hcontinues⟩ := h.book.continues hchange hp
    exact ⟨p', hp', hcontinues.terms.coverage.trans hcoverage⟩

theorem Sound.rest (h : Sound d) (hsame : SameRecords d d') : Sound d' := by
  obtain ⟨bank, engineRest, oracle, lock, totalLocked, poolRest, hwired,
    rfl⟩ := hsame
  exact
    { orderly := h.orderly.same rfl ⟨rfl, rfl, rfl, rfl⟩
      wired := hwired h.wired
      book := ⟨h.book.fresh, h.book.unwired, h.book.coverage_pos⟩
      covered := h.covered }

theorem sameRecords_of_store {m m' : Machine Network}
    (hclaims : m'.store.claims = m.store.claims)
    (hengine : m'.store.engine = m.store.engine) :
    SameRecords (docket m) (docket m') := by
  refine ⟨m'.bank, ClaimsProcessor.engineRest m'.store.engine,
    m'.store.oracle, m'.store.pool.lock, m'.store.pool.totalLocked,
    ClaimsProcessor.poolRest m'.store.pool, fun hwired => ?_, ?_⟩
  · rw [hengine]
    exact hwired
  · simp only [docket, hclaims, hengine]
    rfl

theorem sound_deployed (B : Bank) : Sound (docket ⟨.deployed, B⟩) where
  orderly :=
    { keyed := by simp [docket, Network.deployed, ClaimsProcessor.State.deployed]
      recorded := by
        simp [docket, Network.deployed, ClaimsProcessor.State.deployed]
      linked := by
        simp [docket, Network.deployed, ClaimsProcessor.State.deployed]
      fresh := by simp [docket, Network.deployed, ClaimsProcessor.State.deployed]
      idle := by simp [docket, Network.deployed, ClaimsProcessor.State.deployed]
      setUp := by
        simp [docket, Network.deployed, ClaimsProcessor.State.deployed] }
  wired :=
    ⟨by simp [docket, Network.deployed, ClaimsProcessor.engineRest,
        PolicyEngine.State.deployed],
      by simp [docket, Network.deployed, ClaimsProcessor.engineRest,
        PolicyEngine.State.deployed],
      by simp [docket, Network.deployed, ClaimsProcessor.engineRest,
        PolicyEngine.State.deployed]⟩
  book :=
    { fresh := by
        simp [docket, Network.deployed, PolicyEngine.book,
          PolicyEngine.State.deployed]
      unwired := by
        simp [docket, Network.deployed, PolicyEngine.book,
          PolicyEngine.State.deployed]
      coverage_pos := by
        simp [docket, Network.deployed, PolicyEngine.book,
          PolicyEngine.State.deployed] }
  covered := by simp [docket, Network.deployed, ClaimsProcessor.State.deployed]

end Sound

/-! ## Stable predicates -/

/-- `I` holds of fresh deployments and is preserved by everything that happens
to a sound docket in the steps `G` admits. -/
structure Stable (D : Sites) (G : World Network → Label Entry → Prop)
    (I : ℕ → Docket → Prop) : Prop where
  deployed : ∀ now B, I now (docket ⟨.deployed, B⟩)
  tick : ∀ {now later d}, now ≤ later → I now d → I later d
  move : ∀ {w signers e k d d'}, G w (.call signers (.claims e)) →
    e.admits (docket w.machine) d k → Move w.now D.engine k d d' →
    Sound d → Sound d' → I w.now d → I w.now d'
  change : ∀ {w signers e k d b}, G w (.call signers (.engine e)) →
    e.performs k → k.Adds ∨ d = docket w.machine →
    PolicyEngine.Book.Change ⟨w.now, D.engine, signers⟩ k d.engine b →
    Sound d → I w.now d → I w.now { d with engine := b }
  rest : ∀ {now d d'}, SameRecords d d' → I now d → I now d'

section Runs

variable {D : Sites} {G : World Network → Label Entry → Prop}
  {I : ℕ → Docket → Prop}

/-- A call of the claims processor preserves what its moves preserve. -/
theorem Stable.claims (h : Stable D G I) {w w' : World Network}
    {signers : List Address} {e : ClaimsProcessor.Entry}
    (hG : G w (.call signers (.claims e)))
    (hstep : (system D).Step w (.call signers (.claims e)) w')
    (hsound : Sound (docket w.machine))
    (hI : I w.now (docket w.machine)) :
    Sound (docket w'.machine) ∧ I w'.now (docket w'.machine) := by
  obtain ⟨hnow, -, hexec⟩ := call_exec hstep
  obtain ⟨ks, hrun⟩ := ClaimsProcessor.exec_moved hsound.orderly hexec
  rw [hnow]
  refine TransitionSystem.Run.preserves (Q := fun d => Sound d ∧ I w.now d)
    ?_ hrun ⟨hsound, hI⟩
  rintro d k d' ⟨hd, hId⟩ ⟨hadmits, hmove⟩
  have hd' := hd.move hmove
  exact ⟨hd', h.move hG hadmits hmove hd hd' hId⟩

/-- A call of the engine preserves what its changes preserve. -/
theorem Stable.engine (h : Stable D G I) {w w' : World Network}
    {signers : List Address} {e : PolicyEngine.Entry}
    (hG : G w (.call signers (.engine e)))
    (hstep : (system D).Step w (.call signers (.engine e)) w')
    (hsound : Sound (docket w.machine))
    (hI : I w.now (docket w.machine)) :
    Sound (docket w'.machine) ∧ I w'.now (docket w'.machine) := by
  obtain ⟨hnow, -, hexec⟩ := call_exec hstep
  obtain ⟨s, B, hengine, hm⟩ := exec_engine_ok.mp hexec
  have hwired : Wired w.machine.store.engine :=
    ⟨hsound.wired.token_iff, hsound.wired.admin, hsound.wired.pendingAdmin⟩
  obtain ⟨heffect, hwired'⟩ := PolicyEngine.exec_performs hwired hengine
  have hbook := heffect.preserves
    (Q := fun b => Sound { docket w.machine with engine := b } ∧
      I w.now { docket w.machine with engine := b })
    (by
      intro k c c' hk hc hchange hQ
      let d : Docket := { docket w.machine with engine := c }
      have hstart : k.Adds ∨ d = docket w.machine :=
        hc.imp id fun heq => by
          simp only [d, heq]
          rfl
      exact ⟨Sound.change (d := d) hQ.1 hchange,
        h.change (d := d) hG hk hstart hchange hQ.1 hQ.2⟩)
    ⟨hsound, hI⟩
  have hrest : SameRecords
      { docket w.machine with engine := PolicyEngine.book ⟨s, B⟩ }
      (docket w'.machine) := by
    refine ⟨_, _, _, _, _, _, fun _ => ?_, by rw [hm]; rfl⟩
    exact ⟨hwired'.token_iff, hwired'.admin, hwired'.pendingAdmin⟩
  rw [hnow]
  exact ⟨hbook.1.rest hrest, h.rest hrest hbook.2⟩

/-- A stable predicate holds in every reachable state of the guarded runs. -/
theorem Stable.preserved (h : Stable D G I) :
    ((system D).restrict G).Inductive fun w =>
      Sound (docket w.machine) ∧ I w.now (docket w.machine) where
  init := by
    rintro ⟨now, ⟨store, B⟩⟩ ⟨hstore, -⟩
    obtain rfl : store = Network.deployed := hstore
    exact ⟨sound_deployed B, h.deployed now B⟩
  step := by
    rintro w l w' ⟨hsound, hI⟩ ⟨hG, hstep⟩
    have hrest : w'.now = w.now →
        w'.machine.store.claims = w.machine.store.claims →
        w'.machine.store.engine = w.machine.store.engine →
        Sound (docket w'.machine) ∧ I w'.now (docket w'.machine) := by
      intro hnow hclaims hengine
      have hsame := sameRecords_of_store hclaims hengine
      rw [hnow]
      exact ⟨hsound.rest hsame, h.rest hsame hI⟩
    cases l with
    | call signers e =>
        cases e with
        | claims e => exact h.claims hG hstep hsound hI
        | engine e => exact h.engine hG hstep hsound hI
        | pool e =>
            obtain ⟨hnow, -, hexec⟩ := call_exec hstep
            obtain ⟨s, B, -, hm⟩ := exec_pool_ok.mp hexec
            exact hrest hnow (by rw [hm]) (by rw [hm])
        | oracle e =>
            obtain ⟨hnow, -, hexec⟩ := call_exec hstep
            obtain ⟨s, B, -, hm⟩ := exec_oracle_ok.mp hexec
            exact hrest hnow (by rw [hm]) (by rw [hm])
    | tick seconds =>
        cases hstep.2
        exact ⟨hsound, h.tick (Nat.le_add_right _ _) hI⟩
    | transfer =>
        cases hstep.2
        exact hrest rfl rfl rfl
    | mint =>
        cases hstep.2
        exact hrest rfl rfl rfl

theorem sound_inductive (D : Sites) :
    (system D).Inductive fun w => Sound (docket w.machine) := by
  have htrivial : Stable D (fun _ _ => True) fun _ _ => True :=
    ⟨fun _ _ => trivial, fun _ _ => trivial, fun _ _ _ _ _ _ => trivial,
      fun _ _ _ _ _ _ => trivial, fun _ _ => trivial⟩
  have hinductive := htrivial.preserved
  exact
    { init := fun w hw => (hinductive.init w hw).1
      step := fun w l w' h hstep =>
        (hinductive.step w l w' ⟨h, trivial⟩ ⟨trivial, hstep⟩).1 }

/-- Every docket of a run is sound. -/
theorem reachable_sound {w : World Network} (hw : (system D).Reachable w) :
    Sound (docket w.machine) :=
  hw.invariant (sound_inductive D)

end Runs

end Parashield.Protocol
