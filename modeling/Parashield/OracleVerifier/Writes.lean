import Parashield.OracleVerifier.Admission
import Parashield.OracleVerifier.Calls
import Mathlib.Algebra.Order.Ring.Abs

/-!
# Oracle verifier: what a call writes

The results about runs of the verifier speak of readings with their ranges,
registrations, reputation records and the administrator.  `Write` lists every
way in which an entry point changes them; each accepted call is a sequence of
such writes.
-/

namespace Parashield.OracleVerifier

open Support Support.Contract Invocation

/-- Readings with their configured ranges, registrations, reputation records
and the administrator. -/
structure Core where
  dataPoints : Symbol × Symbol → Option (List OracleDataPoint)
  oracles : Symbol × Address → Option OracleEntry
  reputation : Symbol × Address → Option OracleReputation
  admin : Option Address
  pendingAdmin : Option Address
  pendingAdminSince : Option ℕ
  dataTypeRange : Symbol → Option (ℤ × ℤ)

namespace State

/-- The stored readings of a key. -/
def readings (s : State) (dataType key : Symbol) : List OracleDataPoint :=
  (s.dataPoints (dataType, key)).getD []

/-- A reading of this time is recent enough to be stored. -/
def Recent (s : State) (now : ℕ) (dataType : Symbol) (timestamp : ℕ) :
    Prop :=
  now - timestamp ≤ s.effectiveMaxAge dataType

instance (s : State) (now : ℕ) (dataType : Symbol) (timestamp : ℕ) :
    Decidable (s.Recent now dataType timestamp) :=
  inferInstanceAs (Decidable (_ ≤ _))

def core (s : State) : Core where
  dataPoints := s.dataPoints
  oracles := s.oracles
  reputation := s.reputation
  admin := s.admin
  pendingAdmin := s.pendingAdmin
  pendingAdminSince := s.pendingAdminSince
  dataTypeRange := s.dataTypeRange

/-- `t` agrees with `s` on what a reading is checked against. -/
structure SameRules (s t : State) : Prop where
  range : t.dataTypeRange = s.dataTypeRange
  buffer : t.timestampFutureBuffer = s.timestampFutureBuffer
  age : t.effectiveMaxAge = s.effectiveMaxAge

theorem SameRules.refl (s : State) : s.SameRules s := ⟨rfl, rfl, rfl⟩

theorem SameRules.trans {r s t : State} (h : r.SameRules s)
    (h' : s.SameRules t) : r.SameRules t where
  range := h'.range.trans h.range
  buffer := h'.buffer.trans h.buffer
  age := h'.age.trans h.age

end State

/-- A score in range that rests on at most as many accurate submissions as
there were submissions. -/
structure OracleReputation.Sound (r : OracleReputation) : Prop where
  score : r.score ≤ 1000
  accurate : r.accurateSubmissions ≤ r.totalSubmissions

/-- The readings an entry offers, with the data type and key of each. -/
def Entry.offers : Entry → List (Symbol × Symbol × OracleDataPoint)
  | .submitData oracle dataType key value confidence timestamp =>
      [(dataType, key, ⟨oracle, value, confidence, timestamp⟩)]
  | .batchSubmitData oracle dataType submissions
  | .submitDataBatch oracle dataType submissions =>
      submissions.map fun sub =>
        (dataType, sub.key,
          ⟨oracle, sub.value, sub.confidence, sub.timestamp⟩)
  | _ => []

/-- What each submission path checks about a reading beyond what all of them
check. -/
def Entry.Checks (s : State) : Entry → Symbol → OracleDataPoint → Prop
  | .submitData .., dataType, p =>
      |p.value| ≤ maxDataValue ∧ |p.value| ≤ s.getDataTypeMax dataType ∧
        p.timestamp ≠ 0
  | .batchSubmitData .., _, p => |p.value| ≤ maxDataValue
  | .submitDataBatch .., _, p => p.timestamp ≠ 0
  | _, _, _ => True

/-- The entry offers the reading, and the checks on it pass. -/
structure Stored (env : Env) (e : Entry) (s : State) (dataType key : Symbol)
    (p : OracleDataPoint) : Prop where
  offered : (dataType, key, p) ∈ e.offers
  checks : e.Checks s dataType p
  key_ne : key.chars ≠ []
  confidence : p.confidence ≠ 0 ∧ p.confidence ≤ 100
  notAhead : p.timestamp ≤ satAddU64 env.now s.timestampFutureBuffer
  recent : s.Recent env.now dataType p.timestamp

/-- The entry points that write the administrator or its successor. -/
def Entry.rotates : Entry → Bool
  | .initializeVerifier _ => true
  | .proposeNewAdmin _ _ => true
  | .approveAdminChange _ _ => true
  | .acceptAdmin _ => true
  | _ => false

/-- The stored readings of a key. -/
def Core.readings (c : Core) (dataType key : Symbol) : List OracleDataPoint :=
  (c.dataPoints (dataType, key)).getD []

/-- The reputation record of an oracle, a fresh one if it has none. -/
def Core.record (c : Core) (oracle : Address) (dataType : Symbol) :
    OracleReputation :=
  (c.reputation (dataType, oracle)).getD
    { oracle := oracle
      dataType := dataType
      totalSubmissions := 0
      accurateSubmissions := 0
      score := 500
      lastUpdated := 0 }

/-- One write of a call of entry `e` that began in storage `s`. -/
inductive Write (env : Env) (e : Entry) (s : State) : Core → Core → Prop
  | store {c : Core} {dataType key : Symbol} {p : OracleDataPoint}
      {kept : List OracleDataPoint} :
      Stored env e s dataType key p →
      kept.Sublist (c.readings dataType key) →
      (∀ q ∈ kept, q.oracle ≠ p.oracle) →
      Write env e s c
        { c with
          dataPoints :=
            Function.update c.dataPoints (dataType, key)
              (some (kept ++ [p])) }
  | forget {c : Core} {dataType key : Symbol} :
      Write env e s c
        { c with
          dataPoints := Function.update c.dataPoints (dataType, key) none }
  | register {c : Core} {dataType : Symbol} {oracle : Address}
      {entry : OracleEntry} :
      entry.weight ≤ maxWeight →
      Write env e s c
        { c with
          oracles :=
            Function.update c.oracles (dataType, oracle) (some entry) }
  | deactivate {c : Core} {dataType : Symbol} {oracle : Address}
      {entry : OracleEntry} :
      c.oracles (dataType, oracle) = some entry →
      Write env e s c
        { c with
          oracles :=
            Function.update c.oracles (dataType, oracle)
              (some { entry with active := false }) }
  | rate {c : Core} {dataType : Symbol} {oracle : Address}
      {rep : OracleReputation} :
      ((c.record oracle dataType).Sound → rep.Sound) →
      Write env e s c
        { c with
          reputation :=
            Function.update c.reputation (dataType, oracle) (some rep) }
  | limit {c : Core} {dataType : Symbol} {range : Option (ℤ × ℤ)} :
      (∀ b ∈ range, b.2 ≤ maxDataValue) →
      Write env e s c
        { c with
          dataTypeRange := Function.update c.dataTypeRange dataType range }
  | rotate {c : Core} {admin pendingAdmin : Option Address}
      {pendingAdminSince : Option ℕ} :
      e.rotates = true →
      Write env e s c
        { c with
          admin := admin
          pendingAdmin := pendingAdmin
          pendingAdminSince := pendingAdminSince }

/-- A sequence of writes. -/
abbrev Writes (env : Env) (e : Entry) (s : State) : Core → Core → Prop :=
  Relation.ReflTransGen (Write env e s)

section Writes

variable {env : Env} {e : Entry} {s : State} {m m' : Machine State}

/-- From `m` to `m'` the call of `e` that began in `s` wrote the core. -/
def Wrote (env : Env) (e : Entry) (s : State) (m m' : Machine State) : Prop :=
  Writes env e s m.store.core m'.store.core

theorem Wrote.of_eq (h : m'.store.core = m.store.core) :
    Wrote env e s m m' := by
  unfold Wrote
  rw [h]

theorem Wrote.single (h : Write env e s m.store.core m'.store.core) :
    Wrote env e s m m' :=
  Relation.ReflTransGen.single h

theorem Wrote.trans {m₁ m₂ m₃ : Machine State} (h : Wrote env e s m₁ m₂)
    (h' : Wrote env e s m₂ m₃) : Wrote env e s m₁ m₃ :=
  Relation.ReflTransGen.trans h h'

/-! ## Loops -/

theorem forEach_wrote {α : Type} {f : α → Call Unit} {xs : List α} {u : Unit}
    (hf : ∀ x ∈ xs, ∀ t v t', f x t = .ok (v, t') → Wrote env e s t t')
    (h : forEach xs f m = .ok (u, m')) : Wrote env e s m m' := by
  have hkeeps : Keeps (Wrote env e s m) (forEach xs f) := by
    apply keeps_forEach
    intro x hx t v t' ht hrun
    exact ht.trans (hf x hx t v t' hrun)
  exact hkeeps m u m' (.of_eq rfl) h

theorem collect_wrote {α β : Type} {f : α → Call β} {xs : List α}
    {bs : List β}
    (hf : ∀ x ∈ xs, ∀ t b t', f x t = .ok (b, t') → Wrote env e s t t')
    (h : collect xs f m = .ok (bs, m')) : Wrote env e s m m' := by
  have hkeeps : Keeps (Wrote env e s m) (collect xs f) := by
    apply keeps_collect
    intro x hx t b t' ht hrun
    exact ht.trans (hf x hx t b t' hrun)
  exact hkeeps m bs m' (.of_eq rfl) h

/-! ## Settings -/

@[simp] theorem requireAdmin_ok {caller : Address} {u : Unit} :
    requireAdmin env caller m = .ok (u, m') ↔
      (m.store.admin = some caller ∧ caller ∈ env.signers) ∧ m' = m := by
  simp only [requireAdmin, bind_ok, load_ok, unwrap_ok, ensure_ok,
    requireAuth_ok]
  constructor
  · rintro ⟨_, _, ⟨rfl, rfl⟩, admin, _, ⟨hadmin, rfl⟩, _, _, ⟨rfl, rfl⟩,
      hauth, rfl⟩
    exact ⟨⟨hadmin, hauth⟩, rfl⟩
  · rintro ⟨⟨hadmin, hauth⟩, rfl⟩
    exact ⟨_, _, ⟨rfl, rfl⟩, caller, _, ⟨hadmin, rfl⟩, (), _, ⟨rfl, rfl⟩,
      hauth, rfl⟩

/-- An administrator's setting leaves the core as it is. -/
theorem setter_wrote {admin : Address} {f : State → State} {u : Unit}
    (h : (do requireAdmin env admin; update f : Call Unit) m =
      .ok (u, m')) (hf : ∀ t, (f t).core = t.core) : Wrote env e s m m' := by
  simp only [bind_ok, requireAdmin_ok, update_ok] at h
  obtain ⟨-, _, ⟨-, rfl⟩, rfl⟩ := h
  exact .of_eq (hf _)

theorem setting_wrote {admin : Address} {valid : Prop} [Decidable valid]
    {error : Error} {f : State → State} {u : Unit}
    (h : setting env admin valid error f m = .ok (u, m'))
    (hf : ∀ t, (f t).core = t.core) : Wrote env e s m m' := by
  simp only [setting, bind_ok, requireAdmin_ok, ensure_ok, update_ok] at h
  obtain ⟨-, _, ⟨-, rfl⟩, -, _, ⟨-, rfl⟩, rfl⟩ := h
  exact .of_eq (hf _)

theorem setDataTypeRange_wrote {admin : Address} {dataType : Symbol}
    {lower upper : ℤ} {u : Unit}
    (h : setDataTypeRange env admin dataType lower upper m = .ok (u, m')) :
    Wrote env e s m m' := by
  simp only [setDataTypeRange, setting, bind_ok, requireAdmin_ok, ensure_ok,
    update_ok] at h
  obtain ⟨_, m₀, ⟨-, rfl⟩, _, _, ⟨⟨-, -, -, hupper⟩, rfl⟩, rfl⟩ := h
  refine .single (.limit ?_)
  intro b hb
  split at hb
  · cases hb
  · obtain rfl := Option.some.inj hb
    exact hupper

/-! ## Registrations -/

theorem addOracle_wrote {admin oracle : Address} {dataType : Symbol}
    {weight : ℕ} {u : Unit}
    (h : addOracle env admin oracle dataType weight m = .ok (u, m')) :
    Wrote env e s m m' := by
  simp [addOracle, validateContractAddress, validateSymbolLen,
    storeOracle] at h
  obtain ⟨-, -, ⟨-, hweight⟩, -, -, -, -, -, hlist⟩ := h
  have hentry : OracleEntry.weight ⟨oracle, dataType, weight, true⟩ ≤
      maxWeight := hweight
  rcases hlist with ⟨-, -, rfl⟩ | ⟨-, rfl⟩
  · exact .single (.register hentry)
  · exact .single (.register hentry)

theorem updateOracleWeight_wrote {admin oracle : Address} {dataType : Symbol}
    {weight : ℕ} {u : Unit}
    (h : updateOracleWeight env admin oracle dataType weight m =
      .ok (u, m')) : Wrote env e s m m' := by
  simp [updateOracleWeight, storeOracle] at h
  obtain ⟨-, ⟨-, hweight⟩, entry, -, rfl⟩ := h
  have hentry : ({ entry with weight := weight } : OracleEntry).weight ≤
      maxWeight := hweight
  exact .single (.register hentry)

theorem deactivateOracle_wrote {oracle : Address} {dataType : Symbol}
    {u : Unit} (h : deactivateOracle dataType oracle m = .ok (u, m')) :
    Wrote env e s m m' := by
  simp [deactivateOracle, storeOracle, pruneOracleList] at h
  obtain ⟨entry, hentry, rfl⟩ := h
  exact .single (.deactivate hentry)

theorem deactivateInactiveOracles_wrote {dataType : Symbol}
    {removed : List Address}
    (h : deactivateInactiveOracles env dataType m = .ok (removed, m')) :
    Wrote env e s m m' := by
  simp only [deactivateInactiveOracles, bind_ok, load_ok, pure_ok] at h
  obtain ⟨_, _, ⟨-, rfl⟩, flags, _, hloop, -, rfl⟩ := h
  refine collect_wrote ?_ hloop
  intro oracle _ t b t' hrun
  simp only [bind_ok, load_ok] at hrun
  obtain ⟨_, _, ⟨rfl, rfl⟩, hrun⟩ := hrun
  rcases ite_ok.mp hrun with ⟨-, hrun⟩ | ⟨-, hrun⟩
  · simp only [bind_ok, pure_ok] at hrun
    obtain ⟨_, _, hdeactivate, -, rfl⟩ := hrun
    exact deactivateOracle_wrote hdeactivate
  · obtain ⟨-, rfl⟩ := pure_ok.mp hrun
    exact .of_eq rfl

/-! ## Stakes -/

/-- A transfer of slashed stake writes no storage. -/
theorem transferSlashed_store {amount : ℤ} {u : Unit}
    (h : transferSlashed env amount m = .ok (u, m')) :
    m'.store = m.store := by
  simp only [transferSlashed, bind_ok, load_ok] at h
  obtain ⟨t, _, ⟨ht, rfl⟩, h⟩ := h
  cases htoken : t.stakeToken with
  | none =>
      rw [htoken] at h
      obtain ⟨-, rfl⟩ := pure_ok.mp h
      rfl
  | some token =>
      cases htreasury : t.slashTreasury with
      | none =>
          rw [htoken, htreasury] at h
          obtain ⟨-, rfl⟩ := pure_ok.mp h
          rfl
      | some treasury =>
          rw [htoken, htreasury] at h
          obtain ⟨-, B, -, rfl⟩ := transferToken_ok.mp h
          rfl

/-- Moving the slashed stake before what may follow. -/
theorem transferSlashed_wrote {amount : ℤ} {c : Prop} [Decidable c]
    {x : Call Unit} {k : Core} {u : Unit}
    (h : (do transferSlashed env amount; whenever c x : Call Unit) m =
      .ok (u, m')) (hm : m.store.core = k)
    (hx : ∀ t v t', t.store.core = k → x t = .ok (v, t') →
      Wrote env e s t t') : Wrote env e s m m' := by
  obtain ⟨_, m₁, hslash, h⟩ := bind_ok.mp h
  have hsame : m₁.store.core = m.store.core := by
    rw [transferSlashed_store hslash]
  refine .trans (.of_eq hsame) ?_
  rcases whenever_ok.mp h with ⟨-, h⟩ | ⟨-, rfl⟩
  · exact hx m₁ u m' (hsame.trans hm) h
  · exact .of_eq rfl

/-- What a slash does with the oracle's entry: it takes it out of use. -/
theorem retire_wrote {dataType : Symbol} {oracle : Address}
    {entry : OracleEntry} {v : Unit}
    (hentry : m.store.core.oracles (dataType, oracle) = some entry)
    (h : (do
      whenever (entry.active = true) do
        storeOracle dataType oracle { entry with active := false }
        pruneOracleList dataType oracle : Call Unit) m = .ok (v, m')) :
    Wrote env e s m m' := by
  rcases whenever_ok.mp h with ⟨-, h⟩ | ⟨-, rfl⟩
  · simp only [storeOracle, pruneOracleList, bind_ok, update_ok] at h
    obtain ⟨_, _, rfl, rfl⟩ := h
    exact .single (.deactivate hentry)
  · exact .of_eq rfl

theorem slashOracle_wrote {admin oracle : Address} {dataType : Symbol}
    {amount : ℤ} {u : Unit}
    (h : slashOracle env admin oracle dataType amount m = .ok (u, m')) :
    Wrote env e s m m' := by
  simp only [slashOracle, bind_ok, requireAdmin_ok, ensure_ok, load_ok,
    storeStake, update_ok] at h
  obtain ⟨_, _, ⟨-, rfl⟩, _, _, ⟨-, rfl⟩, _, _, ⟨rfl, rfl⟩, _, m₀, ⟨-, rfl⟩,
    _, _, rfl, h⟩ := h
  cases hentry : m₀.store.oracles (dataType, oracle) with
  | none =>
      simp only [hentry] at h
      have hdrop : ∀ (t : Machine State) v t',
          t.store.core = m₀.store.core →
          (pure () : Call Unit) t = .ok (v, t') → Wrote env e s t t' := by
        rintro t v t' - hrun
        obtain ⟨-, rfl⟩ := pure_ok.mp hrun
        exact .of_eq rfl
      cases hreq : m₀.store.stakeWithdrawalReq (dataType, oracle) with
      | none =>
          rw [hreq] at h
          refine .trans ?_ (transferSlashed_wrote h rfl hdrop)
          exact .of_eq rfl
      | some req =>
          rw [hreq] at h
          obtain ⟨_, _, hrequest, h⟩ := bind_ok.mp h
          rw [update_ok.mp hrequest] at h
          refine .trans ?_ (transferSlashed_wrote h rfl hdrop)
          exact .of_eq rfl
  | some entry =>
      simp only [hentry] at h
      have hfound : ∀ t : Machine State, t.store.core = m₀.store.core →
          t.store.core.oracles (dataType, oracle) = some entry := by
        intro t ht
        rw [ht]
        exact hentry
      cases hreq : m₀.store.stakeWithdrawalReq (dataType, oracle) with
      | none =>
          rw [hreq] at h
          refine .trans ?_ (transferSlashed_wrote h rfl
            fun t _ _ ht => retire_wrote (hfound t ht))
          exact .of_eq rfl
      | some req =>
          rw [hreq] at h
          obtain ⟨_, _, hrequest, h⟩ := bind_ok.mp h
          rw [update_ok.mp hrequest] at h
          refine .trans ?_ (transferSlashed_wrote h rfl
            fun t _ _ ht => retire_wrote (hfound t ht))
          exact .of_eq rfl

theorem stake_wrote {oracle : Address} {dataType : Symbol} {amount : ℤ}
    {u : Unit} (h : stake env oracle dataType amount m = .ok (u, m')) :
    Wrote env e s m m' := by
  simp [stake, storeStake] at h
  obtain ⟨-, -, token, -, -, B, -, -, rfl⟩ := h
  exact .of_eq rfl

theorem requestStakeWithdrawal_wrote {oracle : Address} {dataType : Symbol}
    {u : Unit}
    (h : requestStakeWithdrawal env oracle dataType m = .ok (u, m')) :
    Wrote env e s m m' := by
  simp [requestStakeWithdrawal, ensureNotActive, storeWithdrawalRequest] at h
  obtain ⟨-, -, -, -, rfl⟩ := h
  exact .of_eq rfl

theorem cancelStakeWithdrawal_wrote {oracle : Address} {dataType : Symbol}
    {u : Unit}
    (h : cancelStakeWithdrawal env oracle dataType m = .ok (u, m')) :
    Wrote env e s m m' := by
  simp [cancelStakeWithdrawal, storeWithdrawalRequest] at h
  obtain ⟨-, -, rfl⟩ := h
  exact .of_eq rfl

theorem withdrawStake_wrote {oracle : Address} {dataType : Symbol} {u : Unit}
    (h : withdrawStake env oracle dataType m = .ok (u, m')) :
    Wrote env e s m m' := by
  simp [withdrawStake, ensureNotActive, storeStake,
    storeWithdrawalRequest] at h
  obtain ⟨-, -, req, -, -, -, -, token, -, B, -, rfl⟩ := h
  exact .of_eq rfl

/-! ## Reputation -/

theorem setReputation_wrote {admin oracle : Address} {dataType : Symbol}
    {score : ℕ} {u : Unit}
    (h : setReputation env admin oracle dataType score m = .ok (u, m')) :
    Wrote env e s m m' := by
  simp [setReputation, storeReputation] at h
  obtain ⟨-, hscore, rfl⟩ := h
  refine .single (.rate fun hsound => ?_)
  exact ⟨hscore, hsound.accurate⟩

/-- The share of accurate submissions, in thousandths. -/
theorem share_le {accurate total : ℕ} (h : accurate ≤ total) :
    accurate * 1000 / total ≤ 1000 := by
  apply Nat.div_le_of_le_mul
  rw [Nat.mul_comm total]
  omega

theorem updateReputation_wrote {oracle : Address} {dataType : Symbol}
    {accurate : Bool} {u : Unit}
    (h : updateReputation env oracle dataType accurate m = .ok (u, m')) :
    Wrote env e s m m' := by
  simp [updateReputation, storeReputation] at h
  obtain ⟨-, -, -, rfl⟩ := h
  refine .single (.rate fun hsound => ?_)
  have hcount : (m.store.getReputation oracle dataType).accurateSubmissions ≤
      (m.store.getReputation oracle dataType).totalSubmissions :=
    hsound.accurate
  have hone : accurate.toNat ≤ 1 := Bool.toNat_le accurate
  refine ⟨?_, Nat.add_le_add hcount hone⟩
  exact (Nat.mod_le _ _).trans (share_le (Nat.add_le_add hcount hone))

theorem scoreReading_wrote {dataType : Symbol} {median tolerance : ℤ}
    {p : OracleDataPoint} {u : Unit}
    (h : scoreReading env dataType median tolerance p m = .ok (u, m')) :
    Wrote env e s m m' := by
  rcases scoreReading_cases h with rfl | ⟨accurate, hupdate⟩
  · exact .of_eq rfl
  · exact updateReputation_wrote hupdate

theorem scoreReadings_wrote {dataType : Symbol} {median tolerance : ℤ}
    {points : List OracleDataPoint} {u : Unit}
    (h : forEach points (scoreReading env dataType median tolerance) m =
      .ok (u, m')) : Wrote env e s m m' :=
  forEach_wrote (fun _ _ _ _ _ hrun => scoreReading_wrote hrun) h

theorem verifyTrigger_wrote {dataType key : Symbol}
    {condition : TriggerCondition} {b : Bool}
    (h : verifyTrigger env dataType key condition m = .ok (b, m')) :
    Wrote env e s m m' := by
  simp [verifyTrigger, requireDataTypeActive] at h
  obtain ⟨-, -, points, -, -, v, -, -, _, hscore⟩ := h
  exact scoreReadings_wrote hscore

theorem verifyTriggerFresh_wrote {dataType key : Symbol}
    {condition : TriggerCondition} {maxAgeSeconds : ℕ} {b : Bool}
    (h : verifyTriggerFresh env dataType key condition maxAgeSeconds m =
      .ok (b, m')) : Wrote env e s m m' := by
  simp [verifyTriggerFresh, requireDataTypeActive] at h
  obtain ⟨-, -, points, -, -, -, -, v, -, -, _, hscore⟩ := h
  exact scoreReadings_wrote hscore

theorem batchVerifyFresh_wrote {queries : List OracleReadingQuery}
    {bs : List Bool}
    (h : batchVerifyFresh env queries m = .ok (bs, m')) :
    Wrote env e s m m' :=
  collect_wrote (fun _ _ _ _ _ hrun => verifyTriggerFresh_wrote hrun) h

/-! ## Submission -/

/-- Neither the core nor what readings are checked against has changed. -/
structure Quiet (m m' : Machine State) : Prop where
  core : m'.store.core = m.store.core
  rules : m.store.SameRules m'.store

theorem Quiet.refl (m : Machine State) : Quiet m m := ⟨rfl, .refl _⟩

/-- A part of a submission: it writes the core, and leaves alone what
readings are checked against. -/
structure Handled (env : Env) (e : Entry) (s : State) (m m' : Machine State) :
    Prop where
  wrote : Wrote env e s m m'
  rules : m.store.SameRules m'.store

theorem Handled.of_quiet (h : Quiet m m') : Handled env e s m m' :=
  ⟨.of_eq h.core, h.rules⟩

theorem Handled.trans {m₁ m₂ m₃ : Machine State} (h : Handled env e s m₁ m₂)
    (h' : Handled env e s m₂ m₃) : Handled env e s m₁ m₃ :=
  ⟨h.wrote.trans h'.wrote, h.rules.trans h'.rules⟩

theorem storeStaleCount_quiet {oracle : Address} {dataType : Symbol}
    {count : ℕ} {u : Unit}
    (h : storeStaleCount dataType oracle count m = .ok (u, m')) :
    Quiet m m' := by
  obtain rfl := update_ok.mp h
  exact ⟨rfl, rfl, rfl, rfl⟩

theorem staleSlash_quiet {oracle : Address} {dataType : Symbol} {c : Prop}
    [Decidable c] {remaining amount : ℤ} {u : Unit}
    (h : whenever c (do
      storeStake dataType oracle remaining
      transferSlashed env amount) m = .ok (u, m')) : Quiet m m' := by
  rcases whenever_ok.mp h with ⟨-, h⟩ | ⟨-, rfl⟩
  · simp only [bind_ok, storeStake, update_ok] at h
    obtain ⟨_, _, rfl, hslash⟩ := h
    have hstore := transferSlashed_store hslash
    refine ⟨?_, ?_, ?_, ?_⟩ <;> rw [hstore] <;> rfl
  · exact .refl _

theorem stalePenalty_handled {oracle : Address} {dataType : Symbol} {c : Prop}
    [Decidable c] {rep : OracleReputation} {u : Unit}
    (h : whenever c (storeReputation oracle dataType rep) m = .ok (u, m'))
    (hrep : (m.store.core.record oracle dataType).Sound → rep.Sound) :
    Handled env e s m m' := by
  rcases whenever_ok.mp h with ⟨-, h⟩ | ⟨-, rfl⟩
  · obtain rfl := update_ok.mp h
    exact ⟨.single (.rate hrep), ⟨rfl, rfl, rfl⟩⟩
  · exact .of_quiet (.refl _)

/-- The stale-submission penalty: stakes, counts and reputation. -/
theorem handleStaleSubmission_handled {oracle : Address} {dataType : Symbol}
    {u : Unit}
    (h : handleStaleSubmission env oracle dataType m = .ok (u, m')) :
    Handled env e s m m' := by
  simp only [handleStaleSubmission, bind_ok, load_ok] at h
  obtain ⟨t, m₀, ⟨rfl, rfl⟩, _, m₁, hcount, h⟩ := h
  refine .trans (.of_quiet (storeStaleCount_quiet hcount)) ?_
  rcases whenever_ok.mp h with ⟨-, h⟩ | ⟨-, rfl⟩
  · simp only [bind_ok] at h
    obtain ⟨_, m₂, hstake, _, m₃, hpenalty, hreset⟩ := h
    have hslashed := staleSlash_quiet hstake
    refine .trans (.of_quiet hslashed) (.trans (stalePenalty_handled hpenalty
      ?_) (.of_quiet (storeStaleCount_quiet hreset)))
    rw [hslashed.core, (storeStaleCount_quiet hcount).core]
    intro hsound
    exact ⟨(Nat.sub_le _ _).trans hsound.score, hsound.accurate⟩
  · exact .of_quiet (.refl _)

/-- What a fresh reading leaves of the readings stored before it. -/
theorem storePlainReading_handled {dataType key : Symbol}
    {p : OracleDataPoint} {now : ℕ} {u : Unit}
    (h : storePlainReading dataType key p now m = .ok (u, m'))
    (hp : Stored env e s dataType key p) : Handled env e s m m' := by
  obtain rfl := update_ok.mp h
  refine ⟨.single (.store hp ?_ ?_), ⟨rfl, rfl, rfl⟩⟩
  · exact (List.drop_sublist _ _).trans List.filter_sublist
  · intro q hq
    have hretained := (List.mem_filter.mp (List.mem_of_mem_drop hq)).2
    simp only [State.retains, Bool.and_eq_true, decide_eq_true_eq] at hretained
    exact hretained.1.1

theorem enforceRateLimit_quiet {dataType : Symbol} {oracle : Address}
    {u : Unit} (h : enforceRateLimit env dataType oracle m = .ok (u, m')) :
    Quiet m m' := by
  simp only [enforceRateLimit, bind_ok, load_ok, ensure_ok, update_ok] at h
  obtain ⟨_, _, ⟨-, rfl⟩, _, _, ⟨-, rfl⟩, rfl⟩ := h
  exact ⟨rfl, rfl, rfl, rfl⟩

theorem submitData_handled {oracle : Address} {dataType key : Symbol}
    {value : ℤ} {confidence timestamp : ℕ} {u : Unit}
    (h : submitData env oracle dataType key value confidence timestamp m =
      .ok (u, m')) :
    Handled env
      (.submitData oracle dataType key value confidence timestamp) m.store m
      m' := by
  obtain ⟨hadmitted, ⟨hvalue, hmax, hzero⟩, h⟩ :=
    (submitData_ok ⟨key, value, confidence, timestamp⟩).mp h
  have hstamp : Quiet m
      { m with store := m.store.stamp env.now dataType oracle } :=
    ⟨rfl, rfl, rfl, rfl⟩
  refine .trans (.of_quiet hstamp) ?_
  split_ifs at h with hstale
  · exact handleStaleSubmission_handled h
  · obtain ⟨-, rfl⟩ := h
    have hbound : |value| ≤ maxDataValue := abs_le.mpr ⟨hvalue.2, hvalue.1⟩
    refine .trans (storePlainReading_handled (u := ()) (update_ok.mpr rfl) ?_)
      (.of_quiet ⟨rfl, rfl, rfl, rfl⟩)
    exact
      { offered := List.mem_singleton.mpr rfl
        checks := ⟨hbound, hmax, hzero⟩
        key_ne := hadmitted.keyed.1
        confidence := hadmitted.confident
        notAhead := hadmitted.inRange.1
        recent := not_lt.mp hstale }

theorem openBatch_quiet {oracle : Address} {dataType : Symbol} {u : Unit}
    (h : openBatch env oracle dataType m = .ok (u, m')) : Quiet m m' := by
  simp only [openBatch, validateSymbolLen, requireDataTypeActive, bind_ok,
    requireAuth_ok, load_ok, ensure_ok, requireActiveOracle_ok] at h
  obtain ⟨_, _, ⟨-, rfl⟩, _, _, ⟨_, _, ⟨rfl, rfl⟩, -, rfl⟩, _, _, ⟨rfl, rfl⟩,
    _, _, ⟨-, rfl⟩, _, _, ⟨-, rfl⟩, _, m₀, ⟨-, rfl⟩, hrate⟩ := h
  exact enforceRateLimit_quiet hrate

theorem acceptBatchReading_handled {oracle : Address} {dataType : Symbol}
    {sub : OracleDataSubmission} {u : Unit}
    (h : acceptBatchReading env oracle dataType sub m = .ok (u, m'))
    (hrules : s.SameRules m.store)
    (hp : sub.timestamp ≤ satAddU64 env.now s.timestampFutureBuffer →
      s.Recent env.now dataType sub.timestamp →
      Stored env e s dataType sub.key
        ⟨oracle, sub.value, sub.confidence, sub.timestamp⟩) :
    Handled env e s m m' := by
  obtain ⟨⟨hrange, -⟩, h⟩ := acceptBatchReading_ok.mp h
  have hahead := hrange.1
  rw [hrules.buffer] at hahead
  split_ifs at h with hstale
  · exact handleStaleSubmission_handled h
  · have hrecent : s.Recent env.now dataType sub.timestamp := by
      unfold State.Recent
      rw [← hrules.age]
      exact not_lt.mp hstale
    rw [h]
    exact .trans (storePlainReading_handled (u := ()) (update_ok.mpr rfl)
      (hp hahead hrecent)) (.of_quiet ⟨rfl, rfl, rfl, rfl⟩)

/-- The readings of a batch are handled one after the other. -/
theorem forEach_handled {α : Type} {f : α → Call Unit} {xs : List α}
    {u : Unit} (hrules : s.SameRules m.store)
    (hf : ∀ x ∈ xs, ∀ t v t', s.SameRules t.store → f x t = .ok (v, t') →
      Handled env e s t t')
    (h : forEach xs f m = .ok (u, m')) : Handled env e s m m' := by
  have hkeeps : Keeps (Handled env e s m) (forEach xs f) := by
    apply keeps_forEach
    intro x hx t v t' ht hrun
    exact ht.trans (hf x hx t v t' (hrules.trans ht.rules) hrun)
  exact hkeeps m u m' (.of_quiet (.refl m)) h

theorem batchSubmitData_handled {oracle : Address} {dataType : Symbol}
    {submissions : List OracleDataSubmission} {u : Unit}
    (h : batchSubmitData env oracle dataType submissions m = .ok (u, m')) :
    Handled env (.batchSubmitData oracle dataType submissions) m.store m
      m' := by
  obtain ⟨_, m₁, hopen, hloop⟩ := bind_ok.mp h
  have hquiet := openBatch_quiet hopen
  refine .trans (.of_quiet hquiet) (forEach_handled hquiet.rules ?_ hloop)
  intro sub hsub t v t' hrules hrun
  simp only [validateKeyLen, bind_ok, ensure_ok] at hrun
  obtain ⟨_, _, ⟨hkey, rfl⟩, _, _, ⟨hconfidence, rfl⟩, _, t₀, ⟨hvalue, rfl⟩,
    haccept⟩ := hrun
  refine acceptBatchReading_handled haccept hrules fun hahead hrecent => ?_
  have hbound : |sub.value| ≤ maxDataValue :=
    abs_le.mpr ⟨hvalue.2, hvalue.1⟩
  exact
    { offered := List.mem_map_of_mem hsub
      checks := hbound
      key_ne := hkey.1
      confidence := hconfidence
      notAhead := hahead
      recent := hrecent }

theorem submitDataBatch_handled {oracle : Address} {dataType : Symbol}
    {submissions : List OracleDataSubmission} {u : Unit}
    (h : submitDataBatch env oracle dataType submissions m = .ok (u, m')) :
    Handled env (.submitDataBatch oracle dataType submissions) m.store m
      m' := by
  obtain ⟨_, m₁, hopen, h⟩ := bind_ok.mp h
  obtain ⟨_, m₂, hloop, hreset⟩ := bind_ok.mp h
  have hquiet := openBatch_quiet hopen
  refine .trans (.of_quiet hquiet) (.trans
    (forEach_handled hquiet.rules ?_ hloop)
    (.of_quiet (storeStaleCount_quiet hreset)))
  intro sub hsub t v t' hrules hrun
  simp only [validateKeyLen, bind_ok, ensure_ok] at hrun
  obtain ⟨_, _, ⟨hkey, rfl⟩, _, _, ⟨hconfidence, rfl⟩, _, t₀, ⟨hzero, rfl⟩,
    haccept⟩ := hrun
  refine acceptBatchReading_handled haccept hrules fun hahead hrecent => ?_
  exact
    { offered := List.mem_map_of_mem hsub
      checks := hzero
      key_ne := hkey.1
      confidence := hconfidence
      notAhead := hahead
      recent := hrecent }

theorem submitEncryptedData_wrote {oracle : Address} {dataType key : Symbol}
    {ciphertext nonce : Bytes} {confidence timestamp : ℕ} {u : Unit}
    (h : submitEncryptedData env oracle dataType key ciphertext nonce
      confidence timestamp m = .ok (u, m')) : Wrote env e s m m' := by
  simp only [submitEncryptedData, validateSymbolLen, requireDataTypeActive,
    validateKeyLen, bind_ok, requireAuth_ok, load_ok, ensure_ok,
    requireActiveOracle_ok] at h
  obtain ⟨_, _, ⟨-, rfl⟩, _, _, ⟨_, _, ⟨rfl, rfl⟩, -, rfl⟩, _, _, ⟨-, rfl⟩,
    _, _, ⟨-, rfl⟩, _, _, ⟨-, rfl⟩, _, _, ⟨-, rfl⟩, _, _, ⟨-, rfl⟩, _, _,
    ⟨-, rfl⟩, _, m₀, ⟨-, rfl⟩, _, _, hrate, _, m₁, ⟨rfl, rfl⟩, h⟩ := h
  have hquiet := enforceRateLimit_quiet hrate
  refine .trans (.of_eq hquiet.core) ?_
  rcases ite_ok.mp h with ⟨-, h⟩ | ⟨-, h⟩
  · exact (handleStaleSubmission_handled h).wrote
  · simp only [bind_ok, update_ok] at h
    obtain ⟨_, m₂, hstore, hreset⟩ := h
    have hstored : m₂.store.core = m₁.store.core := by
      rw [hstore]
      rfl
    exact .of_eq ((storeStaleCount_quiet hreset).core.trans hstored)

theorem invalidateData_wrote {admin : Address} {dataType key : Symbol}
    {u : Unit}
    (h : invalidateData env admin dataType key m = .ok (u, m')) :
    Wrote env e s m m' := by
  simp [invalidateData] at h
  obtain ⟨-, rfl⟩ := h
  exact .single .forget

/-! ## Administrator rotation -/

theorem initializeVerifier_wrote {admin : Address} {u : Unit}
    (h : initializeVerifier env admin m = .ok (u, m')) :
    Wrote env (.initializeVerifier admin) s m m' := by
  simp [initializeVerifier] at h
  obtain ⟨-, -, rfl⟩ := h
  exact .single (.rotate rfl)

theorem proposeNewAdmin_wrote {admin newAdmin : Address} {u : Unit}
    (h : proposeNewAdmin env admin newAdmin m = .ok (u, m')) :
    Wrote env (.proposeNewAdmin admin newAdmin) s m m' := by
  simp [proposeNewAdmin] at h
  obtain ⟨-, -, h⟩ := h
  rcases ite_ok.mp h with ⟨-, h⟩ | ⟨-, h⟩
  · obtain rfl := update_ok.mp h
    exact .single (.rotate rfl)
  · obtain rfl := update_ok.mp h
    exact .of_eq rfl

theorem approveAdminChange_wrote {guardian newAdmin : Address} {u : Unit}
    (h : approveAdminChange env guardian newAdmin m = .ok (u, m')) :
    Wrote env (.approveAdminChange guardian newAdmin) s m m' := by
  simp [approveAdminChange] at h
  obtain ⟨-, -, pending, -, -, -, h⟩ := h
  rcases ite_ok.mp h with ⟨-, h⟩ | ⟨-, h⟩
  · obtain rfl := update_ok.mp h
    exact .single (.rotate rfl)
  · obtain rfl := update_ok.mp h
    exact .of_eq rfl

theorem acceptAdmin_wrote {admin : Address} {u : Unit}
    (h : acceptAdmin env admin m = .ok (u, m')) :
    Wrote env (.acceptAdmin admin) s m m' := by
  simp [acceptAdmin] at h
  obtain ⟨-, -, -, -, rfl⟩ := h
  exact .single (.rotate rfl)

/-! ## Every call -/

/-- Every accepted call is a sequence of writes. -/
theorem exec_wrote (h : exec env e m = .ok ((), m')) :
    Wrote env e m.store m m' := by
  cases e with
  | initializeVerifier => exact initializeVerifier_wrote h
  | addOracle => exact addOracle_wrote h
  | updateOracleWeight => exact updateOracleWeight_wrote h
  | removeOracle =>
      obtain ⟨_, m₀, hadmin, hrun⟩ := bind_ok.mp h
      obtain ⟨-, rfl⟩ := requireAdmin_ok.mp hadmin
      exact deactivateOracle_wrote hrun
  | pauseDataType => exact setter_wrote h fun _ => rfl
  | resumeDataType => exact setter_wrote h fun _ => rfl
  | deactivateInactiveOracles =>
      obtain ⟨removed, h⟩ := perform_ok.mp h
      exact deactivateInactiveOracles_wrote h
  | setOracleInactivityLimit => exact setter_wrote h fun _ => rfl
  | setMinConfidence => exact setting_wrote h fun _ => rfl
  | setMaxDataAge => exact setter_wrote h fun _ => rfl
  | setMaxTimestampAge => exact setter_wrote h fun _ => rfl
  | setTimestampFutureBuffer => exact setter_wrote h fun _ => rfl
  | setDataTypeMaxAge => exact setter_wrote h fun _ => rfl
  | setAggregationMethod => exact setter_wrote h fun _ => rfl
  | setOutlierConfig => exact setting_wrote h fun _ => rfl
  | setDataTypeRange => exact setDataTypeRange_wrote h
  | setMinOracleCount => exact setting_wrote h fun _ => rfl
  | setDataTypeMinOracleCount => exact setter_wrote h fun _ => rfl
  | setCrossValidationRule => exact setting_wrote h fun _ => rfl
  | removeCrossValidationRule =>
      simp [exec, removeCrossValidationRule] at h
      obtain ⟨-, -, rfl⟩ := h
      exact .of_eq rfl
  | setMinSubmitInterval => exact setting_wrote h fun _ => rfl
  | setStakeToken => exact setter_wrote h fun _ => rfl
  | setMinStake => exact setting_wrote h fun _ => rfl
  | setSlashTreasury => exact setter_wrote h fun _ => rfl
  | setOracleGeoWeight => exact setting_wrote h fun _ => rfl
  | setChallengePeriod => exact setter_wrote h fun _ => rfl
  | setStaleThreshold => exact setter_wrote h fun _ => rfl
  | setStaleSlashAmount => exact setting_wrote h fun _ => rfl
  | setStaleReputationPenalty => exact setting_wrote h fun _ => rfl
  | setReputation => exact setReputation_wrote h
  | setEncryptionRequired => exact setter_wrote h fun _ => rfl
  | setGuardians => exact setting_wrote h fun _ => rfl
  | proposeNewAdmin => exact proposeNewAdmin_wrote h
  | approveAdminChange => exact approveAdminChange_wrote h
  | acceptAdmin => exact acceptAdmin_wrote h
  | stake => exact stake_wrote h
  | requestStakeWithdrawal => exact requestStakeWithdrawal_wrote h
  | cancelStakeWithdrawal => exact cancelStakeWithdrawal_wrote h
  | withdrawStake => exact withdrawStake_wrote h
  | slashOracle => exact slashOracle_wrote h
  | submitData => exact (submitData_handled h).wrote
  | batchSubmitData => exact (batchSubmitData_handled h).wrote
  | submitDataBatch => exact (submitDataBatch_handled h).wrote
  | submitEncryptedData => exact submitEncryptedData_wrote h
  | invalidateData => exact invalidateData_wrote h
  | verifyTrigger =>
      obtain ⟨b, h⟩ := perform_ok.mp h
      exact verifyTrigger_wrote h
  | verifyTriggerFresh =>
      obtain ⟨b, h⟩ := perform_ok.mp h
      exact verifyTriggerFresh_wrote h
  | batchVerifyFresh =>
      obtain ⟨bs, h⟩ := perform_ok.mp h
      exact batchVerifyFresh_wrote h

end Writes

end Parashield.OracleVerifier
