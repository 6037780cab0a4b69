import Parashield.OracleVerifier.Ledger
import Parashield.OracleVerifier.Register

/-!
# Oracle verifier: standing

Where an oracle stands for a data type: its stale counter, its stake and its
reputation record.  A submission goes through its readings in order.  It counts
each stale one and applies the penalty when the counter comes to the threshold;
a fresh one leaves the standing as it is until the call ends.
-/

namespace Parashield.OracleVerifier

open Support Support.Contract Invocation

/-! ## Marks -/

/-- How a submission deals with a reading. -/
inductive Mark where
  | fresh
  | stale (penalized : Bool)
  deriving DecidableEq

/-- The penalty is due at this count.  A threshold of zero switches it off. -/
def Due (threshold count : ℕ) : Prop :=
  threshold ≠ 0 ∧ threshold ≤ count

instance (threshold count : ℕ) : Decidable (Due threshold count) :=
  inferInstanceAs (Decidable (_ ∧ _))

/-- The stale counter after one more. -/
def bump (count : ℕ) : ℕ :=
  min (count + 1) (2 ^ 32 - 1)

/-- The marks of readings that are stale or not, from a given count. -/
def marksFrom (threshold : ℕ) : ℕ → List Bool → List Mark
  | _, [] => []
  | count, false :: rest => .fresh :: marksFrom threshold count rest
  | count, true :: rest =>
      if Due threshold (bump count) then
        .stale true :: marksFrom threshold 0 rest
      else
        .stale false :: marksFrom threshold (bump count) rest

/-- The times of the readings a call submits, encrypted ones included. -/
def Entry.times : Entry → List ℕ
  | .submitData _ _ _ _ _ timestamp => [timestamp]
  | .batchSubmitData _ _ submissions => submissions.map (·.timestamp)
  | .submitDataBatch _ _ submissions => submissions.map (·.timestamp)
  | .submitEncryptedData _ _ _ _ _ _ timestamp => [timestamp]
  | _ => []

/-- A reading of this time is a stale submission. -/
def State.stale (s : State) (now : ℕ) (dataType : Symbol) (timestamp : ℕ) :
    Bool :=
  decide (s.effectiveMaxAge dataType < now - timestamp)

/-- How the call deals with its readings. -/
def Entry.marks (e : Entry) (s : State) (now : ℕ) : List Mark :=
  match e.submitsFor with
  | some k =>
      marksFrom s.staleThreshold (s.staleCount k)
        (e.times.map (s.stale now k.1))
  | none => []

/-- How many penalties the call applies. -/
def Entry.penalties (e : Entry) (s : State) (now : ℕ) : ℕ :=
  (e.marks s now).count (.stale true)

/-- The call ends by clearing the counter: `submit_data_batch` does so
whatever the readings are, and `batch_submit_data` never does. -/
def Entry.clears (s : State) (now : ℕ) : Entry → Bool
  | .submitData _ dataType _ _ _ timestamp =>
      !s.stale now dataType timestamp
  | .submitDataBatch .. => true
  | .submitEncryptedData _ dataType _ _ _ _ timestamp =>
      !s.stale now dataType timestamp
  | _ => false

/-! ## Standings -/

/-- The penalty for stale submissions. -/
structure StaleRules where
  threshold : ℕ
  slash : ℤ
  penalty : ℕ

structure Standing where
  count : ℕ
  stake : ℤ
  reputation : OracleReputation

def State.staleRules (s : State) : StaleRules where
  threshold := s.staleThreshold
  slash := s.staleSlashAmount
  penalty := s.staleReputationPenalty

/-- The standing of an oracle for a data type. -/
def State.standing (s : State) (k : Symbol × Address) : Standing where
  count := s.staleCount k
  stake := s.oracleStakeAmt k
  reputation := s.getReputation k.2 k.1

namespace Standing

/-- The penalty: stake is slashed and the score reduced, where so configured,
and counting starts over. -/
def penalized (x : Standing) (rules : StaleRules) (now : ℕ) : Standing where
  count := 0
  stake :=
    if 0 < rules.slash ∧ 0 < x.stake then
      x.stake - min rules.slash x.stake
    else
      x.stake
  reputation :=
    if 0 < rules.penalty then
      { x.reputation with
        score := x.reputation.score - rules.penalty
        lastUpdated := now }
    else
      x.reputation

def mark (rules : StaleRules) (now : ℕ) (x : Standing) : Mark → Standing
  | .fresh => x
  | .stale false => { x with count := bump x.count }
  | .stale true => x.penalized rules now

/-- The standing after readings that are stale or not. -/
def read (rules : StaleRules) (now : ℕ) (x : Standing) (flags : List Bool) :
    Standing :=
  (marksFrom rules.threshold x.count flags).foldl (mark rules now) x

variable {rules : StaleRules} {now : ℕ} {x : Standing}

theorem read_cons {flag : Bool} {flags : List Bool} :
    x.read rules now (flag :: flags) =
      (x.read rules now [flag]).read rules now flags := by
  cases flag with
  | false => rfl
  | true =>
      unfold read
      simp only [marksFrom]
      split_ifs
      · rfl
      · rfl

theorem read_due (hdue : Due rules.threshold (bump x.count)) :
    x.read rules now [true] = x.penalized rules now := by
  simp only [read, marksFrom, if_pos hdue]
  rfl

theorem read_not_due (hdue : ¬ Due rules.threshold (bump x.count)) :
    x.read rules now [true] = { x with count := bump x.count } := by
  simp only [read, marksFrom, if_neg hdue]
  rfl

/-! What marks come to depends on how many penalties there are. -/

theorem le_stake_penalized {least : ℤ} (hleast : 0 < least) :
    least ≤ (x.penalized rules now).stake ↔
      least + max rules.slash 0 ≤ x.stake := by
  unfold penalized
  dsimp only
  split
  · omega
  · omega

/-- A positive amount is left exactly if the slashes leave it. -/
theorem le_stake_foldl {least : ℤ} (hleast : 0 < least) (marks : List Mark) :
    least ≤ (marks.foldl (mark rules now) x).stake ↔
      least + marks.count (.stale true) * max rules.slash 0 ≤ x.stake := by
  induction marks generalizing x with
  | nil => simp
  | cons a marks ih =>
      rw [List.foldl_cons, ih]
      cases a with
      | fresh => rw [List.count_cons_of_ne (by simp)]; rfl
      | stale penalized =>
          cases penalized with
          | false => rw [List.count_cons_of_ne (by simp)]; rfl
          | true =>
              have hslash : 0 ≤ max rules.slash 0 := le_max_right _ _
              have hpos : 0 < least +
                  marks.count (.stale true) * max rules.slash 0 :=
                add_pos_of_pos_of_nonneg hleast
                  (mul_nonneg (Int.natCast_nonneg _) hslash)
              rw [List.count_cons_self]
              refine (le_stake_penalized hpos).trans ?_
              push_cast
              rw [add_mul, one_mul, add_assoc]

theorem score_foldl (marks : List Mark) :
    (marks.foldl (mark rules now) x).reputation.score =
      x.reputation.score - marks.count (.stale true) * rules.penalty := by
  induction marks generalizing x with
  | nil => simp
  | cons a marks ih =>
      rw [List.foldl_cons, ih]
      cases a with
      | fresh => rw [List.count_cons_of_ne (by simp)]; rfl
      | stale penalized =>
          cases penalized with
          | false => rw [List.count_cons_of_ne (by simp)]; rfl
          | true =>
              have hscore : (x.penalized rules now).reputation.score =
                  x.reputation.score - rules.penalty := by
                unfold Standing.penalized
                dsimp only
                split
                · rfl
                · omega
              rw [List.count_cons_self, mark, hscore, add_mul, one_mul]
              omega

/-- The counters behind the score are left alone. -/
theorem totals_foldl (marks : List Mark) :
    (marks.foldl (mark rules now) x).reputation.totalSubmissions =
        x.reputation.totalSubmissions ∧
      (marks.foldl (mark rules now) x).reputation.accurateSubmissions =
        x.reputation.accurateSubmissions := by
  induction marks generalizing x with
  | nil => exact ⟨rfl, rfl⟩
  | cons a marks ih =>
      have hmark : (mark rules now x a).reputation.totalSubmissions =
            x.reputation.totalSubmissions ∧
          (mark rules now x a).reputation.accurateSubmissions =
            x.reputation.accurateSubmissions := by
        unfold mark Standing.penalized
        split
        · exact ⟨rfl, rfl⟩
        · exact ⟨rfl, rfl⟩
        · dsimp only
          split
          · exact ⟨rfl, rfl⟩
          · exact ⟨rfl, rfl⟩
      rw [List.foldl_cons]
      exact ⟨ih.1.trans hmark.1, ih.2.trans hmark.2⟩

end Standing

/-- The standing of `k` after a submission of it that is accepted in `s`. -/
def State.settled (s : State) (now : ℕ) (e : Entry) (k : Symbol × Address) :
    Standing :=
  let x := (e.marks s now).foldl (Standing.mark s.staleRules now)
    (s.standing k)
  if e.clears s now then { x with count := 0 } else x

section Settled

variable {s : State} {now : ℕ} {e : Entry} {k : Symbol × Address}

theorem le_stake_settled {least : ℤ} (hleast : 0 < least) :
    least ≤ (s.settled now e k).stake ↔
      least + e.penalties s now * max s.staleSlashAmount 0 ≤
        s.oracleStakeAmt k := by
  have hstake : (s.settled now e k).stake =
      ((e.marks s now).foldl (Standing.mark s.staleRules now)
        (s.standing k)).stake := by
    unfold State.settled
    dsimp only
    split <;> rfl
  rw [hstake]
  exact Standing.le_stake_foldl hleast _

theorem score_settled :
    (s.settled now e k).reputation.score =
      (s.getReputation k.2 k.1).score -
        e.penalties s now * s.staleReputationPenalty := by
  have hscore : (s.settled now e k).reputation =
      ((e.marks s now).foldl (Standing.mark s.staleRules now)
        (s.standing k)).reputation := by
    unfold State.settled
    dsimp only
    split <;> rfl
  rw [hscore]
  exact Standing.score_foldl _

theorem totals_settled :
    (s.settled now e k).reputation.totalSubmissions =
        (s.getReputation k.2 k.1).totalSubmissions ∧
      (s.settled now e k).reputation.accurateSubmissions =
        (s.getReputation k.2 k.1).accurateSubmissions := by
  have hsame : (s.settled now e k).reputation =
      ((e.marks s now).foldl (Standing.mark s.staleRules now)
        (s.standing k)).reputation := by
    unfold State.settled
    dsimp only
    split <;> rfl
  rw [hsame]
  exact Standing.totals_foldl _

end Settled

section Submission

variable {env : Env} {e : Entry} {m m' : Machine State} {k : Symbol × Address}
  {dataType : Symbol} {oracle : Address} {s : State} {u : Unit}

/-- Only the standing of `k` has changed, to `x`. -/
structure Marked (k : Symbol × Address) (x : Standing) (m m' : Machine State) :
    Prop where
  standing : m'.store.standing = Function.update m.store.standing k x
  staleRules : m'.store.staleRules = m.store.staleRules
  minStake : m'.store.minStake = m.store.minStake
  rules : m.store.SameRules m'.store

theorem Marked.self {x : Standing} (h : Marked k x m m') :
    m'.store.standing k = x := by
  rw [h.standing, Function.update_self]

theorem Marked.of_eq (h : m'.store.standing = m.store.standing)
    (hstale : m'.store.staleRules = m.store.staleRules)
    (hmin : m'.store.minStake = m.store.minStake)
    (hrules : m.store.SameRules m'.store) :
    Marked k (m.store.standing k) m m' where
  standing := by rw [h, Function.update_eq_self]
  staleRules := hstale
  minStake := hmin
  rules := hrules

theorem Marked.refl (k : Symbol × Address) (m : Machine State) :
    Marked k (m.store.standing k) m m :=
  .of_eq rfl rfl rfl (.refl _)

theorem Marked.trans {m₁ m₂ m₃ : Machine State} {x y : Standing}
    (h : Marked k x m₁ m₂) (h' : Marked k y m₂ m₃) : Marked k y m₁ m₃ where
  standing := by rw [h'.standing, h.standing, Function.update_idem]
  staleRules := h'.staleRules.trans h.staleRules
  minStake := h'.minStake.trans h.minStake
  rules := h.rules.trans h'.rules

/-! ## The penalty -/

theorem Marked.write {x : Standing} (hk : m'.store.standing k = x)
    (hothers : ∀ j, j ≠ k → m'.store.standing j = m.store.standing j)
    (hstale : m'.store.staleRules = m.store.staleRules)
    (hmin : m'.store.minStake = m.store.minStake)
    (hrules : m.store.SameRules m'.store) : Marked k x m m' where
  standing := by
    funext j
    by_cases hj : j = k
    · rw [hj, hk, Function.update_self]
    · rw [hothers j hj, Function.update_of_ne hj]
  staleRules := hstale
  minStake := hmin
  rules := hrules

theorem storeStaleCount_marked {count : ℕ}
    (h : storeStaleCount dataType oracle count m = .ok (u, m')) :
    Marked (dataType, oracle)
      { m.store.standing (dataType, oracle) with count := count } m m' := by
  obtain rfl := update_ok.mp h
  refine .write ?_ (fun j hj => ?_) rfl rfl ⟨rfl, rfl, rfl⟩
  · simp [State.standing, State.getReputation]
  · simp [State.standing, State.getReputation, hj]

theorem storeStake_marked {amount : ℤ}
    (h : storeStake dataType oracle amount m = .ok (u, m')) :
    Marked (dataType, oracle)
      { m.store.standing (dataType, oracle) with stake := amount } m m' := by
  obtain rfl := update_ok.mp h
  refine .write ?_ (fun j hj => ?_) rfl rfl ⟨rfl, rfl, rfl⟩
  · simp [State.standing, State.getReputation]
  · simp [State.standing, State.getReputation, hj]

theorem storeReputation_marked {rep : OracleReputation}
    (h : storeReputation oracle dataType rep m = .ok (u, m')) :
    Marked (dataType, oracle)
      { m.store.standing (dataType, oracle) with reputation := rep } m m' := by
  obtain rfl := update_ok.mp h
  refine .write ?_ (fun j hj => ?_) rfl rfl ⟨rfl, rfl, rfl⟩
  · simp [State.standing, State.getReputation]
  · simp [State.standing, State.getReputation, hj]

theorem transferSlashed_marked {amount : ℤ}
    (h : transferSlashed env amount m = .ok (u, m')) :
    Marked k (m.store.standing k) m m' := by
  have hstore := transferSlashed_store h
  refine .of_eq ?_ ?_ ?_ ?_ <;> rw [hstore]
  exact .refl _

theorem staleSlash_marked {c : Prop} [Decidable c] {remaining amount : ℤ}
    (h : whenever c (do
      storeStake dataType oracle remaining
      transferSlashed env amount) m = .ok (u, m')) :
    Marked (dataType, oracle)
      { m.store.standing (dataType, oracle) with
        stake :=
          if c then remaining
          else (m.store.standing (dataType, oracle)).stake } m m' := by
  rcases whenever_ok.mp h with ⟨hc, h⟩ | ⟨hc, rfl⟩
  · simp only [bind_ok] at h
    obtain ⟨_, m₁, hstake, hslash⟩ := h
    have hstaked := storeStake_marked hstake
    have hpaid : Marked (dataType, oracle) _ m₁ m' :=
      transferSlashed_marked hslash
    rw [if_pos hc, ← hstaked.self]
    exact hstaked.trans hpaid
  · rw [if_neg hc]
    exact .refl _ _

theorem stalePenalty_marked {c : Prop} [Decidable c] {rep : OracleReputation}
    (h : whenever c (storeReputation oracle dataType rep) m = .ok (u, m')) :
    Marked (dataType, oracle)
      { m.store.standing (dataType, oracle) with
        reputation :=
          if c then rep
          else (m.store.standing (dataType, oracle)).reputation } m m' := by
  rcases whenever_ok.mp h with ⟨hc, h⟩ | ⟨hc, rfl⟩
  · rw [if_pos hc]
    exact storeReputation_marked h
  · rw [if_neg hc]
    exact .refl _ _

/-- A stale reading is counted, and the penalty applied where it is due. -/
theorem handleStaleSubmission_marked
    (h : handleStaleSubmission env oracle dataType m = .ok (u, m')) :
    Marked (dataType, oracle)
      ((m.store.standing (dataType, oracle)).read m.store.staleRules env.now
        [true]) m m' := by
  simp only [handleStaleSubmission, bind_ok, load_ok] at h
  obtain ⟨t, m₀, ⟨rfl, rfl⟩, _, m₁, hcount, h⟩ := h
  have hcounted := storeStaleCount_marked hcount
  rcases whenever_ok.mp h with ⟨hdue, h⟩ | ⟨hdue, rfl⟩
  · simp only [bind_ok] at h
    obtain ⟨_, m₂, hstake, _, m₃, hpenalty, hreset⟩ := h
    have hslashed := staleSlash_marked hstake
    have hlowered := stalePenalty_marked hpenalty
    have hcleared := storeStaleCount_marked hreset
    have hmarked := ((hcounted.trans hslashed).trans hlowered).trans hcleared
    rw [hlowered.self, hslashed.self, hcounted.self] at hmarked
    have hread : (m₀.store.standing (dataType, oracle)).read
        m₀.store.staleRules env.now [true] = _ := Standing.read_due hdue
    rw [hread]
    exact hmarked
  · have hread : (m₀.store.standing (dataType, oracle)).read
        m₀.store.staleRules env.now [true] = _ := Standing.read_not_due hdue
    rw [hread]
    exact hcounted

/-! ## Submissions -/

/-- The readings of a batch are marked in order. -/
theorem forEach_marked {α : Type} {f : α → Call Unit} {flag : α → Bool}
    {now : ℕ} {s : State} {xs : List α} (hrules : s.SameRules m.store)
    (hf : ∀ x ∈ xs, ∀ t v t', s.SameRules t.store → f x t = .ok (v, t') →
      Marked k ((t.store.standing k).read t.store.staleRules now [flag x])
        t t')
    (h : forEach xs f m = .ok (u, m')) :
    Marked k
      ((m.store.standing k).read m.store.staleRules now (xs.map flag)) m
      m' := by
  induction xs generalizing m with
  | nil =>
      obtain ⟨-, rfl⟩ := pure_ok.mp h
      exact .refl k m'
  | cons x xs ih =>
      obtain ⟨_, m₁, hx, hrest⟩ := bind_ok.mp h
      have hfirst := hf x List.mem_cons_self m _ m₁ hrules hx
      have hothers := ih (hrules.trans hfirst.rules)
        (fun y hy => hf y (List.mem_cons_of_mem x hy)) hrest
      rw [hfirst.self, hfirst.staleRules] at hothers
      rw [List.map_cons, Standing.read_cons]
      exact hfirst.trans hothers

theorem acceptBatchReading_marked {s : State} {sub : OracleDataSubmission}
    (hrules : s.SameRules m.store)
    (h : acceptBatchReading env oracle dataType sub m = .ok (u, m')) :
    Marked (dataType, oracle)
      ((m.store.standing (dataType, oracle)).read m.store.staleRules env.now
        [s.stale env.now dataType sub.timestamp]) m m' := by
  obtain ⟨-, h⟩ := acceptBatchReading_ok.mp h
  rw [congrFun hrules.age dataType] at h
  unfold State.stale
  split_ifs at h with hstale
  · rw [decide_eq_true hstale]
    exact handleStaleSubmission_marked h
  · rw [decide_eq_false hstale, h]
    exact .of_eq rfl rfl rfl ⟨rfl, rfl, rfl⟩

theorem Marked.clear {x : Standing} {m₁ : Machine State}
    (h : Marked (dataType, oracle) x m m₁)
    (hreset : resetStaleCount oracle dataType m₁ = .ok (u, m')) :
    Marked (dataType, oracle) { x with count := 0 } m m' := by
  have hcleared := storeStaleCount_marked hreset
  rw [h.self] at hcleared
  exact h.trans hcleared

/-- A batch. -/
theorem settled_batch {now : ℕ} {submissions : List OracleDataSubmission}
    (hsub : e.submitsFor = some (dataType, oracle))
    (htimes : e.times = submissions.map (·.timestamp)) :
    s.settled now e (dataType, oracle) =
      let x := (s.standing (dataType, oracle)).read s.staleRules now
        (submissions.map fun sub => s.stale now dataType sub.timestamp)
      if e.clears s now then { x with count := 0 } else x := by
  simp only [State.settled, Entry.marks, hsub, htimes, List.map_map]
  rfl

section Single

variable {now timestamp : ℕ}
  (hsub : e.submitsFor = some (dataType, oracle))
  (htimes : e.times = [timestamp])
  (hclears : e.clears s now = !s.stale now dataType timestamp)
include hsub htimes hclears

/-- A single stale reading. -/
theorem settled_stale (hflag : s.stale now dataType timestamp = true) :
    s.settled now e (dataType, oracle) =
      (s.standing (dataType, oracle)).read s.staleRules now [true] := by
  unfold State.settled
  rw [hclears, hflag]
  simp only [Entry.marks, hsub, htimes, List.map_cons, List.map_nil, hflag]
  rfl

/-- A single fresh reading. -/
theorem settled_fresh (hflag : s.stale now dataType timestamp = false) :
    s.settled now e (dataType, oracle) =
      { s.standing (dataType, oracle) with count := 0 } := by
  unfold State.settled
  rw [hclears, hflag]
  simp only [Entry.marks, hsub, htimes, List.map_cons, List.map_nil, hflag]
  rfl

end Single

theorem submitData_marked {key : Symbol} {value : ℤ}
    {confidence timestamp : ℕ}
    (h : submitData env oracle dataType key value confidence timestamp m =
      .ok (u, m')) :
    Marked (dataType, oracle)
      (m.store.settled env.now
        (.submitData oracle dataType key value confidence timestamp)
        (dataType, oracle)) m m' := by
  obtain ⟨-, -, h⟩ :=
    (submitData_ok ⟨key, value, confidence, timestamp⟩).mp h
  have hstamp : Marked (dataType, oracle)
      (m.store.standing (dataType, oracle)) m
      { m with store := m.store.stamp env.now dataType oracle } :=
    .of_eq rfl rfl rfl ⟨rfl, rfl, rfl⟩
  split_ifs at h with hstale
  · rw [settled_stale rfl rfl rfl (decide_eq_true hstale)]
    exact hstamp.trans (handleStaleSubmission_marked h)
  · rw [settled_fresh rfl rfl rfl (decide_eq_false hstale)]
    obtain ⟨-, rfl⟩ := h
    refine hstamp.trans (.write ?_ (fun j hj => ?_) rfl rfl ⟨rfl, rfl, rfl⟩)
    · simp [State.standing, State.getReputation, State.clear, State.take,
        State.stamp]
    · simp [State.standing, State.getReputation, State.clear, State.take,
        State.stamp, hj]

theorem enforceRateLimit_marked
    (h : enforceRateLimit env dataType oracle m = .ok (u, m')) :
    Marked k (m.store.standing k) m m' := by
  simp only [enforceRateLimit, bind_ok, load_ok, ensure_ok, update_ok] at h
  obtain ⟨_, _, ⟨-, rfl⟩, _, _, ⟨-, rfl⟩, rfl⟩ := h
  exact .of_eq rfl rfl rfl ⟨rfl, rfl, rfl⟩

theorem submitEncryptedData_marked {key : Symbol} {ciphertext nonce : Bytes}
    {confidence timestamp : ℕ}
    (h : submitEncryptedData env oracle dataType key ciphertext nonce
      confidence timestamp m = .ok (u, m')) :
    Marked (dataType, oracle)
      (m.store.settled env.now
        (.submitEncryptedData oracle dataType key ciphertext nonce confidence
          timestamp) (dataType, oracle)) m m' := by
  simp only [submitEncryptedData, validateSymbolLen, requireDataTypeActive,
    validateKeyLen, bind_ok, requireAuth_ok, load_ok, ensure_ok,
    requireActiveOracle_ok] at h
  obtain ⟨_, _, ⟨-, rfl⟩, _, _, ⟨_, _, ⟨rfl, rfl⟩, -, rfl⟩, _, _, ⟨-, rfl⟩,
    _, _, ⟨-, rfl⟩, _, _, ⟨-, rfl⟩, _, _, ⟨-, rfl⟩, _, _, ⟨-, rfl⟩, _, _,
    ⟨-, rfl⟩, _, m₀, ⟨-, rfl⟩, _, _, hrate, _, m₁, ⟨rfl, rfl⟩, h⟩ := h
  have hstamp : Marked (dataType, oracle) _ m₀ m₁ :=
    enforceRateLimit_marked hrate
  rcases ite_ok.mp h with ⟨hstale, h⟩ | ⟨hstale, h⟩
  · rw [congrFun hstamp.rules.age dataType] at hstale
    rw [settled_stale rfl rfl rfl (decide_eq_true hstale)]
    have hmarked := handleStaleSubmission_marked h
    rw [hstamp.self, hstamp.staleRules] at hmarked
    exact hstamp.trans hmarked
  · rw [congrFun hstamp.rules.age dataType] at hstale
    rw [settled_fresh rfl rfl rfl (decide_eq_false hstale)]
    simp only [bind_ok, update_ok] at h
    obtain ⟨_, m₂, hstore, hreset⟩ := h
    have hstored : Marked (dataType, oracle)
        (m₁.store.standing (dataType, oracle)) m₁ m₂ := by
      rw [hstore]
      exact .of_eq rfl rfl rfl ⟨rfl, rfl, rfl⟩
    rw [hstamp.self] at hstored
    exact (hstamp.trans hstored).clear hreset

theorem openBatch_marked
    (h : openBatch env oracle dataType m = .ok (u, m')) :
    Marked (dataType, oracle) (m.store.standing (dataType, oracle)) m m' := by
  rw [← bind_pure_unit (x := openBatch env oracle dataType)] at h
  obtain ⟨-, h⟩ := openBatch_bind.mp h
  obtain ⟨-, rfl⟩ := pure_ok.mp h
  exact .of_eq rfl rfl rfl ⟨rfl, rfl, rfl⟩

theorem batchSubmitData_marked {submissions : List OracleDataSubmission}
    (h : batchSubmitData env oracle dataType submissions m = .ok (u, m')) :
    Marked (dataType, oracle)
      (m.store.settled env.now (.batchSubmitData oracle dataType submissions)
        (dataType, oracle)) m m' := by
  obtain ⟨_, m₁, hopen, hloop⟩ := bind_ok.mp h
  have hopened := openBatch_marked hopen
  have hread : Marked (dataType, oracle)
      ((m₁.store.standing (dataType, oracle)).read m₁.store.staleRules env.now
        (submissions.map fun sub =>
          m.store.stale env.now dataType sub.timestamp)) m₁ m' := by
    refine forEach_marked hopened.rules ?_ hloop
    intro sub _ t v t' hrules hrun
    simp only [validateKeyLen, bind_ok, ensure_ok] at hrun
    obtain ⟨_, _, ⟨-, rfl⟩, _, _, ⟨-, rfl⟩, _, _, ⟨-, rfl⟩, haccept⟩ := hrun
    exact acceptBatchReading_marked hrules haccept
  rw [settled_batch rfl rfl]
  rw [hopened.self, hopened.staleRules] at hread
  exact hopened.trans hread

theorem submitDataBatch_marked {submissions : List OracleDataSubmission}
    (h : submitDataBatch env oracle dataType submissions m = .ok (u, m')) :
    Marked (dataType, oracle)
      (m.store.settled env.now (.submitDataBatch oracle dataType submissions)
        (dataType, oracle)) m m' := by
  obtain ⟨_, m₁, hopen, h⟩ := bind_ok.mp h
  obtain ⟨_, m₂, hloop, hreset⟩ := bind_ok.mp h
  have hopened := openBatch_marked hopen
  have hread : Marked (dataType, oracle)
      ((m₁.store.standing (dataType, oracle)).read m₁.store.staleRules env.now
        (submissions.map fun sub =>
          m.store.stale env.now dataType sub.timestamp)) m₁ m₂ := by
    refine forEach_marked hopened.rules ?_ hloop
    intro sub _ t v t' hrules hrun
    simp only [validateKeyLen, bind_ok, ensure_ok] at hrun
    obtain ⟨_, _, ⟨-, rfl⟩, _, _, ⟨-, rfl⟩, _, _, ⟨-, rfl⟩, haccept⟩ := hrun
    exact acceptBatchReading_marked hrules haccept
  rw [settled_batch rfl rfl]
  rw [hopened.self, hopened.staleRules] at hread
  exact (hopened.trans hread).clear hreset

/-- An accepted submission changes the standing of its oracle, and no
other. -/
theorem exec_marked (h : exec env e m = .ok ((), m'))
    (he : e.submitsFor = some k) :
    Marked k (m.store.settled env.now e k) m m' := by
  cases e with
  | submitData =>
      obtain rfl := Option.some.inj he
      exact submitData_marked h
  | batchSubmitData =>
      obtain rfl := Option.some.inj he
      exact batchSubmitData_marked h
  | submitDataBatch =>
      obtain rfl := Option.some.inj he
      exact submitDataBatch_marked h
  | submitEncryptedData =>
      obtain rfl := Option.some.inj he
      exact submitEncryptedData_marked h
  | _ => cases he

/-- Other calls leave the counters alone, and all but one the minimum
stake. -/
theorem exec_unsubmitted (h : exec env e m = .ok ((), m'))
    (he : e.submitsFor = none) :
    m'.store.staleCount = m.store.staleCount ∧
      (m'.store.minStake = m.store.minStake ∨
        ∃ admin minStake, e = .setMinStake admin minStake ∧
          m'.store.minStake = minStake) := by
  have hscored : ∀ {t t' : Machine State} {d : Symbol}, Scored d t t' →
      t'.store.staleCount = t.store.staleCount ∧
        t'.store.minStake = t.store.minStake := by
    intro t t' d hscored
    have hstore : t'.store = _ := hscored.store
    rw [hstore]
    exact ⟨rfl, rfl⟩
  cases e with
  | setMinStake =>
      simp [exec, setMinStake, setting] at h
      obtain ⟨-, -, rfl⟩ := h
      exact ⟨rfl, .inr ⟨_, _, rfl, rfl⟩⟩
  | setReputation =>
      simp [exec, setReputation, storeReputation] at h
      obtain ⟨-, -, rfl⟩ := h
      exact ⟨rfl, .inl rfl⟩
  | invalidateData =>
      simp [exec, invalidateData] at h
      obtain ⟨-, rfl⟩ := h
      exact ⟨rfl, .inl rfl⟩
  | submitData => cases he
  | batchSubmitData => cases he
  | submitDataBatch => cases he
  | submitEncryptedData => cases he
  | verifyTrigger =>
      obtain ⟨b, h⟩ := perform_ok.mp h
      obtain ⟨v, -, -, hspec⟩ := verifyTrigger_spec h
      exact (hscored hspec).imp_right .inl
  | verifyTriggerFresh =>
      obtain ⟨b, h⟩ := perform_ok.mp h
      obtain ⟨v, -, -, hspec⟩ := verifyTriggerFresh_spec h
      exact (hscored hspec).imp_right .inl
  | batchVerifyFresh queries =>
      obtain ⟨bs, h⟩ := perform_ok.mp h
      have hkeeps : Keeps (fun t : Machine State =>
          t.store.staleCount = m.store.staleCount ∧
            t.store.minStake = m.store.minStake)
          (batchVerifyFresh env queries) := by
        apply keeps_collect
        intro query _ t b t' ht hrun
        obtain ⟨v, -, -, hspec⟩ := verifyTriggerFresh_spec hrun
        obtain ⟨hcount, hmin⟩ := hscored hspec
        exact ⟨hcount.trans ht.1, hmin.trans ht.2⟩
      exact (hkeeps m bs m' ⟨rfl, rfl⟩ h).imp_right .inl
  | _ =>
      have hledger := exec_ledger h rfl
      exact ⟨congrArg Ledger.staleCount hledger,
        .inl (congrArg Ledger.minStake hledger)⟩

end Submission

end Parashield.OracleVerifier
