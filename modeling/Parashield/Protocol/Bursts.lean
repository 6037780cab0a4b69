import Parashield.ClaimsProcessor.Office
import Parashield.Protocol.Finality
import Parashield.Support.Buckets

/-!
# The burst rule

The fraud detector remembers of each claimant when the current bucket of
filings was opened and how many it has counted.  A filing is flagged as a burst
if the bucket reaches the limit with it.  So the rule counts what the last
seconds hold, unless the last filings straddle the start of a bucket.
-/

namespace Parashield.Protocol

open Support Support.Contract Invocation
open PolicyEngine (Policy)
open ClaimsProcessor

/-! ## What is filed, and with which flags -/

/-- An accepted filing with the flags it is given. -/
structure Submission where
  submittedAt : ℕ
  flags : ℕ
  deriving DecidableEq

/-- The burst rule has fired. -/
def Submission.burst (x : Submission) : Bool :=
  x.flags &&& fraudFlagBurst != 0

/-- The flags a filing on the policy is given. -/
def flagsFor (env : Context) (claimant : Address) (policyId : ℕ)
    (m : Machine Network) : ℕ :=
  match m.store.claims.fraudConfig with
  | none => 0
  | some cfg =>
      (scoreSubmission cfg env.now (m.store.claims.claimantHistory claimant)
        (((m.store.engine.policies policyId).map
          Policy.coverageAmount).getD 0)).2

/-- The filings on a list of policies, one after the other. -/
def accepted (env : Context) (claimant : Address) :
    List ℕ → Machine Network → List Submission
  | [], _ => []
  | policyId :: policyIds, m =>
      match fileClaim env claimant policyId m with
      | .ok (_, m') =>
          ⟨env.now, flagsFor env claimant policyId m⟩ ::
            accepted env claimant policyIds m'
      | .error _ => []

/-- Who files in a call, and on which policies. -/
def filedBy : ClaimsProcessor.Entry → Option (Address × List ℕ)
  | .submitClaim claimant policyId | .submitClaimWithRef claimant policyId _
  | .submitClaimWithType claimant policyId _ => some (claimant, [policyId])
  | .batchSubmitClaims claimant policyIds =>
      some (claimant, policyIds.take maxBatchSize)
  | _ => none

/-- The filings of `claimant` in a step. -/
def submissions (D : Sites) (claimant : Address) (w : World Network) :
    Label Entry → List Submission
  | .call signers (.claims e) =>
      match filedBy e with
      | some (sender, policyIds) =>
          if sender = claimant then
            accepted (D.context w.now signers) claimant policyIds w.machine
          else
            []
      | none => []
  | _ => []

/-- The detector is on, with `cfg`. -/
def Detecting (cfg : FraudConfig) (w : World Network) (_ : Label Entry) :
    Prop :=
  w.machine.store.claims.fraudConfig = some cfg

instance (cfg : FraudConfig) (w : World Network) (l : Label Entry) :
    Decidable (Detecting cfg w l) :=
  inferInstanceAs (Decidable (w.machine.store.claims.fraudConfig = some cfg))

/-! ## One filing -/

/-- When the filings were made, newest first. -/
def times (past : List Submission) : List ℕ :=
  (past.map Submission.submittedAt).reverse

theorem times_append_cons (before after : List Submission) (x : Submission) :
    times (before ++ x :: after) =
      times after ++ x.submittedAt :: times before := by
  simp [times]

theorem times_snoc (past : List Submission) (x : Submission) :
    times (past ++ [x]) = x.submittedAt :: times past :=
  times_append_cons past [] x

theorem recent_times (past : List Submission) (window now : ℕ) :
    Bucket.recent window now (times past) =
      past.countP fun y => now - y.submittedAt < window := by
  rw [Bucket.recent, times, List.countP_reverse, List.countP_map]
  rfl

/-- The history of a claimant whose filings were made at `ts`. -/
structure Remembers (window : ℕ) (h : ClaimantHistory) (ts : List ℕ) :
    Prop where
  bucketStart : h.burstBucketStart = Bucket.start window ts
  count : h.burstCount = min (Bucket.count window ts) (2 ^ 32 - 1)

section Filing

variable {env : Context} {claimant sender : Address} {policyId id : ℕ}
  {policyIds ids : List ℕ} {cfg : FraudConfig} {ts : List ℕ}
  {past : List Submission} {m m' : Machine Network}

theorem scoreSubmission_burst {now : ℕ} {history : ClaimantHistory}
    {coverageAmount : ℤ} :
    ((scoreSubmission cfg now history coverageAmount).2 &&& fraudFlagBurst !=
        0) = true ↔
      0 < cfg.burstWindowSecs ∧ 0 < cfg.burstCount ∧ 0 < cfg.burstScore ∧
        cfg.burstCount ≤ history.projectedBurst now cfg.burstWindowSecs := by
  have hbit : ∀ rate burst coverage : Bool,
      (((if rate then fraudFlagRate else 0) +
          (if burst then fraudFlagBurst else 0) +
          (if coverage then fraudFlagCoverage else 0)) &&&
        fraudFlagBurst != 0) = burst := by
    decide
  simp only [scoreSubmission]
  rw [hbit]
  exact decide_eq_true_iff

/-- The detector expects of the next filing what the bucket counts with it. -/
theorem Remembers.projected {h : ClaimantHistory} {now window : ℕ}
    (hh : Remembers window h ts) :
    h.projectedBurst now window =
      min (Bucket.count window (now :: ts)) (2 ^ 32 - 1) := by
  unfold ClaimantHistory.projectedBurst satAddU32
  rw [hh.bucketStart, hh.count]
  rcases Bucket.opens_or_joins window now ts with
    ⟨hopens, -, hcount⟩ | ⟨hopen, hin, -, hcount⟩
  · rw [if_neg (by omega), hcount]
    rfl
  · rw [if_pos (by omega), hcount]
    omega

/-- A filing folds its time into the history of its claimant. -/
theorem Remembers.file (hcfg : m.store.claims.fraudConfig = some cfg)
    (hwindow : 0 < cfg.burstWindowSecs)
    (hh : Remembers cfg.burstWindowSecs
      (m.store.claims.claimantHistory claimant) ts)
    (h : fileClaim env claimant policyId m = .ok (id, m')) :
    m'.store.claims.fraudConfig = some cfg ∧
      Remembers cfg.burstWindowSecs (m'.store.claims.claimantHistory claimant)
        (env.now :: ts) := by
  simp [fileClaim, updateClaimantHistory] at h
  obtain ⟨-, -, p, -, product, -, -, -, -, -, -, -, -, -, -, -, -, t, hid, _,
    t', hfraud, rfl⟩ := h
  obtain ⟨-, -, rfl⟩ := nextClaimId_ok hid
  obtain ⟨fraud, rfl⟩ := evaluateFraud_ok hfraud
  refine ⟨hcfg, ?_⟩
  simp only [hcfg, Function.update_self, Nat.ne_of_gt hwindow, if_false]
  rw [hh.bucketStart, hh.count]
  rcases Bucket.opens_or_joins cfg.burstWindowSecs env.now ts with
    ⟨hopens, hstart, hcount⟩ | ⟨hopen, hin, hstart, hcount⟩
  · rw [if_pos hopens]
    exact ⟨hstart.symm, by rw [hcount]; rfl⟩
  · rw [if_neg (by omega)]
    refine ⟨hstart.symm, ?_⟩
    simp only [satAddU32, hcount]
    omega

/-- A filing leaves the histories of all others alone. -/
theorem fileClaim_other (hne : claimant ≠ sender)
    (h : fileClaim env sender policyId m = .ok (id, m')) :
    m'.store.claims.claimantHistory claimant =
      m.store.claims.claimantHistory claimant := by
  simp [fileClaim, updateClaimantHistory] at h
  obtain ⟨-, -, p, -, product, -, -, -, -, -, -, -, -, -, -, -, -, t, hid, _,
    t', hfraud, rfl⟩ := h
  obtain ⟨-, -, rfl⟩ := nextClaimId_ok hid
  obtain ⟨fraud, rfl⟩ := evaluateFraud_ok hfraud
  exact Function.update_of_ne hne ..

end Filing

/-! ## The filings of a claimant -/

/-- Each filing is flagged if its bucket reaches the limit with it. -/
def Judged (cfg : FraudConfig) (past : List Submission) : Prop :=
  ∀ before x after, past = before ++ x :: after →
    (x.burst = true ↔
      cfg.burstCount ≤
        Bucket.count cfg.burstWindowSecs (x.submittedAt :: times before))

/-- What has been filed until `now` is remembered, in order, and flagged. -/
structure Ledger (cfg : FraudConfig) (claimant : Address) (now : ℕ)
    (m : Machine Network) (past : List Submission) : Prop where
  remembers : Remembers cfg.burstWindowSecs
    (m.store.claims.claimantHistory claimant) (times past)
  ordered : (times past).Pairwise (· ≥ ·)
  bounded : ∀ t ∈ times past, t ≤ now
  judged : Judged cfg past

section Ledger

variable {env : Context} {claimant sender : Address} {policyId id now now' : ℕ}
  {policyIds ids : List ℕ} {cfg : FraudConfig} {past : List Submission}
  {m m' : Machine Network}

theorem Judged.snoc {x : Submission} (h : Judged cfg past)
    (hx : x.burst = true ↔
      cfg.burstCount ≤
        Bucket.count cfg.burstWindowSecs (x.submittedAt :: times past)) :
    Judged cfg (past ++ [x]) := by
  intro before y after heq
  rcases List.eq_nil_or_concat after with rfl | ⟨rest, z, rfl⟩
  · obtain ⟨rfl, hlast⟩ := List.append_inj' heq rfl
    obtain rfl := List.singleton_inj.mp hlast
    exact hx
  · have heq' : past ++ [x] = (before ++ y :: rest) ++ [z] := by simpa using heq
    exact h before y rest (List.append_inj' heq' rfl).1

/-- Nothing but filings moves the ledger. -/
theorem Ledger.idle (h : Ledger cfg claimant now m past) (hnow : now ≤ now')
    (hsame : m'.store.claims.claimantHistory claimant =
      m.store.claims.claimantHistory claimant) :
    Ledger cfg claimant now' m' past where
  remembers := hsame ▸ h.remembers
  ordered := h.ordered
  bounded t ht := (h.bounded t ht).trans hnow
  judged := h.judged

/-- A filing is entered with the flag that its bucket calls for. -/
theorem Ledger.file (hon : 0 < cfg.burstWindowSecs ∧ 0 < cfg.burstCount ∧
      0 < cfg.burstScore) (hwidth : cfg.burstCount < 2 ^ 32)
    (hcfg : m.store.claims.fraudConfig = some cfg)
    (h : Ledger cfg claimant env.now m past)
    (hfile : fileClaim env claimant policyId m = .ok (id, m')) :
    Ledger cfg claimant env.now m'
      (past ++ [⟨env.now, flagsFor env claimant policyId m⟩]) := by
  obtain ⟨-, hremembers⟩ := h.remembers.file hcfg hon.1 hfile
  refine ⟨?_, ?_, ?_, h.judged.snoc ?_⟩
  · rw [times_snoc]
    exact hremembers
  · rw [times_snoc]
    exact List.pairwise_cons.mpr ⟨h.bounded, h.ordered⟩
  · rw [times_snoc]
    exact List.forall_mem_cons.mpr ⟨Nat.le_refl env.now, h.bounded⟩
  · simp only [Submission.burst, flagsFor, hcfg]
    rw [scoreSubmission_burst, h.remembers.projected]
    constructor
    · rintro ⟨-, -, -, hreached⟩
      omega
    · intro hreached
      exact ⟨hon.1, hon.2.1, hon.2.2, by omega⟩

/-- So are the filings of a list. -/
theorem Ledger.collect (hon : 0 < cfg.burstWindowSecs ∧ 0 < cfg.burstCount ∧
      0 < cfg.burstScore) (hwidth : cfg.burstCount < 2 ^ 32)
    (hcfg : m.store.claims.fraudConfig = some cfg)
    (h : Ledger cfg claimant env.now m past)
    (hcollect : collect policyIds (fileClaim env claimant) m =
      .ok (ids, m')) :
    Ledger cfg claimant env.now m'
      (past ++ accepted env claimant policyIds m) := by
  induction policyIds generalizing m past ids with
  | nil =>
      obtain ⟨-, rfl⟩ := pure_ok.mp hcollect
      simpa [accepted] using h
  | cons policyId policyIds ih =>
      simp only [Support.Contract.collect, bind_ok, pure_ok] at hcollect
      obtain ⟨id, t, hfile, rest, t', hrest, -, rfl⟩ := hcollect
      have hcfg' := (h.remembers.file hcfg hon.1 hfile).1
      have hend := ih hcfg' (h.file hon hwidth hcfg hfile) hrest
      rw [accepted, hfile]
      simpa using hend

/-- The filings of others leave the ledger alone. -/
theorem collect_other (hne : claimant ≠ sender)
    (h : collect policyIds (fileClaim env sender) m = .ok (ids, m')) :
    m'.store.claims.claimantHistory claimant =
      m.store.claims.claimantHistory claimant := by
  induction policyIds generalizing m ids with
  | nil =>
      obtain ⟨-, rfl⟩ := pure_ok.mp h
      rfl
  | cons policyId policyIds ih =>
      simp only [collect, bind_ok, pure_ok] at h
      obtain ⟨id, t, hfile, rest, t', hrest, -, rfl⟩ := h
      exact (ih hrest).trans (fileClaim_other hne hfile)

end Ledger

/-! ## Calls -/

section Calls

variable {env : Context} {claimant sender : Address} {e : ClaimsProcessor.Entry}
  {policyIds : List ℕ} {m m' : Machine Network} {u : Unit}

/-- Only calls that file write the histories. -/
theorem exec_history (hfiles : e.files = false)
    (h : ClaimsProcessor.exec env e m = .ok (u, m')) :
    m'.store.claims.claimantHistory = m.store.claims.claimantHistory := by
  have haside : Aside fun t : Machine Network =>
      t.store.claims.claimantHistory = m.store.claims.claimantHistory :=
    fun ht _ _ hsame => hsame.trans ht
  cases he : e.governs with
  | false => exact exec_aside haside he hfiles m u m' rfl h
  | true =>
      cases e with
      | initializeProcessor =>
          simp [ClaimsProcessor.exec, initializeProcessor] at h
          obtain ⟨-, -, rfl⟩ := h
          rfl
      | setGuardians =>
          simp [ClaimsProcessor.exec, setGuardians] at h
          obtain ⟨-, -, rfl⟩ := h
          rfl
      | setGuardianThreshold =>
          simp [ClaimsProcessor.exec, setGuardianThreshold] at h
          obtain ⟨-, -, -, rfl⟩ := h
          rfl
      | proposeNewAdmin =>
          simp [ClaimsProcessor.exec, proposeNewAdmin, ite_ok] at h
          obtain ⟨-, -, ⟨-, rfl⟩ | ⟨-, rfl⟩⟩ := h
          · rfl
          · rfl
      | approveAdminChange =>
          simp [ClaimsProcessor.exec, approveAdminChange, ite_ok] at h
          obtain ⟨-, -, p, -, -, -, ⟨-, rfl⟩ | ⟨-, rfl⟩⟩ := h
          · rfl
          · rfl
      | acceptAdmin =>
          simp [ClaimsProcessor.exec, acceptAdmin] at h
          obtain ⟨-, -, -, rfl⟩ := h
          rfl
      | _ => cases he

/-- A call that files runs through its list. -/
theorem exec_files (hfiled : filedBy e = some (sender, policyIds))
    (h : ClaimsProcessor.exec env e m = .ok (u, m')) :
    ∃ ids t, collect policyIds (fileClaim env sender) m = .ok (ids, t) ∧
      m'.store.claims.claimantHistory = t.store.claims.claimantHistory := by
  have hsingle : ∀ {policyId id : ℕ} {t : Machine Network},
      fileClaim env sender policyId m = .ok (id, t) →
      collect [policyId] (fileClaim env sender) m = .ok ([id], t) := by
    intro policyId id t hfile
    simp [collect, hfile]
  cases e with
  | submitClaim claimant policyId =>
      obtain ⟨rfl, rfl⟩ := Prod.mk.inj (Option.some.inj hfiled)
      simp [ClaimsProcessor.exec, submitClaim] at h
      obtain ⟨-, id, hfile⟩ := h
      exact ⟨_, _, hsingle hfile, rfl⟩
  | submitClaimWithRef claimant policyId reference =>
      obtain ⟨rfl, rfl⟩ := Prod.mk.inj (Option.some.inj hfiled)
      simp [ClaimsProcessor.exec, submitClaimWithRef] at h
      obtain ⟨-, -, -, id, t, hfile, rfl⟩ := h
      exact ⟨_, _, hsingle hfile, rfl⟩
  | submitClaimWithType claimant policyId claimType =>
      obtain ⟨rfl, rfl⟩ := Prod.mk.inj (Option.some.inj hfiled)
      simp [ClaimsProcessor.exec, submitClaimWithType] at h
      obtain ⟨-, -, id, hfile⟩ := h
      exact ⟨_, _, hsingle hfile, rfl⟩
  | batchSubmitClaims claimant policyIds =>
      obtain ⟨rfl, rfl⟩ := Prod.mk.inj (Option.some.inj hfiled)
      simp [ClaimsProcessor.exec, batchSubmitClaims] at h
      obtain ⟨-, ids, hcollect⟩ := h
      exact ⟨_, _, hcollect, rfl⟩
  | _ => cases hfiled

theorem files_of_filedBy (hnone : filedBy e = none) : e.files = false := by
  cases e with
  | submitClaim => cases hnone
  | submitClaimWithRef => cases hnone
  | submitClaimWithType => cases hnone
  | batchSubmitClaims => cases hnone
  | _ => rfl

end Calls

/-! ## Runs -/

section Runs

variable {D : Sites} {cfg : FraudConfig} {claimant : Address}
  {past : List Submission} {w₀ w w' : World Network} {l : Label Entry}

/-- A step files for the claimant, or leaves the history of the claimant
alone. -/
theorem step_submissions (claimant : Address) (hstep : (system D).Step w l w') :
    (submissions D claimant w l = [] ∧
        w'.machine.store.claims.claimantHistory claimant =
          w.machine.store.claims.claimantHistory claimant) ∨
      ∃ signers policyIds ids t,
        submissions D claimant w l =
          accepted (D.context w.now signers) claimant policyIds w.machine ∧
        collect policyIds (fileClaim (D.context w.now signers) claimant)
          w.machine = .ok (ids, t) ∧
        w'.machine.store.claims.claimantHistory claimant =
          t.store.claims.claimantHistory claimant := by
  by_cases hl : ∃ signers e, l = .call signers (.claims e)
  swap
  · have hclaims := (step_claims hstep).resolve_left hl
    refine .inl ⟨?_, by rw [hclaims]⟩
    cases l with
    | call signers e =>
        cases e with
        | claims e => exact absurd ⟨signers, e, rfl⟩ hl
        | _ => rfl
    | _ => rfl
  obtain ⟨signers, e, rfl⟩ := hl
  obtain ⟨-, -, hexec⟩ := call_exec hstep
  cases hfiled : filedBy e with
  | none =>
      have hsame := exec_history (files_of_filedBy hfiled) hexec
      exact .inl ⟨by simp [submissions, hfiled], congrFun hsame claimant⟩
  | some filing =>
      obtain ⟨sender, policyIds⟩ := filing
      obtain ⟨ids, t, hcollect, hsame⟩ := exec_files hfiled hexec
      by_cases hsender : sender = claimant
      · subst hsender
        exact .inr ⟨signers, policyIds, ids, t, by simp [submissions, hfiled],
          hcollect, congrFun hsame sender⟩
      · refine .inl ⟨by simp [submissions, hfiled, hsender], ?_⟩
        exact (congrFun hsame claimant).trans
          (collect_other (Ne.symm hsender) hcollect)

/-- Every step enters its filings. -/
theorem step_ledger (hon : 0 < cfg.burstWindowSecs ∧ 0 < cfg.burstCount ∧
      0 < cfg.burstScore) (hwidth : cfg.burstCount < 2 ^ 32)
    (h : Ledger cfg claimant w.now w.machine past)
    (hstep : ((system D).restrict (Detecting cfg)).Step w l w') :
    Ledger cfg claimant w'.now w'.machine
      (past ++ submissions D claimant w l) := by
  obtain ⟨hcfg, hstep⟩ := hstep
  have hnow : w.now ≤ w'.now := hstep.2.now_le
  rcases step_submissions claimant hstep with
    ⟨hnone, hsame⟩ | ⟨signers, policyIds, ids, t, hfiled, hcollect, hsame⟩
  · rw [hnone, List.append_nil]
    exact h.idle hnow hsame
  · rw [hfiled]
    exact (h.collect hon hwidth hcfg hcollect).idle hnow hsame

theorem outputs_judged {ls : List (Label Entry)} {filings : List Submission}
    (hon : 0 < cfg.burstWindowSecs ∧ 0 < cfg.burstCount ∧ 0 < cfg.burstScore)
    (hwidth : cfg.burstCount < 2 ^ 32)
    (hnew : w₀.machine.store.claims.claimantHistory claimant =
      ClaimsProcessor.State.deployed.claimantHistory claimant)
    (hrun : ((system D).restrict (Detecting cfg)).Outputs
      (submissions D claimant) w₀ ls w filings) :
    Ledger cfg claimant w.now w.machine filings := by
  have hstart : Ledger cfg claimant w₀.now w₀.machine [] := by
    refine ⟨?_, List.Pairwise.nil, List.forall_mem_nil _, ?_⟩
    · rw [hnew]
      exact ⟨rfl, rfl⟩
    · intro before x after heq
      simp at heq
  simpa using hrun.preserves
    (Q := fun w past => Ledger cfg claimant w.now w.machine past)
    (fun _ _ _ _ h hstep => step_ledger hon hwidth h hstep) hstart

/-- With the burst rule on and left alone, a filing is flagged if and only if
with it at least `burst_count` filings of the claimant lie in the last
`burst_window_secs` seconds and the last of them do not straddle the start of
its bucket. -/
theorem burst_flagged_iff {ls : List (Label Entry)} {filings : List Submission}
    (hon : 0 < cfg.burstWindowSecs ∧ 0 < cfg.burstCount ∧ 0 < cfg.burstScore)
    (hwidth : cfg.burstCount < 2 ^ 32)
    (hnew : w₀.machine.store.claims.claimantHistory claimant =
      ClaimsProcessor.State.deployed.claimantHistory claimant)
    (hrun : ((system D).restrict (Detecting cfg)).Outputs
      (submissions D claimant) w₀ ls w filings) :
    ∀ before x after, filings = before ++ x :: after →
      (x.burst = true ↔
        cfg.burstCount ≤
            (before ++ [x]).countP (fun y =>
              x.submittedAt - y.submittedAt < cfg.burstWindowSecs) ∧
          ¬ Bucket.Straddles cfg.burstWindowSecs cfg.burstCount x.submittedAt
            (times before)) := by
  intro before x after heq
  have hledger := outputs_judged hon hwidth hnew hrun
  have hordered : (x.submittedAt :: times before).Pairwise (· ≥ ·) := by
    have hall := hledger.ordered
    rw [heq, times_append_cons] at hall
    exact (List.pairwise_append.mp hall).2.1
  rw [hledger.judged before x after heq,
    Bucket.le_count_iff hon.1 hon.2.1 hordered, ← times_snoc, recent_times]

end Runs

/-! ## Filings around the edge of a bucket -/

namespace Scenario

def twoClaimsAnHour : FraudConfig where
  rateWindowSecs := 0
  rateScore := 0
  burstWindowSecs := 3600
  burstCount := 2
  burstScore := 30
  coverageAnomalyMultiplier := 0
  coverageScore := 0
  fraudThresholdScore := 50
  mode := .flagOnly

/-- Two more policies are bought, and the detector is switched on. -/
def watching : List (Label Entry) :=
  [.call [holder] (.engine
      (.buyPolicy holder 1 1000000 365 Symbols.weather usdc)),
    .call [holder] (.engine (.buyPolicy holder 1 1000000 365 Symbols.crop usdc)),
    .call [admin] (.claims (.setFraudConfig admin twoClaimsAnHour))]

def watched : World Network :=
  (TransitionSystem.execute (step sites) watching insured).get
    (by decide +kernel)

/-- The last two filings are one minute apart, in two buckets. -/
def spaced : List (Label Entry) :=
  [.call [holder] (.claims (.submitClaim holder 1)), .tick 3540,
    .call [holder] (.claims (.submitClaim holder 2)), .tick 60,
    .call [holder] (.claims (.submitClaim holder 3))]

def evaded : World Network :=
  (TransitionSystem.execute
    (TransitionSystem.guarded (Detecting twoClaimsAnHour) (step sites)) spaced
    watched).get (by decide +kernel)

def spacedFilings : List Submission :=
  [⟨1000000, 0⟩, ⟨1003540, fraudFlagBurst⟩, ⟨1003600, 0⟩]

theorem watched_reachable : (system sites).Reachable watched :=
  (insured_reachable (G := fun _ _ => True) fun _ _ _ => trivial).of_restrict.run
    (TransitionSystem.run_of_execute (fun _ _ _ => step_sound)
      (Option.some_get _).symm)

theorem spaced_outputs :
    ((system sites).restrict (Detecting twoClaimsAnHour)).Outputs
      (submissions sites holder) watched spaced evaded spacedFilings := by
  have hfilings : TransitionSystem.emit
      (TransitionSystem.guarded (Detecting twoClaimsAnHour) (step sites))
      (submissions sites holder) spaced watched = spacedFilings := by
    decide +kernel
  rw [← hfilings]
  exact TransitionSystem.outputs_of_execute
    (TransitionSystem.guarded_sound fun _ _ _ => step_sound)
    (Option.some_get _).symm

end Scenario

open Scenario in
/-- Two claims within a minute, of which the second is not flagged. -/
theorem burst_missed_around_edge :
    (system sites).Reachable watched ∧
      watched.machine.store.claims.claimantHistory holder =
        ClaimsProcessor.State.deployed.claimantHistory holder ∧
      ((system sites).restrict (Detecting twoClaimsAnHour)).Outputs
        (submissions sites holder) watched spaced evaded spacedFilings ∧
      ∃ before x after, spacedFilings = before ++ x :: after ∧
        twoClaimsAnHour.burstCount ≤ (before ++ [x]).countP (fun y =>
          x.submittedAt - y.submittedAt < twoClaimsAnHour.burstWindowSecs) ∧
        x.burst = false :=
  ⟨watched_reachable, by decide +kernel, spaced_outputs,
    [⟨1000000, 0⟩, ⟨1003540, fraudFlagBurst⟩], ⟨1003600, 0⟩, [], rfl,
    by decide, by decide⟩

open Scenario in
/-- The second of the three filings is flagged, the third straddles. -/
theorem burst_flagged_iff_spaced :
    (⟨1003540, fraudFlagBurst⟩ : Submission).burst = true ∧
      Bucket.Straddles 3600 2 1003600 [1003540, 1000000] := by
  have hall := burst_flagged_iff (by decide) (by decide) (by decide +kernel)
    spaced_outputs
  have hsecond :=
    hall [⟨1000000, 0⟩] ⟨1003540, fraudFlagBurst⟩ [⟨1003600, 0⟩] rfl
  have hthird :=
    hall [⟨1000000, 0⟩, ⟨1003540, fraudFlagBurst⟩] ⟨1003600, 0⟩ [] rfl
  refine ⟨hsecond.mpr ⟨by decide, ?_⟩, ?_⟩
  · rintro ⟨t, ht, -, hearly⟩
    obtain rfl := Option.some.inj ht
    revert hearly
    decide
  · by_contra hnot
    have hflagged := hthird.mpr ⟨by decide, hnot⟩
    revert hflagged
    decide

end Parashield.Protocol
