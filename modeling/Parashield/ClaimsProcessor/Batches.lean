import Parashield.ClaimsProcessor.Moves

/-!
# Claims processor: batches against single calls

A batch sorts the pending queue by a bubble sort and processes its head claim
by claim, each in a call of the processor to itself.  The sort is stable, and
a call of the processor to itself comes to the same as a call of the keeper.
-/

namespace Parashield.ClaimsProcessor

open Support Support.Contract Invocation
open PolicyEngine (Policy)

/-! ## The sort -/

section Sorting

variable {k : ℕ} {xs ys : List (ℕ × ℕ)}

/-- Sorted by submission time, oldest first. -/
def Oldest (xs : List (ℕ × ℕ)) : Prop :=
  xs.Pairwise fun x y => x.2 ≤ y.2

/-- A pass swaps only entries of different times. -/
theorem bubble_filter (t : ℕ) :
    (bubble k xs).filter (fun x => x.2 = t) = xs.filter fun x => x.2 = t := by
  fun_induction bubble k xs with
  | case1 => rfl
  | case2 => rfl
  | case3 => rfl
  | case4 k x y xs hlt ih =>
      by_cases hx : x.2 = t
      · have hy : y.2 ≠ t := by omega
        simp only [List.filter_cons, hx, hy, ih, decide_true, decide_false,
          if_true, if_false, Bool.false_eq_true]
      · by_cases hy : y.2 = t
        · simp [hx, hy, ih]
        · simp [hx, hy, ih]
  | case5 k x y xs hle ih => simp only [List.filter_cons, ih]

/-- A pass over the first `k` neighbours leaves what comes after them. -/
theorem bubble_append (h : k < xs.length) :
    bubble k (xs ++ ys) = bubble k xs ++ ys := by
  induction k generalizing xs with
  | zero =>
      match xs, ys with
      | [x], [] => rfl
      | [x], y :: ys => rfl
      | x :: y :: xs, ys => rfl
  | succ k ih =>
      match xs with
      | [x] => simp at h
      | x :: y :: xs =>
          simp only [List.length_cons, Nat.add_lt_add_iff_right] at h
          have hx : bubble k (x :: (xs ++ ys)) = bubble k (x :: xs) ++ ys :=
            ih (show k < (x :: xs).length from h)
          have hy : bubble k (y :: (xs ++ ys)) = bubble k (y :: xs) ++ ys :=
            ih (show k < (y :: xs).length from h)
          simp only [List.cons_append, bubble, hx, hy]
          split <;> rfl

/-- A pass over a whole list carries the newest entry to its end. -/
theorem bubble_newest (x : ℕ × ℕ) (xs : List (ℕ × ℕ)) :
    ∃ front last, bubble xs.length (x :: xs) = front ++ [last] ∧
      ∀ y ∈ x :: xs, y.2 ≤ last.2 := by
  induction xs generalizing x with
  | nil => exact ⟨[], x, rfl, by simp⟩
  | cons y xs ih =>
      by_cases hlt : y.2 < x.2
      · obtain ⟨front, last, hpass, hnewest⟩ := ih x
        refine ⟨y :: front, last, ?_, ?_⟩
        · simp only [List.length_cons, bubble, if_pos hlt, hpass,
            List.cons_append]
        · have hx := hnewest x List.mem_cons_self
          simp only [List.mem_cons] at hnewest ⊢
          rintro z (rfl | rfl | hz)
          · exact hx
          · omega
          · exact hnewest z (.inr hz)
      · obtain ⟨front, last, hpass, hnewest⟩ := ih y
        refine ⟨x :: front, last, ?_, ?_⟩
        · simp only [List.length_cons, bubble, if_neg hlt, hpass,
            List.cons_append]
        · have hy := hnewest y List.mem_cons_self
          simp only [List.mem_cons] at hnewest ⊢
          rintro z (rfl | rfl | hz)
          · omega
          · exact hy
          · exact hnewest z (.inr hz)

/-- The passes made so far. -/
def passes (xs : List (ℕ × ℕ)) (n : ℕ) : List (ℕ × ℕ) :=
  (List.range n).foldl (fun ys i => bubble (xs.length - i - 1) ys) xs

theorem passes_succ (xs : List (ℕ × ℕ)) (n : ℕ) :
    passes xs (n + 1) = bubble (xs.length - n - 1) (passes xs n) := by
  simp [passes, List.range_succ]

theorem passes_perm (xs : List (ℕ × ℕ)) (n : ℕ) : (passes xs n).Perm xs := by
  induction n with
  | zero => rfl
  | succ n ih =>
      rw [passes_succ]
      exact bubble_perm.trans ih

/-- After `n` passes the last `n` entries are the newest ones, sorted. -/
theorem passes_sorted (xs : List (ℕ × ℕ)) {n : ℕ} (hn : n ≤ xs.length) :
    ∃ front back, passes xs n = front ++ back ∧ back.length = n ∧
      Oldest back ∧ ∀ x ∈ front, ∀ y ∈ back, x.2 ≤ y.2 := by
  induction n with
  | zero => exact ⟨xs, [], by simp [passes], rfl, .nil, by simp⟩
  | succ n ih =>
      obtain ⟨front, back, hpasses, hlength, hsorted, hbelow⟩ := ih (by omega)
      have hfront : front.length = xs.length - n := by
        have htotal := (passes_perm xs n).length_eq
        rw [hpasses, List.length_append] at htotal
        omega
      obtain ⟨x, rest, rfl⟩ : ∃ x rest, front = x :: rest :=
        List.exists_cons_of_length_pos (by omega)
      obtain ⟨front', last, hpass, hnewest⟩ := bubble_newest x rest
      have hrest : xs.length - n - 1 = rest.length := by
        rw [List.length_cons] at hfront
        omega
      have hperm : (front' ++ [last]).Perm (x :: rest) := by
        rw [← hpass]
        exact bubble_perm
      refine ⟨front', last :: back, ?_, by simp [hlength], ?_, ?_⟩
      · rw [passes_succ, hpasses, hrest, bubble_append (by simp), hpass]
        simp
      · have hmem : last ∈ x :: rest := hperm.mem_iff.mp (by simp)
        exact List.pairwise_cons.mpr ⟨hbelow last hmem, hsorted⟩
      · have hmem : ∀ z ∈ front', z ∈ x :: rest := fun z hz =>
          hperm.mem_iff.mp (by simp [hz])
        intro z hz y hy
        rcases List.mem_cons.mp hy with rfl | hy
        · exact hnewest z (hmem z hz)
        · exact hbelow z (hmem z hz) y hy

/-- The bubble sort sorts. -/
theorem bubbleSort_oldest (xs : List (ℕ × ℕ)) : Oldest (bubbleSort xs) := by
  obtain ⟨front, back, hpasses, hlength, hsorted, -⟩ :=
    passes_sorted xs le_rfl
  have hnil : front = [] := by
    have htotal := (passes_perm xs xs.length).length_eq
    rw [hpasses, List.length_append] at htotal
    exact List.eq_nil_of_length_eq_zero (by omega)
  have hall : bubbleSort xs = passes xs xs.length := rfl
  rw [hall, hpasses, hnil]
  exact hsorted

/-- The bubble sort keeps the order of entries of the same time. -/
theorem bubbleSort_filter (xs : List (ℕ × ℕ)) (t : ℕ) :
    (bubbleSort xs).filter (fun x => x.2 = t) =
      xs.filter fun x => x.2 = t := by
  suffices h : ∀ n, (passes xs n).filter (fun x => x.2 = t) = _
    from h xs.length
  intro n
  induction n with
  | zero => rfl
  | succ n ih => rw [passes_succ, bubble_filter, ih]

end Sorting

/-! ## Calls of the processor to itself -/

section Itself

variable {env : Context} {address keeper caller : Address} {policyId : ℕ}
  {bps : Option ℕ} {c : Claim} {p : Policy} {m : Machine Network}

theorem mem_signers_enterSelf {a : Address} :
    a ∈ (env.enterSelf.toEnv.enter address).signers ↔
      a ∈ (env.toEnv.enter address).signers := by
  simp [Context.enterSelf]

theorem requireAuth_enterSelf {E S : Type} {a : Address} :
    (requireAuth (env.enterSelf.toEnv.enter address) a : Invocation E S Unit) =
      requireAuth (env.toEnv.enter address) a := by
  unfold requireAuth Contract.require
  simp only [mem_signers_enterSelf]

theorem transferToken_enterSelf {E S : Type} {token sender recipient : Address}
    {amount : ℤ} {fault : Fault E} :
    (transferToken (env.enterSelf.toEnv.enter address) token sender recipient
        amount fault : Invocation E S Unit) =
      transferToken (env.toEnv.enter address) token sender recipient amount
        fault := by
  unfold transferToken Contract.require
  simp only [mem_signers_enterSelf]
  rfl

theorem payClaim_enterSelf :
    PolicyEngine.payClaim (env.enterSelf.toEnv.enter address) caller policyId =
      PolicyEngine.payClaim (env.toEnv.enter address) caller policyId := by
  unfold PolicyEngine.payClaim PolicyEngine.requireClaimsProcessor
  simp only [requireAuth_enterSelf, transferToken_enterSelf]
  rfl

theorem expirePolicy_enterSelf :
    PolicyEngine.expirePolicy (env.enterSelf.toEnv.enter address) caller
        policyId =
      PolicyEngine.expirePolicy (env.toEnv.enter address) caller policyId := by
  unfold PolicyEngine.expirePolicy PolicyEngine.requireClaimsProcessor
  simp only [requireAuth_enterSelf]
  rfl

theorem releaseForClaim_enterSelf :
    RiskPool.releaseForClaim (env.enterSelf.toEnv.enter address) caller
        policyId =
      RiskPool.releaseForClaim (env.toEnv.enter address) caller policyId := by
  unfold RiskPool.releaseForClaim RiskPool.requireProtocolCaller
  simp only [requireAuth_enterSelf]

theorem releaseForExpiry_enterSelf :
    RiskPool.releaseForExpiry (env.enterSelf.toEnv.enter address) caller
        policyId =
      RiskPool.releaseForExpiry (env.toEnv.enter address) caller policyId := by
  unfold RiskPool.releaseForExpiry RiskPool.requireProtocolCaller
  simp only [requireAuth_enterSelf]

theorem evaluateAndSettle_enterSelf :
    evaluateAndSettle env.enterSelf c p bps = evaluateAndSettle env c p bps := by
  unfold evaluateAndSettle settleClaimWithTriggerResult disburse releasePayout
    callEngine callPool callOracle
  simp only [payClaim_enterSelf, releaseForClaim_enterSelf]
  rfl

theorem closeExpired_enterSelf :
    closeExpired env.enterSelf address policyId =
      closeExpired env address policyId := by
  unfold closeExpired callEngine callPool
  simp only [expirePolicy_enterSelf, releaseForExpiry_enterSelf]
  rfl

theorem processPolicy_enterSelf :
    processPolicy env.enterSelf policyId bps = processPolicy env policyId bps := by
  unfold processPolicy
  simp only [closeExpired_enterSelf, evaluateAndSettle_enterSelf]
  rfl

/-- A keeper that signed the batch is not asked for more by the call of the
processor to itself than by a call of its own. -/
theorem autoProcess_enterSelf (hsigned : keeper ∈ env.signers) :
    autoProcess env.enterSelf keeper policyId bps =
      autoProcess env keeper policyId bps := by
  have hmem : keeper ∈ env.enterSelf.signers := List.mem_cons_of_mem _ hsigned
  unfold autoProcess requireKeeper requireAuth Contract.require
  simp only [processPolicy_enterSelf, hsigned, hmem, if_true]
  rfl

end Itself

/-! ## Rounds of the batch -/

/-- The policy a round of the batch makes its call for; a claim the check
before the call skips has none. -/
def State.taken (s : State) (claimId : ℕ) : Option ℕ :=
  match s.claim claimId with
  | none => none
  | some c =>
      if c.status ≠ .pending ∨ c.processedAt.isSome then none
      else some c.policyId

/-- The machine with the queue sorted. -/
def queueSorted (m : Machine Network) : Machine Network :=
  { m with store :=
    { m.store with claims :=
      { m.store.claims with
        pendingClaims :=
          (bubbleSort m.store.claims.claimTimestamps).map Prod.fst } } }

/-- `autoProcess` for claims with their policies, one call after the other; a
failing call has no effect and reports nothing. -/
def autoProcessEach (env : Context) (caller : Address) :
    List (ℕ × ℕ) → Machine Network → List (ℕ × ClaimResult) × Machine Network
  | [], m => ([], m)
  | (claimId, policyId) :: rest, m =>
      match autoProcess env caller policyId none m with
      | .ok (result, m') =>
          let (results, m'') := autoProcessEach env caller rest m'
          ((claimId, result) :: results, m'')
      | .error _ => autoProcessEach env caller rest m

section Rounds

variable {env : Context} {caller : Address} {claimId limit : ℕ}
  {m m' : Machine Network} {rs : List (ℕ × ClaimResult)}

/-- A round makes its call, or none. -/
theorem autoProcessPending_eq :
    autoProcessPending env caller claimId m =
      match m.store.claims.taken claimId with
      | none => .ok (none, m)
      | some policyId =>
          match autoProcess env.enterSelf caller policyId none m with
          | .ok (result, m') => .ok (some (claimId, result), m')
          | .error _ => .ok (none, m) := by
  show (match m.store.claims.claim claimId with
    | none => pure none
    | some c => _ : Call (Option (ℕ × ClaimResult))) m = _
  cases hc : m.store.claims.claim claimId with
  | none =>
      simp only [State.taken, hc]
      rfl
  | some c =>
      by_cases hskip : c.status ≠ .pending ∨ c.processedAt.isSome
      · simp only [State.taken, hc, hskip, if_true]
        rfl
      · simp only [State.taken, hc, hskip, if_false, attempt, bind,
          StateT.bind, Except.bind]
        cases autoProcess env.enterSelf caller c.policyId none m with
        | ok result => rfl
        | error e => rfl

/-- A round that takes up its claim is a call of the keeper. -/
theorem autoProcessPending_taken {policyId : ℕ}
    (htaken : m.store.claims.taken claimId = some policyId)
    (hsigned : caller ∈ env.signers) :
    autoProcessPending env caller claimId m =
      match autoProcess env caller policyId none m with
      | .ok (result, m') => .ok (some (claimId, result), m')
      | .error _ => .ok (none, m) := by
  rw [autoProcessPending_eq, htaken]
  show (match autoProcess env.enterSelf caller policyId none m with
    | .ok (result, m') => _
    | .error _ => _) = _
  rw [autoProcess_enterSelf hsigned]

theorem autoProcessPending_total (env : Context) (caller : Address)
    (claimId : ℕ) (m : Machine Network) :
    ∃ r m', autoProcessPending env caller claimId m = .ok (r, m') := by
  rw [autoProcessPending_eq]
  cases m.store.claims.taken claimId with
  | none => exact ⟨_, _, rfl⟩
  | some policyId =>
      cases hrun : autoProcess env.enterSelf caller policyId none m with
      | ok result =>
          exact ⟨some (claimId, result.1), result.2, by simp only [hrun]⟩
      | error e => exact ⟨none, m, by simp only [hrun]⟩

theorem rounds_total (env : Context) (caller : Address) (ids : List ℕ)
    (m : Machine Network) :
    ∃ results m', collect ids (autoProcessPending env caller) m =
      .ok (results, m') := by
  induction ids generalizing m with
  | nil => exact ⟨[], m, rfl⟩
  | cons claimId ids ih =>
      obtain ⟨r, t, hround⟩ := autoProcessPending_total env caller claimId m
      obtain ⟨results, m', hrest⟩ := ih t
      refine ⟨r :: results, m', ?_⟩
      simp only [collect, bind_ok, pure_ok]
      exact ⟨r, t, hround, results, m', hrest, rfl, rfl⟩

theorem batchAutoProcess_iff :
    batchAutoProcess env caller limit m = .ok (rs, m') ↔
      (m.store.claims.keeper caller = true ∧ caller ∈ env.signers) ∧
        m.store.claims.paused = false ∧ limit ≠ 0 ∧
        ∃ results, collect ((docket m).window limit)
            (autoProcessPending env caller) (queueSorted m) =
              .ok (results, m') ∧
          rs = results.filterMap id := by
  simp only [batchAutoProcess, bind_ok, requireKeeper_ok, requireNotPaused_ok,
    ensure_ok, loadClaims_ok, updateClaims_ok, pure_ok]
  constructor
  · rintro ⟨_, _, ⟨hkeeper, rfl⟩, _, _, ⟨hrunning, rfl⟩, _, _, ⟨hlimit, rfl⟩, _,
      _, ⟨rfl, rfl⟩, _, _, rfl, results, _, hrounds, rfl, rfl⟩
    exact ⟨hkeeper, hrunning, hlimit, results, hrounds, rfl⟩
  · rintro ⟨hkeeper, hrunning, hlimit, results, hrounds, rfl⟩
    exact ⟨(), m, ⟨hkeeper, rfl⟩, (), m, ⟨hrunning, rfl⟩, (), m, ⟨hlimit, rfl⟩,
      _, m, ⟨rfl, rfl⟩, (), _, rfl, results, m', hrounds, rfl, rfl⟩

end Rounds

end Parashield.ClaimsProcessor
