import Parashield.RiskPool.Queue

/-!
# Risk pool: how long shares wait

Shares leave a position through the queue only when the request that names
them was opened long enough ago.  A later request joins the one that waits and
shares its time, and a direct withdrawal does not wait at all.
-/

namespace Parashield.RiskPool

open Support Support.Contract Invocation Book

/-- Shares that `a` queues in a step. -/
def queuedBy (a : Address) : Label Entry → ℤ
  | .call _ (.requestExit provider shares) =>
      if provider = a then shares else 0
  | _ => 0

/-- The position a step takes shares out of directly, and how many. -/
def takenBy (w : World State) : Label Entry → Option (Address × ℤ)
  | .call _ e => e.takes w.machine.store
  | _ => none

/-- The delay is at least `d` whenever shares are queued. -/
def Delays (d : ℕ) (w : World State) : Label Entry → Prop
  | .call _ (.requestExit ..) => d ≤ w.machine.store.exitDelay
  | _ => True

/-- `a` has queued shares. -/
def Queues (a : Address) (w : World State) : Prop :=
  w.machine.store.exitReq a ≠ none

section Steps

variable {self : Address} {w w' : World State} {l : Label Entry}
  {a : Address}

/-- A request after a step is the one before it, perhaps with more shares, or
the step has opened it. -/
inductive Grown (a : Address) (w : World State) (l : Label Entry)
    (request : ExitRequest) : Prop
  | grown {prev : ExitRequest} : w.machine.store.exitReq a = some prev →
      request.claimableAt = prev.claimableAt →
      request.shares ≤ prev.shares + queuedBy a l → Grown a w l request
  | opened {signers : List Address} {shares : ℤ} :
      w.machine.store.exitReq a = none →
      l = .call signers (.requestExit a shares) → request.shares = shares →
      request.claimableAt = satAddU64 w.now w.machine.store.exitDelay →
      Grown a w l request

theorem queuedBy_nonneg (h : (system self).Step w l w') (a : Address) :
    0 ≤ queuedBy a l := by
  cases h with
  | @call signers e _ _ hexec =>
      cases e with
      | requestExit provider shares =>
          obtain ⟨n, t, p, hpos, -⟩ := requestExit_ok hexec
          simp only [queuedBy]
          split <;> omega
      | _ => exact le_rfl
  | _ => exact le_rfl

theorem step_grown (hw : (system self).Reachable w)
    (h : (system self).Step w l w') {request : ExitRequest}
    (hrequest : w'.machine.store.exitReq a = some request) :
    Grown a w l request := by
  have hnonneg := queuedBy_nonneg h a
  obtain ⟨hb, hpos⟩ := hw.invariant (positive_inductive self)
  have hsame (h : w'.machine.store.exitReq a = w.machine.store.exitReq a) :
      Grown a w l request :=
    .grown (h.symm.trans hrequest) rfl (by omega)
  cases h with
  | @call signers e _ _ hexec =>
      by_cases he : ∃ shares, e.takes w.machine.store = some (a, shares)
      · obtain ⟨shares, he⟩ := he
        exact hsame (exec_takes hb he hexec).1
      · cases exec_exits hb (fun shares hs => he ⟨shares, hs⟩) hexec with
        | kept hkept => exact hsame hkept
        | left _ hnone => cases hnone.symm.trans hrequest
        | @asked shares heq hshares hqueued =>
            subst heq
            obtain rfl := Option.some.inj (hqueued.symm.trans hrequest)
            cases hprev : w.machine.store.exitReq a with
            | none =>
                refine .opened hprev rfl ?_ ?_
                · simp only [State.queuedRequest, hprev]
                · simp only [State.queuedRequest, hprev]
                  rfl
            | some prev =>
                have hprev' := hpos a prev hprev
                refine .grown hprev ?_ ?_
                · simp only [State.queuedRequest, hprev]
                · simp only [State.queuedRequest, hprev, queuedBy, if_true]
                  unfold satI128 maxI128 minI128
                  omega
  | tick => exact hsame rfl
  | transfer => exact hsame rfl
  | mint => exact hsame rfl

/-- A provider loses shares that are not taken directly only through a request
that has become claimable. -/
theorem step_settles (hw : (system self).Reachable w)
    (h : (system self).Step w l w')
    (hdirect : ∀ shares, takenBy w l ≠ some (a, shares))
    (hless : (book w'.machine).held a < (book w.machine).held a) :
    ∃ request, w.machine.store.exitReq a = some request ∧
      request.claimableAt ≤ w.now ∧
      (book w.machine).held a - (book w'.machine).held a ≤ request.shares := by
  obtain ⟨hb, hpos⟩ := hw.invariant (positive_inductive self)
  cases h with
  | call _ hexec =>
      cases exec_exits hb hdirect hexec with
      | kept _ hheld => exact absurd hheld (not_le.mpr hless)
      | @left request hfound _ _ hmost hready =>
          have hrequest := hpos a request hfound
          refine ⟨request, hfound, hready hless, ?_⟩
          rw [max_eq_right hrequest.le] at hmost
          exact sub_le_iff_le_add'.mpr hmost
      | asked _ _ _ _ hheld => exact absurd hheld hless.ne
  | tick => exact absurd hless (lt_irrefl _)
  | transfer => exact absurd hless (lt_irrefl _)
  | mint => exact absurd hless (lt_irrefl _)

end Steps

/-! ## Runs -/

section Runs

variable {self : Address} {w₀ w w' : World State} {ls : List (Label Entry)}
  {a : Address}

/-- A request that stays keeps its time, and grows by what is queued. -/
theorem Queues.grown (hw : (system self).Reachable w)
    (hrun : ((system self).restrict fun v _ => Queues a v).Run w ls w')
    {request : ExitRequest}
    (hrequest : w'.machine.store.exitReq a = some request) :
    ∃ first, w.machine.store.exitReq a = some first ∧
      request.claimableAt = first.claimableAt ∧
      request.shares ≤ first.shares + (ls.map (queuedBy a)).sum := by
  induction hrun with
  | nil => exact ⟨request, hrequest, rfl, by simp⟩
  | cons hstep _ ih =>
      obtain ⟨hqueues, hstep⟩ := hstep
      obtain ⟨next, hnext, htime, hshares⟩ := ih (hw.step hstep) hrequest
      cases step_grown hw hstep hnext with
      | @grown first hfirst htime' hshares' =>
          refine ⟨first, hfirst, htime.trans htime', ?_⟩
          rw [List.map_cons, List.sum_cons]
          omega
      | opened hnone => exact absurd hnone hqueues

end Runs

/-- In the run from `w₀` to `w`, `n` shares of `a` were queued by a request
opened `d` seconds ago, which has waited since, or added to it. -/
def Waited (self : Address) (w₀ w : World State) (ls : List (Label Entry))
    (a : Address) (d : ℕ) (n : ℤ) : Prop :=
  ∃ before signers shares after t u,
    ls = before ++ .call signers (.requestExit a shares) :: after ∧
    (system self).Run w₀ before t ∧ ¬ Queues a t ∧
    (system self).Step t (.call signers (.requestExit a shares)) u ∧
    ((system self).restrict fun v _ => Queues a v).Run u after w ∧
    satAddU64 t.now d ≤ w.now ∧
    n ≤ shares + (after.map (queuedBy a)).sum

/-- Start where `a` has nothing queued, and let the delay be at least `d`
whenever shares are queued.  What `a` loses, and does not withdraw or pass on
directly, and what is not seized from it, has waited for `d` seconds. -/
theorem queued_shares_waited {self : Address} {w₀ w w' : World State}
    {ls : List (Label Entry)} {l : Label Entry} {a : Address} {d : ℕ}
    (hw₀ : (system self).Reachable w₀) (hfresh : ¬ Queues a w₀)
    (hrun : ((system self).restrict (Delays d)).Run w₀ ls w)
    (hstep : (system self).Step w l w')
    (hdirect : ∀ shares, takenBy w l ≠ some (a, shares))
    (hless : (book w'.machine).held a < (book w.machine).held a) :
    Waited self w₀ w ls a d
      ((book w.machine).held a - (book w'.machine).held a) := by
  obtain ⟨request, hrequest, hready, hmost⟩ :=
    step_settles (hw₀.run hrun.of_restrict) hstep hdirect hless
  have hqueues : Queues a w := by
    rw [Queues, hrequest]
    exact Option.some_ne_none _
  obtain ⟨before, l', after, t, u, rfl, hbefore, hopen, hnone, -, hafter⟩ :=
    hrun.onset hfresh hqueues
  have ht := hw₀.run hbefore.of_restrict
  have hafter' :
      ((system self).restrict fun v _ => Queues a v).Run u after w := by
    refine hafter.mono ?_
    rintro v l v' ⟨hqueues, -, hstep⟩
    exact ⟨hqueues, hstep⟩
  obtain ⟨first, hfirst, htime, hshares⟩ :=
    Queues.grown (ht.step hopen.2) hafter' hrequest
  cases step_grown ht hopen.2 hfirst with
  | grown hprev =>
      refine absurd ?_ hnone
      rw [Queues, hprev]
      exact Option.some_ne_none _
  | @opened signers shares _ hl hopened hclaimable =>
      subst hl
      have hdelay : d ≤ t.machine.store.exitDelay := hopen.1
      refine ⟨before, signers, shares, after, t, u, rfl, hbefore.of_restrict,
        hnone, hopen.2, hafter', ?_, by omega⟩
      calc satAddU64 t.now d
          ≤ satAddU64 t.now t.machine.store.exitDelay := by
            unfold satAddU64
            omega
        _ = request.claimableAt := (htime.trans hclaimable).symm
        _ ≤ w.now := hready

/-! ## What does not wait -/

/-- In the run from `w₀` to `w`, `a` had queued `n` shares `d` seconds ago. -/
def QueuedBefore (self : Address) (w₀ w : World State)
    (ls : List (Label Entry)) (a : Address) (d : ℕ) (n : ℤ) : Prop :=
  ∃ before after t, ls = before ++ after ∧ (system self).Run w₀ before t ∧
    t.now + d ≤ w.now ∧ n ≤ (before.map (queuedBy a)).sum

/-- Who does not ask has nothing queued. -/
theorem Queues.asked {self : Address} {w w' : World State}
    {ls : List (Label Entry)} {a : Address} (hw : (system self).Reachable w)
    (hrun : (system self).Run w ls w') (hfresh : ¬ Queues a w)
    (hqueues : Queues a w') :
    ∃ signers shares, .call signers (.requestExit a shares) ∈ ls := by
  obtain ⟨before, l, after, t, u, rfl, hbefore, hopen, hnone, hsome, -⟩ :=
    hrun.onset hfresh hqueues
  obtain ⟨request, hrequest⟩ := Option.ne_none_iff_exists'.mp hsome
  cases step_grown (hw.run hbefore) hopen hrequest with
  | grown hprev =>
      refine absurd ?_ hnone
      rw [Queues, hprev]
      exact Option.some_ne_none _
  | @opened signers shares _ hl =>
      subst hl
      exact ⟨signers, shares, by simp⟩

namespace Scenario

/-- The delay passes, and the provider claims its exit. -/
def ripening : List (Label Entry) :=
  [queueing, toppingUp, .tick 86400]

def ripe : World State :=
  (step exec pool toppedUp (.tick 86400)).get (by decide +kernel)

def exiting : Label Entry :=
  .call [provider] (.claimExit provider)

def exited : World State :=
  (step exec pool ripe exiting).get (by decide +kernel)

/-- The delay passes, and only then the provider queues more. -/
def joiningLate : List (Label Entry) :=
  [queueing, .tick 86400, toppingUp]

def morrow : World State :=
  (step exec pool queued (.tick 86400)).get (by decide +kernel)

def joinedLate : World State :=
  (step exec pool morrow toppingUp).get (by decide +kernel)

def exitedLate : World State :=
  (step exec pool joinedLate exiting).get (by decide +kernel)

def withdrawnAtOnce : World State :=
  (step exec pool delayed (withdrawing (10 ^ 14))).get (by decide +kernel)

end Scenario

section Example

open Scenario

theorem delayed_reachable : (system pool).Reachable delayed := by
  have hinit : (system pool).Init genesis := ⟨rfl, rfl⟩
  exact (TransitionSystem.Reachable.init hinit).run delayed_run

theorem delayed_fresh (a : Address) : ¬ Queues a delayed := by
  intro hqueues
  have hinit : (system pool).Init genesis := ⟨rfl, rfl⟩
  have hfresh : ¬ Queues a genesis := fun h => h rfl
  obtain ⟨signers, shares, hmem⟩ := Queues.asked
    (TransitionSystem.Reachable.init hinit) delayed_run hfresh hqueues
  simp [wiring, delaying, funding] at hmem

theorem queued_shares_waited_exited :
    (book ripe.machine).held provider - (book exited.machine).held provider =
        6 * 10 ^ 14 ∧
      Waited pool delayed ripe ripening provider 86400 (6 * 10 ^ 14) := by
  have hrun : ((system pool).restrict (Delays 86400)).Run delayed ripening
      ripe := by
    refine .cons ⟨?_, step_sound (Option.some_get _).symm⟩
      (.cons ⟨?_, step_sound (Option.some_get _).symm⟩
        (.cons ⟨trivial, step_sound (Option.some_get _).symm⟩ (.nil _)))
    · show 86400 ≤ delayed.machine.store.exitDelay
      decide +kernel
    · show 86400 ≤ queued.machine.store.exitDelay
      decide +kernel
  have hlost : (book ripe.machine).held provider -
      (book exited.machine).held provider = 6 * 10 ^ 14 := by
    decide +kernel
  have hstep : (system pool).Step ripe exiting exited :=
    step_sound (Option.some_get _).symm
  have hwaited := queued_shares_waited delayed_reachable
    (delayed_fresh provider) hrun hstep nofun (by decide +kernel)
  rw [hlost] at hwaited
  exact ⟨hlost, hwaited⟩

/-- The part of a run up to a day ago comes before the day passes. -/
theorem joiningLate_before {before after : List (Label Entry)}
    {t : World State} (hls : joiningLate = before ++ after)
    (hrun : (system pool).Run delayed before t)
    (hnow : t.now + 86400 ≤ joinedLate.now) :
    (before.map (queuedBy provider)).sum ≤ 5 * 10 ^ 14 := by
  have hstart : delayed.now = 1000000 := by decide +kernel
  have hend : joinedLate.now = 1086400 := by decide +kernel
  unfold joiningLate at hls
  rcases before with _ | ⟨l, _ | ⟨l', rest⟩⟩
  · decide
  · simp only [List.cons_append, List.cons.injEq] at hls
    obtain ⟨rfl, -⟩ := hls
    decide
  · simp only [List.cons_append, List.cons.injEq] at hls
    obtain ⟨rfl, rfl, -⟩ := hls
    obtain ⟨u, hfirst, hrun⟩ := TransitionSystem.run_cons_iff.mp hrun
    obtain ⟨v, htick, hrun⟩ := TransitionSystem.run_cons_iff.mp hrun
    have hbefore := hfirst.now_le
    have hafter : v.now ≤ t.now :=
      hrun.relation (R := fun w w' => w.now ≤ w'.now) (fun _ => le_rfl)
        (fun _ _ _ h h' => h.trans h') fun _ _ _ h => Step.now_le h
    have hday : v.now = u.now + 86400 := by
      cases htick
      rfl
    omega

/-- With a delay of a day, shares that are queued on the day of the claim are
redeemed with those queued before, and a direct withdrawal waits for nothing. -/
theorem delay_bypassed :
    (¬ ∀ (self : Address) (w₀ w w' : World State) (ls : List (Label Entry))
        (signers : List Address) (a : Address) (d : ℕ), 0 < d →
      (system self).Reachable w₀ → (∀ a, ¬ Queues a w₀) →
      ((system self).restrict fun v _ => v.machine.store.exitDelay = d).Run
        w₀ ls w →
      (system self).Step w (.call signers (.claimExit a)) w' →
      QueuedBefore self w₀ w ls a d
        ((book w.machine).held a - (book w'.machine).held a)) ∧
    ¬ ∀ (self : Address) (w₀ w w' : World State) (ls : List (Label Entry))
        (signers : List Address) (a : Address) (shares : ℤ) (d : ℕ), 0 < d →
      (system self).Reachable w₀ → (∀ a, ¬ Queues a w₀) →
      ((system self).restrict fun v _ => v.machine.store.exitDelay = d).Run
        w₀ ls w →
      (system self).Step w (.call signers (.withdraw a shares)) w' →
      QueuedBefore self w₀ w ls a d shares := by
  constructor
  · intro h
    have hrun : ((system pool).restrict fun v _ =>
        v.machine.store.exitDelay = 86400).Run delayed joiningLate
        joinedLate := by
      refine .cons ⟨?_, step_sound (Option.some_get _).symm⟩
        (.cons ⟨?_, step_sound (Option.some_get _).symm⟩
          (.cons ⟨?_, step_sound (Option.some_get _).symm⟩ (.nil _)))
      · decide +kernel
      · decide +kernel
      · decide +kernel
    have hstep : (system pool).Step joinedLate exiting exitedLate :=
      step_sound (Option.some_get _).symm
    obtain ⟨before, after, t, hls, hbefore, hnow, hle⟩ := h pool delayed
      joinedLate exitedLate joiningLate [provider] provider 86400 (by decide)
      delayed_reachable delayed_fresh hrun hstep
    have hfew := joiningLate_before hls hbefore hnow
    have hlost : (book joinedLate.machine).held provider -
        (book exitedLate.machine).held provider = 6 * 10 ^ 14 := by
      decide +kernel
    rw [hlost] at hle
    omega
  · intro h
    have hstep : (system pool).Step delayed (withdrawing (10 ^ 14))
        withdrawnAtOnce := step_sound (Option.some_get _).symm
    obtain ⟨before, after, t, hls, -, -, hle⟩ := h pool delayed delayed
      withdrawnAtOnce [] [provider] provider (10 ^ 14) 86400 (by decide)
      delayed_reachable delayed_fresh (.nil _) hstep
    obtain ⟨rfl, -⟩ := List.append_eq_nil_iff.mp hls.symm
    simp at hle

end Example

end Parashield.RiskPool
