import Parashield.RiskPool.Exits

/-!
# Risk pool: the reserved total and the requests

The pool counts the shares that are queued with saturating arithmetic, and it
compares a request with the position behind it only when the request is made.
The count is the sum of all requests until it saturates, and no request is for
more than is held until shares are taken out of a position behind a request.
-/

namespace Parashield.RiskPool

open Support Support.Contract Invocation Book

namespace Book

variable {env : Env} {b b' : Book} {a : Address} {k : Kind}

/-- The reserved total is the sum of all requests, each for some shares. -/
structure Reserved (b : Book) : Prop where
  total : HasTotal b.requested b.queuedExitShares
  pos : ∀ a request, b.exitReq a = some request → 0 < request.shares
  range : b.queuedExitShares ≤ maxI128

theorem requested_nonneg
    (hpos : ∀ a request, b.exitReq a = some request → 0 < request.shares)
    (a : Address) : 0 ≤ b.requested a := by
  cases hrequest : b.exitReq a with
  | none => exact (requested_of_none hrequest).ge
  | some request =>
      rw [requested_of_request hrequest]
      exact (hpos a request hrequest).le

theorem Reserved.requested_nonneg (h : Reserved b) (a : Address) :
    0 ≤ b.requested a :=
  Book.requested_nonneg h.pos a

theorem requested_update {request : Option ExitRequest}
    (h : b'.exitReq = Function.update b.exitReq a request) :
    b'.requested = Function.update b.requested a (b'.requested a) := by
  funext x
  by_cases hx : x = a
  · rw [hx, Function.update_self]
  · rw [Function.update_of_ne hx]
    exact requested_congr (by rw [h, Function.update_of_ne hx])

theorem Reserved.of_same (h : Reserved b) (hrequest : b'.exitReq = b.exitReq)
    (hqueued : b'.queuedExitShares = b.queuedExitShares) : Reserved b' where
  total := by
    have hsame : b'.requested = b.requested :=
      funext fun _ => requested_congr (by rw [hrequest])
    rw [hsame, hqueued]
    exact h.total
  pos a request hfound := h.pos a request (by rw [← hrequest, hfound])
  range := hqueued ▸ h.range

theorem Reserved.update {request : Option ExitRequest} (hb : Reserved b)
    (hexit : b'.exitReq = Function.update b.exitReq a request)
    (hpos : ∀ r, request = some r → 0 < r.shares)
    (hqueued : b'.queuedExitShares =
      b.queuedExitShares + (b'.requested a - b.requested a))
    (hrange : b'.queuedExitShares ≤ maxI128) : Reserved b' where
  total := by
    rw [requested_update hexit, hqueued]
    exact hb.total.update a _
  pos x r hr := by
    rw [hexit] at hr
    by_cases hx : x = a
    · rw [hx, Function.update_self] at hr
      exact hpos r hr
    · rw [Function.update_of_ne hx] at hr
      exact hb.pos x r hr
  range := hrange

/-- Removing a request takes exactly its shares off the total. -/
theorem Change.reserved_clear {provider : Address} (hb : Reserved b)
    (h : Change env (.clear provider) b b') : Reserved b' := by
  cases h with
  | @clear _ _ request hfound =>
      have hle := hb.total.apply_le hb.requested_nonneg provider
      have hpos := hb.pos provider request hfound
      have hrange := hb.range
      rw [requested_of_request hfound] at hle
      have hleft : max 0 (satI128 (b.queuedExitShares - request.shares)) =
          b.queuedExitShares - request.shares := by
        unfold satI128 maxI128 minI128 at *
        omega
      refine hb.update rfl nofun ?_ ?_
      · rw [requested_of_none (Function.update_self ..),
          requested_of_request hfound, zero_sub]
        exact hleft
      · exact hleft.trans_le (by omega)

/-- Only a request adds to the reserved total. -/
theorem Change.reserved (hk : ∀ provider, k ≠ .enqueue provider)
    (hb : Reserved b) (h : Change env k b b') : Reserved b' := by
  cases k with
  | clear => exact h.reserved_clear hb
  | enqueue provider => exact absurd rfl (hk provider)
  | _ =>
      cases h
      exact hb.of_same rfl rfl

/-- Nobody holds the largest number of shares: some are locked for good. -/
theorem AllHeld.outstanding_lt (hb : Sound b) : b.outstanding < maxI128 := by
  obtain ⟨-, hrange⟩ := hb.shares_range
  unfold outstanding lockedShares
  unfold maxI128 at *
  split <;> omega

end Book

/-! ## The reserved total -/

section Calls

variable {env : Env} {m m' t : Machine State} {skip : Option Address}
  {provider : Address} {shares : ℤ} {e : Entry}

theorem sweepExpiredExits_reserved {maxScan n : ℕ}
    (hb : Reserved (book m))
    (h : sweepExpiredExits env maxScan skip m = .ok (n, m')) :
    Reserved (book m') := by
  refine sweepExpiredExits_relation
    (R := fun s t => Reserved (book s) → Reserved (book t))
    (fun _ _ _ h h' hb => h' (h hb)) (fun _ _ hb => hb) ?_ h hb
  intro idx settled s t hslot hs
  rcases sweepSlot_change hslot with hsame |
    ⟨_, _, b, -, hclear, hcleared | ⟨_, -, hburn⟩⟩
  · exact hsame ▸ hs
  · exact hcleared ▸ hclear.reserved_clear hs
  · exact hburn.reserved (fun _ heq => by cases heq)
      (hclear.reserved_clear hs)

/-- An accepted request queues all shares it names: they are held, so that the
sum does not saturate. -/
theorem queuedRequest_shares {now : ℕ} {p : LpPosition}
    (hb : Sound (book t)) (hall : AllHeld (book t))
    (hreserved : Reserved (book t)) (hpos : 0 < shares)
    (hfound : t.store.lpPosition provider = some p)
    (hle : (t.store.queuedRequest now provider shares).shares ≤ p.shares) :
    (t.store.queuedRequest now provider shares).shares =
      (book t).requested provider + shares := by
  have hheld := HasTotal.apply_le hall hb.held_nonneg provider
  have hmax := AllHeld.outstanding_lt hb
  rw [held_of_position (b := book t) hfound] at hheld
  cases hrequest : t.store.exitReq provider with
  | none =>
      rw [requested_of_none (b := book t) hrequest, zero_add]
      simp only [State.queuedRequest, hrequest]
  | some prev =>
      have hprev := hreserved.pos provider prev hrequest
      rw [requested_of_request (b := book t) hrequest]
      simp only [State.queuedRequest, hrequest] at hle ⊢
      unfold satI128 maxI128 minI128 at *
      omega

/-- What a request does to the count, and what it should do. -/
theorem requestExit_total {u : Unit} (hb : Sound (book m))
    (hall : AllHeld (book m)) (hreserved : Reserved (book m))
    (h : requestExit env provider shares m = .ok (u, m')) :
    ∃ n t, sweepExpiredExits env maxAutoExitScan (some provider) m =
        .ok (n, t) ∧
      HasTotal (book m').requested (t.store.queuedExitShares + shares) ∧
      m'.store.queuedExitShares =
        satI128 (t.store.queuedExitShares + shares) ∧
      (t.store.queuedExitShares + shares ≤ maxI128 → Reserved (book m')) := by
  obtain ⟨n, t, p, hpos, hsweep, hfound, hle, rfl⟩ := requestExit_ok h
  obtain ⟨hb', hall'⟩ := sweepExpiredExits_preserves
    (I := fun b => Sound b ∧ AllHeld b)
    (fun _ _ _ hb hchange => ⟨hchange.sound hb.1, hchange.allHeld hb.1 hb.2⟩)
    hsweep ⟨hb, hall⟩
  have hreserved' := sweepExpiredExits_reserved hreserved hsweep
  have hqueued := queuedRequest_shares hb' hall' hreserved' hpos hfound hle
  set request := t.store.queuedRequest env.now provider shares
  set b' : Book := { book t with
    exitReq := Function.update t.store.exitReq provider (some request)
    queuedExitShares := satI128 (t.store.queuedExitShares + shares) }
  have hrequested : b'.requested provider =
      (book t).requested provider + shares := by
    rw [requested_of_request (Function.update_self ..), hqueued]
  have hexit : b'.exitReq =
      Function.update (book t).exitReq provider (some request) := rfl
  have htotal : HasTotal b'.requested (t.store.queuedExitShares + shares) := by
    rw [requested_update hexit]
    refine (hreserved'.total.update provider _).congr ?_
    rw [hrequested, add_sub_cancel_left]
    rfl
  refine ⟨n, t, hsweep, htotal, rfl, fun hroom => ?_⟩
  have hnonneg := hreserved'.total.nonneg hreserved'.requested_nonneg
  have hexact : satI128 (t.store.queuedExitShares + shares) =
      t.store.queuedExitShares + shares := by
    have hleft : 0 ≤ t.store.queuedExitShares := hnonneg
    unfold satI128 maxI128 minI128 at *
    omega
  refine hreserved'.update hexit ?_ ?_ ?_
  · rintro r hr
    obtain rfl := Option.some.inj hr
    have hprev := hreserved'.requested_nonneg provider
    omega
  · show b'.queuedExitShares = t.store.queuedExitShares +
      (b'.requested provider - (book t).requested provider)
    rw [hrequested, add_sub_cancel_left]
    exact hexact
  · exact hexact.trans_le hroom

theorem exec_reserved {u : Unit}
    (he : ∀ provider shares, e ≠ .requestExit provider shares)
    (hb : Reserved (book m)) (h : exec env e m = .ok (u, m')) :
    Reserved (book m') := by
  have hperforms := exec_performs h
  generalize book m' = b' at hperforms ⊢
  clear h
  induction hperforms with
  | idle => exact hb
  | @single e k _ hkind hchange =>
      refine hchange.reserved ?_ hb
      rintro provider rfl
      cases Entry.queues_of_kind (a := provider) hkind (decide_eq_true rfl)
  | deposit hsweep _ hchange =>
      exact hchange.reserved (fun _ heq => by cases heq)
        (sweepExpiredExits_reserved hb hsweep)
  | depositWithToken _ ih =>
      exact ih fun _ _ heq => by cases heq
  | withdraw hsweep hchange =>
      exact hchange.reserved (fun _ heq => by cases heq)
        (sweepExpiredExits_reserved hb hsweep)
  | requestExit => exact absurd rfl (he _ _)
  | claimExit _ hclear hburn =>
      exact hburn.reserved (fun _ heq => by cases heq)
        (hclear.reserved_clear hb)
  | processExpiredExits hsweep => exact sweepExpiredExits_reserved hb hsweep

end Calls

/-- The count has room for the shares of a request, once the expired exits of
others are settled. -/
def HasRoom (self : Address) (w : World State) : Label Entry → Prop
  | .call signers (.requestExit provider shares) => ∀ n t,
      sweepExpiredExits (callEnv self w signers) maxAutoExitScan
        (some provider) w.machine = .ok (n, t) →
      t.store.queuedExitShares + shares ≤ maxI128
  | _ => True

section Runs

variable {self : Address} {w w' : World State} {l : Label Entry}

theorem reachable_requested_nonneg (hw : (system self).Reachable w)
    (a : Address) : 0 ≤ (book w.machine).requested a :=
  requested_nonneg (hw.invariant (positive_inductive self)).2 a

theorem system_reserved (hw : (system self).Reachable w)
    (hb : Reserved (book w.machine)) (hroom : HasRoom self w l)
    (h : (system self).Step w l w') : Reserved (book w'.machine) := by
  obtain ⟨hsound, hall, -⟩ := hw.invariant (allHeld_inductive self)
  cases h with
  | @call signers e _ _ hexec =>
      cases e with
      | requestExit =>
          obtain ⟨n, t, hsweep, -, -, hkeep⟩ :=
            requestExit_total hsound hall hb hexec
          exact hkeep (hroom n t hsweep)
      | _ => exact exec_reserved (fun _ _ heq => by cases heq) hb hexec
  | tick => exact hb
  | transfer => exact hb.of_same rfl rfl
  | mint => exact hb.of_same rfl rfl

theorem init_reserved (hinit : (system self).Init w) :
    Reserved (book w.machine) := by
  obtain ⟨now, store, bank⟩ := w
  obtain ⟨rfl, -⟩ := hinit
  have hmax : (0 : ℤ) ≤ maxI128 := by decide
  exact ⟨.zero, nofun, hmax⟩

/-- As long as every request finds room in the count, the reserved total is the
sum of the shares of all outstanding requests; a step from there keeps it so
exactly if it finds room. -/
theorem queued_total_exact_iff
    (hw : ((system self).restrict (HasRoom self)).Reachable w) :
    HasTotal (book w.machine).requested w.machine.store.queuedExitShares ∧
      ∀ l w', (system self).Step w l w' →
        (HasTotal (book w'.machine).requested
            w'.machine.store.queuedExitShares ↔ HasRoom self w l) := by
  have hreserved : Reserved (book w.machine) := by
    induction hw with
    | @init s hinit =>
        have hinit : (system self).Init s := hinit
        exact init_reserved hinit
    | step hs hstep ih =>
        exact system_reserved hs.of_restrict ih hstep.1 hstep.2
  refine ⟨hreserved.total, fun l w' hstep => ⟨fun hexact => ?_, fun hroom =>
    (system_reserved hw.of_restrict hreserved hroom hstep).total⟩⟩
  obtain ⟨hsound, hall, -⟩ :=
    hw.of_restrict.invariant (allHeld_inductive self)
  cases hstep with
  | @call signers e _ _ hexec =>
      cases e with
      | requestExit =>
          intro n t hsweep
          obtain ⟨n', t', hsweep', htotal, hqueued, -⟩ :=
            requestExit_total hsound hall hreserved hexec
          rw [hsweep, Except.ok.injEq, Prod.mk.injEq] at hsweep'
          obtain ⟨rfl, rfl⟩ := hsweep'
          have hsum := htotal.unique hexact
          rw [hsum, hqueued]
          exact max_le (by decide) (min_le_right _ _)
      | _ => exact trivial
  | _ => exact trivial

end Runs

theorem hasRoom_of_counted {self provider : Address} {w : World State}
    {signers : List Address} {shares q : ℤ}
    (hsweep : (sweepExpiredExits (callEnv self w signers) maxAutoExitScan
      (some provider) w.machine).toOption.map
        (fun r => r.2.store.queuedExitShares) = some q)
    (hq : q + shares ≤ maxI128) :
    HasRoom self w (.call signers (.requestExit provider shares)) := by
  intro n t h
  rw [h] at hsweep
  obtain rfl := Option.some.inj hsweep
  exact hq

namespace Scenario

/-- Exits wait a day. -/
def delaying : Label Entry :=
  .call [admin] (.setExitDelay admin 86400)

def delayed : World State :=
  (TransitionSystem.execute (step exec pool) [wiring, delaying, funding]
    genesis).get (by decide +kernel)

/-- The provider queues half of its shares, and then some more. -/
def queueing : Label Entry :=
  .call [provider] (.requestExit provider (5 * 10 ^ 14))

def queued : World State :=
  (step exec pool delayed queueing).get (by decide +kernel)

def toppingUp : Label Entry :=
  .call [provider] (.requestExit provider (10 ^ 14))

def toppedUp : World State :=
  (step exec pool queued toppingUp).get (by decide +kernel)

/-- The price of a share falls until a deposit mints almost all shares that
can be counted.  They are queued, passed on, and queued again. -/
def insurer : Address := .contract 30

def inflating : List (Label Entry) :=
  [wiring, delaying, .mint usdc other (10 ^ 30), .mint usdc insurer (10 ^ 6),
    .call [admin] (.setCapacity admin (10 ^ 30) 10000), funding,
    .call [admin] (.setReinsurance admin insurer 0 (10 ^ 6) true),
    .call [admin] (.requestReinsuranceRecovery admin 1 (10 ^ 6)
      (some ⟨10 ^ 6, 10 ^ 6⟩)),
    .call [provider] (.withdraw provider (10 ^ 15 - 1000)),
    .call [other] (.deposit other (10 ^ 29) 0 false),
    .call [admin] (.requestAdminWithdrawal admin (10 ^ 29)),
    .tick timelockSeconds,
    .call [admin] (.executeAdminWithdrawal admin), funding,
    .call [provider] (.requestExit provider (10 ^ 38 + 10 ^ 9)),
    .call [provider] (.transferShares provider buyer (10 ^ 38 + 10 ^ 9)),
    .call [buyer] (.requestExit buyer (10 ^ 38 + 10 ^ 9))]

def inflated : World State :=
  (TransitionSystem.execute (step exec pool) inflating genesis).get
    (by decide +kernel)

end Scenario

open Scenario in
theorem delayed_run :
    (system pool).Run genesis [wiring, delaying, funding] delayed :=
  TransitionSystem.run_of_execute (fun _ _ _ => step_sound)
    (Option.some_get _).symm

open Scenario in
theorem queued_total_exact_iff_toppedUp :
    toppedUp.machine.store.queuedExitShares = 6 * 10 ^ 14 ∧
      HasTotal (book toppedUp.machine).requested (6 * 10 ^ 14) := by
  have hinit : ((system pool).restrict (HasRoom pool)).Init genesis :=
    ⟨rfl, rfl⟩
  have hdelayed : ((system pool).restrict (HasRoom pool)).Reachable delayed :=
    (TransitionSystem.Reachable.init hinit).run
      (delayed_run.restrict (by simp [wiring, delaying, funding, HasRoom]))
  have hqueued : ((system pool).restrict (HasRoom pool)).Step delayed queueing
      queued :=
    ⟨hasRoom_of_counted (q := 0) (by decide +kernel) (by decide),
      step_sound (Option.some_get _).symm⟩
  have htoppedUp : ((system pool).restrict (HasRoom pool)).Step queued
      toppingUp toppedUp :=
    ⟨hasRoom_of_counted (q := 5 * 10 ^ 14) (by decide +kernel) (by decide),
      step_sound (Option.some_get _).symm⟩
  have hcount : toppedUp.machine.store.queuedExitShares = 6 * 10 ^ 14 := by
    decide +kernel
  exact ⟨hcount, (queued_total_exact_iff
    ((hdelayed.step hqueued).step htoppedUp)).1.congr hcount⟩

open Scenario in
/-- Two requests for more than can be counted together. -/
theorem queued_total_inexact :
    ¬ ∀ (self : Address) (w : World State), (system self).Reachable w →
      HasTotal (book w.machine).requested
        w.machine.store.queuedExitShares := by
  intro h
  have hrun : (system pool).Run genesis inflating inflated :=
    TransitionSystem.run_of_execute (fun _ _ _ => step_sound)
      (Option.some_get _).symm
  have hinit : (system pool).Init genesis := ⟨rfl, rfl⟩
  have hw : (system pool).Reachable inflated :=
    (TransitionSystem.Reachable.init hinit).run hrun
  have hsum := (h pool inflated hw).sum_le (reachable_requested_nonneg hw)
    {provider, buyer}
  have hmore : inflated.machine.store.queuedExitShares <
      ∑ a ∈ ({provider, buyer} : Finset Address),
        (book inflated.machine).requested a := by
    decide +kernel
  exact absurd hsum (not_le.mpr hmore)

/-! ## Requests and positions -/

/-- Every request is for at most the shares its provider holds. -/
def Book.RequestsHeld (b : Book) : Prop :=
  ∀ a request, b.exitReq a = some request → request.shares ≤ b.held a

/-- A call that takes shares of a provider directly leaves as many as the
provider has queued. -/
def LeavesQueued (w : World State) : Label Entry → Prop
  | .call _ e => ∀ a shares, e.takes w.machine.store = some (a, shares) →
      (book w.machine).requested a + shares ≤ (book w.machine).held a
  | _ => True

section Calls

variable {env : Env} {m m' : Machine State} {e : Entry} {b : Book}

theorem Book.RequestsHeld.requested_le (h : RequestsHeld b) (hb : Sound b)
    (a : Address) : b.requested a ≤ b.held a := by
  cases hrequest : b.exitReq a with
  | none =>
      rw [requested_of_none hrequest]
      exact hb.held_nonneg a
  | some request =>
      rw [requested_of_request hrequest]
      exact h a request hrequest

/-- A call leaves a request without shares behind it only where it takes them
out of that position. -/
theorem exec_requestsHeld {u : Unit} (hb : Sound (book m))
    (hbacked : RequestsHeld (book m))
    (hleaves : ∀ a shares, e.takes m.store = some (a, shares) →
      (book m).requested a + shares ≤ (book m).held a)
    (h : exec env e m = .ok (u, m')) : RequestsHeld (book m') := by
  intro a request hrequest
  by_cases he : ∃ shares, e.takes m.store = some (a, shares)
  · obtain ⟨shares, he⟩ := he
    obtain ⟨hsame, hheld⟩ := exec_takes hb he h
    have hleft := hleaves a shares he
    rw [requested_of_request (b := book m) (hsame.symm.trans hrequest)]
      at hleft
    omega
  · cases exec_exits hb (fun shares hs => he ⟨shares, hs⟩) h with
    | kept hsame hheld =>
        exact (hbacked a request (hsame.symm.trans hrequest)).trans hheld
    | left _ hnone => cases hnone.symm.trans hrequest
    | asked _ _ hqueued hle =>
        obtain rfl := Option.some.inj (hqueued.symm.trans hrequest)
        exact hle

theorem Book.Reserved.queued_le (hreserved : Reserved b) (hb : Sound b)
    (hall : AllHeld b) (hbacked : RequestsHeld b) :
    b.queuedExitShares ≤ b.outstanding :=
  hreserved.total.mono hall (hbacked.requested_le hb)

/-- With all requests backed, no request finds the count full. -/
theorem requestExit_room {provider : Address} {shares : ℤ} {u : Unit} {n : ℕ}
    {t : Machine State} (hb : Sound (book m)) (hall : AllHeld (book m))
    (hreserved : Reserved (book m)) (hbacked : RequestsHeld (book m))
    (hsweep : sweepExpiredExits env maxAutoExitScan (some provider) m =
      .ok (n, t))
    (h : requestExit env provider shares m = .ok (u, m')) :
    t.store.queuedExitShares + shares ≤ maxI128 := by
  obtain ⟨n', t', hsweep', htotal, -⟩ :=
    requestExit_total hb hall hreserved h
  rw [hsweep, Except.ok.injEq, Prod.mk.injEq] at hsweep'
  obtain ⟨rfl, rfl⟩ := hsweep'
  have hexec : exec env (.requestExit provider shares) m = .ok (u, m') := h
  have hperforms := exec_performs hexec
  have hb' := hperforms.sound hb
  have hall' := hperforms.preserves (I := fun b => Sound b ∧ AllHeld b)
    (fun _ _ _ hb hchange => ⟨hchange.sound hb.1, hchange.allHeld hb.1 hb.2⟩)
    ⟨hb, hall⟩
  have hbacked' := exec_requestsHeld hb hbacked
    (fun _ _ heq => by cases heq) hexec
  have hle := htotal.mono hall'.2 (hbacked'.requested_le hb')
  have hmax := AllHeld.outstanding_lt hb'
  omega

end Calls

section Runs

variable {self : Address} {w : World State}

theorem reachable_requestsHeld
    (hw : ((system self).restrict LeavesQueued).Reachable w) :
    Reserved (book w.machine) ∧ RequestsHeld (book w.machine) := by
  induction hw with
  | @init s hinit =>
      have hinit : (system self).Init s := hinit
      refine ⟨init_reserved hinit, ?_⟩
      obtain ⟨now, store, bank⟩ := s
      obtain ⟨rfl, -⟩ := hinit
      exact nofun
  | @step s s' l hs hstep ih =>
      obtain ⟨hreserved, hbacked⟩ := ih
      obtain ⟨hleaves, hstep⟩ := hstep
      obtain ⟨hsound, hall, -⟩ :=
        hs.of_restrict.invariant (allHeld_inductive self)
      have hroom : HasRoom self s l := by
        cases hstep with
        | @call signers e _ _ hexec =>
            cases e with
            | requestExit =>
                exact fun n t hsweep => requestExit_room hsound hall hreserved
                  hbacked hsweep hexec
            | _ => exact trivial
        | _ => exact trivial
      refine ⟨system_reserved hs.of_restrict hreserved hroom hstep, ?_⟩
      cases hstep with
      | call _ hexec => exact exec_requestsHeld hsound hbacked hleaves hexec
      | tick => exact hbacked
      | transfer => exact hbacked
      | mint => exact hbacked

/-- As long as every call that takes shares out of a position leaves those that
are queued, no request is for more shares than its provider holds and the
reserved total is not above what all providers hold; a step from there leaves
all requests backed exactly if it leaves those shares. -/
theorem requests_backed_iff
    (hw : ((system self).restrict LeavesQueued).Reachable w) :
    (∀ a request, w.machine.store.exitReq a = some request →
        ∃ p, w.machine.store.lpPosition a = some p ∧
          request.shares ≤ p.shares) ∧
      (∃ total, HasTotal (book w.machine).held total ∧
        w.machine.store.queuedExitShares ≤ total) ∧
      ∀ l w', (system self).Step w l w' →
        (RequestsHeld (book w'.machine) ↔ LeavesQueued w l) := by
  obtain ⟨hreserved, hbacked⟩ := reachable_requestsHeld hw
  obtain ⟨hsound, hall, -⟩ :=
    hw.of_restrict.invariant (allHeld_inductive self)
  refine ⟨?_, ⟨_, hall, hreserved.queued_le hsound hall hbacked⟩, ?_⟩
  · intro a request hrequest
    have hle := hbacked a request hrequest
    have hpos := hreserved.pos a request hrequest
    cases hposition : w.machine.store.lpPosition a with
    | none =>
        rw [held, account_of_none (b := book w.machine) hposition] at hle
        exact absurd hpos (not_lt.mpr hle)
    | some p =>
        rw [held_of_position (b := book w.machine) hposition] at hle
        exact ⟨p, rfl, hle⟩
  · intro l w' hstep
    have hsound' := (hw.of_restrict.step hstep).invariant
      (sound_inductive self)
    cases hstep with
    | @call signers e _ _ hexec =>
        refine ⟨?_, fun hleaves =>
          exec_requestsHeld hsound hbacked hleaves hexec⟩
        intro hbacked' a shares he
        obtain ⟨hsame, hheld⟩ := exec_takes hsound he hexec
        have hle := hbacked'.requested_le hsound' a
        rw [requested_congr (b := book w.machine) hsame] at hle
        exact le_sub_iff_add_le.mp (hle.trans hheld.le)
    | tick => exact ⟨fun _ => trivial, fun _ => hbacked⟩
    | transfer => exact ⟨fun _ => trivial, fun _ => hbacked⟩
    | mint => exact ⟨fun _ => trivial, fun _ => hbacked⟩

end Runs

namespace Scenario

/-- The provider withdraws what it has not queued, and then part of the
rest. -/
def withdrawing (shares : ℤ) : Label Entry :=
  .call [provider] (.withdraw provider shares)

def backed : World State :=
  (step exec pool queued (withdrawing (4 * 10 ^ 14))).get (by decide +kernel)

def overdrawn : World State :=
  (step exec pool backed (withdrawing (10 ^ 14))).get (by decide +kernel)

def overdrawnAtOnce : World State :=
  (TransitionSystem.execute (step exec pool)
    [wiring, delaying, funding, queueing, withdrawing (8 * 10 ^ 14)]
    genesis).get (by decide +kernel)

end Scenario

theorem Scenario.backed_request :
    backed.machine.store.exitReq provider =
      some ⟨provider, 5 * 10 ^ 14, 1000000, 1086400⟩ := by
  decide +kernel

open Scenario in
theorem requests_backed_iff_backed :
    (∃ p, backed.machine.store.lpPosition provider = some p ∧
        5 * 10 ^ 14 ≤ p.shares) ∧
      ¬ RequestsHeld (book overdrawn.machine) := by
  have hinit : ((system pool).restrict LeavesQueued).Init genesis := ⟨rfl, rfl⟩
  have hdelayed : ((system pool).restrict LeavesQueued).Reachable delayed :=
    (TransitionSystem.Reachable.init hinit).run (delayed_run.restrict
      (by simp [wiring, delaying, funding, LeavesQueued, Entry.takes]))
  have hqueued : ((system pool).restrict LeavesQueued).Step delayed queueing
      queued :=
    ⟨nofun, step_sound (Option.some_get _).symm⟩
  have hbacked : ((system pool).restrict LeavesQueued).Step queued
      (withdrawing (4 * 10 ^ 14)) backed := by
    refine ⟨?_, step_sound (Option.some_get _).symm⟩
    intro a shares he
    obtain ⟨rfl, rfl⟩ := Prod.mk.inj (Option.some.inj he)
    decide +kernel
  obtain ⟨hheld, -, hiff⟩ :=
    requests_backed_iff ((hdelayed.step hqueued).step hbacked)
  have hoverdrawn : (system pool).Step backed (withdrawing (10 ^ 14))
      overdrawn := step_sound (Option.some_get _).symm
  refine ⟨hheld provider _ backed_request, fun hoverdraws => ?_⟩
  have hless := (hiff _ _ hoverdrawn).mp hoverdraws provider (10 ^ 14) rfl
  revert hless
  decide +kernel

open Scenario in
/-- A direct withdrawal takes queued shares. -/
theorem request_overdrawn :
    ¬ ∀ (self : Address) (w : World State), (system self).Reachable w →
      RequestsHeld (book w.machine) := by
  intro h
  have hrun : (system pool).Run genesis
      [wiring, delaying, funding, queueing, withdrawing (8 * 10 ^ 14)]
      overdrawnAtOnce :=
    TransitionSystem.run_of_execute (fun _ _ _ => step_sound)
      (Option.some_get _).symm
  have hinit : (system pool).Init genesis := ⟨rfl, rfl⟩
  have hw : (system pool).Reachable overdrawnAtOnce :=
    (TransitionSystem.Reachable.init hinit).run hrun
  have hrequest : overdrawnAtOnce.machine.store.exitReq provider =
      some ⟨provider, 5 * 10 ^ 14, 1000000, 1086400⟩ := by
    decide +kernel
  have hless := h pool overdrawnAtOnce hw provider _ hrequest
  revert hless
  decide +kernel

end Parashield.RiskPool
