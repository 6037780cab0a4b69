import Parashield.RiskPool.Mirroring
import Parashield.RiskPool.Sweeping

/-!
# Risk pool: the cursor of the sweep

A sweep inspects the slots from the cursor on, five at most, and moves the
cursor behind them.  As long as nothing else moves it, every slot comes up once
the sweeps have inspected as many slots as there are.  What becomes of a
request is decided where its slot is inspected.
-/

namespace Parashield.RiskPool

open Support Support.Contract Invocation Book

/-! ## Every request has a slot -/

/-- Whoever holds a position or waits for an exit has a slot. -/
def State.Listed (s : State) : Prop :=
  ∀ a, s.lpPosition a ≠ none ∨ s.exitReq a ≠ none →
    ∃ idx < s.lpCount, s.lpAddress idx = some a

/-- What is written keeps the slots, and lists new positions. -/
theorem Registry.Writes.lists {r r' : Registry} (h : r.Writes r') :
    (∀ idx < r.lpCount, idx < r'.lpCount ∧
        r'.lpAddress idx = r.lpAddress idx) ∧
      ∀ a, r'.lpPosition a ≠ none → r.lpPosition a ≠ none ∨
        ∃ idx < r'.lpCount, r'.lpAddress idx = some a := by
  induction h with
  | refl r => exact ⟨fun idx hidx => ⟨hidx, rfl⟩, fun a ha => .inl ha⟩
  | trans _ _ ih ih' =>
      obtain ⟨hkept, hplaced⟩ := ih
      obtain ⟨hkept', hplaced'⟩ := ih'
      refine ⟨fun idx hidx => ?_, fun a ha => ?_⟩
      · obtain ⟨hlt, hsame⟩ := hkept idx hidx
        obtain ⟨hlt', hsame'⟩ := hkept' idx hlt
        exact ⟨hlt', hsame'.trans hsame⟩
      · rcases hplaced' a ha with hheld | hslot
        · refine (hplaced a hheld).imp_right ?_
          rintro ⟨idx, hidx, haddress⟩
          obtain ⟨hlt, hsame⟩ := hkept' idx hidx
          exact ⟨idx, hlt, hsame.trans haddress⟩
        · exact .inr hslot
  | put hp q =>
      exact ⟨fun idx hidx => ⟨hidx, rfl⟩, fun a ha =>
        .inl ((update_ne_none hp a).mp ha)⟩
  | restate hp =>
      exact ⟨fun idx hidx => ⟨hidx, rfl⟩, fun a ha =>
        .inl ((update_ne_none hp a).mp ha)⟩
  | @enroll r b p hnone hpos category mintedAt =>
      refine ⟨fun idx hidx => ⟨Nat.lt_succ_of_lt hidx, ?_⟩, fun a ha => ?_⟩
      · exact Function.update_of_ne hidx.ne _ _
      · by_cases hab : a = b
        · exact .inr ⟨r.lpCount, Nat.lt_succ_self _,
            hab ▸ Function.update_self ..⟩
        · refine .inl ?_
          have hsame : (r.enroll b p category mintedAt).lpPosition a =
              r.lpPosition a := Function.update_of_ne hab ..
          rwa [← hsame]

/-- Before the pool is wired, nobody waits for an exit. -/
def Book.Unasked (b : Book) : Prop :=
  b.usdcToken = none → ∀ a, b.exitReq a = none

theorem Book.Change.unasked {env : Env} {b b' : Book} {k : Kind}
    (hb : Sound b) (hnone : Unasked b) (h : Change env k b b') :
    Unasked b' := by
  cases k with
  | wire =>
      cases h
      exact nofun
  | enqueue provider =>
      cases h with
      | enqueue hfound =>
          intro hunwired
          rw [(hb.unwired hunwired).2.2.2.2.1 provider] at hfound
          cases hfound
  | clear provider =>
      cases h with
      | clear hfound =>
          intro hunwired
          rw [hnone hunwired provider] at hfound
          cases hfound
  | _ =>
      cases h
      exact hnone

theorem unasked_inductive (self : Address) :
    (system self).Inductive fun w =>
      Sound (book w.machine) ∧ Unasked (book w.machine) := by
  refine (sound_inductive self).and ?_ ?_
  · intro w hinit
    obtain ⟨now, store, bank⟩ := w
    obtain ⟨rfl, -⟩ := hinit
    exact fun _ _ => rfl
  · intro w l w' hsound _ hnone hstep
    cases hstep with
    | call _ hexec =>
        exact ((exec_performs hexec).preserves
          (I := fun b => Sound b ∧ Unasked b)
          (fun _ _ _ hb hchange =>
            ⟨hchange.sound hb.1, hchange.unasked hb.1 hb.2⟩)
          ⟨hsound, hnone⟩).2
    | tick => exact hnone
    | transfer => exact hnone
    | mint => exact hnone

section Listed

variable {self : Address} {w w' : World State}

/-- Slots and positions after a call, but for requests. -/
theorem exec_lists {env : Env} {m m' : Machine State} {e : Entry} {u : Unit}
    (hb : Sound (book m)) (hnone : Unasked (book m)) (hlisted : m.store.Listed)
    (h : exec env e m = .ok (u, m')) :
    ∀ a, m.store.exitReq a ≠ none ∨ m'.store.lpPosition a ≠ none →
      ∃ idx < m'.store.lpCount, m'.store.lpAddress idx = some a := by
  cases hi : e.initializes with
  | true =>
      cases e with
      | initializePool =>
          simp [exec, initializePool, requireNotZeroAddress] at h
          obtain ⟨hfresh, -, -, -, -, -, -, rfl⟩ := h
          have hunwired := hb.uninitialized hfresh
          rintro a (hasked | hheld)
          · exact absurd (hnone hunwired a) hasked
          · exact absurd ((hb.unwired hunwired).2.2.2.2.1 a) hheld
      | _ => cases hi
  | false =>
      cases hl : e.liquidates with
      | false =>
          obtain ⟨hkept, hplaced⟩ := (exec_writes hl hi h).lists
          have hold : ∀ a, m.store.lpPosition a ≠ none ∨
              m.store.exitReq a ≠ none →
              ∃ idx < m'.store.lpCount, m'.store.lpAddress idx = some a := by
            intro a ha
            obtain ⟨idx, hidx, haddress⟩ := hlisted a ha
            obtain ⟨hlt, hsame⟩ := hkept idx hidx
            exact ⟨idx, hlt, hsame.trans haddress⟩
          rintro a (hasked | hheld)
          · exact hold a (.inr hasked)
          · rcases hplaced a hheld with hheld | hslot
            · exact hold a (.inl hheld)
            · exact hslot
      | true =>
          cases e with
          | liquidatePosition caller provider =>
              obtain ⟨r, h⟩ := perform_ok.mp h
              simp [liquidatePosition] at h
              obtain ⟨-, p, hfound, info, -, -, -, rfl, -⟩ := h
              rintro a (hasked | hheld)
              · exact hlisted a (.inr hasked)
              · refine hlisted a (.inl fun hfree => hheld ?_)
                have ha : a ≠ provider := by
                  rintro rfl
                  rw [hfree] at hfound
                  cases hfound
                exact (Function.update_of_ne ha ..).trans hfree
          | _ => cases hl

theorem reachable_listed (hw : (system self).Reachable w) :
    w.machine.store.Listed := by
  induction hw with
  | @init s hinit =>
      obtain ⟨now, store, bank⟩ := s
      obtain ⟨rfl, -⟩ := hinit
      rintro a (hheld | hasked)
      · exact absurd rfl hheld
      · exact absurd rfl hasked
  | @step s s' l hs hstep ih =>
      obtain ⟨hb, hnone⟩ := hs.invariant (unasked_inductive self)
      intro a ha
      have hasked : s'.machine.store.exitReq a ≠ none →
          s.machine.store.exitReq a ≠ none ∨
            s'.machine.store.lpPosition a ≠ none := by
        intro hasked
        obtain ⟨request, hrequest⟩ := Option.ne_none_iff_exists'.mp hasked
        cases step_grown hs hstep hrequest with
        | grown hprev =>
            exact .inl (by rw [hprev]; exact Option.some_ne_none _)
        | @opened signers shares hprev hl =>
            subst hl
            obtain ⟨-, hexec⟩ := hstep.exec_eq
            simp [exec, requestExit, assertWithdrawable] at hexec
            obtain ⟨-, -, -, n, t, -, p, hfound, -, heq⟩ := hexec
            refine .inr ?_
            rw [heq]
            exact fun hfree => by cases hfound.symm.trans hfree
      cases hstep with
      | call _ hexec =>
          refine exec_lists hb hnone ih hexec a ?_
          exact ha.elim .inr hasked
      | tick => exact ih a ha
      | transfer => exact ih a ha
      | mint => exact ih a ha

end Listed

/-! ## One inspection -/

/-- A slot that is inspected, at some time, from one machine to another. -/
structure Inspection where
  now : ℕ
  idx : ℕ
  before : Machine State
  after : Machine State

namespace Inspection

/-- In the slot is a request that has expired. -/
structure Finds (i : Inspection) (provider : Address) (request : ExitRequest) :
    Prop where
  slot : i.before.store.lpAddress i.idx = some provider
  queued : i.before.store.exitReq provider = some request
  expired : request.claimableAt ≤ i.now

/-- The shares that leave: what is requested, as far as it is held. -/
def exiting (i : Inspection) (provider : Address) (request : ExitRequest) :
    ℤ :=
  min request.shares ((book i.before).held provider)

/-- Exactly `shares` of `provider` are settled, at their value. -/
structure Settles (i : Inspection) (provider : Address) (shares : ℤ) :
    Prop where
  cleared : i.after.store.exitReq provider = none
  held : (book i.after).held provider =
    (book i.before).held provider - shares
  totalShares : i.after.store.totalShares = i.before.store.totalShares - shares
  totalDeposited : i.after.store.totalDeposited =
    i.before.store.totalDeposited - i.before.store.exitAmount shares

/-- What becomes of the request: it is dropped if nothing is left to exit, it is
settled if its shares have a value that is unlocked, and it stays as it is
otherwise. -/
structure Resolves (i : Inspection) (provider : Address)
    (request : ExitRequest) : Prop where
  dropped : i.exiting provider request ≤ 0 →
    i.after =
      { i.before with store := i.before.store.cleared provider request }
  settled : 0 < i.exiting provider request →
    0 < i.before.store.exitAmount (i.exiting provider request) →
    i.before.store.exitAmount (i.exiting provider request) ≤
      i.before.store.getAvailableLiquidity →
    i.Settles provider (i.exiting provider request)
  kept : 0 < i.exiting provider request →
    i.before.store.exitAmount (i.exiting provider request) ≤ 0 ∨
      i.before.store.getAvailableLiquidity <
        i.before.store.exitAmount (i.exiting provider request) →
    i.after = i.before

end Inspection

/-- Where the sweep goes on, and through which slots. -/
structure Wheel where
  exitCursor : ℕ
  lpCount : ℕ
  lpAddress : ℕ → Option Address

def State.wheel (s : State) : Wheel where
  exitCursor := s.exitCursor
  lpCount := s.lpCount
  lpAddress := s.lpAddress

section Slots

variable {env : Env} {m m' : Machine State} {provider : Address}

theorem updateLpNft_wheel (s : State) (provider : Address) (p : LpPosition) :
    (s.updateLpNft provider p).wheel = s.wheel := by
  unfold State.updateLpNft
  split
  · rfl
  · split
    · rfl
    · rfl

theorem redeem_wheel {shares : ℤ} {p : LpPosition} {drained : Error}
    {r : Redemption}
    (h : redeem env provider shares p drained m = .ok (r, m')) :
    m'.store.wheel = m.store.wheel := by
  simp [redeem, updateLpNft] at h
  obtain ⟨-, -, -, -, settled, -, -, debt, -, -, -, rfl, -⟩ := h
  exact updateLpNft_wheel ..

theorem withdrawInner_wheel {shares amount : ℤ}
    (h : withdrawInner env provider shares m = .ok (amount, m')) :
    m'.store.wheel = m.store.wheel := by
  simp [withdrawInner, assertWithdrawable] at h
  obtain ⟨-, -, p, -, -, -, t, ht, r, t₁, hredeem, usdc, -, -, B, -,
    ⟨_, hpay⟩, rfl⟩ := h
  obtain rfl : t = m := by
    rcases ht with ⟨-, -, rfl⟩ | ⟨-, rfl⟩
    · rfl
    · rfl
  obtain ⟨B', rfl, -⟩ := payOutYield_ok hpay
  have hkept := redeem_wheel hredeem
  exact hkept

theorem withdrawInner_settles {now idx : ℕ} {request : ExitRequest}
    {shares amount : ℤ}
    (hpos : 0 < m.store.exitAmount shares)
    (h : withdrawInner env provider shares
      { m with store := m.store.cleared provider request } =
        .ok (amount, m')) :
    Inspection.Settles ⟨now, idx, m, m'⟩ provider shares := by
  have hchange := withdrawInner_change h
  obtain ⟨-, -, hredeemed⟩ := exitAmount_pos (b := book m) hpos
  generalize hbook : book m' = b' at hchange
  cases hchange with
  | @burn _ _ _ p _ B hredeems hpays =>
      have hrequest : m'.store.exitReq provider =
          Function.update m.store.exitReq provider none provider :=
        congrArg (fun b => Book.exitReq b provider) hbook
      have hfound : (book m).lpPosition provider = some p := hredeems.found
      have hheld : (book m').held provider = p.shares - shares := by
        rw [hbook, held_of_position (Function.update_self ..)]
        rfl
      have hamount : m.store.exitAmount shares = (book m).redeemed shares :=
        hredeemed
      exact
        { cleared := hrequest.trans (Function.update_self ..)
          held := by
            show (book m').held provider = (book m).held provider - shares
            rw [hheld, held_of_position hfound]
          totalShares := congrArg Book.totalShares hbook
          totalDeposited := by
            show m'.store.totalDeposited = m.store.totalDeposited - _
            rw [hamount]
            exact congrArg Book.totalDeposited hbook }

/-- What the inspection of a slot does. -/
theorem sweepSlot_resolves {idx : ℕ} {settled : Bool}
    (h : sweepSlot env none idx m = .ok (settled, m')) :
    m'.store.wheel = m.store.wheel ∧
      (∀ provider request,
        Inspection.Finds ⟨env.now, idx, m, m'⟩ provider request →
        Inspection.Resolves ⟨env.now, idx, m, m'⟩ provider request) ∧
      ∀ a, m.store.lpAddress idx ≠ some a →
        m'.store.exitReq a = m.store.exitReq a := by
  cases hdue : (book m).dueIn env.now none (m.store.lpAddress idx) with
  | none =>
      obtain ⟨-, rfl⟩ := Prod.mk.inj
        (Except.ok.inj (h.symm.trans (sweepSlot_of_not_due hdue)))
      refine ⟨rfl, fun provider request hfinds => ?_, fun _ _ => rfl⟩
      obtain ⟨hslot, hqueued, hexpired⟩ := hfinds
      have hslot : m'.store.lpAddress idx = some provider := hslot
      have hqueued : (book m').exitReq provider = some request := hqueued
      have hready : ¬ env.now < request.claimableAt := not_lt.mpr hexpired
      simp [dueIn, hslot, hqueued, hready] at hdue
  | some due =>
      obtain ⟨provider, request⟩ := due
      obtain ⟨hslot, -, hqueued, -⟩ := dueIn_eq_some hdue
      have hqueued : m.store.exitReq provider = some request := hqueued
      -- Whatever is found in the slot is this request.
      have hsame : ∀ a r,
          Inspection.Finds ⟨env.now, idx, m, m'⟩ a r →
          a = provider ∧ r = request := by
        rintro a r ⟨ha, hr, -⟩
        obtain rfl := Option.some.inj (ha.symm.trans hslot)
        exact ⟨rfl, Option.some.inj (hr.symm.trans hqueued)⟩
      have hother : ∀ a, m.store.lpAddress idx ≠ some a → a ≠ provider := by
        rintro a ha rfl
        exact ha hslot
      have hcleared : ∀ a, m.store.lpAddress idx ≠ some a →
          (m.store.cleared provider request).exitReq a = m.store.exitReq a :=
        fun a ha => Function.update_of_ne (hother a ha) ..
      rw [sweepSlot_of_due hdue, settleRequest_iff] at h
      rcases h with ⟨hstale, -, rfl⟩ | ⟨hfresh, ⟨hpoor, -, rfl⟩ |
        ⟨hrich, -, amount, hinner⟩⟩
      · refine ⟨rfl, fun a r hfinds => ?_, hcleared⟩
        obtain ⟨rfl, rfl⟩ := hsame a r hfinds
        exact
          { dropped := fun _ => rfl
            settled := fun hpos => absurd hstale (not_le.mpr hpos)
            kept := fun hpos => absurd hstale (not_le.mpr hpos) }
      · refine ⟨rfl, fun a r hfinds => ?_, fun _ _ => rfl⟩
        obtain ⟨rfl, rfl⟩ := hsame a r hfinds
        exact
          { dropped := fun hstale => absurd hstale hfresh
            settled := fun _ hworth hafford =>
              absurd hpoor (not_or.mpr ⟨not_le.mpr hworth, not_lt.mpr hafford⟩)
            kept := fun _ _ => rfl }
      · have hwheel := withdrawInner_wheel hinner
        refine ⟨hwheel, fun a r hfinds => ?_, fun a ha => ?_⟩
        · obtain ⟨rfl, rfl⟩ := hsame a r hfinds
          rw [not_or, not_le] at hrich
          exact
            { dropped := fun hstale => absurd hstale hfresh
              settled := fun _ _ _ => withdrawInner_settles hrich.1 hinner
              kept := fun _ hpoor =>
                absurd hpoor (not_or.mpr ⟨not_le.mpr hrich.1, hrich.2⟩) }
        · have hburned := (withdrawInner_change hinner).exitReq_eq (a := a) rfl
          exact hburned.trans (hcleared a ha)

end Slots

/-! ## One sweep -/

/-- The inspections of some slots, in order. -/
def visits (env : Env) : List ℕ → Machine State → List Inspection
  | [], _ => []
  | idx :: slots, m =>
      match sweepSlot env none idx m with
      | .ok (_, m') => ⟨env.now, idx, m, m'⟩ :: visits env slots m'
      | .error _ => []

/-- The slots a sweep of `maxScan` inspects. -/
def State.upcoming (s : State) (maxScan : ℕ) : List ℕ :=
  (List.range (min maxScan s.lpCount)).map fun step =>
    (s.exitCursor % s.lpCount + step) % s.lpCount

/-- Inspections that follow each other from `m` to `m'`. -/
inductive Visits (env : Env) : Machine State → List Inspection →
    Machine State → Prop
  | nil (m : Machine State) : Visits env m [] m
  | cons {m m₁ m' : Machine State} {idx : ℕ} {settled : Bool}
      {is : List Inspection} :
      sweepSlot env none idx m = .ok (settled, m₁) → Visits env m₁ is m' →
      Visits env m (⟨env.now, idx, m, m₁⟩ :: is) m'

section Sweeps

variable {env : Env} {m m' : Machine State} {is : List Inspection}

theorem collect_visits {slot : ℕ → ℕ} {steps : List ℕ} {settled : List Bool}
    (h : collect steps (fun step => sweepSlot env none (slot step)) m =
      .ok (settled, m')) :
    Visits env m (visits env (steps.map slot) m) m' ∧
      (visits env (steps.map slot) m).map Inspection.idx = steps.map slot := by
  induction steps generalizing m settled with
  | nil =>
      obtain ⟨-, rfl⟩ := pure_ok.mp h
      exact ⟨.nil _, rfl⟩
  | cons step steps ih =>
      simp only [collect, bind_ok, pure_ok] at h
      obtain ⟨b, t, hslot, bs, t', hrest, -, rfl⟩ := h
      obtain ⟨hvisits, hslots⟩ := ih hrest
      simp only [List.map_cons, visits, hslot]
      exact ⟨.cons hslot hvisits, by rw [hslots]⟩

theorem Visits.wheel (h : Visits env m is m') :
    m'.store.wheel = m.store.wheel := by
  induction h with
  | nil => rfl
  | cons hslot _ ih => exact ih.trans (sweepSlot_resolves hslot).1

theorem Visits.resolves (h : Visits env m is m') :
    ∀ i ∈ is, ∀ provider request, i.Finds provider request →
      i.Resolves provider request := by
  induction h with
  | nil => exact List.forall_mem_nil _
  | cons hslot _ ih =>
      intro i hi
      rcases List.mem_cons.mp hi with rfl | hi
      · exact (sweepSlot_resolves hslot).2.1
      · exact ih i hi

/-- An expired request is found, unless none of the slots is its own. -/
theorem Visits.finds {provider : Address} {request : ExitRequest}
    (h : Visits env m is m')
    (hqueued : m.store.exitReq provider = some request)
    (hexpired : request.claimableAt ≤ env.now) :
    (∃ i ∈ is, i.Finds provider request) ∨
      m'.store.exitReq provider = some request ∧
        ∀ i ∈ is, m.store.lpAddress i.idx ≠ some provider := by
  induction h with
  | nil => exact .inr ⟨hqueued, List.forall_mem_nil _⟩
  | @cons m m₁ m' idx settled is hslot _ ih =>
      obtain ⟨hwheel, -, hother⟩ := sweepSlot_resolves hslot
      have hsame : m₁.store.lpAddress = m.store.lpAddress :=
        congrArg Wheel.lpAddress hwheel
      by_cases hown : m.store.lpAddress idx = some provider
      · exact .inl ⟨_, List.mem_cons_self, hown, hqueued, hexpired⟩
      · rcases ih ((hother provider hown).trans hqueued) with
          ⟨i, hi, hfinds⟩ | ⟨hleft, hnone⟩
        · exact .inl ⟨i, List.mem_cons_of_mem _ hi, hfinds⟩
        · refine .inr ⟨hleft, fun i hi => ?_⟩
          rcases List.mem_cons.mp hi with rfl | hi
          · exact hown
          · rw [← hsame]
            exact hnone i hi

/-- A sweep of a pool that is not paused. -/
theorem sweepExpiredExits_visits {maxScan k : ℕ}
    (hstatus : m.store.status ≠ .paused) (hscan : maxScan ≠ 0)
    (h : sweepExpiredExits env maxScan none m = .ok (k, m')) :
    ∃ t, Visits env m (visits env (m.store.upcoming maxScan) m) t ∧
      (visits env (m.store.upcoming maxScan) m).map Inspection.idx =
        m.store.upcoming maxScan ∧
      m'.store.exitReq = t.store.exitReq ∧
      m'.store.wheel =
        { m.store.wheel with
          exitCursor :=
            (m.store.exitCursor % m.store.lpCount +
              min maxScan m.store.lpCount) % m.store.lpCount } := by
  unfold sweepExpiredExits at h
  simp only [bind_ok, load_ok] at h
  obtain ⟨s, t₀, ⟨hs, ht⟩, h⟩ := h
  rw [hs, ht] at h
  simp only [ite_ok, bind_ok, pure_ok, update_ok] at h
  obtain ⟨hidle, -, rfl⟩ | ⟨-, settled, t, hcollect, _, t', rfl, -, rfl⟩ :=
    h
  · have hcount : m'.store.lpCount = 0 := by
      rcases hidle with hnone | hnone | hpaused
      · exact absurd hnone hscan
      · exact hnone
      · exact absurd hpaused hstatus
    have hnothing : m'.store.upcoming maxScan = [] := by
      simp [State.upcoming, hcount]
    rw [hnothing, hcount]
    refine ⟨m', .nil m', rfl, rfl, ?_⟩
    simp [State.wheel, hcount]
  · obtain ⟨hvisits, hslots⟩ := collect_visits hcollect
    refine ⟨t, hvisits, hslots, rfl, ?_⟩
    rw [← hvisits.wheel]
    rfl

theorem upcoming_length (s : State) (maxScan : ℕ) :
    (s.upcoming maxScan).length = min maxScan s.lpCount := by
  simp [State.upcoming]

end Sweeps

/-! ## Sweep after sweep -/

/-- A sweep of as many slots as one sweep may inspect. -/
def sweepsFully : Label Entry → Bool
  | .call _ (.processExpiredExits maxScan) => decide (maxAutoExitScan ≤ maxScan)
  | _ => false

/-- Neither a request nor a slot nor the cursor changes. -/
def Undisturbed (w w' : World State) : Prop :=
  w'.machine.store.wheel = w.machine.store.wheel ∧
    w'.machine.store.exitReq = w.machine.store.exitReq

/-- The pool, swept again and again while it is not paused; what happens
between two sweeps leaves requests, slots and cursor alone. -/
def rotating (self : Address) : TransitionSystem (World State) (Label Entry) where
  Init := (system self).Reachable
  Step w l w' := (system self).Step w l w' ∧
    if sweepsFully l then w.machine.store.status ≠ .paused
    else Undisturbed w w'

/-- What such a sweep inspects. -/
def inspections (self : Address) (w : World State) :
    Label Entry → List Inspection
  | .call signers (.processExpiredExits maxScan) =>
      if maxAutoExitScan ≤ maxScan then
        visits (callEnv self w signers) (w.machine.store.upcoming maxAutoExitScan)
          w.machine
      else
        []
  | _ => []

section Rotation

variable {self : Address} {w₀ w w' : World State} {l : Label Entry}

theorem inspections_of_not_full (hl : sweepsFully l = false) :
    inspections self w l = [] := by
  cases l with
  | call signers e =>
      cases e with
      | processExpiredExits maxScan =>
          exact if_neg (of_decide_eq_false hl)
      | _ => rfl
  | _ => rfl

/-- What a sweep inspects and where it leaves off. -/
theorem rotating_sweeps (hl : sweepsFully l = true)
    (hstep : (rotating self).Step w l w') :
    ∃ env t, env.now = w.now ∧
      Visits env w.machine (inspections self w l) t ∧
      (inspections self w l).map Inspection.idx =
        w.machine.store.upcoming maxAutoExitScan ∧
      w'.machine.store.exitReq = t.store.exitReq ∧
      w'.machine.store.wheel =
        { w.machine.store.wheel with
          exitCursor :=
            (w.machine.store.exitCursor % w.machine.store.lpCount +
              min maxAutoExitScan w.machine.store.lpCount) %
                w.machine.store.lpCount } := by
  obtain ⟨hstep, hstatus⟩ := hstep
  rw [if_pos hl] at hstatus
  cases hstep with
  | @call signers e m' _ hexec =>
      cases e with
      | processExpiredExits maxScan =>
          have hfull : maxAutoExitScan ≤ maxScan := of_decide_eq_true hl
          obtain ⟨k, hsweep⟩ := perform_ok.mp hexec
          rw [processExpiredExits, Nat.min_eq_right hfull] at hsweep
          obtain ⟨t, hvisits⟩ :=
            sweepExpiredExits_visits hstatus (by decide) hsweep
          refine ⟨callEnv self w signers, t, rfl, ?_⟩
          simp only [inspections, if_pos hfull]
          exact hvisits
      | _ => exact Bool.noConfusion hl
  | _ => exact Bool.noConfusion hl

/-- What holds after some of the sweeps, which inspected the slots `past`. -/
structure Rotated (w₀ w : World State) (past : List Inspection) : Prop where
  lpCount : w.machine.store.lpCount = w₀.machine.store.lpCount
  lpAddress : w.machine.store.lpAddress = w₀.machine.store.lpAddress
  later : w₀.now ≤ w.now
  cursor : w.machine.store.exitCursor ≡
    w₀.machine.store.exitCursor + past.length
      [MOD w₀.machine.store.lpCount]
  inspected : past.map Inspection.idx =
    (List.range past.length).map fun j =>
      (w₀.machine.store.exitCursor + j) % w₀.machine.store.lpCount
  resolves : ∀ i ∈ past, ∀ provider request, i.Finds provider request →
    i.Resolves provider request
  found : ∀ provider request,
    w₀.machine.store.exitReq provider = some request →
    request.claimableAt ≤ w₀.now →
    (∃ i ∈ past, i.Finds provider request) ∨
      w.machine.store.exitReq provider = some request ∧
        ∀ i ∈ past, w₀.machine.store.lpAddress i.idx ≠ some provider

theorem Rotated.refl (w₀ : World State) : Rotated w₀ w₀ [] where
  lpCount := rfl
  lpAddress := rfl
  later := le_rfl
  cursor := .rfl
  inspected := rfl
  resolves := List.forall_mem_nil _
  found _ _ hqueued _ := .inr ⟨hqueued, List.forall_mem_nil _⟩

/-- The slots of the next sweep follow those inspected so far. -/
theorem Rotated.upcoming {past : List Inspection} (h : Rotated w₀ w past)
    (maxScan : ℕ) :
    w.machine.store.upcoming maxScan =
      (List.range (min maxScan w₀.machine.store.lpCount)).map fun step =>
        (w₀.machine.store.exitCursor + (past.length + step)) %
          w₀.machine.store.lpCount := by
  rw [State.upcoming, h.lpCount]
  refine List.map_congr_left fun step _ => ?_
  rw [Nat.mod_add_mod, ← Nat.add_assoc]
  exact h.cursor.add_right step

/-- What leaves requests, slots and cursor alone changes nothing. -/
theorem Rotated.undisturbed {past : List Inspection} (h : Rotated w₀ w past)
    (hkept : Undisturbed w w') (hnow : w.now ≤ w'.now) :
    Rotated w₀ w' past := by
  obtain ⟨hwheel, hqueue⟩ := hkept
  have hcursor : w'.machine.store.exitCursor = w.machine.store.exitCursor :=
    congrArg Wheel.exitCursor hwheel
  exact
    { lpCount := (congrArg Wheel.lpCount hwheel).trans h.lpCount
      lpAddress := (congrArg Wheel.lpAddress hwheel).trans h.lpAddress
      later := h.later.trans hnow
      cursor := by
        rw [hcursor]
        exact h.cursor
      inspected := h.inspected
      resolves := h.resolves
      found := by
        rw [hqueue]
        exact h.found }

/-- A sweep goes on where the last one left off. -/
theorem Rotated.sweep {past seen : List Inspection} {env : Env}
    {t : Machine State} (h : Rotated w₀ w past) (hclock : env.now = w.now)
    (hnow : w.now ≤ w'.now) (hvisits : Visits env w.machine seen t)
    (hslots : seen.map Inspection.idx =
      w.machine.store.upcoming maxAutoExitScan)
    (hqueue : w'.machine.store.exitReq = t.store.exitReq)
    (hwheel : w'.machine.store.wheel =
      { w.machine.store.wheel with
        exitCursor :=
          (w.machine.store.exitCursor % w.machine.store.lpCount +
            min maxAutoExitScan w.machine.store.lpCount) %
              w.machine.store.lpCount }) :
    Rotated w₀ w' (past ++ seen) := by
  have hcursor : w'.machine.store.exitCursor =
      (w.machine.store.exitCursor % w.machine.store.lpCount +
        min maxAutoExitScan w.machine.store.lpCount) %
          w.machine.store.lpCount :=
    congrArg Wheel.exitCursor hwheel
  have hlength : seen.length =
      min maxAutoExitScan w₀.machine.store.lpCount := by
    rw [← List.length_map (f := Inspection.idx), hslots, upcoming_length,
      h.lpCount]
  refine
    { lpCount := (congrArg Wheel.lpCount hwheel).trans h.lpCount
      lpAddress := (congrArg Wheel.lpAddress hwheel).trans h.lpAddress
      later := h.later.trans hnow
      cursor := ?_, inspected := ?_, resolves := ?_, found := ?_ }
  · rw [hcursor, h.lpCount, ← hlength, Nat.mod_add_mod, List.length_append,
      ← Nat.add_assoc]
    exact (Nat.mod_modEq _ _).trans (h.cursor.add_right _)
  · rw [List.map_append, h.inspected, hslots, h.upcoming, List.length_append,
      List.range_add, List.map_append, List.map_map, hlength]
    rfl
  · intro i hi
    rcases List.mem_append.mp hi with hi | hi
    · exact h.resolves i hi
    · exact hvisits.resolves i hi
  · intro provider request hqueued hexpired
    rcases h.found provider request hqueued hexpired with
      ⟨i, hi, hfinds⟩ | ⟨hleft, hmissed⟩
    · exact .inl ⟨i, List.mem_append_left _ hi, hfinds⟩
    · have hready : request.claimableAt ≤ env.now := by
        rw [hclock]
        exact hexpired.trans h.later
      rcases hvisits.finds hleft hready with
        ⟨i, hi, hfinds⟩ | ⟨hleft', hmissed'⟩
      · exact .inl ⟨i, List.mem_append_right _ hi, hfinds⟩
      · refine .inr ⟨by rw [hqueue, hleft'], fun i hi => ?_⟩
        rcases List.mem_append.mp hi with hi | hi
        · exact hmissed i hi
        · rw [← h.lpAddress]
          exact hmissed' i hi

theorem Rotated.step {past : List Inspection} (h : Rotated w₀ w past)
    (hstep : (rotating self).Step w l w') :
    Rotated w₀ w' (past ++ inspections self w l) := by
  have hnow := hstep.1.now_le
  cases hl : sweepsFully l with
  | false =>
      obtain ⟨-, hkept⟩ := hstep
      simp only [hl, Bool.false_eq_true, if_false] at hkept
      rw [inspections_of_not_full hl, List.append_nil]
      exact h.undisturbed hkept hnow
  | true =>
      obtain ⟨env, t, hclock, hvisits, hslots, hqueue, hwheel⟩ :=
        rotating_sweeps hl hstep
      exact h.sweep hclock hnow hvisits hslots hqueue hwheel

variable {ls : List (Label Entry)} {is : List Inspection}

theorem rotating_rotated
    (h : (rotating self).Outputs (inspections self) w₀ ls w is) :
    Rotated w₀ w is :=
  h.preserves (Q := Rotated w₀) (fun _ _ _ _ hpast hstep => hpast.step hstep)
    (.refl w₀)

/-- Each sweep inspects five slots, or all if there are fewer. -/
theorem inspections_length
    (h : (rotating self).Outputs (inspections self) w₀ ls w is) :
    is.length =
      min maxAutoExitScan w₀.machine.store.lpCount * ls.countP sweepsFully := by
  induction h with
  | nil => rfl
  | @cons s t u l ls is hstep _ ih =>
      have hturned := (Rotated.refl s).step hstep
      rw [List.length_append, ih, hturned.lpCount]
      cases hl : sweepsFully l with
      | false =>
          rw [inspections_of_not_full hl, List.countP_cons_of_neg (by simp [hl]),
            List.length_nil, Nat.zero_add]
      | true =>
          obtain ⟨env, t', -, -, hslots, -⟩ := rotating_sweeps hl hstep
          have hlength : (inspections self s l).length =
              min maxAutoExitScan s.machine.store.lpCount := by
            rw [← List.length_map (f := Inspection.idx), hslots,
              upcoming_length]
          rw [hlength, List.countP_cons_of_pos hl, Nat.mul_succ, Nat.add_comm]

end Rotation

/-- From any start, `n` steps around a circle of `n` slots meet each of them. -/
theorem exists_lt_add_mod_eq {n idx : ℕ} (cursor : ℕ) (h : idx < n) :
    ∃ j < n, (cursor + j) % n = idx := by
  have hcursor : cursor % n < n := Nat.mod_lt _ (Nat.zero_lt_of_lt h)
  rcases Nat.le_total (cursor % n) idx with hle | hle
  · refine ⟨idx - cursor % n, by omega, ?_⟩
    rw [← Nat.mod_add_mod, Nat.add_sub_cancel' hle]
    exact Nat.mod_eq_of_lt h
  · by_cases heq : cursor % n = idx
    · exact ⟨0, Nat.zero_lt_of_lt h, heq⟩
    · refine ⟨idx + n - cursor % n, by omega, ?_⟩
      rw [← Nat.mod_add_mod, Nat.add_sub_cancel' (by omega), Nat.add_mod_right]
      exact Nat.mod_eq_of_lt h

/-- Within as many sweeps as there are fives of slots, every slot is inspected,
every request that had expired is found where it was, and each that is found
is settled, dropped or kept. -/
theorem expired_exits_inspected {self : Address} {w₀ w : World State}
    {ls : List (Label Entry)} {is : List Inspection}
    (hw : (system self).Reachable w₀)
    (h : (rotating self).Outputs (inspections self) w₀ ls w is)
    (hsweeps : (w₀.machine.store.lpCount + 4) / 5 ≤ ls.countP sweepsFully) :
    (∀ idx < w₀.machine.store.lpCount, ∃ i ∈ is, i.idx = idx) ∧
      (∀ i ∈ is, ∀ provider request, i.Finds provider request →
        i.Resolves provider request) ∧
      ∀ provider request,
        w₀.machine.store.exitReq provider = some request →
        request.claimableAt ≤ w₀.now →
        ∃ i ∈ is, i.Finds provider request := by
  have hrotated := rotating_rotated h
  have hall : ∀ idx < w₀.machine.store.lpCount, ∃ i ∈ is, i.idx = idx := by
    intro idx hidx
    obtain ⟨j, hj, hslot⟩ :=
      exists_lt_add_mod_eq w₀.machine.store.exitCursor hidx
    have hlong : w₀.machine.store.lpCount ≤ is.length := by
      rw [inspections_length h, maxAutoExitScan]
      rcases Nat.le_total 5 w₀.machine.store.lpCount with hmany | hfew
      · rw [Nat.min_eq_left hmany]
        omega
      · rw [Nat.min_eq_right hfew]
        exact Nat.le_mul_of_pos_right _ (by omega)
    have hmem : idx ∈ is.map Inspection.idx := by
      rw [hrotated.inspected]
      exact List.mem_map.mpr
        ⟨j, List.mem_range.mpr (hj.trans_le hlong), hslot⟩
    exact List.mem_map.mp hmem
  refine ⟨hall, hrotated.resolves, fun provider request hqueued hexpired => ?_⟩
  rcases hrotated.found provider request hqueued hexpired with
    hfound | ⟨-, hmissed⟩
  · exact hfound
  · obtain ⟨idx, hidx, haddress⟩ := reachable_listed hw provider
      (.inr (by rw [hqueued]; exact Option.some_ne_none _))
    obtain ⟨i, hi, rfl⟩ := hall idx hidx
    exact absurd haddress (hmissed i hi)

/-! ## Requests that are passed over -/

/-- With a single slot, a sweep finds there a request for shares that are worth
no more than what is unlocked, and leaves it where it is. -/
def PassesOver (self : Address) (w : World State) (provider : Address)
    (request : ExitRequest) : Prop :=
  ∃ w' is i,
    (rotating self).Outputs (inspections self) w
      [.call [] (.processExpiredExits 5)] w' is ∧
    i ∈ is ∧ i.Finds provider request ∧ 0 < i.exiting provider request ∧
    i.exiting provider request * i.before.store.totalDeposited ≤
      i.before.store.getAvailableLiquidity * i.before.store.totalShares ∧
    w'.machine.store.exitReq provider = some request

namespace Scenario

def sweepAll : Label Entry :=
  .call [] (.processExpiredExits 5)

/-- A single share is worth less than a stroop. -/
def dwindling : World State :=
  (TransitionSystem.execute (step exec pool)
    [funding, .call [provider] (.requestExit provider 1)] wired).get
      (by decide +kernel)

/-- Fifty million tokens and their shares have a product of more than 128
bits. -/
def overflowing : World State :=
  (TransitionSystem.execute (step exec pool)
    [.call [provider] (.deposit provider (5 * 10 ^ 14) 0 false),
      .call [provider] (.requestExit provider (5 * 10 ^ 23 - 1000))] wired).get
        (by decide +kernel)

def trifle : ExitRequest where
  provider := provider
  shares := 1
  requestedAt := 1000000
  claimableAt := 1000000

def fortune : ExitRequest where
  provider := provider
  shares := 5 * 10 ^ 23 - 1000
  requestedAt := 1000000
  claimableAt := 1000000

def halving : ExitRequest where
  provider := provider
  shares := 5 * 10 ^ 14
  requestedAt := 1000000
  claimableAt := 1000000

theorem dwindling_reachable : (system pool).Reachable dwindling :=
  wired_reachable.run (TransitionSystem.run_of_execute
    (fun _ _ _ => step_sound) (Option.some_get _).symm)

theorem overflowing_reachable : (system pool).Reachable overflowing :=
  wired_reachable.run (TransitionSystem.run_of_execute
    (fun _ _ _ => step_sound) (Option.some_get _).symm)

/-- A sweep of a pool that is not paused, as a run of its own. -/
theorem sweepAll_outputs {w w' : World State}
    (h : step exec pool w sweepAll = some w')
    (hstatus : w.machine.store.status ≠ .paused) :
    (rotating pool).Outputs (inspections pool) w [sweepAll] w'
      (inspections pool w sweepAll) := by
  have hrun : (rotating pool).Outputs (inspections pool) w [sweepAll] w'
      (inspections pool w sweepAll ++ []) :=
    .cons ⟨step_sound h, hstatus⟩ (.nil w')
  rwa [List.append_nil] at hrun

end Scenario

open Scenario in
theorem trifles_and_fortunes_passed_over :
    (system pool).Reachable dwindling ∧
      dwindling.machine.store.lpCount = 1 ∧
      PassesOver pool dwindling provider trifle ∧
      (system pool).Reachable overflowing ∧
      overflowing.machine.store.lpCount = 1 ∧
      PassesOver pool overflowing provider fortune := by
  refine ⟨dwindling_reachable, by decide +kernel, ?_, overflowing_reachable,
    by decide +kernel, ?_⟩
  · refine ⟨(step exec pool dwindling sweepAll).get (by decide +kernel),
      inspections pool dwindling sweepAll,
      (inspections pool dwindling sweepAll).get ⟨0, by decide +kernel⟩,
      sweepAll_outputs (Option.some_get _).symm (by decide +kernel),
      List.get_mem _ _, ⟨?_, ?_, ?_⟩, ?_, ?_, ?_⟩
    all_goals decide +kernel
  · refine ⟨(step exec pool overflowing sweepAll).get (by decide +kernel),
      inspections pool overflowing sweepAll,
      (inspections pool overflowing sweepAll).get ⟨0, by decide +kernel⟩,
      sweepAll_outputs (Option.some_get _).symm (by decide +kernel),
      List.get_mem _ _, ⟨?_, ?_, ?_⟩, ?_, ?_, ?_⟩
    all_goals decide +kernel

open Scenario in
/-- Of two slots, one sweep inspects both. -/
theorem expired_exits_inspected_parting :
    (∀ idx < 2, ∃ i ∈ inspections pool parting sweepAll, i.idx = idx) ∧
      ∃ i ∈ inspections pool parting sweepAll,
        i.Finds provider halving ∧ i.Resolves provider halving := by
  have hrun : (rotating pool).Outputs (inspections pool) parting [sweepAll]
      ((step exec pool parting sweepAll).get (by decide +kernel))
      (inspections pool parting sweepAll) :=
    sweepAll_outputs (Option.some_get _).symm (by decide +kernel)
  obtain ⟨hall, hresolves, hfound⟩ :=
    expired_exits_inspected parting_reachable hrun (by decide +kernel)
  obtain ⟨i, hi, hfinds⟩ :=
    hfound provider halving (by decide +kernel) (by decide +kernel)
  have hcount : parting.machine.store.lpCount = 2 := by decide +kernel
  rw [hcount] at hall
  exact ⟨hall, i, hi, hfinds, hresolves i hi provider halving hfinds⟩

end Parashield.RiskPool
