import Mathlib.Data.Nat.Notation
import Parashield.Support.Transition

/-!
# Hand-overs with a waiting time

An office is handed over in two steps: somebody is made the candidate, which
starts a clock, and takes the office later.  The clock tells how long the
candidate has been waiting as long as nobody becomes the candidate while
somebody else is.
-/

namespace Support

variable {α σ ℓ : Type*}

/-- The candidate for an office, and when its clock was started. -/
structure Handover (α : Type*) where
  candidate : Option α
  since : Option ℕ

namespace Handover

variable {h h' : Handover α} {now time : ℕ} {x : α}

/-- What a step at time `now` can do to a hand-over.  A clock that is running
is not started again. -/
inductive Move (now : ℕ) : Handover α → Handover α → Prop
  | rest (h : Handover α) : Move now h h
  | propose {h : Handover α} (x : α) :
      h.candidate = none → Move now h ⟨some x, some now⟩
  | confirm {h : Handover α} (x : α) :
      h.candidate = none ∨ h.candidate = some x →
      Move now h ⟨some x, some (h.since.getD now)⟩
  | clear (h : Handover α) : Move now h ⟨none, none⟩

/-- Without a candidate no clock is running. -/
def Idle (h : Handover α) : Prop :=
  h.candidate = none → h.since = none

theorem Move.idle (hmove : Move now h h') (hidle : h.Idle) : h'.Idle := by
  cases hmove with
  | rest => exact hidle
  | propose => exact nofun
  | confirm => exact nofun
  | clear => exact fun _ => rfl

/-- Who becomes the candidate starts the clock. -/
theorem Move.starts (hmove : Move now h h') (hidle : h.Idle)
    (hother : h.candidate ≠ some x) (hx : h'.candidate = some x) :
    h'.since = some now := by
  cases hmove with
  | rest => exact absurd hx hother
  | propose => rfl
  | confirm y hvacant =>
      obtain rfl := Option.some.inj hx
      have hnone := hvacant.resolve_right hother
      rw [hidle hnone]
      rfl
  | clear => cases hx

/-- The clock of who stays the candidate runs on. -/
theorem Move.runs (hmove : Move now h h') (hx : h.candidate = some x)
    (hx' : h'.candidate = some x) (hsince : h.since = some time) :
    h'.since = some time := by
  cases hmove with
  | rest => exact hsince
  | propose y hnone =>
      rw [hnone] at hx
      cases hx
  | confirm =>
      rw [hsince]
      rfl
  | clear => cases hx'

end Handover

/-! ## Candidates along a run -/

namespace TransitionSystem

variable {T : TransitionSystem σ ℓ} {candidate : σ → Option α}
  {clock : σ → ℕ} {x : α} {time : ℕ} {s w : σ} {ls : List ℓ}

/-- In the run `ls` from `s` to `w`, a step taken at `time` made `x` the
candidate, and `x` has been the candidate in every state since. -/
def CandidateSince (T : TransitionSystem σ ℓ) (candidate : σ → Option α)
    (clock : σ → ℕ) (x : α) (time : ℕ) (s : σ) (ls : List ℓ) (w : σ) :
    Prop :=
  ∃ before l after t u, ls = before ++ l :: after ∧
    T.Run s before t ∧ T.Step t l u ∧ clock t = time ∧
    candidate t ≠ some x ∧ candidate u = some x ∧
    (T.restrict fun v _ => candidate v = some x).Run u after w

/-- The clock of a candidate was started when it became the candidate. -/
theorem Run.candidateSince {view : σ → Handover α}
    (hstep : ∀ t l u, T.Step t l u →
      Handover.Move (clock t) (view t) (view u))
    (hrun : T.Run s ls w) (hs : view s = ⟨none, none⟩)
    (hw : (view w).candidate = some x) :
    ∃ time, CandidateSince T (fun t => (view t).candidate) clock x time s ls
        w ∧
      (view w).since = some time := by
  have hnone : (view s).candidate ≠ some x := by simp [hs]
  obtain ⟨before, l, after, t, u, rfl, hbefore, hl, ht, hu, hafter⟩ :=
    hrun.onset (P := fun t => (view t).candidate = some x) hnone hw
  have hidle : (view t).Idle :=
    hbefore.preserves (Q := fun t => (view t).Idle)
      (fun _ _ _ h hstep' => (hstep _ _ _ hstep').idle h)
      (by simp [Handover.Idle, hs])
  have hstart : (view u).since = some (clock t) :=
    (hstep t l u hl).starts hidle ht hu
  refine ⟨clock t, ⟨before, l, after, t, u, rfl, hbefore, hl, rfl, ht, hu,
    hafter⟩, ?_⟩
  -- Along the rest of the run the clock is the one started at `t`.
  refine hafter.preserves
    (Q := fun v => (view v).candidate = some x →
      (view v).since = some (clock t)) ?_ (fun _ => hstart) hw
  rintro v l' v' hv ⟨hx, hstep'⟩ hx'
  exact (hstep v l' v' hstep').runs hx hx' (hv hx)

theorem CandidateSince.of_restrict {G : σ → ℓ → Prop}
    (h : CandidateSince (T.restrict G) candidate clock x time s ls w) :
    CandidateSince T candidate clock x time s ls w := by
  obtain ⟨before, l, after, t, u, rfl, hbefore, hl, hrest⟩ := h
  obtain ⟨htime, ht, hu, hafter⟩ := hrest
  refine ⟨before, l, after, t, u, rfl, hbefore.of_restrict, hl.2, htime, ht,
    hu, hafter.mono ?_⟩
  rintro v l v' ⟨hx, -, h⟩
  exact ⟨hx, h⟩

/-- If a step has one outcome, a candidate that was none before the last step
of the run was made by that step. -/
theorem CandidateSince.of_concat {l : ℓ} {v : σ}
    (hunique : ∀ t l u u', T.Step t l u → T.Step t l u' → u = u')
    (h : CandidateSince T candidate clock x time s (ls ++ [l]) w)
    (hrun : T.Run s ls v) (hv : candidate v ≠ some x) : clock v = time := by
  obtain ⟨before, l', after, t, u, hls, hbefore, hl, rfl, ht, hu, hafter⟩ := h
  rcases List.eq_nil_or_concat after with rfl | ⟨after, l'', rfl⟩
  · obtain ⟨rfl, -⟩ := List.append_inj' hls rfl
    rw [hrun.unique hunique hbefore]
  · rw [List.concat_eq_append] at hls hafter
    rw [← List.cons_append, ← List.append_assoc] at hls
    obtain ⟨rfl, -⟩ := List.append_inj' hls rfl
    obtain ⟨v', hafter, hcandidate, -⟩ := run_concat_iff.mp hafter
    have hrun' := hbefore.append (.cons hl hafter.of_restrict)
    rw [hrun'.unique hunique hrun] at hcandidate
    exact absurd hcandidate hv

end TransitionSystem

end Support
