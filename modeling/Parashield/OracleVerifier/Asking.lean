import Parashield.OracleVerifier.Agreement

/-!
# What asking changes

Every verification scores the oracles it used.  Nothing else changes, so a
later verdict can differ from the one without the earlier questions only
through the effective weights of the oracles it is evaluated on.
-/

namespace Parashield.OracleVerifier

open Support

/-- The data types a step asks about; `none` if it is not a question. -/
def asked : Label Entry → Option (List Symbol)
  | .call _ (.verifyTrigger dataType _ _) => some [dataType]
  | .call _ (.verifyTriggerFresh dataType _ _ _) => some [dataType]
  | .call _ (.batchVerifyFresh queries) =>
      some (queries.map OracleReadingQuery.dataType)
  | .tick _ => some []
  | _ => none

/-- Questions on `dataTypes` only, and time. -/
def Questions (dataTypes : List Symbol) (ls : List (Label Entry)) : Prop :=
  ∀ l ∈ ls, ∃ ds, asked l = some ds ∧ ∀ d ∈ ds, d ∈ dataTypes

instance (dataTypes : List Symbol) (ls : List (Label Entry)) :
    Decidable (Questions dataTypes ls) :=
  decidable_of_iff
    (∀ l ∈ ls, (asked l).any fun ds => decide (∀ d ∈ ds, d ∈ dataTypes))
    (by simp [Questions, Option.any_eq_true])

/-- Only reputation records of `dataTypes` have changed. -/
structure AskedOnly (dataTypes : List Symbol) (m m' : Machine State) :
    Prop where
  store : m.store.UpToReputation m'.store
  others : ∀ dataType oracle, dataType ∉ dataTypes →
    m'.store.reputation (dataType, oracle) =
      m.store.reputation (dataType, oracle)
  bank : m'.bank = m.bank

namespace AskedOnly

variable {dataTypes : List Symbol} {m₁ m₂ m₃ : Machine State}

theorem refl (dataTypes : List Symbol) (m : Machine State) :
    AskedOnly dataTypes m m where
  store := rfl
  others _ _ _ := rfl
  bank := rfl

theorem trans (h : AskedOnly dataTypes m₁ m₂)
    (h' : AskedOnly dataTypes m₂ m₃) : AskedOnly dataTypes m₁ m₃ where
  store := h.store.trans h'.store
  others d oracle hd := (h'.others d oracle hd).trans (h.others d oracle hd)
  bank := h'.bank.trans h.bank

theorem of_scored {dataType : Symbol} (h : Scored dataType m₁ m₂)
    (hmem : dataType ∈ dataTypes) : AskedOnly dataTypes m₁ m₂ where
  store := h.store
  others d oracle hd := by
    apply h.others d oracle
    rintro rfl
    exact hd hmem
  bank := h.bank

end AskedOnly

section Questions

variable {verifier : Address} {dataTypes : List Symbol}

theorem batchVerifyFresh_askedOnly {env : Env}
    {queries : List OracleReadingQuery} {m m' : Machine State}
    {bs : List Bool}
    (h : batchVerifyFresh env queries m = .ok (bs, m'))
    (hmem : ∀ q ∈ queries, q.dataType ∈ dataTypes) :
    AskedOnly dataTypes m m' := by
  have hkeeps : Contract.Keeps (AskedOnly dataTypes m)
      (batchVerifyFresh env queries) := by
    apply Contract.keeps_collect
    intro q hq s b s' hs hrun
    obtain ⟨v, -, -, hscored⟩ := verifyTriggerFresh_spec hrun
    exact hs.trans (.of_scored hscored (hmem q hq))
  exact hkeeps m bs m' (.refl dataTypes m) h

/-- One question changes reputation records of its data types only. -/
theorem step_askedOnly {w w' : World State} {l : Label Entry}
    {ds : List Symbol} (hstep : (system verifier).Step w l w')
    (hasked : asked l = some ds) (hmem : ∀ d ∈ ds, d ∈ dataTypes) :
    AskedOnly dataTypes w.machine w'.machine := by
  cases hstep with
  | @call _ e m' _ h =>
      cases e with
      | verifyTrigger dataType key condition =>
          obtain rfl := Option.some.inj hasked
          obtain ⟨b, hrun⟩ := Invocation.perform_ok.mp h
          obtain ⟨v, -, -, hscored⟩ := verifyTrigger_spec hrun
          exact .of_scored hscored (hmem dataType List.mem_cons_self)
      | verifyTriggerFresh dataType key condition maxAge =>
          obtain rfl := Option.some.inj hasked
          obtain ⟨b, hrun⟩ := Invocation.perform_ok.mp h
          obtain ⟨v, -, -, hscored⟩ := verifyTriggerFresh_spec hrun
          exact .of_scored hscored (hmem dataType List.mem_cons_self)
      | batchVerifyFresh queries =>
          obtain rfl := Option.some.inj hasked
          obtain ⟨bs, hrun⟩ := Invocation.perform_ok.mp h
          apply batchVerifyFresh_askedOnly hrun
          intro q hq
          exact hmem q.dataType (List.mem_map_of_mem hq)
      | _ => cases hasked
  | tick => exact .refl dataTypes _
  | transfer => cases hasked
  | mint => cases hasked

/-- Any number of questions change reputation records of their data types
only. -/
theorem run_askedOnly {w w' : World State} {ls : List (Label Entry)}
    (hrun : (system verifier).Run w ls w') (hls : Questions dataTypes ls) :
    AskedOnly dataTypes w.machine w'.machine := by
  induction hrun with
  | nil => exact .refl dataTypes _
  | @cons s t u l ls hstep _ ih =>
      obtain ⟨ds, hasked, hmem⟩ := hls l List.mem_cons_self
      have hrest : Questions dataTypes ls := fun l' hl' =>
        hls l' (List.mem_cons_of_mem l hl')
      exact (step_askedOnly hstep hasked hmem).trans (ih hrest)

/-! ## Evaluation after questions -/

section Evaluation

variable {s t : State} {now : ℕ} {dataType key : Symbol}

theorem State.UpToReputation.eligible_eq (h : s.UpToReputation t) :
    t.eligible now dataType key = s.eligible now dataType key := by
  rw [h]
  rfl

theorem State.UpToReputation.aggregateSamples_eq (h : s.UpToReputation t)
    (samples : List Sample) :
    t.aggregateSamples now dataType samples =
      s.aggregateSamples now dataType samples := by
  rw [h]
  rfl

/-- Records that have not changed weigh the same. -/
theorem effective_eq {x : Row}
    (h : t.reputation (dataType, x.1.oracle) =
      s.reputation (dataType, x.1.oracle)) :
    t.effective dataType x = s.effective dataType x := by
  simp only [State.effective, State.getReputation, h]

theorem getMedianValue_congr (hst : s.UpToReputation t)
    (hsay : SameSay s dataType (s.eligible now dataType key)
      (s.effective dataType) (t.effective dataType)) {v v' : ℤ}
    (hv : s.getMedianValue now dataType key = .ok v)
    (hv' : t.getMedianValue now dataType key = .ok v') : v = v' := by
  obtain ⟨kept, total, hagg⟩ := State.getMedianValue_spec hv
  obtain ⟨kept', total', hagg'⟩ := State.getMedianValue_spec hv'
  rw [hst.eligible_eq, hst.aggregateSamples_eq] at hagg'
  exact aggregateSamples_congr hsay
    (State.eligible_length s now dataType key) hagg hagg'

end Evaluation

/-- Questions change reputation records of their data types only, and a later
verdict is the one without them if they were about other data types or left
the readings it is evaluated on the same say. -/
theorem asking_keeps_answer {w w' : World State} {ls : List (Label Entry)}
    (hrun : (system verifier).Run w ls w') (hls : Questions dataTypes ls)
    {env : Env} {dataType key : Symbol}
    (hsay : dataType ∉ dataTypes ∨
      SameSay w.machine.store dataType
        (w.machine.store.eligible env.now dataType key)
        (w.machine.store.effective dataType)
        (w'.machine.store.effective dataType)) :
    AskedOnly dataTypes w.machine w'.machine ∧
    (∀ condition b b' m₁ m₂,
      verifyTrigger env dataType key condition w.machine = .ok (b, m₁) →
      verifyTrigger env dataType key condition w'.machine = .ok (b', m₂) →
      b' = b) ∧
    ∀ condition maxAge b b' m₁ m₂,
      verifyTriggerFresh env dataType key condition maxAge w.machine =
        .ok (b, m₁) →
      verifyTriggerFresh env dataType key condition maxAge w'.machine =
        .ok (b', m₂) → b' = b := by
  have hasked := run_askedOnly hrun hls
  have hsame : SameSay w.machine.store dataType
      (w.machine.store.eligible env.now dataType key)
      (w.machine.store.effective dataType)
      (w'.machine.store.effective dataType) := by
    rcases hsay with hother | hsay
    · apply SameSay.equal
      intro x _
      exact (effective_eq (hasked.others dataType _ hother)).symm
    · exact hsay
  have hverdict : ∀ (condition : TriggerCondition) (v v' : ℤ) (b b' : Bool),
      w.machine.store.getMedianValue env.now dataType key = .ok v →
      w'.machine.store.getMedianValue env.now dataType key = .ok v' →
      condition.holds v = .ok b → condition.holds v' = .ok b' → b' = b := by
    intro condition v v' b b' hv hv' hb hb'
    rw [getMedianValue_congr hasked.store hsame hv hv', hb'] at hb
    exact Except.ok.inj hb
  refine ⟨hasked, ?_, ?_⟩
  · intro condition b b' m₁ m₂ h h'
    obtain ⟨v, hv, hb, -⟩ := verifyTrigger_spec h
    obtain ⟨v', hv', hb', -⟩ := verifyTrigger_spec h'
    exact hverdict condition v v' b b' hv hv' hb hb'
  · intro condition maxAge b b' m₁ m₂ h h'
    obtain ⟨v, hv, hb, -⟩ := verifyTriggerFresh_spec h
    obtain ⟨v', hv', hb', -⟩ := verifyTriggerFresh_spec h'
    exact hverdict condition v v' b b' hv hv' hb hb'

end Questions

/-! ## One question that changes the next answer -/

open Scenario

/-- The question whether it was wet, asked by nobody in particular. -/
def oneQuestion : List (Label Entry) :=
  [.call [] (.verifyTrigger Symbols.weather rain wet)]

def askedOnce : World State :=
  (TransitionSystem.execute (step exec verifier) oneQuestion reported).get
    (by decide +kernel)

theorem askedOnce_run : (system verifier).Run reported oneQuestion askedOnce :=
  TransitionSystem.run_of_execute (fun _ _ _ => step_sound)
    (Option.some_get _).symm

/-- A tolerant question, which finds both oracles accurate. -/
def tolerantQuestion : List (Label Entry) :=
  [.call [] (.verifyTrigger Symbols.weather rain { wet with tolerance := 10 })]

def trustedAsked : World State :=
  (TransitionSystem.execute (step exec verifier) tolerantQuestion
    trusted).get (by decide +kernel)

theorem trustedAsked_run :
    (system verifier).Run trusted tolerantQuestion trustedAsked :=
  TransitionSystem.run_of_execute (fun _ _ _ => step_sound)
    (Option.some_get _).symm

/-- Accurate oracles at full reputation stay there, and so does the answer. -/
theorem asking_keeps_answer_trusted :
    AskedOnly [Symbols.weather] trusted.machine trustedAsked.machine ∧
      ∀ condition b b' m₁ m₂,
        verifyTrigger (callEnv verifier trusted []) Symbols.weather rain
          condition trusted.machine = .ok (b, m₁) →
        verifyTrigger (callEnv verifier trusted []) Symbols.weather rain
          condition trustedAsked.machine = .ok (b', m₂) → b' = b := by
  have hweights : ∀ x ∈ trusted.machine.store.eligible trusted.now
      Symbols.weather rain,
      trusted.machine.store.effective Symbols.weather x =
        trustedAsked.machine.store.effective Symbols.weather x := by
    decide +kernel
  have hquestions : Questions [Symbols.weather] tolerantQuestion := by
    decide
  have hkept := @asking_keeps_answer verifier [Symbols.weather] trusted
    trustedAsked tolerantQuestion trustedAsked_run hquestions
    (callEnv verifier trusted []) Symbols.weather rain
    (.inr (.equal hweights))
  exact ⟨hkept.1, hkept.2.1⟩

/-- Asking whether it was wet raises both oracles to full reputation, and
turns the same question's answer from no to yes. -/
theorem asking_changes_answer :
    (system verifier).Reachable reported ∧
      (system verifier).Run reported oneQuestion askedOnce ∧
      (verifyTrigger (callEnv verifier reported []) Symbols.weather rain wet
        reported.machine).map Prod.fst = .ok false ∧
      (verifyTrigger (callEnv verifier askedOnce []) Symbols.weather rain wet
        askedOnce.machine).map Prod.fst = .ok true := by
  refine ⟨reported_reachable, askedOnce_run, ?_, ?_⟩ <;> decide +kernel

end Parashield.OracleVerifier
