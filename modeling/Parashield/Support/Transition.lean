import Mathlib.Logic.Relation

/-!
# Labelled transition systems

A machine is given by its initial states and by the steps it can take, each
step carrying a label.  This module packages the inductions every safety
argument needs: an invariant that holds initially and is preserved by each
step holds in every reachable state, also when only the steps satisfying a
guard are taken, and what holds once and is preserved holds along every later
run.  A machine that refines a smaller one has its invariants.
-/

namespace Support

/-- A labelled transition system on states `σ` with labels `ℓ`. -/
structure TransitionSystem (σ ℓ : Type*) where
  Init : σ → Prop
  Step : σ → ℓ → σ → Prop

namespace TransitionSystem

variable {σ τ ℓ : Type*}

/-! ## Reachable states -/

/-- The states reached from an initial state by finitely many steps. -/
inductive Reachable (T : TransitionSystem σ ℓ) : σ → Prop
  | init {s : σ} : T.Init s → Reachable T s
  | step {s s' : σ} {l : ℓ} :
      Reachable T s → T.Step s l s' → Reachable T s'

/-- `I` holds initially and every step preserves it. -/
structure Inductive (T : TransitionSystem σ ℓ) (I : σ → Prop) : Prop where
  init : ∀ s, T.Init s → I s
  step : ∀ s l s', I s → T.Step s l s' → I s'

theorem Reachable.invariant
    {T : TransitionSystem σ ℓ} {I : σ → Prop} (hI : T.Inductive I)
    {s : σ} (hs : T.Reachable s) : I s := by
  induction hs with
  | init h => exact hI.init _ h
  | step _ hstep ih => exact hI.step _ _ _ ih hstep

/-- Inductive predicates may be proved one on top of another: the step of `J`
may use the invariant `I` before and after the step. -/
theorem Inductive.and
    {T : TransitionSystem σ ℓ} {I J : σ → Prop} (hI : T.Inductive I)
    (hinit : ∀ s, T.Init s → J s)
    (hstep : ∀ s l s', I s → I s' → J s → T.Step s l s' → J s') :
    T.Inductive fun s => I s ∧ J s where
  init s hs := ⟨hI.init s hs, hinit s hs⟩
  step s l s' h hs := by
    have hI' := hI.step s l s' h.1 hs
    exact ⟨hI', hstep s l s' h.1 hI' h.2 hs⟩

/-! ## Guarded systems -/

/-- The same machine, taking only the steps that meet the guard `G`. -/
def restrict (T : TransitionSystem σ ℓ) (G : σ → ℓ → Prop) :
    TransitionSystem σ ℓ where
  Init := T.Init
  Step s l s' := G s l ∧ T.Step s l s'

@[simp] theorem restrict_init (T : TransitionSystem σ ℓ)
    (G : σ → ℓ → Prop) : (T.restrict G).Init = T.Init := rfl

@[simp] theorem restrict_step_iff (T : TransitionSystem σ ℓ)
    (G : σ → ℓ → Prop) {s s' : σ} {l : ℓ} :
    (T.restrict G).Step s l s' ↔ G s l ∧ T.Step s l s' := Iff.rfl

theorem Reachable.of_restrict
    {T : TransitionSystem σ ℓ} {G : σ → ℓ → Prop} {s : σ}
    (hs : (T.restrict G).Reachable s) : T.Reachable s := by
  induction hs with
  | init h => exact .init h
  | step _ hstep ih => exact .step ih hstep.2

/-- A guard that excludes nothing loses no state. -/
theorem Reachable.restrict
    {T : TransitionSystem σ ℓ} {G : σ → ℓ → Prop} (hG : ∀ s l, G s l)
    {s : σ} (hs : T.Reachable s) : (T.restrict G).Reachable s := by
  induction hs with
  | init h => exact .init h
  | step _ hstep ih => exact .step ih ⟨hG _ _, hstep⟩

/-- An invariant of the machine is an invariant of every guarded version. -/
theorem Inductive.restrict
    {T : TransitionSystem σ ℓ} {I : σ → Prop} (hI : T.Inductive I)
    (G : σ → ℓ → Prop) : (T.restrict G).Inductive I where
  init := hI.init
  step s l s' h hs := hI.step s l s' h hs.2

/-! ## Refused steps -/

/-- The same machine, in which a step that cannot be taken may be attempted
and leaves everything as it is. -/
def attempts (T : TransitionSystem σ ℓ) : TransitionSystem σ ℓ where
  Init := T.Init
  Step s l s' := T.Step s l s' ∨ (∀ t, ¬ T.Step s l t) ∧ s' = s

@[simp] theorem attempts_init (T : TransitionSystem σ ℓ) :
    T.attempts.Init = T.Init := rfl

/-! ## Runs between two states -/

/-- `T.Run s ls s'` says that the labels `ls`, oldest first, lead from `s`
to `s'`. -/
inductive Run (T : TransitionSystem σ ℓ) : σ → List ℓ → σ → Prop
  | nil (s : σ) : Run T s [] s
  | cons {s t u : σ} {l : ℓ} {ls : List ℓ} :
      T.Step s l t → Run T t ls u → Run T s (l :: ls) u

@[simp] theorem run_nil_iff {T : TransitionSystem σ ℓ} {s s' : σ} :
    T.Run s [] s' ↔ s' = s := by
  constructor
  · intro h
    cases h
    rfl
  · rintro rfl
    exact .nil _

theorem run_cons_iff {T : TransitionSystem σ ℓ} {s s' : σ} {l : ℓ}
    {ls : List ℓ} :
    T.Run s (l :: ls) s' ↔ ∃ t, T.Step s l t ∧ T.Run t ls s' := by
  constructor
  · intro h
    cases h with
    | cons hstep hrun => exact ⟨_, hstep, hrun⟩
  · rintro ⟨t, hstep, hrun⟩
    exact .cons hstep hrun

/-- What every step preserves, every run preserves. -/
theorem Run.preserves
    {T : TransitionSystem σ ℓ} {Q : σ → Prop}
    (hstep : ∀ s l s', Q s → T.Step s l s' → Q s')
    {s s' : σ} {ls : List ℓ} (hrun : T.Run s ls s') (hQ : Q s) : Q s' := by
  induction hrun with
  | nil => exact hQ
  | cons h _ ih => exact ih (hstep _ _ _ hQ h)

/-- A reflexive and transitive relation that contains every step contains
every run. -/
theorem Run.relation
    {T : TransitionSystem σ ℓ} {R : σ → σ → Prop}
    (hrefl : ∀ s, R s s) (htrans : ∀ s t u, R s t → R t u → R s u)
    (hstep : ∀ s l s', T.Step s l s' → R s s')
    {s s' : σ} {ls : List ℓ} (hrun : T.Run s ls s') : R s s' := by
  induction hrun with
  | nil => exact hrefl _
  | cons h _ ih => exact htrans _ _ _ (hstep _ _ _ h) ih

/-- A run whose labels always meet the guard is a guarded run. -/
theorem Run.restrict
    {T : TransitionSystem σ ℓ} {G : σ → ℓ → Prop} {s s' : σ} {ls : List ℓ}
    (hrun : T.Run s ls s') (hG : ∀ l ∈ ls, ∀ t, G t l) :
    (T.restrict G).Run s ls s' := by
  induction hrun with
  | nil => exact .nil _
  | cons hstep _ ih =>
      obtain ⟨hl, hls⟩ := List.forall_mem_cons.mp hG
      exact .cons ⟨hl _, hstep⟩ (ih hls)

/-- A machine with more steps has more runs. -/
theorem Run.mono
    {T T' : TransitionSystem σ ℓ} {s s' : σ} {ls : List ℓ}
    (hstep : ∀ s l s', T.Step s l s' → T'.Step s l s')
    (hrun : T.Run s ls s') : T'.Run s ls s' := by
  induction hrun with
  | nil => exact .nil _
  | cons h _ ih => exact .cons (hstep _ _ _ h) ih

/-- A machine that has the steps of another from the states a run can be in
has its runs. -/
theorem Run.mono_invariant
    {T T' : TransitionSystem σ ℓ} {I : σ → Prop} {s s' : σ} {ls : List ℓ}
    (hstep : ∀ s l s', I s → T.Step s l s' → I s' ∧ T'.Step s l s')
    (hrun : T.Run s ls s') (hI : I s) : T'.Run s ls s' := by
  induction hrun with
  | nil => exact .nil _
  | cons h _ ih =>
      obtain ⟨hI', h'⟩ := hstep _ _ _ hI h
      exact .cons h' (ih hI')

theorem Run.of_restrict
    {T : TransitionSystem σ ℓ} {G : σ → ℓ → Prop} {s s' : σ} {ls : List ℓ}
    (hrun : (T.restrict G).Run s ls s') : T.Run s ls s' := by
  refine hrun.mono ?_
  rintro s l s' ⟨-, h⟩
  exact h

theorem Reachable.run
    {T : TransitionSystem σ ℓ} {s s' : σ} {ls : List ℓ}
    (hs : T.Reachable s) (hrun : T.Run s ls s') : T.Reachable s' := by
  induction hrun with
  | nil => exact hs
  | cons h _ ih => exact ih (.step hs h)

theorem Run.concat
    {T : TransitionSystem σ ℓ} {s s' s'' : σ} {l : ℓ} {ls : List ℓ}
    (hrun : T.Run s ls s') (hstep : T.Step s' l s'') :
    T.Run s (ls ++ [l]) s'' := by
  induction hrun with
  | nil => exact .cons hstep (.nil _)
  | cons h _ ih => exact .cons h (ih hstep)

theorem Run.append
    {T : TransitionSystem σ ℓ} {s s' s'' : σ} {ls ls' : List ℓ}
    (h : T.Run s ls s') (h' : T.Run s' ls' s'') :
    T.Run s (ls ++ ls') s'' := by
  induction h with
  | nil => exact h'
  | cons hstep _ ih => exact .cons hstep (ih h')

theorem run_append_iff {T : TransitionSystem σ ℓ} {s s' : σ}
    {ls ls' : List ℓ} :
    T.Run s (ls ++ ls') s' ↔ ∃ t, T.Run s ls t ∧ T.Run t ls' s' := by
  induction ls generalizing s with
  | nil => simp
  | cons l ls ih =>
      simp only [List.cons_append, run_cons_iff, ih]
      constructor
      · rintro ⟨u, hu, t, hrun, hrun'⟩
        exact ⟨t, ⟨u, hu, hrun⟩, hrun'⟩
      · rintro ⟨t, ⟨u, hu, hrun⟩, hrun'⟩
        exact ⟨u, hu, t, hrun, hrun'⟩

theorem run_concat_iff {T : TransitionSystem σ ℓ} {s s' : σ} {l : ℓ}
    {ls : List ℓ} :
    T.Run s (ls ++ [l]) s' ↔ ∃ t, T.Run s ls t ∧ T.Step t l s' := by
  simp [run_append_iff, run_cons_iff]

/-- A label of a run was taken by one of its steps. -/
theorem Run.step_of_mem
    {T : TransitionSystem σ ℓ} {s s' : σ} {l : ℓ} {ls : List ℓ}
    (hrun : T.Run s ls s') (hl : l ∈ ls) :
    ∃ before after t u, ls = before ++ l :: after ∧ T.Run s before t ∧
      T.Step t l u ∧ T.Run u after s' := by
  obtain ⟨before, after, rfl⟩ := List.append_of_mem hl
  obtain ⟨t, hbefore, hrest⟩ := run_append_iff.mp hrun
  obtain ⟨u, hstep, hafter⟩ := run_cons_iff.mp hrest
  exact ⟨before, after, t, u, rfl, hbefore, hstep, hafter⟩

/-- What happens only before `Done`, and brings it about, happens at most once
in a run. -/
theorem Run.countP_le_one
    {T : TransitionSystem σ ℓ} {p : ℓ → Bool} {Done : σ → Prop}
    (hstep : ∀ s l s', T.Step s l s' → p l = true → ¬ Done s ∧ Done s')
    (hstay : ∀ s l s', T.Step s l s' → Done s → Done s')
    {s s' : σ} {ls : List ℓ} (hrun : T.Run s ls s') : ls.countP p ≤ 1 := by
  suffices h : ls.countP p ≤ 1 ∧ (Done s → ls.countP p = 0) from h.1
  induction hrun with
  | nil => simp
  | @cons s t u l ls hl _ ih =>
      by_cases hp : p l = true
      · obtain ⟨hbefore, hafter⟩ := hstep s l t hl hp
        rw [List.countP_cons_of_pos hp, ih.2 hafter]
        exact ⟨Nat.le_refl 1, fun h => absurd h hbefore⟩
      · rw [List.countP_cons_of_neg hp]
        exact ⟨ih.1, fun h => ih.2 (hstay s l t hl h)⟩

/-- If a step has one outcome, so has a run. -/
theorem Run.unique
    {T : TransitionSystem σ ℓ} {s t t' : σ} {ls : List ℓ}
    (hstep : ∀ s l t t', T.Step s l t → T.Step s l t' → t = t')
    (h : T.Run s ls t) (h' : T.Run s ls t') : t = t' := by
  induction h with
  | nil => exact (run_nil_iff.mp h').symm
  | cons hl _ ih =>
      obtain ⟨u, hl', hrun⟩ := run_cons_iff.mp h'
      obtain rfl := hstep _ _ _ _ hl hl'
      exact ih hrun

/-- What holds at the end of a run has either held all along, or a step
brought it about and it has held since. -/
theorem Run.held_or_onset
    {T : TransitionSystem σ ℓ} {P : σ → Prop} {s s' : σ} {ls : List ℓ}
    (hrun : T.Run s ls s') (hs' : P s') :
    (P s ∧ (T.restrict fun t _ => P t).Run s ls s') ∨
      ∃ before l after t u, ls = before ++ l :: after ∧
        T.Run s before t ∧ T.Step t l u ∧ ¬ P t ∧ P u ∧
        (T.restrict fun t _ => P t).Run u after s' := by
  induction hrun with
  | nil s => exact .inl ⟨hs', .nil s⟩
  | @cons s t u l ls hstep _ ih =>
      rcases ih hs' with ⟨ht, hheld⟩ | ⟨before, l', after, t', u', rfl, hrest⟩
      · by_cases hs : P s
        · exact .inl ⟨hs, .cons ⟨hs, hstep⟩ hheld⟩
        · exact .inr
            ⟨[], l, ls, s, t, rfl, .nil s, hstep, hs, ht, hheld⟩
      · obtain ⟨hbefore, honset⟩ := hrest
        exact .inr
          ⟨l :: before, l', after, t', u', rfl, .cons hstep hbefore, honset⟩

/-- What holds at the end of a run but not at its start was brought about by
a step, and has held since. -/
theorem Run.onset
    {T : TransitionSystem σ ℓ} {P : σ → Prop} {s s' : σ} {ls : List ℓ}
    (hrun : T.Run s ls s') (hs : ¬ P s) (hs' : P s') :
    ∃ before l after t u, ls = before ++ l :: after ∧
      T.Run s before t ∧ T.Step t l u ∧ ¬ P t ∧ P u ∧
      (T.restrict fun t _ => P t).Run u after s' := by
  rcases hrun.held_or_onset hs' with ⟨hheld, -⟩ | honset
  · exact absurd hheld hs
  · exact honset

/-- A log to which each step adds at most one entry, for a key not served
before, grows over a run by entries for different keys, and what holds of an
entry once holds to the end. -/
theorem Run.logged
    {T : TransitionSystem σ ℓ} {α β κ : Type*} (log : σ → List α)
    (entry : β → α) (key : β → κ) {I : σ → Prop} {Q : σ → β → Prop}
    (hstep : ∀ s l s', I s → T.Step s l s' →
      I s' ∧ (∀ b, Q s b → Q s' b) ∧
        (log s' = log s ∨ ∃ b, log s' = entry b :: log s ∧ Q s' b ∧
          ∀ b', Q s b' → key b' ≠ key b))
    {s s' : σ} {ls : List ℓ} (hrun : T.Run s ls s') (hI : I s) :
    ∃ bs : List β,
      log s' = bs.map entry ++ log s ∧ (bs.map key).Nodup ∧
      ∀ b ∈ bs, Q s' b := by
  suffices h : ∀ served : List β, (served.map key).Nodup →
      (∀ b ∈ served, Q s b) →
      ∃ bs : List β, log s' = bs.map entry ++ log s ∧
        ((bs ++ served).map key).Nodup ∧ ∀ b ∈ bs ++ served, Q s' b by
    simpa using h [] (by simp) (by simp)
  induction hrun with
  | nil =>
      intro served hnodup hQ
      exact ⟨[], by simp, hnodup, hQ⟩
  | @cons s t u l ls hl _ ih =>
      intro served hnodup hQ
      obtain ⟨hIt, hkeep, hlog⟩ := hstep s l t hI hl
      have hserved : ∀ b ∈ served, Q t b := fun b hb => hkeep b (hQ b hb)
      rcases hlog with heq | ⟨b, heq, hb, hnew⟩
      · rw [← heq]
        exact ih hIt served hnodup hserved
      · obtain ⟨bs, hbs, hnodup', hQ'⟩ := ih hIt (b :: served)
          (by
            rw [List.map_cons, List.nodup_cons]
            refine ⟨fun hmem => ?_, hnodup⟩
            obtain ⟨b', hb', hkey⟩ := List.mem_map.mp hmem
            exact hnew b' (hQ b' hb') hkey)
          (by
            rintro b' (_ | ⟨_, hb'⟩)
            · exact hb
            · exact hserved b' hb')
        refine ⟨bs ++ [b], ?_, ?_, ?_⟩
        · rw [hbs, heq]
          simp
        · simpa using hnodup'
        · simpa using hQ'

/-- A run together with what its steps put out, oldest first. -/
inductive Outputs {β : Type*} (T : TransitionSystem σ ℓ)
    (out : σ → ℓ → List β) : σ → List ℓ → σ → List β → Prop
  | nil (s : σ) : Outputs T out s [] s []
  | cons {s t u : σ} {l : ℓ} {ls : List ℓ} {bs : List β} :
      T.Step s l t → Outputs T out t ls u bs →
      Outputs T out s (l :: ls) u (out s l ++ bs)

/-- Every run puts something out. -/
theorem Run.outputs
    {β : Type*} {T : TransitionSystem σ ℓ} (out : σ → ℓ → List β) {s s' : σ}
    {ls : List ℓ} (hrun : T.Run s ls s') : ∃ bs, T.Outputs out s ls s' bs := by
  induction hrun with
  | nil s => exact ⟨[], .nil s⟩
  | cons hstep _ ih =>
      obtain ⟨bs, hbs⟩ := ih
      exact ⟨_, .cons hstep hbs⟩

theorem Outputs.run
    {β : Type*} {T : TransitionSystem σ ℓ} {out : σ → ℓ → List β} {s s' : σ}
    {ls : List ℓ} {bs : List β} (h : T.Outputs out s ls s' bs) :
    T.Run s ls s' := by
  induction h with
  | nil s => exact .nil s
  | cons hstep _ ih => exact .cons hstep ih

/-- What relates a state to the output so far, and is kept by every step,
relates the end of a run to its whole output. -/
theorem Outputs.preserves
    {β : Type*} {T : TransitionSystem σ ℓ} {out : σ → ℓ → List β}
    {Q : σ → List β → Prop}
    (hstep : ∀ s l s' past, Q s past → T.Step s l s' →
      Q s' (past ++ out s l))
    {s s' : σ} {ls : List ℓ} {bs past : List β}
    (h : T.Outputs out s ls s' bs) (hQ : Q s past) : Q s' (past ++ bs) := by
  induction h generalizing past with
  | nil => simpa using hQ
  | cons hl _ ih =>
      rw [← List.append_assoc]
      exact ih (hstep _ _ _ _ hQ hl)

/-- Every reachable state lies at the end of a run from an initial state. -/
theorem Reachable.exists_run
    {T : TransitionSystem σ ℓ} {s : σ} (hs : T.Reachable s) :
    ∃ s₀ ls, T.Init s₀ ∧ T.Run s₀ ls s := by
  induction hs with
  | init h => exact ⟨_, [], h, .nil _⟩
  | @step s s' l _ hstep ih =>
      obtain ⟨s₀, ls, hinit, hrun⟩ := ih
      exact ⟨s₀, ls ++ [l], hinit, hrun.concat hstep⟩

/-! ## Executable steps -/

/-- Follow the labels with an executable step function. -/
def execute (step : σ → ℓ → Option σ) : List ℓ → σ → Option σ
  | [], s => some s
  | l :: ls, s =>
      match step s l with
      | some t => execute step ls t
      | none => none

/-- What a sound step function executes is a run. -/
theorem run_of_execute
    {T : TransitionSystem σ ℓ} {step : σ → ℓ → Option σ}
    (hsound : ∀ s l s', step s l = some s' → T.Step s l s')
    {ls : List ℓ} {s s' : σ} (h : execute step ls s = some s') :
    T.Run s ls s' := by
  induction ls generalizing s with
  | nil =>
      simp only [execute, Option.some.injEq] at h
      exact h ▸ .nil s
  | cons l ls ih =>
      simp only [execute] at h
      cases hl : step s l with
      | none => simp [hl] at h
      | some t =>
          rw [hl] at h
          exact .cons (hsound s l t hl) (ih h)

theorem reachable_of_execute
    {T : TransitionSystem σ ℓ} {step : σ → ℓ → Option σ}
    (hsound : ∀ s l s', step s l = some s' → T.Step s l s')
    {ls : List ℓ} {s s' : σ} (hinit : T.Init s)
    (h : execute step ls s = some s') : T.Reachable s' :=
  (Reachable.init hinit).run (run_of_execute hsound h)

/-- What the executed steps put out. -/
def emit {β : Type*} (step : σ → ℓ → Option σ) (out : σ → ℓ → List β) :
    List ℓ → σ → List β
  | [], _ => []
  | l :: ls, s =>
      out s l ++
        match step s l with
        | some t => emit step out ls t
        | none => []

theorem outputs_of_execute
    {β : Type*} {T : TransitionSystem σ ℓ} {step : σ → ℓ → Option σ}
    {out : σ → ℓ → List β}
    (hsound : ∀ s l s', step s l = some s' → T.Step s l s')
    {ls : List ℓ} {s s' : σ} (h : execute step ls s = some s') :
    T.Outputs out s ls s' (emit step out ls s) := by
  induction ls generalizing s with
  | nil =>
      obtain rfl := Option.some.inj h
      exact .nil s
  | cons l ls ih =>
      simp only [execute] at h
      cases hl : step s l with
      | none => simp [hl] at h
      | some t =>
          rw [hl] at h
          simp only [emit, hl]
          exact .cons (hsound s l t hl) (ih h)

/-- Take a step only if the guard allows it. -/
def guarded (G : σ → ℓ → Prop) [∀ s l, Decidable (G s l)]
    (step : σ → ℓ → Option σ) (s : σ) (l : ℓ) : Option σ :=
  if G s l then step s l else none

theorem guarded_sound
    {T : TransitionSystem σ ℓ} {step : σ → ℓ → Option σ}
    {G : σ → ℓ → Prop} [∀ s l, Decidable (G s l)]
    (hsound : ∀ s l s', step s l = some s' → T.Step s l s')
    (s : σ) (l : ℓ) (s' : σ) (h : guarded G step s l = some s') :
    (T.restrict G).Step s l s' := by
  unfold guarded at h
  split at h
  · next hG => exact ⟨hG, hsound s l s' h⟩
  · cases h

/-- Take a step if it can be taken, and stay put if not. -/
def attempted (step : σ → ℓ → Option σ) (s : σ) (l : ℓ) : Option σ :=
  some ((step s l).getD s)

theorem attempted_sound
    {T : TransitionSystem σ ℓ} {step : σ → ℓ → Option σ}
    (hstep : ∀ s l s', step s l = some s' ↔ T.Step s l s')
    (s : σ) (l : ℓ) (s' : σ) (h : attempted step s l = some s') :
    T.attempts.Step s l s' := by
  obtain rfl := Option.some.inj h
  cases hl : step s l with
  | none =>
      refine .inr ⟨fun t ht => ?_, rfl⟩
      cases hl.symm.trans ((hstep s l t).mpr ht)
  | some t => exact .inl ((hstep s l t).mp hl)

/-! ## Refinement with stuttering -/

section Refinement

variable {κ : Type*}

/-- `T` refines `U`: seen through `f`, a step labelled `l` is the step `g l`,
or no step at all. -/
structure Refines (T : TransitionSystem σ ℓ) (U : TransitionSystem τ κ)
    (f : σ → τ) (g : ℓ → Option κ) : Prop where
  init : ∀ s, T.Init s → U.Init (f s)
  step : ∀ s l s' k, g l = some k → T.Step s l s' → U.Step (f s) k (f s')
  stutter : ∀ s l s', g l = none → T.Step s l s' → f s' = f s

variable {T : TransitionSystem σ ℓ} {U : TransitionSystem τ κ} {f : σ → τ}
  {g : ℓ → Option κ}

/-- The labels that are steps of the small machine lead from one projection to
the other. -/
theorem Refines.run (h : T.Refines U f g) {s s' : σ} {ls : List ℓ}
    (hrun : T.Run s ls s') : U.Run (f s) (ls.filterMap g) (f s') := by
  induction hrun with
  | nil => exact .nil _
  | @cons s t u l ls hstep _ ih =>
      cases hg : g l with
      | none =>
          rw [List.filterMap_cons_none hg, ← h.stutter s l t hg hstep]
          exact ih
      | some k =>
          rw [List.filterMap_cons_some hg]
          exact .cons (h.step s l t k hg hstep) ih

theorem Refines.reachable (h : T.Refines U f g) {s : σ}
    (hs : T.Reachable s) : U.Reachable (f s) := by
  obtain ⟨s₀, ls, hinit, hrun⟩ := hs.exists_run
  exact (Reachable.init (h.init s₀ hinit)).run (h.run hrun)

end Refinement

/-! ## Refinement by runs -/

section RefinementByRuns

variable {κ : Type*}

/-- `T` refines `U` by runs: what a step of `T` does, `U` does in a run, all of
whose labels the step may cause. -/
structure RefinesRuns (T : TransitionSystem σ ℓ) (U : TransitionSystem τ κ)
    (f : σ → τ) (causes : ℓ → κ → Prop) : Prop where
  init : ∀ s, T.Init s → U.Init (f s)
  step : ∀ s l s', T.Reachable s → T.Step s l s' →
    ∃ ks, U.Run (f s) ks (f s') ∧ ∀ k ∈ ks, causes l k

variable {T : TransitionSystem σ ℓ} {U : TransitionSystem τ κ} {f : σ → τ}
  {causes : ℓ → κ → Prop}

/-- A run of `T` is a run of `U` that the labels of `T` caused. -/
theorem RefinesRuns.run (h : T.RefinesRuns U f causes) {s s' : σ} {ls : List ℓ}
    (hs : T.Reachable s) (hrun : T.Run s ls s') :
    ∃ ks, U.Run (f s) ks (f s') ∧ ∀ k ∈ ks, ∃ l ∈ ls, causes l k := by
  induction hrun with
  | nil => exact ⟨[], .nil _, by simp⟩
  | @cons s t u l ls hstep _ ih =>
      obtain ⟨first, hfirst, hcaused⟩ := h.step s l t hs hstep
      obtain ⟨rest, hrest, hcaused'⟩ := ih (hs.step hstep)
      refine ⟨first ++ rest, hfirst.append hrest, fun k hk => ?_⟩
      rcases List.mem_append.mp hk with hk | hk
      · exact ⟨l, List.mem_cons_self, hcaused k hk⟩
      · obtain ⟨l', hl', hk'⟩ := hcaused' k hk
        exact ⟨l', List.mem_cons_of_mem l hl', hk'⟩

theorem RefinesRuns.restrict (h : T.RefinesRuns U f causes)
    (G : σ → ℓ → Prop) : (T.restrict G).RefinesRuns U f causes where
  init := h.init
  step s l s' hs hstep := h.step s l s' hs.of_restrict hstep.2

/-- Where the steps of `T` cause only labels that `P` admits, what holds in
the runs of `U` with such labels holds in `T`. -/
theorem RefinesRuns.invariant (h : T.RefinesRuns U f causes) {P : κ → Prop}
    {I : τ → Prop}
    (hcauses : ∀ s l s', T.Step s l s' → ∀ k, causes l k → P k)
    (hI : (U.restrict fun _ => P).Inductive I) {s : σ} (hs : T.Reachable s) :
    I (f s) := by
  obtain ⟨s₀, ls, hinit, hrun⟩ := hs.exists_run
  obtain ⟨ks, hks, hcaused⟩ := h.run (.init hinit) hrun
  have hadmitted : (U.restrict fun _ => P).Run (f s₀) ks (f s) := by
    refine hks.restrict fun k hk _ => ?_
    obtain ⟨l, hl, hcause⟩ := hcaused k hk
    obtain ⟨-, -, t, t', -, -, hstep, -⟩ := hrun.step_of_mem hl
    exact hcauses t l t' hstep k hcause
  exact hadmitted.preserves hI.step (hI.init _ (h.init _ hinit))

end RefinementByRuns

end TransitionSystem

end Support
