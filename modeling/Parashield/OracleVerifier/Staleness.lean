import Mathlib.Data.List.DropRight
import Parashield.OracleVerifier.Agreement
import Parashield.OracleVerifier.Standing
import Parashield.Support.Log

/-!
# Oracle verifier: stale readings in a row

The stale counter is meant to count the stale readings that follow one another.
The two batch paths reset it at other times than they should: one never does,
the other once at the end, whatever its last reading was.  In runs where that
makes no difference the counter is right, and penalties come when they are due.
-/

namespace Parashield.OracleVerifier

open Support Support.Contract Invocation

/-! ## Readings dealt with -/

/-- A reading that was dealt with, and the threshold at that time. -/
structure Dealt where
  key : Symbol × Address
  threshold : ℕ
  mark : Mark
  deriving DecidableEq

/-- How many stale readings there are since the last fresh one or the last
penalty. -/
def consecutive (log : List Dealt) : ℕ :=
  (log.rtakeWhile fun d => decide (d.mark = .stale false)).length

/-- Penalties were applied exactly when threshold many stale readings had
followed one another. -/
def Punctual (log : List Dealt) : Prop :=
  ∀ before d after, log = before ++ d :: after →
    ∀ penalized, d.mark = .stale penalized →
      (penalized = true ↔ Due d.threshold (consecutive before + 1))

section Logs

variable {log : List Dealt} {d : Dealt} {k : Symbol × Address}
  {threshold : ℕ}

@[simp] theorem consecutive_nil : consecutive [] = 0 := rfl

theorem consecutive_stale (h : d.mark = .stale false) :
    consecutive (log ++ [d]) = consecutive log + 1 := by
  unfold consecutive
  rw [List.rtakeWhile_concat, if_pos (decide_eq_true h), List.length_append,
    List.length_singleton]

theorem consecutive_reset (h : d.mark ≠ .stale false) :
    consecutive (log ++ [d]) = 0 := by
  unfold consecutive
  rw [List.rtakeWhile_concat, if_neg (by simpa using h), List.length_nil]

theorem punctual_nil : Punctual [] := by
  intro before d after h
  simp at h

theorem Punctual.concat (h : Punctual log)
    (hd : ∀ penalized, d.mark = .stale penalized →
      (penalized = true ↔ Due d.threshold (consecutive log + 1))) :
    Punctual (log ++ [d]) := by
  intro before x after heq
  rcases List.eq_nil_or_concat after with rfl | ⟨rest, y, rfl⟩
  · obtain ⟨rfl, hlast⟩ := List.append_inj' heq rfl
    rw [← List.singleton_inj.mp hlast]
    exact hd
  · have hassoc : before ++ x :: (rest ++ [y]) =
        (before ++ x :: rest) ++ [y] := by
      simp
    rw [List.concat_eq_append, hassoc] at heq
    exact h before x rest (List.append_inj' heq rfl).1

theorem consecutive_fresh {log : List Dealt} (flags : List Bool)
    (h : flags ≠ [] ∨ consecutive log = 0) :
    consecutive (log ++ flags.map fun _ => ⟨k, threshold, .fresh⟩) = 0 := by
  rcases List.eq_nil_or_concat flags with rfl | ⟨rest, flag, rfl⟩
  · simpa using h
  · rw [List.concat_eq_append, List.map_append, ← List.append_assoc]
    exact consecutive_reset nofun

theorem Punctual.fresh {log : List Dealt} (h : Punctual log)
    (flags : List Bool) :
    Punctual (log ++ flags.map fun _ => ⟨k, threshold, .fresh⟩) := by
  induction flags generalizing log with
  | nil => simpa using h
  | cons flag flags ih =>
      rw [List.map_cons, ← List.singleton_append, ← List.append_assoc]
      exact ih (h.concat nofun)

end Logs

/-! ## One call -/

/-- The stale counter after a reading. -/
def countMark (count : ℕ) : Mark → ℕ
  | .fresh => count
  | .stale false => bump count
  | .stale true => 0

theorem count_foldl {rules : StaleRules} {now : ℕ} {x : Standing}
    (marks : List Mark) :
    (marks.foldl (Standing.mark rules now) x).count =
      marks.foldl countMark x.count := by
  induction marks generalizing x with
  | nil => rfl
  | cons a marks ih =>
      have hmark : (Standing.mark rules now x a).count =
          countMark x.count a := by
        unfold Standing.mark countMark
        split <;> rfl
      rw [List.foldl_cons, List.foldl_cons, ih, hmark]

/-- The readings of a call, stale or not, for a counter that stands at `n` and
may be cleared in the end: no fresh reading comes between stale ones that are
counted together, what is counted in the end is not cleared, and the counter
does not come to its limit. -/
def Orderly (threshold : ℕ) (clears : Bool) : ℕ → List Bool → Prop
  | n, [] => clears = true → n = 0
  | n, false :: rest =>
      (n = 0 ∨ clears = true ∧ true ∉ rest) ∧
        Orderly threshold clears 0 rest
  | n, true :: rest =>
      n + 1 < 2 ^ 32 ∧
        Orderly threshold clears
          (if Due threshold (n + 1) then 0 else n + 1) rest

instance decidableOrderly (threshold : ℕ) (clears : Bool) :
    ∀ n flags, Decidable (Orderly threshold clears n flags)
  | _, [] => inferInstanceAs (Decidable (_ → _))
  | _, false :: rest =>
      haveI := decidableOrderly threshold clears 0 rest
      inferInstanceAs (Decidable (_ ∧ _))
  | n, true :: rest =>
      haveI := decidableOrderly threshold clears
        (if Due threshold (n + 1) then 0 else n + 1) rest
      inferInstanceAs (Decidable (_ ∧ _))

section Orderly

variable {threshold : ℕ} {clears : Bool} {k : Symbol × Address}

theorem marksFrom_fresh (count : ℕ) {flags : List Bool}
    (h : true ∉ flags) :
    marksFrom threshold count flags = flags.map fun _ => Mark.fresh := by
  induction flags with
  | nil => rfl
  | cons flag flags ih =>
      rw [List.mem_cons, not_or] at h
      cases flag with
      | true => exact (h.1 rfl).elim
      | false => exact congrArg (Mark.fresh :: ·) (ih h.2)

theorem bump_eq {n : ℕ} (h : n + 1 < 2 ^ 32) : bump n = n + 1 := by
  unfold bump
  omega

/-- The log after readings with these marks. -/
def logged (k : Symbol × Address) (threshold : ℕ) (log : List Dealt)
    (marks : List Mark) : List Dealt :=
  log ++ marks.map (Dealt.mk k threshold)

theorem logged_cons {log : List Dealt} {a : Mark} {marks : List Mark} :
    logged k threshold log (a :: marks) =
      logged k threshold (log ++ [⟨k, threshold, a⟩]) marks := by
  simp [logged]

/-- What readings in order come to, for a counter at `count`. -/
structure Kept (clears : Bool) (count : ℕ) (marks : List Mark)
    (log : List Dealt) : Prop where
  timely : Punctual log
  count : consecutive log = if clears then 0 else marks.foldl countMark count

/-- Readings in order keep the log timely, and the counter right. -/
theorem Orderly.kept {log : List Dealt} {flags : List Bool}
    (h : Orderly threshold clears (consecutive log) flags)
    (hlog : Punctual log) :
    Kept clears (consecutive log)
      (marksFrom threshold (consecutive log) flags)
      (logged k threshold log
        (marksFrom threshold (consecutive log) flags)) := by
  induction flags generalizing log with
  | nil =>
      refine ⟨by simpa [logged, marksFrom] using hlog, ?_⟩
      cases clears with
      | true => simpa [logged, marksFrom] using h rfl
      | false => simp [logged, marksFrom]
  | cons flag flags ih =>
      have hnext : ∀ a,
          consecutive (log ++ [⟨k, threshold, a⟩]) =
            countMark (consecutive log) a →
          Punctual (log ++ [⟨k, threshold, a⟩]) →
          Orderly threshold clears (countMark (consecutive log) a) flags →
          Kept clears (consecutive log)
            (a :: marksFrom threshold (countMark (consecutive log) a) flags)
            (logged k threshold log
              (a :: marksFrom threshold (countMark (consecutive log) a)
                flags)) := by
        intro a hcount htimely hrest
        rw [← hcount] at hrest ⊢
        obtain ⟨hdone, hend⟩ := ih hrest htimely
        rw [logged_cons]
        refine ⟨hdone, hend.trans ?_⟩
        rw [List.foldl_cons, ← hcount]
      cases flag with
      | false =>
          obtain ⟨hzero | ⟨rfl, hfresh⟩, hrest⟩ := h
          · have hreset : consecutive (log ++ [⟨k, threshold, .fresh⟩]) = 0 :=
              consecutive_reset (by rintro ⟨⟩)
            refine hnext .fresh (hreset.trans hzero.symm)
              (hlog.concat (by rintro _ ⟨⟩)) ?_
            rw [countMark, hzero]
            exact hrest
          · have hnone : true ∉ false :: flags := by simpa using hfresh
            have hmap : logged k threshold log
                (marksFrom threshold (consecutive log) (false :: flags)) =
                log ++ (false :: flags).map
                  fun _ => (⟨k, threshold, .fresh⟩ : Dealt) := by
              rw [marksFrom_fresh _ hnone, logged, List.map_map]
              rfl
            rw [hmap]
            exact ⟨hlog.fresh _, consecutive_fresh _ (.inl (by simp))⟩
      | true =>
          obtain ⟨hbound, hrest⟩ := h
          have hbump := bump_eq hbound
          by_cases hdue : Due threshold (consecutive log + 1)
          · rw [if_pos hdue] at hrest
            rw [marksFrom, hbump, if_pos hdue]
            refine hnext (.stale true) (consecutive_reset (by rintro ⟨⟩))
              (hlog.concat fun penalized heq => ?_) hrest
            obtain rfl := Mark.stale.inj heq
            exact iff_of_true rfl hdue
          · rw [if_neg hdue] at hrest
            rw [marksFrom, hbump, if_neg hdue, ← hbump]
            refine hnext (.stale false) ?_
              (hlog.concat fun penalized heq => ?_) ?_
            · rw [consecutive_stale rfl, countMark, hbump]
            · obtain rfl := Mark.stale.inj heq
              exact iff_of_false (by rintro ⟨⟩) hdue
            · rw [countMark, hbump]
              exact hrest

end Orderly

/-! ## Runs -/

/-- The readings a step deals with.  The marks are those by which `exec_marked`
says what the call does to the standing of the oracle. -/
def dealt (w : World State) : Label Entry → List Dealt
  | .call _ e =>
      match e.submitsFor with
      | some k =>
          (e.marks w.machine.store w.now).map
            (Dealt.mk k w.machine.store.staleThreshold)
      | none => []
  | _ => []

/-- Submissions keep their readings in order. -/
def OrderlySubmissions (w : World State) : Label Entry → Prop
  | .call _ e => ∀ k ∈ e.submitsFor,
      Orderly w.machine.store.staleThreshold
        (e.clears w.machine.store w.now) (w.machine.store.staleCount k)
        (e.times.map (w.machine.store.stale w.now k.1))
  | _ => True

instance (w : World State) : ∀ l, Decidable (OrderlySubmissions w l)
  | .call _ e => inferInstanceAs (Decidable (∀ k ∈ e.submitsFor, _))
  | .tick _ => inferInstanceAs (Decidable True)
  | .transfer .. => inferInstanceAs (Decidable True)
  | .mint .. => inferInstanceAs (Decidable True)

/-- The counter of every oracle is right, and its penalties were timely. -/
def Counted (w : World State) (past : List Dealt) : Prop :=
  ∀ k, Punctual (entriesOf Dealt.key past k) ∧
    w.machine.store.staleCount k = consecutive (entriesOf Dealt.key past k)

section Runs

variable {self : Address} {w₀ w w' : World State} {ls : List (Label Entry)}
  {past : List Dealt}

theorem submission_counted {signers : List Address} {e : Entry}
    {k : Symbol × Address} (h : Counted w past)
    (he : e.submitsFor = some k)
    (horderly : OrderlySubmissions w (.call signers e))
    (hexec : exec (callEnv self w signers) e w.machine =
      .ok ((), w'.machine)) :
    Counted w' (past ++ dealt w (.call signers e)) := by
  have hmarked := exec_marked hexec he
  have hdealt : dealt w (.call signers e) =
      (e.marks w.machine.store w.now).map
        (Dealt.mk k w.machine.store.staleThreshold) := by
    simp [dealt, he]
  have hmarks : e.marks w.machine.store w.now =
      marksFrom w.machine.store.staleThreshold (w.machine.store.staleCount k)
        (e.times.map (w.machine.store.stale w.now k.1)) := by
    simp [Entry.marks, he]
  have hkeys : ∀ d ∈ dealt w (.call signers e), d.key = k := by
    intro d hd
    rw [hdealt] at hd
    obtain ⟨a, -, rfl⟩ := List.mem_map.mp hd
    rfl
  intro j
  by_cases hj : k = j
  · subst hj
    obtain ⟨htimely, hcount⟩ := h k
    have hreadings := horderly k he
    rw [hcount] at hreadings
    have hkept := hreadings.kept (k := k) htimely
    rw [← hcount, ← hmarks] at hkept
    rw [entriesOf_append_self hkeys, hdealt]
    refine ⟨hkept.timely, ?_⟩
    have hsettled : w'.machine.store.staleCount k =
        (w.machine.store.settled w.now e k).count :=
      congrArg Standing.count hmarked.self
    rw [hsettled]
    refine Eq.trans ?_ hkept.count.symm
    unfold State.settled
    dsimp only
    cases e.clears w.machine.store w.now with
    | true => rfl
    | false => exact count_foldl _
  · have hothers : ∀ d ∈ dealt w (.call signers e), d.key ≠ j := by
      intro d hd
      rw [hkeys d hd]
      exact hj
    have hstanding := congrFun hmarked.standing j
    rw [Function.update_of_ne (Ne.symm hj)] at hstanding
    have hsame : w'.machine.store.staleCount j =
        w.machine.store.staleCount j :=
      congrArg Standing.count hstanding
    rw [entriesOf_append_of_ne hothers, hsame]
    exact h j

theorem step_counted {l : Label Entry} (h : Counted w past)
    (horderly : OrderlySubmissions w l) (hstep : (system self).Step w l w') :
    Counted w' (past ++ dealt w l) := by
  have hidle : ∀ {w' : World State},
      w'.machine.store = w.machine.store → Counted w' (past ++ []) := by
    intro w' hstore k
    rw [List.append_nil, hstore]
    exact h k
  cases hstep with
  | @call signers e m' _ hexec =>
      cases he : e.submitsFor with
      | some k => exact submission_counted h he horderly hexec
      | none =>
          have hnone : dealt w (.call signers e) = [] := by simp [dealt, he]
          rw [hnone, List.append_nil]
          intro k
          have hsame : m'.store.staleCount = w.machine.store.staleCount :=
            (exec_unsubmitted hexec he).1
          rw [hsame]
          exact h k
  | tick => exact hidle rfl
  | transfer => exact hidle rfl
  | mint => exact hidle rfl

/-- In every run whose submissions keep their readings in order, the stale
counter is the number of stale readings since the last fresh one or the last
penalty, and a stale reading is penalized exactly when it is the last of
threshold many in a row. -/
theorem stale_count_consecutive (hinit : (system self).Init w₀)
    (hrun : ((system self).restrict OrderlySubmissions).Outputs dealt w₀ ls w
      past) (k : Symbol × Address) :
    w.machine.store.staleCount k =
        consecutive (entriesOf Dealt.key past k) ∧
      ∀ before d after,
        entriesOf Dealt.key past k = before ++ d :: after →
        ∀ penalized, d.mark = .stale penalized →
          (penalized = true ↔
            d.threshold ≠ 0 ∧ d.threshold ≤ consecutive before + 1) := by
  have hstart : Counted w₀ [] := by
    intro j
    rw [hinit.1]
    exact ⟨punctual_nil, rfl⟩
  have hsteps : ∀ w l w' past, Counted w past →
      ((system self).restrict OrderlySubmissions).Step w l w' →
      Counted w' (past ++ dealt w l) :=
    fun _ _ _ _ h hstep => step_counted h hstep.1 hstep.2
  have hend := hrun.preserves hsteps hstart
  rw [List.nil_append] at hend
  exact ⟨(hend k).2, (hend k).1⟩

end Runs

/-! ## Batches -/

namespace Scenario

def wind : Symbol := ⟨['w', 'i', 'n', 'd']⟩

def countingRun : List (Label Entry) :=
  [.call [admin] (.initializeVerifier admin),
    .call [admin] (.addOracle admin oracleA Symbols.weather 100),
    .call [admin] (.setMaxDataAge admin 10),
    .call [admin] (.setStaleThreshold admin 2)]

def readingAt (key : Symbol) (timestamp : ℕ) : OracleDataSubmission :=
  ⟨key, 10, 90, timestamp⟩

/-- A fresh reading and a stale one; an hour later a stale one and a fresh
one. -/
def tidyRun : List (Label Entry) :=
  countingRun ++
    [.call [oracleA] (.batchSubmitData oracleA Symbols.weather
        [readingAt rain 1000000, readingAt wind 999000]),
      .tick 3600,
      .call [oracleA] (.submitDataBatch oracleA Symbols.weather
        [readingAt wind 999500, readingAt rain 1003600])]

def tidied : World State :=
  (TransitionSystem.execute
    (TransitionSystem.guarded OrderlySubmissions (step exec verifier)) tidyRun
    genesis).get (by decide +kernel)

/-- A stale reading, a fresh one and a stale one. -/
def mixedRun : List (Label Entry) :=
  countingRun ++
    [.call [oracleA] (.batchSubmitData oracleA Symbols.weather
      [readingAt rain 999000, readingAt rain 1000000, readingAt wind 999000])]

def mixed : World State :=
  (TransitionSystem.execute (step exec verifier) mixedRun genesis).get
    (by decide +kernel)

/-- A stale reading by the other batch path. -/
def forgottenRun : List (Label Entry) :=
  countingRun ++
    [.call [oracleA] (.submitDataBatch oracleA Symbols.weather
      [readingAt rain 999000])]

def forgotten : World State :=
  (TransitionSystem.execute (step exec verifier) forgottenRun genesis).get
    (by decide +kernel)

def dealtAs (mark : Mark) : Dealt :=
  ⟨(Symbols.weather, oracleA), 2, mark⟩

end Scenario

open Scenario

/-- The second stale reading in a row is penalized. -/
theorem stale_count_consecutive_tidied :
    tidied.machine.store.staleCount (Symbols.weather, oracleA) = 0 ∧
      (true = true ↔ 2 ≠ 0 ∧ 2 ≤ consecutive
        [dealtAs .fresh, dealtAs (.stale false)] + 1) := by
  have hrun : ((system verifier).restrict OrderlySubmissions).Outputs dealt
      genesis tidyRun tidied
      [dealtAs .fresh, dealtAs (.stale false), dealtAs (.stale true),
        dealtAs .fresh] := by
    have houtputs : ((system verifier).restrict OrderlySubmissions).Outputs
        dealt genesis tidyRun tidied
        (TransitionSystem.emit
          (TransitionSystem.guarded OrderlySubmissions (step exec verifier))
          dealt tidyRun genesis) :=
      TransitionSystem.outputs_of_execute
        (TransitionSystem.guarded_sound fun _ _ _ => step_sound)
        (Option.some_get _).symm
    have hemit : TransitionSystem.emit
        (TransitionSystem.guarded OrderlySubmissions (step exec verifier))
        dealt tidyRun genesis =
        [dealtAs .fresh, dealtAs (.stale false), dealtAs (.stale true),
          dealtAs .fresh] := by
      decide +kernel
    exact hemit ▸ houtputs
  obtain ⟨hcount, htimely⟩ := stale_count_consecutive ⟨rfl, rfl⟩ hrun
    (Symbols.weather, oracleA)
  refine ⟨hcount.trans (by decide +kernel), ?_⟩
  exact htimely [dealtAs .fresh, dealtAs (.stale false)] (dealtAs (.stale true))
    [dealtAs .fresh] (by decide +kernel) true rfl

/-- `batch_submit_data` penalizes a stale reading that follows a fresh one,
and `submit_data_batch` forgets the stale reading it ends with. -/
theorem stale_count_not_consecutive :
    ((system verifier).Outputs dealt genesis mixedRun mixed
        [dealtAs (.stale false), dealtAs .fresh, dealtAs (.stale true)] ∧
      consecutive [dealtAs (.stale false), dealtAs .fresh] = 0) ∧
    (system verifier).Outputs dealt genesis forgottenRun forgotten
        [dealtAs (.stale false)] ∧
      forgotten.machine.store.staleCount (Symbols.weather, oracleA) = 0 ∧
      consecutive [dealtAs (.stale false)] = 1 := by
  have hmixed : (system verifier).Outputs dealt genesis mixedRun mixed
      (TransitionSystem.emit (step exec verifier) dealt mixedRun genesis) :=
    TransitionSystem.outputs_of_execute (fun _ _ _ => step_sound)
      (Option.some_get _).symm
  have hforgotten : (system verifier).Outputs dealt genesis forgottenRun
      forgotten
      (TransitionSystem.emit (step exec verifier) dealt forgottenRun
        genesis) :=
    TransitionSystem.outputs_of_execute (fun _ _ _ => step_sound)
      (Option.some_get _).symm
  have hmixedMarks : TransitionSystem.emit (step exec verifier) dealt mixedRun
      genesis =
      [dealtAs (.stale false), dealtAs .fresh, dealtAs (.stale true)] := by
    decide +kernel
  have hforgottenMarks : TransitionSystem.emit (step exec verifier) dealt
      forgottenRun genesis = [dealtAs (.stale false)] := by
    decide +kernel
  refine ⟨⟨hmixedMarks ▸ hmixed, ?_⟩, hforgottenMarks ▸ hforgotten, ?_, ?_⟩
  all_goals decide +kernel

end Parashield.OracleVerifier
