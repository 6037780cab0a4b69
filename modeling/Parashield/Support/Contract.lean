import Mathlib.Algebra.Ring.Int.Defs
import Mathlib.Algebra.Ring.Nat
import Mathlib.Data.Int.Notation
import Mathlib.Data.List.Basic
import Mathlib.Data.Nat.Notation

/-!
# Contract calls

A contract call reads and writes a state and either returns a value or fails;
a failing call leaves no trace, since the host discards everything it wrote.
Calls are therefore state transformers over `Except`.  The lemmas below invert
an accepted call step by step, and `Triple` is the partial-correctness
judgement built on them: what holds after a call that was accepted.
-/

namespace Support

/-- A call on states `σ` that returns an `α` or fails with an `ε`. -/
abbrev Contract (ε σ α : Type) := StateT σ (Except ε) α

namespace Contract

variable {ε ε' σ τ α β : Type}

/-- Continue only if `c` holds. -/
def require (c : Prop) [Decidable c] (e : ε) : Contract ε σ Unit :=
  if c then pure () else throw e

/-- The value of an option, or the failure `e`. -/
def unwrap (o : Option α) (e : ε) : Contract ε σ α :=
  match o with
  | some a => pure a
  | none => throw e

/-! ## Inversion of accepted calls -/

@[simp] theorem bind_ok {x : Contract ε σ α} {f : α → Contract ε σ β}
    {s s' : σ} {b : β} :
    (x >>= f) s = .ok (b, s') ↔
      ∃ a t, x s = .ok (a, t) ∧ f a t = .ok (b, s') := by
  simp only [bind, StateT.bind, Except.bind]
  cases h : x s with
  | error e => simp
  | ok p => obtain ⟨a, t⟩ := p; simp

@[simp] theorem pure_ok {s s' : σ} {a b : α} :
    (pure a : Contract ε σ α) s = .ok (b, s') ↔ b = a ∧ s' = s := by
  show Except.ok (a, s) = .ok (b, s') ↔ _
  simp only [Except.ok.injEq, Prod.mk.injEq]
  constructor
  · rintro ⟨rfl, rfl⟩
    exact ⟨rfl, rfl⟩
  · rintro ⟨rfl, rfl⟩
    exact ⟨rfl, rfl⟩

@[simp] theorem get_ok {s s' a : σ} :
    (get : Contract ε σ σ) s = .ok (a, s') ↔ a = s ∧ s' = s :=
  pure_ok

@[simp] theorem set_ok {s s' t : σ} {u : PUnit} :
    (set t : Contract ε σ PUnit) s = .ok (u, s') ↔ s' = t := by
  show Except.ok (PUnit.unit, t) = .ok (u, s') ↔ _
  simp only [Except.ok.injEq, Prod.mk.injEq, true_and]
  exact eq_comm

@[simp] theorem modify_ok {s s' : σ} {f : σ → σ} {u : PUnit} :
    (modify f : Contract ε σ PUnit) s = .ok (u, s') ↔ s' = f s := by
  simp only [modify, modifyGet, MonadStateOf.modifyGet, StateT.modifyGet,
    pure, Except.pure, Except.ok.injEq, Prod.mk.injEq, true_and]
  exact eq_comm

@[simp] theorem throw_ok {s s' : σ} {e : ε} {a : α} :
    (throw e : Contract ε σ α) s = .ok (a, s') ↔ False := by
  simp [throw, throwThe, MonadExceptOf.throw, StateT.lift]

@[simp] theorem require_ok {c : Prop} [Decidable c] {e : ε} {s s' : σ} {u : Unit} :
    (require c e : Contract ε σ Unit) s = .ok (u, s') ↔ c ∧ s' = s := by
  unfold require
  split
  · next h => simp [pure_ok, h]
  · next h => simp [throw_ok, h]

@[simp] theorem unwrap_ok {o : Option α} {e : ε} {s s' : σ} {a : α} :
    (unwrap o e : Contract ε σ α) s = .ok (a, s') ↔ o = some a ∧ s' = s := by
  cases o with
  | none => simp [unwrap, throw_ok]
  | some b =>
      simp only [unwrap, pure_ok, Option.some.injEq]
      exact and_congr_left' eq_comm

@[simp] theorem map_ok {x : Contract ε σ α} {f : α → β}
    {s s' : σ} {b : β} :
    (f <$> x) s = .ok (b, s') ↔ ∃ a, x s = .ok (a, s') ∧ b = f a := by
  rw [map_eq_pure_bind, bind_ok]
  constructor
  · rintro ⟨a, t, hx, h⟩
    obtain ⟨rfl, rfl⟩ := pure_ok.mp h
    exact ⟨a, hx, rfl⟩
  · rintro ⟨a, hx, rfl⟩
    exact ⟨a, s', hx, pure_ok.mpr ⟨rfl, rfl⟩⟩

theorem ite_ok {c : Prop} [Decidable c] {x y : Contract ε σ α}
    {s s' : σ} {a : α} :
    (if c then x else y) s = .ok (a, s') ↔
      (c ∧ x s = .ok (a, s')) ∨ (¬ c ∧ y s = .ok (a, s')) := by
  by_cases h : c
  · simp [h]
  · simp [h]

/-- Run `x` only if `c` holds. -/
def whenever (c : Prop) [Decidable c] (x : Contract ε σ Unit) :
    Contract ε σ Unit :=
  if c then x else pure ()

/-- Loop over a list, one call per element, oldest first. -/
def forEach (xs : List α) (f : α → Contract ε σ Unit) : Contract ε σ Unit :=
  match xs with
  | [] => pure ()
  | x :: xs => do
      f x
      forEach xs f

/-- Call `f` on each element and collect the results in order. -/
def collect (xs : List α) (f : α → Contract ε σ β) : Contract ε σ (List β) :=
  match xs with
  | [] => pure []
  | x :: xs => do
      let b ← f x
      let bs ← collect xs f
      pure (b :: bs)

@[simp] theorem whenever_ok {c : Prop} [Decidable c]
    {x : Contract ε σ Unit} {s s' : σ} {u : Unit} :
    (whenever c x) s = .ok (u, s') ↔
      (c ∧ x s = .ok (u, s')) ∨ (¬ c ∧ s' = s) := by
  simp [whenever, ite_ok]

/-- A loop whose body reads the state collects what it reads. -/
theorem collect_read {xs : List α} {f : α → Contract ε σ β} {s : σ} {g : α → β}
    (h : ∀ x ∈ xs, f x s = .ok (g x, s)) :
    collect xs f s = .ok (xs.map g, s) := by
  induction xs with
  | nil => exact pure_ok.mpr ⟨rfl, rfl⟩
  | cons x xs ih =>
      have hrest := ih fun y hy => h y (List.mem_cons_of_mem x hy)
      exact bind_ok.mpr ⟨g x, s, h x List.mem_cons_self,
        bind_ok.mpr ⟨xs.map g, s, hrest, pure_ok.mpr ⟨rfl, rfl⟩⟩⟩

/-- A loop whose body leaves the state alone leaves it alone. -/
theorem collect_idle {xs : List α} {f : α → Contract ε σ β} {s : σ} {b : β}
    (h : ∀ x ∈ xs, f x s = .ok (b, s)) :
    ∃ bs, collect xs f s = .ok (bs, s) :=
  ⟨_, collect_read h⟩

/-- A part `τ` of a state `σ`. -/
structure Part (σ τ : Type) where
  get : σ → τ
  put : τ → σ → σ
  get_put : ∀ t s, get (put t s) = t
  put_get : ∀ s, put (get s) s = s
  put_put : ∀ t t' s, put t (put t' s) = put t s

/-- Run a call of the part on the whole state. -/
def zoom (P : Part σ τ) (lift : ε' → ε) (c : Contract ε' τ α) :
    Contract ε σ α := fun s =>
  match c (P.get s) with
  | .ok (a, t) => .ok (a, P.put t s)
  | .error e => .error (lift e)

/-- Run a call and hand its failure to the caller, with its writes undone. -/
def attempt (c : Contract ε' σ α) : Contract ε σ (Except ε' α) := fun s =>
  match c s with
  | .ok (a, s') => .ok (.ok a, s')
  | .error e => .ok (.error e, s)

@[simp] theorem zoom_ok {P : Part σ τ} {lift : ε' → ε} {c : Contract ε' τ α}
    {s s' : σ} {a : α} :
    zoom P lift c s = .ok (a, s') ↔
      ∃ t, c (P.get s) = .ok (a, t) ∧ s' = P.put t s := by
  unfold zoom
  cases h : c (P.get s) with
  | error e => simp
  | ok p =>
      obtain ⟨b, t⟩ := p
      simp only [Except.ok.injEq, Prod.mk.injEq]
      constructor
      · rintro ⟨rfl, rfl⟩
        exact ⟨t, ⟨rfl, rfl⟩, rfl⟩
      · rintro ⟨t', ⟨rfl, rfl⟩, rfl⟩
        exact ⟨rfl, rfl⟩

theorem attempt_ok {c : Contract ε' σ α} {s s' : σ} {r : Except ε' α} :
    (attempt c : Contract ε σ _) s = .ok (r, s') ↔
      (∃ a, r = .ok a ∧ c s = .ok (a, s')) ∨
        (∃ e, r = .error e ∧ c s = .error e ∧ s' = s) := by
  unfold attempt
  cases h : c s with
  | error e =>
      simp only [Except.ok.injEq, Prod.mk.injEq, Except.error.injEq, reduceCtorEq,
        and_false, exists_false, false_or]
      constructor
      · rintro ⟨rfl, rfl⟩
        exact ⟨e, rfl, rfl, rfl⟩
      · rintro ⟨e', rfl, rfl, rfl⟩
        exact ⟨rfl, rfl⟩
  | ok p =>
      obtain ⟨b, t⟩ := p
      simp only [Except.ok.injEq, Prod.mk.injEq, reduceCtorEq, false_and,
        and_false, exists_false, or_false]
      constructor
      · rintro ⟨rfl, rfl⟩
        exact ⟨b, rfl, rfl, rfl⟩
      · rintro ⟨a, rfl, rfl, rfl⟩
        exact ⟨rfl, rfl⟩

/-! ## Partial correctness -/

/-- Whenever `P` holds before an accepted call of `c`, `Q` holds after it. -/
def Triple (P : σ → Prop) (c : Contract ε σ α) (Q : α → σ → Prop) : Prop :=
  ∀ s a s', P s → c s = .ok (a, s') → Q a s'

/-- Every accepted call of `c` keeps `I`. -/
def Keeps (I : σ → Prop) (c : Contract ε σ α) : Prop :=
  Triple I c fun _ s => I s

theorem Triple.bind {P : σ → Prop} {R : α → σ → Prop} {Q : β → σ → Prop}
    {c : Contract ε σ α} {f : α → Contract ε σ β}
    (hc : Triple P c R) (hf : ∀ a, Triple (R a) (f a) Q) :
    Triple P (c >>= f) Q := by
  intro s b s' hP h
  obtain ⟨a, t, hx, hrest⟩ := bind_ok.mp h
  exact hf a t b s' (hc s a t hP hx) hrest

section Keeps

variable {I : σ → Prop}

theorem keeps_bind {c : Contract ε σ α} {f : α → Contract ε σ β}
    (hc : Keeps I c) (hf : ∀ a, Keeps I (f a)) : Keeps I (c >>= f) :=
  Triple.bind hc hf

theorem keeps_pure (a : α) : Keeps I (pure a : Contract ε σ α) := by
  intro s b s' hI h
  obtain ⟨-, rfl⟩ := pure_ok.mp h
  exact hI

theorem keeps_get : Keeps I (get : Contract ε σ σ) := by
  intro s b s' hI h
  obtain ⟨-, rfl⟩ := get_ok.mp h
  exact hI

theorem keeps_require (c : Prop) [Decidable c] (e : ε) :
    Keeps I (require c e : Contract ε σ Unit) := by
  intro s b s' hI h
  obtain ⟨-, rfl⟩ := require_ok.mp h
  exact hI

theorem keeps_unwrap (o : Option α) (e : ε) :
    Keeps I (unwrap o e : Contract ε σ α) := by
  intro s b s' hI h
  obtain ⟨-, rfl⟩ := unwrap_ok.mp h
  exact hI

theorem keeps_modify {f : σ → σ} (h : ∀ s, I s → I (f s)) :
    Keeps I (modify f : Contract ε σ PUnit) := by
  intro s b s' hI hrun
  rw [modify_ok.mp hrun]
  exact h s hI

theorem keeps_ite {c : Prop} [Decidable c] {x y : Contract ε σ α}
    (hx : c → Keeps I x) (hy : ¬ c → Keeps I y) :
    Keeps I (if c then x else y) := by
  by_cases h : c
  · rw [if_pos h]
    exact hx h
  · rw [if_neg h]
    exact hy h

theorem keeps_whenever {c : Prop} [Decidable c] {x : Contract ε σ Unit}
    (hx : c → Keeps I x) : Keeps I (whenever c x) :=
  keeps_ite hx fun _ => keeps_pure ()

theorem keeps_attempt {c : Contract ε' σ α} (hc : Keeps I c) :
    Keeps I (attempt c : Contract ε σ _) := by
  intro s r s' hI h
  rcases attempt_ok.mp h with ⟨a, -, hrun⟩ | ⟨e, -, -, rfl⟩
  · exact hc s a s' hI hrun
  · exact hI

theorem keeps_forEach {xs : List α} {f : α → Contract ε σ Unit}
    (hf : ∀ x ∈ xs, Keeps I (f x)) : Keeps I (forEach xs f) := by
  induction xs with
  | nil => exact keeps_pure ()
  | cons x xs ih =>
      apply keeps_bind (hf x List.mem_cons_self)
      intro _
      exact ih fun y hy => hf y (List.mem_cons_of_mem x hy)

theorem keeps_collect {xs : List α} {f : α → Contract ε σ β}
    (hf : ∀ x ∈ xs, Keeps I (f x)) : Keeps I (collect xs f) := by
  induction xs with
  | nil => exact keeps_pure []
  | cons x xs ih =>
      apply keeps_bind (hf x List.mem_cons_self)
      intro b
      apply keeps_bind (ih fun y hy => hf y (List.mem_cons_of_mem x hy))
      intro bs
      exact keeps_pure (b :: bs)

end Keeps

/-! ## Checked machine arithmetic -/

/-- The range of a signed 128-bit integer. -/
def InI128 (x : ℤ) : Prop := -2 ^ 127 ≤ x ∧ x < 2 ^ 127

instance (x : ℤ) : Decidable (InI128 x) :=
  inferInstanceAs (Decidable (_ ∧ _))

/-- The result of a signed 128-bit operation, or the failure `e` when it does
not fit. -/
def i128 (x : ℤ) (e : ε) : Contract ε σ ℤ := do
  require (InI128 x) e
  pure x

/-- The result of an unsigned `bits`-bit operation, or the failure `e`. -/
def unsigned (bits x : ℕ) (e : ε) : Contract ε σ ℕ := do
  require (x < 2 ^ bits) e
  pure x

@[simp] theorem i128_ok {x y : ℤ} {e : ε} {s s' : σ} :
    (i128 x e : Contract ε σ ℤ) s = .ok (y, s') ↔
      InI128 x ∧ y = x ∧ s' = s := by
  simp only [i128, bind_ok, require_ok, pure_ok]
  constructor
  · rintro ⟨_, t, ⟨hx, rfl⟩, rfl, rfl⟩
    exact ⟨hx, rfl, rfl⟩
  · rintro ⟨hx, rfl, rfl⟩
    exact ⟨(), _, ⟨hx, rfl⟩, rfl, rfl⟩

@[simp] theorem unsigned_ok {bits x y : ℕ} {e : ε} {s s' : σ} :
    (unsigned bits x e : Contract ε σ ℕ) s = .ok (y, s') ↔
      x < 2 ^ bits ∧ y = x ∧ s' = s := by
  simp only [unsigned, bind_ok, require_ok, pure_ok]
  constructor
  · rintro ⟨_, t, ⟨hx, rfl⟩, rfl, rfl⟩
    exact ⟨hx, rfl, rfl⟩
  · rintro ⟨hx, rfl, rfl⟩
    exact ⟨(), _, ⟨hx, rfl⟩, rfl, rfl⟩

theorem keeps_i128 {I : σ → Prop} (x : ℤ) (e : ε) :
    Keeps I (i128 x e : Contract ε σ ℤ) :=
  keeps_bind (keeps_require _ e) fun _ => keeps_pure x

theorem keeps_unsigned {I : σ → Prop} (bits x : ℕ) (e : ε) :
    Keeps I (unsigned bits x e : Contract ε σ ℕ) :=
  keeps_bind (keeps_require _ e) fun _ => keeps_pure x

/-! ## Calls of a part, one after the other -/

section Zoom

variable {P : Part σ τ} {lift : ε' → ε}

theorem zoom_pure (a : α) :
    zoom P lift (pure a) = (pure a : Contract ε σ α) := by
  funext s
  exact congrArg (fun t => Except.ok (a, t)) (P.put_get s)

theorem zoom_bind (c : Contract ε' τ α) (k : α → Contract ε' τ β) :
    zoom P lift (c >>= k) =
      (zoom P lift c >>= fun a => zoom P lift (k a) : Contract ε σ β) := by
  funext s
  simp only [zoom, bind, StateT.bind, Except.bind]
  cases c (P.get s) with
  | error e => rfl
  | ok p =>
      obtain ⟨a, t⟩ := p
      simp only [P.get_put]
      cases k a t with
      | error e => rfl
      | ok q => simp only [P.put_put]

theorem zoom_collect (xs : List α) (f : α → Contract ε' τ β) :
    zoom P lift (collect xs f) =
      (collect xs fun x => zoom P lift (f x) : Contract ε σ (List β)) := by
  induction xs with
  | nil => exact zoom_pure []
  | cons x xs ih =>
      simp only [collect, zoom_bind, zoom_pure, ih]

/-- A check before a loop is a check in every round, the first of which fails
if any does. -/
theorem require_collect {p : Prop} [Decidable p] {e : ε} {xs : List α}
    (hxs : xs ≠ []) (f : α → Contract ε σ β) :
    (require p e >>= fun _ => collect xs f) =
      collect xs fun x => require p e >>= fun _ => f x := by
  unfold require
  split
  · simp only [pure_bind]
  · cases xs with
    | nil => exact absurd rfl hxs
    | cons x xs => rfl

end Zoom

end Contract

end Support
