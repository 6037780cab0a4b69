import Parashield.Support.Contract

/-!
# Checked computations

A computation that reads and writes no state and may fail: the read-only part
of a contract call.  The lemmas mirror those of `Contract`.
-/

namespace Support

/-- A computation that returns an `α` or fails with an `ε`. -/
abbrev Check (ε α : Type) := Except ε α

namespace Check

open Contract

variable {ε σ α β : Type}

/-- Continue only if `c` holds. -/
def require (c : Prop) [Decidable c] (e : ε) : Check ε Unit :=
  if c then .ok () else .error e

/-- The value of an option, or the failure `e`. -/
def unwrap (o : Option α) (e : ε) : Check ε α :=
  match o with
  | some a => .ok a
  | none => .error e

/-- The result of a signed 128-bit operation, or the failure `e`. -/
def i128 (x : ℤ) (e : ε) : Check ε ℤ := do
  require (InI128 x) e
  pure x

/-- The result of an unsigned `bits`-bit operation, or the failure `e`. -/
def unsigned (bits x : ℕ) (e : ε) : Check ε ℕ := do
  require (x < 2 ^ bits) e
  pure x

/-- `x * y / d` with every step checked: `e` is the failure of a result out
of range, `zero` that of a division by zero. -/
def mulDiv (x y d : ℤ) (e zero : ε) : Check ε ℤ := do
  let v ← i128 (x * y) e
  require (d ≠ 0) zero
  i128 (v.tdiv d) e

@[simp] theorem bind_ok {x : Check ε α} {f : α → Check ε β} {b : β} :
    (x >>= f) = .ok b ↔ ∃ a, x = .ok a ∧ f a = .ok b := by
  cases x with
  | error e => simp [bind, Except.bind]
  | ok a => simp [bind, Except.bind]

@[simp] theorem pure_ok {a b : α} :
    (pure a : Check ε α) = .ok b ↔ b = a := by
  simp only [pure, Except.pure, Except.ok.injEq]
  exact eq_comm

@[simp] theorem map_ok {x : Check ε α} {f : α → β} {b : β} :
    (f <$> x) = .ok b ↔ ∃ a, x = .ok a ∧ b = f a := by
  rw [map_eq_pure_bind, bind_ok]
  simp only [pure_ok]

@[simp] theorem require_ok {c : Prop} [Decidable c] {e : ε} {u : Unit} :
    require c e = .ok u ↔ c := by
  unfold require
  split
  · next h => simp [h]
  · next h => simp [h]

@[simp] theorem unwrap_ok {o : Option α} {e : ε} {a : α} :
    unwrap o e = .ok a ↔ o = some a := by
  cases o with
  | none => simp [unwrap]
  | some b => simp [unwrap]

@[simp] theorem i128_ok {x y : ℤ} {e : ε} :
    (i128 x e : Check ε ℤ) = .ok y ↔ InI128 x ∧ y = x := by
  simp [i128]

@[simp] theorem unsigned_ok {bits x y : ℕ} {e : ε} :
    (unsigned bits x e : Check ε ℕ) = .ok y ↔ x < 2 ^ bits ∧ y = x := by
  simp [unsigned]

@[simp] theorem mulDiv_ok {x y d z : ℤ} {e zero : ε} :
    (mulDiv x y d e zero : Check ε ℤ) = .ok z ↔
      InI128 (x * y) ∧ d ≠ 0 ∧ InI128 ((x * y).tdiv d) ∧
        z = (x * y).tdiv d := by
  simp [mulDiv]

end Check

namespace Contract

variable {ε σ α : Type}

/-- Run a checked computation inside a call. -/
def check (x : Check ε α) : Contract ε σ α := fun s =>
  match x with
  | .ok a => .ok (a, s)
  | .error e => .error e

@[simp] theorem check_ok {x : Check ε α} {s s' : σ} {a : α} :
    (check x : Contract ε σ α) s = .ok (a, s') ↔ x = .ok a ∧ s' = s := by
  unfold check
  cases x with
  | error e => simp
  | ok b =>
      simp only [Except.ok.injEq, Prod.mk.injEq]
      exact and_congr_right' eq_comm

theorem keeps_check {I : σ → Prop} (x : Check ε α) :
    Keeps I (check x : Contract ε σ α) := by
  intro s b s' hI h
  obtain ⟨-, rfl⟩ := check_ok.mp h
  exact hI

end Contract

end Support
