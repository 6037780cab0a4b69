import Parashield.Support.Check

/-!
# Calls that overlook a change

A call overlooks a change of the state if it comes to the same value or the
same failure whether or not the change was made before it, and leaves the
change in place.  Overlooking a change is established step by step: a call
that reads the state must go on in the same way from either reading.
-/

namespace Support

open Contract

variable {ε ε' σ τ α β : Type} {f : σ → σ}

/-- Running `c` after the change `f` is running `c` before it. -/
def Overlooks (f : σ → σ) (c : Contract ε σ α) : Prop :=
  ∀ s, c (f s) = (c s).map (Prod.map id f)

theorem overlooks_pure (a : α) : Overlooks f (pure a : Contract ε σ α) :=
  fun _ => rfl

theorem overlooks_throw (e : ε) : Overlooks f (throw e : Contract ε σ α) :=
  fun _ => rfl

theorem overlooks_bind {c : Contract ε σ α} {k : α → Contract ε σ β}
    (hc : Overlooks f c) (hk : ∀ a, Overlooks f (k a)) :
    Overlooks f (c >>= k) := by
  intro s
  simp only [bind, StateT.bind, Except.bind, hc s]
  cases h : c s with
  | error e => rfl
  | ok p => exact hk p.1 p.2

theorem overlooks_ite {p : Prop} [Decidable p] {c d : Contract ε σ α}
    (hc : Overlooks f c) (hd : Overlooks f d) :
    Overlooks f (if p then c else d) := by
  split
  · exact hc
  · exact hd

theorem overlooks_require (p : Prop) [Decidable p] (e : ε) :
    Overlooks f (require p e : Contract ε σ Unit) :=
  overlooks_ite (overlooks_pure ()) (overlooks_throw e)

theorem overlooks_unwrap (o : Option α) (e : ε) :
    Overlooks f (unwrap o e : Contract ε σ α) := by
  cases o with
  | none => exact overlooks_throw e
  | some a => exact overlooks_pure a

theorem overlooks_check (x : Check ε α) :
    Overlooks f (check x : Contract ε σ α) := by
  cases x with
  | error e => exact overlooks_throw e
  | ok a => exact overlooks_pure a

theorem overlooks_modify {g : σ → σ} (h : ∀ s, g (f s) = f (g s)) :
    Overlooks f (modify g : Contract ε σ PUnit) := by
  intro s
  show Except.ok (PUnit.unit, g (f s)) = Except.ok (PUnit.unit, f (g s))
  rw [h s]

/-- A reading may be followed by a call that does not tell the two readings
apart. -/
theorem overlooks_get_bind {k : σ → Contract ε σ α}
    (hsame : ∀ s, k (f s) = k s) (hk : ∀ s, Overlooks f (k s)) :
    Overlooks f (get >>= k) := by
  intro s
  show k (f s) (f s) = _
  rw [hsame s]
  exact hk s s

/-- A change elsewhere is overlooked by the calls of a part. -/
theorem overlooks_zoom {P : Part σ τ} {lift : ε' → ε} {c : Contract ε' τ α}
    (hget : ∀ s, P.get (f s) = P.get s)
    (hput : ∀ t s, P.put t (f s) = f (P.put t s)) :
    Overlooks f (zoom P lift c) := by
  intro s
  simp only [zoom, hget s]
  cases c (P.get s) with
  | error e => rfl
  | ok p => exact congrArg (fun t => Except.ok (p.1, t)) (hput p.2 s)

end Support
