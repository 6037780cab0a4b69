import Mathlib.Data.List.Induction
import Mathlib.Logic.Function.Basic

/-!
# Events kept apart

A guard that remembers, for each key, the time of the last event only, and
lets a new event pass when that one is `gap` old, keeps any two events of one
key `gap` apart.
-/

namespace Support

variable {α κ : Type} [DecidableEq κ] (key : α → κ) (time : α → ℕ) (gap : ℕ)

/-- The time of the last event of each key. -/
def stamp (log : List α) (k : κ) : Option ℕ :=
  ((log.filter fun e => key e = k).getLast?).map time

/-- Any two events of one key lie `gap` apart. -/
def Spaced (log : List α) : Prop :=
  log.Pairwise fun a b => key a = key b → time a + gap ≤ time b

@[simp] theorem stamp_nil : stamp key time [] = fun _ => none := rfl

omit [DecidableEq κ] in
@[simp] theorem spaced_nil : Spaced key time gap [] := List.Pairwise.nil

/-- A new event overwrites the stamp of its key. -/
theorem stamp_concat (log : List α) (e : α) :
    stamp key time (log ++ [e]) =
      Function.update (stamp key time log) (key e) (some (time e)) := by
  funext k
  by_cases hk : k = key e
  · subst hk
    simp [stamp]
  · have hne : ¬ key e = k := fun h => hk h.symm
    simp [stamp, Function.update_of_ne hk, hne]

variable {key time gap}

/-- No event of a key is later than its stamp. -/
theorem Spaced.le_stamp {log : List α} (h : Spaced key time gap log) {a : α}
    (ha : a ∈ log) :
    ∃ t, stamp key time log (key a) = some t ∧ time a ≤ t := by
  induction log using List.reverseRecOn with
  | nil => cases ha
  | append_singleton log e ih =>
      obtain ⟨hlog, -, hlast⟩ := List.pairwise_append.mp h
      rw [stamp_concat]
      by_cases hk : key a = key e
      · rw [hk, Function.update_self]
        refine ⟨time e, rfl, ?_⟩
        rcases List.mem_append.mp ha with ha | ha
        · have hapart := hlast a ha e List.mem_cons_self hk
          omega
        · obtain rfl := List.mem_singleton.mp ha
          exact Nat.le_refl _
      · rw [Function.update_of_ne hk]
        rcases List.mem_append.mp ha with ha | ha
        · exact ih hlog ha
        · exact absurd (congrArg key (List.mem_singleton.mp ha)) hk

/-- An event later than the stamp of its key by the gap keeps the log
spaced. -/
theorem Spaced.concat {log : List α} (h : Spaced key time gap log) {e : α}
    (he : ∀ t ∈ stamp key time log (key e), t + gap ≤ time e) :
    Spaced key time gap (log ++ [e]) := by
  refine List.pairwise_append.mpr ⟨h, List.pairwise_singleton _ e, ?_⟩
  intro a ha b hb hk
  obtain rfl := List.mem_singleton.mp hb
  obtain ⟨t, ht, hle⟩ := h.le_stamp ha
  have hgap := he t (hk ▸ ht)
  omega

end Support
