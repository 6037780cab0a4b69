import Parashield.OracleVerifier.Agreement
import Parashield.OracleVerifier.Streams

/-!
# Oracle verifier: retention

What is stored for a key is one reading per oracle, the newest that was
accepted of it, whatever was pruned, evicted or dropped in between; and the
accepted readings of a stream come in the order of their times.
-/

namespace Parashield.OracleVerifier

open Support Support.Contract Invocation

namespace Streams

/-- The streams after the readings `past`, oldest first, have been taken. -/
structure Retains (c : Streams) (past : List Reading) : Prop where
  distinct : ∀ dataType key,
    ((c.readings dataType key).map OracleDataPoint.oracle).Nodup
  bounded : ∀ dataType key, (c.readings dataType key).length ≤ maxDataPoints
  last : ∀ k, c.last k = (lastOf streamOf past k).map timeOf
  increasing : Increasing streamOf timeOf past
  latest : ∀ dataType key, ∀ p ∈ c.readings dataType key,
    lastOf streamOf past (dataType, key, p.oracle) = some (dataType, key, p)

variable {c c' : Streams} {past rs : List Reading} {r : Reading}

/-- Nothing is stored before the first reading. -/
theorem Retains.empty : (State.deployed.streams).Retains [] where
  distinct _ _ := .nil
  bounded _ _ := Nat.zero_le _
  last _ := rfl
  increasing := increasing_nil
  latest _ _ _ h := nomatch h

theorem readings_of_update {k₀ : Symbol × Symbol}
    {points : Option (List OracleDataPoint)}
    (h : c'.points = Function.update c.points k₀ points)
    (dataType key : Symbol) :
    c'.readings dataType key =
      if (dataType, key) = k₀ then points.getD []
      else c.readings dataType key := by
  unfold readings
  rw [h, Function.update_apply]
  split <;> rfl

theorem Retains.forget (h : c.Retains past) (k₀ : Symbol × Symbol) :
    ({ c with points := Function.update c.points k₀ none } : Streams).Retains
      past := by
  refine ⟨fun d k => ?_, fun d k => ?_, h.last, h.increasing,
    fun d k p hp => ?_⟩
  · rw [readings_of_update rfl]
    split
    · exact .nil
    · exact h.distinct d k
  · rw [readings_of_update rfl]
    split
    · exact Nat.zero_le _
    · exact h.bounded d k
  · rw [readings_of_update rfl] at hp
    split at hp
    · cases hp
    · exact h.latest d k p hp

/-- A newer reading of a stream takes the place of the last one. -/
theorem Retains.take (h : c.Retains past) (htakes : c.Takes r c') :
    c'.Retains (past ++ [r]) := by
  obtain ⟨kept, hsub, hother, hlen, hpoints⟩ := htakes.points
  have hreadings : ∀ d k, c'.readings d k =
      if (d, k) = (r.1, r.2.1) then kept ++ [r.2.2] else c.readings d k :=
    readings_of_update hpoints
  refine ⟨fun d k => ?_, fun d k => ?_, fun k => ?_, ?_, fun d k p hp => ?_⟩
  · rw [hreadings]
    split
    · rw [List.map_append, List.nodup_append]
      refine ⟨(h.distinct _ _).sublist (hsub.map _), by simp, ?_⟩
      intro o ho o' ho'
      obtain ⟨q, hq, rfl⟩ := List.mem_map.mp ho
      obtain rfl := List.mem_singleton.mp ho'
      exact hother q hq
    · exact h.distinct d k
  · rw [hreadings]
    split
    · rw [List.length_append]
      exact hlen
    · exact h.bounded d k
  · rw [htakes.last]
    by_cases hk : streamOf r = k
    · subst hk
      rw [Function.update_self, lastOf_concat_self]
      rfl
    · rw [Function.update_of_ne (Ne.symm hk), lastOf_concat_of_ne hk]
      exact h.last k
  · refine h.increasing.concat fun y hy => ?_
    apply htakes.newer
    rw [h.last]
    exact Option.mem_map_of_mem timeOf hy
  · rw [hreadings] at hp
    split at hp
    · next hkey =>
        obtain ⟨rfl, rfl⟩ := Prod.mk.inj hkey
        rcases List.mem_append.mp hp with hp | hp
        · have hne : streamOf r ≠ (r.1, r.2.1, p.oracle) := by
            intro heq
            exact hother p hp (congrArg (fun k => k.2.2) heq).symm
          rw [lastOf_concat_of_ne hne]
          exact h.latest _ _ p (hsub.subset hp)
        · obtain rfl := List.mem_singleton.mp hp
          exact lastOf_concat_self
    · next hkey =>
        have hne : streamOf r ≠ (d, k, p.oracle) := by
          intro heq
          exact hkey (congrArg (fun k => (k.1, k.2.1)) heq).symm
        rw [lastOf_concat_of_ne hne]
        exact h.latest d k p hp

theorem Retains.follows (h : c.Retains past) (hfollows : c.Follows rs c') :
    c'.Retains (past ++ rs) := by
  induction hfollows generalizing past with
  | refl => simpa using h
  | take htakes _ ih => simpa using ih (h.take htakes)
  | forget k _ ih => exact ih (h.forget k)

end Streams

/-! ## Runs -/

/-- The readings a step takes. -/
def accepted (w : World State) : Label Entry → List Reading
  | .call _ e => e.accepts w.machine.store w.now
  | _ => []

variable {self : Address} {w₀ w w' : World State} {ls : List (Label Entry)}
  {past : List Reading}

theorem step_retains (h : w.machine.store.streams.Retains past)
    {l : Label Entry} (hstep : (system self).Step w l w') :
    w'.machine.store.streams.Retains (past ++ accepted w l) := by
  cases hstep with
  | call _ hexec => exact h.follows (exec_follows hexec)
  | tick => simpa [accepted] using h
  | transfer => simpa [accepted] using h
  | mint => simpa [accepted] using h

theorem outputs_retains (hinit : (system self).Init w₀)
    (hrun : (system self).Outputs accepted w₀ ls w past) :
    w.machine.store.streams.Retains past := by
  have hstart : w₀.machine.store.streams.Retains [] := by
    rw [hinit.1]
    exact .empty
  have hend := hrun.preserves
    (Q := fun w past => w.machine.store.streams.Retains past)
    (fun _ _ _ _ h hstep => step_retains h hstep) hstart
  simpa using hend

theorem readings_bounded (h : (system self).Reachable w)
    (dataType key : Symbol) :
    (w.machine.store.readings dataType key).length ≤ maxDataPoints := by
  obtain ⟨w₀, ls, hinit, hrun⟩ := h.exists_run
  obtain ⟨past, houtputs⟩ := hrun.outputs accepted
  exact (outputs_retains hinit houtputs).bounded dataType key

/-- After every run, what is stored for a key is at most one reading of each
oracle and at most a hundred in all, each the newest accepted one of its
stream; and along each stream the times of the accepted readings strictly
increase, up to the recorded one. -/
theorem stored_readings_latest (hinit : (system self).Init w₀)
    (hrun : (system self).Outputs accepted w₀ ls w past)
    (dataType key : Symbol) :
    ((w.machine.store.readings dataType key).map
        OracleDataPoint.oracle).Nodup ∧
      (w.machine.store.readings dataType key).length ≤ 100 ∧
      (∀ oracle,
        ((entriesOf streamOf past (dataType, key, oracle)).map
            timeOf).Pairwise (· < ·) ∧
          w.machine.store.lastReadingTimestamp (dataType, key, oracle) =
            (lastOf streamOf past (dataType, key, oracle)).map timeOf) ∧
      ∀ p ∈ w.machine.store.readings dataType key,
        lastOf streamOf past (dataType, key, p.oracle) =
          some (dataType, key, p) := by
  have hretains := outputs_retains hinit hrun
  refine ⟨hretains.distinct dataType key, hretains.bounded dataType key, ?_,
    hretains.latest dataType key⟩
  intro oracle
  exact ⟨hretains.increasing _, hretains.last _⟩

namespace Scenario

/-- The first oracle reports again after a minute. -/
def revisedRun : List (Label Entry) :=
  readingRun ++
    [.tick 60,
      .call [oracleA] (.submitData oracleA Symbols.weather rain 12 90 1000050)]

def revised : World State :=
  (TransitionSystem.execute (step exec verifier) revisedRun genesis).get
    (by decide +kernel)

/-- A reading of rain. -/
def rainOf (oracle : Address) (value : ℤ) (timestamp : ℕ) : Reading :=
  (Symbols.weather, rain, ⟨oracle, value, 90, timestamp⟩)

theorem revised_outputs :
    (system verifier).Outputs accepted genesis revisedRun revised
      [rainOf oracleA 10 1000000, rainOf oracleB 20 1000000,
        rainOf oracleA 12 1000050] := by
  have hrun : (system verifier).Outputs accepted genesis revisedRun revised
      (TransitionSystem.emit (step exec verifier) accepted revisedRun
        genesis) :=
    TransitionSystem.outputs_of_execute (fun _ _ _ => step_sound)
      (Option.some_get _).symm
  have hemit : TransitionSystem.emit (step exec verifier) accepted revisedRun
      genesis =
      [rainOf oracleA 10 1000000, rainOf oracleB 20 1000000,
        rainOf oracleA 12 1000050] := by
    decide +kernel
  exact hemit ▸ hrun

end Scenario

open Scenario in
/-- The second reading of an oracle has replaced its first. -/
theorem stored_readings_latest_revised :
    revised.machine.store.readings Symbols.weather rain =
        [⟨oracleB, 20, 90, 1000000⟩, ⟨oracleA, 12, 90, 1000050⟩] ∧
      lastOf streamOf
          [rainOf oracleA 10 1000000, rainOf oracleB 20 1000000,
            rainOf oracleA 12 1000050] (Symbols.weather, rain, oracleA) =
        some (Symbols.weather, rain, ⟨oracleA, 12, 90, 1000050⟩) := by
  have hinit : (system verifier).Init genesis := ⟨rfl, rfl⟩
  have hstored : revised.machine.store.readings Symbols.weather rain =
      [⟨oracleB, 20, 90, 1000000⟩, ⟨oracleA, 12, 90, 1000050⟩] := by
    decide +kernel
  obtain ⟨-, -, -, hlatest⟩ :=
    stored_readings_latest hinit revised_outputs Symbols.weather rain
  refine ⟨hstored, ?_⟩
  exact hlatest ⟨oracleA, 12, 90, 1000050⟩ (by rw [hstored]; simp)

end Parashield.OracleVerifier
