import Parashield.Upgrades.Calls

/-!
# Upgrades and the requests behind them

The approvals of a pending upgrade come from different guardians and were all
given since its request.  Its version exceeds the stored one until somebody
upgrades past it without the guardians.
-/

namespace Parashield.Upgrades

open Support Support.Contract Invocation TransitionSystem

variable {E S En : Type} {T : Terms E S}
  {run : Env → En → Invocation E S Unit} {deployed : S} {self : Address}
  {env : Env} {m m' : Machine (Upgradable S)}
  {s w w' : World (Upgradable S)} {ls : List (Label (Entry En))}
  {l : Label (Entry En)} {e : Entry En}

/-! ## Approvals -/

/-- The call replaces the pending request by a new one. -/
def Requests (T : Terms E S) (w : World (Upgradable S)) :
    Label (Entry En) → Prop
  | .call _ (.upgrade ..) => T.guardianThreshold w.machine.store.base ≠ 0
  | _ => False

/-- The request for `newWasmHash` is pending, with any approvals. -/
def Pending (newWasmHash : Bytes) (newVersion : ℕ)
    (w : World (Upgradable S)) : Prop :=
  ∃ approvals, w.machine.store.pendingUpgrade =
    some ⟨newWasmHash, newVersion, approvals⟩

/-- A guardian approved `newWasmHash` in the run `ls` from `s`. -/
def ApprovedIn (X : TransitionSystem (World (Upgradable S)) (Label (Entry En)))
    (T : Terms E S) (s : World (Upgradable S)) (ls : List (Label (Entry En)))
    (newWasmHash : Bytes) (guardian : Address) : Prop :=
  ∃ before signers after v v',
    ls = before ++ .call signers (.approveUpgrade guardian newWasmHash) ::
      after ∧
    X.Run s before v ∧
    X.Step v (.call signers (.approveUpgrade guardian newWasmHash)) v' ∧
    guardian ∈ T.guardians v.machine.store.base

/-- The last request in the run `ls` from `s` to `w` is for `p`, it has been
pending since, and `p` lists different guardians who approved it since. -/
def Endorsed (X : TransitionSystem (World (Upgradable S)) (Label (Entry En)))
    (T : Terms E S) (s : World (Upgradable S)) (ls : List (Label (Entry En)))
    (w : World (Upgradable S)) (p : PendingUpgrade) : Prop :=
  p.approvals.Nodup ∧ ∃ before signers admin after t u,
    ls = before ++
        .call signers (.upgrade admin p.newWasmHash p.newVersion) :: after ∧
      X.Run s before t ∧
      X.Step t (.call signers (.upgrade admin p.newWasmHash p.newVersion)) u ∧
      u.machine.store.pendingUpgrade =
        some ⟨p.newWasmHash, p.newVersion, []⟩ ∧
      (X.restrict fun v l => Pending p.newWasmHash p.newVersion v ∧
        ¬ Requests T v l).Run u after w ∧
      ∀ guardian ∈ p.approvals,
        ApprovedIn X T u after p.newWasmHash guardian

section Endorsed

variable {X : TransitionSystem (World (Upgradable S)) (Label (Entry En))}
  {newWasmHash : Bytes} {guardian : Address} {p : PendingUpgrade}

theorem ApprovedIn.concat (h : ApprovedIn X T s ls newWasmHash guardian)
    (l : Label (Entry En)) :
    ApprovedIn X T s (ls ++ [l]) newWasmHash guardian := by
  obtain ⟨before, signers, after, v, v', rfl, hrest⟩ := h
  exact ⟨before, signers, after ++ [l], v, v', by simp, hrest⟩

/-- A step that neither requests nor withdraws keeps what is endorsed. -/
theorem Endorsed.concat (h : Endorsed X T s ls w p)
    (hp : w.machine.store.pendingUpgrade = some p) (hstep : X.Step w l w')
    (hl : ¬ Requests T w l) : Endorsed X T s (ls ++ [l]) w' p := by
  obtain ⟨hnodup, before, signers, admin, after, t, u, rfl, hbefore, hrequest,
    hu, hafter, happroved⟩ := h
  have hpending : Pending p.newWasmHash p.newVersion w := ⟨p.approvals, hp⟩
  exact ⟨hnodup, before, signers, admin, after ++ [l], t, u, by simp, hbefore,
    hrequest, hu, hafter.concat ⟨⟨hpending, hl⟩, hstep⟩,
    fun guardian hg => (happroved guardian hg).concat l⟩

/-- A further guardian approves. -/
theorem Endorsed.approve {signers : List Address} (h : Endorsed X T s ls w p)
    (hp : w.machine.store.pendingUpgrade = some p)
    (hstep : X.Step w
      (.call signers (.approveUpgrade guardian p.newWasmHash)) w')
    (hguardian : guardian ∈ T.guardians w.machine.store.base)
    (hnew : guardian ∉ p.approvals) :
    Endorsed X T s
      (ls ++ [.call signers (.approveUpgrade guardian p.newWasmHash)]) w'
      { p with approvals := p.approvals ++ [guardian] } := by
  obtain ⟨hnodup, before, signers', admin, after, t, u, rfl, hbefore, hrequest,
    hu, hafter, happroved⟩ := h
  have hpending : Pending p.newWasmHash p.newVersion w := ⟨p.approvals, hp⟩
  refine ⟨?_, before, signers', admin, after ++ [_], t, u, by simp, hbefore,
    hrequest, hu, hafter.concat ⟨⟨hpending, id⟩, hstep⟩, ?_⟩
  · exact List.nodup_append.mpr ⟨hnodup, by simp, by
      intro a ha b hb
      obtain rfl := List.mem_singleton.mp hb
      rintro rfl
      exact hnew ha⟩
  · intro a ha
    rcases List.mem_append.mp ha with hold | hlast
    · exact (happroved a hold).concat _
    · obtain rfl := List.mem_singleton.mp hlast
      exact ⟨after, signers, [], w, w', rfl, hafter.of_restrict, hstep,
        hguardian⟩

end Endorsed

/-- Whatever is pending is endorsed. -/
theorem endorsed_of_pending
    {X : TransitionSystem (World (Upgradable S)) (Label (Entry En))}
    (hX : ∀ w l w', X.Step w l w' →
      (system T run deployed self).Step w l w')
    (hs : s.machine.store.pendingUpgrade = none) (hrun : X.Run s ls w)
    {p : PendingUpgrade} (hp : w.machine.store.pendingUpgrade = some p) :
    Endorsed X T s ls w p := by
  induction ls using List.reverseRecOn generalizing w p with
  | nil =>
      obtain rfl := run_nil_iff.mp hrun
      rw [hs] at hp
      cases hp
  | append_singleton ls l ih =>
      obtain ⟨t, hbefore, hstep⟩ := run_concat_iff.mp hrun
      have hkept (ht : t.machine.store.pendingUpgrade = some p)
          (hl : ¬ Requests T t l) : Endorsed X T s (ls ++ [l]) w p :=
        (ih hbefore ht).concat ht hstep hl
      cases hX t l w hstep with
      | @call signers e m' hself hexec =>
          cases exec_change hexec with
          | base _ h =>
              refine hkept ?_ id
              rw [← hp, h]
          | direct hnone _ h =>
              refine hkept ?_ (not_not.mpr hnone)
              rw [← hp, h]
          | requested hset _ h =>
              rw [h] at hp
              obtain rfl := Option.some.inj hp
              exact ⟨.nil, ls, signers, _, [], t, _, rfl, hbefore, hstep,
                by rw [h], .nil _, by simp⟩
          | approved hguardian hq hnew _ h =>
              rw [h] at hp
              obtain rfl := Option.some.inj hp
              exact (ih hbefore hq).approve hq hstep hguardian hnew
          | executed _ _ _ _ h =>
              rw [h] at hp
              cases hp
          | cancelled h =>
              rw [h] at hp
              cases hp
      | tick => exact hkept hp id
      | transfer => exact hkept hp id
      | mint => exact hkept hp id

/-! ## Versions -/

/-- Nobody upgrades past a pending request without the guardians. -/
def KeepsOrder (T : Terms E S) (w : World (Upgradable S)) :
    Label (Entry En) → Prop
  | .call _ (.upgrade _ _ newVersion) =>
      T.guardianThreshold w.machine.store.base = 0 →
        ∀ p ∈ w.machine.store.pendingUpgrade, newVersion < p.newVersion
  | _ => True

/-- A pending version exceeds the stored one. -/
def Ahead (s : Upgradable S) : Prop :=
  ∀ p ∈ s.pendingUpgrade, s.version < p.newVersion

theorem ahead_step
    (hstep : (system T run deployed self).Step w l w')
    (horder : KeepsOrder T w l) (h : Ahead w.machine.store) :
    Ahead w'.machine.store := by
  cases hstep with
  | @call signers e m' hself hexec =>
      cases exec_change hexec with
      | base _ heq =>
          rw [heq]
          exact h
      | direct hnone _ heq =>
          rw [heq]
          exact horder hnone
      | requested _ hnewer heq =>
          rw [heq]
          rintro p ⟨⟩
          exact hnewer
      | @approved guardian p _ hp _ _ heq =>
          rw [heq]
          rintro q ⟨⟩
          exact h p hp
      | executed _ _ _ _ heq =>
          rw [heq]
          exact nofun
      | cancelled heq =>
          rw [heq]
          exact nofun
  | tick => exact h
  | transfer => exact h
  | mint => exact h

theorem ahead_inductive (T : Terms E S) (run : Env → En → Invocation E S Unit)
    (deployed : S) (self : Address) :
    ((system T run deployed self).restrict (KeepsOrder T)).Inductive fun w =>
      Ahead w.machine.store where
  init w hw := by
    have hstore : w.machine.store = .deployed deployed := hw.1
    rw [hstore]
    exact nofun
  step _ _ _ h hstep := ahead_step hstep.2 hstep.1 h

/-! ## Upgrades -/

/-- What an upgrade of `w` to `newWasmHash` by the call `l` rests on: at least
`threshold` different guardians approved it since its request. -/
def Backed (X : TransitionSystem (World (Upgradable S)) (Label (Entry En)))
    (T : Terms E S) (s : World (Upgradable S)) (ls : List (Label (Entry En)))
    (w' : World (Upgradable S)) (newWasmHash : Bytes) (threshold : ℕ) : Prop :=
  ∃ p, p.newWasmHash = newWasmHash ∧ threshold ≤ p.approvals.length ∧
    Endorsed X T s ls w' p

/-- Each step of a run leaves WASM and version alone, or it replaces the WASM
under a higher version, and as long as there is a guardian threshold on the
strength of enough approvals. -/
def UpgradesGuarded
    (X : TransitionSystem (World (Upgradable S)) (Label (Entry En)))
    (T : Terms E S) : Prop :=
  ∀ s ls w l w', X.Init s → X.Run s ls w → X.Step w l w' →
    w'.machine.store.installed = w.machine.store.installed ∧
      w'.machine.store.version = w.machine.store.version ∨
    ∃ newWasmHash,
      w'.machine.store.installed =
        newWasmHash :: w.machine.store.installed ∧
      w.machine.store.version < w'.machine.store.version ∧
      (0 < T.guardianThreshold w.machine.store.base →
        Backed X T s (ls ++ [l]) w' newWasmHash
          (T.guardianThreshold w.machine.store.base))

/-- Where pending versions stay ahead, upgrades are guarded. -/
theorem upgradesGuarded_of_ahead
    {X : TransitionSystem (World (Upgradable S)) (Label (Entry En))}
    (hinit : ∀ w, X.Init w → (system T run deployed self).Init w)
    (hX : ∀ w l w', X.Step w l w' →
      (system T run deployed self).Step w l w')
    (hahead : ∀ w, X.Reachable w → Ahead w.machine.store) :
    UpgradesGuarded X T := by
  intro s ls w l w' hs hrun hstep
  have hnone : s.machine.store.pendingUpgrade = none := by
    rw [(hinit s hs).1]
    rfl
  have hw : Ahead w.machine.store :=
    hahead w ((Reachable.init hs).run hrun)
  cases hX w l w' hstep with
  | @call signers e m' hself hexec =>
      cases exec_change hexec with
      | base _ h => exact .inl (by rw [h]; exact ⟨rfl, rfl⟩)
      | direct hzero hnewer h =>
          refine .inr ⟨_, by rw [h], by rw [h]; exact hnewer, fun hpos => ?_⟩
          omega
      | requested _ _ h => exact .inl (by rw [h]; exact ⟨rfl, rfl⟩)
      | approved _ _ _ _ h => exact .inl (by rw [h]; exact ⟨rfl, rfl⟩)
      | @executed guardian p hguardian hp hnew hreached h =>
          refine .inr ⟨p.newWasmHash, by rw [h], by rw [h]; exact hw p hp,
            fun _ => ?_⟩
          have hendorsed := endorsed_of_pending hX hnone hrun hp
          exact ⟨{ p with approvals := p.approvals ++ [guardian] }, rfl,
            by simpa using hreached,
            hendorsed.approve hp hstep hguardian hnew⟩
      | cancelled h => exact .inl (by rw [h]; exact ⟨rfl, rfl⟩)
  | tick => exact .inl ⟨rfl, rfl⟩
  | transfer => exact .inl ⟨rfl, rfl⟩
  | mint => exact .inl ⟨rfl, rfl⟩

end Parashield.Upgrades
