import Parashield.OracleVerifier.Agreement
import Parashield.OracleVerifier.Register

/-!
# Oracle verifier: lists of oracles and global registrations

The list of a data type holds its active oracles in every state.  The global
registrations name the active oracles as long as none is slashed below the
minimum stake, and none is removed from a data type it has left already.  Nobody
who was deactivated can be registered for the same data type again.
-/

namespace Parashield.OracleVerifier

open Support Support.Contract Invocation

namespace Register

/-- The lists hold exactly the active oracles, each once. -/
structure Listed (r : Register) : Prop where
  mem_iff : ∀ t o, o ∈ r.oracleList t ↔ r.IsActive t o
  nodup : ∀ t, (r.oracleList t).Nodup
  length_le : ∀ t, (r.oracleList t).length ≤ maxOraclesPerKey

/-- Oracles are active in one data type at most, and globally registered
exactly then. -/
structure Indexed (r : Register) : Prop extends Listed r where
  global : ∀ o, r.globalOracle o = true ↔ ∃ t, r.IsActive t o
  single : ∀ t t' o, r.IsActive t o → r.IsActive t' o → t = t'

/-- Every registered oracle is active. -/
def AllActive (r : Register) : Prop :=
  ∀ t o entry, r.oracles (t, o) = some entry → entry.active = true

/-- Registered weights are positive and within range. -/
def Weighed (r : Register) : Prop :=
  ∀ x entry, r.oracles x = some entry →
    1 ≤ entry.weight ∧ entry.weight ≤ maxWeight

section Changes

variable {env : Env} {e : Entry} {s : State} {r r' : Register}
  {dataType t : Symbol} {oracle o : Address} {entry : OracleEntry}

/-! ## Who is active after a change -/

theorem isActive_setEntry :
    (r.setEntry entry dataType oracle).IsActive t o ↔
      ((t, o) = (dataType, oracle) ∧ entry.active = true) ∨
        (t, o) ≠ (dataType, oracle) ∧ r.IsActive t o := by
  unfold IsActive setEntry
  by_cases h : (t, o) = (dataType, oracle)
  · simp [h]
  · simp [h]

theorem isActive_enlisted {weight : ℕ} :
    (r.enlisted dataType oracle weight).IsActive t o ↔
      (t, o) = (dataType, oracle) ∨ r.IsActive t o := by
  refine isActive_setEntry.trans ?_
  by_cases h : (t, o) = (dataType, oracle)
  · simp [h]
  · simp [h]

theorem isActive_unlisted :
    (r.unlisted entry dataType oracle).IsActive t o ↔
      r.IsActive t o ∧ (t, o) ≠ (dataType, oracle) := by
  refine isActive_setEntry.trans ?_
  simp [and_comm]

theorem isActive_reweighed {weight : ℕ}
    (hentry : r.oracles (dataType, oracle) = some entry) :
    (r.setEntry { entry with weight := weight } dataType oracle).IsActive
        t o ↔ r.IsActive t o := by
  refine isActive_setEntry.trans ?_
  by_cases h : (t, o) = (dataType, oracle)
  · obtain ⟨rfl, rfl⟩ := Prod.mk.inj h
    simp [IsActive, hentry]
  · simp [h]

/-! ## Lists -/

/-- Whatever else changes, lists that fit the registrations do. -/
theorem Listed.of_same (h : r.Listed) (hlist : r'.oracleList = r.oracleList)
    (hactive : ∀ t o, r'.IsActive t o ↔ r.IsActive t o) : r'.Listed where
  mem_iff t o := by rw [hlist, h.mem_iff, hactive]
  nodup t := hlist ▸ h.nodup t
  length_le t := hlist ▸ h.length_le t

theorem Listed.enlisted {weight : ℕ} (h : r.Listed)
    (hnew : r.oracles (dataType, oracle) = none)
    (hroom : (r.oracleList dataType).length < maxOraclesPerKey) :
    (r.enlisted dataType oracle weight).Listed := by
  have habsent : oracle ∉ r.oracleList dataType := by
    rw [h.mem_iff]
    rintro ⟨entry, hentry, -⟩
    rw [hnew] at hentry
    cases hentry
  have hlist : (r.enlisted dataType oracle weight).oracleList =
      Function.update r.oracleList dataType
        (r.oracleList dataType ++ [oracle]) :=
    if_neg habsent
  refine ⟨fun t o => ?_, fun t => ?_, fun t => ?_⟩
  · rw [hlist, isActive_enlisted, ← h.mem_iff]
    by_cases ht : t = dataType
    · subst ht
      simp [or_comm]
    · simp [ht]
  · rw [hlist]
    by_cases ht : t = dataType
    · subst ht
      rw [Function.update_self]
      exact (List.nodup_append.mpr ⟨h.nodup t, List.nodup_singleton oracle,
        fun a ha b hb => by
          rintro rfl
          exact habsent (List.mem_singleton.mp hb ▸ ha)⟩)
    · rw [Function.update_of_ne ht]
      exact h.nodup t
  · rw [hlist]
    by_cases ht : t = dataType
    · subst ht
      simp only [Function.update_self, List.length_append,
        List.length_singleton]
      omega
    · rw [Function.update_of_ne ht]
      exact h.length_le t

theorem Listed.unlisted (h : r.Listed) :
    (r.unlisted entry dataType oracle).Listed := by
  refine ⟨fun t o => ?_, fun t => ?_, fun t => ?_⟩
  · rw [isActive_unlisted, ← h.mem_iff]
    by_cases ht : t = dataType
    · subst ht
      simp [Register.unlisted]
    · simp [Register.unlisted, setEntry, ht]
  · by_cases ht : t = dataType
    · subst ht
      simp only [Register.unlisted, Function.update_self]
      exact (h.nodup t).filter _
    · simpa [Register.unlisted, setEntry, ht] using h.nodup t
  · by_cases ht : t = dataType
    · subst ht
      simp only [Register.unlisted, Function.update_self]
      exact (List.length_filter_le _ _).trans (h.length_le t)
    · simpa [Register.unlisted, setEntry, ht] using h.length_le t

theorem Change.listed (hchange : Change env e s r r') (h : r.Listed) :
    r'.Listed := by
  cases hchange with
  | enlist _ hnew _ hroom => exact h.enlisted hnew hroom
  | reweigh _ hentry =>
      exact h.of_same rfl fun _ _ => isActive_reweighed hentry
  | strikeOff => exact h.unlisted.of_same rfl fun _ _ => Iff.rfl
  | unlist => exact h.unlisted
  | _ => exact h.of_same rfl fun _ _ => Iff.rfl

/-! ## Global registrations -/

theorem Indexed.of_same (h : r.Indexed)
    (hlist : r'.oracleList = r.oracleList)
    (hglobal : r'.globalOracle = r.globalOracle)
    (hactive : ∀ t o, r'.IsActive t o ↔ r.IsActive t o) : r'.Indexed where
  toListed := h.toListed.of_same hlist hactive
  global o := by simp only [hglobal, h.global, hactive]
  single t t' o := by
    rw [hactive, hactive]
    exact h.single t t' o

theorem Indexed.enlisted {weight : ℕ} (h : r.Indexed)
    (hnew : r.oracles (dataType, oracle) = none)
    (hglobal : r.globalOracle oracle = false)
    (hroom : (r.oracleList dataType).length < maxOraclesPerKey) :
    (r.enlisted dataType oracle weight).Indexed := by
  have hidle : ∀ t, ¬ r.IsActive t oracle := by
    intro t ht
    have hset := (h.global oracle).mpr ⟨t, ht⟩
    rw [hglobal] at hset
    cases hset
  refine ⟨h.toListed.enlisted hnew hroom, fun o => ?_, fun t t' o => ?_⟩
  · simp only [isActive_enlisted]
    by_cases ho : o = oracle
    · subst ho
      simp [Register.enlisted]
    · simp [Register.enlisted, setEntry, ho, h.global]
  · rw [isActive_enlisted, isActive_enlisted]
    by_cases ho : o = oracle
    · subst ho
      simp only [Prod.mk.injEq, and_true, hidle, or_false]
      exact fun ht ht' => ht.trans ht'.symm
    · simpa [ho] using h.single t t' o

/-- An oracle may leave that is active, or has no global registration. -/
theorem Indexed.struckOff (h : r.Indexed)
    (hentry : r.oracles (dataType, oracle) = some entry)
    (hcase : r.IsActive dataType oracle ∨ r.globalOracle oracle = false) :
    (r.struckOff entry dataType oracle).Indexed := by
  have hidle : ∀ t, r.IsActive t oracle → t = dataType := by
    intro t ht
    rcases hcase with hactive | hglobal
    · exact h.single t dataType oracle ht hactive
    · have hset := (h.global oracle).mpr ⟨t, ht⟩
      rw [hglobal] at hset
      cases hset
  have hactive : ∀ t o, (r.struckOff entry dataType oracle).IsActive t o ↔
      r.IsActive t o ∧ (t, o) ≠ (dataType, oracle) :=
    fun _ _ => isActive_unlisted
  refine ⟨h.toListed.unlisted.of_same rfl fun _ _ => Iff.rfl, fun o => ?_,
    fun t t' o ht ht' => ?_⟩
  · simp only [hactive]
    by_cases ho : o = oracle
    · subst ho
      have hset : (r.struckOff entry dataType o).globalOracle o = false :=
        Function.update_self ..
      rw [hset]
      simp only [Bool.false_eq_true, ne_eq, Prod.mk.injEq, and_true,
        false_iff, not_exists, not_and, not_not]
      exact hidle
    · have hset : (r.struckOff entry dataType oracle).globalOracle o =
          r.globalOracle o :=
        Function.update_of_ne ho ..
      rw [hset, h.global]
      simp [ho]
  · exact h.single t t' o ((hactive t o).mp ht).1 ((hactive t' o).mp ht').1

/-- A change of a call that deactivates nobody, or strikes off only oracles
that are active or have no global registration. -/
theorem Change.indexed (hchange : Change env e s r r') (h : r.Indexed)
    (hstrike : ∀ t o, e.strikesOff s env.now t o →
      r.IsActive t o ∨ r.globalOracle o = false)
    (hslash : ∀ admin o t amount, e ≠ .slashOracle admin o t amount) :
    r'.Indexed := by
  cases hchange with
  | enlist _ hnew hglobal hroom => exact h.enlisted hnew hglobal hroom
  | reweigh _ hentry =>
      exact h.of_same rfl rfl fun _ _ => isActive_reweighed hentry
  | strikeOff hoff hentry => exact h.struckOff hentry (hstrike _ _ hoff)
  | unlist he => exact (hslash _ _ _ _ he).elim
  | _ => exact h.of_same rfl rfl fun _ _ => Iff.rfl

/-- Nobody becomes active but by registration. -/
theorem Change.of_isActive (hchange : Change env e s r r')
    (h : r'.IsActive t o)
    (he : ∀ admin weight, e ≠ .addOracle admin o t weight) :
    r.IsActive t o := by
  cases hchange with
  | enlist hadd =>
      rcases isActive_enlisted.mp h with heq | hactive
      · obtain ⟨rfl, rfl⟩ := Prod.mk.inj heq
        exact (he _ _ hadd).elim
      · exact hactive
  | reweigh _ hentry => exact (isActive_reweighed hentry).mp h
  | strikeOff => exact (isActive_unlisted.mp h).1
  | unlist => exact (isActive_unlisted.mp h).1
  | _ => exact h

/-- Registrations are never deleted. -/
theorem Change.registered (hchange : Change env e s r r')
    (h : r.oracles (t, o) ≠ none) : r'.oracles (t, o) ≠ none := by
  have hset : ∀ (x : Symbol × Address) (entry : OracleEntry),
      Function.update r.oracles x (some entry) (t, o) ≠ none := by
    intro x entry
    by_cases hx : (t, o) = x
    · simp [hx]
    · rw [Function.update_of_ne hx]
      exact h
  cases hchange with
  | enlist => exact hset _ _
  | reweigh => exact hset _ _
  | strikeOff => exact hset _ _
  | unlist => exact hset _ _
  | _ => exact h

theorem Change.allActive (hchange : Change env e s r r') (h : r.AllActive)
    (hstrike : ∀ t o entry, r.oracles (t, o) = some entry →
      ¬ e.strikesOff s env.now t o)
    (hslash : ∀ admin o t amount, e ≠ .slashOracle admin o t amount) :
    r'.AllActive := by
  have hset : ∀ (x : Symbol × Address) (entry : OracleEntry),
      entry.active = true → ∀ t o entry',
      Function.update r.oracles x (some entry) (t, o) = some entry' →
        entry'.active = true := by
    intro x entry hactive t o entry' hentry'
    by_cases hx : (t, o) = x
    · rw [hx, Function.update_self, Option.some.injEq] at hentry'
      exact hentry' ▸ hactive
    · rw [Function.update_of_ne hx] at hentry'
      exact h t o entry' hentry'
  cases hchange with
  | enlist => exact hset _ _ rfl
  | reweigh _ hentry =>
      have hactive := h _ _ _ hentry
      exact hset _ _ hactive
  | strikeOff hoff hentry => exact (hstrike _ _ _ hentry hoff).elim
  | unlist he => exact (hslash _ _ _ _ he).elim
  | _ => exact h

theorem Change.weighed (hchange : Change env e s r r') (h : r.Weighed)
    (hassigned : ∀ admin o t weight,
      e = .addOracle admin o t weight ∨ e = .updateOracleWeight admin o t weight →
        1 ≤ weight ∧ weight ≤ maxWeight) : r'.Weighed := by
  have hset : ∀ (x : Symbol × Address) (entry : OracleEntry),
      1 ≤ entry.weight ∧ entry.weight ≤ maxWeight → ∀ y entry',
      Function.update r.oracles x (some entry) y = some entry' →
        1 ≤ entry'.weight ∧ entry'.weight ≤ maxWeight := by
    intro x entry hweight y entry' hentry'
    rw [Function.update_apply] at hentry'
    split_ifs at hentry'
    · obtain rfl := Option.some.inj hentry'
      exact hweight
    · exact h y entry' hentry'
  cases hchange with
  | enlist he => exact hset _ _ (hassigned _ _ _ _ (.inl he))
  | reweigh he => exact hset _ _ (hassigned _ _ _ _ (.inr he))
  | strikeOff _ hentry =>
      have hweight := h _ _ hentry
      exact hset _ _ hweight
  | unlist _ hentry =>
      have hweight := h _ _ hentry
      exact hset _ _ hweight
  | _ => exact h

theorem Changes.registered (hchanges : Changes env e s r r')
    (h : r.oracles (t, o) ≠ none) : r'.oracles (t, o) ≠ none := by
  induction hchanges with
  | refl => exact h
  | tail _ hchange ih => exact hchange.registered ih

theorem Changes.listed (hchanges : Changes env e s r r') (h : r.Listed) :
    r'.Listed := by
  induction hchanges with
  | refl => exact h
  | tail _ hchange ih => exact hchange.listed ih

theorem Changes.indexed (hchanges : Changes env e s r r') (h : r.Indexed)
    (hstrike : ∀ t o, ¬ e.strikesOff s env.now t o)
    (hslash : ∀ admin o t amount, e ≠ .slashOracle admin o t amount) :
    r'.Indexed := by
  induction hchanges with
  | refl => exact h
  | tail _ hchange ih =>
      exact hchange.indexed ih (fun t o hoff => (hstrike t o hoff).elim) hslash

theorem Changes.allActive (hchanges : Changes env e s r r')
    (h : r.AllActive) (hstrike : ∀ t o, ¬ e.strikesOff s env.now t o)
    (hslash : ∀ admin o t amount, e ≠ .slashOracle admin o t amount) :
    r'.AllActive := by
  induction hchanges with
  | refl => exact h
  | tail _ hchange ih =>
      exact hchange.allActive ih (fun t o _ _ => hstrike t o) hslash

theorem Changes.weighed (hchanges : Changes env e s r r') (h : r.Weighed)
    (hassigned : ∀ admin o t weight,
      e = .addOracle admin o t weight ∨ e = .updateOracleWeight admin o t weight →
        1 ≤ weight ∧ weight ≤ maxWeight) : r'.Weighed := by
  induction hchanges with
  | refl => exact h
  | tail _ hchange ih => exact hchange.weighed ih hassigned

/-- The sweep may strike off whoever was active when it began. -/
theorem Changes.indexed_of_sweep
    (hchanges : Changes env (.deactivateInactiveOracles dataType) s r r')
    (h : r.Indexed) (hlist : s.oracleList = r.oracleList) : r'.Indexed := by
  suffices hboth : r'.Indexed ∧
      ∀ t o, r'.IsActive t o → r.IsActive t o from hboth.1
  induction hchanges with
  | refl => exact ⟨h, fun _ _ => id⟩
  | @tail r₁ r₂ _ hchange ih =>
      obtain ⟨hindexed, hless⟩ := ih
      refine ⟨hchange.indexed hindexed ?_ (by simp), ?_⟩
      · rintro t o ⟨rfl, hmem, -⟩
        rw [hlist, h.mem_iff] at hmem
        by_cases hactive : r₁.IsActive dataType o
        · exact .inl hactive
        · refine .inr ?_
          rw [← Bool.not_eq_true, hindexed.global]
          rintro ⟨t, ht⟩
          obtain rfl := h.single t dataType o (hless t o ht) hmem
          exact hactive ht
      · intro t o hactive
        exact hless t o (hchange.of_isActive hactive (by simp))

end Changes

end Register

/-! ## Calls -/

section Calls

variable {env : Env} {e : Entry} {m m' : Machine State}

/-- A removal names an oracle that is active there or nowhere, and no slash
takes an active oracle below the minimum stake. -/
def Entry.SparesIndex (s : State) : Entry → Prop
  | .removeOracle _ oracle dataType =>
      ∀ entry, s.oracles (dataType, oracle) = some entry →
        entry.active = false → s.globalOracle oracle = false
  | .slashOracle _ oracle dataType amount =>
      ¬ s.SlashDisables dataType oracle amount
  | _ => True

/-- The call deactivates this oracle if it is active. -/
def Entry.Deactivates (e : Entry) (s : State) (now : ℕ) (dataType : Symbol)
    (oracle : Address) : Prop :=
  e.strikesOff s now dataType oracle ∨
    ∃ admin amount, e = .slashOracle admin oracle dataType amount ∧
      s.SlashDisables dataType oracle amount

theorem exec_listed (h : exec env e m = .ok ((), m'))
    (hm : (register m).Listed) : (register m').Listed :=
  (exec_changes h).listed hm

theorem exec_weighed (h : exec env e m = .ok ((), m'))
    (hm : (register m).Weighed) : (register m').Weighed := by
  refine (exec_changes h).weighed hm ?_
  rintro admin o t weight (rfl | rfl)
  · simp [exec, addOracle, validateContractAddress] at h
    obtain ⟨-, -, ⟨hne, hle⟩, -⟩ := h
    exact ⟨Nat.one_le_iff_ne_zero.mpr hne, hle⟩
  · simp [exec, updateOracleWeight] at h
    obtain ⟨-, ⟨hne, hle⟩, -⟩ := h
    exact ⟨Nat.one_le_iff_ne_zero.mpr hne, hle⟩

theorem exec_indexed (h : exec env e m = .ok ((), m'))
    (hspares : e.SparesIndex m.store) (hm : (register m).Indexed) :
    (register m').Indexed := by
  by_cases hslash : ∃ admin o t amount, e = .slashOracle admin o t amount
  · obtain ⟨admin, o, t, amount, rfl⟩ := hslash
    obtain ⟨-, -, B, -, ⟨hdisables, -⟩ | ⟨-, heq⟩⟩ := slashOracle_register h
    · exact (hspares hdisables).elim
    · rw [heq]
      exact hm.of_same rfl rfl fun _ _ => Iff.rfl
  by_cases hsweep : ∃ t, e = .deactivateInactiveOracles t
  · obtain ⟨t, rfl⟩ := hsweep
    exact (exec_changes h).indexed_of_sweep hm rfl
  by_cases hremove : ∃ admin o t, e = .removeOracle admin o t
  · obtain ⟨admin, o, t, rfl⟩ := hremove
    obtain ⟨entry, hentry, heq⟩ := removeOracle_register h
    rw [heq]
    refine hm.struckOff hentry ?_
    by_cases hactive : entry.active = true
    · exact .inl ⟨entry, hentry, hactive⟩
    · exact .inr (hspares entry hentry (by simpa using hactive))
  refine (exec_changes h).indexed hm (fun t o hoff => ?_) ?_
  · -- No other call strikes anyone off.
    cases e with
    | removeOracle => exact hremove ⟨_, _, _, rfl⟩
    | deactivateInactiveOracles => exact hsweep ⟨_, rfl⟩
    | _ => exact hoff
  · rintro admin o t amount rfl
    exact hslash ⟨_, _, _, _, rfl⟩

/-- What does not spare the index leaves a registration without an active
oracle, or an active oracle without a registration. -/
theorem sparesIndex_of_indexed (h : exec env e m = .ok ((), m'))
    (hm : (register m).Indexed) (hm' : (register m').Indexed) :
    e.SparesIndex m.store := by
  cases e with
  | removeOracle admin o t =>
      intro entry hentry hinactive
      obtain ⟨entry', -, heq⟩ := removeOracle_register h
      rw [heq] at hm'
      rw [← Bool.not_eq_true]
      intro hset
      obtain ⟨t', entry'', hentry'', hactive⟩ := (hm.global o).mp hset
      have hne : (t', o) ≠ (t, o) := by
        intro hsame
        obtain ⟨rfl, -⟩ := Prod.mk.inj hsame
        rw [show m.store.oracles (t', o) = _ from hentry''] at hentry
        rw [Option.some.inj hentry, hinactive] at hactive
        cases hactive
      have hset' := (hm'.global o).mpr
        ⟨t', Register.isActive_unlisted.mpr ⟨⟨entry'', hentry'', hactive⟩,
          hne⟩⟩
      have hcleared : ((register m).struckOff entry' t o).globalOracle o =
          false :=
        Function.update_self ..
      rw [hcleared] at hset'
      cases hset'
  | slashOracle admin o t amount =>
      intro hdisables
      obtain ⟨-, -, B, -, ⟨-, entry, hentry, hactive, heq⟩ | ⟨hnot, -⟩⟩ :=
        slashOracle_register h
      · rw [heq] at hm'
        have hwas : (register m).IsActive t o := ⟨entry, hentry, hactive⟩
        have hset := (hm.global o).mpr ⟨t, hwas⟩
        obtain ⟨t', hactive'⟩ := (hm'.global o).mp hset
        obtain ⟨hstill, hne⟩ := Register.isActive_unlisted.mp hactive'
        exact hne (by rw [hm.single t' t o hstill hwas])
      · exact hnot hdisables
  | _ => trivial

/-- A call that deactivates no active oracle. -/
theorem exec_allActive (h : exec env e m = .ok ((), m'))
    (hkeeps : ∀ t o, (register m).IsActive t o →
      ¬ e.Deactivates m.store env.now t o)
    (hlisted : (register m).Listed) (hm : (register m).AllActive) :
    (register m').AllActive := by
  by_cases hslash : ∃ admin o t amount, e = .slashOracle admin o t amount
  · obtain ⟨admin, o, t, amount, rfl⟩ := hslash
    obtain ⟨-, -, B, -, ⟨hdisables, entry, hentry, hactive, -⟩ |
      ⟨-, heq⟩⟩ := slashOracle_register h
    · exact (hkeeps t o ⟨entry, hentry, hactive⟩
        (.inr ⟨admin, amount, rfl, hdisables⟩)).elim
    · rw [heq]
      exact hm
  by_cases hremove : ∃ admin o t, e = .removeOracle admin o t
  · obtain ⟨admin, o, t, rfl⟩ := hremove
    obtain ⟨entry, hentry, -⟩ := removeOracle_register h
    exact (hkeeps t o ⟨entry, hentry, hm t o entry hentry⟩
      (.inl ⟨rfl, rfl⟩)).elim
  refine (exec_changes h).allActive hm (fun t o hoff => ?_) ?_
  · cases e with
    | removeOracle => exact hremove ⟨_, _, _, rfl⟩
    | deactivateInactiveOracles =>
        have hmem := hoff.2.1
        obtain rfl := hoff.1
        exact hkeeps _ o ((hlisted.mem_iff _ o).mp hmem) (.inl hoff)
    | _ => exact hoff
  · rintro admin o t amount rfl
    exact hslash ⟨_, _, _, _, rfl⟩

/-- An active oracle that a call deactivates is inactive afterwards. -/
theorem exec_deactivates {t : Symbol} {o : Address}
    (h : exec env e m = .ok ((), m'))
    (hdeactivates : e.Deactivates m.store env.now t o) :
    ¬ (register m').IsActive t o := by
  rcases hdeactivates with hoff | ⟨admin, amount, rfl, hdisables⟩
  · cases e with
    | removeOracle admin o' t' =>
        obtain ⟨rfl, rfl⟩ := hoff
        obtain ⟨entry, -, heq⟩ := removeOracle_register h
        rw [heq]
        exact Register.not_isActive_unlisted
    | deactivateInactiveOracles t' =>
        obtain ⟨rfl, hmem, hoffline⟩ := hoff
        obtain ⟨removed, h⟩ := perform_ok.mp h
        exact (deactivateInactiveOracles_register h).2 o hmem hoffline
    | _ => exact hoff.elim
  · obtain ⟨-, -, B, -, ⟨-, entry, -, -, heq⟩ | ⟨hnot, -⟩⟩ :=
      slashOracle_register h
    · rw [heq]
      exact Register.not_isActive_unlisted
    · exact (hnot hdisables).elim

end Calls

/-! ## Runs -/

/-- No call breaks the global registrations. -/
def SparesIndex (w : World State) : Label Entry → Prop
  | .call _ e => e.SparesIndex w.machine.store
  | _ => True

/-- No call deactivates an active oracle. -/
def KeepsOracles (w : World State) : Label Entry → Prop
  | .call _ e => ∀ t o, (register w.machine).IsActive t o →
      ¬ e.Deactivates w.machine.store w.now t o
  | _ => True

/-- With enough stake, someone could register the oracle for the data type. -/
def Readmits (self : Address) (w : World State) (dataType : Symbol)
    (oracle : Address) : Prop :=
  ∃ signers admin weight stake m',
    addOracle (callEnv self w signers) admin oracle dataType weight
      { w.machine with store :=
        { w.machine.store with
          oracleStakeAmt :=
            Function.update w.machine.store.oracleStakeAmt (dataType, oracle)
              stake } } = .ok ((), m')

/-- Everybody who was deactivated can be registered again. -/
def ReadmitsAll (self : Address) (w : World State) : Prop :=
  ∀ t o entry, w.machine.store.oracles (t, o) = some entry →
    entry.active = false → Readmits self w t o

section Runs

variable {self : Address} {w w' : World State} {l : Label Entry}

/-- A registration of the past stands in the way of a new one. -/
theorem not_readmits {t : Symbol} {o : Address}
    (h : w.machine.store.oracles (t, o) ≠ none) : ¬ Readmits self w t o := by
  rintro ⟨signers, admin, weight, stake, m', hadd⟩
  obtain ⟨hnew, -⟩ := addOracle_register hadd
  exact h hnew

/-- Steps other than calls do not touch the registrations. -/
theorem step_register {P : Register → Prop}
    (hbank : ∀ r B, P r → P { r with bank := B })
    (hcall : ∀ signers e m', l = .call signers e →
      exec (callEnv self w signers) e w.machine = .ok ((), m') →
      P (register m'))
    (hstep : Step exec self w l w') (h : P (register w.machine)) :
    P (register w'.machine) := by
  cases hstep with
  | call _ hexec => exact hcall _ _ _ rfl hexec
  | tick => exact h
  | transfer => exact hbank _ _ h
  | mint => exact hbank _ _ h

theorem step_listed (hstep : Step exec self w l w')
    (h : (register w.machine).Listed) : (register w'.machine).Listed :=
  step_register (fun _ _ h => h.of_same rfl fun _ _ => Iff.rfl)
    (fun _ _ _ _ hexec => exec_listed hexec h) hstep h

theorem step_indexed (hspares : SparesIndex w l)
    (hstep : Step exec self w l w') (h : (register w.machine).Indexed) :
    (register w'.machine).Indexed := by
  refine step_register (fun _ _ h => h.of_same rfl rfl fun _ _ => Iff.rfl)
    ?_ hstep h
  rintro signers e m' rfl hexec
  exact exec_indexed hexec hspares h

theorem step_allActive (hkeeps : KeepsOracles w l)
    (hstep : Step exec self w l w') (hlisted : (register w.machine).Listed)
    (h : (register w.machine).AllActive) :
    (register w'.machine).AllActive := by
  refine step_register (fun _ _ h => h) ?_ hstep h
  rintro signers e m' rfl hexec
  exact exec_allActive hexec hkeeps hlisted h

theorem indexed_deployed (hw : w.machine.store = State.deployed) :
    (register w.machine).Indexed where
  mem_iff := by simp [Register.IsActive, register, hw, State.deployed]
  nodup := by simp [register, hw, State.deployed]
  length_le := by simp [register, hw, State.deployed]
  global := by simp [Register.IsActive, register, hw, State.deployed]
  single := by simp [Register.IsActive, register, hw, State.deployed]

theorem listed_inductive (self : Address) :
    (system self).Inductive fun w => (register w.machine).Listed where
  init _ hw := (indexed_deployed hw.1).toListed
  step _ _ _ h hstep := step_listed hstep h

theorem weighed_inductive (self : Address) :
    (system self).Inductive fun w => (register w.machine).Weighed where
  init w hw := by
    intro x entry hentry
    simp [register, hw.1, State.deployed] at hentry
  step _ _ _ h hstep :=
    step_register (fun _ _ h => h)
      (fun _ _ _ _ hexec => exec_weighed hexec h) hstep h

theorem indexed_inductive (self : Address) :
    ((system self).restrict SparesIndex).Inductive fun w =>
      (register w.machine).Indexed where
  init _ hw := indexed_deployed hw.1
  step _ _ _ h hstep := step_indexed hstep.1 hstep.2 h

/-- Where every registered oracle is active, a call that keeps them so spares
the index. -/
theorem KeepsOracles.sparesIndex (h : KeepsOracles w l)
    (hall : (register w.machine).AllActive) : SparesIndex w l := by
  cases l with
  | call signers e =>
      cases e with
      | removeOracle admin o t =>
          intro entry hentry hinactive
          rw [hall t o entry hentry] at hinactive
          cases hinactive
      | slashOracle admin o t amount =>
          intro hdisables
          exact h t o hdisables.2.2 (.inr ⟨admin, amount, rfl, hdisables⟩)
      | _ => trivial
  | _ => trivial

theorem allActive_inductive (self : Address) :
    ((system self).restrict KeepsOracles).Inductive fun w =>
      (register w.machine).Indexed ∧ (register w.machine).AllActive where
  init w hw :=
    ⟨indexed_deployed hw.1, by
      simp [Register.AllActive, register, hw.1, State.deployed]⟩
  step _ _ _ h hstep :=
    ⟨step_indexed (hstep.1.sparesIndex h.2) hstep.2 h.1,
      step_allActive hstep.1 hstep.2 h.1.toListed h.2⟩

/-- Who deactivates an oracle shuts it out. -/
theorem keepsOracles_of_readmitsAll (hstep : Step exec self w l w')
    (h : ReadmitsAll self w') : KeepsOracles w l := by
  cases hstep with
  | @call _ e m' _ hexec =>
      intro t o hactive hdeactivates
      obtain ⟨entry, hentry, -⟩ := hactive
      have hregistered : (register m').oracles (t, o) ≠ none := by
        refine (exec_changes hexec).registered ?_
        rw [show (register w.machine).oracles (t, o) = _ from hentry]
        simp
      obtain ⟨entry', hentry'⟩ :=
        Option.ne_none_iff_exists'.mp hregistered
      have hgone := exec_deactivates hexec hdeactivates
      have hinactive : entry'.active = false := by
        rw [← Bool.not_eq_true]
        exact fun hactive => hgone ⟨entry', hentry', hactive⟩
      exact not_readmits hregistered (h t o entry' hentry' hinactive)
  | tick => trivial
  | transfer => trivial
  | mint => trivial

end Runs

/-- The lists hold the active oracles in every state, and no deactivated
oracle can ever be registered again.  Runs that spare the index keep the global
registrations; runs that deactivate nobody keep everything; and a step breaks
this exactly if it does not belong to such a run. -/
theorem oracle_registry_consistent (self : Address) :
    (∀ w, (system self).Reachable w → (register w.machine).Listed ∧
      ∀ t o entry, w.machine.store.oracles (t, o) = some entry →
        entry.active = false → ¬ Readmits self w t o) ∧
    (∀ w, ((system self).restrict SparesIndex).Reachable w →
      (register w.machine).Indexed ∧
      ∀ l w', (system self).Step w l w' →
        ((register w'.machine).Indexed ↔ SparesIndex w l)) ∧
    ∀ w, ((system self).restrict KeepsOracles).Reachable w →
      (register w.machine).Indexed ∧ ReadmitsAll self w ∧
      ∀ l w', (system self).Step w l w' →
        (((register w'.machine).Indexed ∧ ReadmitsAll self w') ↔
          KeepsOracles w l) := by
  have hreadmits : ∀ w : World State, (register w.machine).AllActive →
      ReadmitsAll self w := by
    intro w hall t o entry hentry hinactive
    rw [hall t o entry hentry] at hinactive
    cases hinactive
  refine ⟨fun w hw => ⟨hw.invariant (listed_inductive self), ?_⟩,
    fun w hw => ?_, fun w hw => ?_⟩
  · intro t o entry hentry _
    exact not_readmits (by simp [hentry])
  · have hindexed := hw.invariant (indexed_inductive self)
    refine ⟨hindexed, fun l w' hstep => ⟨fun hindexed' => ?_, fun hspares =>
      step_indexed hspares hstep hindexed⟩⟩
    cases hstep with
    | call _ hexec => exact sparesIndex_of_indexed hexec hindexed hindexed'
    | _ => trivial
  · obtain ⟨hindexed, hall⟩ := hw.invariant (allActive_inductive self)
    refine ⟨hindexed, hreadmits w hall, fun l w' hstep => ⟨fun h =>
      keepsOracles_of_readmitsAll hstep h.2, fun hkeeps => ?_⟩⟩
    obtain ⟨hindexed', hall'⟩ := (allActive_inductive self).step w l w'
      ⟨hindexed, hall⟩ ⟨hkeeps, hstep⟩
    exact ⟨hindexed', hreadmits w' hall'⟩

/-! ## Oracles that leave -/

namespace Scenario

def enrolRun : List (Label Entry) :=
  [.call [admin] (.initializeVerifier admin),
    .call [admin] (.addOracle admin oracleA Symbols.weather 100)]

/-- An oracle is registered. -/
def enrolled : World State :=
  (TransitionSystem.execute (step exec verifier) enrolRun genesis).get
    (by decide +kernel)

def dismissal : Label Entry :=
  .call [admin] (.removeOracle admin oracleA Symbols.weather)

/-- The admin removes it. -/
def dismissed : World State :=
  (step exec verifier enrolled dismissal).get (by decide +kernel)

def returnRun : List (Label Entry) :=
  [.call [admin] (.addOracle admin oracleA Symbols.flight 100),
    dismissal,
    .call [admin] (.addOracle admin oracleA Symbols.defi 100)]

/-- It comes back twice, with a second removal in between. -/
def doubled : World State :=
  (TransitionSystem.execute (step exec verifier) returnRun dismissed).get
    (by decide +kernel)

def stakeCoin : Address := .contract 20

def slashRun : List (Label Entry) :=
  [.mint stakeCoin oracleA 100,
    .call [admin] (.setStakeToken admin stakeCoin),
    .call [admin] (.setMinStake admin 50),
    .call [oracleA] (.stake oracleA Symbols.weather 50),
    .call [admin] (.slashOracle admin oracleA Symbols.weather 10)]

/-- It is slashed below the minimum stake. -/
def slashedLow : World State :=
  (TransitionSystem.execute (step exec verifier) slashRun enrolled).get
    (by decide +kernel)

theorem enrolled_reachable :
    ((system verifier).restrict KeepsOracles).Reachable enrolled := by
  have hgenesis :
      ((system verifier).restrict KeepsOracles).Reachable genesis :=
    .init ⟨rfl, rfl⟩
  have hrun : (system verifier).Run genesis enrolRun enrolled :=
    TransitionSystem.run_of_execute (fun _ _ _ => step_sound)
      (Option.some_get _).symm
  refine hgenesis.run (hrun.restrict ?_)
  simp [enrolRun, KeepsOracles, Entry.Deactivates, Entry.strikesOff]

theorem dismissed_step :
    (system verifier).Step enrolled dismissal dismissed :=
  step_sound (Option.some_get _).symm

end Scenario

open Scenario

/-- A registered oracle is registered consistently, until it is removed. -/
theorem oracle_registry_consistent_enrolled :
    (register enrolled.machine).Indexed ∧ ReadmitsAll verifier enrolled ∧
      ¬ ((register dismissed.machine).Indexed ∧
        ReadmitsAll verifier dismissed) := by
  obtain ⟨hindexed, hreadmits, hstep⟩ :=
    (oracle_registry_consistent verifier).2.2 enrolled enrolled_reachable
  refine ⟨hindexed, hreadmits, fun h => ?_⟩
  have hkeeps := (hstep dismissal dismissed dismissed_step).mp h
  have hactive : ∃ entry, (register enrolled.machine).oracles
      (Symbols.weather, oracleA) = some entry ∧ entry.active = true :=
    ⟨⟨oracleA, Symbols.weather, 100, true⟩, by decide +kernel, rfl⟩
  exact hkeeps Symbols.weather oracleA hactive (.inl ⟨rfl, rfl⟩)

/-- A removed oracle cannot be registered again; one slashed below the minimum
stake stays globally registered; and one removed twice can be active twice. -/
theorem oracle_registry_inconsistent :
    ((system verifier).Reachable dismissed ∧
      ((dismissed.machine.store.oracles (Symbols.weather, oracleA)).map
        OracleEntry.active) = some false ∧
      ¬ Readmits verifier dismissed Symbols.weather oracleA) ∧
    ((system verifier).Reachable slashedLow ∧
      slashedLow.machine.store.globalOracle oracleA = true ∧
      ((slashedLow.machine.store.oracles (Symbols.weather, oracleA)).map
        OracleEntry.active) = some false) ∧
    ((system verifier).Reachable doubled ∧
      ((doubled.machine.store.oracles (Symbols.flight, oracleA)).map
        OracleEntry.active) = some true ∧
      ((doubled.machine.store.oracles (Symbols.defi, oracleA)).map
        OracleEntry.active) = some true) := by
  have henrolled := enrolled_reachable.of_restrict
  have hdismissed := henrolled.step dismissed_step
  have hslashed : (system verifier).Run enrolled slashRun slashedLow :=
    TransitionSystem.run_of_execute (fun _ _ _ => step_sound)
      (Option.some_get _).symm
  have hdoubled : (system verifier).Run dismissed returnRun doubled :=
    TransitionSystem.run_of_execute (fun _ _ _ => step_sound)
      (Option.some_get _).symm
  refine ⟨⟨hdismissed, ?_, not_readmits ?_⟩,
    ⟨henrolled.run hslashed, ?_, ?_⟩, hdismissed.run hdoubled, ?_, ?_⟩
  all_goals decide +kernel

end Parashield.OracleVerifier
