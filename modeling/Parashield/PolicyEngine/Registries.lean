import Parashield.PolicyEngine.Administration
import Parashield.Support.Queue

/-!
# The registries of categories and oracle data types

Each registry is kept twice, as a list and as a flag for every symbol.  The
views of a registry agree if the list enumerates the symbols whose flag is set.
Before the engine is initialized the data types fall back on the built-in ones
in both views.
-/

namespace Parashield.PolicyEngine

open Support Support.Contract Invocation TransitionSystem

/-- The part of the storage that holds the registries. -/
structure Registries where
  initialized : Bool
  registeredCategory : Symbol → Bool
  categoryRegistry : List Symbol
  registeredOracleDataType : Symbol → Option Bool
  oracleDataTypeRegistry : Option (List Symbol)

def Administration.registries (a : Administration) : Registries where
  initialized := a.initialized
  registeredCategory := a.registeredCategory
  categoryRegistry := a.categoryRegistry
  registeredOracleDataType := a.registeredOracleDataType
  oracleDataTypeRegistry := a.oracleDataTypeRegistry

def State.registries (s : State) : Registries := s.administration.registries

/-- The entry points that write the registries. -/
def Entry.enrols : Entry → Bool
  | .initializeEngine .. | .registerCategory .. | .unregisterCategory ..
  | .registerOracleDataType .. => true
  | _ => false

namespace Registries

variable {r : Registries} {c t : Symbol}

def deployed : Registries := State.deployed.registries

/-- The registries with the built-in entries. -/
def founded (r : Registries) : Registries where
  initialized := true
  registeredCategory c :=
    decide (c ∈ defaultCategories) || r.registeredCategory c
  categoryRegistry := defaultCategories
  registeredOracleDataType t :=
    if t ∈ defaultOracleDataTypes then some true
    else r.registeredOracleDataType t
  oracleDataTypeRegistry := some defaultOracleDataTypes

def withCategory (r : Registries) (c : Symbol) : Registries :=
  { r with
    registeredCategory := Function.update r.registeredCategory c true
    categoryRegistry := r.categoryRegistry ++ [c] }

def withoutCategory (r : Registries) (c : Symbol) : Registries :=
  { r with
    registeredCategory := Function.update r.registeredCategory c false
    categoryRegistry := r.categoryRegistry.filter fun d => !decide (d = c) }

def withDataType (r : Registries) (t : Symbol) : Registries :=
  { r with
    registeredOracleDataType :=
      Function.update r.registeredOracleDataType t (some true)
    oracleDataTypeRegistry :=
      some (r.oracleDataTypeRegistry.getD [] ++ [t]) }

/-- What an accepted call does to the registries. -/
inductive Act : Entry → Registries → Registries → Prop
  | rest {e : Entry} {r : Registries} : e.enrols = false → Act e r r
  | found {admin usdcToken oracleAddress : Address} {r : Registries} :
      r.initialized = false →
      Act (.initializeEngine admin usdcToken oracleAddress) r r.founded
  | category {admin : Address} {c : Symbol} {r : Registries} :
      r.initialized = true → r.registeredCategory c = false →
      Act (.registerCategory admin c) r (r.withCategory c)
  | categoryAgain {admin : Address} {c : Symbol} {r : Registries} :
      r.registeredCategory c = true → Act (.registerCategory admin c) r r
  | strike {admin : Address} {c : Symbol} {r : Registries} :
      r.initialized = true → r.registeredCategory c = true →
      Act (.unregisterCategory admin c) r (r.withoutCategory c)
  | dataType {admin : Address} {t : Symbol} {r : Registries} :
      r.initialized = true →
      (r.registeredOracleDataType t).getD false = false →
      Act (.registerOracleDataType admin t) r (r.withDataType t)
  | dataTypeAgain {admin : Address} {t : Symbol} {r : Registries} :
      (r.registeredOracleDataType t).getD false = true →
      Act (.registerOracleDataType admin t) r r

def dataTypes (r : Registries) : List Symbol :=
  r.oracleDataTypeRegistry.getD defaultOracleDataTypes

def hasDataType (r : Registries) (t : Symbol) : Bool :=
  (r.registeredOracleDataType t).getD (decide (t ∈ defaultOracleDataTypes))

/-- The views of each registry agree, and the built-in data types are in. -/
structure Agree (r : Registries) : Prop where
  fresh : r.initialized = false → r = deployed
  stored : r.initialized = true → r.oracleDataTypeRegistry.isSome
  flagged : r.initialized = true → ∀ t ∈ r.dataTypes,
    r.registeredOracleDataType t = some true
  categories : Enumerates r.categoryRegistry
    fun c => r.registeredCategory c = true
  dataTypes : Enumerates r.dataTypes fun t => r.hasDataType t = true
  builtIn : ∀ t ∈ defaultOracleDataTypes, t ∈ r.dataTypes

theorem agree_deployed : deployed.Agree where
  fresh _ := rfl
  stored h := by cases h
  flagged h := by cases h
  categories := .empty fun _ => Bool.false_ne_true
  dataTypes :=
    { nodup := by decide
      mem_iff := fun _ => (decide_eq_true_iff).symm }
  builtIn _ h := h

theorem Agree.founded (h : r.Agree) (hfresh : r.initialized = false) :
    r.founded.Agree where
  fresh hinit := by cases hinit
  stored _ := rfl
  flagged _ _ ht := if_pos ht
  categories :=
    { nodup := show defaultCategories.Nodup by decide
      mem_iff := fun c => by
        rw [h.fresh hfresh]
        show c ∈ defaultCategories ↔
          (decide (c ∈ defaultCategories) || false) = true
        simp }
  dataTypes :=
    { nodup := show defaultOracleDataTypes.Nodup by decide
      mem_iff := fun t => by
        rw [h.fresh hfresh]
        show t ∈ defaultOracleDataTypes ↔
          (if t ∈ defaultOracleDataTypes then some true else none).getD
            (decide (t ∈ defaultOracleDataTypes)) = true
        by_cases ht : t ∈ defaultOracleDataTypes
        · simp [ht]
        · simp [ht] }
  builtIn _ ht := ht

theorem Agree.withCategory (h : r.Agree) (hinit : r.initialized = true)
    (hc : r.registeredCategory c = false) : (r.withCategory c).Agree where
  fresh hfresh := by
    rw [show (r.withCategory c).initialized = true from hinit] at hfresh
    cases hfresh
  stored := h.stored
  flagged := h.flagged
  categories := by
    refine h.categories.push (by simp [hc]) fun d => ?_
    show Function.update r.registeredCategory c true d = true ↔ _
    by_cases hd : d = c
    · simp [hd]
    · simp [hd]
  dataTypes := h.dataTypes
  builtIn := h.builtIn

theorem Agree.withoutCategory (h : r.Agree) (hinit : r.initialized = true) :
    (r.withoutCategory c).Agree where
  fresh hfresh := by
    rw [show (r.withoutCategory c).initialized = true from hinit] at hfresh
    cases hfresh
  stored := h.stored
  flagged := h.flagged
  categories := by
    refine h.categories.filter fun d => ?_
    show Function.update r.registeredCategory c false d = true ↔ _
    by_cases hd : d = c
    · simp [hd]
    · simp [hd]
  dataTypes := h.dataTypes
  builtIn := h.builtIn

theorem dataTypes_withDataType (hstored : r.oracleDataTypeRegistry.isSome) :
    (r.withDataType t).dataTypes = r.dataTypes ++ [t] := by
  obtain ⟨ts, hts⟩ := Option.isSome_iff_exists.mp hstored
  simp [withDataType, Registries.dataTypes, hts]

theorem hasDataType_withDataType {t' : Symbol} :
    (r.withDataType t).hasDataType t' = true ↔
      r.hasDataType t' = true ∨ t' = t := by
  by_cases ht : t' = t
  · simp [withDataType, hasDataType, ht]
  · simp [withDataType, hasDataType, ht]

/-- A data type that is not flagged is not listed either: what is built in has
been flagged since the engine was initialized. -/
theorem Agree.not_hasDataType (h : r.Agree) (hinit : r.initialized = true)
    (ht : (r.registeredOracleDataType t).getD false = false) :
    ¬ r.hasDataType t = true := by
  intro hhas
  have hflag := h.flagged hinit t ((h.dataTypes.mem_iff t).mpr hhas)
  rw [hflag] at ht
  cases ht

theorem Agree.withDataType (h : r.Agree) (hinit : r.initialized = true)
    (ht : (r.registeredOracleDataType t).getD false = false) :
    (r.withDataType t).Agree where
  fresh hfresh := by
    rw [show (r.withDataType t).initialized = true from hinit] at hfresh
    cases hfresh
  stored _ := rfl
  flagged _ t' ht' := by
    rw [dataTypes_withDataType (h.stored hinit), List.mem_append,
      List.mem_singleton] at ht'
    show Function.update r.registeredOracleDataType t (some true) t' = _
    by_cases hsame : t' = t
    · rw [hsame, Function.update_self]
    · rw [Function.update_of_ne hsame]
      exact h.flagged hinit t' (ht'.resolve_right hsame)
  categories := h.categories
  dataTypes := by
    rw [dataTypes_withDataType (h.stored hinit)]
    exact h.dataTypes.push (h.not_hasDataType hinit ht) fun _ =>
      hasDataType_withDataType
  builtIn t' ht' := by
    rw [dataTypes_withDataType (h.stored hinit)]
    exact List.mem_append_left _ (h.builtIn t' ht')

variable {e : Entry} {r' : Registries}

theorem Agree.act (h : r.Agree) (hact : Act e r r') : r'.Agree := by
  cases hact with
  | rest => exact h
  | found hfresh => exact h.founded hfresh
  | category hinit hc => exact h.withCategory hinit hc
  | categoryAgain => exact h
  | strike hinit => exact h.withoutCategory hinit
  | dataType hinit ht => exact h.withDataType hinit ht
  | dataTypeAgain => exact h

/-- Only striking shortens the list of categories. -/
theorem Act.extends_categories (hact : Act e r r') (h : r.Agree)
    (he : ∀ admin c, e ≠ .unregisterCategory admin c) :
    r.categoryRegistry <+: r'.categoryRegistry := by
  cases hact with
  | rest => exact List.prefix_rfl
  | found hfresh =>
      rw [h.fresh hfresh]
      exact List.nil_prefix
  | category => exact List.prefix_append _ _
  | categoryAgain => exact List.prefix_rfl
  | strike => exact absurd rfl (he _ _)
  | dataType => exact List.prefix_rfl
  | dataTypeAgain => exact List.prefix_rfl

theorem Act.extends_dataTypes (hact : Act e r r') (h : r.Agree) :
    r.dataTypes <+: r'.dataTypes := by
  cases hact with
  | found hfresh =>
      rw [h.fresh hfresh]
      exact List.prefix_rfl
  | dataType hinit =>
      rw [dataTypes_withDataType (h.stored hinit)]
      exact List.prefix_append _ _
  | _ => exact List.prefix_rfl

/-- A category stays until it is struck itself. -/
theorem Act.keeps_category (hact : Act e r r') (h : r.Agree)
    (he : ∀ admin, e ≠ .unregisterCategory admin c)
    (hc : c ∈ r.categoryRegistry) : c ∈ r'.categoryRegistry := by
  by_cases hstrike : ∃ admin d, e = .unregisterCategory admin d
  · obtain ⟨admin, d, rfl⟩ := hstrike
    have hne : c ≠ d := by
      rintro rfl
      exact he admin rfl
    cases hact with
    | rest hrest => cases hrest
    | strike => exact List.mem_filter.mpr ⟨hc, by simp [hne]⟩
  · refine (hact.extends_categories h fun admin d hd => ?_).subset hc
    exact hstrike ⟨admin, d, hd⟩

theorem Act.category_mem {admin : Address}
    (hact : Act (.registerCategory admin c) r r') (h : r.Agree) :
    c ∈ r'.categoryRegistry := by
  cases hact with
  | rest hrest => cases hrest
  | category => exact List.mem_append_right _ (List.mem_singleton_self c)
  | categoryAgain hc => exact (h.categories.mem_iff c).mpr hc

theorem Act.dataType_mem {admin : Address}
    (hact : Act (.registerOracleDataType admin t) r r') (h : r.Agree) :
    t ∈ r'.dataTypes := by
  cases hact with
  | rest hrest => cases hrest
  | dataType hinit =>
      rw [dataTypes_withDataType (h.stored hinit)]
      exact List.mem_append_right _ (List.mem_singleton_self t)
  | dataTypeAgain ht =>
      refine (h.dataTypes.mem_iff t).mpr ?_
      cases hflag : r.registeredOracleDataType t with
      | none =>
          rw [hflag] at ht
          cases ht
      | some b =>
          rw [hflag] at ht
          rw [hasDataType, hflag]
          exact ht

end Registries

/-! ## Every call acts on the registries -/

section Act

variable {env : Env} {m m' : Machine State} {u : Unit}

theorem exec_enrolled {e : Entry} (he : e.enrols = false)
    (h : exec env e m = .ok (u, m')) :
    m'.store.registries = m.store.registries := by
  cases e with
  | setClaimsProcessor =>
      simp [exec, setClaimsProcessor] at h
      rw [h.2]
      rfl
  | setOracleGuardian =>
      simp [exec, setOracleGuardian] at h
      rw [h.2.2]
      rfl
  | proposeOracleChange =>
      simp [exec, proposeOracleChange] at h
      obtain ⟨-, -, -, -, rfl⟩ := h
      rfl
  | approveOracleChange =>
      simp [exec, approveOracleChange] at h
      obtain ⟨-, -, change, -, rfl⟩ := h
      rfl
  | executeOracleChange =>
      simp [exec, executeOracleChange] at h
      obtain ⟨-, change, -, -, -, rfl⟩ := h
      rfl
  | emergencyPause =>
      simp [exec, emergencyPause] at h
      rw [h.2]
      rfl
  | emergencyResume =>
      simp [exec, emergencyResume] at h
      rw [h.2]
      rfl
  | proposeNewAdmin =>
      simp [exec, proposeNewAdmin] at h
      rw [h.2.2]
      rfl
  | cancelAdminTransfer =>
      simp [exec, cancelAdminTransfer] at h
      rw [h.2]
      rfl
  | acceptAdmin =>
      simp [exec, acceptAdmin] at h
      rw [h.2.2.2]
      rfl
  | setMaxProductsPerPool =>
      simp [exec, setMaxProductsPerPool] at h
      rw [h.2.2]
      rfl
  | setExpiryWarningWindow =>
      simp [exec, setExpiryWarningWindow] at h
      rw [h.2.2]
      rfl
  | initializeEngine | registerCategory | unregisterCategory
  | registerOracleDataType => cases he
  | _ => exact congrArg Administration.registries (exec_administration rfl h)

theorem IsAdmin.initialized {admin : Address} (h : IsAdmin env m.store admin)
    (hwired : Wired m.store) : m.store.registries.initialized = true := by
  apply hwired.admin
  rw [h.1]
  rfl

/-- Every accepted call does to the registries what `Act` says. -/
theorem exec_registries {e : Entry} (hwired : Wired m.store)
    (h : exec env e m = .ok (u, m')) :
    Registries.Act e m.store.registries m'.store.registries := by
  cases e with
  | initializeEngine =>
      simp [exec, initializeEngine] at h
      obtain ⟨hfresh, -, -, -, -, B, -, -, rfl⟩ := h
      exact .found hfresh
  | registerCategory =>
      simp [exec, registerCategory, ite_ok] at h
      obtain ⟨hadmin, ⟨hset, rfl⟩ | ⟨hunset, rfl⟩⟩ := h
      · exact .categoryAgain hset
      · exact .category (hadmin.initialized hwired) hunset
  | unregisterCategory =>
      simp [exec, unregisterCategory] at h
      obtain ⟨hadmin, hset, rfl⟩ := h
      exact .strike (hadmin.initialized hwired) hset
  | registerOracleDataType =>
      simp [exec, registerOracleDataType, ite_ok] at h
      obtain ⟨hadmin, ⟨hset, rfl⟩ | ⟨hunset, rfl⟩⟩ := h
      · exact .dataTypeAgain hset
      · exact .dataType (hadmin.initialized hwired) hunset
  | _ =>
      have hsame : m'.store.registries = m.store.registries :=
        exec_enrolled rfl h
      rw [hsame]
      exact .rest rfl

end Act

/-! ## Runs -/

/-- The views of each registry agree. -/
def State.ViewsAgree (s : State) : Prop :=
  Enumerates (getRegisteredCategories s)
      (fun c => isCategoryRegistered s c = true) ∧
    Enumerates (getRegisteredOracleDataTypes s)
      (fun t => isOracleDataTypeRegistered s t = true)

/-- Both lists continue those of `s`. -/
def State.Continues (s s' : State) : Prop :=
  getRegisteredCategories s <+: getRegisteredCategories s' ∧
    getRegisteredOracleDataTypes s <+: getRegisteredOracleDataTypes s'

/-- The label does not unregister the category `c`. -/
def Spares (c : Symbol) (l : Label Entry) : Prop :=
  ∀ signers admin, l ≠ .call signers (.unregisterCategory admin c)

section Runs

variable {self : Address} {w w' : World State} {l : Label Entry}

theorem step_registries (h : (system self).Step w l w')
    (hwired : Wired w.machine.store) :
    w'.machine.store.registries = w.machine.store.registries ∨
      ∃ signers e, l = .call signers e ∧
        Registries.Act e w.machine.store.registries
          w'.machine.store.registries := by
  cases h with
  | @call signers e m' _ hexec =>
      exact .inr ⟨signers, e, rfl, exec_registries hwired hexec⟩
  | tick => exact .inl rfl
  | transfer => exact .inl rfl
  | mint => exact .inl rfl

theorem agree_inductive (self : Address) : (system self).Inductive fun w =>
    Wired w.machine.store ∧ w.machine.store.registries.Agree := by
  refine (wired_inductive self).and ?_ ?_
  · rintro w ⟨hw, -⟩
    rw [hw]
    exact Registries.agree_deployed
  · intro w l w' hwired _ hagree hstep
    rcases step_registries hstep hwired with hsame | ⟨signers, e, -, hact⟩
    · rw [hsame]
      exact hagree
    · exact hagree.act hact

theorem step_continues (hw : (system self).Reachable w)
    (h : (system self).Step w l w')
    (hl : ∀ signers admin c, l ≠ .call signers (.unregisterCategory admin c)) :
    w.machine.store.Continues w'.machine.store := by
  obtain ⟨hwired, hagree⟩ := hw.invariant (agree_inductive self)
  rcases step_registries h hwired with hsame | ⟨signers, e, rfl, hact⟩
  · refine ⟨?_, ?_⟩
    · show _ <+: w'.machine.store.registries.categoryRegistry
      rw [hsame]
      exact List.prefix_rfl
    · show _ <+: w'.machine.store.registries.dataTypes
      rw [hsame]
      exact List.prefix_rfl
  · refine ⟨hact.extends_categories hagree ?_, hact.extends_dataTypes hagree⟩
    rintro admin c rfl
    exact hl signers admin c rfl

/-- A data type stays registered. -/
theorem step_dataTypes (hw : (system self).Reachable w)
    (h : (system self).Step w l w') {t : Symbol}
    (ht : t ∈ getRegisteredOracleDataTypes w.machine.store) :
    t ∈ getRegisteredOracleDataTypes w'.machine.store := by
  obtain ⟨hwired, hagree⟩ := hw.invariant (agree_inductive self)
  show t ∈ w'.machine.store.registries.dataTypes
  rcases step_registries h hwired with hsame | ⟨signers, e, -, hact⟩
  · rw [hsame]
    exact ht
  · exact (hact.extends_dataTypes hagree).subset ht

theorem step_category {c : Symbol} (hw : (system self).Reachable w)
    (h : (system self).Step w l w') (hl : Spares c l)
    (hc : c ∈ getRegisteredCategories w.machine.store) :
    c ∈ getRegisteredCategories w'.machine.store := by
  obtain ⟨hwired, hagree⟩ := hw.invariant (agree_inductive self)
  show c ∈ w'.machine.store.registries.categoryRegistry
  rcases step_registries h hwired with hsame | ⟨signers, e, rfl, hact⟩
  · rw [hsame]
    exact hc
  · refine hact.keeps_category hagree ?_ hc
    rintro admin rfl
    exact hl signers admin rfl

theorem run_dataTypes {ls : List (Label Entry)}
    (hrun : (system self).Run w ls w') (hw : (system self).Reachable w)
    {t : Symbol} (ht : t ∈ getRegisteredOracleDataTypes w.machine.store) :
    t ∈ getRegisteredOracleDataTypes w'.machine.store := by
  refine (hrun.preserves (Q := fun v => (system self).Reachable v ∧
    t ∈ getRegisteredOracleDataTypes v.machine.store) ?_ ⟨hw, ht⟩).2
  rintro v l v' ⟨hv, htv⟩ hstep
  exact ⟨hv.step hstep, step_dataTypes hv hstep htv⟩

theorem run_category {c : Symbol} {ls : List (Label Entry)}
    (hrun : ((system self).restrict fun _ l => Spares c l).Run w ls w')
    (hw : (system self).Reachable w)
    (hc : c ∈ getRegisteredCategories w.machine.store) :
    c ∈ getRegisteredCategories w'.machine.store := by
  refine (hrun.preserves (Q := fun v => (system self).Reachable v ∧
    c ∈ getRegisteredCategories v.machine.store) ?_ ⟨hw, hc⟩).2
  rintro v l v' ⟨hv, hcv⟩ ⟨hspares, hstep⟩
  exact ⟨hv.step hstep, step_category hv hstep hspares hcv⟩

theorem step_registered {signers : List Address} {e : Entry}
    (hw : (system self).Reachable w)
    (h : (system self).Step w (.call signers e) w') :
    Registries.Act e w.machine.store.registries w'.machine.store.registries ∧
      w.machine.store.registries.Agree := by
  obtain ⟨hwired, hagree⟩ := hw.invariant (agree_inductive self)
  cases h with
  | call _ hexec => exact ⟨exec_registries hwired hexec, hagree⟩

end Runs

/-- In every reachable state each list enumerates the symbols its predicate
holds of, the built-in data types among them.  Registering an entry lists it
and continues both lists; data types stay registered in every run, categories
in every run that does not unregister them. -/
theorem registry_views_agree (self : Address) :
    (∀ w, (system self).Reachable w → w.machine.store.ViewsAgree ∧
      ∀ t ∈ defaultOracleDataTypes,
        isOracleDataTypeRegistered w.machine.store t = true) ∧
    (∀ w w' signers admin c, (system self).Reachable w →
      (system self).Step w (.call signers (.registerCategory admin c)) w' →
        w.machine.store.Continues w'.machine.store ∧
          isCategoryRegistered w'.machine.store c = true) ∧
    (∀ w w' signers admin t, (system self).Reachable w →
      (system self).Step w (.call signers (.registerOracleDataType admin t))
        w' →
        w.machine.store.Continues w'.machine.store ∧
          isOracleDataTypeRegistered w'.machine.store t = true) ∧
    ∀ w ls w', (system self).Reachable w →
      ((system self).Run w ls w' →
        ∀ t ∈ getRegisteredOracleDataTypes w.machine.store,
          t ∈ getRegisteredOracleDataTypes w'.machine.store) ∧
      ∀ c ∈ getRegisteredCategories w.machine.store,
        ((system self).restrict fun _ l => Spares c l).Run w ls w' →
          c ∈ getRegisteredCategories w'.machine.store := by
  have hviews : ∀ w, (system self).Reachable w →
      w.machine.store.ViewsAgree := by
    intro w hw
    obtain ⟨-, hagree⟩ := hw.invariant (agree_inductive self)
    exact ⟨hagree.categories, hagree.dataTypes⟩
  refine ⟨fun w hw => ⟨hviews w hw, fun t ht => ?_⟩, ?_, ?_, ?_⟩
  · obtain ⟨-, hagree⟩ := hw.invariant (agree_inductive self)
    exact (hagree.dataTypes.mem_iff t).mp (hagree.builtIn t ht)
  · intro w w' signers admin c hw hstep
    obtain ⟨hact, hagree⟩ := step_registered hw hstep
    refine ⟨step_continues hw hstep nofun, ?_⟩
    exact ((hviews w' (hw.step hstep)).1.mem_iff c).mp
      (hact.category_mem hagree)
  · intro w w' signers admin t hw hstep
    obtain ⟨hact, hagree⟩ := step_registered hw hstep
    refine ⟨step_continues hw hstep nofun, ?_⟩
    exact ((hviews w' (hw.step hstep)).2.mem_iff t).mp
      (hact.dataType_mem hagree)
  · intro w ls w' hw
    refine ⟨fun hrun t ht => run_dataTypes hrun hw ht, ?_⟩
    exact fun c hc hrun => run_category hrun hw hc

namespace Sample

/-- A category comes twice, a built-in data type again, and a category goes. -/
def enrolment : List (Label Entry) :=
  [.call [admin] (.registerCategory admin Symbols.weather),
    .call [admin] (.registerCategory admin Symbols.weather),
    .call [admin] (.registerOracleDataType admin Symbols.defi),
    .call [admin] (.registerOracleDataType admin Symbols.crop),
    .call [admin] (.unregisterCategory admin Symbols.flight)]

def enrolled : World State :=
  (TransitionSystem.execute (step exec engine) enrolment prepared).get
    (by decide +kernel)

end Sample

open Sample

theorem registry_views_agree_enrolled :
    enrolled.machine.store.ViewsAgree ∧
    getRegisteredCategories enrolled.machine.store =
      [Symbols.crop, Symbols.disaster, Symbols.health, Symbols.defi,
        Symbols.weather] ∧
    getRegisteredOracleDataTypes enrolled.machine.store =
      defaultOracleDataTypes ++ [Symbols.crop] := by
  have hrun : (system engine).Run prepared enrolment enrolled :=
    run_of_execute (fun _ _ _ => step_sound) (Option.some_get _).symm
  have hviews := (registry_views_agree engine).1 enrolled
    (prepared_reachable.run hrun)
  exact ⟨hviews.1, by decide +kernel, by decide +kernel⟩

end Parashield.PolicyEngine
