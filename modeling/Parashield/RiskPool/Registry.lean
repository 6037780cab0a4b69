import Parashield.RiskPool.Positions
import Parashield.Support.Index

/-!
# Risk pool: the registry of positions

The part of the storage that records who holds a position: the positions, the
tokens minted for them, and the slots of the providers.  Tokens mirror positions
as long as each write of a position is followed by a write of its token, and no
position is removed.
-/

namespace Parashield.RiskPool

open Support Support.Contract Invocation

/-- Positions, their tokens, and the slots of providers. -/
structure Registry where
  lpPosition : Address → Option LpPosition
  lpCount : ℕ
  lpAddress : ℕ → Option Address
  nextNftId : ℕ
  lpNft : ℕ → Option LpNft
  providerNft : Address → Option ℕ

def State.registry (s : State) : Registry where
  lpPosition := s.lpPosition
  lpCount := s.lpCount
  lpAddress := s.lpAddress
  nextNftId := s.nextNftId
  lpNft := s.lpNft
  providerNft := s.providerNft

/-- The token shows the position `p` of `a`. -/
structure LpNft.Shows (nft : LpNft) (a : Address) (p : LpPosition) : Prop where
  provider : nft.provider = a
  shares : nft.shares = p.shares
  deposited : nft.deposited = p.deposited
  active : nft.active = decide (0 < p.shares)

namespace Registry

/-- The holder of a position has a token that shows it, nobody else has one,
and the slots list the holders. -/
structure Mirrored (r : Registry) : Prop where
  token : ∀ a p, r.lpPosition a = some p → ∃ tokenId nft,
    r.providerNft a = some tokenId ∧ r.lpNft tokenId = some nft ∧
      nft.Shows a p
  untokened : ∀ a, r.lpPosition a = none → r.providerNft a = none
  minted : ∀ a tokenId, r.providerNft a = some tokenId → tokenId < r.nextNftId
  numbered : Numbered r.lpAddress r.lpCount fun a => r.lpPosition a ≠ none

/-- Positions are not removed. -/
def Extends (r r' : Registry) : Prop :=
  ∀ a, r.lpPosition a ≠ none → r'.lpPosition a ≠ none

/-- The registry stays mirrored and loses no position. -/
structure Upholds (r r' : Registry) : Prop where
  mirrored : r.Mirrored → r'.Mirrored
  extended : r.Mirrored → r.Extends r'

variable {r r' r'' : Registry} {a : Address} {p q : LpPosition}

theorem Upholds.refl (r : Registry) : r.Upholds r :=
  ⟨id, fun _ _ => id⟩

theorem Upholds.trans (h : r.Upholds r') (h' : r'.Upholds r'') :
    r.Upholds r'' where
  mirrored hr := h'.mirrored (h.mirrored hr)
  extended hr a ha := h'.extended (h.mirrored hr) a (h.extended hr a ha)

/-- Two providers have two tokens. -/
theorem Mirrored.token_ne (hr : r.Mirrored) {b : Address} {i j : ℕ}
    (hne : a ≠ b) (hp : r.lpPosition a = some p)
    (hq : r.lpPosition b = some q) (hi : r.providerNft a = some i)
    (hj : r.providerNft b = some j) : i ≠ j := by
  obtain ⟨i', nft, hi', hnft, hshows⟩ := hr.token a p hp
  obtain ⟨j', nft', hj', hnft', hshows'⟩ := hr.token b q hq
  obtain rfl := Option.some.inj (hi.symm.trans hi')
  obtain rfl := Option.some.inj (hj.symm.trans hj')
  rintro rfl
  obtain rfl := Option.some.inj (hnft.symm.trans hnft')
  exact hne (hshows.provider.symm.trans hshows'.provider)

theorem update_ne_none (hp : r.lpPosition a = some p) (b : Address) :
    Function.update r.lpPosition a (some q) b ≠ none ↔
      r.lpPosition b ≠ none := by
  by_cases hb : b = a
  · subst hb
    rw [Function.update_self, hp]
    exact iff_of_true nofun nofun
  · rw [Function.update_of_ne hb]

/-! ## Writes -/

/-- The tokens after that of `a` is brought up to date with `p`. -/
def tokens (r : Registry) (a : Address) (p : LpPosition) : ℕ → Option LpNft :=
  match r.providerNft a with
  | none => r.lpNft
  | some tokenId =>
      match r.lpNft tokenId with
      | none => r.lpNft
      | some nft =>
          Function.update r.lpNft tokenId
            (some
              { nft with
                shares := p.shares
                deposited := p.deposited
                active := decide (0 < p.shares) })

/-- A position is written, and its token follows. -/
def put (r : Registry) (a : Address) (p : LpPosition) : Registry :=
  { r with
    lpPosition := Function.update r.lpPosition a (some p)
    lpNft := r.tokens a p }

/-- A token is minted for the position `p` of `a`. -/
def mint (r : Registry) (a : Address) (p : LpPosition)
    (category : Symbol) (mintedAt : ℕ) : Registry :=
  { r with
    nextNftId := r.nextNftId + 1
    lpNft :=
      Function.update r.lpNft r.nextNftId
        (some
          { tokenId := r.nextNftId
            provider := a
            category := category
            mintedAt := mintedAt
            shares := p.shares
            deposited := p.deposited
            active := true })
    providerNft := Function.update r.providerNft a (some r.nextNftId) }

/-- A provider gets a slot, a position and a token. -/
def enroll (r : Registry) (a : Address) (p : LpPosition) (category : Symbol)
    (mintedAt : ℕ) : Registry :=
  mint
    { r with
      lpPosition := Function.update r.lpPosition a (some p)
      lpAddress := Function.update r.lpAddress r.lpCount (some a)
      lpCount := r.lpCount + 1 }
    a p category mintedAt

theorem Mirrored.tokens_eq (hr : r.Mirrored) (hp : r.lpPosition a = some p) :
    ∃ tokenId nft, r.providerNft a = some tokenId ∧
      r.tokens a q = Function.update r.lpNft tokenId (some nft) ∧
      nft.Shows a q := by
  obtain ⟨tokenId, nft, hid, hnft, hshows⟩ := hr.token a p hp
  let shown : LpNft :=
    { nft with
      shares := q.shares
      deposited := q.deposited
      active := decide (0 < q.shares) }
  refine ⟨tokenId, shown, hid, ?_, hshows.provider, rfl, rfl, rfl⟩
  unfold tokens
  simp only [hid, hnft]
  rfl

theorem Mirrored.put (hr : r.Mirrored) (hp : r.lpPosition a = some p)
    (q : LpPosition) : (r.put a q).Mirrored := by
  obtain ⟨tokenId, nft, hid, htokens, hshows⟩ := hr.tokens_eq (q := q) hp
  refine ⟨fun b p' hp' => ?_, fun b hb => hr.untokened b ?_, hr.minted,
    hr.numbered.congr (update_ne_none hp)⟩
  · change Function.update r.lpPosition a (some q) b = some p' at hp'
    change ∃ i n, r.providerNft b = some i ∧ r.tokens a q i = some n ∧ _
    rw [htokens]
    by_cases hb : b = a
    · subst hb
      rw [Function.update_self] at hp'
      obtain rfl := Option.some.inj hp'
      exact ⟨tokenId, nft, hid, Function.update_self .., hshows⟩
    · rw [Function.update_of_ne hb] at hp'
      obtain ⟨i, n, hi, hn, hshows'⟩ := hr.token b p' hp'
      refine ⟨i, n, hi, ?_, hshows'⟩
      rwa [Function.update_of_ne (hr.token_ne hb hp' hp hi hid)]
  · exact not_not.mp (mt (update_ne_none hp b).mpr (not_not.mpr hb))

theorem Mirrored.enroll (hr : r.Mirrored) (hnone : r.lpPosition a = none)
    (hpos : 0 < p.shares) (category : Symbol) (mintedAt : ℕ) :
    (r.enroll a p category mintedAt).Mirrored := by
  refine ⟨fun b q hq => ?_, fun b hb => ?_, fun b i hi => ?_, ?_⟩
  · change Function.update r.lpPosition a (some p) b = some q at hq
    change ∃ i n, Function.update r.providerNft a (some r.nextNftId) b =
        some i ∧ Function.update r.lpNft r.nextNftId _ i = some n ∧ _
    by_cases hb : b = a
    · subst hb
      rw [Function.update_self] at hq
      obtain rfl := Option.some.inj hq
      exact ⟨r.nextNftId, _, Function.update_self .., Function.update_self ..,
        rfl, rfl, rfl, (decide_eq_true hpos).symm⟩
    · rw [Function.update_of_ne hb] at hq ⊢
      obtain ⟨i, n, hi, hn, hshows⟩ := hr.token b q hq
      refine ⟨i, n, hi, ?_, hshows⟩
      rwa [Function.update_of_ne (hr.minted b i hi).ne]
  · change Function.update r.lpPosition a (some p) b = none at hb
    change Function.update r.providerNft a (some r.nextNftId) b = none
    by_cases hne : b = a
    · rw [hne, Function.update_self] at hb
      cases hb
    · rw [Function.update_of_ne hne] at hb ⊢
      exact hr.untokened b hb
  · change Function.update r.providerNft a (some r.nextNftId) b = some i at hi
    change i < r.nextNftId + 1
    by_cases hne : b = a
    · rw [hne, Function.update_self] at hi
      obtain rfl := Option.some.inj hi
      exact Nat.lt_succ_self _
    · rw [Function.update_of_ne hne] at hi
      exact (hr.minted b i hi).trans (Nat.lt_succ_self _)
  · refine hr.numbered.add (not_not.mpr hnone) fun b => ?_
    change Function.update r.lpPosition a (some p) b ≠ none ↔ _
    by_cases hb : b = a
    · rw [hb, Function.update_self]
      exact iff_of_true nofun (.inl rfl)
    · rw [Function.update_of_ne hb]
      exact (or_iff_right hb).symm

theorem Upholds.put (hp : r.lpPosition a = some p) (q : LpPosition) :
    r.Upholds (r.put a q) where
  mirrored hr := hr.put hp q
  extended _ b hb := (update_ne_none hp b).mpr hb

/-- What the token shows of the position is written as it was. -/
theorem Upholds.restate (hp : r.lpPosition a = some p)
    (hshares : q.shares = p.shares) (hdeposited : q.deposited = p.deposited) :
    r.Upholds
      { r with lpPosition := Function.update r.lpPosition a (some q) } where
  mirrored hr := by
    refine ⟨fun b p' hp' => ?_, fun b hb => hr.untokened b ?_, hr.minted,
      hr.numbered.congr (update_ne_none hp)⟩
    · change Function.update r.lpPosition a (some q) b = some p' at hp'
      by_cases hb : b = a
      · subst hb
        rw [Function.update_self] at hp'
        obtain rfl := Option.some.inj hp'
        obtain ⟨i, n, hi, hn, hshows⟩ := hr.token b p hp
        refine ⟨i, n, hi, hn, hshows.provider, ?_, ?_, ?_⟩
        · rw [hshows.shares, hshares]
        · rw [hshows.deposited, hdeposited]
        · rw [hshows.active, hshares]
      · rw [Function.update_of_ne hb] at hp'
        exact hr.token b p' hp'
    · exact not_not.mp (mt (update_ne_none hp b).mpr (not_not.mpr hb))
  extended _ b hb := (update_ne_none hp b).mpr hb

theorem Upholds.enroll (hnone : r.lpPosition a = none) (hpos : 0 < p.shares)
    (category : Symbol) (mintedAt : ℕ) :
    r.Upholds (r.enroll a p category mintedAt) where
  mirrored hr := hr.enroll hnone hpos category mintedAt
  extended _ b hb := by
    have hne : b ≠ a := fun h => hb (h ▸ hnone)
    change Function.update r.lpPosition a (some p) b ≠ none
    rwa [Function.update_of_ne hne]

/-- What accepted calls write: a position with its token, and a slot and a token
for whoever had none. -/
inductive Writes : Registry → Registry → Prop
  | refl (r : Registry) : Writes r r
  | trans {r r' r'' : Registry} : Writes r r' → Writes r' r'' → Writes r r''
  | put {r : Registry} {a : Address} {p : LpPosition} :
      r.lpPosition a = some p → ∀ q, Writes r (r.put a q)
  | restate {r : Registry} {a : Address} {p q : LpPosition} :
      r.lpPosition a = some p → q.shares = p.shares →
      q.deposited = p.deposited →
      Writes r { r with lpPosition := Function.update r.lpPosition a (some q) }
  | enroll {r : Registry} {a : Address} {p : LpPosition} :
      r.lpPosition a = none → 0 < p.shares → ∀ category mintedAt,
      Writes r (r.enroll a p category mintedAt)

theorem Writes.upholds (h : r.Writes r') : r.Upholds r' := by
  induction h with
  | refl r => exact .refl r
  | trans _ _ ih ih' => exact ih.trans ih'
  | put hp q => exact .put hp q
  | restate hp hshares hdeposited => exact .restate hp hshares hdeposited
  | enroll hnone hpos category mintedAt =>
      exact .enroll hnone hpos category mintedAt

end Registry

/-! ## The code's writes -/

@[simp] theorem updateLpNft_registry (s : State) (a : Address)
    (p : LpPosition) : (s.updateLpNft a p).registry =
      { s.registry with lpNft := s.registry.tokens a p } := by
  have hid : s.registry.providerNft a = s.providerNft a := rfl
  have hnft : s.registry.lpNft = s.lpNft := rfl
  unfold State.updateLpNft Registry.tokens
  rw [hid, hnft]
  cases s.providerNft a with
  | none => rfl
  | some tokenId =>
      cases h : s.lpNft tokenId with
      | none =>
          simp only [h]
          rfl
      | some nft =>
          simp only [h]
          rfl

end Parashield.RiskPool
