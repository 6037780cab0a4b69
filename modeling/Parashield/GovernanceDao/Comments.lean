import Parashield.GovernanceDao.Changes

/-!
# Governance DAO: comments

Comments are numbered within their proposal but stored under their number
alone.  As long as only one proposal is discussed the number of a comment
identifies it; the first comment on a second proposal replaces the first one on
the first.
-/

namespace Parashield.GovernanceDao

open Support Support.Contract Invocation

variable {self : Address} {env : Env} {e : Entry} {s s' : State}
  {m m' : Machine State} {w w₀ w' : World State} {ls : List (Label Entry)}

/-! ## Calls that leave the comments alone -/

/-- The stored comments and the numbers given out. -/
structure Comments where
  stored : ℕ → Option ProposalComment
  next : ℕ → ℕ

def State.comments (s : State) : Comments where
  stored := s.proposalComment
  next := s.nextCommentId

/-- The call is about comments. -/
def Entry.IsComment : Entry → Prop
  | .addComment .. | .deleteComment .. => True
  | _ => False

theorem Change.comments (h : Change env e m m') (he : ¬ e.IsAside) :
    m'.store.comments = m.store.comments := by
  have hsame := h.sameSettings he
  rw [State.comments, hsame.proposalComment, hsame.nextCommentId,
    State.comments]

/-- The comments are as in `c`. -/
def OnComments (c : Comments) (m : Machine State) : Prop :=
  m.store.comments = c

variable {c : Comments}

theorem keeps_uncommented {f : State → State}
    (hf : ∀ s, (f s).comments = s.comments) :
    Keeps (OnComments c) (update f : Call Unit) :=
  keeps_update fun m hm => (hf m.store).trans hm

theorem keeps_requireAdmin {I : Machine State → Prop} {caller : Address} :
    Keeps I (requireAdmin env caller) := by
  refine keeps_bind keeps_load fun s => ?_
  refine keeps_bind (keeps_unwrap _ _) fun _ => ?_
  exact keeps_bind (keeps_ensure _ _) fun _ => keeps_requireAuth _ _

theorem keeps_loadConfig {I : Machine State → Prop} {fault : Fault Error} :
    Keeps I (loadConfig fault) :=
  keeps_bind keeps_load fun _ => keeps_unwrap _ _

theorem keeps_storeTemplate {name : Symbol} {template : ProposalTemplate} :
    Keeps (OnComments c) (storeTemplate name template) :=
  keeps_uncommented fun _ => rfl

/-- Settings and templates are apart from the comments. -/
theorem aside_keeps_comments (he : e.IsAside) (hc : ¬ e.IsComment) :
    Keeps (OnComments c) (exec env e) := by
  cases e with
  | registerTemplate =>
      refine keeps_bind keeps_requireAdmin fun _ => ?_
      refine keeps_bind (keeps_ensure _ _) fun _ => ?_
      refine keeps_bind (keeps_ensure _ _) fun _ => ?_
      refine keeps_bind keeps_load fun s => ?_
      refine keeps_bind (keeps_ensure _ _) fun _ => ?_
      refine keeps_bind keeps_storeTemplate fun _ => ?_
      exact keeps_whenever fun _ => keeps_uncommented fun _ => rfl
  | deactivateTemplate =>
      refine keeps_bind keeps_requireAdmin fun _ => ?_
      refine keeps_bind keeps_load fun s => ?_
      exact keeps_bind (keeps_unwrap _ _) fun _ => keeps_storeTemplate
  | setTimeWeight =>
      refine keeps_bind keeps_requireAdmin fun _ => ?_
      refine keeps_bind (keeps_ensure _ _) fun _ => ?_
      exact keeps_uncommented fun _ => rfl
  | checkpointVotingPower =>
      refine keeps_bind (keeps_requireAuth _ _) fun _ => ?_
      refine keeps_bind keeps_loadConfig fun _ => ?_
      exact keeps_bind keeps_get fun _ => keeps_uncommented fun _ => rfl
  | setQuorumDecay =>
      refine keeps_bind keeps_requireAdmin fun _ => ?_
      refine keeps_bind keeps_loadConfig fun _ => ?_
      refine keeps_bind (keeps_ensure _ _) fun _ => ?_
      refine keeps_bind (keeps_ensure _ _) fun _ => ?_
      refine keeps_bind (keeps_ensure _ _) fun _ => ?_
      refine keeps_bind (keeps_ensure _ _) fun _ => ?_
      exact keeps_uncommented fun _ => rfl
  | setImpactMultipliers =>
      refine keeps_bind keeps_requireAdmin fun _ => ?_
      refine keeps_bind (keeps_forEach fun _ _ => keeps_ensure _ _) fun _ => ?_
      exact keeps_uncommented fun _ => rfl
  | pruneParticipationHistory =>
      simp only [exec, pruneParticipationHistory]
      exact keeps_uncommented fun _ => rfl
  | setRiskPool =>
      exact keeps_bind keeps_requireAdmin fun _ =>
        keeps_uncommented fun _ => rfl
  | setGuardians =>
      refine keeps_bind keeps_requireAdmin fun _ => ?_
      refine keeps_bind (keeps_ensure _ _) fun _ => ?_
      refine keeps_bind (keeps_ensure _ _) fun _ => ?_
      exact keeps_uncommented fun _ => rfl
  | addComment => exact absurd trivial hc
  | deleteComment => exact absurd trivial hc
  | _ => exact he.elim

theorem exec_comments {u : Unit} (h : exec env e m = .ok (u, m'))
    (hc : ¬ e.IsComment) : m'.store.comments = m.store.comments := by
  by_cases he : e.IsAside
  · exact aside_keeps_comments he hc m u m' rfl h
  · exact changes_keep (I := OnComments m.store.comments)
      (fun m m' hchange hm => (hchange.comments he).trans hm)
      (exec_changes h) rfl

/-! ## Calls about comments -/

/-- A comment that was posted, or the number of one that was removed. -/
inductive Remark where
  | posted (comment : ProposalComment)
  | removed (commentId : ℕ)
  deriving DecidableEq

def Remark.comment? : Remark → Option ProposalComment
  | .posted comment => some comment
  | .removed _ => none

/-- The comments posted, oldest first. -/
def posts (log : List Remark) : List ProposalComment :=
  log.filterMap Remark.comment?

@[simp] theorem mem_posts {log : List Remark} {p : ProposalComment} :
    p ∈ posts log ↔ .posted p ∈ log := by
  simp only [posts, List.mem_filterMap]
  constructor
  · rintro ⟨_ | _, hr, hp⟩
    · obtain rfl := Option.some.inj hp
      exact hr
    · cases hp
  · intro hp
    exact ⟨_, hp, rfl⟩

/-- What a call says and does about comments: a posted comment goes by the
number that the call returns. -/
def remarks (self : Address) (w : World State) : Label Entry → List Remark
  | .call signers (.addComment commenter proposalId text replyTo) =>
      match addComment (callEnv self w signers) commenter proposalId text
          replyTo w.machine with
      | .ok (commentId, _) =>
          [.posted
            { id := commentId
              proposalId := proposalId
              author := commenter
              text := text
              createdAt := w.now
              replyTo := replyTo }]
      | .error _ => []
  | .call _ (.deleteComment _ commentId) => [.removed commentId]
  | _ => []

namespace Comments

/-- The comments after the remark. -/
def after (c : Comments) : Remark → Comments
  | .posted p =>
      { stored := Function.update c.stored p.id (some p)
        next :=
          Function.update c.next p.proposalId (min (p.id + 1) (2 ^ 128 - 1)) }
  | .removed commentId =>
      { c with stored := Function.update c.stored commentId none }

/-- A comment takes the next number of its proposal and replies to one that is
stored. -/
def Admits (c : Comments) : Remark → Prop
  | .posted p =>
      p.id = c.next p.proposalId ∧ ∀ r, p.replyTo = some r → c.stored r ≠ none
  | .removed commentId => c.stored commentId ≠ none

end Comments

theorem addComment_spec {commenter : Address} {pid commentId : ℕ}
    {text : Bytes} {replyTo : Option ℕ}
    (h : addComment env commenter pid text replyTo m = .ok (commentId, m')) :
    m.store.comments.Admits
        (.posted ⟨commentId, pid, commenter, text, env.now, replyTo⟩) ∧
      m'.store.comments = m.store.comments.after
        (.posted ⟨commentId, pid, commenter, text, env.now, replyTo⟩) := by
  simp only [addComment, storeComment, bind_ok, requireAuth_ok, ensure_ok,
    loadProposal_ok, load_ok, update_ok, pure_ok] at h
  obtain ⟨_, _, ⟨-, rfl⟩, _, _, ⟨-, rfl⟩, _, _, ⟨-, rfl⟩, _, _, ⟨-, rfl⟩, _, _,
    ⟨rfl, rfl⟩, _, _, ⟨hreply, rfl⟩, _, _, rfl, _, _, rfl, rfl, rfl⟩ := h
  refine ⟨⟨rfl, fun r hr => ?_⟩, rfl⟩
  exact Option.isSome_iff_ne_none.mp (hreply r hr)

theorem deleteComment_spec {admin : Address} {commentId : ℕ} {u : Unit}
    (h : deleteComment env admin commentId m = .ok (u, m')) :
    m.store.comments.Admits (.removed commentId) ∧
      m'.store.comments = m.store.comments.after (.removed commentId) := by
  simp only [deleteComment, storeComment, bind_ok, requireAdmin_ok, load_ok,
    ensure_ok, update_ok] at h
  obtain ⟨_, _, ⟨-, rfl⟩, _, _, ⟨rfl, rfl⟩, _, _, ⟨hsome, rfl⟩, rfl⟩ := h
  exact ⟨Option.isSome_iff_ne_none.mp hsome, rfl⟩

/-- A step makes at most one remark, and the comments follow it. -/
theorem step_remarks {l : Label Entry} (h : (system self).Step w l w') :
    (remarks self w l = [] ∧
        w'.machine.store.comments = w.machine.store.comments) ∨
      ∃ r, remarks self w l = [r] ∧ w.machine.store.comments.Admits r ∧
        w'.machine.store.comments = w.machine.store.comments.after r := by
  cases h with
  | @call signers e m' _ hexec =>
      cases e with
      | addComment commenter pid text replyTo =>
          obtain ⟨commentId, hadd⟩ := perform_ok.mp hexec
          obtain ⟨hadmits, hafter⟩ := addComment_spec hadd
          refine .inr ⟨_, ?_, hadmits, hafter⟩
          simp only [remarks, hadd]
          rfl
      | deleteComment admin commentId =>
          obtain ⟨hadmits, hafter⟩ := deleteComment_spec hexec
          exact .inr ⟨_, rfl, hadmits, hafter⟩
      | _ => exact .inl ⟨rfl, exec_comments hexec not_false⟩
  | tick => exact .inl ⟨rfl, rfl⟩
  | transfer => exact .inl ⟨rfl, rfl⟩
  | mint => exact .inl ⟨rfl, rfl⟩

/-! ## One discussion -/

/-- Comments are never lost or confused: in the state `w`, in which the calls
of `T` can be made, after the remarks `log`. -/
structure CommentsKept (T : TransitionSystem (World State) (Label Entry))
    (w : World State) (log : List Remark) : Prop where
  kept : ∀ before p after, log = before ++ .posted p :: after →
    .removed p.id ∉ after → w.machine.store.getComment p.id = .ok p
  distinct : ((posts log).map ProposalComment.id).Nodup
  replies : ∀ signers commenter pid text r w',
    T.Step w (.call signers (.addComment commenter pid text (some r))) w' →
    ∃ p, w.machine.store.getComment r = .ok p ∧ p.proposalId = pid

/-- A comment is on the one proposal that has comments so far, or on the first
one to have any, and there is a number left for it. -/
def OneDiscussion (w : World State) : Label Entry → Prop
  | .call _ (.addComment _ pid _ _) =>
      (∀ q, q ≠ pid → w.machine.store.nextCommentId q = 1) ∧
        w.machine.store.nextCommentId pid < 2 ^ 128 - 1
  | _ => True

/-- The comments after the remarks `log`, all of them on one proposal. -/
structure Comments.Follows (c : Comments) (log : List Remark) : Prop where
  kept : ∀ before p after, log = before ++ .posted p :: after →
    .removed p.id ∉ after → c.stored p.id = some p
  distinct : ((posts log).map ProposalComment.id).Nodup
  positive : ∀ q, 0 < c.next q
  below : ∀ p ∈ posts log, p.id < c.next p.proposalId
  started : ∀ p ∈ posts log, c.next p.proposalId ≠ 1
  posted : ∀ commentId p, c.stored commentId = some p → p ∈ posts log

theorem follows_deployed : State.deployed.comments.Follows [] where
  kept before p after h := by simp at h
  distinct := by simp [posts]
  positive _ := Nat.one_pos
  below := by simp
  started := by simp
  posted := nofun

/-- The last remark is the post in question or comes after it. -/
theorem snoc_eq_append_cons {log before after : List Remark} {r : Remark}
    {p : ProposalComment} (h : log ++ [r] = before ++ .posted p :: after) :
    (after = [] ∧ r = .posted p) ∨
      ∃ earlier, after = earlier ++ [r] ∧
        log = before ++ .posted p :: earlier := by
  rcases List.eq_nil_or_concat after with rfl | ⟨earlier, last, rfl⟩
  · obtain ⟨-, hr⟩ := List.append_inj' h rfl
    exact .inl ⟨rfl, List.singleton_inj.mp hr⟩
  · rw [List.concat_eq_append, ← List.cons_append, ← List.append_assoc] at h
    obtain ⟨hlog, hr⟩ := List.append_inj' h rfl
    obtain rfl := List.singleton_inj.mp hr
    exact .inr ⟨earlier, by simp, hlog⟩

theorem posts_snoc_posted (log : List Remark) (p : ProposalComment) :
    posts (log ++ [.posted p]) = posts log ++ [p] := by
  simp [posts, Remark.comment?]

theorem posts_snoc_removed (log : List Remark) (commentId : ℕ) :
    posts (log ++ [.removed commentId]) = posts log := by
  simp [posts, Remark.comment?]

namespace Comments.Follows

variable {log : List Remark}

theorem removed (h : c.Follows log) (commentId : ℕ) :
    (c.after (.removed commentId)).Follows (log ++ [.removed commentId]) where
  kept before p rest hlog hkept := by
    rcases snoc_eq_append_cons hlog with ⟨-, hr⟩ | ⟨earlier, rfl, hlast⟩
    · cases hr
    · rw [List.mem_append, List.mem_singleton, not_or] at hkept
      have hne : p.id ≠ commentId := fun h => hkept.2 (h ▸ rfl)
      exact (Function.update_of_ne hne _ _).trans
        (h.kept before p earlier hlast hkept.1)
  distinct := by
    rw [posts_snoc_removed]
    exact h.distinct
  positive := h.positive
  below := by
    rw [posts_snoc_removed]
    exact h.below
  started := by
    rw [posts_snoc_removed]
    exact h.started
  posted k p hk := by
    rw [posts_snoc_removed]
    change Function.update c.stored commentId none k = some p at hk
    by_cases hkey : k = commentId
    · rw [hkey, Function.update_self] at hk
      cases hk
    · rw [Function.update_of_ne hkey] at hk
      exact h.posted k p hk

/-- All comments so far are on the proposal of the new one. -/
theorem same_proposal (h : c.Follows log) {pid : ℕ}
    (hone : ∀ q, q ≠ pid → c.next q = 1) {p : ProposalComment}
    (hp : p ∈ posts log) : p.proposalId = pid := by
  by_contra hne
  exact h.started p hp (hone _ hne)

theorem posted_new (h : c.Follows log) {p : ProposalComment}
    (hid : p.id = c.next p.proposalId)
    (hone : ∀ q, q ≠ p.proposalId → c.next q = 1)
    (hroom : c.next p.proposalId < 2 ^ 128 - 1) :
    (c.after (.posted p)).Follows (log ++ [.posted p]) := by
  have hlt : ∀ q ∈ posts log, q.id < p.id := by
    intro q hq
    rw [hid, ← h.same_proposal hone hq]
    exact h.below q hq
  have hnext : (c.after (.posted p)).next p.proposalId = p.id + 1 := by
    show Function.update c.next p.proposalId _ p.proposalId = _
    rw [Function.update_self]
    omega
  have hposts : ∀ q ∈ posts (log ++ [.posted p]),
      q.proposalId = p.proposalId ∧ q.id ≤ p.id := by
    intro q hq
    rw [posts_snoc_posted, List.mem_append, List.mem_singleton] at hq
    rcases hq with hq | rfl
    · exact ⟨h.same_proposal hone hq, (hlt q hq).le⟩
    · exact ⟨rfl, le_rfl⟩
  constructor
  case kept =>
    intro before q rest hlog hkept
    rcases snoc_eq_append_cons hlog with ⟨-, hr⟩ | ⟨earlier, rfl, hlast⟩
    · obtain rfl := Remark.posted.inj hr
      exact Function.update_self ..
    · rw [List.mem_append, not_or] at hkept
      have hq : q ∈ posts log := by simp [hlast]
      exact (Function.update_of_ne (hlt q hq).ne _ _).trans
        (h.kept before q earlier hlast hkept.1)
  case distinct =>
    rw [posts_snoc_posted, List.map_append, List.nodup_append]
    refine ⟨h.distinct, List.nodup_singleton _, ?_⟩
    intro k hk k' hk'
    obtain ⟨q, hq, rfl⟩ := List.mem_map.mp hk
    rw [List.map_singleton, List.mem_singleton] at hk'
    exact hk' ▸ (hlt q hq).ne
  case positive =>
    intro q
    by_cases hq : q = p.proposalId
    · rw [hq, hnext]
      exact Nat.succ_pos _
    · exact (h.positive q).trans_eq (Function.update_of_ne hq _ _).symm
  case below =>
    intro q hq
    obtain ⟨hsame, hle⟩ := hposts q hq
    rw [hsame, hnext]
    omega
  case started =>
    intro q hq
    have hpos := h.positive p.proposalId
    rw [(hposts q hq).1, hnext, hid]
    omega
  case posted =>
    intro k q hk
    rw [posts_snoc_posted, List.mem_append, List.mem_singleton]
    change Function.update c.stored p.id (some p) k = some q at hk
    by_cases hkey : k = p.id
    · rw [hkey, Function.update_self, Option.some.injEq] at hk
      exact .inr hk.symm
    · rw [Function.update_of_ne hkey] at hk
      exact .inl (h.posted k q hk)

end Comments.Follows

/-! ## Runs -/

/-- Only a call that posts it makes a comment. -/
theorem mem_remarks {l : Label Entry} {p : ProposalComment}
    (h : .posted p ∈ remarks self w l) : ∃ signers, l =
      .call signers (.addComment p.author p.proposalId p.text p.replyTo) := by
  unfold remarks at h
  split at h
  · split at h
    · obtain rfl := Remark.posted.inj (List.mem_singleton.mp h)
      exact ⟨_, rfl⟩
    · cases h
  · cases List.mem_singleton.mp h
  · cases h

theorem step_follows {l : Label Entry} {log : List Remark}
    (hc : w.machine.store.comments.Follows log)
    (h : ((system self).restrict OneDiscussion).Step w l w') :
    w'.machine.store.comments.Follows (log ++ remarks self w l) := by
  obtain ⟨hone, h⟩ := h
  rcases step_remarks h with ⟨hnone, hsame⟩ | ⟨r, hr, hadmits, hafter⟩
  · rw [hnone, hsame, List.append_nil]
    exact hc
  · rw [hr, hafter]
    cases r with
    | removed commentId => exact hc.removed commentId
    | posted p =>
        obtain ⟨signers, rfl⟩ := mem_remarks (hr ▸ List.mem_singleton_self _)
        exact hc.posted_new hadmits.1 hone.1 hone.2

/-- A reply is to a comment on the proposal that all comments are on. -/
theorem reply_on_proposal {signers : List Address} {commenter : Address}
    {pid r : ℕ} {text : Bytes} {log : List Remark}
    (hc : w.machine.store.comments.Follows log)
    (h : ((system self).restrict OneDiscussion).Step w
      (.call signers (.addComment commenter pid text (some r))) w') :
    ∃ p, w.machine.store.getComment r = .ok p ∧ p.proposalId = pid := by
  obtain ⟨hone, h⟩ := h
  obtain ⟨-, hexec⟩ := h.exec_eq
  obtain ⟨commentId, hadd⟩ := perform_ok.mp hexec
  obtain ⟨⟨-, hstored⟩, -⟩ := addComment_spec hadd
  obtain ⟨p, hp⟩ := Option.ne_none_iff_exists'.mp (hstored r rfl)
  exact ⟨p, Check.unwrap_ok.mpr hp,
    hc.same_proposal hone.1 (hc.posted r p hp)⟩

/-- The numbers of each discussed proposal begin with one. -/
structure Comments.Numbers (c : Comments) (log : List Remark) : Prop where
  positive : ∀ q, 0 < c.next q
  first : ∀ q, (c.next q ≠ 1 ∨ ∃ p ∈ posts log, p.proposalId = q) →
    ∃ p ∈ posts log, p.proposalId = q ∧ p.id = 1

theorem Comments.Numbers.posted {log : List Remark} (h : c.Numbers log)
    {p : ProposalComment} (hid : p.id = c.next p.proposalId) :
    (c.after (.posted p)).Numbers (log ++ [.posted p]) := by
  have hmono : ∀ q ∈ posts log, q ∈ posts (log ++ [.posted p]) := by
    intro q hq
    rw [posts_snoc_posted]
    exact List.mem_append_left _ hq
  have hown : ∃ q ∈ posts (log ++ [.posted p]),
      q.proposalId = p.proposalId ∧ q.id = 1 := by
    by_cases hone : c.next p.proposalId = 1
    · exact ⟨p, by simp, rfl, hid.trans hone⟩
    · obtain ⟨q, hq, hrest⟩ := h.first p.proposalId (.inl hone)
      exact ⟨q, hmono q hq, hrest⟩
  constructor
  case positive =>
    intro q
    show 0 < Function.update c.next p.proposalId _ q
    by_cases hq : q = p.proposalId
    · rw [hq, Function.update_self]
      omega
    · rw [Function.update_of_ne hq]
      exact h.positive q
  case first =>
    intro q hq
    by_cases hpid : q = p.proposalId
    · exact hpid ▸ hown
    · have hold : c.next q ≠ 1 ∨ ∃ p' ∈ posts log, p'.proposalId = q := by
        rcases hq with hnext | ⟨p', hp', rfl⟩
        · refine .inl fun hone => hnext ?_
          exact (Function.update_of_ne hpid _ _).trans hone
        · rw [posts_snoc_posted, List.mem_append, List.mem_singleton] at hp'
          rcases hp' with hp' | rfl
          · exact .inr ⟨p', hp', rfl⟩
          · exact absurd rfl hpid
      obtain ⟨p', hp', hrest⟩ := h.first q hold
      exact ⟨p', hmono p' hp', hrest⟩

theorem step_numbers {l : Label Entry} {log : List Remark}
    (hc : w.machine.store.comments.Numbers log)
    (h : (system self).Step w l w') :
    w'.machine.store.comments.Numbers (log ++ remarks self w l) := by
  rcases step_remarks h with ⟨hnone, hsame⟩ | ⟨r, hr, hadmits, hafter⟩
  · rw [hnone, hsame, List.append_nil]
    exact hc
  · rw [hr, hafter]
    cases r with
    | removed commentId =>
        refine ⟨hc.positive, fun q hq => ?_⟩
        rw [posts_snoc_removed] at hq ⊢
        exact hc.first q hq
    | posted p => exact hc.posted hadmits.1

theorem outputs_numbers {log : List Remark} (hinit : (system self).Init w₀)
    (hrun : (system self).Outputs (remarks self) w₀ ls w log) :
    w.machine.store.comments.Numbers log := by
  have hstart : w₀.machine.store.comments.Numbers [] := by
    rw [hinit.1]
    refine ⟨fun _ => Nat.one_pos, ?_⟩
    rintro q (hq | ⟨p, hp, -⟩)
    · exact absurd rfl hq
    · cases hp
  simpa using hrun.preserves
    (Q := fun w log => w.machine.store.comments.Numbers log)
    (fun _ _ _ _ hc hstep => step_numbers hc hstep) hstart

theorem outputs_follows {log : List Remark} (hinit : (system self).Init w₀)
    (hrun : ((system self).restrict OneDiscussion).Outputs (remarks self) w₀ ls
      w log) :
    w.machine.store.comments.Follows log := by
  have hstart : w₀.machine.store.comments.Follows [] := by
    rw [hinit.1]
    exact follows_deployed
  simpa using hrun.preserves
    (Q := fun w log => w.machine.store.comments.Follows log)
    (fun _ _ _ _ hc hstep => step_follows hc hstep) hstart

/-- Along every run in which one proposal is discussed, comments are kept until
they are removed, have different numbers, and reply to comments on their own
proposal.  In a run with comments on two proposals, two comments have the same
number. -/
theorem comments_kept (hinit : (system self).Init w₀) :
    (∀ ls w log,
      ((system self).restrict OneDiscussion).Outputs (remarks self) w₀ ls w
        log →
      CommentsKept ((system self).restrict OneDiscussion) w log) ∧
    ∀ ls w log p p', (system self).Outputs (remarks self) w₀ ls w log →
      p ∈ posts log → p' ∈ posts log → p.proposalId ≠ p'.proposalId →
      ¬ CommentsKept (system self) w log := by
  constructor
  · intro ls w log hrun
    have hc := outputs_follows hinit hrun
    refine ⟨?_, hc.distinct, ?_⟩
    · intro before p after hlog hkept
      exact Check.unwrap_ok.mpr (hc.kept before p after hlog hkept)
    · intro signers commenter pid text r w' hstep
      exact reply_on_proposal hc hstep
  · intro ls w log p p' hrun hp hp' hne hkept
    have hc := outputs_numbers hinit hrun
    obtain ⟨q, hq, hqpid, hqid⟩ := hc.first p.proposalId (.inr ⟨p, hp, rfl⟩)
    obtain ⟨q', hq', hqpid', hqid'⟩ :=
      hc.first p'.proposalId (.inr ⟨p', hp', rfl⟩)
    have heq : q = q' :=
      List.inj_on_of_nodup_map hkept.distinct hq hq' (hqid.trans hqid'.symm)
    exact hne (hqpid.symm.trans ((congrArg _ heq).trans hqpid'))

/-! ## Two discussions -/

namespace Scenario

/-- Bob proposes something else. -/
def secondMotion : Label Entry :=
  .call [bob] (.createProposal inOrder bob [78] pool pause [.u32 2]
    [1, 2, 3, 4, 5])

def opinion : ProposalComment := ⟨1, 0, alice, [65], 1000000, none⟩

def objection : ProposalComment := ⟨1, 1, bob, [66], 1000000, none⟩

/-- Alice comments on the first proposal, Bob on the second. -/
def debate : List (Label Entry) :=
  [launch, motion, secondMotion, .call [alice] (.addComment alice 0 [65] none),
    .call [bob] (.addComment bob 1 [66] none)]

def debated : World State :=
  (TransitionSystem.execute (step exec dao) debate genesis).get
    (by decide +kernel)

theorem debated_outputs :
    (system dao).Outputs (remarks dao) genesis debate debated
      [.posted opinion, .posted objection] := by
  have hrun : (system dao).Outputs (remarks dao) genesis debate debated
      (TransitionSystem.emit (step exec dao) (remarks dao) debate genesis) :=
    TransitionSystem.outputs_of_execute (fun _ _ _ => step_sound)
      (Option.some_get _).symm
  have hemit : TransitionSystem.emit (step exec dao) (remarks dao) debate
      genesis = [.posted opinion, .posted objection] := by
    decide +kernel
  exact hemit ▸ hrun

def aliceComments : Label Entry :=
  .call [alice] (.addComment alice 0 [65] none)

def mused : World State :=
  (step exec dao proposed aliceComments).get (by decide +kernel)

theorem mused_outputs :
    ((system dao).restrict OneDiscussion).Outputs (remarks dao) genesis
      [launch, motion, aliceComments] mused [.posted opinion] := by
  have hinit : (system dao).Init genesis := ⟨rfl, rfl⟩
  obtain ⟨t, hlaunch, hrest⟩ := TransitionSystem.run_cons_iff.mp proposed_run
  obtain ⟨u, hmotion, hnil⟩ := TransitionSystem.run_cons_iff.mp hrest
  obtain rfl := TransitionSystem.run_nil_iff.mp hnil
  have hquiet : (system dao).Outputs (remarks dao) genesis [launch, motion]
      proposed [] := .cons hlaunch (.cons hmotion (.nil _))
  have hnumbers := outputs_numbers hinit hquiet
  have hfresh : ∀ q, proposed.machine.store.nextCommentId q = 1 := by
    intro q
    by_contra hq
    obtain ⟨p, hp, -⟩ := hnumbers.first q (.inl hq)
    cases hp
  have hone : OneDiscussion proposed aliceComments :=
    ⟨fun q _ => hfresh q, (hfresh 0).trans_lt (by decide)⟩
  have hremark : remarks dao proposed aliceComments = [.posted opinion] := by
    decide +kernel
  have hlast : ((system dao).restrict OneDiscussion).Outputs (remarks dao)
      proposed [aliceComments] mused (remarks dao proposed aliceComments ++ []) :=
    .cons ⟨hone, step_sound (Option.some_get _).symm⟩ (.nil _)
  rw [hremark] at hlast
  exact .cons ⟨trivial, hlaunch⟩ (.cons ⟨trivial, hmotion⟩ hlast)

/-- Carol replies on the first proposal to the comment on the second. -/
def carolReplies : Label Entry :=
  .call [carol] (.addComment carol 0 [68] (some 1))

def replied : World State :=
  (step exec dao debated carolReplies).get (by decide +kernel)

end Scenario

open Scenario

theorem comments_kept_mused :
    CommentsKept ((system dao).restrict OneDiscussion) mused
        [.posted opinion] ∧
      ¬ CommentsKept (system dao) debated
        [.posted opinion, .posted objection] :=
  ⟨(comments_kept ⟨rfl, rfl⟩).1 _ _ _ mused_outputs,
    (comments_kept ⟨rfl, rfl⟩).2 _ _ _ opinion objection debated_outputs
      (by simp) (by simp) (by decide)⟩

/-- Both comments are given the number 1, which ends up with the second, and a
reply to it is taken on the first proposal. -/
theorem first_comments_collide :
    (system dao).Outputs (remarks dao) genesis debate debated
      [.posted opinion, .posted objection] ∧
    debated.machine.store.getComment 1 = .ok objection ∧
    (system dao).Step debated carolReplies replied ∧
    ¬ (debated.machine.store.getComment opinion.id = .ok opinion) ∧
    ¬ ((posts [.posted opinion, .posted objection]).map
      ProposalComment.id).Nodup ∧
    ¬ ∃ p, debated.machine.store.getComment 1 = .ok p ∧ p.proposalId = 0 := by
  have hlast : debated.machine.store.getComment 1 = .ok objection :=
    Check.unwrap_ok.mpr (by decide +kernel)
  refine ⟨debated_outputs, hlast, step_sound (Option.some_get _).symm, ?_,
    by decide, ?_⟩
  · rw [show opinion.id = 1 from rfl, hlast, Except.ok.injEq]
    decide
  · rintro ⟨p, hp, hpid⟩
    rw [hlast, Except.ok.injEq] at hp
    subst hp
    cases hpid

end Parashield.GovernanceDao
