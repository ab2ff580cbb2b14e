import ProofOfHeart.Account.Turn
import ProofOfHeart.Board.Entries
import ProofOfHeart.Lib.Collected
import ProofOfHeart.Lib.Marks

/-! # Censured comments

The record of a comment is that of its first censure since it was last lifted, and the
counter of a campaign is the number of its comments that have a record.
-/

namespace ProofOfHeart

open Checked Function Table Trace Collected Marks

variable {host : Host} {tr : List Receipt} {cfg : Config} {c n n' : Nat} {hash : Digest}
  {env : Env} {s s' : State} {r : Receipt} {call : Call}
  {marks marks' : Digest → Option CommentCensure}

/-! ## Censures in a history -/

/-- The comment that the call is about, by campaign and hash. -/
def Call.comment : Call → Option (Nat × Digest)
  | .censureComment c hash _ | .uncensureComment c hash => some (c, hash)
  | _ => none

/-- The record that the call enters for the comment if it has none. -/
def Receipt.censure (c : Nat) (hash : Digest) (r : Receipt) : Option CommentCensure :=
  match r.call with
  | .censureComment id commentHash reason =>
      if id = c ∧ commentHash = hash then
        r.pre.admin.admin.map fun admin =>
          { reason := reason, censuredAt := r.env.timestamp, admin := admin }
      else none
  | _ => none

def Receipt.lifts (c : Nat) (hash : Digest) (r : Receipt) : Bool :=
  r.call = .uncensureComment c hash

/-- The record of the first censure since the comment was last lifted. -/
def standing (c : Nat) (hash : Digest) (tr : List Receipt) : Option CommentCensure :=
  first (Receipt.censure c hash) (Receipt.lifts c hash) tr

/-- The comments on campaign `c` that have ever been censured. -/
def everCensured (c : Nat) (tr : List Receipt) : Set Digest :=
  {hash | ∃ r ∈ tr, ∃ reason, r.call = .censureComment c hash reason}

theorem standing_quiet (h : r.call.comment ≠ some (c, hash)) :
    standing c hash (r :: tr) = standing c hash tr := by
  refine first_quiet ?_ ?_
  · unfold Receipt.censure
    split
    next id commentHash reason hcall =>
        rw [if_neg]
        rintro ⟨rfl, rfl⟩
        exact h (by rw [hcall]; rfl)
    next => rfl
  · refine decide_eq_false fun hcall => h ?_
    rw [hcall]
    rfl

theorem standing_lifted (h : r.call = .uncensureComment c hash) :
    standing c hash (r :: tr) = none := first_of_clears (decide_eq_true h)

theorem standing_censured {reason : Text} (h : r.call = .censureComment c hash reason) :
    standing c hash (r :: tr) = (standing c hash tr).or (r.censure c hash) := by
  refine first_cons (decide_eq_false fun hcall => ?_)
  rw [h] at hcall
  cases hcall

theorem standing_mem {record : CommentCensure} (h : standing c hash tr = some record) :
    hash ∈ everCensured c tr := by
  obtain ⟨r, hr, hcensure⟩ := mem_of_first h
  unfold Receipt.censure at hcensure
  split at hcensure
  next id commentHash reason hcall =>
      split at hcensure
      next heq =>
          obtain ⟨rfl, rfl⟩ := heq
          exact ⟨r, hr, reason, hcall⟩
      next => cases hcensure
  next => cases hcensure

/-- No call censures more than one comment. -/
theorem everCensured_le (c : Nat) : (everCensured c tr).encard ≤ tr.length := by
  induction tr with
  | nil => simp [everCensured]
  | cons r tr ih =>
      have hsplit : everCensured c (r :: tr) ⊆
          everCensured c tr ∪ {hash | ∃ reason, r.call = .censureComment c hash reason} := by
        rintro hash ⟨x, hx, hcall⟩
        rcases List.mem_cons.mp hx with rfl | hx
        · exact .inr hcall
        · exact .inl ⟨x, hx, hcall⟩
      have hone : {hash | ∃ reason, r.call = .censureComment c hash reason}.encard ≤ 1 := by
        refine Set.encard_le_one_iff.mpr ?_
        rintro hash other ⟨_, hcall⟩ ⟨_, hcall'⟩
        exact (Call.censureComment.inj (hcall.symm.trans hcall')).2.1
      calc (everCensured c (r :: tr)).encard
          ≤ (everCensured c tr).encard + _ :=
            (Set.encard_le_encard hsplit).trans (Set.encard_union_le _ _)
        _ ≤ tr.length + 1 := add_le_add ih hone
        _ = (r :: tr).length := by rw [List.length_cons, Nat.cast_succ]

theorem everCensured_cons : everCensured c tr ⊆ everCensured c (r :: tr) :=
  fun _ ⟨x, hx, hcall⟩ => ⟨x, List.mem_cons_of_mem _ hx, hcall⟩

/-! ## One call -/

/-- What a call does to the records and the counter of campaign `c`. -/
inductive Moderation (r : Receipt) (c : Nat) :
    (Digest → Option CommentCensure) → Nat → (Digest → Option CommentCensure) → Nat → Prop
  | censured {marks : Digest → Option CommentCensure} {n : Nat} {hash : Digest} {reason : Text}
      {record : CommentCensure} (hcall : r.call = .censureComment c hash reason)
      (free : marks hash = none) (entered : r.censure c hash = some record) :
      Moderation r c marks n (update marks hash (some record)) (Word.saturatingAdd 32 n 1)
  | repeated {marks : Digest → Option CommentCensure} {n : Nat} {hash : Digest} {reason : Text}
      {record : CommentCensure} (hcall : r.call = .censureComment c hash reason)
      (held : marks hash = some record) : Moderation r c marks n marks n
  | lifted {marks : Digest → Option CommentCensure} {n : Nat} {hash : Digest}
      {record : CommentCensure} (hcall : r.call = .uncensureComment c hash)
      (held : marks hash = some record) : Moderation r c marks n (update marks hash none) (n - 1)
  | idle {marks : Digest → Option CommentCensure} {n : Nat} {hash : Digest}
      (hcall : r.call = .uncensureComment c hash) (free : marks hash = none) :
      Moderation r c marks n marks n
  | other {marks : Digest → Option CommentCensure} {n : Nat}
      (hother : ∀ hash, r.call.comment ≠ some (c, hash)) : Moderation r c marks n marks n

theorem Call.comment_ne {id : Nat} {other : Digest} (h : call.comment = some (id, other))
    (hne : c ≠ id ∨ hash ≠ other) : call.comment ≠ some (c, hash) := by
  intro hsame
  obtain ⟨hid, hhash⟩ := Prod.mk.inj (Option.some.inj (hsame.symm.trans h))
  exact hne.elim (fun hne => hne hid) fun hne => hne hhash

theorem EntryStep.moderation {b : Board} (h : EntryStep r.env s call b) (hcall : r.call = call)
    (hadmin : s.admin = r.pre.admin) : Moderation r c ((board s).censured c)
      ((board s).censuredCount c) (b.censured c) (b.censuredCount c) := by
  cases h with
  | @censure admin id hash reason byAdmin created =>
      unfold Board.censure
      by_cases hc : c = id
      · subst hc
        cases hheld : (board s).censured c hash with
        | some record => exact .repeated hcall hheld
        | none =>
            dsimp only
            rw [put_row_self, update_self]
            refine .censured hcall hheld ?_
            have hstored : r.pre.admin.admin = some admin := hadmin ▸ byAdmin.1
            rw [Receipt.censure, hcall, hstored]
            exact if_pos ⟨rfl, rfl⟩
      · have hother : ∀ other, r.call.comment ≠ some (c, other) := by
          rw [hcall]
          exact fun other => Call.comment_ne rfl (.inl hc)
        cases hheld : (board s).censured id hash with
        | some record => exact .other hother
        | none =>
            dsimp only
            rw [put_row_of_ne hc, update_of_ne hc]
            exact .other hother
  | @uncensure admin id hash byAdmin created =>
      unfold Board.uncensure
      by_cases hc : c = id
      · subst hc
        cases hheld : (board s).censured c hash with
        | none => exact .idle hcall hheld
        | some record =>
            dsimp only
            rw [put_row_self, update_self]
            exact .lifted hcall hheld
      · have hother : ∀ other, r.call.comment ≠ some (c, other) := by
          rw [hcall]
          exact fun other => Call.comment_ne rfl (.inl hc)
        cases hheld : (board s).censured id hash with
        | none => exact .other hother
        | some record =>
            dsimp only
            rw [put_row_of_ne hc, update_of_ne hc]
            exact .other hother
  | _ =>
      refine .other fun hash hsome => ?_
      rw [hcall] at hsome
      cases hsome

theorem Receipt.Valid.moderation (h : r.Valid host) (conf : (view r.pre).Configured) (c : Nat) :
    Moderation r c (r.pre.campaigns.commentCensured c) (r.pre.campaigns.campaignCensuredCount c)
      (r.post.campaigns.commentCensured c) (r.post.campaigns.campaignCensuredCount c) := by
  have hdispatch := h.dispatched
  by_cases hsets : r.call.setsEntries = true
  · exact (dispatch_entry hsets hdispatch).moderation rfl rfl
  · rcases dispatch_entries (h.not_deploys conf) hdispatch with ⟨-, -, ⟨hmarks, hcount⟩, -⟩ | hentry
    · have hkept : r.post.campaigns.commentCensured = r.pre.campaigns.commentCensured := hmarks
      have hsame : r.post.campaigns.campaignCensuredCount =
          r.pre.campaigns.campaignCensuredCount := hcount
      rw [hkept, hsame]
      refine .other fun hash hsome => hsets ?_
      cases hcall : r.call with
      | censureComment | uncensureComment => rfl
      | _ =>
          rw [hcall] at hsome
          cases hsome
    · exact hentry.moderation rfl rfl

/-- The records follow the history. -/
theorem Moderation.standing (h : Moderation r c marks n marks' n')
    (hstanding : ∀ hash, marks hash = standing c hash tr) (hash : Digest) :
    marks' hash = standing c hash (r :: tr) := by
  have quiet : ∀ {other : Digest}, r.call.comment = some (c, other) → hash ≠ other →
      ProofOfHeart.standing c hash (r :: tr) = marks hash := fun hcomment hne => by
    rw [standing_quiet (Call.comment_ne hcomment (.inr hne)), hstanding]
  cases h with
  | @censured other reason record hcall free entered =>
      by_cases heq : hash = other
      · subst heq
        rw [standing_censured hcall, ← hstanding, free, update_self, entered, Option.none_or]
      · rw [update_of_ne heq, quiet (by rw [hcall]; rfl) heq]
  | @repeated other reason record hcall held =>
      by_cases heq : hash = other
      · subst heq
        rw [standing_censured hcall, ← hstanding, held, Option.some_or]
      · rw [quiet (by rw [hcall]; rfl) heq]
  | @lifted other record hcall held =>
      by_cases heq : hash = other
      · subst heq
        rw [standing_lifted hcall, update_self]
      · rw [update_of_ne heq, quiet (by rw [hcall]; rfl) heq]
  | @idle other hcall free =>
      by_cases heq : hash = other
      · subst heq
        rw [standing_lifted hcall, free]
      · rw [quiet (by rw [hcall]; rfl) heq]
  | other hother => rw [standing_quiet (hother hash), hstanding]

/-- The counter of campaign `c` moves by one with each record that comes or goes. -/
structure Receipt.CountsComments (c : Nat) (r : Receipt) : Prop where
  censured : ∀ hash reason, r.call = .censureComment c hash reason →
    r.pre.campaigns.commentCensured c hash = none →
    r.post.campaigns.campaignCensuredCount c = r.pre.campaigns.campaignCensuredCount c + 1
  lifted : ∀ hash record, r.call = .uncensureComment c hash →
    r.pre.campaigns.commentCensured c hash = some record →
    r.post.campaigns.campaignCensuredCount c + 1 = r.pre.campaigns.campaignCensuredCount c

/-- While there is room for all comments no operation of the counter saturates. -/
theorem Moderation.counts (h : Moderation r c marks n marks' n') (counts : Counts marks n)
    (room : (marked marks').encard < 2 ^ 32) : Counts marks' n' ∧
      (∀ hash reason, r.call = .censureComment c hash reason → marks hash = none → n' = n + 1) ∧
      ∀ hash record, r.call = .uncensureComment c hash → marks hash = some record →
        n' + 1 = n := by
  cases h with
  | @censured hash reason record hcall free entered =>
      have hmark : Counts (update marks hash (some record)) (n + 1) := counts.mark free
      have hfits : n + 1 < 2 ^ 32 := by
        rw [hmark] at room
        exact_mod_cast room
      rw [Word.saturatingAdd_eq hfits]
      refine ⟨hmark, fun _ _ _ _ => rfl, fun _ _ hlift => ?_⟩
      rw [hcall] at hlift
      cases hlift
  | @repeated hash reason record hcall held =>
      refine ⟨counts, fun other _ hcensure hfree => ?_, fun _ _ hlift => ?_⟩
      · obtain ⟨-, rfl, -⟩ := Call.censureComment.inj (hcall.symm.trans hcensure)
        rw [held] at hfree
        cases hfree
      · rw [hcall] at hlift
        cases hlift
  | @lifted hash record hcall held =>
      obtain ⟨hone, hunmark⟩ := counts.unmark held
      refine ⟨hunmark, fun _ _ hcensure => ?_, fun _ _ _ _ => hone⟩
      rw [hcall] at hcensure
      cases hcensure
  | @idle hash hcall free =>
      refine ⟨counts, fun _ _ hcensure => ?_, fun other _ hlift hheld => ?_⟩
      · rw [hcall] at hcensure
        cases hcensure
      · obtain ⟨-, rfl⟩ := Call.uncensureComment.inj (hcall.symm.trans hlift)
        rw [free] at hheld
        cases hheld
  | other hother =>
      refine ⟨counts, fun hash _ hcensure => ?_, fun hash _ hlift => ?_⟩
      · exact absurd (by rw [hcensure]; rfl) (hother hash)
      · exact absurd (by rw [hlift]; rfl) (hother hash)

/-! ## Calls that change nothing -/

theorem censureComment_repeated {admin : Address} {reason : Text} {record : CommentCensure}
    (held : s.campaigns.commentCensured c hash = some record)
    (h : censureComment env s admin c hash reason = .ok s') : s' = s := by
  simp only [censureComment, held, bind_eq_ok, pure_eq_ok] at h
  obtain ⟨_, -, _, -, _, -, _, -, rfl⟩ := h
  rfl

theorem uncensureComment_idle {admin : Address}
    (free : s.campaigns.commentCensured c hash = none)
    (h : uncensureComment env s admin c hash = .ok s') : s' = s := by
  simp only [uncensureComment, free, bind_eq_ok, pure_eq_ok] at h
  obtain ⟨_, -, _, -, _, -, rfl⟩ := h
  rfl

/-- A repeated call changes nothing in the store, and no call changes the record of a
comment or the counter of a campaign that it is not about. -/
structure Receipt.Moderates (r : Receipt) : Prop where
  repeated : ∀ c hash reason record, r.call = .censureComment c hash reason →
    r.pre.campaigns.commentCensured c hash = some record → r.post = r.pre.clearMoved
  idle : ∀ c hash, r.call = .uncensureComment c hash →
    r.pre.campaigns.commentCensured c hash = none → r.post = r.pre.clearMoved
  records : ∀ c hash, r.call.comment ≠ some (c, hash) →
    r.post.campaigns.commentCensured c hash = r.pre.campaigns.commentCensured c hash
  counters : ∀ c, (∀ hash, r.call.comment ≠ some (c, hash)) →
    r.post.campaigns.campaignCensuredCount c = r.pre.campaigns.campaignCensuredCount c

theorem Moderation.records (h : Moderation r c marks n marks' n')
    (hother : r.call.comment ≠ some (c, hash)) : marks' hash = marks hash := by
  cases h with
  | @censured other reason record hcall =>
      refine update_of_ne ?_ _ _
      rintro rfl
      exact hother (by rw [hcall]; rfl)
  | @lifted other record hcall =>
      refine update_of_ne ?_ _ _
      rintro rfl
      exact hother (by rw [hcall]; rfl)
  | _ => rfl

theorem Moderation.counters (h : Moderation r c marks n marks' n')
    (hother : ∀ hash, r.call.comment ≠ some (c, hash)) : n' = n := by
  cases h with
  | @censured hash reason record hcall => exact absurd (by rw [hcall]; rfl) (hother hash)
  | @lifted hash record hcall => exact absurd (by rw [hcall]; rfl) (hother hash)
  | _ => rfl

theorem Receipt.Valid.moderates (h : r.Valid host) (conf : (view r.pre).Configured) :
    r.Moderates where
  repeated c hash reason record hcall held := by
    have hdispatch := h.dispatched
    rw [hcall] at hdispatch
    obtain ⟨admin, -, hcensure⟩ := bind_eq_ok.mp hdispatch
    exact censureComment_repeated (s := r.pre.clearMoved) held hcensure
  idle c hash hcall free := by
    have hdispatch := h.dispatched
    rw [hcall] at hdispatch
    obtain ⟨admin, -, hlift⟩ := bind_eq_ok.mp hdispatch
    exact uncensureComment_idle (s := r.pre.clearMoved) free hlift
  records c _ hother := (h.moderation conf c).records hother
  counters c hother := (h.moderation conf c).counters hother

/-! ## Along a run -/

theorem run_standing (run : Run (machine host) tr cfg) (c : Nat) :
    ∀ hash, cfg.state.campaigns.commentCensured c hash = standing c hash tr := by
  refine run.invariant (I := fun tr cfg =>
    ∀ hash, cfg.state.campaigns.commentCensured c hash = standing c hash tr) ?_ ?_ ?_
  · intro r cfg hstart hash
    have hempty : cfg.state.campaigns.commentCensured c hash = none :=
      congrArg (fun b : Board => b.censured c hash) (start_board hstart)
    obtain ⟨-, -, ⟨admin, token, platformFee, hcall⟩, -⟩ := hstart
    rw [hempty, standing_quiet (by rw [hcall]; exact nofun)]
    rfl
  · rintro tr cfg r cfg' run ih ⟨hvalid, -, hpre, rfl⟩
    have sane := run_sane run
    rw [← hpre] at sane ih
    exact (hvalid.moderation sane.toConfigured c).standing ih
  · rintro tr cfg cfg' ih ⟨tokens, -, rfl⟩
    exact ih

/-- What has a record was censured at some time. -/
theorem run_marked (run : Run (machine host) tr cfg) :
    marked (cfg.state.campaigns.commentCensured c) ⊆ everCensured c tr := by
  rintro hash ⟨record, hrecord⟩
  exact standing_mem ((run_standing run c hash).symm.trans hrecord)

theorem run_counts_comments (run : Run (machine host) tr cfg) (c : Nat) :
    (everCensured c tr).encard < 2 ^ 32 →
      Counts (cfg.state.campaigns.commentCensured c)
          (cfg.state.campaigns.campaignCensuredCount c) ∧
        ∀ r ∈ tr, r.CountsComments c := by
  refine run.invariant (I := fun tr cfg => (everCensured c tr).encard < 2 ^ 32 →
    Counts (cfg.state.campaigns.commentCensured c)
        (cfg.state.campaigns.campaignCensuredCount c) ∧
      ∀ r ∈ tr, r.CountsComments c) ?_ ?_ ?_
  · intro r cfg hstart _
    have hempty : cfg.state.campaigns.commentCensured c = fun _ => none :=
      congrArg (fun b : Board => b.censured c) (start_board hstart)
    have hzero : cfg.state.campaigns.campaignCensuredCount c = 0 :=
      congrArg (fun b : Board => b.censuredCount c) (start_board hstart)
    obtain ⟨-, -, ⟨admin, token, platformFee, hcall⟩, -⟩ := hstart
    rw [hempty, hzero, List.forall_mem_singleton]
    refine ⟨.empty, fun hash reason hcensure => ?_, fun hash record hlift => ?_⟩
    · rw [hcall] at hcensure
      cases hcensure
    · rw [hcall] at hlift
      cases hlift
  · rintro tr cfg r cfg' run ih ⟨hvalid, hledger, hpre, rfl⟩ hfew
    have hmarked : marked (r.post.campaigns.commentCensured c) ⊆ everCensured c (r :: tr) :=
      run_marked (run.step ⟨hvalid, hledger, hpre, rfl⟩)
    have sane := run_sane run
    rw [← hpre] at sane ih
    obtain ⟨counts, hearlier⟩ := ih ((Set.encard_le_encard everCensured_cons).trans_lt hfew)
    obtain ⟨hcounts, hcensured, hlifted⟩ := (hvalid.moderation sane.toConfigured c).counts counts
      ((Set.encard_le_encard hmarked).trans_lt hfew)
    exact ⟨hcounts, List.forall_mem_cons.mpr ⟨⟨hcensured, hlifted⟩, hearlier⟩⟩
  · rintro tr cfg cfg' ih ⟨tokens, -, rfl⟩
    exact ih

theorem run_moderates (run : Run (machine host) tr cfg) : ∀ r ∈ tr, r.Moderates := by
  refine run_receipts ?_ ?_ run
  · intro r cfg hstart
    have hblank := start_board hstart
    obtain ⟨-, ⟨tokens, hpre⟩, ⟨admin, token, platformFee, hcall⟩, rfl⟩ := hstart
    refine ⟨fun c hash reason record hcensure => ?_, fun c hash hlift => ?_, fun c hash _ => ?_,
      fun c _ => ?_⟩
    · rw [hcall] at hcensure
      cases hcensure
    · rw [hcall] at hlift
      cases hlift
    · rw [hpre]
      exact congrArg (fun b : Board => b.censured c hash) hblank
    · rw [hpre]
      exact congrArg (fun b : Board => b.censuredCount c) hblank
  · intro tr cfg r run hvalid hpre
    have sane := run_sane run
    rw [← hpre] at sane
    exact hvalid.moderates sane.toConfigured

/-- The record of a comment is that of its first censure since it was last lifted, and
while there is room for all comments of a campaign its counter is the number of those that
have a record. -/
theorem censures_agree (run : Run (machine host) tr cfg) :
    (∀ r ∈ tr, r.Moderates) ∧
      (∀ c hash, cfg.state.campaigns.commentCensured c hash = standing c hash tr) ∧
      ∀ c, (everCensured c tr).encard < 2 ^ 32 →
        Counts (cfg.state.campaigns.commentCensured c)
            (cfg.state.campaigns.campaignCensuredCount c) ∧
          ∀ r ∈ tr, r.CountsComments c :=
  ⟨run_moderates run, run_standing run, run_counts_comments run⟩

/-- One comment is censured twice, another one is censured and lifted. -/
def Sample.censured : List Request :=
  opened 0 ++ [ask 1 admin (.censureComment 1 [10] [1]), ask 2 admin (.censureComment 1 [10] [2]),
    ask 3 admin (.censureComment 1 [11] [3]), ask 4 admin (.uncensureComment 1 [11])]

theorem censures_sample :
    ∃ tr cfg, Run (machine Sample.host) tr cfg ∧
      cfg.state.campaigns.commentCensured 1 [10] =
        some { reason := [1], censuredAt := 1, admin := Sample.admin } ∧
      Counts (cfg.state.campaigns.commentCensured 1) 1 := by
  have h : Sample.Ends 300 Sample.censured fun tr cfg =>
      standing 1 [10] tr = some { reason := [1], censuredAt := 1, admin := Sample.admin } ∧
        cfg.state.campaigns.campaignCensuredCount 1 = 1 ∧ tr.length = 7 := by
    decide +kernel
  obtain ⟨tr, cfg, run, hfirst, hone, hlength⟩ := h.run
  obtain ⟨-, hstanding, hcounts⟩ := censures_agree run
  have hroom : (everCensured 1 tr).encard < 2 ^ 32 := by
    refine (everCensured_le 1).trans_lt ?_
    rw [hlength]
    exact_mod_cast (by decide : 7 < 2 ^ 32)
  obtain ⟨counts, -⟩ := hcounts 1 hroom
  rw [hone] at counts
  exact ⟨tr, cfg, run, (hstanding 1 [10]).trans hfirst, counts⟩

end ProofOfHeart
