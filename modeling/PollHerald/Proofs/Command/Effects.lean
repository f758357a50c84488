import PollHerald.Proofs.Command.Reply
import PollHerald.Proofs.Hub.Attempt

set_option autoImplicit false

/-! What is exchanged with the hub for a mention. The author is looked up, then the mention is read
anew and its names are looked up, and then the answer goes out, each only where all before it
succeeded. Mentions are worked on one after another, whatever became of those before. -/

namespace PollHerald.Command

open Hub

/-- Accounts in ascending order: those that a cast mentions, without the mention of the reader at
the very front. -/
structure NeedsNames (own : Fid) (cast : RawCast) (fids : List Fid) : Prop where
  ascending : fids.Pairwise (· < ·)
  mem_iff : ∀ fid, fid ∈ fids ↔
    ∃ offset, (fid, offset) ∈ cast.mentions.zip cast.positions ∧ ¬ (offset = 0 ∧ fid = own)

theorem needsNames_fidsToResolve (own : Fid) (cast : RawCast) :
    NeedsNames own cast (Mention.fidsToResolve own cast.mentions cast.positions) where
  ascending := Mention.ascending_fidsToResolve own cast.mentions cast.positions
  mem_iff := by
    intro fid
    simp only [Mention.mem_fidsToResolve, Mention.isSuppressed, Bool.and_eq_false_iff,
      beq_eq_false_iff_ne, not_and_or]

/-- Whether a mention asks for a poll within the limits. -/
def Asks (limits : Poll.Limits) (mention : Mention) : Prop :=
  mention.isMention = true ∧ ∃ poll, Poll.parse limits mention.text = .ok poll

/-- The account that reads a mention anew. -/
def reader (identity : Option Identity) : Fid :=
  (identity.map Identity.fid).getD 0

/-- All that may be asked for a mention: its author, the mention anew, the names in it, and at last
the answer. -/
def sequence (mention : Mention) (fids : List Fid) (bytes : List UInt8) : List Request :=
  lookup mention.author ++
    .castById mention.author mention.hash :: (fids.flatMap lookup ++ [.submit bytes])

/-- What is exchanged for a poll where no request fails: the author is looked up, the names in the
mention that was read anew are, and the answer goes out if it can be signed. -/
structure Completes (hub : List Exchange → Request → Answer) (past : List Exchange)
    (identity : Option Identity) (now : Nat) (template : Option String) (mention : Mention)
    (exchanges : List Exchange) : Prop where
  author : lookup mention.author <+: exchanges.map Exchange.request
  answer : ∀ pattern, template = some pattern → ∃ read, exchanges[2]? = some read ∧
    ∀ cast, read.Shows cast → ∃ fids, NeedsNames (reader identity) cast fids ∧
      lookup mention.author ++ .castById mention.author mention.hash :: fids.flatMap lookup <+:
        exchanges.map Exchange.request ∧
      ∀ target known message,
        ((normalize [] (reader identity) cast).record hub
          ((exchanges.take 3).reverse ++ past)).value = .ok (target, known) →
        signReply identity now target (announcementDraft (pollUrl pattern mention.hash)) =
          .ok message →
        exchanges.map Exchange.request = sequence mention fids message.encode

/-- What is exchanged with the hub for one mention. -/
structure Effects (hub : List Exchange → Request → Answer) (past : List Exchange)
    (limits : Poll.Limits) (identity : Option Identity) (now : Nat) (template : Option String)
    (mention : Mention) (exchanges : List Exchange) : Prop where
  silent : ¬ Asks limits mention → exchanges = []
  ordered : ∃ fids bytes, exchanges.map Exchange.request <+: sequence mention fids bytes ∧
    ∀ read cast, exchanges[2]? = some read → read.Shows cast →
      NeedsNames (reader identity) cast fids
  unbroken : ∀ front exchange back, exchanges = front ++ exchange :: back → back ≠ [] →
    exchange.Succeeds
  rereads : 2 < exchanges.length →
    template.isSome ∧ ∃ author, ((profile mention.author).record hub past).value = .ok author
  names : 3 < exchanges.length → ∃ read cast, exchanges[2]? = some read ∧ read.Shows cast
  submits : ∀ front exchange back bytes, exchanges = front ++ exchange :: back →
    exchange.request = .submit bytes →
      back = [] ∧ (∀ earlier ∈ front, earlier.Succeeds) ∧
        ∃ read cast found, exchanges[2]? = some read ∧ read.Shows cast ∧
          ((normalize [] (reader identity) cast).record hub
            ((exchanges.take 3).reverse ++ past)).value = .ok found
  once : exchanges.countP (fun exchange => exchange.request.body?.isSome) ≤ 1
  complete : Asks limits mention → (∀ exchange ∈ exchanges, exchange.Succeeds) →
    Completes hub past identity now template mention exchanges

section Answer

variable (hub : List Exchange → Request → Answer) (past : List Exchange)
variable (identity : Option Identity) (now : Nat) (mention : Mention) (url : String)

def rereading : Exchange :=
  reading hub past mention.author mention.hash

/-- The course in which a cast that was read anew is written out for people. -/
def writing (cast : RawCast) : Dialogue.Record (Except Hub.Error (Mention × Names)) :=
  (normalize [] (reader identity) cast).record hub (rereading hub past mention :: past)

/-- The requests of an answer behind the one that reads the mention anew: whose names they look up,
and what they hand over, if anything. -/
structure Plans (fids : List Fid) (post : List Request) : Prop where
  names : ∀ cast, (rereading hub past mention).Shows cast → NeedsNames (reader identity) cast fids
  unshown : (∀ cast, ¬ (rereading hub past mention).Shows cast) → fids = [] ∧ post = []
  only : ∃ bytes, post <+: [.submit bytes]
  written : post ≠ [] → ∃ cast found, (rereading hub past mention).Shows cast ∧
    (writing hub past identity mention cast).value = .ok found
  posts : ∀ cast target known message, (rereading hub past mention).Shows cast →
    (writing hub past identity mention cast).value = .ok (target, known) →
      signReply identity now target (announcementDraft url) = .ok message →
        post = [.submit message.encode]

variable {hub past identity now mention url}

theorem plans_of_shown {cast : RawCast} {post : List Request}
    (shows : (rereading hub past mention).Shows cast) (only : ∃ bytes, post <+: [.submit bytes])
    (written : post ≠ [] → ∃ found, (writing hub past identity mention cast).value = .ok found)
    (posts : ∀ target known message,
      (writing hub past identity mention cast).value = .ok (target, known) →
        signReply identity now target (announcementDraft url) = .ok message →
          post = [.submit message.encode]) :
    Plans hub past identity now mention url
      (Mention.fidsToResolve (reader identity) cast.mentions cast.positions) post where
  names := by
    intro other showsOther
    cases shows.unique showsOther
    exact needsNames_fidsToResolve (reader identity) cast
  unshown := fun none => absurd shows (none cast)
  only := only
  written := by
    intro posted
    obtain ⟨found, succeeds⟩ := written posted
    exact ⟨cast, found, shows, succeeds⟩
  posts := by
    intro other target known message showsOther
    cases shows.unique showsOther
    exact posts target known message

theorem plans_of_unshown (none : ∀ cast, ¬ (rereading hub past mention).Shows cast) :
    Plans hub past identity now mention url [] [] where
  names := fun cast shows => absurd shows (none cast)
  unshown := fun _ => ⟨rfl, rfl⟩
  only := ⟨[], List.nil_prefix⟩
  written := absurd rfl
  posts := fun cast _ _ _ shows => absurd shows (none cast)

theorem answerAnew_planned : ∃ fids post rest, Plans hub past identity now mention url fids post ∧
    ((answerAnew identity now mention url).record hub past).exchanges =
      rereading hub past mention :: rest ∧
    Attempted (.castById mention.author mention.hash :: (fids.flatMap lookup ++ post))
      (rereading hub past mention :: rest) := by
  unfold answerAnew
  -- Either no cast is shown, or it cannot be written out, or the answer is signed or not.
  by_cases shown : ∃ cast, (rereading hub past mention).Shows cast
  · obtain ⟨cast, shows⟩ := shown
    obtain ⟨exchanges, value⟩ := castById_of_shown hub past identity mention.author mention.hash
      shows
    have reread : (rereading hub past mention).Succeeds := shows.succeeds rfl
    have lookups := attempted_normalize hub (rereading hub past mention :: past) (reader identity)
      cast
    cases written : (writing hub past identity mention cast).value with
    | error error =>
        have fails := value.trans (congrArg (Except.map Prod.fst) written)
        rw [Hub.Task.record_bind_of_error hub past fails]
        refine ⟨_, [], _, plans_of_shown shows ⟨[], List.nil_prefix⟩ (absurd rfl) ?_, exchanges,
          .cons reread ?_⟩
        · intro target known message succeeds
          cases written.symm.trans succeeds
        · rw [List.append_nil]
          exact lookups
    | ok found =>
        have reads := value.trans (congrArg (Except.map Prod.fst) written)
        rw [Hub.Task.record_bind_of_ok hub past reads, reply_eq_handOver]
        simp only [Dialogue.Record.before, exchanges]
        cases signed : signReply identity now found.1 (announcementDraft url) with
        | error error =>
            simp only [handOver, Hub.Task.record_throw, List.append_nil]
            refine ⟨_, [], _, plans_of_shown shows ⟨[], List.nil_prefix⟩ (absurd rfl) ?_, rfl,
              .cons reread ?_⟩
            · intro target known message writtenToo succeeds
              cases written.symm.trans writtenToo
              cases signed.symm.trans succeeds
            · rw [List.append_nil]
              exact lookups
        | ok message =>
            simp only [handOver, exchanges_submit]
            refine ⟨_, [.submit message.encode], _,
              plans_of_shown shows ⟨_, List.prefix_rfl⟩ (fun _ => ⟨found, written⟩) ?_, rfl,
              .cons reread ?_⟩
            · intro target known other writtenToo succeeds
              cases written.symm.trans writtenToo
              cases signed.symm.trans succeeds
              rfl
            · exact lookups.append (succeed_of_normalize hub _ written) (.single rfl)
  · have none := not_exists.mp shown
    obtain ⟨exchanges, error, fails⟩ := castById_of_unshown hub past identity mention.author
      mention.hash none
    rw [Hub.Task.record_bind_of_error hub past fails]
    exact ⟨[], [], [], plans_of_unshown none, exchanges, .single rfl⟩

end Answer

section Process

variable (hub : List Exchange → Request → Answer) (past : List Exchange)
variable (limits : Poll.Limits) (identity : Option Identity) (now : Nat)
variable (template : Option String) (mention : Mention)

def authorLookup : Dialogue.Record (Except Hub.Error Profile) :=
  (profile mention.author).record hub past

theorem run_handle {poll : Poll} (mentions : mention.isMention = true)
    (parsed : Poll.parse limits mention.text = .ok poll) :
    ((handle limits mention).run hub past).exchanges = (authorLookup hub past mention).exchanges ∧
      ((handle limits mention).run hub past).value =
        match (authorLookup hub past mention).value with
        | .error cause => .error (.author cause)
        | .ok author => .ok (some { author, poll, mention }) := by
  simp only [handle, mentions, parsed, Bool.not_true, Bool.false_eq_true, if_false]
  refine ⟨Dialogue.exchanges_bind_of_silent hub past _ fun outcome past => ?_, ?_⟩
  · cases outcome <;> rfl
  · rw [Dialogue.run_bind]
    change (Dialogue.run hub _ (match (authorLookup hub past mention).value with
      | .error cause => _
      | .ok author => _)).value = _
    cases (authorLookup hub past mention).value <;> rfl

theorem exchanges_announce (pattern : String) :
    ((announce identity now (some pattern) mention).run hub past).exchanges =
      ((answerAnew identity now mention (pollUrl pattern mention.hash)).record hub
        past).exchanges := by
  rw [← exchanges_replyWithPollUrl]
  refine Dialogue.exchanges_bind_of_silent hub past _ fun outcome past => ?_
  cases outcome <;> rfl

variable {hub past limits identity now template mention} {exchanges : List Exchange}

theorem attempts_author (hub : List Exchange → Request → Answer) (past : List Exchange)
    (mention : Mention) :
    (profile mention.author).Attempts hub past (lookup mention.author) :=
  Hub.Task.attempts_profile hub past mention.author

theorem submit_not_mem_reading (mention : Mention) (fids : List Fid) (bytes : List UInt8) :
    .submit bytes ∉ lookup mention.author ++
      .castById mention.author mention.hash :: fids.flatMap lookup := by
  simp only [lookup, List.mem_append, List.mem_cons, List.mem_flatMap, List.not_mem_nil,
    reduceCtorEq, or_self, and_false, exists_false, not_false_eq_true]

theorem once_of_ordered {fids : List Fid} {bytes : List UInt8}
    (ordered : exchanges.map Exchange.request <+: sequence mention fids bytes) :
    exchanges.countP (fun exchange => exchange.request.body?.isSome) ≤ 1 := by
  let carries (request : Request) : Bool := request.body?.isSome
  have none : ∀ fids : List Fid, (fids.flatMap lookup).countP carries = 0 := by
    intro fids
    simp only [List.countP_eq_zero, carries, lookup, List.mem_flatMap, List.mem_cons,
      List.not_mem_nil, or_false]
    rintro _ ⟨fid, _, rfl | rfl⟩ <;> exact Bool.noConfusion
  have bound : (exchanges.map Exchange.request).countP carries ≤
      (sequence mention fids bytes).countP carries := ordered.sublist.countP_le
  rw [List.countP_map] at bound
  refine Nat.le_trans bound ?_
  rw [sequence, List.countP_append, List.countP_cons, List.countP_append, none]
  exact Nat.le_refl 1

theorem effects_of_silent (none : ¬ Asks limits mention) :
    Effects hub past limits identity now template mention [] where
  silent := fun _ => rfl
  ordered := ⟨[], [], List.nil_prefix, fun _ _ third => nomatch third⟩
  unbroken := by
    intro front exchange back same
    cases front <;> cases same
  rereads := fun long => absurd long (Nat.not_lt_zero 2)
  names := fun long => absurd long (Nat.not_lt_zero 3)
  submits := by
    intro front exchange back bytes same
    cases front <;> cases same
  once := Nat.zero_le 1
  complete := fun asks => absurd asks none

/-- The work on a mention ends with the author where that one is not found, or no answer is asked
for. -/
theorem effects_of_author (asks : Asks limits mention)
    (ends : (∃ error, (authorLookup hub past mention).value = .error error) ∨ template = none) :
    Effects hub past limits identity now template mention
      (authorLookup hub past mention).exchanges := by
  have attempts := attempts_author hub past mention
  have ordered : (authorLookup hub past mention).exchanges.map Exchange.request <+:
      sequence mention [] [] := attempts.attempted.requests_prefix.trans (List.prefix_append _ _)
  have short : (authorLookup hub past mention).exchanges.length ≤ 2 := by
    have bound := attempts.attempted.requests_prefix.length_le
    rwa [List.length_map] at bound
  exact {
    silent := absurd asks
    ordered := by
      refine ⟨[], [], ordered, fun read cast third => ?_⟩
      rw [List.getElem?_eq_none short] at third
      cases third
    unbroken := fun _ _ _ same => attempts.attempted.succeeds_of_not_last same
    rereads := fun long => absurd long (Nat.not_lt.mpr short)
    names := fun long => absurd (Nat.le_of_succ_le long) (Nat.not_lt.mpr short)
    submits := by
      intro front exchange back bytes same submits
      have member : exchange.request ∈ lookup mention.author := by
        refine attempts.attempted.requests_prefix.subset (List.mem_map_of_mem ?_)
        change exchange ∈ (authorLookup hub past mention).exchanges
        rw [same]
        exact List.mem_append_right _ List.mem_cons_self
      rw [submits] at member
      exact absurd (List.mem_append_left _ member) (submit_not_mem_reading mention [] bytes)
    once := once_of_ordered ordered
    complete := by
      intro _ succeed
      refine ⟨?_, fun pattern addressed => ?_⟩
      · rw [← attempts.attempted.requests_eq succeed]
        exact List.prefix_rfl
      · obtain ⟨author, found⟩ := attempts.succeeds_iff.mpr succeed
        rcases ends with ⟨error, fails⟩ | none
        · cases fails.symm.trans found
        · cases none.symm.trans addressed }

theorem author_exchanges {author : Profile}
    (found : (authorLookup hub past mention).value = .ok author) :
    ∃ proofs verifications,
      (authorLookup hub past mention).exchanges = [proofs, verifications] := by
  have attempts := attempts_author hub past mention
  have asked := attempts.attempted.requests_eq (attempts.succeeds_iff.mp ⟨author, found⟩)
  have two := congrArg List.length asked
  rw [List.length_map] at two
  exact List.length_eq_two.mp two

theorem effects_of_answer {author : Profile} {pattern : String} (asks : Asks limits mention)
    (found : (authorLookup hub past mention).value = .ok author) :
    Effects hub past limits identity now (some pattern) mention
      ((authorLookup hub past mention).exchanges ++
        ((answerAnew identity now mention (pollUrl pattern mention.hash)).record hub
          ((authorLookup hub past mention).exchanges.reverse ++ past)).exchanges) := by
  obtain ⟨fids, post, rest, plans, exchanges, attempted⟩ :
    ∃ fids post rest, Plans hub ((authorLookup hub past mention).exchanges.reverse ++ past)
      identity now mention (pollUrl pattern mention.hash) fids post ∧ _ := answerAnew_planned
  have attempts := attempts_author hub past mention
  have whole := attempts.attempted.append (attempts.succeeds_iff.mp ⟨author, found⟩) attempted
  obtain ⟨proofs, verifications, same⟩ := author_exchanges found
  change Attempted _ ((authorLookup hub past mention).exchanges ++ _) at whole
  rw [exchanges]
  rw [same] at whole plans ⊢
  -- All that is handed over is at the end of the plan, so the rest of it comes first.
  rw [← List.cons_append, ← List.append_assoc] at whole
  let read := rereading hub ([proofs, verifications].reverse ++ past) mention
  obtain ⟨bytes, fits⟩ := plans.only
  have ordered : ([proofs, verifications] ++ read :: rest).map Exchange.request <+:
      sequence mention fids bytes := by
    refine whole.requests_prefix.trans ?_
    rw [sequence, ← List.cons_append, ← List.append_assoc]
    exact (List.prefix_append_right_inj _).mpr fits
  exact {
    silent := absurd asks
    ordered := by
      refine ⟨fids, bytes, ordered, fun third cast isThird shows => ?_⟩
      cases isThird
      exact plans.names cast shows
    unbroken := fun _ _ _ split => whole.succeeds_of_not_last split
    rereads := fun _ => ⟨rfl, author, found⟩
    names := by
      intro long
      by_contra unshown
      have none : ∀ cast, ¬ read.Shows cast := fun cast shows => unshown ⟨read, cast, rfl, shows⟩
      obtain ⟨rfl, rfl⟩ := plans.unshown none
      have bound := whole.requests_prefix.length_le
      rw [List.length_map] at bound
      exact absurd (Nat.lt_of_lt_of_le long bound) (Nat.lt_irrefl 3)
    submits := by
      intro front exchange back bytes split submits
      have new : exchange.request ∉ lookup mention.author ++
          .castById mention.author mention.hash :: fids.flatMap lookup := by
        rw [submits]
        exact submit_not_mem_reading mention fids bytes
      obtain ⟨posted, last⟩ := whole.last_of_new fits.length_le split new
      obtain ⟨cast, written, shows, succeeds⟩ :=
        plans.written (posted ▸ List.cons_ne_nil exchange.request [])
      exact ⟨last, whole.succeed_before split, read, cast, written, rfl, shows, succeeds⟩
    once := once_of_ordered ordered
    complete := by
      intro _ succeed
      have asked := whole.requests_eq succeed
      refine ⟨?_, fun own addressed => ⟨read, rfl, fun cast shows => ?_⟩⟩
      · rw [asked, List.append_assoc]
        exact List.prefix_append _ _
      · cases addressed
        refine ⟨fids, plans.names cast shows, ?_, fun target known message written signed => ?_⟩
        · rw [asked]
          exact List.prefix_append _ _
        · rw [asked, plans.posts cast target known message shows written signed,
            List.append_assoc]
          rfl }

theorem effects_process : Effects hub past limits identity now template mention
    ((process limits identity now template mention).run hub past).exchanges := by
  unfold process
  rw [Dialogue.run_bind]
  cases mentions : mention.isMention with
  | false =>
      simp only [handle, mentions, Bool.not_false, if_true]
      refine effects_of_silent fun ⟨addressed, _⟩ => ?_
      rw [mentions] at addressed
      cases addressed
  | true =>
      cases parsed : Poll.parse limits mention.text with
      | error error =>
          simp only [handle, mentions, parsed, Bool.not_true, Bool.false_eq_true, if_false]
          refine effects_of_silent fun ⟨_, poll, succeeds⟩ => ?_
          cases parsed.symm.trans succeeds
      | ok poll =>
          have asks : Asks limits mention := ⟨mentions, poll, parsed⟩
          obtain ⟨exchanges, value⟩ := run_handle hub past limits mention mentions parsed
          rw [Dialogue.Record.before, exchanges, value]
          cases found : (authorLookup hub past mention).value with
          | error error =>
              change Effects _ _ _ _ _ _ _ (_ ++ [])
              rw [List.append_nil]
              exact effects_of_author asks (.inl ⟨error, found⟩)
          | ok author =>
              change Effects _ _ _ _ _ _ _
                (_ ++ ((announce identity now template mention).run hub _).exchanges)
              cases template with
              | none =>
                  change Effects _ _ _ _ _ _ _ (_ ++ [])
                  rw [List.append_nil]
                  exact effects_of_author asks (.inr rfl)
              | some pattern =>
                  rw [exchanges_announce]
                  exact effects_of_answer asks found

end Process

/-- What is exchanged for mentions, each at its time: first all that belongs to the first, then all
that belongs to the next, with all before it as the past. -/
inductive InTurn (hub : List Exchange → Request → Answer) (limits : Poll.Limits)
    (identity : Option Identity) (template : Option String) :
    List Exchange → List (Nat × Mention) → List Exchange → Prop where
  | nil (past : List Exchange) : InTurn hub limits identity template past [] []
  | cons {past first later : List Exchange} {now : Nat} {mention : Mention}
    {rest : List (Nat × Mention)}
    (effects : Effects hub past limits identity now template mention first)
    (behind : InTurn hub limits identity template (first.reverse ++ past) rest later) :
    InTurn hub limits identity template past ((now, mention) :: rest) (first ++ later)

section Run

variable (hub : List Exchange → Request → Answer) (past : List Exchange) (limits : Poll.Limits)
variable (identity : Option Identity) (template : Option String)

theorem inTurn_forM (entries : List (Nat × Mention)) :
    InTurn hub limits identity template past entries
      ((entries.forM fun entry => process limits identity entry.1 template entry.2).run hub
        past).exchanges := by
  induction entries generalizing past with
  | nil => exact .nil past
  | cons entry rest ih =>
      let work (entry : Nat × Mention) := process limits identity entry.1 template entry.2
      change InTurn _ _ _ _ _ _ ((work entry >>= fun _ => rest.forM work).run hub past).exchanges
      rw [Dialogue.run_bind]
      exact .cons effects_process (ih _)

/-- What goes over the wire for a mention, and for mentions one after another. No reply goes out
unless the mention asks for a poll, its author was found and the mention was read anew and written
out, and then all that was to be asked has been asked before it, in order. -/
theorem mentions_take_effect_in_turn :
    (∀ now mention, Effects hub past limits identity now template mention
      ((process limits identity now template mention).run hub past).exchanges) ∧
    ∀ entries : List (Nat × Mention), InTurn hub limits identity template past entries
      ((entries.forM fun entry => process limits identity entry.1 template entry.2).run hub
        past).exchanges :=
  ⟨fun _ _ => effects_process,
    inTurn_forM hub past limits identity template⟩

end Run

set_option maxRecDepth 10000 in
/-- The author of a poll is found, but the mention is not shown again. -/
example : ((process .standard (some writer) 1700000000 (some "https://example.org/\x7bhash\x7d")
    { greeted with text := "Tea?\n- yes\n- no" }).run
      (fun _ => Answer.staged "") []).exchanges.map Exchange.request =
    [.usernameProofs 9, .verifications 9, .castById 9 "0x0a0b"] := by
  cbv

end PollHerald.Command
