import PollHerald.Proofs.Command.Reply
import PollHerald.Proofs.Hub.Turn
import PollHerald.Proofs.Mention.Joined

set_option autoImplicit false

/-! Which announcements go out. The text of an announcement ends with the address of the poll and
comes without accounts, so an address with a mention token in it makes the text one that cannot be
taken apart. -/

namespace PollHerald.Mention

theorem decompose_of_no_tokens {text : String} (none : tokensOf text = []) :
    decompose text [] = .ok { text, mentions := [], positions := [] } := by
  refine (decompose_eq_ok_iff _ _ _).mpr ⟨congrArg List.length none, ?_⟩
  have nowhere : tokenOffsets 0 (pieces text.toList) = [] := by
    rw [← List.length_eq_zero_iff, length_tokenOffsets]
    exact congrArg List.length none
  rw [nowhere, flatMap_text_of_no_tokens none, flatMap_text_pieces, String.ofList_toList]

end PollHerald.Mention

namespace PollHerald.Command

open Hub
open Mention (isHandleChar tokensOf)

/-- Whether an address has an `@` directly before a handle character. -/
def NamesHandle (url : String) : Prop :=
  ∃ front character back, url.toList = front ++ '@' :: character :: back ∧
    isHandleChar character = true

theorem tokensOf_announcement (url : String) : tokensOf (announcement url) = tokensOf url := by
  unfold tokensOf announcement
  rw [String.toList_append]
  exact Mention.tokens_pieces_append_of_no_at (by decide) url.toList

theorem namesHandle_iff (url : String) : NamesHandle url ↔ tokensOf url ≠ [] := by
  rw [tokensOf, ne_eq, Mention.tokens_pieces_eq_nil_iff]
  simp only [NamesHandle, not_forall, Bool.not_eq_false, exists_prop]

theorem mem_fillHash {character : Char} {hash template : List Char}
    (member : character ∈ fillHash hash template) : character ∈ hash ∨ character ∈ template := by
  induction template using fillHash.induct with
  | case1 rest ih =>
      rw [fillHash] at member
      rcases List.mem_append.mp member with filled | later
      · exact .inl filled
      · exact (ih later).imp_right (List.mem_append_right ['{', 'h', 'a', 's', 'h', '}'])
  | case2 first rest notMark ih =>
      rw [fillHash] at member
      · rcases List.mem_cons.mp member with rfl | later
        · exact .inr List.mem_cons_self
        · exact (ih later).imp_right (List.mem_cons_of_mem first)
      · exact notMark
  | case3 =>
      rw [fillHash] at member
      cases member

theorem not_namesHandle_pollUrl {template hash : String} (plainTemplate : '@' ∉ template.toList)
    (plainHash : '@' ∉ hash.toList) : ¬ NamesHandle (pollUrl template hash) := by
  rintro ⟨front, character, back, split, _⟩
  rw [pollUrl, String.toList_ofList] at split
  have member : '@' ∈ fillHash hash.toList template.toList :=
    split ▸ List.mem_append_right front List.mem_cons_self
  exact (mem_fillHash member).elim plainHash plainTemplate

section Draft

variable {url : String}

theorem ofDraft_of_plain (plain : ¬ NamesHandle url) :
    Wire.CastBody.ofDraft (announcementDraft url) =
      .ok { text := announcement url, embeds := [.url url] } := by
  have none : tokensOf (announcementDraft url).text = [] := by
    rw [namesHandle_iff, not_not] at plain
    exact (tokensOf_announcement url).trans plain
  have whole := Mention.decompose_of_no_tokens none
  unfold Wire.CastBody.ofDraft
  rw [show (announcementDraft url).mentions = [] from rfl, whole]
  rfl

theorem miscounts_of_handle (names : NamesHandle url) :
    (tokensOf (announcementDraft url).text).length ≠ (announcementDraft url).mentions.length := by
  intro fits
  refine (namesHandle_iff url).mp names ?_
  rw [← tokensOf_announcement]
  exact List.length_eq_zero_iff.mp fits

theorem ofDraft_of_handle (names : NamesHandle url) :
    Wire.CastBody.ofDraft (announcementDraft url) = .error (.count (tokensOf url).length 0) := by
  have refused : Mention.decompose (announcementDraft url).text (announcementDraft url).mentions =
      .error (.count (tokensOf (announcement url)).length 0) :=
    Mention.decompose_of_miscount (miscounts_of_handle names)
  rw [tokensOf_announcement] at refused
  unfold Wire.CastBody.ofDraft
  rw [refused]
  rfl

end Draft

section Reply

variable (hub : List Exchange → Request → Answer) (past : List Exchange)
variable (identity : Option Identity) (now : Nat) (mention : Mention) {url : String}

theorem reply_of_handle (names : NamesHandle url) (target : Mention) :
    ∃ cause, reply identity now target (announcementDraft url) = throw cause := by
  unfold reply
  cases castId target.author target.hash with
  | error error => exact ⟨error, rfl⟩
  | ok parent =>
      let draft : Draft := { announcementDraft url with parent := some parent }
      cases identity with
      | none => exact ⟨.noIdentity, rfl⟩
      | some writer =>
          have unsigned := signDraft_of_miscount writer now
            (show (tokensOf draft.text).length ≠ draft.mentions.length from
              miscounts_of_handle names)
          refine ⟨.mention (.count (tokensOf draft.text).length draft.mentions.length), ?_⟩
          simp only [publish]
          rw [unsigned]

theorem answerAnew_of_handle (names : NamesHandle url) :
    (∃ cause, ((answerAnew identity now mention url).record hub past).value = .error cause) ∧
      ((answerAnew identity now mention url).record hub past).exchanges =
        ((castById identity mention.author mention.hash).record hub past).exchanges := by
  unfold answerAnew
  cases found : ((castById identity mention.author mention.hash).record hub past).value with
  | error cause =>
      rw [Hub.Task.record_bind_of_error hub past found]
      exact ⟨⟨cause, rfl⟩, rfl⟩
  | ok target =>
      obtain ⟨cause, fails⟩ := reply_of_handle identity now names target
      rw [Hub.Task.record_bind_of_ok hub past found, fails]
      exact ⟨⟨cause, rfl⟩, List.append_nil _⟩

theorem value_replyWithPollUrl (url : String) :
    ((replyWithPollUrl identity now mention url).run hub past).value =
      ((answerAnew identity now mention url).record hub past).value.mapError .reply := by
  let settle (outcome : Except Hub.Error Unit) : Dialogue (Except Error Unit) :=
    .done (outcome.mapError .reply)
  have settled : replyWithPollUrl identity now mention url =
      (ExceptT.run (answerAnew identity now mention url) >>= settle) := by
    change Dialogue.bind _ _ = Dialogue.bind _ _
    congr 1
    funext outcome
    cases outcome <;> rfl
  rw [settled, Dialogue.run_bind]
  rfl

end Reply

/-- Whether an announcement can go out is up to its address. One that names a handle makes every
answer with it fail before anything is submitted. -/
theorem announcement_fails_on_handles (url : String) :
    (¬ NamesHandle url →
      Wire.CastBody.ofDraft (announcementDraft url) =
        .ok { text := announcement url, embeds := [.url url] }) ∧
    (NamesHandle url →
      tokensOf url ≠ [] ∧
      Wire.CastBody.ofDraft (announcementDraft url) = .error (.count (tokensOf url).length 0) ∧
      ∀ hub past identity now mention,
        let replied := (replyWithPollUrl identity now mention url).run hub past
        (∃ cause, replied.value = .error (.reply cause)) ∧
          ∀ exchange ∈ replied.exchanges, ∀ bytes, exchange.request ≠ .submit bytes) ∧
    ∀ template hash, url = pollUrl template hash → '@' ∉ template.toList → '@' ∉ hash.toList →
      ¬ NamesHandle url := by
  refine ⟨ofDraft_of_plain, fun names => ⟨?_, ofDraft_of_handle names, ?_⟩, ?_⟩
  · exact (namesHandle_iff url).mp names
  · intro hub past identity now mention replied
    obtain ⟨⟨cause, fails⟩, exchanges⟩ := answerAnew_of_handle hub past identity now mention names
    refine ⟨⟨cause, ?_⟩, fun exchange member bytes => ?_⟩
    · rw [value_replyWithPollUrl, fails]
      rfl
    · rw [exchanges_replyWithPollUrl, exchanges] at member
      exact castById_submits_nothing bytes member
  · rintro template hash rfl plainTemplate plainHash
    exact not_namesHandle_pollUrl plainTemplate plainHash

/-- A template for the addresses of polls with the page of an account in it. -/
def handleTemplate : String :=
  "https://example.org/@ann/\x7bhash\x7d"

theorem handleTemplate_names : NamesHandle (pollUrl handleTemplate "0x0a") := by
  have filled : pollUrl handleTemplate "0x0a" = "https://example.org/@ann/0x0a" := by cbv
  refine ⟨"https://example.org/".toList, 'a', "nn/0x0a".toList, ?_, rfl⟩
  rw [filled]
  decide

theorem announcement_fails_on_handleTemplate :
    let url := pollUrl handleTemplate "0x0a"
    NamesHandle url ∧ Wire.CastBody.ofDraft (announcementDraft url) = .error (.count 1 0) ∧
      Wire.CastBody.ofDraft (announcementDraft pollAddress) =
        .ok { text := "Your poll is live! Vote here: https://example.org/p"
              embeds := [.url pollAddress] } := by
  intro url
  have names : NamesHandle url := handleTemplate_names
  have one : (tokensOf url).length = 1 := by cbv
  have refused := ((announcement_fails_on_handles url).2.1 names).2.1
  rw [one] at refused
  have plain : ¬ NamesHandle pollAddress :=
    (announcement_fails_on_handles pollAddress).2.2 pollAddress "" (by cbv) (by decide) (by decide)
  exact ⟨names, refused, (announcement_fails_on_handles pollAddress).1 plain⟩

/-- Not every address that is made from a template can be announced. -/
theorem not_every_announcement_goes_out :
    ¬ ∀ template hash : String,
      Wire.CastBody.ofDraft (announcementDraft (pollUrl template hash)) =
        .ok { text := announcement (pollUrl template hash)
              embeds := [.url (pollUrl template hash)] } := by
  intro always
  have refused := ofDraft_of_handle handleTemplate_names
  cases (always handleTemplate "0x0a").symm.trans refused

end PollHerald.Command
