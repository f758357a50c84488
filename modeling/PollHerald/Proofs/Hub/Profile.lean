import Mathlib
import PollHerald.Proofs.Hub.Fetch

set_option autoImplicit false

/-! What a lookup says about a user. The username and the owner come from one proof, the last of the
newest ones, and the addresses and the signers are sets. So the order of the answers does not show,
except among proofs of one time. A request that fails is all that is reported. -/

namespace PollHerald.Hub

/-- Whether a proof is the newest of a list, and the last where several are. -/
def UsernameProof.NewestOf (proofs : List UsernameProof) (proof : UsernameProof) : Prop :=
  ∃ front back, proofs = front ++ proof :: back ∧
    (∀ earlier ∈ front, earlier.timestamp ≤ proof.timestamp) ∧
    ∀ later ∈ back, later.timestamp < proof.timestamp

/-- A list that stands for a set: the members, ascending, and nothing else. -/
structure Collects (Member : String → Prop) (texts : List String) : Prop where
  ascending : texts.Pairwise (· < ·)
  mem_iff : ∀ text, text ∈ texts ↔ Member text

/-- A profile that shows what the answers to a lookup say. -/
structure IsProfileOf (fid : Fid) (proofs : List UsernameProof) (verifications : List Message)
    (user : Profile) : Prop where
  fid : user.fid = fid
  unnamed : proofs = [] → user.username = "" ∧ user.custodyAddress = ""
  named : proofs ≠ [] → ∃ proof : UsernameProof, proof.NewestOf proofs ∧
    user.username = proof.name ∧ user.custodyAddress = proof.owner
  addresses : Collects (fun address => address ≠ "" ∧ ∃ message ∈ verifications, ∃ content,
    message.content = some content ∧ content.address = some address) user.verificationAddresses
  signers : Collects (fun signer => signer ≠ "" ∧ ∃ message ∈ verifications,
    message.signer = signer) user.signers

section Proofs

variable {proofs others : List UsernameProof}

theorem latestProof_eq_none_iff (proofs : List UsernameProof) :
    latestProof proofs = none ↔ proofs = [] := by
  cases proofs with
  | nil => exact iff_of_true rfl rfl
  | cons proof rest =>
      refine iff_of_false ?_ (List.cons_ne_nil _ _)
      unfold latestProof
      split
      · exact nofun
      · split <;> exact nofun

theorem newestOf_of_latestProof {proof : UsernameProof} (latest : latestProof proofs = some proof) :
    proof.NewestOf proofs := by
  induction proofs generalizing proof with
  | nil => cases latest
  | cons first rest ih =>
      unfold latestProof at latest
      split at latest
      · rename_i none
        cases latest
        rw [(latestProof_eq_none_iff rest).mp none]
        exact ⟨[], [], rfl, nofun, nofun⟩
      · rename_i found later
        obtain ⟨front, back, split, notNewer, older⟩ := ih later
        split at latest
        · rename_i newer
          cases latest
          refine ⟨[], rest, rfl, nofun, ?_⟩
          rw [split]
          intro other member
          rcases List.mem_append.mp member with inFront | behind
          · exact Nat.lt_of_le_of_lt (notNewer other inFront) newer
          · rcases List.mem_cons.mp behind with rfl | inBack
            · exact newer
            · exact Nat.lt_trans (older other inBack) newer
        · rename_i notLess
          cases latest
          refine ⟨first :: front, back, congrArg (first :: ·) split, ?_, older⟩
          exact List.forall_mem_cons.mpr ⟨Nat.not_lt.mp notLess, notNewer⟩

theorem UsernameProof.NewestOf.mem {proof : UsernameProof} (newest : proof.NewestOf proofs) :
    proof ∈ proofs := by
  obtain ⟨front, back, rfl, _⟩ := newest
  exact List.mem_append_right front List.mem_cons_self

theorem UsernameProof.NewestOf.le {proof other : UsernameProof} (newest : proof.NewestOf proofs)
    (member : other ∈ proofs) : other.timestamp ≤ proof.timestamp := by
  obtain ⟨front, back, rfl, notNewer, older⟩ := newest
  rcases List.mem_append.mp member with inFront | behind
  · exact notNewer other inFront
  · rcases List.mem_cons.mp behind with rfl | inBack
    · exact Nat.le_refl _
    · exact Nat.le_of_lt (older other inBack)

/-- Among proofs of different times, the newest is the same in every order. -/
theorem latestProof_perm (distinct : (proofs.map UsernameProof.timestamp).Nodup)
    (perm : proofs.Perm others) : latestProof proofs = latestProof others := by
  cases one : latestProof proofs with
  | none =>
      rw [latestProof_eq_none_iff] at one
      rw [one] at perm
      exact ((latestProof_eq_none_iff others).mpr perm.nil_eq.symm).symm
  | some proof =>
      cases two : latestProof others with
      | none =>
          rw [latestProof_eq_none_iff] at two
          rw [two] at perm
          rw [perm.eq_nil] at one
          cases one
      | some other =>
          have newest := newestOf_of_latestProof one
          have newestOther := newestOf_of_latestProof two
          have member : other ∈ proofs := perm.mem_iff.mpr newestOther.mem
          have sameTime : proof.timestamp = other.timestamp :=
            Nat.le_antisymm (newestOther.le (perm.mem_iff.mp newest.mem)) (newest.le member)
          rw [List.inj_on_of_nodup_map distinct newest.mem member sameTime]

end Proofs

section Texts

theorem mem_insertText (text other : String) (texts : List String) :
    other ∈ insertText text texts ↔ other = text ∨ other ∈ texts := by
  induction texts with
  | nil => simp only [insertText, List.mem_singleton, List.not_mem_nil, or_false]
  | cons head rest ih =>
      unfold insertText
      split
      · rw [List.mem_cons]
      · split
        · rename_i same
          simp only [same, List.mem_cons, or_self_left]
        · simp only [List.mem_cons, ih]
          exact or_left_comm

theorem ascending_insertText {text : String} {texts : List String}
    (ascending : texts.Pairwise (· < ·)) : (insertText text texts).Pairwise (· < ·) := by
  induction texts with
  | nil => exact List.pairwise_singleton _ _
  | cons head rest ih =>
      obtain ⟨above, sorted⟩ := List.pairwise_cons.mp ascending
      unfold insertText
      split
      · rename_i less
        refine List.pairwise_cons.mpr ⟨List.forall_mem_cons.mpr ⟨less, ?_⟩, ascending⟩
        exact fun later member => String.lt_trans less (above later member)
      · split
        · exact ascending
        · rename_i notLess differs
          refine List.pairwise_cons.mpr ⟨fun later member => ?_, ih sorted⟩
          rcases (mem_insertText text later rest).mp member with rfl | inRest
          · by_contra notAbove
            exact differs (String.le_antisymm notAbove notLess)
          · exact above later inRest

theorem collects_textSet (texts : List String) :
    Collects (fun text => text ≠ "" ∧ text ∈ texts) (textSet texts) := by
  have filled (text : String) :
      text ∈ texts.filter (fun text => !text.isEmpty) ↔ text ≠ "" ∧ text ∈ texts := by
    rw [List.mem_filter, Bool.not_eq_true', String.isEmpty_eq_false_iff, and_comm]
  unfold textSet
  simp only [← filled]
  induction texts.filter fun text => !text.isEmpty with
  | nil => exact ⟨.nil, fun _ => Iff.rfl⟩
  | cons text rest ih =>
      refine ⟨ascending_insertText ih.ascending, fun other => ?_⟩
      rw [List.foldr_cons, mem_insertText, ih.mem_iff, List.mem_cons]

/-- A set has one list that stands for it. -/
theorem Collects.unique {Member Other : String → Prop} {one other : List String}
    (collects : Collects Member one) (collectsOther : Collects Other other)
    (same : ∀ text, Member text ↔ Other text) : one = other := by
  have irrefl : Std.Irrefl (fun one other : String => one < other) := ⟨String.lt_irrefl⟩
  have antisymm : Std.Antisymm (fun one other : String => one < other) :=
    ⟨fun _ _ less greater => absurd greater (String.lt_asymm less)⟩
  refine collects.ascending.eq_of_mem_iff collectsOther.ascending fun text => ?_
  rw [collects.mem_iff, collectsOther.mem_iff, same]

end Texts

theorem isProfileOf_profileOf (fid : Fid) (proofs : List UsernameProof)
    (verifications : List Message) :
    IsProfileOf fid proofs verifications (profileOf fid proofs verifications) where
  fid := rfl
  unnamed := by
    rintro rfl
    exact ⟨rfl, rfl⟩
  named := by
    intro present
    cases latest : latestProof proofs with
    | none => exact absurd ((latestProof_eq_none_iff proofs).mp latest) present
    | some proof =>
        refine ⟨proof, newestOf_of_latestProof latest, ?_, ?_⟩
        · simp only [profileOf, latest, Option.map_some, Option.getD_some]
        · simp only [profileOf, latest, Option.map_some, Option.getD_some]
  addresses := by
    have collects := collects_textSet
      (verifications.filterMap fun message => message.content.bind MessageContent.address)
    simp only [List.mem_filterMap, Option.bind_eq_some_iff] at collects
    exact collects
  signers := by
    have collects := collects_textSet (verifications.map Message.signer)
    simp only [List.mem_map] at collects
    exact collects

/-- Verifications count by what they are, and proofs of different times in any order. -/
theorem profileOf_congr (fid : Fid) {proofs others : List UsernameProof}
    {verifications again : List Message}
    (sameMessages : ∀ message, message ∈ verifications ↔ message ∈ again)
    (sameProofs : proofs = others ∨ proofs.Perm others ∧
      (proofs.map UsernameProof.timestamp).Nodup) :
    profileOf fid proofs verifications = profileOf fid others again := by
  have latest : latestProof proofs = latestProof others := by
    rcases sameProofs with rfl | ⟨perm, distinct⟩
    · rfl
    · exact latestProof_perm distinct perm
  have shows := isProfileOf_profileOf fid proofs verifications
  have showsAgain := isProfileOf_profileOf fid others again
  have addresses := shows.addresses.unique showsAgain.addresses (by
    simp only [sameMessages, implies_true])
  have signers := shows.signers.unique showsAgain.signers (by
    simp only [sameMessages, implies_true])
  simp only [profileOf, latest] at addresses signers ⊢
  rw [addresses, signers]

section Lookup

variable (hub : List Exchange → Request → Answer) (past : List Exchange) (fid : Fid)

/-- The exchange that a lookup starts with. -/
def askingProofs : Exchange :=
  { request := .usernameProofs fid, answer := hub past (.usernameProofs fid) }

/-- The exchange that a lookup goes on with, when it does. -/
def askingVerifications : Exchange :=
  { request := .verifications fid
    answer := hub (askingProofs hub past fid :: past) (.verifications fid) }

/-- Whether both requests of a lookup bring what they ask for. -/
def ServesLookup (proofs : List UsernameProof) (page : Page) : Prop :=
  (askingProofs hub past fid).answer.Holds readProofs proofs ∧
    (askingVerifications hub past fid).answer.Serves page

theorem record_profile : (profile fid).record hub past =
    { (fetchProfile fid).record hub past with
      value := ((fetchProfile fid).record hub past).value.mapError (.profile fid) } :=
  Task.record_tryCatch_throw hub past (fetchProfile fid) (.profile fid)

theorem record_fetch_proofs : (fetch (.usernameProofs fid) readProofs).record hub past =
    { value := (askingProofs hub past fid).answer.outcome "userNameProofsByFid" readProofs
      exchanges := [askingProofs hub past fid]
      entries := [] } :=
  Task.record_fetch hub past (.usernameProofs fid) readProofs

variable {hub past fid} {proofs : List UsernameProof} {error : Error}

theorem profile_of_failed_proofs
    (fails : (askingProofs hub past fid).answer.outcome "userNameProofsByFid" readProofs =
      .error error) :
    (profile fid).record hub past =
      { value := .error (.profile fid error)
        exchanges := [askingProofs hub past fid]
        entries := [] } := by
  have asked := record_fetch_proofs hub past fid
  rw [fails] at asked
  rw [record_profile, fetchProfile,
    Task.record_bind_of_error hub past (congrArg Dialogue.Record.value asked), asked]
  rfl

/-- Where the proofs are there, a lookup comes to what the verifications bring. -/
theorem profile_of_proofs (holds : (askingProofs hub past fid).answer.Holds readProofs proofs) :
    (profile fid).record hub past =
      { value := (((askingVerifications hub past fid).answer.outcome "verificationsByFid"
          Page.read).map fun page => profileOf fid proofs page.messages).mapError (.profile fid)
        exchanges := [askingProofs hub past fid, askingVerifications hub past fid]
        entries := [] } := by
  have asked := record_fetch_proofs hub past fid
  rw [(Answer.outcome_eq_ok_iff _ _ _ _).mpr holds] at asked
  have next := Task.record_bind_pure hub (askingProofs hub past fid :: past)
    (fetch (.verifications fid) Page.read) fun page => profileOf fid proofs page.messages
  rw [Task.record_fetch] at next
  rw [record_profile, fetchProfile,
    Task.record_bind_of_ok hub past (congrArg Dialogue.Record.value asked), asked]
  simp only [Dialogue.Record.before, List.reverse_singleton, List.singleton_append, next]
  rfl

/-- What a lookup of a user brings. The profile has the name and the owner of the last of the newest
proofs, with all addresses and all signers of the verifications, and it is the same however often
and in which order the verifications are served, and in which order proofs of different times are.
The first request that fails is all that a lookup reports and the last that it makes. -/
theorem profile_shows_newest_proof (fid : Fid) :
    (∀ hub past proofs page, ServesLookup hub past fid proofs page →
      ∃ user, (profile fid).record hub past =
          { value := .ok user
            exchanges := [askingProofs hub past fid, askingVerifications hub past fid]
            entries := [] } ∧
        IsProfileOf fid proofs page.messages user) ∧
    (∀ hub other past before proofs others page again,
      ServesLookup hub past fid proofs page → ServesLookup other before fid others again →
      (∀ message, message ∈ page.messages ↔ message ∈ again.messages) →
      (proofs = others ∨ proofs.Perm others ∧ (proofs.map UsernameProof.timestamp).Nodup) →
        ((profile fid).record hub past).value = ((profile fid).record other before).value) ∧
    (∀ hub past error,
      (askingProofs hub past fid).answer.outcome "userNameProofsByFid" readProofs = .error error →
        (profile fid).record hub past =
          { value := .error (.profile fid error)
            exchanges := [askingProofs hub past fid]
            entries := [] }) ∧
    ∀ hub past proofs error, (askingProofs hub past fid).answer.Holds readProofs proofs →
      (askingVerifications hub past fid).answer.outcome "verificationsByFid" Page.read =
          .error error →
        (profile fid).record hub past =
          { value := .error (.profile fid error)
            exchanges := [askingProofs hub past fid, askingVerifications hub past fid]
            entries := [] } := by
  have served (hub past proofs page) (serves : ServesLookup hub past fid proofs page) :
      (profile fid).record hub past =
        { value := .ok (profileOf fid proofs page.messages)
          exchanges := [askingProofs hub past fid, askingVerifications hub past fid]
          entries := [] } := by
    rw [profile_of_proofs serves.1, (Answer.outcome_eq_ok_iff _ _ _ _).mpr serves.2]
    rfl
  refine ⟨?_, ?_, fun _ _ _ fails => profile_of_failed_proofs fails, ?_⟩
  · intro hub past proofs page serves
    exact ⟨_, served hub past proofs page serves, isProfileOf_profileOf fid proofs page.messages⟩
  · intro hub other past before proofs others page again serves servesOther messages proofsAlike
    rw [served hub past proofs page serves, served other before others again servesOther,
      profileOf_congr fid messages proofsAlike]
  · intro hub past proofs error holds fails
    rw [profile_of_proofs holds, fails]
    rfl

end Lookup

/-- A hub with these proofs for every user, and with verifications where there are any. -/
def Answer.ofUser (proofs : String) (verifications : Option String) : Request → Answer
  | .usernameProofs _ => .response 200 (some proofs)
  | .verifications _ => verifications.elim .unreachable fun page => .response 200 (some page)
  | _ => .unreachable

/-- Three names, of which two are equally new. -/
def tiedProofs : String :=
  "[[[20,\"bea\",\"0x02\"],[20,\"cy\",\"0x03\"],[10,\"ann\",\"0x01\"]]]"

/-- Two names of different times, and the same the other way round. -/
def twoProofs : String :=
  "[[[20,\"cy\",\"0x03\"],[10,\"ann\",\"0x01\"]]]"

def swappedProofs : String :=
  "[[[10,\"ann\",\"0x01\"],[20,\"cy\",\"0x03\"]]]"

/-- A signer without an address, behind one with an address. -/
def twoVerifications : String :=
  "[[[[\"\",9,1,null,[\"0xaa\"]],\"\",\"0x0b\"],[null,\"\",\"0x0a\"]],null]"

/-- The same the other way round, with one of them twice. -/
def shuffledVerifications : String :=
  "[[[null,\"\",\"0x0a\"],[[\"\",9,1,null,[\"0xaa\"]],\"\",\"0x0b\"],[null,\"\",\"0x0a\"]],null]"

/-- The later of two equally new names counts, and neither shuffled verifications nor swapped proofs
make a difference. A hub that cannot be reached is asked once, and one without verifications is
still asked for them. -/
theorem profile_shows_newest_of_tied :
    let hub (proofs : String) (verifications : Option String) :=
      fun _ : List Exchange => Answer.ofUser proofs verifications
    (∃ proofs page again user,
      ServesLookup (hub tiedProofs twoVerifications) [] 9 proofs page ∧
      ServesLookup (hub tiedProofs shuffledVerifications) [] 9 proofs again ∧
      ((profile 9).record (hub tiedProofs shuffledVerifications) []).value = .ok user ∧
      IsProfileOf 9 proofs page.messages user ∧ user.username = "cy" ∧
      user.signers = ["0x0a", "0x0b"]) ∧
    ((profile 9).record (hub twoProofs twoVerifications) []).value =
      ((profile 9).record (hub swappedProofs twoVerifications) []).value ∧
    (profile 9).record (fun _ _ => .unreachable) [] =
      { value := .error (.profile 9 (.request "userNameProofsByFid"))
        exchanges := [askingProofs (fun _ _ => .unreachable) [] 9]
        entries := [] } ∧
    (profile 9).record (hub twoProofs none) [] =
      { value := .error (.profile 9 (.request "verificationsByFid"))
        exchanges := [askingProofs (hub twoProofs none) [] 9,
          askingVerifications (hub twoProofs none) [] 9]
        entries := [] } := by
  intro hub
  obtain ⟨brings, alike, stops, stopsLater⟩ := profile_shows_newest_proof 9
  refine ⟨?tied, ?swapped, stops _ _ _ rfl, stopsLater _ _ _ _ ⟨twoProofs, rfl, by cbv⟩ rfl⟩
  case tied =>
    have served : ServesLookup (hub tiedProofs twoVerifications) [] 9 _ _ :=
      ⟨⟨tiedProofs, rfl, by cbv⟩, twoVerifications, rfl, by cbv⟩
    have shuffled : ServesLookup (hub tiedProofs shuffledVerifications) [] 9 _ _ :=
      ⟨⟨tiedProofs, rfl, by cbv⟩, shuffledVerifications, rfl, by cbv⟩
    obtain ⟨user, record, shows⟩ := brings _ _ _ _ served
    have same := alike _ _ _ _ _ _ _ _ served shuffled (by simp) (.inl rfl)
    have found : ((profile 9).record (hub tiedProofs twoVerifications) []).value =
        .ok { fid := 9, username := "cy", custodyAddress := "0x03",
              verificationAddresses := ["0xaa"], signers := ["0x0a", "0x0b"] } := by cbv
    rw [record] at found
    cases found
    exact ⟨_, _, _, _, served, shuffled, same.symm.trans (congrArg Dialogue.Record.value record),
      shows, rfl, rfl⟩
  case swapped =>
    have served : ServesLookup (hub twoProofs twoVerifications) [] 9 _ _ :=
      ⟨⟨twoProofs, rfl, by cbv⟩, twoVerifications, rfl, by cbv⟩
    have swapped : ServesLookup (hub swappedProofs twoVerifications) [] 9 _ _ :=
      ⟨⟨swappedProofs, rfl, by cbv⟩, twoVerifications, rfl, by cbv⟩
    exact alike _ _ _ _ _ _ _ _ served swapped (fun _ => Iff.rfl)
      (.inr ⟨List.Perm.swap _ _ _, by decide⟩)

end PollHerald.Hub
