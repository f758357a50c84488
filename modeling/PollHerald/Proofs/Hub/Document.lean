import Mathlib.Data.List.Forall2
import PollHerald.Proofs.Hub.Fetch
import PollHerald.Proofs.Json.Reader
import PollHerald.Proofs.Record

set_option autoImplicit false

/-! The documented form of messages. Members stand in any order and others may stand among them;
some may be left out where they have their default, or be `null` where they have no value, and the
body of a verification goes by its present name or its former one. A page in that form is read as
just its messages, however its text is laid out and its strings are spelled. -/

namespace PollHerald.Hub

open Json (Value Content fieldValues readText readWord readNatBelow readList readNullable)
open Record (given required orDefault)

variable {α : Type}

/-! ### Values -/

inductive IsText : String → Value → Prop where
  | string (text : String) : IsText text (.ofString text)

inductive IsNumber (bound : Nat) : Nat → Value → Prop where
  | digits {number : Nat} (fits : number < bound) : IsNumber bound number (.ofNat number)

/-- Items in their order. -/
inductive IsList (writes : α → Value → Prop) : List α → Value → Prop where
  | array {items : List α} {values : List Value} (each : List.Forall₂ writes items values) :
      IsList writes items (.array values)

/-- A reader that takes every value that writes something, and takes it for that. -/
def Reads (read : Value → Option α) (writes : α → Value → Prop) : Prop :=
  ∀ (item : α) (value : Value), writes item value → read value = some item

theorem reads_text : Reads readText IsText := by
  rintro text _ ⟨⟩
  exact congrArg some (String.ofList_toList)

theorem reads_number (bound : Nat) : Reads (readNatBelow bound) (IsNumber bound) := by
  rintro number _ ⟨fits⟩
  have value : Json.digitsValue (Nat.toDigits 10 number) = number := Nat.ofDigitChars_ten_toDigits
  have allDigits : (Nat.toDigits 10 number).all Char.isDigit = true := by
    rw [List.all_eq_true]
    exact fun _ member => Nat.isDigit_of_mem_toDigits (by decide) (by decide) member
  rw [Value.ofNat, readNatBelow, value, if_pos ⟨allDigits, fits⟩]

theorem Reads.list {read : Value → Option α} {writes : α → Value → Prop}
    (reads : Reads read writes) : Reads (readList read) (IsList writes) := by
  rintro _ _ ⟨each⟩
  rw [readList]
  induction each with
  | nil => rfl
  | cons first _ ih =>
      rw [List.mapM_cons, reads _ _ first, ih]
      rfl

/-! ### Members -/

/-- The values of a member that has to be there. -/
inductive Stated (writes : α → Value → Prop) (item : α) : List Value → Prop where
  | stated {value : Value} (written : writes item value) : Stated writes item [value]

/-- The values of a member that may be left out where it has its default. -/
inductive Defaulted (default : α) (writes : α → Value → Prop) : α → List Value → Prop where
  | omitted : Defaulted default writes default []
  | stated {item : α} {value : Value} (written : writes item value) :
      Defaulted default writes item [value]

/-- The values of a member that may be left out or be `null` where it has no value. -/
inductive Nullable (writes : α → Value → Prop) : Option α → List Value → Prop where
  | omitted : Nullable writes none []
  | null : Nullable writes none [.null]
  | stated {item : α} {value : Value} (written : writes item value) :
      Nullable writes (some item) [value]

theorem Stated.single {writes : α → Value → Prop} {item : α} {values : List Value}
    (stated : Stated writes item values) : values.length ≤ 1 := by
  cases stated
  exact Nat.le_refl 1

theorem Defaulted.single {writes : α → Value → Prop} {default item : α} {values : List Value}
    (defaulted : Defaulted default writes item values) : values.length ≤ 1 := by
  cases defaulted
  · exact Nat.zero_le 1
  · exact Nat.le_refl 1

theorem Nullable.single {writes : α → Value → Prop} {item? : Option α} {values : List Value}
    (nullable : Nullable writes item? values) : values.length ≤ 1 := by
  cases nullable
  · exact Nat.zero_le 1
  · exact Nat.le_refl 1
  · exact Nat.le_refl 1

section Reading

variable {read : Value → Option α} {writes : α → Value → Prop} (reads : Reads read writes)
variable {values : List Value}

include reads

theorem Reads.required {item : α} (stated : Stated writes item values) :
    required read values.head? = some item := by
  obtain ⟨written⟩ := stated
  exact reads _ _ written

theorem Reads.orDefault {default item : α} (defaulted : Defaulted default writes item values) :
    orDefault default read values.head? = some item := by
  cases defaulted with
  | omitted => rfl
  | stated written => exact reads _ _ written

theorem Reads.nullable (refuses : read .null = none) {item? : Option α}
    (nullable : Nullable writes item? values) :
    Record.orDefault none (readNullable read) values.head? = some item? := by
  cases nullable with
  | omitted => rfl
  | null => rfl
  | @stated item value written =>
      -- A value that is `null` would be taken for none, but the reader took this one.
      have taken := reads _ _ written
      cases value with
      | null => cases refuses.symm.trans taken
      | _ => exact congrArg (Option.map some) taken

end Reading

/-! ### Messages -/

/-- Members whose names stand for texts. -/
def Named (members : List (Content × Value)) : Prop :=
  ∀ member ∈ members, member.1.isSome = true

inductive CastName.Documented (name : CastName) : Value → Prop where
  | object {members : List (Content × Value)} (named : Named members)
      (fid : Stated (IsNumber Width.bound64) name.fid (given ["fid"] members))
      (hash : Stated IsText name.hash (given ["hash"] members)) :
      Documented name (.object members)

inductive CastContent.Documented (content : CastContent) : Value → Prop where
  | object {members : List (Content × Value)} (named : Named members)
      (text : Defaulted "" IsText content.text (given ["text"] members))
      (mentions : Defaulted [] (IsList (IsNumber Width.bound64)) content.mentions
        (given ["mentions"] members))
      (positions : Defaulted [] (IsList (IsNumber Width.bound32)) content.positions
        (given ["mentionsPositions"] members))
      (parent : Nullable CastName.Documented content.parent (given ["parentCastId"] members)) :
      Documented content (.object members)

/-- The body of a verification. -/
inductive AddressDocumented (address : String) : Value → Prop where
  | object {members : List (Content × Value)} (named : Named members)
      (stated : Defaulted "" IsText address (given ["address"] members)) :
      AddressDocumented address (.object members)

inductive MessageContent.Documented (content : MessageContent) : Value → Prop where
  | object {members : List (Content × Value)} (named : Named members)
      (kind : Defaulted "" IsText content.kind (given ["type"] members))
      (fid : Defaulted 0 (IsNumber Width.bound64) content.fid (given ["fid"] members))
      (timestamp : Defaulted 0 (IsNumber Width.bound64) content.timestamp
        (given ["timestamp"] members))
      (cast : Nullable CastContent.Documented content.cast (given ["castAddBody"] members))
      (address : Nullable AddressDocumented content.address
        (given ["verificationAddAddressBody", "verificationAddEthAddressBody"] members)) :
      Documented content (.object members)

inductive Message.Documented (message : Message) : Value → Prop where
  | object {members : List (Content × Value)} (named : Named members)
      (content : Nullable MessageContent.Documented message.content (given ["data"] members))
      (hash : Defaulted "" IsText message.hash (given ["hash"] members))
      (signer : Defaulted "" IsText message.signer (given ["signer"] members)) :
      Documented message (.object members)

inductive Page.Documented (page : Page) : Value → Prop where
  | object {members : List (Content × Value)} (named : Named members)
      (messages : Defaulted [] (IsList Message.Documented) page.messages
        (given ["messages"] members))
      (nextPageToken : Nullable IsText page.nextPageToken (given ["nextPageToken"] members)) :
      Documented page (.object members)

theorem CastName.reads : Reads CastName.read CastName.Documented := by
  rintro name _ ⟨named, fid, hash⟩
  rename_i members
  have fields : fieldValues [⟨["fid"], false⟩, ⟨["hash"], false⟩] (.object members) =
      some [(given ["fid"] members).head?, (given ["hash"] members).head?] := by
    apply Record.ofMembers_eq_some (by decide) named
    simp only [List.forall_mem_cons]
    exact ⟨fid.single, hash.single, List.forall_mem_nil _⟩
  have readsFid := (reads_number Width.bound64).required fid
  have readsHash := reads_text.required hash
  simp only [CastName.read, readWord, fields, readsFid, readsHash, Option.bind_eq_bind,
    Option.bind_some, Option.pure_def]

theorem CastContent.reads : Reads CastContent.read CastContent.Documented := by
  rintro content _ ⟨named, text, mentions, positions, parent⟩
  rename_i members
  have fields : fieldValues [⟨["text"], true⟩, ⟨["mentions"], true⟩, ⟨["mentionsPositions"], true⟩,
      ⟨["parentCastId"], false⟩] (.object members) =
      some [(given ["text"] members).head?, (given ["mentions"] members).head?,
        (given ["mentionsPositions"] members).head?, (given ["parentCastId"] members).head?] := by
    apply Record.ofMembers_eq_some (by decide) named
    simp only [List.forall_mem_cons]
    exact ⟨text.single, mentions.single, positions.single, parent.single, List.forall_mem_nil _⟩
  have readsText := reads_text.orDefault text
  have readsMentions := (reads_number Width.bound64).list.orDefault mentions
  have readsPositions := (reads_number Width.bound32).list.orDefault positions
  have readsParent := CastName.reads.nullable rfl parent
  simp only [CastContent.read, readWord, fields, readsText, readsMentions, readsPositions,
    readsParent, Option.bind_eq_bind, Option.bind_some, Option.pure_def]

theorem reads_address : Reads readAddress AddressDocumented := by
  rintro address _ ⟨named, stated⟩
  rename_i members
  have fields : fieldValues [⟨["address"], true⟩] (.object members) =
      some [(given ["address"] members).head?] := by
    apply Record.ofMembers_eq_some (by decide) named
    exact List.forall_mem_singleton.mpr stated.single
  have readsAddress := reads_text.orDefault stated
  simp only [readAddress, fields, readsAddress, Option.bind_eq_bind, Option.bind_some]

theorem MessageContent.reads : Reads MessageContent.read MessageContent.Documented := by
  rintro content _ ⟨named, kind, fid, timestamp, cast, address⟩
  rename_i members
  have fields : fieldValues [⟨["type"], true⟩, ⟨["fid"], true⟩, ⟨["timestamp"], true⟩,
      ⟨["castAddBody"], false⟩,
      ⟨["verificationAddAddressBody", "verificationAddEthAddressBody"], false⟩] (.object members) =
      some [(given ["type"] members).head?, (given ["fid"] members).head?,
        (given ["timestamp"] members).head?, (given ["castAddBody"] members).head?,
        (given ["verificationAddAddressBody", "verificationAddEthAddressBody"] members).head?] := by
    apply Record.ofMembers_eq_some (by decide) named
    simp only [List.forall_mem_cons]
    exact ⟨kind.single, fid.single, timestamp.single, cast.single, address.single,
      List.forall_mem_nil _⟩
  have readsKind := reads_text.orDefault kind
  have readsFid := (reads_number Width.bound64).orDefault fid
  have readsTimestamp := (reads_number Width.bound64).orDefault timestamp
  have readsCast := CastContent.reads.nullable rfl cast
  have readsAddress := reads_address.nullable rfl address
  simp only [MessageContent.read, readWord, fields, readsKind, readsFid, readsTimestamp, readsCast,
    readsAddress, Option.bind_eq_bind, Option.bind_some, Option.pure_def]

theorem Message.reads : Reads Message.read Message.Documented := by
  rintro message _ ⟨named, content, hash, signer⟩
  rename_i members
  have fields : fieldValues [⟨["data"], false⟩, ⟨["hash"], true⟩, ⟨["signer"], true⟩]
      (.object members) =
      some [(given ["data"] members).head?, (given ["hash"] members).head?,
        (given ["signer"] members).head?] := by
    apply Record.ofMembers_eq_some (by decide) named
    simp only [List.forall_mem_cons]
    exact ⟨content.single, hash.single, signer.single, List.forall_mem_nil _⟩
  have readsContent := MessageContent.reads.nullable rfl content
  have readsHash := reads_text.orDefault hash
  have readsSigner := reads_text.orDefault signer
  simp only [Message.read, fields, readsContent, readsHash, readsSigner, Option.bind_eq_bind,
    Option.bind_some, Option.pure_def]

theorem Page.reads : Reads Page.read Page.Documented := by
  rintro page _ ⟨named, messages, nextPageToken⟩
  rename_i members
  have fields : fieldValues [⟨["messages"], true⟩, ⟨["nextPageToken"], true⟩] (.object members) =
      some [(given ["messages"] members).head?, (given ["nextPageToken"] members).head?] := by
    apply Record.ofMembers_eq_some (by decide) named
    simp only [List.forall_mem_cons]
    exact ⟨messages.single, nextPageToken.single, List.forall_mem_nil _⟩
  have readsMessages := Message.reads.list.orDefault messages
  have readsToken := reads_text.nullable rfl nextPageToken
  simp only [Page.read, fields, readsMessages, readsToken, Option.bind_eq_bind, Option.bind_some,
    Option.pure_def]

/-- Every text in which a page stands in the documented form brings just that page, whatever was
asked and came before. -/
theorem documented_page_is_brought {page : Page} {value : Value} {text : String}
    (documented : page.Documented value) (written : value.Written text)
    {hub : List Exchange → Request → Answer} {past : List Exchange} {request : Request}
    (answers : hub past request = .response 200 (some text)) :
    ((fetch request Page.read).record hub past).value = .ok page := by
  have readable : (Value.parse? text).bind Page.read = some page := by
    rw [Json.parse?_eq_some_iff.mpr written]
    exact Page.reads page value documented
  rw [Task.record_fetch, answers]
  exact (Answer.outcome_eq_ok_iff _ _ _ _).mpr ⟨text, rfl, readable⟩

/-- A verification by an address of one line feed, and a message without data. -/
def verifiedPage : Page where
  messages :=
    [{ content := some
        { kind := "", fid := 18446744073709551615, timestamp := 0, cast := none
          address := some "\n" }
       hash := ""
       signer := "😀/" },
      { content := none, hash := "", signer := "" }]
  nextPageToken := none

def verifiedData : Value :=
  .record [("verificationAddEthAddressBody", .record [("address", .ofString "\n")]),
    ("seen", .array [.number "-1.5e3".toList, .record [("by", .null)]]),
    ("fid", .ofNat 18446744073709551615)]

def verifiedValue : Value :=
  .record [("messages", .array
    [.record [("signer", .ofString "😀/"), ("data", verifiedData)], .record [("data", .null)]])]

def verifiedText : String :=
  "\x7b\"messages\" : [ \x7b\"signer\":\"\\uD83D\\uDe00\\/\", \"data\":\t\x7b
    \"verificationAddEthAddressBody\":\x7b\"address\":\"\\n\"\x7d,
    \"s\\u0065en\":[-1.5e3, \x7b\"by\":null\x7d],
    \"fid\":18446744073709551615\x7d\x7d, \x7b\"data\":null\x7d]\x7d\r\n"

theorem named_record (members : List (String × Value)) :
    Named (members.map fun (name, value) => (some name.toList, value)) :=
  List.forall_mem_map.mpr fun _ _ => rfl

theorem documented_verifiedValue : verifiedPage.Documented verifiedValue := by
  have data : MessageContent.Documented
      { kind := "", fid := 18446744073709551615, timestamp := 0, cast := none
        address := some "\n" } verifiedData := by
    apply MessageContent.Documented.object (named_record _)
    · exact .omitted
    · exact .stated (.digits (by decide))
    · exact .omitted
    · exact .omitted
    · exact .stated (.object (named_record _) (.stated (.string _)))
  have messages : IsList Message.Documented verifiedPage.messages (.array
      [.record [("signer", .ofString "😀/"), ("data", verifiedData)],
        .record [("data", .null)]]) := by
    apply IsList.array
    apply List.Forall₂.cons
    · exact .object (named_record _) (.stated data) .omitted (.stated (.string _))
    · apply List.Forall₂.cons _ .nil
      exact .object (named_record _) .null .omitted .omitted
  exact .object (named_record _) (.stated messages) .omitted

theorem written_verifiedText : verifiedValue.Written verifiedText := by
  have finds : Json.tokens? verifiedText.toList = some verifiedValue.tokens := by
    decide +kernel
  exact Json.laid_of_tokens? finds

/-- Members in disorder and an unknown one, escapes of either letter case for one character in two
units, the former name of a verification, and all left out that may be. -/
theorem verifiedText_is_brought :
    verifiedPage.Documented verifiedValue ∧ verifiedValue.Written verifiedText ∧
      ((fetch (.verifications 9) Page.read).record
        (fun _ _ => .response 200 (some verifiedText)) []).value = .ok verifiedPage :=
  ⟨documented_verifiedValue, written_verifiedText,
    documented_page_is_brought documented_verifiedValue written_verifiedText rfl⟩

end PollHerald.Hub
