import PollHerald.Command
import PollHerald.Proofs.Json.Printer

set_option autoImplicit false

/-! The document of a poll request. Whatever texts, lists, numbers and bytes the request holds, its
document is one line that any reader of JSON takes, and it is the document of no other request. -/

namespace PollHerald.Command

open Json Json.Value

/-! ### No two requests have one value -/

theorem castIdValue_inj {one other : CastId} :
    castIdValue one = castIdValue other ↔ one = other := by
  have byte : ∀ one other : UInt8, ofNat one.toNat = ofNat other.toNat → one = other := by
    intro one other same
    exact UInt8.toNat_inj.mp (ofNat_inj.mp same)
  cases one
  cases other
  simp only [castIdValue, record_inj, ofNat_inj, arrayOf_inj byte, List.cons.injEq, Prod.mk.injEq,
    true_and, and_true, CastId.mk.injEq]

theorem parentValue_inj {one other : Option CastId} :
    (one.map castIdValue).getD .null = (other.map castIdValue).getD .null ↔ one = other := by
  cases one with
  | none =>
      cases other with
      | none => exact ⟨fun _ => rfl, fun _ => rfl⟩
      | some other => exact ⟨nofun, nofun⟩
  | some one =>
      cases other with
      | none => exact ⟨nofun, nofun⟩
      | some other => exact castIdValue_inj.trans (Option.some_inj).symm

theorem profileValue_inj {one other : Profile} :
    profileValue one = profileValue other ↔ one = other := by
  have text : ∀ one other : String, ofString one = ofString other → one = other :=
    fun _ _ => ofString_inj.mp
  cases one
  cases other
  simp only [profileValue, record_inj, ofNat_inj, ofString_inj, arrayOf_inj text, List.cons.injEq,
    Prod.mk.injEq, true_and, and_true, Profile.mk.injEq]

theorem durationValue_inj {one other : Nat} :
    durationValue one = durationValue other ↔ one = other := by
  simp only [durationValue, record_inj, ofNat_inj, List.cons.injEq, Prod.mk.injEq, true_and,
    and_true]
  constructor
  · rintro ⟨seconds, rest⟩
    rw [← Nat.div_add_mod one, seconds, rest, Nat.div_add_mod]
  · rintro rfl
    exact ⟨rfl, rfl⟩

theorem pollValue_inj {one other : Poll} : pollValue one = pollValue other ↔ one = other := by
  have text : ∀ one other : String, ofString one = ofString other → one = other :=
    fun _ _ => ofString_inj.mp
  cases one
  cases other
  simp only [pollValue, record_inj, durationValue_inj, ofString_inj, arrayOf_inj text,
    List.cons.injEq, Prod.mk.injEq, true_and, and_true, Poll.mk.injEq]

theorem mentionValue_inj {one other : Mention} :
    mentionValue one = mentionValue other ↔ one = other := by
  cases one
  cases other
  simp only [mentionValue, record_inj, ofNat_inj, ofString_inj, parentValue_inj,
    Value.truth.injEq, List.cons.injEq, Prod.mk.injEq, true_and, and_true, Mention.mk.injEq]

theorem requestValue_inj {one other : PollRequest} :
    requestValue one = requestValue other ↔ one = other := by
  cases one
  cases other
  simp only [requestValue, record_inj, profileValue_inj, pollValue_inj, mentionValue_inj,
    List.cons.injEq, Prod.mk.injEq, true_and, and_true, PollRequest.mk.injEq]

/-! ### Every request is written -/

theorem proper_castIdValue (cast : CastId) : (castIdValue cast).Proper := by
  apply proper_record
  simp only [List.forall_mem_cons]
  exact ⟨proper_ofNat _, itemsProper_map (fun _ => proper_ofNat _) _, List.forall_mem_nil _⟩

theorem proper_parentValue (parent : Option CastId) :
    ((parent.map castIdValue).getD .null).Proper := by
  cases parent with
  | none => exact trivial
  | some cast => exact proper_castIdValue cast

theorem proper_profileValue (profile : Profile) : (profileValue profile).Proper := by
  apply proper_record
  simp only [List.forall_mem_cons]
  exact ⟨proper_ofNat _, proper_ofString _, proper_ofString _,
    itemsProper_map proper_ofString _, itemsProper_map proper_ofString _, List.forall_mem_nil _⟩

theorem proper_durationValue (nanoseconds : Nat) : (durationValue nanoseconds).Proper := by
  apply proper_record
  simp only [List.forall_mem_cons]
  exact ⟨proper_ofNat _, proper_ofNat _, List.forall_mem_nil _⟩

theorem proper_pollValue (poll : Poll) : (pollValue poll).Proper := by
  apply proper_record
  simp only [List.forall_mem_cons]
  exact ⟨proper_ofString _, itemsProper_map proper_ofString _, proper_durationValue _,
    List.forall_mem_nil _⟩

theorem proper_mentionValue (mention : Mention) : (mentionValue mention).Proper := by
  apply proper_record
  simp only [List.forall_mem_cons]
  exact ⟨trivial, proper_ofString _, proper_ofNat _, proper_ofString _, proper_ofNat _,
    proper_parentValue _, List.forall_mem_nil _⟩

theorem proper_requestValue (request : PollRequest) : (requestValue request).Proper := by
  apply proper_record
  simp only [List.forall_mem_cons]
  exact ⟨proper_profileValue _, proper_pollValue _, proper_mentionValue _, List.forall_mem_nil _⟩

theorem parse?_document (request : PollRequest) :
    Value.parse? (document request) = some (requestValue request) :=
  parse?_render (proper_requestValue request)

theorem document_inj {one other : PollRequest} : document one = document other ↔ one = other := by
  constructor
  · intro same
    have values : some (requestValue one) = some (requestValue other) := by
      rw [← parse?_document, ← parse?_document, same]
    exact requestValue_inj.mp (Option.some.inj values)
  · exact congrArg document

/-- The document of a request has no character below U+0020 in it, is read as the value of the
request, and is the document of that request alone. -/
theorem document_stands_for_its_request (request : PollRequest) :
    (∀ character ∈ (document request).toList, 0x20 ≤ character.toNat) ∧
      Value.parse? (document request) = some (requestValue request) ∧
      ∀ other, document other = document request ↔ other = request := by
  refine ⟨?_, parse?_document request, fun _ => document_inj⟩
  rw [document, String.toList_ofList]
  exact printable_render (proper_requestValue request)

end PollHerald.Command
