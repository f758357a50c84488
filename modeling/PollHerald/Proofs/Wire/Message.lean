import PollHerald.Proofs.Wire.Field
import PollHerald.Wire.Signed

set_option autoImplicit false

/-! Different messages have different bytes. Every member of a message fills the fields of a number
that no other member uses, and a parent one of two such numbers by its kind. So the fields can be
read off the bytes, and the members off the fields. -/

namespace PollHerald.Wire

theorem utf8_injective : Function.Injective Text.utf8 := by
  intro left right same
  apply String.toByteArray_inj.mp
  apply ByteArray.ext
  exact Array.toList_inj.mp same

/-- Numbers below zero become residues above all that a signed number of 32 bits can be. -/
theorem signedCode_injective : Function.Injective signedCode := by
  intro left right same
  apply Int32.toInt_inj.mp
  have leftLow := left.le_toInt
  have leftHigh := left.toInt_lt
  have rightLow := right.le_toInt
  have rightHigh := right.toInt_lt
  unfold signedCode Width.bound64 at same
  omega

namespace Field

theorem numbered_eq {left right : List Field} (same : encodeAll left = encodeAll right)
    (number : Nat) : numbered number left = numbered number right := by
  rw [encodeAll_injective same]

/-- The field of bytes that are written wherever there are any to write, even none at all. -/
def ofPresent (number : Nat) (value : Option (List UInt8)) : List Field :=
  ofEach number value.toList

@[simp] theorem encodeAll_ofPresent (number : Nat) (value : Option (List UInt8)) :
    encodeAll (ofPresent number value) = presentBytes number value := by
  unfold ofPresent
  rw [encodeAll_ofEach]
  cases value with
  | none => rfl
  | some bytes => exact List.append_nil _

@[simp] theorem numbered_ofPresent (wanted number : Nat) (value : Option (List UInt8)) :
    numbered wanted (ofPresent number value) =
      if number = wanted then ofPresent number value else [] :=
  numbered_ofEach wanted number value.toList

theorem ofPresent_injective (number : Nat) : Function.Injective (ofPresent number) := by
  intro left right same
  have sameList := ofEach_injective number same
  apply Option.ext
  intro bytes
  rw [← Option.mem_toList, sameList, Option.mem_toList]

end Field

open PollHerald.Wire.Field

def castIdFields (cast : CastId) : List Field :=
  ofNumber 1 cast.fid ++ ofBytes 2 cast.hash

theorem encodeAll_castIdFields (cast : CastId) :
    encodeAll (castIdFields cast) = castIdBytes cast := by
  simp only [castIdFields, castIdBytes, encodeAll_append, encodeAll_ofNumber, encodeAll_ofBytes]

theorem castIdBytes_injective : Function.Injective castIdBytes := by
  intro left right same
  rw [← encodeAll_castIdFields, ← encodeAll_castIdFields] at same
  have sameFid : left.fid = right.fid := by
    apply ofNumber_injective 1
    simpa [castIdFields] using numbered_eq same 1
  have sameHash : left.hash = right.hash := by
    apply ofBytes_injective 2
    simpa [castIdFields] using numbered_eq same 2
  exact congrArg₂ CastId.mk sameFid sameHash

def Embed.fields : Embed → List Field
  | .none => []
  | .url address => ofEach 1 [Text.utf8 address]
  | .cast target => ofEach 2 [castIdBytes target]

theorem Embed.encodeAll_fields (embed : Embed) : encodeAll embed.fields = embed.encode := by
  cases embed with
  | none => rfl
  | url address => exact List.append_nil _
  | cast target => exact List.append_nil _

theorem Embed.fields_injective : Function.Injective Embed.fields := by
  intro left right same
  cases left with
  | none =>
      cases right with
      | none => rfl
      | url address => cases same
      | cast target => cases same
  | url address =>
      cases right with
      | none => cases same
      | url other =>
          have sameBytes := ofEach_injective 1 same
          rw [utf8_injective (List.cons.inj sameBytes).1]
      | cast target => simp [fields, ofEach] at same
  | cast target =>
      cases right with
      | none => cases same
      | url address => simp [fields, ofEach] at same
      | cast other =>
          have sameBytes := ofEach_injective 2 same
          rw [castIdBytes_injective (List.cons.inj sameBytes).1]

theorem Embed.encode_injective : Function.Injective Embed.encode := by
  intro left right same
  rw [← Embed.encodeAll_fields, ← Embed.encodeAll_fields] at same
  exact Embed.fields_injective (encodeAll_injective same)

namespace Parent

def castFields : Parent → List Field
  | .cast target => ofEach 3 [castIdBytes target]
  | _ => []

def urlFields : Parent → List Field
  | .url address => ofEach 7 [Text.utf8 address]
  | _ => []

@[simp] theorem encodeAll_castFields (parent : Parent) :
    encodeAll parent.castFields = parent.castBytes := by
  cases parent with
  | none => rfl
  | cast target => exact List.append_nil _
  | url address => rfl

@[simp] theorem encodeAll_urlFields (parent : Parent) :
    encodeAll parent.urlFields = parent.urlBytes := by
  cases parent with
  | none => rfl
  | cast target => rfl
  | url address => exact List.append_nil _

@[simp] theorem numbered_castFields (wanted : Nat) (parent : Parent) :
    numbered wanted parent.castFields = if 3 = wanted then parent.castFields else [] := by
  apply numbered_of_all
  intro field member
  cases parent with
  | none => cases member
  | cast target => rw [List.mem_singleton.mp member]
  | url address => cases member

@[simp] theorem numbered_urlFields (wanted : Nat) (parent : Parent) :
    numbered wanted parent.urlFields = if 7 = wanted then parent.urlFields else [] := by
  apply numbered_of_all
  intro field member
  cases parent with
  | none => cases member
  | cast target => cases member
  | url address => rw [List.mem_singleton.mp member]

/-- A parent that fills neither field is none, and there is none that fills both. -/
theorem eq_of_fields {left right : Parent} (sameCast : left.castFields = right.castFields)
    (sameUrl : left.urlFields = right.urlFields) : left = right := by
  cases left with
  | none =>
      cases right with
      | none => rfl
      | cast target => cases sameCast
      | url address => cases sameUrl
  | cast target =>
      cases right with
      | none => cases sameCast
      | cast other =>
          have sameBytes := ofEach_injective 3 sameCast
          rw [castIdBytes_injective (List.cons.inj sameBytes).1]
      | url address => cases sameCast
  | url address =>
      cases right with
      | none => cases sameUrl
      | cast target => cases sameUrl
      | url other =>
          have sameBytes := ofEach_injective 7 sameUrl
          rw [utf8_injective (List.cons.inj sameBytes).1]

end Parent

def CastBody.fields (body : CastBody) : List Field :=
  ofEach 1 (body.deprecatedEmbeds.map Text.utf8) ++
    ofBytes 2 (body.mentions.flatMap varint) ++
    body.parent.castFields ++
    ofBytes 4 (Text.utf8 body.text) ++
    ofBytes 5 (body.positions.flatMap varint) ++
    ofEach 6 (body.embeds.map Embed.encode) ++
    body.parent.urlFields

theorem CastBody.encodeAll_fields (body : CastBody) : encodeAll body.fields = body.encode := by
  simp only [fields, encode, packedNumbers, encodeAll_append, encodeAll_ofEach, encodeAll_ofBytes,
    Parent.encodeAll_castFields, Parent.encodeAll_urlFields, List.flatMap_map]

theorem CastBody.encode_injective : Function.Injective CastBody.encode := by
  intro left right same
  rw [← encodeAll_fields, ← encodeAll_fields] at same
  have sameEmbedTexts : left.deprecatedEmbeds = right.deprecatedEmbeds := by
    apply List.map_injective_iff.mpr utf8_injective
    apply ofEach_injective 1
    simpa [fields] using numbered_eq same 1
  have sameMentions : left.mentions = right.mentions := by
    apply packed_injective
    apply ofBytes_injective 2
    simpa [fields] using numbered_eq same 2
  have sameParent : left.parent = right.parent := by
    apply Parent.eq_of_fields
    · simpa [fields] using numbered_eq same 3
    · simpa [fields] using numbered_eq same 7
  have sameText : left.text = right.text := by
    apply utf8_injective
    apply ofBytes_injective 4
    simpa [fields] using numbered_eq same 4
  have samePositions : left.positions = right.positions := by
    apply packed_injective
    apply ofBytes_injective 5
    simpa [fields] using numbered_eq same 5
  have sameEmbeds : left.embeds = right.embeds := by
    apply List.map_injective_iff.mpr Embed.encode_injective
    apply ofEach_injective 6
    simpa [fields] using numbered_eq same 6
  obtain ⟨_, _, _, _, _, _⟩ := left
  rw [CastBody.mk.injEq]
  exact ⟨sameEmbedTexts, sameMentions, sameParent, sameText, samePositions, sameEmbeds⟩

def MessageData.fields (data : MessageData) : List Field :=
  ofNumber 1 (signedCode data.kind) ++
    ofNumber 2 data.fid ++
    ofNumber 3 data.timestamp ++
    ofNumber 4 (signedCode data.network) ++
    ofPresent 5 (data.body.map CastBody.encode)

theorem MessageData.encodeAll_fields (data : MessageData) :
    encodeAll data.fields = data.encode := by
  simp only [fields, encode, encodeAll_append, encodeAll_ofNumber, encodeAll_ofPresent]

theorem MessageData.encode_injective : Function.Injective MessageData.encode := by
  intro left right same
  rw [← encodeAll_fields, ← encodeAll_fields] at same
  have sameKind : left.kind = right.kind := by
    apply signedCode_injective
    apply ofNumber_injective 1
    simpa [fields] using numbered_eq same 1
  have sameFid : left.fid = right.fid := by
    apply ofNumber_injective 2
    simpa [fields] using numbered_eq same 2
  have sameTimestamp : left.timestamp = right.timestamp := by
    apply ofNumber_injective 3
    simpa [fields] using numbered_eq same 3
  have sameNetwork : left.network = right.network := by
    apply signedCode_injective
    apply ofNumber_injective 4
    simpa [fields] using numbered_eq same 4
  have sameBody : left.body = right.body := by
    apply Option.map_injective CastBody.encode_injective
    apply ofPresent_injective 5
    simpa [fields] using numbered_eq same 5
  obtain ⟨_, _, _, _, _⟩ := left
  rw [MessageData.mk.injEq]
  exact ⟨sameKind, sameFid, sameTimestamp, sameNetwork, sameBody⟩

def Message.fields (message : Message) : List Field :=
  ofPresent 1 (message.data.map MessageData.encode) ++
    ofBytes 2 message.hash ++
    ofNumber 3 (signedCode message.hashScheme) ++
    ofBytes 4 message.signature ++
    ofNumber 5 (signedCode message.signatureScheme) ++
    ofBytes 6 message.signer ++
    ofPresent 7 message.dataBytes

theorem Message.encodeAll_fields (message : Message) :
    encodeAll message.fields = message.encode := by
  simp only [fields, encode, encodeAll_append, encodeAll_ofNumber, encodeAll_ofBytes,
    encodeAll_ofPresent]

theorem Message.encode_injective : Function.Injective Message.encode := by
  intro left right same
  rw [← encodeAll_fields, ← encodeAll_fields] at same
  have sameData : left.data = right.data := by
    apply Option.map_injective MessageData.encode_injective
    apply ofPresent_injective 1
    simpa [fields] using numbered_eq same 1
  have sameHash : left.hash = right.hash := by
    apply ofBytes_injective 2
    simpa [fields] using numbered_eq same 2
  have sameHashScheme : left.hashScheme = right.hashScheme := by
    apply signedCode_injective
    apply ofNumber_injective 3
    simpa [fields] using numbered_eq same 3
  have sameSignature : left.signature = right.signature := by
    apply ofBytes_injective 4
    simpa [fields] using numbered_eq same 4
  have sameSignatureScheme : left.signatureScheme = right.signatureScheme := by
    apply signedCode_injective
    apply ofNumber_injective 5
    simpa [fields] using numbered_eq same 5
  have sameSigner : left.signer = right.signer := by
    apply ofBytes_injective 6
    simpa [fields] using numbered_eq same 6
  have sameDataBytes : left.dataBytes = right.dataBytes := by
    apply ofPresent_injective 7
    simpa [fields] using numbered_eq same 7
  obtain ⟨_, _, _, _, _, _, _⟩ := left
  rw [Message.mk.injEq]
  exact ⟨sameData, sameHash, sameHashScheme, sameSignature, sameSignatureScheme, sameSigner,
    sameDataBytes⟩

/-- The bytes of a message, and those that are hashed and signed for it, stand for one content. -/
theorem encodings_are_unambiguous :
    Function.Injective MessageData.encode ∧ Function.Injective Message.encode ∧
      ∀ (identity other : Identity) (time otherTime : Nat) (body otherBody : CastBody),
        (Message.sign identity (.ofCast identity time body)).dataBytes =
            (Message.sign other (.ofCast other otherTime otherBody)).dataBytes →
          identity.fid = other.fid ∧ time = otherTime ∧ body = otherBody := by
  refine ⟨MessageData.encode_injective, Message.encode_injective, ?_⟩
  intro identity other time otherTime body otherBody same
  have sameBytes := Option.some.inj same
  have sameData := MessageData.encode_injective sameBytes
  unfold MessageData.ofCast at sameData
  rw [MessageData.mk.injEq] at sameData
  obtain ⟨_, sameFid, sameTime, _, sameBody⟩ := sameData
  exact ⟨sameFid, sameTime, Option.some.inj sameBody⟩

end PollHerald.Wire
