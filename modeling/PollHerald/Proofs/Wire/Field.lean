import Mathlib.Data.List.Basic
import PollHerald.Wire.Field

set_option autoImplicit false

/-! A message as a list of fields. No number is the beginning of another one, and so no field is
either. Hence the bytes of a message can be cut into fields in one way only, and what stands in the
fields of one number can be read off them. -/

namespace PollHerald.Wire

variable {α : Type}

/-- Values are told apart by their bytes even where anything may follow them. -/
def IsPrefixCode (encode : α → List UInt8) : Prop :=
  ∀ left right leftRest rightRest, encode left ++ leftRest = encode right ++ rightRest →
    left = right ∧ leftRest = rightRest

namespace IsPrefixCode

variable {encode : α → List UInt8}

theorem flatMap_injective (code : IsPrefixCode encode) (filled : ∀ value, encode value ≠ []) :
    Function.Injective (List.flatMap encode) := by
  intro left
  induction left with
  | nil =>
      intro right same
      cases right with
      | nil => rfl
      | cons value rest =>
          have nothing : encode value ++ rest.flatMap encode = [] := same.symm
          exact absurd (List.append_eq_nil_iff.mp nothing).1 (filled value)
  | cons value rest ih =>
      intro right same
      cases right with
      | nil =>
          have nothing : encode value ++ rest.flatMap encode = [] := same
          exact absurd (List.append_eq_nil_iff.mp nothing).1 (filled value)
      | cons other others =>
          obtain ⟨sameValue, sameRest⟩ := code value other _ _ same
          rw [sameValue, ih sameRest]

end IsPrefixCode

theorem varint_of_lt {number : Nat} (small : number < 128) :
    varint number = [number.toUInt8] := by
  rw [varint, if_pos small]

theorem varint_of_ge {number : Nat} (large : 128 ≤ number) :
    varint number = (number % 128 + 128).toUInt8 :: varint (number / 128) := by
  rw [varint, if_neg (Nat.not_lt.mpr large)]

theorem varint_ne_nil (number : Nat) : varint number ≠ [] := by
  by_cases small : number < 128
  · rw [varint_of_lt small]
    exact List.cons_ne_nil _ _
  · rw [varint_of_ge (Nat.le_of_not_lt small)]
    exact List.cons_ne_nil _ _

private theorem eq_of_toUInt8_eq {left right : Nat} (leftFits : left < 256)
    (rightFits : right < 256) (same : left.toUInt8 = right.toUInt8) : left = right := by
  have values := congrArg UInt8.toNat same
  rw [Nat.toUInt8_eq, Nat.toUInt8_eq, UInt8.toNat_ofNat_of_lt' leftFits,
    UInt8.toNat_ofNat_of_lt' rightFits] at values
  exact values

/-- All bytes of a number but the last are at least 128, so its end shows. -/
theorem varint_isPrefixCode : IsPrefixCode varint := by
  intro left
  induction left using Nat.strongRecOn with
  | ind left ih =>
      intro right leftRest rightRest same
      by_cases leftSmall : left < 128
      · by_cases rightSmall : right < 128
        · rw [varint_of_lt leftSmall, varint_of_lt rightSmall] at same
          obtain ⟨sameByte, sameRest⟩ := List.cons.inj same
          exact ⟨eq_of_toUInt8_eq (by omega) (by omega) sameByte, sameRest⟩
        · rw [varint_of_lt leftSmall, varint_of_ge (Nat.le_of_not_lt rightSmall)] at same
          have sameByte := eq_of_toUInt8_eq (by omega) (by omega) (List.cons.inj same).1
          omega
      · by_cases rightSmall : right < 128
        · rw [varint_of_ge (Nat.le_of_not_lt leftSmall), varint_of_lt rightSmall] at same
          have sameByte := eq_of_toUInt8_eq (by omega) (by omega) (List.cons.inj same).1
          omega
        · rw [varint_of_ge (Nat.le_of_not_lt leftSmall),
            varint_of_ge (Nat.le_of_not_lt rightSmall)] at same
          obtain ⟨sameHead, sameTail⟩ := List.cons.inj same
          have sameByte := eq_of_toUInt8_eq (by omega) (by omega) sameHead
          have shorter : left / 128 < left := by omega
          obtain ⟨sameHigh, sameRest⟩ := ih (left / 128) shorter (right / 128) _ _ sameTail
          refine ⟨?_, sameRest⟩
          omega

theorem packed_injective : Function.Injective (List.flatMap varint) :=
  varint_isPrefixCode.flatMap_injective varint_ne_nil

/-- Bytes behind their number. -/
def sized (bytes : List UInt8) : List UInt8 :=
  varint bytes.length ++ bytes

theorem sized_isPrefixCode : IsPrefixCode sized := by
  intro left right leftRest rightRest same
  unfold sized at same
  rw [List.append_assoc, List.append_assoc] at same
  obtain ⟨sameLength, sameBytes⟩ := varint_isPrefixCode _ _ _ _ same
  exact List.append_inj sameBytes sameLength

theorem Kind.code_lt (kind : Kind) : kind.code < 8 := by
  cases kind <;> decide

theorem Kind.code_injective : Function.Injective Kind.code := by
  intro left right same
  cases left <;> cases right <;> first | rfl | cases same

theorem key_cancel {left right : Nat} {leftKind rightKind : Kind} {leftRest rightRest : List UInt8}
    (same : key left leftKind ++ leftRest = key right rightKind ++ rightRest) :
    left = right ∧ leftKind = rightKind ∧ leftRest = rightRest := by
  obtain ⟨sameKey, sameRest⟩ := varint_isPrefixCode _ _ _ _ same
  have leftSmall := leftKind.code_lt
  have rightSmall := rightKind.code_lt
  have sameField : left = right := by omega
  have sameCode : leftKind.code = rightKind.code := by omega
  exact ⟨sameField, Kind.code_injective sameCode, sameRest⟩

inductive Content where
  | number (value : Nat)
  | bytes (value : List UInt8)
  deriving DecidableEq

structure Field where
  number : Nat
  content : Content
  deriving DecidableEq

namespace Field

def encode (field : Field) : List UInt8 :=
  match field.content with
  | .number value => key field.number .number ++ varint value
  | .bytes value => bytesField field.number value

theorem encode_ne_nil (field : Field) : field.encode ≠ [] := by
  unfold encode
  split
  · exact List.append_ne_nil_of_left_ne_nil (varint_ne_nil _) _
  · rw [bytesField, List.append_assoc]
    exact List.append_ne_nil_of_left_ne_nil (varint_ne_nil _) _

theorem encode_isPrefixCode : IsPrefixCode encode := by
  intro left right leftRest rightRest same
  obtain ⟨leftNumber, leftContent⟩ := left
  obtain ⟨rightNumber, rightContent⟩ := right
  cases leftContent with
  | number leftValue =>
      cases rightContent with
      | number rightValue =>
          simp only [encode, List.append_assoc] at same
          obtain ⟨sameNumber, _, sameTail⟩ := key_cancel same
          obtain ⟨sameValue, sameRest⟩ := varint_isPrefixCode _ _ _ _ sameTail
          rw [sameNumber, sameValue]
          exact ⟨rfl, sameRest⟩
      | bytes rightValue =>
          simp only [encode, bytesField, List.append_assoc] at same
          obtain ⟨_, sameKind, _⟩ := key_cancel same
          cases sameKind
  | bytes leftValue =>
      cases rightContent with
      | number rightValue =>
          simp only [encode, bytesField, List.append_assoc] at same
          obtain ⟨_, sameKind, _⟩ := key_cancel same
          cases sameKind
      | bytes rightValue =>
          simp only [encode, bytesField, List.append_assoc] at same
          obtain ⟨sameNumber, _, sameTail⟩ := key_cancel same
          have sizedTail : sized leftValue ++ leftRest = sized rightValue ++ rightRest := by
            simpa only [sized, List.append_assoc] using sameTail
          obtain ⟨sameValue, sameRest⟩ := sized_isPrefixCode _ _ _ _ sizedTail
          rw [sameNumber, sameValue]
          exact ⟨rfl, sameRest⟩

/-- The bytes of fields one after another. -/
def encodeAll (fields : List Field) : List UInt8 :=
  fields.flatMap encode

theorem encodeAll_injective : Function.Injective encodeAll :=
  encode_isPrefixCode.flatMap_injective encode_ne_nil

@[simp] theorem encodeAll_append (first second : List Field) :
    encodeAll (first ++ second) = encodeAll first ++ encodeAll second :=
  List.flatMap_append

/-- The fields of one number. -/
def numbered (number : Nat) (fields : List Field) : List Field :=
  fields.filter fun field => field.number == number

@[simp] theorem numbered_append (number : Nat) (first second : List Field) :
    numbered number (first ++ second) = numbered number first ++ numbered number second :=
  List.filter_append ..

theorem numbered_of_all {number : Nat} {fields : List Field}
    (same : ∀ field ∈ fields, field.number = number) (wanted : Nat) :
    numbered wanted fields = if number = wanted then fields else [] := by
  split
  · rename_i isWanted
    apply List.filter_eq_self.mpr
    intro field member
    rw [same field member, isWanted, beq_self_eq_true]
  · rename_i isOther
    apply List.filter_eq_nil_iff.mpr
    intro field member
    rw [same field member, beq_iff_eq]
    exact isOther

/-- The field of a number that is left out when it is zero. -/
def ofNumber (number value : Nat) : List Field :=
  if value = 0 then [] else [{ number, content := .number value }]

/-- The field of bytes that are left out when there are none. -/
def ofBytes (number : Nat) (value : List UInt8) : List Field :=
  if value.isEmpty then [] else [{ number, content := .bytes value }]

/-- The fields of byte strings that are all written, empty ones too. -/
def ofEach (number : Nat) (values : List (List UInt8)) : List Field :=
  values.map fun value => { number, content := .bytes value }

@[simp] theorem encodeAll_ofNumber (number value : Nat) :
    encodeAll (ofNumber number value) = optionalNumber number value := by
  unfold ofNumber optionalNumber
  split
  · rfl
  · exact List.append_nil _

@[simp] theorem encodeAll_ofBytes (number : Nat) (value : List UInt8) :
    encodeAll (ofBytes number value) = optionalBytes number value := by
  unfold ofBytes optionalBytes
  split
  · rfl
  · exact List.append_nil _

@[simp] theorem encodeAll_ofEach (number : Nat) (values : List (List UInt8)) :
    encodeAll (ofEach number values) = values.flatMap (bytesField number) :=
  List.flatMap_map ..

@[simp] theorem numbered_ofNumber (wanted number value : Nat) :
    numbered wanted (ofNumber number value) =
      if number = wanted then ofNumber number value else [] := by
  apply numbered_of_all
  intro field member
  unfold ofNumber at member
  split at member
  · cases member
  · rw [List.mem_singleton.mp member]

@[simp] theorem numbered_ofBytes (wanted number : Nat) (value : List UInt8) :
    numbered wanted (ofBytes number value) =
      if number = wanted then ofBytes number value else [] := by
  apply numbered_of_all
  intro field member
  unfold ofBytes at member
  split at member
  · cases member
  · rw [List.mem_singleton.mp member]

@[simp] theorem numbered_ofEach (wanted number : Nat) (values : List (List UInt8)) :
    numbered wanted (ofEach number values) =
      if number = wanted then ofEach number values else [] := by
  apply numbered_of_all
  intro field member
  obtain ⟨value, _, rfl⟩ := List.mem_map.mp member
  rfl

theorem ofNumber_injective (number : Nat) : Function.Injective (ofNumber number) := by
  intro left right same
  unfold ofNumber at same
  split at same
  · split at same
    · omega
    · cases same
  · split at same
    · cases same
    · cases same
      rfl

theorem ofBytes_injective (number : Nat) : Function.Injective (ofBytes number) := by
  intro left right same
  unfold ofBytes at same
  split at same
  · rename_i leftEmpty
    split at same
    · rename_i rightEmpty
      rw [List.isEmpty_iff.mp leftEmpty, List.isEmpty_iff.mp rightEmpty]
    · cases same
  · split at same
    · cases same
    · cases same
      rfl

theorem ofEach_injective (number : Nat) : Function.Injective (ofEach number) := by
  apply List.map_injective_iff.mpr
  intro left right same
  cases same
  rfl

end Field

end PollHerald.Wire
