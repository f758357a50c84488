import PollHerald.Text.Bytes

set_option autoImplicit false

/-! Byte lengths and cuts of texts. A cut succeeds exactly where a front part of the text has the
byte length that is asked for, and it gives back that part and the rest. -/

namespace PollHerald.Text

@[simp] theorem byteLength_append (front back : List Char) :
    byteLength (front ++ back) = byteLength front + byteLength back := by
  induction front with
  | nil => simp only [List.nil_append, byteLength, Nat.zero_add]
  | cons character rest ih => simp only [List.cons_append, byteLength, ih, Nat.add_assoc]

theorem byteLength_toList (text : String) : byteLength text.toList = text.utf8ByteSize := by
  have sized (characters : List Char) :
      (String.ofList characters).utf8ByteSize = byteLength characters := by
    induction characters with
    | nil => rfl
    | cons character rest ih =>
        rw [String.ofList_cons, String.utf8ByteSize_append, ih, byteLength]
        simp
  rw [← sized, String.ofList_toList]

theorem cutAt_eq_some_iff (offset : Nat) (text front back : List Char) :
    cutAt offset text = some (front, back) ↔ front ++ back = text ∧ byteLength front = offset := by
  induction text generalizing offset front with
  | nil =>
      constructor
      · intro cut
        simp only [cutAt] at cut
        split at cut
        · rename_i atStart
          cases cut
          exact ⟨rfl, atStart.symm⟩
        · cases cut
      · rintro ⟨joined, length⟩
        obtain ⟨rfl, rfl⟩ := List.append_eq_nil_iff.mp joined
        simp only [cutAt, ← length, byteLength, if_true]
  | cons character rest ih =>
      have positive := character.utf8Size_pos
      constructor
      · intro cut
        simp only [cutAt] at cut
        split at cut
        · rename_i atStart
          cases cut
          exact ⟨rfl, atStart.symm⟩
        · split at cut
          · obtain ⟨⟨first, second⟩, found, same⟩ := Option.map_eq_some_iff.mp cut
            cases same
            obtain ⟨joined, length⟩ := (ih _ _).mp found
            refine ⟨congrArg (character :: ·) joined, ?_⟩
            rw [byteLength, length]
            omega
          · cases cut
      · rintro ⟨joined, length⟩
        cases front with
        | nil =>
            cases joined
            simp only [cutAt, ← length, byteLength, if_true]
        | cons first front =>
            cases joined
            have found := (ih (byteLength front) front).mpr ⟨rfl, rfl⟩
            have further : byteLength (character :: front) ≠ 0 := by
              simp only [byteLength]
              omega
            have left : byteLength (character :: front) - character.utf8Size = byteLength front :=
              Nat.add_sub_cancel_left ..
            simp only [cutAt, ← length, further, if_false, left, found]
            exact if_pos (Nat.le_add_right _ _)

theorem cutAt_append (front back : List Char) :
    cutAt (byteLength front) (front ++ back) = some (front, back) :=
  (cutAt_eq_some_iff _ _ _ _).mpr ⟨rfl, rfl⟩

/-- An offset at an end of a text or between two of its characters. -/
def Borders (offset : Nat) (text : List Char) : Prop :=
  ∃ front back, front ++ back = text ∧ byteLength front = offset

theorem borders_iff (offset : Nat) (text : List Char) :
    Borders offset text ↔ (cutAt offset text).isSome := by
  rw [Option.isSome_iff_exists]
  constructor
  · rintro ⟨front, back, joined⟩
    exact ⟨(front, back), (cutAt_eq_some_iff _ _ _ _).mpr joined⟩
  · rintro ⟨⟨front, back⟩, cut⟩
    exact ⟨front, back, (cutAt_eq_some_iff _ _ _ _).mp cut⟩

theorem cutAt_eq_none_iff (offset : Nat) (text : List Char) :
    cutAt offset text = none ↔ ¬ Borders offset text := by
  rw [borders_iff, Bool.not_eq_true, Option.isSome_eq_false_iff, Option.isNone_iff_eq_none]

/-- A cut within the front of a text does not depend on what comes behind that. -/
theorem cutAt_append_of_le {offset : Nat} {front : List Char} (within : offset ≤ byteLength front)
    (back : List Char) :
    cutAt offset (front ++ back) =
      (cutAt offset front).map fun cut => (cut.1, cut.2 ++ back) := by
  induction front generalizing offset with
  | nil =>
      cases Nat.le_zero.mp within
      cases back <;> rfl
  | cons character rest ih =>
      rw [byteLength] at within
      rw [List.cons_append, cutAt, cutAt]
      split
      · rfl
      · split
        · have inRest : offset - character.utf8Size ≤ byteLength rest := by omega
          rw [ih inRest, Option.map_map, Option.map_map]
          rfl
        · rfl

theorem borders_append_of_le {offset : Nat} {front : List Char}
    (within : offset ≤ byteLength front) (back : List Char) :
    Borders offset (front ++ back) ↔ Borders offset front := by
  rw [borders_iff, borders_iff, cutAt_append_of_le within, Option.isSome_map]

/-- A cut behind the front of a text is one of the rest. -/
theorem cutAt_add (front back : List Char) (offset : Nat) :
    cutAt (byteLength front + offset) (front ++ back) =
      (cutAt offset back).map fun cut => (front ++ cut.1, cut.2) := by
  induction front with
  | nil =>
      rw [byteLength, Nat.zero_add]
      exact (congrFun Option.map_id (cutAt offset back)).symm
  | cons character rest ih =>
      have positive := character.utf8Size_pos
      have further : character.utf8Size + byteLength rest + offset ≠ 0 := by omega
      have covers : character.utf8Size ≤ character.utf8Size + byteLength rest + offset := by omega
      have left : character.utf8Size + byteLength rest + offset - character.utf8Size =
          byteLength rest + offset := by omega
      rw [List.cons_append, cutAt, byteLength, if_neg further, if_pos covers, left, ih,
        Option.map_map]
      rfl

theorem borders_append_add (front back : List Char) (offset : Nat) :
    Borders (byteLength front + offset) (front ++ back) ↔ Borders offset back := by
  rw [borders_iff, borders_iff, cutAt_add, Option.isSome_map]

end PollHerald.Text
