import PollHerald.Json.Token

set_option autoImplicit false

/-! How strings are spelled. A character stands for itself, or an escape stands for it: by a letter,
by the number of its unit of UTF-16, or by the numbers of both units where it has two. Every such
spelling is read as the characters that it stands for. -/

namespace PollHerald.Json

/-- A digit of either case with its value. -/
def IsHexDigit (value : Nat) (digit : Char) : Prop :=
  ['0', '1', '2', '3', '4', '5', '6', '7', '8', '9', 'a', 'b', 'c', 'd', 'e', 'f'][value]? =
      some digit ∨
    ['0', '1', '2', '3', '4', '5', '6', '7', '8', '9', 'A', 'B', 'C', 'D', 'E', 'F'][value]? =
      some digit

/-- Four digits with their value. -/
inductive Quad : Nat → List Char → Prop where
  | digits {a b c d : Nat} {first second third fourth : Char} (isFirst : IsHexDigit a first)
      (isSecond : IsHexDigit b second) (isThird : IsHexDigit c third)
      (isFourth : IsHexDigit d fourth) :
      Quad (((a * 16 + b) * 16 + c) * 16 + d) [first, second, third, fourth]

/-- The letters of escapes with the characters that they stand for. -/
def letterEscapes : List (Char × Char) :=
  [('"', '"'), ('\\', '\\'), ('/', '/'), ('b', '\x08'), ('f', '\x0c'), ('n', '\n'), ('r', '\r'),
    ('t', '\t')]

/-- The spellings of one part of a string. -/
inductive Part.Written : Part → List Char → Prop where
  | plain {character : Char} (noQuote : character ≠ '"') (noBackslash : character ≠ '\\')
      (noControl : 0x20 ≤ character.toNat) : Written (.character character) [character]
  | letter {letter character : Char} (known : (letter, character) ∈ letterEscapes) :
      Written (.character character) ['\\', letter]
  | unit {number : Nat} {digits : List Char} (quad : Quad number digits) :
      Written (.unit number) ('\\' :: 'u' :: digits)

/-- Parts spelled one after another. -/
inductive PartsWritten : List Part → List Char → Prop where
  | nil : PartsWritten [] []
  | cons {part : Part} {parts : List Part} {piece text : List Char} (first : part.Written piece)
      (rest : PartsWritten parts text) : PartsWritten (part :: parts) (piece ++ text)

/-- The characters that parts stand for. -/
inductive StandFor : List Part → List Char → Prop where
  | nil : StandFor [] []
  | character {character : Char} {parts : List Part} {characters : List Char}
      (rest : StandFor parts characters) :
      StandFor (.character character :: parts) (character :: characters)
  | unit {character : Char} {parts : List Part} {characters : List Char}
      (rest : StandFor parts characters) :
      StandFor (.unit character.toNat :: parts) (character :: characters)
  | pair {character : Char} {high low : Nat} {parts : List Part} {characters : List Char}
      (highFits : high < 0x400) (lowFits : low < 0x400)
      (code : character.toNat = 0x10000 + high * 0x400 + low)
      (rest : StandFor parts characters) :
      StandFor (.unit (0xD800 + high) :: .unit (0xDC00 + low) :: parts) (character :: characters)

theorem hexValue?_of_isHexDigit {value : Nat} {digit : Char} (isDigit : IsHexDigit value digit) :
    hexValue? digit = some value ∧ value < 16 := by
  have lower : ∀ place < 16, (['0', '1', '2', '3', '4', '5', '6', '7', '8', '9', 'a', 'b', 'c', 'd',
      'e', 'f'][place]?).bind hexValue? = some place := by decide
  have upper : ∀ place < 16, (['0', '1', '2', '3', '4', '5', '6', '7', '8', '9', 'A', 'B', 'C', 'D',
      'E', 'F'][place]?).bind hexValue? = some place := by decide
  rcases isDigit with found | found
  · obtain ⟨fits, _⟩ := List.getElem?_eq_some_iff.mp found
    have value? := lower value fits
    rw [found] at value?
    exact ⟨value?, fits⟩
  · obtain ⟨fits, _⟩ := List.getElem?_eq_some_iff.mp found
    have value? := upper value fits
    rw [found] at value?
    exact ⟨value?, fits⟩

theorem unitNumber?_of_quad {number : Nat} {digits : List Char} (quad : Quad number digits) :
    ∃ first second third fourth, digits = [first, second, third, fourth] ∧
      unitNumber? first second third fourth = some number ∧ number < 0x10000 := by
  cases quad with
  | @digits a b c d first second third fourth isFirst isSecond isThird isFourth =>
      obtain ⟨firstValue, firstFits⟩ := hexValue?_of_isHexDigit isFirst
      obtain ⟨secondValue, secondFits⟩ := hexValue?_of_isHexDigit isSecond
      obtain ⟨thirdValue, thirdFits⟩ := hexValue?_of_isHexDigit isThird
      obtain ⟨fourthValue, fourthFits⟩ := hexValue?_of_isHexDigit isFourth
      refine ⟨first, second, third, fourth, rfl, ?_, by omega⟩
      simp only [unitNumber?, firstValue, secondValue, thirdValue, fourthValue,
        Option.bind_eq_bind, Option.bind_some, Option.pure_def]

/-! ### Reading the parts -/

theorem takeParts_letter {letter character : Char} (known : (letter, character) ∈ letterEscapes)
    (found : List Part) (rest : List Char) :
    takeParts found ('\\' :: letter :: rest) = takeParts (.character character :: found) rest := by
  simp only [letterEscapes, List.mem_cons, Prod.mk.injEq, List.not_mem_nil, or_false] at known
  rcases known with ⟨rfl, rfl⟩ | ⟨rfl, rfl⟩ | ⟨rfl, rfl⟩ | ⟨rfl, rfl⟩ | ⟨rfl, rfl⟩ | ⟨rfl, rfl⟩ |
    ⟨rfl, rfl⟩ | ⟨rfl, rfl⟩ <;> simp [takeParts, letterEscape?]

theorem takeParts_written {part : Part} {piece : List Char} (written : part.Written piece)
    (found : List Part) (rest : List Char) :
    takeParts found (piece ++ rest) = takeParts (part :: found) rest := by
  cases written with
  | @plain character noQuote noBackslash noControl =>
      have allowed : ¬ (character = '\\' ∨ character.toNat < 0x20) := by
        rintro (isBackslash | isControl)
        · exact noBackslash isBackslash
        · omega
      rw [List.singleton_append, takeParts, if_neg allowed]
      · exact noQuote
      · intro _ _ _ _ _ isEscape
        exact absurd isEscape noBackslash
      · intro _ _ isEscape
        exact absurd isEscape noBackslash
  | letter known => exact takeParts_letter known found rest
  | unit quad =>
      obtain ⟨first, second, third, fourth, rfl, value, _⟩ := unitNumber?_of_quad quad
      change takeParts found ('\\' :: 'u' :: first :: second :: third :: fourth :: rest) = _
      simp only [takeParts, value]

/-- A spelled string is read up to its closing quote. -/
theorem takeParts_of_written {parts : List Part} {text : List Char}
    (written : PartsWritten parts text) (found : List Part) (rest : List Char) :
    takeParts found (text ++ '"' :: rest) = some (found.reverse ++ parts, rest) := by
  induction written generalizing found with
  | nil => simp only [List.nil_append, takeParts, List.append_nil]
  | cons first later ih =>
      rw [List.append_assoc, takeParts_written first, ih, List.reverse_cons, List.append_assoc]
      rfl

/-! ### What the parts stand for -/

theorem not_half_of_char (character : Char) :
    isHighHalf character.toNat = false ∧ isLowHalf character.toNat = false := by
  have valid : character.toNat < 0xD800 ∨ 0xDFFF < character.toNat ∧ character.toNat < 0x110000 :=
    character.valid
  simp only [isHighHalf, isLowHalf, Bool.and_eq_false_iff, decide_eq_false_iff_not]
  omega

theorem toNat_ofNat {number : Nat} (valid : number.isValidChar) :
    (Char.ofNat number).toNat = number := by
  rw [Char.ofNat, dif_pos valid]
  rfl

theorem contentOf_unit {number : Nat} (notHigh : isHighHalf number = false)
    (notLow : isLowHalf number = false) (parts : List Part) :
    contentOf (.unit number :: parts) = (contentOf parts).map (Char.ofNat number :: ·) := by
  cases parts with
  | nil => simp [contentOf, notHigh, notLow]
  | cons part parts =>
      cases part <;> simp [contentOf, notHigh, notLow]

theorem contentOf_of_standFor {parts : List Part} {characters : List Char}
    (standFor : StandFor parts characters) : contentOf parts = some characters := by
  induction standFor with
  | nil => rfl
  | character rest ih => simp only [contentOf, ih, Option.map_some]
  | @unit character parts characters rest ih =>
      obtain ⟨notHigh, notLow⟩ := not_half_of_char character
      rw [contentOf_unit notHigh notLow, ih, Char.ofNat_toNat]
      rfl
  | @pair character high low parts characters highFits lowFits code rest ih =>
      have isHigh : isHighHalf (0xD800 + high) = true := by
        simp only [isHighHalf, Bool.and_eq_true, decide_eq_true_eq]
        omega
      have isLow : isLowHalf (0xDC00 + low) = true := by
        simp only [isLowHalf, Bool.and_eq_true, decide_eq_true_eq]
        omega
      simp only [contentOf, isHigh, isLow, if_true, ih, Option.map_some]
      rw [show 0x10000 + (0xD800 + high - 0xD800) * 0x400 + (0xDC00 + low - 0xDC00) =
        character.toNat by omega, Char.ofNat_toNat]

/-- Parts with units of UTF-16 have a content only where they stand for it. -/
theorem standFor_of_contentOf {parts : List Part} {characters : List Char}
    (units : ∀ number, .unit number ∈ parts → number < 0x10000)
    (content : contentOf parts = some characters) : StandFor parts characters := by
  -- A unit that is no half stands for the character with its number.
  have whole {number : Nat} {rest : List Part} {later : List Char} (fits : number < 0x10000)
      (notHigh : ¬ isHighHalf number = true) (notLow : ¬ isLowHalf number = true)
      (standFor : StandFor rest later) :
      StandFor (.unit number :: rest) (Char.ofNat number :: later) := by
    have valid : number.isValidChar := by
      simp only [isHighHalf, isLowHalf, Bool.and_eq_true, decide_eq_true_eq] at notHigh notLow
      simp only [Nat.isValidChar]
      omega
    have spelled : StandFor (.unit (Char.ofNat number).toNat :: rest)
      (Char.ofNat number :: later) := .unit standFor
    rwa [toNat_ofNat valid] at spelled
  fun_induction contentOf parts generalizing characters with
  | case1 =>
      cases content
      exact .nil
  | case2 character rest ih =>
      obtain ⟨later, contentLater, rfl⟩ := Option.map_eq_some_iff.mp content
      apply StandFor.character
      exact ih (fun number member => units number (List.mem_cons_of_mem _ member)) contentLater
  | case3 high low rest isHigh isLow ih =>
      obtain ⟨later, contentLater, rfl⟩ := Option.map_eq_some_iff.mp content
      have standFor := ih (fun number member =>
        units number (List.mem_cons_of_mem _ (List.mem_cons_of_mem _ member))) contentLater
      simp only [isHighHalf, isLowHalf, Bool.and_eq_true, decide_eq_true_eq] at isHigh isLow
      obtain ⟨highPlace, rfl⟩ := Nat.exists_eq_add_of_le isHigh.1
      obtain ⟨lowPlace, rfl⟩ := Nat.exists_eq_add_of_le isLow.1
      rw [Nat.add_sub_cancel_left, Nat.add_sub_cancel_left]
      have valid : (0x10000 + highPlace * 0x400 + lowPlace).isValidChar := by
        simp only [Nat.isValidChar]
        omega
      exact .pair (by omega) (by omega) (toNat_ofNat valid) standFor
  | case4 => cases content
  | case5 => cases content
  | case6 high low rest notHigh notLow ih =>
      obtain ⟨later, contentLater, rfl⟩ := Option.map_eq_some_iff.mp content
      apply whole (units high List.mem_cons_self) notHigh notLow
      exact ih (fun number member => units number (List.mem_cons_of_mem _ member)) contentLater
  | case7 => cases content
  | case8 unit rest _ noHalf ih =>
      obtain ⟨later, contentLater, rfl⟩ := Option.map_eq_some_iff.mp content
      obtain ⟨notHigh, notLow⟩ := not_or.mp noHalf
      apply whole (units unit List.mem_cons_self) notHigh notLow
      exact ih (fun number member => units number (List.mem_cons_of_mem _ member)) contentLater

theorem unit_of_written {parts : List Part} {text : List Char} (written : PartsWritten parts text)
    {number : Nat} (member : .unit number ∈ parts) : number < 0x10000 := by
  induction written with
  | nil => cases member
  | cons first rest ih =>
      rcases List.mem_cons.mp member with isFirst | later
      · cases isFirst
        cases first with
        | unit quad =>
            obtain ⟨_, _, _, _, _, _, fits⟩ := unitNumber?_of_quad quad
            exact fits
      · exact ih later

/-- A spelled string has its characters for a content, or none where it stands for no characters. -/
theorem contentOf_eq_none {parts : List Part} {text : List Char}
    (written : PartsWritten parts text) (meaningless : ∀ characters, ¬ StandFor parts characters) :
    contentOf parts = none := by
  cases content : contentOf parts with
  | none => rfl
  | some characters =>
      have standFor := standFor_of_contentOf (fun _ => unit_of_written written) content
      exact absurd standFor (meaningless characters)

end PollHerald.Json
