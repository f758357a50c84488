import Mathlib.Tactic.SplitIfs
import PollHerald.Proofs.Json.Spelling

set_option autoImplicit false

/-! Reading is strict. Wherever tokens are found in a text, the text lays them out, so nothing else
stands between them and each is spelled by the grammar. -/

namespace PollHerald.Json

/-! ### Strings -/

theorem isHexDigit_of_hexValue? {digit : Char} {value : Nat}
    (found : hexValue? digit = some value) : IsHexDigit value digit := by
  have decimals : ∀ place < 10, ['0', '1', '2', '3', '4', '5', '6', '7', '8', '9', 'a', 'b', 'c',
      'd', 'e', 'f'][place]? = some (Char.ofNat (48 + place)) := by decide
  have lowers : ∀ place < 6, ['0', '1', '2', '3', '4', '5', '6', '7', '8', '9', 'a', 'b', 'c', 'd',
      'e', 'f'][place + 10]? = some (Char.ofNat (97 + place)) := by decide
  have uppers : ∀ place < 6, ['0', '1', '2', '3', '4', '5', '6', '7', '8', '9', 'A', 'B', 'C', 'D',
      'E', 'F'][place + 10]? = some (Char.ofNat (65 + place)) := by decide
  unfold hexValue? at found
  split_ifs at found with decimal lower upper
  · cases found
    have least : 48 ≤ digit.toNat := decimal.1
    have greatest : digit.toNat ≤ 57 := decimal.2
    have spelled := decimals (digit.toNat - 48) (by omega)
    rw [Nat.add_sub_cancel' least, Char.ofNat_toNat] at spelled
    exact .inl spelled
  · cases found
    have least : 97 ≤ digit.toNat := lower.1
    have greatest : digit.toNat ≤ 102 := lower.2
    have spelled := lowers (digit.toNat - 97) (by omega)
    rw [Nat.add_sub_cancel' least, Char.ofNat_toNat] at spelled
    exact .inl spelled
  · cases found
    have least : 65 ≤ digit.toNat := upper.1
    have greatest : digit.toNat ≤ 70 := upper.2
    have spelled := uppers (digit.toNat - 65) (by omega)
    rw [Nat.add_sub_cancel' least, Char.ofNat_toNat] at spelled
    exact .inr spelled

theorem quad_of_unitNumber? {first second third fourth : Char} {number : Nat}
    (found : unitNumber? first second third fourth = some number) :
    Quad number [first, second, third, fourth] := by
  simp only [unitNumber?, Option.bind_eq_bind, Option.bind_eq_some_iff, Option.pure_def,
    Option.some.injEq] at found
  obtain ⟨a, isFirst, b, isSecond, c, isThird, d, isFourth, rfl⟩ := found
  exact .digits (isHexDigit_of_hexValue? isFirst) (isHexDigit_of_hexValue? isSecond)
    (isHexDigit_of_hexValue? isThird) (isHexDigit_of_hexValue? isFourth)

theorem mem_letterEscapes_of_letterEscape? {letter character : Char}
    (found : letterEscape? letter = some character) : (letter, character) ∈ letterEscapes := by
  unfold letterEscape? at found
  split at found <;> cases found <;> decide

theorem written_of_takeParts {found parts : List Part} {text rest : List Char}
    (takes : takeParts found text = some (parts, rest)) :
    ∃ later written, parts = found.reverse ++ later ∧ text = written ++ '"' :: rest ∧
      PartsWritten later written := by
  -- A part that is read first goes in front of what the rest of the string brings.
  have lengthen {found parts : List Part} {text : List Char} {part : Part} {piece : List Char}
      (first : part.Written piece)
      (brings : ∃ later written, parts = (part :: found).reverse ++ later ∧
        text = written ++ '"' :: rest ∧ PartsWritten later written) :
      ∃ later written, parts = found.reverse ++ later ∧ piece ++ text = written ++ '"' :: rest ∧
        PartsWritten later written := by
    obtain ⟨later, written, rfl, rfl, spells⟩ := brings
    refine ⟨part :: later, piece ++ written, ?_, ?_, .cons first spells⟩
    · rw [List.reverse_cons, List.append_assoc, List.singleton_append]
    · rw [List.append_assoc]
  fun_induction takeParts found text with
  | case1 => cases takes
  | case2 found rest =>
      cases takes
      exact ⟨[], [], (List.append_nil _).symm, rfl, .nil⟩
  | case3 found first second third fourth text number value ih =>
      exact lengthen (.unit (quad_of_unitNumber? value)) (ih takes)
  | case4 => cases takes
  | case5 found letter text _ character value ih =>
      exact lengthen (.letter (mem_letterEscapes_of_letterEscape? value)) (ih takes)
  | case6 => cases takes
  | case7 => cases takes
  | case8 found character text noQuote _ _ allowed ih =>
      obtain ⟨noBackslash, noControl⟩ := not_or.mp allowed
      exact lengthen (.plain noQuote noBackslash (Nat.not_lt.mp noControl)) (ih takes)

theorem spelled_of_takeParts {parts : List Part} {text rest : List Char}
    (takes : takeParts [] text = some (parts, rest)) :
    ∃ spelling, '"' :: text = spelling ++ rest ∧
      Token.Spelled (.string (contentOf parts)) spelling := by
  obtain ⟨parts, written, rfl, rfl, spells⟩ := written_of_takeParts takes
  refine ⟨'"' :: written ++ ['"'], ?_, ?_⟩
  · simp only [List.cons_append, List.append_assoc, List.nil_append]
  · cases content : contentOf parts with
    | none =>
        refine .broken spells fun characters standFor => ?_
        cases content.symm.trans (contentOf_of_standFor standFor)
    | some characters =>
        exact .string spells (standFor_of_contentOf (fun _ => unit_of_written spells) content)

/-! ### Numbers -/

theorem spanDigits_eq (text : List Char) :
    text = (spanDigits text).1 ++ (spanDigits text).2 ∧
      ∀ character ∈ (spanDigits text).1, character.isDigit = true :=
  ⟨List.takeWhile_append_dropWhile.symm, List.all_eq_true.mp List.all_takeWhile⟩

theorem isWhole_of_takeWhole {text whole rest : List Char}
    (takes : takeWhole text = some (whole, rest)) : IsWhole whole ∧ text = whole ++ rest := by
  obtain ⟨joined, allDigits⟩ := spanDigits_eq text
  unfold takeWhole at takes
  split at takes
  · cases takes
  · cases takes
  · rename_i noDigits notZero spans
    cases takes
    rw [spans] at joined allDigits
    refine ⟨?_, joined⟩
    cases whole with
    | nil => exact absurd rfl noDigits
    | cons first others =>
        obtain ⟨isFirst, isOthers⟩ := List.forall_mem_cons.mp allDigits
        by_cases zero : first = '0'
        · subst zero
          cases others with
          | nil => exact .zero
          | cons second others => exact absurd rfl (notZero _ _)
        · exact .digits isFirst zero isOthers

theorem isFraction_of_takeFraction {text fraction rest : List Char}
    (takes : takeFraction text = some (fraction, rest)) :
    IsFraction fraction ∧ text = fraction ++ rest := by
  unfold takeFraction at takes
  split at takes
  · rename_i after
    obtain ⟨joined, allDigits⟩ := spanDigits_eq after
    split at takes
    · cases takes
    · rename_i digits rest noDigits spans
      cases takes
      rw [spans] at joined allDigits
      exact ⟨.digits ⟨fun none => noDigits none, allDigits⟩, congrArg _ joined⟩
  · cases takes
    exact ⟨.none, rfl⟩

theorem spanSign_eq (signs text : List Char) :
    ∃ sign rest, spanSign signs text = (sign, rest) ∧ text = sign ++ rest ∧
      (sign = [] ∨ ∃ character ∈ signs, sign = [character]) := by
  cases text with
  | nil => exact ⟨[], [], rfl, rfl, .inl rfl⟩
  | cons character rest =>
      simp only [spanSign]
      split_ifs with isSign
      · exact ⟨[character], rest, rfl, rfl, .inr ⟨character, isSign, rfl⟩⟩
      · exact ⟨[], character :: rest, rfl, rfl, .inl rfl⟩

theorem isExponent_of_takeExponent {text exponent rest : List Char}
    (takes : takeExponent text = some (exponent, rest)) :
    IsExponent exponent ∧ text = exponent ++ rest := by
  cases text with
  | nil =>
      cases takes
      exact ⟨.none, rfl⟩
  | cons letter text =>
      obtain ⟨sign, afterSign, spansSign, rfl, isSign⟩ := spanSign_eq ['+', '-'] text
      obtain ⟨joined, allDigits⟩ := spanDigits_eq afterSign
      simp only [takeExponent, spansSign] at takes
      split_ifs at takes with isLetter
      · split at takes
        · cases takes
        · rename_i noDigits spans
          cases takes
          rw [spans] at joined allDigits
          refine ⟨.digits isLetter ?_ ⟨fun none => noDigits none, allDigits⟩, ?_⟩
          · simpa only [List.mem_cons, List.not_mem_nil, or_false, exists_eq_or_imp,
              exists_eq_left] using isSign
          · rw [List.append_assoc, ← joined]
            rfl
      · cases takes
        exact ⟨.none, rfl⟩

theorem isNumeral_of_takeNumber {text number rest : List Char}
    (takes : takeNumber text = some (number, rest)) : IsNumeral number ∧ text = number ++ rest := by
  obtain ⟨sign, afterSign, spansSign, rfl, isSign⟩ := spanSign_eq ['-'] text
  simp only [takeNumber, spansSign, Option.bind_eq_bind, Option.bind_eq_some_iff, Option.pure_def,
    Option.some.injEq, Prod.mk.injEq, Prod.exists] at takes
  obtain ⟨whole, afterWhole, takesWhole, fraction, afterFraction, takesFraction, exponent, after,
    takesExponent, rfl, rfl⟩ := takes
  obtain ⟨isWhole, rfl⟩ := isWhole_of_takeWhole takesWhole
  obtain ⟨isFraction, rfl⟩ := isFraction_of_takeFraction takesFraction
  obtain ⟨isExponent, rfl⟩ := isExponent_of_takeExponent takesExponent
  refine ⟨.parts ?_ isWhole isFraction isExponent, ?_⟩
  · simpa only [List.mem_cons, List.not_mem_nil, or_false, exists_eq_left] using isSign
  · simp only [List.append_assoc]

/-! ### Tokens and texts -/

theorem spelled_of_takeToken {token : Token} {text rest : List Char}
    (takes : takeToken text = some (token, rest)) :
    ∃ spelling, text = spelling ++ rest ∧ token.Spelled spelling := by
  unfold takeToken at takes
  split at takes
  case h_1 => cases takes
  case h_11 text =>
    obtain ⟨⟨parts, after⟩, takesParts, same⟩ := Option.map_eq_some_iff.mp takes
    cases same
    exact spelled_of_takeParts takesParts
  case h_12 =>
    obtain ⟨⟨number, after⟩, takesNumber, same⟩ := Option.map_eq_some_iff.mp takes
    cases same
    obtain ⟨isNumeral, joined⟩ := isNumeral_of_takeNumber takesNumber
    exact ⟨number, joined, .number isNumeral⟩
  all_goals
    cases takes
    exact ⟨_, rfl, by constructor⟩

theorem mem_blanks_of_isSpace {character : Char} (space : isSpace character = true) :
    character ∈ blanks := by
  simp only [isSpace, Bool.or_eq_true, beq_iff_eq] at space
  rcases space with ((rfl | rfl) | rfl) | rfl <;> decide

theorem Laid.blank {character : Char} (isBlank : character ∈ blanks) {tokens : List Token}
    {text : List Char} (laid : Laid tokens text) : Laid tokens (character :: text) := by
  cases laid with
  | done areBlank => exact .done (List.forall_mem_cons.mpr ⟨isBlank, areBlank⟩)
  | token areBlank spelled rest =>
      exact .token (List.forall_mem_cons.mpr ⟨isBlank, areBlank⟩) spelled rest

theorem laid_of_tokensWithin {fuel : Nat} {found tokens : List Token} {text : List Char}
    (finds : tokensWithin fuel found text = some tokens) :
    ∃ later, tokens = found.reverse ++ later ∧ Laid later text := by
  fun_induction tokensWithin fuel found text with
  | case1 found text none =>
      cases finds
      rw [List.isEmpty_iff.mp none]
      exact ⟨[], (List.append_nil _).symm, .done (List.forall_mem_nil _)⟩
  | case2 => cases finds
  | case3 =>
      cases finds
      exact ⟨[], (List.append_nil _).symm, .done (List.forall_mem_nil _)⟩
  | case4 fuel found character text isSpace ih =>
      obtain ⟨later, joined, laid⟩ := ih finds
      exact ⟨later, joined, laid.blank (mem_blanks_of_isSpace isSpace)⟩
  | case5 fuel found character text noSpace token rest takes ih =>
      obtain ⟨later, rfl, laid⟩ := ih finds
      obtain ⟨spelling, joined, spelled⟩ := spelled_of_takeToken takes
      refine ⟨token :: later, ?_, ?_⟩
      · rw [List.reverse_cons, List.append_assoc, List.singleton_append]
      · rw [joined]
        exact .token (List.forall_mem_nil _) spelled laid
  | case6 => cases finds

/-- A text in which tokens are found lays them out. -/
theorem laid_of_tokens? {text : List Char} {tokens : List Token}
    (finds : tokens? text = some tokens) : Laid tokens text := by
  obtain ⟨later, rfl, laid⟩ := laid_of_tokensWithin finds
  exact laid

end PollHerald.Json
