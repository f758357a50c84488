import PollHerald.Proofs.Json.Content

set_option autoImplicit false

/-! How tokens are spelled and laid out as a text, with blanks before, between and after them. The
tokens of every such text are found again. A number ends only where something else begins, so no two
numbers may follow on one another. -/

namespace PollHerald.Json

/-! ### Numbers -/

/-- One digit or more. -/
structure IsDigits (text : List Char) : Prop where
  present : text ≠ []
  all : ∀ character ∈ text, character.isDigit = true

/-- The digits before the point. -/
inductive IsWhole : List Char → Prop where
  | zero : IsWhole ['0']
  | digits {first : Char} {rest : List Char} (isDigit : first.isDigit = true)
      (notZero : first ≠ '0') (all : ∀ character ∈ rest, character.isDigit = true) :
      IsWhole (first :: rest)

/-- A point with digits, or nothing. -/
inductive IsFraction : List Char → Prop where
  | none : IsFraction []
  | digits {digits : List Char} (isDigits : IsDigits digits) : IsFraction ('.' :: digits)

/-- An exponent, or nothing. -/
inductive IsExponent : List Char → Prop where
  | none : IsExponent []
  | digits {letter : Char} {sign digits : List Char} (isLetter : letter = 'e' ∨ letter = 'E')
      (isSign : sign = [] ∨ sign = ['+'] ∨ sign = ['-']) (isDigits : IsDigits digits) :
      IsExponent (letter :: sign ++ digits)

inductive IsNumeral : List Char → Prop where
  | parts {sign whole fraction exponent : List Char} (isSign : sign = [] ∨ sign = ['-'])
      (isWhole : IsWhole whole) (isFraction : IsFraction fraction)
      (isExponent : IsExponent exponent) : IsNumeral (sign ++ whole ++ fraction ++ exponent)

/-- A character that a number may go on with. -/
def continues (character : Char) : Bool :=
  character.isDigit || character == '.' || character == 'e' || character == 'E'

/-- A text that does not go on with a number. -/
def Stops (text : List Char) : Prop :=
  ∀ character ∈ text.head?, continues character = false

theorem stops_cons {character : Char} (stops : continues character = false) (rest : List Char) :
    Stops (character :: rest) := by
  rintro _ ⟨⟩
  exact stops

theorem spanDigits_append {digits rest : List Char}
    (all : ∀ character ∈ digits, character.isDigit = true)
    (noDigit : ∀ character ∈ rest.head?, character.isDigit = false) :
    spanDigits (digits ++ rest) = (digits, rest) := by
  rw [spanDigits, List.takeWhile_append_of_pos all, List.dropWhile_append_of_pos all]
  cases rest with
  | nil => rw [List.takeWhile_nil, List.dropWhile_nil, List.append_nil]
  | cons character rest =>
      have stops := noDigit character rfl
      have passes : ¬ character.isDigit = true := Bool.eq_false_iff.mp stops
      rw [List.takeWhile_cons_of_neg passes, List.dropWhile_cons_of_neg passes, List.append_nil]

theorem takeWhole_append {whole rest : List Char} (isWhole : IsWhole whole)
    (noDigit : ∀ character ∈ rest.head?, character.isDigit = false) :
    takeWhole (whole ++ rest) = some (whole, rest) := by
  cases isWhole with
  | zero =>
      have spans : spanDigits (['0'] ++ rest) = (['0'], rest) :=
        spanDigits_append (List.forall_mem_singleton.mpr (by decide)) noDigit
      simp only [takeWhole, spans]
  | @digits first digits isDigit notZero all =>
      have spans := spanDigits_append (List.forall_mem_cons.mpr ⟨isDigit, all⟩) noDigit
      rw [takeWhole, spans]
      split
      · rename_i same
        cases same
      · rename_i same
        cases same
        exact absurd rfl notZero
      · rename_i same
        cases same
        rfl

theorem spanDigits_of_isDigits {digits rest : List Char} (isDigits : IsDigits digits)
    (noDigit : ∀ character ∈ rest.head?, character.isDigit = false) :
    ∃ first others, digits = first :: others ∧
      spanDigits (digits ++ rest) = (first :: others, rest) := by
  obtain ⟨first, others, rfl⟩ := List.exists_cons_of_ne_nil isDigits.present
  exact ⟨first, others, rfl, spanDigits_append isDigits.all noDigit⟩

theorem takeFraction_append {fraction rest : List Char} (isFraction : IsFraction fraction)
    (noDigit : ∀ character ∈ rest.head?, character.isDigit = false)
    (noPoint : ∀ character ∈ rest.head?, character ≠ '.') :
    takeFraction (fraction ++ rest) = some (fraction, rest) := by
  cases isFraction with
  | none =>
      rw [List.nil_append]
      cases rest with
      | nil => rfl
      | cons character rest =>
          have differs := noPoint character rfl
          unfold takeFraction
          split
          · rename_i same
            cases same
            exact absurd rfl differs
          · rfl
  | digits isDigits =>
      obtain ⟨first, others, rfl, spans⟩ := spanDigits_of_isDigits isDigits noDigit
      change takeFraction ('.' :: (first :: others ++ rest)) = _
      simp only [takeFraction, spans]

theorem spanSign_append {signs sign rest : List Char}
    (isSign : sign = [] ∨ ∃ character ∈ signs, sign = [character])
    (noSign : ∀ character ∈ rest.head?, character ∉ signs) :
    spanSign signs (sign ++ rest) = (sign, rest) := by
  rcases isSign with rfl | ⟨character, member, rfl⟩
  · cases rest with
    | nil => rfl
    | cons first rest => exact if_neg (noSign first rfl)
  · exact if_pos member

theorem not_mem_of_isDigit {character : Char} {others : List Char}
    (isDigit : character.isDigit = true)
    (noDigits : others.any Char.isDigit = false) : character ∉ others := by
  intro member
  exact List.any_eq_false.mp noDigits character member isDigit

theorem takeExponent_append {exponent rest : List Char} (isExponent : IsExponent exponent)
    (noDigit : ∀ character ∈ rest.head?, character.isDigit = false)
    (noLetter : ∀ character ∈ rest.head?, ¬ (character = 'e' ∨ character = 'E')) :
    takeExponent (exponent ++ rest) = some (exponent, rest) := by
  cases isExponent with
  | none =>
      rw [List.nil_append]
      cases rest with
      | nil => rfl
      | cons character rest => exact if_neg (noLetter character rfl)
  | @digits letter sign digits isLetter isSign isDigits =>
      obtain ⟨first, others, rfl, spans⟩ := spanDigits_of_isDigits isDigits noDigit
      have noSign : ∀ character ∈ (first :: others ++ rest).head?, character ∉ ['+', '-'] := by
        rintro _ ⟨⟩
        exact not_mem_of_isDigit (isDigits.all first List.mem_cons_self) (by decide)
      have oneSign : sign = [] ∨ ∃ character ∈ ['+', '-'], sign = [character] := by
        rcases isSign with rfl | rfl | rfl
        · exact Or.inl rfl
        · exact Or.inr ⟨'+', by decide, rfl⟩
        · exact Or.inr ⟨'-', by decide, rfl⟩
      have spansSign := spanSign_append oneSign noSign
      rw [List.append_assoc, List.cons_append, takeExponent, if_pos isLetter, spansSign]
      simp only [spans]

theorem isDigit_of_continues {character : Char} (stops : continues character = false) :
    character.isDigit = false ∧ character ≠ '.' ∧ ¬ (character = 'e' ∨ character = 'E') := by
  simp only [continues, Bool.or_eq_false_iff, beq_eq_false_iff_ne, ne_eq] at stops
  obtain ⟨⟨⟨noDigit, noPoint⟩, noSmall⟩, noLarge⟩ := stops
  exact ⟨noDigit, noPoint, not_or.mpr ⟨noSmall, noLarge⟩⟩

theorem head?_of_isFraction {fraction rest : List Char} (isFraction : IsFraction fraction)
    {character : Char} (isHead : character ∈ (fraction ++ rest).head?) :
    character = '.' ∨ character ∈ rest.head? := by
  cases isFraction with
  | none => exact Or.inr isHead
  | digits isDigits =>
      cases isHead
      exact Or.inl rfl

theorem head?_of_isExponent {exponent rest : List Char} (isExponent : IsExponent exponent)
    {character : Char} (isHead : character ∈ (exponent ++ rest).head?) :
    (character = 'e' ∨ character = 'E') ∨ character ∈ rest.head? := by
  cases isExponent with
  | none => exact Or.inr isHead
  | digits isLetter isSign isDigits =>
      cases isHead
      exact Or.inl isLetter

theorem isDigit_of_isWhole {whole : List Char} (isWhole : IsWhole whole) :
    ∃ first rest, whole = first :: rest ∧ first.isDigit = true := by
  cases isWhole with
  | zero => exact ⟨'0', [], rfl, by decide⟩
  | digits isDigit notZero all => exact ⟨_, _, rfl, isDigit⟩

theorem takeNumber_append {number rest : List Char} (isNumeral : IsNumeral number)
    (stops : Stops rest) : takeNumber (number ++ rest) = some (number, rest) := by
  cases isNumeral with
  | @parts sign whole fraction exponent isSign isWhole isFraction isExponent =>
      have afterExponent : ∀ character ∈ rest.head?, character.isDigit = false ∧
          character ≠ '.' ∧ ¬ (character = 'e' ∨ character = 'E') :=
        fun character isHead => isDigit_of_continues (stops character isHead)
      have afterFraction : ∀ character ∈ (exponent ++ rest).head?, character.isDigit = false ∧
          character ≠ '.' := by
        intro character isHead
        rcases head?_of_isExponent isExponent isHead with (rfl | rfl) | behind
        · decide
        · decide
        · exact ⟨(afterExponent character behind).1, (afterExponent character behind).2.1⟩
      have afterWhole : ∀ character ∈ (fraction ++ (exponent ++ rest)).head?,
          character.isDigit = false := by
        intro character isHead
        rcases head?_of_isFraction isFraction isHead with rfl | behind
        · decide
        · exact (afterFraction character behind).1
      obtain ⟨first, others, rfl, isDigit⟩ := isDigit_of_isWhole isWhole
      have noSign : ∀ character ∈ (first :: others ++ (fraction ++ (exponent ++ rest))).head?,
          character ∉ ['-'] := by
        rintro _ ⟨⟩
        exact not_mem_of_isDigit isDigit (by decide)
      have oneSign : sign = [] ∨ ∃ character ∈ ['-'], sign = [character] := by
        rcases isSign with rfl | rfl
        · exact Or.inl rfl
        · exact Or.inr ⟨'-', by decide, rfl⟩
      have takesSign := spanSign_append oneSign noSign
      have takesWhole := takeWhole_append isWhole afterWhole
      have takesFraction := takeFraction_append isFraction
        (fun character isHead => (afterFraction character isHead).1)
        (fun character isHead => (afterFraction character isHead).2)
      have takesExponent := takeExponent_append isExponent
        (fun character isHead => (afterExponent character isHead).1)
        (fun character isHead => (afterExponent character isHead).2.2)
      simp only [takeNumber, List.append_assoc, takesSign, takesWhole, takesFraction,
        takesExponent, Option.bind_eq_bind, Option.bind_some, Option.pure_def]

/-! ### Tokens -/

/-- The spellings of a token. A string that stands for no text has no content. -/
inductive Token.Spelled : Token → List Char → Prop where
  | openArray : Spelled .openArray ['[']
  | closeArray : Spelled .closeArray [']']
  | openObject : Spelled .openObject ['{']
  | closeObject : Spelled .closeObject ['}']
  | colon : Spelled .colon [':']
  | comma : Spelled .comma [',']
  | null : Spelled .null ['n', 'u', 'l', 'l']
  | yes : Spelled (.truth true) ['t', 'r', 'u', 'e']
  | no : Spelled (.truth false) ['f', 'a', 'l', 's', 'e']
  | number {digits : List Char} (isNumeral : IsNumeral digits) : Spelled (.number digits) digits
  | string {parts : List Part} {text characters : List Char} (written : PartsWritten parts text)
      (standFor : StandFor parts characters) :
      Spelled (.string (some characters)) ('"' :: text ++ ['"'])
  | broken {parts : List Part} {text : List Char} (written : PartsWritten parts text)
      (meaningless : ∀ characters, ¬ StandFor parts characters) :
      Spelled (.string none) ('"' :: text ++ ['"'])

def Token.isNumber : Token → Bool
  | .number _ => true
  | _ => false

theorem isNumeral_head {number : List Char} (isNumeral : IsNumeral number) :
    ∃ first rest, number = first :: rest ∧ (first.isDigit = true ∨ first = '-') := by
  cases isNumeral with
  | @parts sign whole fraction exponent isSign isWhole isFraction isExponent =>
      obtain ⟨first, others, rfl, isDigit⟩ := isDigit_of_isWhole isWhole
      rcases isSign with rfl | rfl
      · exact ⟨first, _, rfl, Or.inl isDigit⟩
      · exact ⟨'-', _, rfl, Or.inr rfl⟩

theorem takeToken_number {first : Char} (opens : first.isDigit = true ∨ first = '-')
    (rest : List Char) :
    takeToken (first :: rest) =
      (takeNumber (first :: rest)).map fun (digits, rest) => (.number digits, rest) := by
  have noMark : (['[', ']', '{', '}', ':', ',', 'n', 't', 'f', '"'].any
      fun mark => mark.isDigit || mark == '-') = false := by decide
  have differs : ∀ mark ∈ ['[', ']', '{', '}', ':', ',', 'n', 't', 'f', '"'], first ≠ mark := by
    intro mark member same
    rw [same] at opens
    apply List.any_eq_false.mp noMark mark member
    rwa [Bool.or_eq_true, beq_iff_eq]
  unfold takeToken
  split
  case h_1 same => cases same
  case h_12 => rfl
  all_goals
    rename_i same
    exact absurd (List.cons.inj same).1 (differs _ (by decide))

theorem takeToken_string {parts : List Part} {text : List Char} (written : PartsWritten parts text)
    (rest : List Char) :
    takeToken ('"' :: text ++ ['"'] ++ rest) = some (.string (contentOf parts), rest) := by
  have takes := takeParts_of_written written [] rest
  have whole : '"' :: text ++ ['"'] ++ rest = '"' :: (text ++ '"' :: rest) := by
    simp only [List.cons_append, List.append_assoc, List.nil_append]
  rw [whole, takeToken, takes]
  rfl

/-- A spelled token is read, where a number is not gone on with. -/
theorem takeToken_append {token : Token} {text rest : List Char} (spelled : token.Spelled text)
    (stops : token.isNumber = true → Stops rest) :
    takeToken (text ++ rest) = some (token, rest) := by
  cases spelled with
  | number isNumeral =>
      have takes := takeNumber_append isNumeral (stops rfl)
      obtain ⟨first, others, rfl, opens⟩ := isNumeral_head isNumeral
      rw [List.cons_append, takeToken_number opens, ← List.cons_append, takes]
      rfl
  | string written standFor =>
      rw [← contentOf_of_standFor standFor]
      exact takeToken_string written rest
  | broken written meaningless =>
      rw [← contentOf_eq_none written meaningless]
      exact takeToken_string written rest
  | _ => rfl

/-! ### Texts -/

/-- A character that may stand between tokens. -/
def blanks : List Char := [' ', '\t', '\n', '\r']

/-- Tokens spelled one after another, with blanks around them. -/
inductive Laid : List Token → List Char → Prop where
  | done {blank : List Char} (isBlank : ∀ character ∈ blank, character ∈ blanks) : Laid [] blank
  | token {token : Token} {tokens : List Token} {blank spelling text : List Char}
      (isBlank : ∀ character ∈ blank, character ∈ blanks) (spelled : token.Spelled spelling)
      (rest : Laid tokens text) : Laid (token :: tokens) (blank ++ spelling ++ text)

/-- Tokens of which no number follows on a number. -/
def Apart : List Token → Prop
  | [] => True
  | token :: rest =>
    (token.isNumber = true → ∀ next ∈ rest.head?, next.isNumber = false) ∧ Apart rest

theorem isSpace_of_mem_blanks {character : Char} (isBlank : character ∈ blanks) :
    isSpace character = true := by
  have all : blanks.all isSpace = true := by decide
  exact List.all_eq_true.mp all character isBlank

theorem not_continues_of_mem_blanks {character : Char} (isBlank : character ∈ blanks) :
    continues character = false := by
  have none : blanks.any continues = false := by decide
  exact Bool.eq_false_iff.mpr (List.any_eq_false.mp none character isBlank)

/-- A token begins with no blank, and goes on with no number unless it is one itself. -/
theorem Token.Spelled.head {token : Token} {text : List Char} (spelled : token.Spelled text) :
    ∃ first rest, text = first :: rest ∧ isSpace first = false ∧
      (token.isNumber = false → continues first = false) := by
  cases spelled with
  | number isNumeral =>
      obtain ⟨first, others, rfl, opens⟩ := isNumeral_head isNumeral
      refine ⟨first, others, rfl, ?_, nofun⟩
      apply Bool.eq_false_iff.mpr
      intro isBlank
      simp only [isSpace, Bool.or_eq_true, beq_iff_eq] at isBlank
      rcases isBlank with ((rfl | rfl) | rfl) | rfl <;> exact absurd opens (by decide)
  | _ => exact ⟨_, _, rfl, by decide, fun _ => by decide⟩

theorem stops_of_laid {tokens : List Token} {text : List Char} (laid : Laid tokens text)
    (noNumber : ∀ next ∈ tokens.head?, next.isNumber = false) : Stops text := by
  cases laid with
  | done isBlank =>
      intro character isHead
      exact not_continues_of_mem_blanks (isBlank character (List.mem_of_mem_head? isHead))
  | @token token tokens blank spelling text isBlank spelled rest =>
      cases blank with
      | nil =>
          obtain ⟨first, others, rfl, _, stops⟩ := spelled.head
          exact stops_cons (stops (noNumber token rfl)) _
      | cons first others =>
          exact stops_cons (not_continues_of_mem_blanks (isBlank first List.mem_cons_self)) _

theorem tokensWithin_blank {blank : List Char} (isBlank : ∀ character ∈ blank, character ∈ blanks)
    (fuel : Nat) (found : List Token) (text : List Char) :
    tokensWithin (blank.length + fuel) found (blank ++ text) = tokensWithin fuel found text := by
  induction blank with
  | nil => rw [List.length_nil, Nat.zero_add, List.nil_append]
  | cons first rest ih =>
      obtain ⟨isFirst, isRest⟩ := List.forall_mem_cons.mp isBlank
      have more : (first :: rest).length + fuel = (rest.length + fuel) + 1 := by
        rw [List.length_cons]
        omega
      rw [more, List.cons_append, tokensWithin, if_pos (isSpace_of_mem_blanks isFirst)]
      exact ih isRest

theorem tokensWithin_nil (fuel : Nat) (found : List Token) :
    tokensWithin fuel found [] = some found.reverse := by
  cases fuel <;> rfl

/-- The tokens of a text are found, whatever was found before them. -/
theorem tokensWithin_of_laid {tokens : List Token} {text : List Char} (laid : Laid tokens text)
    (apart : Apart tokens) {fuel : Nat} (enough : text.length ≤ fuel) (found : List Token) :
    tokensWithin fuel found text = some (found.reverse ++ tokens) := by
  induction laid generalizing fuel found with
  | @done blank isBlank =>
      obtain ⟨more, rfl⟩ := Nat.exists_eq_add_of_le enough
      have skips := tokensWithin_blank isBlank more found []
      rw [List.append_nil] at skips
      rw [skips, tokensWithin_nil, List.append_nil]
  | @token token tokens blank spelling text isBlank spelled rest ih =>
      obtain ⟨between, apartLater⟩ := apart
      have takes := takeToken_append spelled fun isNumber => stops_of_laid rest (between isNumber)
      obtain ⟨first, others, rfl, noSpace, _⟩ := spelled.head
      -- The token takes a character, so the fuel that is left is enough for the rest.
      simp only [List.length_append, List.length_cons] at enough
      obtain ⟨more, rfl⟩ : ∃ more, fuel = blank.length + (more + 1) :=
        ⟨fuel - blank.length - 1, by omega⟩
      have fits : text.length ≤ more := by omega
      have later := ih apartLater fits (token :: found)
      rw [List.append_assoc, tokensWithin_blank isBlank, List.cons_append, tokensWithin, noSpace]
      rw [List.cons_append] at takes
      simp only [takes, Bool.false_eq_true, if_false, later, List.reverse_cons, List.append_assoc,
        List.singleton_append]

theorem tokens?_of_laid {tokens : List Token} {text : List Char} (laid : Laid tokens text)
    (apart : Apart tokens) : tokens? text = some tokens :=
  tokensWithin_of_laid laid apart (Nat.le_refl _) []

end PollHerald.Json
