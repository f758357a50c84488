import Mathlib.Tactic.SplitIfs
import PollHerald.Json.Printer
import PollHerald.Proofs.Json.Reader

set_option autoImplicit false

/-! The written form of values. It spells the tokens of a value with nothing between them and has no
control character in it, so that it is one line. It is read as the value, and so two values never
have the same written form. Values with strings that stand for no text have none. -/

namespace PollHerald.Json

/-! ### Numbers -/

theorem toDigits_head {number : Nat} (positive : 0 < number) :
    ∃ first rest, Nat.toDigits 10 number = first :: rest ∧ first ≠ '0' := by
  induction number using Nat.strongRecOn with
  | ind number ih =>
      by_cases small : number < 10
      · have nonzero : ∀ digit < 10, 0 < digit → Nat.digitChar digit ≠ '0' := by decide
        exact ⟨_, [], Nat.toDigits_of_lt_base small, nonzero number small positive⟩
      · have large : 10 ≤ number := Nat.not_lt.mp small
        obtain ⟨first, rest, digits, notZero⟩ := ih (number / 10) (by omega) (by omega)
        refine ⟨first, rest ++ [Nat.digitChar (number % 10)], ?_, notZero⟩
        rw [Nat.toDigits_of_base_le (by decide) large, digits]
        rfl

theorem isWhole_toDigits (number : Nat) : IsWhole (Nat.toDigits 10 number) := by
  have allDigits : ∀ character ∈ Nat.toDigits 10 number, character.isDigit = true :=
    fun _ member => Nat.isDigit_of_mem_toDigits (by decide) (by decide) member
  rcases Nat.eq_zero_or_pos number with rfl | positive
  · exact .zero
  · obtain ⟨first, rest, digits, notZero⟩ := toDigits_head positive
    rw [digits] at allDigits ⊢
    obtain ⟨isFirst, isRest⟩ := List.forall_mem_cons.mp allDigits
    exact .digits isFirst notZero isRest

theorem isNumeral_toDigits (number : Nat) : IsNumeral (Nat.toDigits 10 number) := by
  have numeral := IsNumeral.parts (.inl rfl) (isWhole_toDigits number) .none .none
  rwa [List.append_nil, List.append_nil, List.nil_append] at numeral

/-! ### Strings -/

theorem isHexDigit_digitChar {value : Nat} (fits : value < 16) :
    IsHexDigit value (Nat.digitChar value) := by
  have lower : ∀ digit < 16, ['0', '1', '2', '3', '4', '5', '6', '7', '8', '9', 'a', 'b', 'c', 'd',
      'e', 'f'][digit]? = some (Nat.digitChar digit) := by decide
  exact .inl (lower value fits)

/-- A character of a string is written as itself, by a letter or by the number of its unit. -/
theorem written_escape (character : Char) :
    ∃ part : Part, part.Written (escape character) ∧
      (part = .character character ∨ part = .unit character.toNat) := by
  unfold escape
  split_ifs with quote backslash backspace formFeed lineFeed carriageReturn tab control
  case neg => exact ⟨_, .plain quote backslash (Nat.not_lt.mp control), .inl rfl⟩
  rotate_left 7
  · have zero : IsHexDigit 0 '0' := isHexDigit_digitChar (by decide)
    have third : character.toNat / 16 < 16 := by omega
    have fourth : character.toNat % 16 < 16 := by omega
    refine ⟨_, .unit (.digits zero zero (isHexDigit_digitChar third)
      (isHexDigit_digitChar fourth)), .inr ?_⟩
    congr 1
    omega
  all_goals
    subst character
    exact ⟨_, .letter (by decide), .inl rfl⟩

theorem spelled_renderContent (characters : List Char) :
    Token.Spelled (.string (some characters)) (renderContent (some characters)) := by
  suffices spells : ∃ parts, PartsWritten parts (characters.flatMap escape) ∧
      StandFor parts characters by
    obtain ⟨parts, written, standFor⟩ := spells
    exact .string written standFor
  induction characters with
  | nil => exact ⟨[], .nil, .nil⟩
  | cons character characters ih =>
      obtain ⟨parts, written, standFor⟩ := ih
      obtain ⟨part, writtenFirst, rfl | rfl⟩ := written_escape character
      · exact ⟨_, .cons writtenFirst written, .character standFor⟩
      · exact ⟨_, .cons writtenFirst written, .unit standFor⟩

/-! ### Values -/

/-- Tokens spelled one after another with nothing between them. -/
inductive Packed : List Token → List Char → Prop where
  | nil : Packed [] []
  | cons {token : Token} {tokens : List Token} {spelling text : List Char}
      (first : token.Spelled spelling) (rest : Packed tokens text) :
      Packed (token :: tokens) (spelling ++ text)

theorem Packed.mark {token : Token} {character : Char} {tokens : List Token} {text : List Char}
    (first : token.Spelled [character]) (rest : Packed tokens text) :
    Packed (token :: tokens) (character :: text) :=
  .cons first rest

theorem Packed.laid {tokens : List Token} {text : List Char} (packed : Packed tokens text) :
    Laid tokens text := by
  induction packed with
  | nil => exact .done (List.forall_mem_nil _)
  | cons first rest ih => exact .token (List.forall_mem_nil _) first ih

mutual

/-- Values of which all numbers are numerals and all strings stand for a text. -/
def Value.Proper : Value → Prop
  | .number digits => IsNumeral digits
  | .string content => content.isSome = true
  | .array items => itemsProper items
  | .object members => membersProper members
  | .null | .truth _ => True

def itemsProper : List Value → Prop
  | [] => True
  | item :: items => item.Proper ∧ itemsProper items

def membersProper : List (Content × Value) → Prop
  | [] => True
  | (name, value) :: members => name.isSome = true ∧ value.Proper ∧ membersProper members

end

mutual

-- What comes after a value is packed already, so that only tokens go in front of a packed text.
/-- The written form of a value spells its tokens. -/
theorem packed_render (value : Value) (proper : value.Proper) {tokens : List Token}
    {text : List Char} (later : Packed tokens text) :
    Packed (value.tokens ++ tokens) (value.render ++ text) := by
  match value with
  | .null => exact .cons .null later
  | .truth true => exact .cons .yes later
  | .truth false => exact .cons .no later
  | .number digits => exact .cons (.number proper) later
  | .string (some characters) => exact .cons (spelled_renderContent characters) later
  | .array [] => exact .mark .openArray (.mark .closeArray later)
  | .array (item :: items) =>
      simp only [Value.tokens, Value.render, List.cons_append, List.append_assoc, List.nil_append]
      have closed := packed_renderItems items proper.2 (.mark .closeArray later)
      exact .mark .openArray (packed_render item proper.1 closed)
  | .object [] => exact .mark .openObject (.mark .closeObject later)
  | .object ((some name, value) :: members) =>
      simp only [Value.tokens, Value.render, List.cons_append, List.append_assoc, List.nil_append]
      have closed := packed_renderMembers members proper.2.2 (.mark .closeObject later)
      have first := Packed.mark .colon (packed_render value proper.2.1 closed)
      exact .mark .openObject (.cons (spelled_renderContent name) first)

theorem packed_renderItems (items : List Value) (proper : itemsProper items) {tokens : List Token}
    {text : List Char} (later : Packed tokens text) :
    Packed (itemsTokens items ++ tokens) (renderItems items ++ text) := by
  match items with
  | [] => exact later
  | item :: items =>
      simp only [itemsTokens, renderItems, List.cons_append, List.append_assoc]
      have others := packed_renderItems items proper.2 later
      exact .mark .comma (packed_render item proper.1 others)

theorem packed_renderMembers (members : List (Content × Value)) (proper : membersProper members)
    {tokens : List Token} {text : List Char} (later : Packed tokens text) :
    Packed (membersTokens members ++ tokens) (renderMembers members ++ text) := by
  match members with
  | [] => exact later
  | (some name, value) :: members =>
      simp only [membersTokens, renderMembers, List.cons_append, List.append_assoc]
      have others := packed_renderMembers members proper.2.2 later
      have first := Packed.mark .colon (packed_render value proper.2.1 others)
      exact .mark .comma (.cons (spelled_renderContent name) first)

end

theorem packed_render_alone {value : Value} (proper : value.Proper) :
    Packed value.tokens value.render := by
  have packed := packed_render value proper .nil
  rwa [List.append_nil, List.append_nil] at packed

theorem written_render {value : Value} (proper : value.Proper) :
    value.Written (String.ofList value.render) := by
  rw [Value.Written, String.toList_ofList]
  exact (packed_render_alone proper).laid

/-- The written form of a value is read as the value. -/
theorem parse?_render {value : Value} (proper : value.Proper) :
    Value.parse? (String.ofList value.render) = some value :=
  parse?_eq_some_iff.mpr (written_render proper)

/-! ### One line -/

/-- A text without control characters. -/
def Printable (text : List Char) : Prop :=
  ∀ character ∈ text, 0x20 ≤ character.toNat

theorem printable_of_all {text : List Char}
    (all : (text.all fun character => decide (0x20 ≤ character.toNat)) = true) : Printable text :=
  fun character member => of_decide_eq_true (List.all_eq_true.mp all character member)

theorem Printable.append {first second : List Char} (one : Printable first)
    (other : Printable second) : Printable (first ++ second) := by
  intro character member
  rcases List.mem_append.mp member with here | there
  · exact one character here
  · exact other character there

theorem printable_of_isHexDigit {value : Nat} {digit : Char} (isDigit : IsHexDigit value digit) :
    0x20 ≤ digit.toNat := by
  have lower : Printable ['0', '1', '2', '3', '4', '5', '6', '7', '8', '9', 'a', 'b', 'c', 'd', 'e',
      'f'] := printable_of_all (by decide)
  have upper : Printable ['0', '1', '2', '3', '4', '5', '6', '7', '8', '9', 'A', 'B', 'C', 'D', 'E',
      'F'] := printable_of_all (by decide)
  rcases isDigit with found | found
  · exact lower digit (List.mem_of_getElem? found)
  · exact upper digit (List.mem_of_getElem? found)

theorem Part.Written.printable {part : Part} {text : List Char} (written : part.Written text) :
    Printable text := by
  cases written with
  | plain noQuote noBackslash noControl => exact List.forall_mem_singleton.mpr noControl
  | @letter letter character known =>
      have letters : Printable (letterEscapes.map Prod.fst) := printable_of_all (by decide)
      exact List.forall_mem_cons.mpr
        ⟨by decide, List.forall_mem_singleton.mpr (letters letter (List.mem_map_of_mem known))⟩
  | unit quad =>
      cases quad with
      | digits isFirst isSecond isThird isFourth =>
          simp only [Printable, List.forall_mem_cons]
          exact ⟨by decide, by decide, printable_of_isHexDigit isFirst,
            printable_of_isHexDigit isSecond, printable_of_isHexDigit isThird,
            printable_of_isHexDigit isFourth, List.forall_mem_nil _⟩

theorem PartsWritten.printable {parts : List Part} {text : List Char}
    (written : PartsWritten parts text) : Printable text := by
  induction written with
  | nil => exact List.forall_mem_nil _
  | cons first rest ih => exact first.printable.append ih

theorem printable_quoted {text : List Char} (printable : Printable text) :
    Printable ('"' :: text ++ ['"']) := by
  have quote : Printable ['"'] := List.forall_mem_singleton.mpr (by decide)
  exact (quote.append printable).append quote

theorem printable_digits {text : List Char}
    (all : ∀ character ∈ text, character.isDigit = true) : Printable text := by
  intro character member
  obtain ⟨least, _⟩ := Char.isDigit_iff_toNat.mp (all character member)
  exact Nat.le_trans (by decide) least

theorem printable_of_isNumeral {number : List Char} (isNumeral : IsNumeral number) :
    Printable number := by
  cases isNumeral with
  | @parts sign whole fraction exponent isSign isWhole isFraction isExponent =>
      have minus : Printable sign := by
        rcases isSign with rfl | rfl <;> exact printable_of_all (by decide)
      have front : Printable whole := by
        cases isWhole with
        | zero => exact printable_of_all (by decide)
        | digits isDigit _ all => exact printable_digits (List.forall_mem_cons.mpr ⟨isDigit, all⟩)
      have back : Printable fraction := by
        cases isFraction with
        | none => exact List.forall_mem_nil _
        | digits isDigits =>
            exact List.forall_mem_cons.mpr ⟨by decide, printable_digits isDigits.all⟩
      have scale : Printable exponent := by
        cases isExponent with
        | none => exact List.forall_mem_nil _
        | @digits letter sign digits isLetter isSign isDigits =>
            have opens : Printable (letter :: sign) := by
              rcases isLetter with rfl | rfl <;> rcases isSign with rfl | rfl | rfl <;>
                exact printable_of_all (by decide)
            exact opens.append (printable_digits isDigits.all)
      exact ((minus.append front).append back).append scale

theorem Token.Spelled.printable {token : Token} {text : List Char} (spelled : token.Spelled text) :
    Printable text := by
  cases spelled with
  | number isNumeral => exact printable_of_isNumeral isNumeral
  | string written _ => exact printable_quoted written.printable
  | broken written _ => exact printable_quoted written.printable
  | _ => exact printable_of_all (by decide)

theorem Packed.printable {tokens : List Token} {text : List Char} (packed : Packed tokens text) :
    Printable text := by
  induction packed with
  | nil => exact List.forall_mem_nil _
  | cons first rest ih => exact first.printable.append ih

theorem printable_render {value : Value} (proper : value.Proper) : Printable value.render :=
  (packed_render_alone proper).printable

/-! ### Values of texts, numbers and records -/

theorem proper_ofString (text : String) : (Value.ofString text).Proper :=
  rfl

theorem proper_ofNat (number : Nat) : (Value.ofNat number).Proper :=
  isNumeral_toDigits number

theorem itemsProper_map {α : Type} {value : α → Value} (proper : ∀ item, (value item).Proper)
    (items : List α) : itemsProper (items.map value) := by
  induction items with
  | nil => exact trivial
  | cons item items ih => exact ⟨proper item, ih⟩

theorem proper_record {members : List (String × Value)}
    (proper : ∀ member ∈ members, member.2.Proper) : (Value.record members).Proper := by
  induction members with
  | nil => exact trivial
  | cons member members ih =>
      obtain ⟨first, later⟩ := List.forall_mem_cons.mp proper
      exact ⟨rfl, first, ih later⟩

theorem ofString_inj {one other : String} :
    Value.ofString one = Value.ofString other ↔ one = other := by
  simp only [Value.ofString, Value.string.injEq, Option.some.injEq, String.toList_inj]

theorem ofNat_inj {one other : Nat} : Value.ofNat one = Value.ofNat other ↔ one = other := by
  constructor
  · intro same
    have digits : Nat.toDigits 10 one = Nat.toDigits 10 other := Value.number.inj same
    rw [← @Nat.ofDigitChars_ten_toDigits one, digits, Nat.ofDigitChars_ten_toDigits]
  · exact congrArg Value.ofNat

theorem arrayOf_inj {α : Type} {value : α → Value}
    (injective : ∀ one other, value one = value other → one = other) {items others : List α} :
    Value.array (items.map value) = Value.array (others.map value) ↔ items = others := by
  rw [Value.array.injEq, List.map_inj_right injective]

theorem record_inj {members others : List (String × Value)} :
    Value.record members = Value.record others ↔ members = others := by
  have named : ∀ one other : String × Value,
      (some one.1.toList, one.2) = (some other.1.toList, other.2) → one = other := by
    intro one other same
    obtain ⟨name, value⟩ := Prod.mk.inj same
    exact Prod.ext (String.toList_inj.mp (Option.some.inj name)) value
  rw [Value.record, Value.record, Value.object.injEq, List.map_inj_right named]

end PollHerald.Json
