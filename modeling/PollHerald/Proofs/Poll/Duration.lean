import PollHerald.Proofs.Binary64
import PollHerald.Proofs.Poll.Components

set_option autoImplicit false

/-! What a duration comes to. Only numbers in ASCII digits have a value, so a text in other digits
is refused like one that is no duration. Where all numbers are whole and the sum is below 2^53
nanoseconds, nothing is rounded and the sum is exact. -/

namespace PollHerald.Poll

/-- The value of decimal digits, each at its place. -/
def decimal : List Char → Nat
  | [] => 0
  | digit :: rest => (digit.toNat - '0'.toNat) * 10 ^ rest.length + decimal rest

/-- Numbers in ASCII digits that are whole, with their value. A point may be followed by zeros. -/
inductive IsWhole : List Char → Nat → Prop where
  | whole {digits : List Char} (present : digits ≠ []) (all : ∀ digit ∈ digits, digit.isDigit) :
    IsWhole digits (decimal digits)
  | pointed {digits places : List Char} (present : digits ≠ [] ∨ places ≠ [])
    (all : ∀ digit ∈ digits, digit.isDigit) (zeros : ∀ place ∈ places, place = '0') :
    IsWhole (digits ++ '.' :: places) (decimal digits)

/-- Components with whole numbers, and the nanoseconds that they come to together. -/
inductive AddsUp : List Component → Nat → Prop where
  | nil : AddsUp [] 0
  | cons {component : Component} {parts : List Component} {value total : Nat}
    (isWhole : IsWhole component.number value) (later : AddsUp parts total) :
    AddsUp (component :: parts) (value * component.unit.nanoseconds + total)

theorem isDigit_of_ascii (character : Char) (isDigit : character.isDigit) :
    Text.isDigit character := by
  simp only [Char.isDigit, Bool.and_eq_true, decide_eq_true_eq] at isDigit
  refine List.any_eq_true.mpr ⟨0x30, List.mem_cons_self, ?_⟩
  have least : 0x30 ≤ character.toNat := UInt32.le_iff_toNat_le.mp isDigit.1
  have greatest : character.toNat ≤ 0x39 := UInt32.le_iff_toNat_le.mp isDigit.2
  simp only [Bool.and_eq_true, decide_eq_true_eq]
  omega

section Number

variable {digits places number : List Char} {value : Nat}

theorem foldl_digits (before : Nat) (digits : List Char) :
    digits.foldl (fun value digit => 10 * value + (digit.toNat - '0'.toNat)) before =
      before * 10 ^ digits.length + decimal digits := by
  induction digits generalizing before with
  | nil => simp [decimal]
  | cons digit rest ih =>
      have place : 10 ^ (digit :: rest).length = 10 * 10 ^ rest.length :=
        Nat.pow_succ'
      rw [List.foldl_cons, ih, decimal, place, Nat.add_mul, Nat.add_assoc,
        Nat.mul_left_comm before, Nat.mul_assoc]

theorem decimal_zeros (zeros : ∀ place ∈ places, place = '0') : decimal places = 0 := by
  induction places with
  | nil => rfl
  | cons place rest ih =>
      obtain ⟨rfl, others⟩ := List.forall_mem_cons.mp zeros
      rw [decimal, ih others, Nat.sub_self, Nat.zero_mul]

theorem digitsValue_append_zeros (digits : List Char) (zeros : ∀ place ∈ places, place = '0') :
    digitsValue (digits ++ places) = decimal digits * 10 ^ places.length := by
  unfold digitsValue
  rw [List.foldl_append, foldl_digits, foldl_digits, decimal_zeros zeros, Nat.zero_mul,
    Nat.zero_add, Nat.add_zero]

theorem splitAtPoint (noPoint : '.' ∉ digits) {back : List Char}
    (pointed : back = [] ∨ ∃ places, back = '.' :: places) :
    (digits ++ back).takeWhile (· ≠ '.') = digits ∧
      (digits ++ back).dropWhile (· ≠ '.') = back := by
  have others : ∀ digit ∈ digits, decide (digit ≠ '.') = true := by
    intro digit member
    exact decide_eq_true fun same => noPoint (same ▸ member)
  rw [List.takeWhile_append_of_pos others, List.dropWhile_append_of_pos others]
  rcases pointed with rfl | ⟨places, rfl⟩
  · exact ⟨List.append_nil digits, rfl⟩
  · exact ⟨List.append_nil digits, rfl⟩

theorem numberValue?_of_no_point (noPoint : '.' ∉ digits) :
    numberValue? digits =
      if digits.all Char.isDigit then some (Binary64.ofDecimal (digitsValue digits) 0)
      else none := by
  obtain ⟨front, back⟩ := splitAtPoint noPoint (.inl rfl)
  rw [List.append_nil] at front back
  unfold numberValue?
  simp only [front, back, List.drop_nil, List.append_nil, List.length_nil]

theorem numberValue?_of_point (noPoint : '.' ∉ digits) (places : List Char) :
    numberValue? (digits ++ '.' :: places) =
      if (digits ++ places).all Char.isDigit then
        some (Binary64.ofDecimal (digitsValue (digits ++ places)) places.length)
      else none := by
  obtain ⟨front, back⟩ := splitAtPoint noPoint (.inr ⟨places, rfl⟩)
  unfold numberValue?
  simp only [front, back, List.drop_one, List.tail_cons]

theorem no_point_of_digits {digit : Char → Bool} (notPoint : digit '.' = false)
    (all : ∀ character ∈ digits, digit character) : '.' ∉ digits := by
  intro member
  have isDigit := all '.' member
  rw [notPoint] at isDigit
  cases isDigit

theorem isNumber_of_value (isNumber : IsNumber Text.isDigit number)
    (hasValue : (numberValue? number).isSome) : IsNumber Char.isDigit number := by
  cases isNumber with
  | whole present all =>
      rw [numberValue?_of_no_point (no_point_of_digits (by decide) all)] at hasValue
      split at hasValue
      · rename_i ascii
        exact .whole present (List.all_eq_true.mp ascii)
      · cases hasValue
  | pointed present all allPlaces =>
      rw [numberValue?_of_point (no_point_of_digits (by decide) all)] at hasValue
      split at hasValue
      · rename_i ascii
        obtain ⟨front, back⟩ := List.forall_mem_append.mp (List.all_eq_true.mp ascii)
        exact .pointed present front back
      · cases hasValue

/-- A whole number below 2^53 is read without rounding, however many places it has. -/
theorem numberValue?_of_isWhole (isWhole : IsWhole number value) (small : value < 2 ^ 53) :
    numberValue? number = some (value * Binary64.one) := by
  cases isWhole with
  | whole present all =>
      have value := digitsValue_append_zeros number (List.forall_mem_nil _)
      rw [List.append_nil] at value
      rw [numberValue?_of_no_point (no_point_of_digits (by decide) all),
        if_pos (List.all_eq_true.mpr all), value]
      exact congrArg some (Binary64.ofDecimal_exact 0 small)
  | @pointed digits places present all zeros =>
      have ascii : ∀ digit ∈ digits ++ places, digit.isDigit = true := by
        refine List.forall_mem_append.mpr ⟨all, fun place member => ?_⟩
        rw [zeros place member]
        rfl
      rw [numberValue?_of_point (no_point_of_digits (by decide) all),
        if_pos (List.all_eq_true.mpr ascii), digitsValue_append_zeros digits zeros,
        Binary64.ofDecimal_exact places.length small]

end Number

theorem TimeUnit.nanoseconds_pos (unit : TimeUnit) : 0 < unit.nanoseconds := by
  cases unit <;> decide

theorem Component.value?_of_isWhole {component : Component} {value : Nat}
    (isWhole : IsWhole component.number value)
    (small : value * component.unit.nanoseconds < 2 ^ 53) :
    component.value? = some (value * component.unit.nanoseconds * Binary64.one) := by
  have smaller : value < 2 ^ 53 :=
    Nat.lt_of_le_of_lt (Nat.le_mul_of_pos_right value component.unit.nanoseconds_pos) small
  unfold value?
  rw [numberValue?_of_isWhole isWhole smaller, Option.map_some, Binary64.times_exact small]

section Total

variable {text : List Char} {parts : List Component} {total : Nat}

theorem mapM_value?_of_addsUp (addsUp : AddsUp parts total) (small : total < 2 ^ 53) :
    ∃ values, parts.mapM Component.value? = some values ∧
      ∀ before, before + total < 2 ^ 53 →
        values.foldl Binary64.plus (before * Binary64.one) =
          (before + total) * Binary64.one := by
  induction addsUp with
  | nil => exact ⟨[], rfl, fun _ _ => rfl⟩
  | @cons component parts value total isWhole later ih =>
      obtain ⟨values, mapped, sum⟩ := ih (by omega)
      have first := Component.value?_of_isWhole isWhole (by omega)
      refine ⟨value * component.unit.nanoseconds * Binary64.one :: values, ?_, ?_⟩
      · rw [List.mapM_cons, first, mapped]
        rfl
      · intro before bounded
        rw [List.foldl_cons, Binary64.plus_exact (by omega), sum _ (by omega), Nat.add_assoc]

theorem total?_of_addsUp (addsUp : AddsUp parts total) (small : total < 2 ^ 53) :
    total? parts = some total := by
  obtain ⟨values, mapped, sum⟩ := mapM_value?_of_addsUp addsUp small
  have exactly := sum 0 (by omega)
  rw [Nat.zero_mul, Nat.zero_add] at exactly
  have within : total < Width.bound64 := Nat.lt_of_lt_of_le small (by decide)
  have fits : ¬ Width.bound64 * Binary64.one < total * Binary64.one :=
    Nat.not_lt_of_le (Nat.mul_le_mul_right _ (Nat.le_of_lt within))
  unfold total?
  rw [mapped]
  simp only [bind, Option.bind, exactly, fits, if_false, Binary64.toWhole_exact]
  exact congrArg some (Nat.min_eq_left (Nat.le_pred_of_lt within))

theorem ascii_of_values {values : List Nat} (spelled : Spelled Text.isDigit text parts)
    (mapped : parts.mapM Component.value? = some values) : Spelled Char.isDigit text parts := by
  induction spelled generalizing values with
  | nil => exact .nil
  | @cons component spelling rest parts isNumber isUnit later ih =>
      rw [List.mapM_cons] at mapped
      obtain ⟨first, found, others⟩ := Option.bind_eq_some_iff.mp mapped
      obtain ⟨values, mapped, _⟩ := Option.bind_eq_some_iff.mp others
      have hasValue : (numberValue? component.number).isSome := by
        unfold Component.value? at found
        rw [← Option.isSome_map, found]
        rfl
      exact .cons (isNumber_of_value isNumber hasValue) isUnit (ih mapped)

theorem ascii_of_durationOf? (found : durationOf? text = some total) :
    text = ['0'] ∨ ∃ parts, parts ≠ [] ∧ Spelled Char.isDigit text parts := by
  unfold durationOf? at found
  split at found
  · rename_i zero
    exact .inl zero
  · split at found
    · rename_i isDuration
      obtain ⟨parts, present, spelled⟩ := (isDuration_iff text).mp isDuration
      rw [components_of_spelled spelled] at found
      unfold total? at found
      obtain ⟨values, mapped, _⟩ := Option.bind_eq_some_iff.mp found
      exact .inr ⟨parts, present, ascii_of_values spelled mapped⟩
    · cases found

theorem durationOf?_of_spelled (present : parts ≠ []) (spelled : Spelled Char.isDigit text parts)
    (addsUp : AddsUp parts total) (small : total < 2 ^ 53) :
    durationOf? text = some total := by
  have spelledAny := spelled.imp isDigit_of_ascii
  have isDuration := (isDuration_iff text).mpr ⟨parts, present, spelledAny⟩
  have notZero : text ≠ ['0'] := by
    rintro rfl
    cases isDuration
  unfold durationOf?
  rw [if_neg notZero, if_pos isDuration, components_of_spelled spelledAny,
    total?_of_addsUp addsUp small]

end Total

/-- What is refused as a duration, and what is read exactly. -/
theorem parseDuration_is_exact (text : String) :
    let trimmed := Text.trim text.toList
    (trimmed = ['0'] → parseDuration text = .ok 0) ∧
    (trimmed ≠ ['0'] → (¬ ∃ parts, parts ≠ [] ∧ Spelled Char.isDigit trimmed parts) →
      parseDuration text = .error (.durationParse text)) ∧
    ∀ parts total, parts ≠ [] → Spelled Char.isDigit trimmed parts → AddsUp parts total →
      total < 2 ^ 53 → parseDuration text = .ok total := by
  intro trimmed
  unfold parseDuration
  refine ⟨fun zero => ?_, fun notZero unspelled => ?_, fun parts total => ?_⟩
  · rw [show durationOf? trimmed = some 0 from if_pos zero]
  · have refused : durationOf? trimmed = none := by
      cases found : durationOf? trimmed with
      | none => rfl
      | some total => exact absurd ((ascii_of_durationOf? found).resolve_left notZero) unspelled
    rw [refused]
  · intro present spelled addsUp small
    rw [durationOf?_of_spelled present spelled addsUp small]

/-- A duration with blanks around it, and hours in a digit of another script. -/
theorem parseDuration_is_exact_of_samples :
    parseDuration " 1h30m2.0s5µs\n" = .ok 5402000005000 ∧
      parseDuration " ١h" = .error (.durationParse " ١h") := by
  have trimmed : Text.trim " 1h30m2.0s5µs\n".toList =
      ['1'] ++ (['h'] ++ (['3', '0'] ++ (['m'] ++ (['2'] ++ '.' :: ['0'] ++ (['s'] ++
        (['5'] ++ (['µ', 's'] ++ []))))))) := by decide
  let parts : List Component :=
    [⟨['1'], .hour⟩, ⟨['3', '0'], .minute⟩, ⟨['2'] ++ '.' :: ['0'], .second⟩,
      ⟨['5'], .microsecond⟩]
  have spelled : Spelled Char.isDigit (Text.trim " 1h30m2.0s5µs\n".toList) parts := by
    rw [trimmed]
    exact @Spelled.cons _ ⟨['1'], .hour⟩ ['h'] _ _
      (.whole nofun (List.all_eq_true.mp rfl)) (by decide)
      (@Spelled.cons _ ⟨['3', '0'], .minute⟩ ['m'] _ _
      (.whole nofun (List.all_eq_true.mp rfl)) (by decide)
      (@Spelled.cons _ ⟨['2'] ++ '.' :: ['0'], .second⟩ ['s'] _ _
      (.pointed (.inl nofun) (List.all_eq_true.mp rfl) (List.all_eq_true.mp rfl)) (by decide)
      (@Spelled.cons _ ⟨['5'], .microsecond⟩ ['µ', 's'] _ _
      (.whole nofun (List.all_eq_true.mp rfl)) (by decide) .nil)))
  obtain ⟨total, addsUp, same⟩ : ∃ total, AddsUp parts total ∧ total = 5402000005000 := by
    have two : IsWhole (['2'] ++ '.' :: ['0']) 2 :=
      .pointed (.inl nofun) (List.all_eq_true.mp rfl) (List.forall_mem_singleton.mpr rfl)
    exact ⟨_, .cons (.whole nofun (List.all_eq_true.mp rfl))
      (.cons (.whole nofun (List.all_eq_true.mp rfl))
      (.cons two (.cons (.whole nofun (List.all_eq_true.mp rfl)) .nil))), by decide⟩
  have small : total < 2 ^ 53 := by
    rw [same]
    decide
  have foreign : ¬ ∃ parts, parts ≠ [] ∧ Spelled Char.isDigit (Text.trim " ١h".toList) parts := by
    rintro ⟨parts, _, spelled⟩
    exact absurd (spelled.head?_eq_some (show _ = some '١' by decide)) (by decide)
  refine ⟨?_, (parseDuration_is_exact " ١h").2.1 (by decide) foreign⟩
  rw [(parseDuration_is_exact _).2.2 parts total nofun spelled addsUp small, same]

end PollHerald.Poll
