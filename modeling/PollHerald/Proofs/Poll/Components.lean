import PollHerald.Poll.Duration

set_option autoImplicit false

/-! What a duration is made of. A text is a duration exactly where it is one or more components, and
the scan for components then finds these and no others. -/

namespace PollHerald.Poll

/-- Decimal numbers in one kind of digits: digits, or digits around a point. -/
inductive IsNumber (digit : Char → Bool) : List Char → Prop where
  | whole {digits : List Char} (present : digits ≠ [])
    (all : ∀ character ∈ digits, digit character) : IsNumber digit digits
  | pointed {digits places : List Char} (present : digits ≠ [] ∨ places ≠ [])
    (all : ∀ character ∈ digits, digit character)
    (allPlaces : ∀ character ∈ places, digit character) :
    IsNumber digit (digits ++ '.' :: places)

/-- How a unit may be written. -/
def TimeUnit.spellings : TimeUnit → List (List Char)
  | .nanosecond => [['n', 's']]
  | .microsecond => [['u', 's'], ['µ', 's']]
  | .millisecond => [['m', 's']]
  | .second => [['s']]
  | .minute => [['m']]
  | .hour => [['h']]
  | .day => [['d']]

/-- Components one directly after another, with their numbers in one kind of digits. -/
inductive Spelled (digit : Char → Bool) : List Char → List Component → Prop where
  | nil : Spelled digit [] []
  | cons {component : Component} {spelling rest : List Char} {parts : List Component}
    (isNumber : IsNumber digit component.number) (isUnit : spelling ∈ component.unit.spellings)
    (later : Spelled digit rest parts) :
    Spelled digit (component.number ++ (spelling ++ rest)) (component :: parts)

theorem IsNumber.exists_head {digit : Char → Bool} {number : List Char}
    (isNumber : IsNumber digit number) :
    ∃ first others, number = first :: others ∧ (digit first ∨ first = '.') := by
  cases isNumber with
  | whole present all =>
      obtain ⟨first, others, rfl⟩ := List.exists_cons_of_ne_nil present
      exact ⟨first, others, rfl, .inl (all first List.mem_cons_self)⟩
  | @pointed digits places present all allPlaces =>
      cases digits with
      | nil => exact ⟨'.', places, rfl, .inr rfl⟩
      | cons first others => exact ⟨first, _, rfl, .inl (all first List.mem_cons_self)⟩

theorem IsNumber.imp {digit other : Char → Bool}
    (weakens : ∀ character, digit character → other character) {number : List Char}
    (isNumber : IsNumber digit number) : IsNumber other number := by
  cases isNumber with
  | whole present all =>
      exact .whole present fun character member => weakens _ (all character member)
  | pointed present all allPlaces =>
      exact .pointed present (fun character member => weakens _ (all character member))
        fun character member => weakens _ (allPlaces character member)

namespace Spelled

variable {digit other : Char → Bool} {text rest : List Char} {parts others : List Component}

theorem imp (weakens : ∀ character, digit character → other character)
    (spelled : Spelled digit text parts) : Spelled other text parts := by
  induction spelled with
  | nil => exact .nil
  | cons isNumber isUnit _ ih => exact .cons (isNumber.imp weakens) isUnit ih

theorem append (spelled : Spelled digit text parts) (behind : Spelled digit rest others) :
    Spelled digit (text ++ rest) (parts ++ others) := by
  induction spelled with
  | nil => exact behind
  | cons isNumber isUnit _ ih =>
      rw [List.append_assoc, List.append_assoc]
      exact .cons isNumber isUnit ih

theorem concat (spelled : Spelled digit text parts) {number spelling : List Char} (unit : TimeUnit)
    (isNumber : IsNumber digit number) (isUnit : spelling ∈ unit.spellings) :
    Spelled digit (text ++ number ++ spelling) (parts ++ [⟨number, unit⟩]) := by
  let component : Component := ⟨number, unit⟩
  have one : Spelled digit (component.number ++ (spelling ++ [])) [component] :=
    .cons isNumber isUnit .nil
  rw [List.append_nil] at one
  rw [List.append_assoc]
  exact spelled.append one

theorem head?_eq_some (spelled : Spelled digit text parts) {first : Char}
    (begins : text.head? = some first) : digit first ∨ first = '.' := by
  cases spelled with
  | nil => cases begins
  | cons isNumber isUnit later =>
      obtain ⟨head, others, split, starts⟩ := isNumber.exists_head
      rw [split] at begins
      cases begins
      exact starts

/-- No component begins like the rest of a unit. -/
theorem head?_ne (spelled : Spelled Text.isDigit text parts) : text.head? ≠ some 's' := by
  intro begins
  rcases spelled.head?_eq_some begins with isDigit | isPoint
  · exact absurd isDigit (by decide)
  · cases isPoint

end Spelled

/-- The texts that the automaton can have read, by the progress in which they leave it. -/
inductive Read : Progress → List Char → Prop where
  | start : Read .start []
  | whole {text digits : List Char} {parts : List Component}
    (before : Spelled Text.isDigit text parts) (present : digits ≠ [])
    (all : ∀ character ∈ digits, Text.isDigit character) :
    Read .whole (text ++ digits)
  | point {text : List Char} {parts : List Component}
    (before : Spelled Text.isDigit text parts) : Read .point (text ++ ['.'])
  | fraction {text digits places : List Char} {parts : List Component}
    (before : Spelled Text.isDigit text parts) (present : digits ≠ [] ∨ places ≠ [])
    (all : ∀ character ∈ digits, Text.isDigit character)
    (allPlaces : ∀ character ∈ places, Text.isDigit character) :
    Read .fraction (text ++ (digits ++ '.' :: places))
  | halfUnit {text number : List Char} {parts : List Component} {letter : Char}
    (before : Spelled Text.isDigit text parts) (isNumber : IsNumber Text.isDigit number)
    (opens : letter = 'n' ∨ letter = 'u' ∨ letter = 'µ') :
    Read .halfUnit (text ++ number ++ [letter])
  | minute {text number : List Char} {parts : List Component}
    (before : Spelled Text.isDigit text parts) (isNumber : IsNumber Text.isDigit number) :
    Read .minute (text ++ number ++ ['m'])
  | complete {text : List Char} {parts : List Component}
    (before : Spelled Text.isDigit text parts) (present : parts ≠ []) : Read .complete text
  | failed {text : List Char} : Read .failed text

namespace Read

variable {text number : List Char} {parts : List Component} {progress : Progress}
variable (character : Char)

theorem ofNumberStart (before : Spelled Text.isDigit text parts) :
    Read (.ofNumberStart character) (text ++ [character]) := by
  unfold Progress.ofNumberStart
  split
  · rename_i isDigit
    exact .whole before (List.cons_ne_nil _ _) (List.forall_mem_singleton.mpr isDigit)
  · split
    · rename_i isPoint
      rw [isPoint]
      exact .point before
    · exact .failed

theorem ofUnitLetter (before : Spelled Text.isDigit text parts)
    (isNumber : IsNumber Text.isDigit number) :
    Read (.ofUnitLetter character) (text ++ number ++ [character]) := by
  unfold Progress.ofUnitLetter
  split
  · rename_i opens
    exact .halfUnit before isNumber opens
  · split
    · rename_i isMinute
      rw [isMinute]
      exact .minute before isNumber
    · split
      · rename_i isUnit
        rcases isUnit with rfl | rfl | rfl
        · exact .complete (before.concat .second isNumber (by decide)) (by simp)
        · exact .complete (before.concat .hour isNumber (by decide)) (by simp)
        · exact .complete (before.concat .day isNumber (by decide)) (by simp)
      · exact .failed

/-- One more character, whatever was read before it. -/
theorem step (read : Read progress text) :
    Read (progress.step character) (text ++ [character]) := by
  cases read with
  | start => exact ofNumberStart character .nil
  | complete before present => exact ofNumberStart character before
  | failed => exact .failed
  | whole before present all =>
      unfold Progress.step
      simp only
      split
      · rename_i isDigit
        rw [List.append_assoc]
        exact .whole before (by simp)
          (List.forall_mem_append.mpr ⟨all, List.forall_mem_singleton.mpr isDigit⟩)
      · split
        · rename_i isPoint
          rw [isPoint, List.append_assoc]
          exact .fraction before (.inl present) all (List.forall_mem_nil _)
        · exact ofUnitLetter character before (.whole present all)
  | point before =>
      unfold Progress.step
      simp only
      split
      · rename_i isDigit
        rw [List.append_assoc]
        change Read .fraction (_ ++ ([] ++ '.' :: [character]))
        exact .fraction before (.inr (List.cons_ne_nil _ _)) (List.forall_mem_nil _)
          (List.forall_mem_singleton.mpr isDigit)
      · exact .failed
  | fraction before present all allPlaces =>
      unfold Progress.step
      simp only
      split
      · rename_i isDigit
        rw [List.append_assoc, List.append_assoc, List.cons_append]
        exact .fraction before (.inr (by simp)) all
          (List.forall_mem_append.mpr ⟨allPlaces, List.forall_mem_singleton.mpr isDigit⟩)
      · exact ofUnitLetter character before (.pointed present all allPlaces)
  | halfUnit before isNumber opens =>
      unfold Progress.step
      simp only
      split
      · rename_i closes
        rw [closes, List.append_assoc]
        rcases opens with rfl | rfl | rfl
        · exact .complete (before.concat .nanosecond isNumber (by decide)) (by simp)
        · exact .complete (before.concat .microsecond isNumber (by decide)) (by simp)
        · exact .complete (before.concat .microsecond isNumber (by decide)) (by simp)
      · exact .failed
  | minute before isNumber =>
      unfold Progress.step
      simp only
      split
      · rename_i closes
        rw [closes, List.append_assoc]
        exact .complete (before.concat .millisecond isNumber (by decide)) (by simp)
      · exact ofNumberStart character (before.concat .minute isNumber (by decide))

theorem foldl (read : Read progress text) (rest : List Char) :
    Read (rest.foldl Progress.step progress) (text ++ rest) := by
  induction rest generalizing progress text with
  | nil =>
      rw [List.append_nil]
      exact read
  | cons character rest ih =>
      rw [List.foldl_cons, ← List.singleton_append, ← List.append_assoc]
      exact ih (read.step character)

end Read

/-- Whether a text that is read so far is one or more components. -/
def Progress.isWhole (progress : Progress) : Prop :=
  progress = .minute ∨ progress = .complete

theorem isDuration_iff_isWhole (text : List Char) :
    isDuration text = true ↔ (text.foldl Progress.step .start).isWhole := by
  unfold isDuration Progress.isWhole
  split
  · rename_i minute
    simp only [minute, true_or]
  · rename_i complete
    simp only [complete, or_true]
  · rename_i notMinute notComplete
    simp only [Bool.false_eq_true, false_iff, not_or]
    exact ⟨notMinute, notComplete⟩

theorem exists_spelled_of_isDuration {text : List Char} (isDuration : isDuration text = true) :
    ∃ parts, parts ≠ [] ∧ Spelled Text.isDigit text parts := by
  have read := Read.start.foldl text
  rw [List.nil_append] at read
  rcases (isDuration_iff_isWhole text).mp isDuration with minute | complete
  · rw [minute] at read
    cases read with
    | minute before isNumber => exact ⟨_, by simp, before.concat .minute isNumber (by decide)⟩
  · rw [complete] at read
    cases read with
    | complete before present => exact ⟨_, present, before⟩

namespace Progress

variable {progress : Progress} {digits number : List Char}

theorem foldl_of_stays (stays : ∀ digit, Text.isDigit digit → progress.step digit = progress)
    (all : ∀ character ∈ digits, Text.isDigit character) :
    digits.foldl step progress = progress := by
  induction digits with
  | nil => rfl
  | cons digit rest ih =>
      obtain ⟨isDigit, others⟩ := List.forall_mem_cons.mp all
      rw [List.foldl_cons, stays digit isDigit]
      exact ih others

theorem foldl_whole (all : ∀ character ∈ digits, Text.isDigit character) :
    digits.foldl step .whole = .whole :=
  foldl_of_stays (fun _ isDigit => if_pos isDigit) all

theorem foldl_fraction (all : ∀ character ∈ digits, Text.isDigit character) :
    digits.foldl step .fraction = .fraction :=
  foldl_of_stays (fun _ isDigit => if_pos isDigit) all

theorem step_of_opens (opens : progress = .start ∨ progress.isWhole) {character : Char}
    (notS : character ≠ 's') : progress.step character = .ofNumberStart character := by
  rcases opens with rfl | rfl | rfl
  · rfl
  · exact if_neg notS
  · rfl

theorem step_digit (opens : progress = .start ∨ progress.isWhole) {digit : Char}
    (isDigit : Text.isDigit digit) : progress.step digit = .whole := by
  have notS : digit ≠ 's' := by
    rintro rfl
    exact absurd isDigit (by decide)
  rw [step_of_opens opens notS, ofNumberStart, if_pos isDigit]

theorem foldl_digits (opens : progress = .start ∨ progress.isWhole) (present : digits ≠ [])
    (all : ∀ character ∈ digits, Text.isDigit character) :
    digits.foldl step progress = .whole := by
  obtain ⟨digit, rest, rfl⟩ := List.exists_cons_of_ne_nil present
  obtain ⟨isDigit, others⟩ := List.forall_mem_cons.mp all
  rw [List.foldl_cons, step_digit opens isDigit]
  exact foldl_whole others

theorem foldl_number (opens : progress = .start ∨ progress.isWhole)
    (isNumber : IsNumber Text.isDigit number) :
    number.foldl step progress = .whole ∨ number.foldl step progress = .fraction := by
  cases isNumber with
  | whole present all => exact .inl (foldl_digits opens present all)
  | @pointed digits places present all allPlaces =>
      refine .inr ?_
      rw [List.foldl_append, List.foldl_cons]
      by_cases none : digits = []
      · rw [none, List.foldl_nil, step_of_opens opens (by decide)]
        obtain ⟨place, rest, rfl⟩ := List.exists_cons_of_ne_nil (present.resolve_left (· none))
        obtain ⟨isDigit, others⟩ := List.forall_mem_cons.mp allPlaces
        rw [List.foldl_cons, show ofNumberStart '.' = .point from rfl, step, if_pos isDigit]
        exact foldl_fraction others
      · rw [foldl_digits opens none all]
        exact foldl_fraction allPlaces

theorem foldl_unit {unit : TimeUnit} {spelling : List Char} (isUnit : spelling ∈ unit.spellings) :
    (spelling.foldl step .whole).isWhole ∧ (spelling.foldl step .fraction).isWhole := by
  unfold isWhole
  revert spelling
  cases unit <;> decide

theorem foldl_spelled {text : List Char} {parts : List Component}
    (spelled : Spelled Text.isDigit text parts)
    (goesOn : progress = .start ∧ parts ≠ [] ∨ progress.isWhole) :
    (text.foldl step progress).isWhole := by
  induction spelled generalizing progress with
  | nil => exact goesOn.resolve_left fun both => both.2 rfl
  | cons isNumber isUnit later ih =>
      rw [List.foldl_append, List.foldl_append]
      refine ih (.inr ?_)
      rcases foldl_number (goesOn.imp_left And.left) isNumber with whole | fraction
      · rw [whole]
        exact (foldl_unit isUnit).1
      · rw [fraction]
        exact (foldl_unit isUnit).2

end Progress

theorem isDuration_iff (text : List Char) :
    isDuration text = true ↔ ∃ parts, parts ≠ [] ∧ Spelled Text.isDigit text parts := by
  constructor
  · exact exists_spelled_of_isDuration
  · rintro ⟨parts, present, spelled⟩
    exact (isDuration_iff_isWhole text).mpr (Progress.foldl_spelled spelled (.inl ⟨rfl, present⟩))

section Scan

variable {number spelling rest digits : List Char} {letter : Char} {unit : TimeUnit}

theorem takeWhile_digits (all : ∀ character ∈ digits, Text.isDigit character)
    (noDigit : ¬ Text.isDigit letter) (rest : List Char) :
    (digits ++ letter :: rest).takeWhile Text.isDigit = digits ∧
      (digits ++ letter :: rest).dropWhile Text.isDigit = letter :: rest := by
  rw [List.takeWhile_append_of_pos all, List.dropWhile_append_of_pos all,
    List.takeWhile_cons_of_neg noDigit, List.dropWhile_cons_of_neg noDigit, List.append_nil]
  exact ⟨rfl, rfl⟩

theorem takeNumber_append (isNumber : IsNumber Text.isDigit number)
    (noDigit : ¬ Text.isDigit letter) (notPoint : letter ≠ '.') (rest : List Char) :
    takeNumber (number ++ letter :: rest) = some (number, letter :: rest) := by
  cases isNumber with
  | whole present all =>
      obtain ⟨front, back⟩ := takeWhile_digits all noDigit rest
      obtain ⟨digit, digits, rfl⟩ := List.exists_cons_of_ne_nil present
      unfold takeNumber
      rw [front, back]
      simp only
      split
      · rename_i same _
        cases same
      · rename_i same _
        cases same
      · rename_i same _
        cases same
        exact absurd rfl notPoint
      · rfl
  | @pointed digits places present all allPlaces =>
      have noDigitPoint : ¬ Text.isDigit '.' := by decide
      obtain ⟨front, back⟩ := takeWhile_digits all noDigitPoint (places ++ letter :: rest)
      obtain ⟨frontPlaces, backPlaces⟩ := takeWhile_digits allPlaces noDigit rest
      unfold takeNumber
      rw [List.append_assoc, List.cons_append, front, back]
      cases digits with
      | nil =>
          have filled : places.isEmpty = false :=
            List.isEmpty_eq_false_iff.mpr (present.resolve_left fun absent => absent rfl)
          simp only [frontPlaces, backPlaces, filled, Bool.false_eq_true, if_false, List.nil_append]
      | cons digit digits =>
          simp only [frontPlaces, backPlaces]

theorem TimeUnit.spelling_of_microsecond (isUnit : spelling ∈ TimeUnit.microsecond.spellings) :
    spelling = ['u', 's'] ∨ spelling = ['µ', 's'] := by
  simpa only [TimeUnit.spellings, List.mem_cons, List.not_mem_nil, or_false] using isUnit

theorem TimeUnit.exists_letter (isUnit : spelling ∈ unit.spellings) :
    ∃ letter ∈ spelling.head?, ¬ Text.isDigit letter ∧ letter ≠ '.' := by
  cases unit with
  | microsecond =>
      rcases TimeUnit.spelling_of_microsecond isUnit with rfl | rfl
      · exact ⟨'u', rfl, by decide, by decide⟩
      · exact ⟨'µ', rfl, by decide, by decide⟩
  | _ =>
      obtain rfl := List.mem_singleton.mp isUnit
      exact ⟨_, rfl, by decide, by decide⟩

theorem takeUnit_append (isUnit : spelling ∈ unit.spellings) (ends : rest.head? ≠ some 's') :
    takeUnit (spelling ++ rest) = some (unit, rest) := by
  cases unit with
  | microsecond =>
      rcases TimeUnit.spelling_of_microsecond isUnit with rfl | rfl
      · rfl
      · rfl
  | minute =>
      obtain rfl := List.mem_singleton.mp isUnit
      cases rest with
      | nil => rfl
      | cons first others =>
          have notS : first ≠ 's' := fun same => ends (congrArg some same)
          simp [takeUnit, notS]
  | _ =>
      obtain rfl := List.mem_singleton.mp isUnit
      rfl

theorem isSome_takeUnit (isUnit : spelling ∈ unit.spellings) (rest : List Char) :
    (takeUnit (spelling ++ rest)).isSome := by
  -- With an `s` behind it, `m` is read as `ms`, but something is read.
  by_cases more : rest.head? = some 's'
  · obtain ⟨others, rfl⟩ := List.head?_eq_some_iff.mp more
    cases unit with
    | microsecond =>
        rcases TimeUnit.spelling_of_microsecond isUnit with rfl | rfl
        · rfl
        · rfl
    | _ =>
        obtain rfl := List.mem_singleton.mp isUnit
        rfl
  · rw [takeUnit_append isUnit more]
    rfl

variable {component : Component} {text : List Char} {parts : List Component}

theorem takeNumber_eq_some (taken : takeNumber text = some (number, rest)) :
    number ++ rest = text ∧ IsNumber Text.isDigit number := by
  have digits : ∀ text : List Char, ∀ character ∈ text.takeWhile Text.isDigit,
      Text.isDigit character = true := fun text => List.all_eq_true.mp List.all_takeWhile
  have split : text.takeWhile Text.isDigit ++ text.dropWhile Text.isDigit = text :=
    List.takeWhile_append_dropWhile
  unfold takeNumber at taken
  simp only at taken
  split at taken
  · rename_i places noDigits pointed
    split at taken
    · cases taken
    · rename_i present
      cases taken
      refine ⟨?_, @IsNumber.pointed _ [] _ (.inr ?_) (List.forall_mem_nil _) (digits places)⟩
      · rw [List.cons_append, List.takeWhile_append_dropWhile, ← pointed]
        rw [noDigits] at split
        exact split
      · exact fun absent => present (List.isEmpty_iff.mpr absent)
  · cases taken
  · rename_i places pointed present
    cases taken
    refine ⟨?_, .pointed (.inl present) (digits text) (digits places)⟩
    rw [List.append_assoc, List.cons_append, List.takeWhile_append_dropWhile, ← pointed, split]
  · rename_i present _ _
    cases taken
    exact ⟨split, .whole present (digits text)⟩

theorem takeComponent_append (isNumber : IsNumber Text.isDigit component.number)
    (isUnit : spelling ∈ component.unit.spellings) (ends : rest.head? ≠ some 's') :
    takeComponent (component.number ++ (spelling ++ rest)) = some (component, rest) := by
  obtain ⟨letter, first, noDigit, notPoint⟩ := TimeUnit.exists_letter isUnit
  obtain ⟨tail, rfl⟩ : ∃ tail, spelling = letter :: tail := List.head?_eq_some_iff.mp first
  unfold takeComponent
  rw [List.cons_append, takeNumber_append isNumber noDigit notPoint, ← List.cons_append]
  simp only [bind, Option.bind, takeUnit_append isUnit ends]
  rfl

theorem componentsWithin_of_spelled (spelled : Spelled Text.isDigit text parts) {fuel : Nat}
    (enough : text.length ≤ fuel) : componentsWithin fuel text = parts := by
  induction spelled generalizing fuel with
  | nil => cases fuel <;> rfl
  | @cons component spelling rest parts isNumber isUnit later ih =>
      obtain ⟨first, others, split, _⟩ := isNumber.exists_head
      have taken := takeComponent_append isNumber isUnit later.head?_ne
      rw [split, List.cons_append] at taken enough ⊢
      cases fuel with
      | zero => cases Nat.not_succ_le_zero _ enough
      | succ fuel =>
          have shorter : rest.length ≤ fuel := by
            simp only [List.length_cons, List.length_append] at enough
            omega
          simp only [componentsWithin, taken, ih shorter]

end Scan

/-- The scan finds what the text is made of. -/
theorem components_of_spelled {text : List Char} {parts : List Component}
    (spelled : Spelled Text.isDigit text parts) : components text = parts :=
  componentsWithin_of_spelled spelled (Nat.le_refl _)

end PollHerald.Poll
