import PollHerald.Proofs.Poll.Components
import PollHerald.Proofs.Text.Pattern

set_option autoImplicit false

/-! Durations as two patterns read them. One pattern says which texts are durations, the other finds
the numbers with their units. The automaton and the scan for components do what these two say. In a
duration the second finds one part directly behind the other from the first byte to the last, and
there is no other way to take the text apart. -/

open scoped Computability

namespace PollHerald.Poll

open Text (Pattern Found)

def digitPattern : Pattern :=
  .one Text.isDigit

def pointPattern : Pattern :=
  .one (· == '.')

def numberPattern : Pattern :=
  .either
    (.both (.atLeastOne digitPattern) (.optional (.both pointPattern (.many digitPattern))))
    (.both pointPattern (.atLeastOne digitPattern))

def unitPattern : Pattern :=
  .anyWord [['n', 's'], ['u', 's'], ['µ', 's'], ['m', 's'], ['s'], ['m'], ['h'], ['d']]

def durationPattern : Pattern :=
  .atLeastOne (.both numberPattern unitPattern)

/-- The numbers that are found in a text with a unit directly behind them. -/
def durationParts (text : List Char) : List Found :=
  Pattern.findAll numberPattern unitPattern text

/-- Numbers with their units, one directly after another, that make up a text. -/
inductive TakesApart : List Char → List (List Char × List Char) → Prop where
  | nil : TakesApart [] []
  | cons {number unit rest : List Char} {parts : List (List Char × List Char)}
    (isNumber : number ∈ numberPattern.language) (isUnit : unit ∈ unitPattern.language)
    (later : TakesApart rest parts) :
    TakesApart (number ++ (unit ++ rest)) ((number, unit) :: parts)

/-- A component, as it was found. -/
def Shows (found : Found) (component : Component) : Prop :=
  found.front = component.number ∧ found.back ∈ component.unit.spellings

section Language

variable {number spelling : List Char}

theorem mem_language_numberPattern :
    number ∈ numberPattern.language ↔ IsNumber Text.isDigit number := by
  constructor
  · rintro (⟨digits, inDigits, _, ⟨_, ⟨_, same, rfl⟩, places, inPlaces, rfl⟩ | rfl, rfl⟩ |
      ⟨_, ⟨_, same, rfl⟩, places, inPlaces, rfl⟩)
    · obtain ⟨present, all⟩ := Pattern.mem_language_atLeastOne_one.mp inDigits
      rw [eq_of_beq same]
      exact .pointed (.inl present) all (Pattern.mem_language_many_one.mp inPlaces)
    · obtain ⟨present, all⟩ := Pattern.mem_language_atLeastOne_one.mp inDigits
      change IsNumber Text.isDigit (digits ++ [])
      rw [List.append_nil]
      exact .whole present all
    · obtain ⟨present, all⟩ := Pattern.mem_language_atLeastOne_one.mp inPlaces
      rw [eq_of_beq same]
      exact @IsNumber.pointed _ [] places (.inr present) (List.forall_mem_nil _) all
  · have isPoint : ['.'] ∈ pointPattern.language := ⟨'.', rfl, rfl⟩
    intro isNumber
    cases isNumber with
    | whole present all =>
        have inDigits := Pattern.mem_language_atLeastOne_one.mpr ⟨present, all⟩
        exact .inl ⟨number, inDigits, [], .inr rfl, List.append_nil number⟩
    | @pointed digits places present all allPlaces =>
        by_cases absent : digits = []
        · subst absent
          have placesPresent := present.resolve_left fun digitsPresent => digitsPresent rfl
          have inPlaces := Pattern.mem_language_atLeastOne_one.mpr ⟨placesPresent, allPlaces⟩
          exact .inr ⟨['.'], isPoint, places, inPlaces, rfl⟩
        · have inDigits := Pattern.mem_language_atLeastOne_one.mpr ⟨absent, all⟩
          have inPlaces := Pattern.mem_language_many_one.mpr allPlaces
          exact .inl ⟨digits, inDigits, _, .inl ⟨['.'], isPoint, places, inPlaces, rfl⟩, rfl⟩

theorem mem_language_unitPattern :
    spelling ∈ unitPattern.language ↔ ∃ unit : TimeUnit, spelling ∈ unit.spellings := by
  rw [unitPattern, Pattern.mem_language_anyWord]
  constructor
  · intro member
    simp only [List.mem_cons, List.not_mem_nil, or_false] at member
    rcases member with rfl | rfl | rfl | rfl | rfl | rfl | rfl | rfl
    · exact ⟨.nanosecond, by decide⟩
    · exact ⟨.microsecond, by decide⟩
    · exact ⟨.microsecond, by decide⟩
    · exact ⟨.millisecond, by decide⟩
    · exact ⟨.second, by decide⟩
    · exact ⟨.minute, by decide⟩
    · exact ⟨.hour, by decide⟩
    · exact ⟨.day, by decide⟩
  · rintro ⟨unit, isUnit⟩
    revert spelling
    cases unit <;> decide

end Language

section Decomposition

variable {text : List Char} {parts : List (List Char × List Char)}

theorem TakesApart.joined (takesApart : TakesApart text parts) : Found.joined parts = text := by
  induction takesApart with
  | nil => rfl
  | cons isNumber isUnit later ih =>
      rw [← List.append_assoc, ← ih]
      rfl

theorem TakesApart.exists_spelled (takesApart : TakesApart text parts) :
    ∃ components, components.length = parts.length ∧ Spelled Text.isDigit text components := by
  induction takesApart with
  | nil => exact ⟨[], rfl, .nil⟩
  | @cons number _ _ _ isNumber isUnit later ih =>
      obtain ⟨components, length, spelled⟩ := ih
      obtain ⟨unit, isSpelling⟩ := mem_language_unitPattern.mp isUnit
      have isNumber := mem_language_numberPattern.mp isNumber
      refine ⟨⟨number, unit⟩ :: components, congrArg (· + 1) length, ?_⟩
      exact @Spelled.cons _ ⟨number, unit⟩ _ _ _ isNumber isSpelling spelled

theorem exists_takesApart_of_spelled {components : List Component}
    (spelled : Spelled Text.isDigit text components) :
    ∃ parts, parts.length = components.length ∧ TakesApart text parts := by
  induction spelled with
  | nil => exact ⟨[], rfl, .nil⟩
  | @cons component spelling _ _ isNumber isUnit later ih =>
      obtain ⟨parts, length, takesApart⟩ := ih
      have isNumber := mem_language_numberPattern.mpr isNumber
      have isUnit := mem_language_unitPattern.mpr ⟨component.unit, isUnit⟩
      refine ⟨(component.number, spelling) :: parts, congrArg (· + 1) length, ?_⟩
      exact .cons isNumber isUnit takesApart

theorem mem_kstar_iff_takesApart :
    text ∈ (numberPattern.language * unitPattern.language)∗ ↔ ∃ parts, TakesApart text parts := by
  constructor
  · rintro ⟨pieces, rfl, all⟩
    induction pieces with
    | nil => exact ⟨[], .nil⟩
    | cons piece pieces ih =>
        obtain ⟨⟨number, isNumber, unit, isUnit, rfl⟩, later⟩ := List.forall_mem_cons.mp all
        obtain ⟨parts, takesApart⟩ := ih later
        refine ⟨(number, unit) :: parts, ?_⟩
        change TakesApart (number ++ unit ++ pieces.flatten) _
        rw [List.append_assoc]
        exact .cons isNumber isUnit takesApart
  · rintro ⟨parts, takesApart⟩
    induction takesApart with
    | nil => exact Language.nil_mem_kstar _
    | @cons number unit _ _ isNumber isUnit later ih =>
        obtain ⟨pieces, rfl, all⟩ := ih
        refine ⟨(number ++ unit) :: pieces, (List.append_assoc ..).symm, ?_⟩
        exact List.forall_mem_cons.mpr ⟨Language.append_mem_mul isNumber isUnit, all⟩

theorem accepts_iff_takesApart (text : List Char) :
    durationPattern.accepts text = true ↔ ∃ parts, parts ≠ [] ∧ TakesApart text parts := by
  rw [Pattern.accepts_iff]
  constructor
  · rintro ⟨_, ⟨number, isNumber, unit, isUnit, rfl⟩, rest, inStar, rfl⟩
    obtain ⟨parts, takesApart⟩ := mem_kstar_iff_takesApart.mp inStar
    refine ⟨(number, unit) :: parts, List.cons_ne_nil _ _, ?_⟩
    change TakesApart (number ++ unit ++ rest) _
    rw [List.append_assoc]
    exact .cons isNumber isUnit takesApart
  · rintro ⟨parts, present, takesApart⟩
    cases takesApart with
    | nil => cases present rfl
    | cons isNumber isUnit later =>
        have inStar := mem_kstar_iff_takesApart.mpr ⟨_, later⟩
        rw [← List.append_assoc]
        exact Language.append_mem_mul (Language.append_mem_mul isNumber isUnit) inStar

/-- The automaton takes the texts of the pattern. -/
theorem isDuration_eq_accepts (text : List Char) :
    isDuration text = durationPattern.accepts text := by
  rw [Bool.eq_iff_iff, isDuration_iff, accepts_iff_takesApart]
  constructor
  · rintro ⟨components, present, spelled⟩
    obtain ⟨parts, length, takesApart⟩ := exists_takesApart_of_spelled spelled
    refine ⟨parts, ?_, takesApart⟩
    rw [← List.length_pos_iff, length, List.length_pos_iff]
    exact present
  · rintro ⟨parts, present, takesApart⟩
    obtain ⟨components, length, spelled⟩ := takesApart.exists_spelled
    refine ⟨components, ?_, spelled⟩
    rw [← List.length_pos_iff, length, List.length_pos_iff]
    exact present

end Decomposition

section Match

variable {text number spelling rest : List Char} {component : Component} {unit : TimeUnit}

/-- The order of the words puts `ms` before `m`, as the reading of units does. -/
theorem head?_fronts_unitPattern (taken : takeUnit text = some (unit, rest)) :
    ∃ spelling ∈ unit.spellings, spelling ++ rest = text ∧
      (unitPattern.fronts text).head? = some (spelling, rest) := by
  rw [unitPattern, Pattern.fronts_anyWord]
  unfold takeUnit at taken
  split at taken
  · cases taken
    exact ⟨['n', 's'], by decide, rfl, rfl⟩
  · cases taken
    exact ⟨['u', 's'], by decide, rfl, rfl⟩
  · cases taken
    exact ⟨['µ', 's'], by decide, rfl, rfl⟩
  · cases taken
    exact ⟨['m', 's'], by decide, rfl, rfl⟩
  · cases taken
    exact ⟨['s'], by decide, rfl, rfl⟩
  · rename_i noS
    cases taken
    refine ⟨['m'], by decide, rfl, ?_⟩
    have refused : ['s'].isPrefixOf? rest = none := by
      cases rest with
      | nil => rfl
      | cons first others =>
          have different : ¬ 's' = first := fun same => noS others (same ▸ rfl)
          simp only [List.isPrefixOf?, beq_iff_eq, different, if_false]
    simp [List.isPrefixOf?, refused]
  · cases taken
    exact ⟨['h'], by decide, rfl, rfl⟩
  · cases taken
    exact ⟨['d'], by decide, rfl, rfl⟩
  · cases taken

/-- A number that a unit can follow is the one that is read. -/
theorem takeNumber_of_fronts (found : (number, rest) ∈ numberPattern.fronts text)
    (goesOn : unitPattern.fronts rest ≠ []) : takeNumber text = some (number, rest) := by
  obtain ⟨rfl, inNumbers⟩ := (Pattern.mem_fronts ..).mp found
  obtain ⟨⟨spelling, left⟩, member⟩ := List.exists_mem_of_ne_nil _ goesOn
  obtain ⟨rfl, inUnits⟩ := (Pattern.mem_fronts ..).mp member
  obtain ⟨unit, isUnit⟩ := mem_language_unitPattern.mp inUnits
  obtain ⟨letter, first, noDigit, notPoint⟩ := TimeUnit.exists_letter isUnit
  obtain ⟨tail, rfl⟩ := List.head?_eq_some_iff.mp first
  exact takeNumber_append (mem_language_numberPattern.mp inNumbers) noDigit notPoint _

theorem head?_match_of_taken (taken : takeComponent text = some (component, rest)) :
    ∃ spelling ∈ component.unit.spellings, component.number ++ (spelling ++ rest) = text ∧
      (Pattern.inTurn numberPattern.fronts unitPattern.fronts text).head? =
        some (component.number, spelling, rest) := by
  unfold takeComponent at taken
  obtain ⟨⟨number, behind⟩, takenNumber, taken⟩ := Option.bind_eq_some_iff.mp taken
  obtain ⟨⟨unit, left⟩, takenUnit, same⟩ := Option.bind_eq_some_iff.mp taken
  cases same
  obtain ⟨joined, isNumber⟩ := takeNumber_eq_some takenNumber
  obtain ⟨spelling, isUnit, joinedUnit, preferred⟩ := head?_fronts_unitPattern takenUnit
  have found : (number, behind) ∈ numberPattern.fronts text :=
    (Pattern.mem_fronts ..).mpr ⟨joined, mem_language_numberPattern.mpr isNumber⟩
  -- A shorter number stops before a digit or a point, and no unit begins there.
  have alone : ∀ other left, (other, left) ∈ numberPattern.fronts text →
      unitPattern.fronts left ≠ [] → (other, left) = (number, behind) := by
    intro other left member goesOn
    exact Option.some.inj ((takeNumber_of_fronts member goesOn).symm.trans takenNumber)
  refine ⟨spelling, isUnit, ?_, ?_⟩
  · rw [joinedUnit, joined]
  · rw [Pattern.head?_inTurn found alone, preferred]
    rfl

theorem match_eq_nil_of_not_taken (stuck : takeComponent text = none) :
    Pattern.inTurn numberPattern.fronts unitPattern.fronts text = [] := by
  refine List.eq_nil_iff_forall_not_mem.mpr ?_
  rintro ⟨number, spelling, rest⟩ member
  obtain ⟨behind, found, next⟩ := Pattern.mem_inTurn.mp member
  have takenNumber := takeNumber_of_fronts found (List.ne_nil_of_mem next)
  obtain ⟨rfl, inUnits⟩ := (Pattern.mem_fronts ..).mp next
  obtain ⟨unit, isUnit⟩ := mem_language_unitPattern.mp inUnits
  obtain ⟨taken, takenUnit⟩ := Option.isSome_iff_exists.mp (isSome_takeUnit isUnit rest)
  simp only [takeComponent, takenNumber, takenUnit, bind, Option.bind, pure, reduceCtorEq] at stuck

end Match

section Scan

variable {text : List Char} {parts : List (List Char × List Char)}

/-- The scan for components does what the search for the pattern does, in any text. -/
theorem shows_findWithin (fuel start : Nat) (text : List Char) :
    List.Forall₂ Shows (Pattern.findWithin numberPattern unitPattern fuel start text)
      (componentsWithin fuel text) := by
  induction fuel generalizing start text with
  | zero => exact .nil
  | succ fuel ih =>
      cases text with
      | nil => exact .nil
      | cons character text =>
          unfold Pattern.findWithin componentsWithin
          cases taken : takeComponent (character :: text) with
          | none =>
              rw [match_eq_nil_of_not_taken taken]
              exact ih _ _
          | some pair =>
              obtain ⟨component, rest⟩ := pair
              obtain ⟨spelling, isUnit, _, preferred⟩ := head?_match_of_taken taken
              rw [preferred]
              exact .cons ⟨rfl, isUnit⟩ (ih _ _)

/-- The search goes from one part to the next, for what stands behind a unit never goes on with
`s`, which alone could make a longer unit of it. -/
theorem findWithin_of_takesApart (takesApart : TakesApart text parts) {fuel start : Nat}
    (enough : text.length ≤ fuel) :
    Pattern.findWithin numberPattern unitPattern fuel start text = Found.laidFrom start parts := by
  induction takesApart generalizing fuel start with
  | nil => cases fuel <;> rfl
  | @cons number spelling rest parts inNumbers inUnits later ih =>
      obtain ⟨components, _, spelled⟩ := later.exists_spelled
      obtain ⟨unit, isUnit⟩ := mem_language_unitPattern.mp inUnits
      have isNumber := mem_language_numberPattern.mp inNumbers
      have taken := @takeComponent_append _ _ ⟨number, unit⟩ isNumber isUnit spelled.head?_ne
      obtain ⟨other, _, joined, preferred⟩ := head?_match_of_taken taken
      -- The text settles which of two spellings of a unit was found.
      obtain rfl := List.append_cancel_right (List.append_cancel_left joined)
      obtain ⟨first, others, split, _⟩ := isNumber.exists_head
      simp only [split, List.cons_append] at preferred enough ⊢
      cases fuel with
      | zero => cases Nat.not_succ_le_zero _ enough
      | succ fuel =>
          have shorter : rest.length ≤ fuel := by
            simp only [List.length_cons, List.length_append] at enough
            omega
          simp only [Pattern.findWithin, preferred, ih shorter]
          rfl

theorem durationParts_of_takesApart (takesApart : TakesApart text parts) :
    durationParts text = Found.laidFrom 0 parts :=
  findWithin_of_takesApart takesApart (Nat.le_refl _)

/-- What is found of one way to take a text apart makes up any other way too. -/
theorem takesApart_iff (takesApart : TakesApart text parts)
    (others : List (List Char × List Char)) :
    TakesApart text others ↔ (durationParts text).map Found.pair = others := by
  constructor
  · intro alsoApart
    rw [durationParts_of_takesApart alsoApart, Found.map_pair_laidFrom]
  · rintro rfl
    rw [durationParts_of_takesApart takesApart, Found.map_pair_laidFrom]
    exact takesApart

theorem cover_durationParts (takesApart : TakesApart text parts) (present : parts ≠ []) :
    Found.Cover text (durationParts text) := by
  have cover := Found.cover_laidFrom present
  rw [takesApart.joined, ← durationParts_of_takesApart takesApart] at cover
  exact cover

end Scan

/-- A duration is read in one way. The automaton takes the texts of the pattern for durations, and
the scan for components finds what the search for a number with a unit finds. In a duration these
finds cover the text, and it can be taken apart into nothing else. -/
theorem duration_is_read_one_way (text : List Char) :
    isDuration text = durationPattern.accepts text ∧
      List.Forall₂ Shows (durationParts text) (components text) ∧
      (durationPattern.accepts text = true →
        Found.Cover text (durationParts text) ∧
        ∀ parts, TakesApart text parts ↔ (durationParts text).map Found.pair = parts) := by
  refine ⟨isDuration_eq_accepts text, shows_findWithin _ _ text, fun accepted => ?_⟩
  obtain ⟨parts, present, takesApart⟩ := (accepts_iff_takesApart text).mp accepted
  exact ⟨cover_durationParts takesApart present, takesApart_iff takesApart⟩

/-- Units that begin alike, numbers with a point at each place, and a digit of another script. -/
def mixedUnits : List Char :=
  "1.5ms2.m.5µs٣s".toList

def mixedParts : List Found :=
  [⟨0, "1.5".toList, "ms".toList⟩, ⟨5, "2.".toList, "m".toList⟩, ⟨8, ".5".toList, "µs".toList⟩,
    ⟨13, "٣".toList, "s".toList⟩]

theorem mixedUnits_are_read_one_way :
    durationPattern.accepts mixedUnits = true ∧ Found.Cover mixedUnits mixedParts ∧
      ∀ parts, TakesApart mixedUnits parts ↔ mixedParts.map Found.pair = parts := by
  have accepted : durationPattern.accepts mixedUnits = true := by decide +kernel
  have found : durationParts mixedUnits = mixedParts := by decide +kernel
  have read := (duration_is_read_one_way mixedUnits).2.2 accepted
  rw [found] at read
  exact ⟨accepted, read⟩

end PollHerald.Poll
