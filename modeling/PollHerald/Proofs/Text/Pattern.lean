import Mathlib.Computability.Language
import PollHerald.Proofs.Text.Bytes

set_option autoImplicit false

/-! Patterns of characters. A pattern has fronts of a text in an order of preference: of two
alternatives the first, of a repetition the one that goes on. Without the order, the fronts are the
words of a language. A search goes through a text from left to right, takes the preferred match
where there is one, and goes on behind it. -/

open scoped Computability

namespace PollHerald.Text

inductive Pattern where
  | empty
  | one (accepts : Char → Bool)
  | both (first second : Pattern)
  | either (preferred other : Pattern)
  | many (body : Pattern)

namespace Pattern

/-- The texts that a pattern stands for. -/
def language : Pattern → Language Char
  | .empty => 1
  | .one accepts => {text | ∃ character, accepts character = true ∧ text = [character]}
  | .both first second => first.language * second.language
  | .either preferred other => preferred.language + other.language
  | .many body => body.language∗

/-- What two searches find one directly behind the other, and what is left behind both. -/
def inTurn (first second : List Char → List (List Char × List Char)) (text : List Char) :
    List (List Char × List Char × List Char) :=
  (first text).flatMap fun (front, behind) =>
    (second behind).map fun (back, rest) => (front, back, rest)

/-- Repeats a search as often as it can, but at most as often as the fuel allows. -/
def repeated (search : List Char → List (List Char × List Char)) :
    Nat → List Char → List (List Char × List Char)
  | 0, text => [([], text)]
  | fuel + 1, text =>
    let moving := fun text => (search text).filter fun (front, _) => !front.isEmpty
    ((inTurn moving (repeated search fuel) text).map fun (front, back, rest) =>
      (front ++ back, rest)) ++ [([], text)]

/-- The fronts of a text that a pattern matches, with what is behind them. The preferred one comes
first. A repetition takes at least one character at a time. -/
def fronts : Pattern → List Char → List (List Char × List Char)
  | .empty, text => [([], text)]
  | .one _, [] => []
  | .one accepts, character :: rest => if accepts character then [([character], rest)] else []
  | .both first second, text =>
    (inTurn first.fronts second.fronts text).map fun (front, back, rest) => (front ++ back, rest)
  | .either preferred other, text => preferred.fronts text ++ other.fronts text
  | .many body, text => repeated body.fronts text.length text

/-- Whether a pattern matches a text from its start to its end. -/
def accepts (pattern : Pattern) (text : List Char) : Bool :=
  (pattern.fronts text).any fun (_, rest) => rest.isEmpty

def atLeastOne (pattern : Pattern) : Pattern :=
  .both pattern (.many pattern)

def optional (pattern : Pattern) : Pattern :=
  .either pattern .empty

def word : List Char → Pattern
  | [] => .empty
  | character :: rest => .both (.one (· == character)) (word rest)

/-- The earlier words are preferred. -/
def anyWord : List (List Char) → Pattern
  | [] => .one fun _ => false
  | first :: others => .either (word first) (anyWord others)

section Fronts

variable {search : List Char → List (List Char × List Char)} {words : Language Char}
variable {text front back rest : List Char}

theorem mem_inTurn {first second : List Char → List (List Char × List Char)} :
    (front, back, rest) ∈ inTurn first second text ↔
      ∃ behind, (front, behind) ∈ first text ∧ (back, rest) ∈ second behind := by
  simp only [inTurn, List.mem_flatMap, List.mem_map, Prod.exists, Prod.mk.injEq]
  constructor
  · rintro ⟨_, behind, found, _, _, next, rfl, rfl, rfl⟩
    exact ⟨behind, found, next⟩
  · rintro ⟨behind, found, next⟩
    exact ⟨front, behind, found, back, rest, next, rfl, rfl, rfl⟩

/-- Where only one front of the first search can go on, it is the one that is preferred. -/
theorem head?_inTurn {first second : List Char → List (List Char × List Char)}
    {behind : List Char} (found : (front, behind) ∈ first text)
    (alone : ∀ other left, (other, left) ∈ first text → second left ≠ [] →
      (other, left) = (front, behind)) :
    (inTurn first second text).head? =
      (second behind).head?.map fun (back, rest) => (front, back, rest) := by
  cases preferred : (inTurn first second text).head? with
  | none =>
      have stuck : second behind = [] := by
        refine List.eq_nil_iff_forall_not_mem.mpr ?_
        rintro ⟨back, rest⟩ next
        have member := mem_inTurn.mpr ⟨behind, found, next⟩
        rw [List.head?_eq_none_iff.mp preferred] at member
        cases member
      rw [stuck]
      rfl
  | some pair =>
      rw [inTurn, List.head?_flatMap] at preferred
      obtain ⟨⟨other, left⟩, member, begins⟩ := List.exists_of_findSome?_eq_some preferred
      have goesOn : second left ≠ [] := by
        intro stuck
        simp only [stuck, List.map_nil, List.head?_nil, reduceCtorEq] at begins
      cases alone other left member goesOn
      rw [← begins, List.head?_map]

theorem mem_repeated_succ {fuel : Nat} :
    (front, rest) ∈ repeated search (fuel + 1) text ↔
      (∃ first more behind, first ++ more = front ∧ first ≠ [] ∧
        (first, behind) ∈ search text ∧ (more, rest) ∈ repeated search fuel behind) ∨
      front = [] ∧ rest = text := by
  simp only [repeated, List.mem_append, List.mem_map, Prod.exists, Prod.mk.injEq, mem_inTurn,
    List.mem_filter, List.mem_singleton, Bool.not_eq_true', List.isEmpty_eq_false_iff]
  refine or_congr_left ⟨?_, ?_⟩
  · rintro ⟨first, more, _, ⟨behind, ⟨found, present⟩, next⟩, joined, rfl⟩
    exact ⟨first, more, behind, joined, present, found, next⟩
  · rintro ⟨first, more, behind, joined, present, found, next⟩
    exact ⟨first, more, rest, ⟨behind, ⟨found, present⟩, next⟩, joined, rfl⟩

theorem mem_repeated (finds : ∀ text front rest,
      (front, rest) ∈ search text ↔ front ++ rest = text ∧ front ∈ words)
    {fuel : Nat} (enough : text.length ≤ fuel) :
    (front, rest) ∈ repeated search fuel text ↔ front ++ rest = text ∧ front ∈ words∗ := by
  -- Each round takes at least one character, so fuel for every character of the text is enough.
  induction fuel generalizing text front with
  | zero =>
      obtain rfl := List.length_eq_zero_iff.mp (Nat.le_zero.mp enough)
      simp only [repeated, List.mem_singleton, Prod.mk.injEq, List.append_eq_nil_iff]
      refine ⟨fun both => ⟨both, ?_⟩, And.left⟩
      rw [both.1]
      exact Language.nil_mem_kstar words
  | succ fuel ih =>
      rw [mem_repeated_succ]
      constructor
      · rintro (⟨first, more, behind, rfl, present, found, next⟩ | ⟨rfl, rfl⟩)
        · obtain ⟨rfl, isWord⟩ := (finds _ _ _).mp found
          have shorter : behind.length ≤ fuel := by
            have moves := List.length_pos_of_ne_nil present
            rw [List.length_append] at enough
            omega
          obtain ⟨rfl, pieces, rfl, areWords⟩ := (ih shorter).mp next
          refine ⟨List.append_assoc .., first :: pieces, rfl, ?_⟩
          exact List.forall_mem_cons.mpr ⟨isWord, areWords⟩
        · exact ⟨rfl, Language.nil_mem_kstar words⟩
      · rintro ⟨rfl, inStar⟩
        obtain ⟨pieces, rfl, areWords⟩ := Language.mem_kstar_iff_exists_nonempty.mp inStar
        cases pieces with
        | nil => exact .inr ⟨rfl, rfl⟩
        | cons first others =>
            obtain ⟨⟨isWord, present⟩, later⟩ := List.forall_mem_cons.mp areWords
            have shorter : (others.flatten ++ rest).length ≤ fuel := by
              have moves := List.length_pos_of_ne_nil present
              simp only [List.flatten_cons, List.length_append] at enough ⊢
              omega
            refine .inl ⟨first, others.flatten, others.flatten ++ rest, rfl, present, ?_, ?_⟩
            · refine (finds _ _ _).mpr ⟨?_, isWord⟩
              rw [List.flatten_cons, List.append_assoc]
            · exact (ih shorter).mpr ⟨rfl, others, rfl, fun word member => (later word member).1⟩

/-- A pattern finds just the words of its language. -/
theorem mem_fronts (pattern : Pattern) (text front rest : List Char) :
    (front, rest) ∈ pattern.fronts text ↔ front ++ rest = text ∧ front ∈ pattern.language := by
  induction pattern generalizing text front rest with
  | empty =>
      simp only [fronts, language, List.mem_singleton, Prod.mk.injEq, Language.mem_one]
      constructor
      · rintro ⟨rfl, rfl⟩
        exact ⟨rfl, rfl⟩
      · rintro ⟨rfl, rfl⟩
        exact ⟨rfl, rfl⟩
  | one accepts =>
      cases text with
      | nil =>
          refine ⟨nofun, ?_⟩
          rintro ⟨joined, character, _, rfl⟩
          cases joined
      | cons first others =>
          simp only [fronts]
          split
          · rename_i accepted
            rw [List.mem_singleton]
            constructor
            · intro same
              cases same
              exact ⟨rfl, first, accepted, rfl⟩
            · rintro ⟨joined, character, _, rfl⟩
              cases joined
              rfl
          · rename_i refused
            refine ⟨nofun, ?_⟩
            rintro ⟨joined, character, accepted, rfl⟩
            cases joined
            exact absurd accepted refused
  | both first second firstIh secondIh =>
      simp only [fronts, language, List.mem_map, Prod.exists, Prod.mk.injEq, mem_inTurn, firstIh,
        secondIh, Language.mem_mul]
      constructor
      · rintro ⟨left, right, _, ⟨behind, ⟨rfl, inFirst⟩, rfl, inSecond⟩, rfl, rfl⟩
        exact ⟨List.append_assoc .., left, inFirst, right, inSecond, rfl⟩
      · rintro ⟨rfl, left, inFirst, right, inSecond, rfl⟩
        exact ⟨left, right, rest,
          ⟨right ++ rest, ⟨(List.append_assoc ..).symm, inFirst⟩, rfl, inSecond⟩, rfl, rfl⟩
  | either preferred other preferredIh otherIh =>
      simp only [fronts, language, List.mem_append, preferredIh, otherIh, Language.mem_add,
        and_or_left]
  | many body ih => exact mem_repeated ih (Nat.le_refl _)

theorem accepts_iff (pattern : Pattern) (text : List Char) :
    pattern.accepts text = true ↔ text ∈ pattern.language := by
  simp only [accepts, List.any_eq_true, Prod.exists, mem_fronts, List.isEmpty_iff]
  constructor
  · rintro ⟨front, _, ⟨rfl, inLanguage⟩, rfl⟩
    rw [List.append_nil]
    exact inLanguage
  · intro inLanguage
    exact ⟨text, [], ⟨List.append_nil text, inLanguage⟩, rfl⟩

end Fronts

section Language

variable {accepts : Char → Bool} {text : List Char}

theorem mem_language_many_one :
    text ∈ (many (one accepts)).language ↔ ∀ character ∈ text, accepts character = true := by
  constructor
  · rintro ⟨pieces, rfl, all⟩ character member
    obtain ⟨piece, present, inPiece⟩ := List.mem_flatten.mp member
    obtain ⟨only, accepted, rfl⟩ := all piece present
    rw [List.mem_singleton.mp inPiece]
    exact accepted
  · intro all
    refine ⟨text.map ([·]), ?_, ?_⟩
    · rw [← List.flatMap_def, List.flatMap_singleton']
    · intro piece member
      obtain ⟨character, present, rfl⟩ := List.mem_map.mp member
      exact ⟨character, all character present, rfl⟩

theorem mem_language_atLeastOne_one :
    text ∈ (atLeastOne (one accepts)).language ↔
      text ≠ [] ∧ ∀ character ∈ text, accepts character = true := by
  constructor
  · rintro ⟨_, ⟨first, accepted, rfl⟩, others, inMany, rfl⟩
    refine ⟨List.cons_ne_nil _ _, ?_⟩
    exact List.forall_mem_cons.mpr ⟨accepted, mem_language_many_one.mp inMany⟩
  · rintro ⟨present, all⟩
    obtain ⟨first, others, rfl⟩ := List.exists_cons_of_ne_nil present
    obtain ⟨accepted, inOthers⟩ := List.forall_mem_cons.mp all
    exact ⟨[first], ⟨first, accepted, rfl⟩, others, mem_language_many_one.mpr inOthers, rfl⟩

theorem mem_language_word (characters : List Char) :
    text ∈ (word characters).language ↔ text = characters := by
  induction characters generalizing text with
  | nil => exact Language.mem_one text
  | cons character rest ih =>
      constructor
      · rintro ⟨_, ⟨first, same, rfl⟩, others, inRest, rfl⟩
        rw [eq_of_beq same, ih.mp inRest]
        rfl
      · rintro rfl
        exact ⟨[character], ⟨character, beq_self_eq_true character, rfl⟩, rest, ih.mpr rfl, rfl⟩

theorem mem_language_anyWord (choices : List (List Char)) :
    text ∈ (anyWord choices).language ↔ text ∈ choices := by
  induction choices with
  | nil =>
      refine ⟨?_, nofun⟩
      rintro ⟨_, never, _⟩
      cases never
  | cons first others ih =>
      rw [anyWord, language, Language.mem_add, mem_language_word, ih, List.mem_cons]

end Language

theorem fronts_word (characters text : List Char) :
    (word characters).fronts text =
      ((characters.isPrefixOf? text).map fun rest => (characters, rest)).toList := by
  induction characters generalizing text with
  | nil => rfl
  | cons character rest ih =>
      cases text with
      | nil => rfl
      | cons first others =>
          rw [word, fronts, inTurn, fronts, List.isPrefixOf?]
          by_cases same : first = character
          · subst same
            simp only [beq_self_eq_true, if_true, List.flatMap_cons, List.flatMap_nil,
              List.append_nil, ih]
            cases rest.isPrefixOf? others <;> rfl
          · have different : (first == character) = false := beq_false_of_ne same
            have otherwise : (character == first) = false := beq_false_of_ne (Ne.symm same)
            rw [different, otherwise]
            rfl

theorem fronts_anyWord (choices : List (List Char)) (text : List Char) :
    (anyWord choices).fronts text =
      choices.filterMap fun choice => (choice.isPrefixOf? text).map fun rest => (choice, rest) := by
  induction choices with
  | nil => cases text <;> rfl
  | cons first others ih =>
      rw [anyWord, fronts, fronts_word, ih, List.filterMap_cons]
      cases first.isPrefixOf? text <;> rfl

end Pattern

/-- Two parts of a text, one directly behind the other, with the bytes that stand before them. -/
structure Found where
  start : Nat
  front : List Char
  back : List Char
  deriving DecidableEq, Repr

namespace Found

def pair (found : Found) : List Char × List Char :=
  (found.front, found.back)

def stop (found : Found) : Nat :=
  found.start + byteLength (found.front ++ found.back)

/-- What is found in a text covers it. The first find starts with the text, each other one starts
where the one before it stops, and the last one stops with the text. -/
structure Cover (text : List Char) (finds : List Found) : Prop where
  inPlace : ∀ found ∈ finds, ∃ before behind,
    before ++ (found.front ++ (found.back ++ behind)) = text ∧ byteLength before = found.start
  first : finds.head?.map start = some 0
  adjacent : finds.IsChain fun found next => found.stop = next.start
  last : finds.getLast?.map stop = some (byteLength text)

def joined (pairs : List (List Char × List Char)) : List Char :=
  pairs.flatMap fun (front, back) => front ++ back

/-- Where pairs are found that stand one directly behind the other. -/
def laidFrom : Nat → List (List Char × List Char) → List Found
  | _, [] => []
  | start, (front, back) :: others =>
    { start, front, back } :: laidFrom (start + byteLength (front ++ back)) others

variable {pairs : List (List Char × List Char)}

theorem map_pair_laidFrom (start : Nat) (pairs : List (List Char × List Char)) :
    (laidFrom start pairs).map pair = pairs := by
  induction pairs generalizing start with
  | nil => rfl
  | cons first others ih =>
      rw [laidFrom, List.map_cons, ih]
      rfl

theorem inPlace_laidFrom (before : List Char) (pairs : List (List Char × List Char)) :
    ∀ found ∈ laidFrom (byteLength before) pairs, ∃ left behind,
      left ++ (found.front ++ (found.back ++ behind)) = before ++ joined pairs ∧
        byteLength left = found.start := by
  induction pairs generalizing before with
  | nil => nofun
  | cons first others ih =>
      have split : before ++ joined (first :: others) =
          before ++ (first.1 ++ first.2) ++ joined others := (List.append_assoc ..).symm
      refine List.forall_mem_cons.mpr ⟨⟨before, joined others, ?_, rfl⟩, ?_⟩
      · rw [split, List.append_assoc, List.append_assoc]
      · have later := ih (before ++ (first.1 ++ first.2))
        rw [byteLength_append, ← split] at later
        exact later

theorem adjacent_laidFrom (start : Nat) (pairs : List (List Char × List Char)) :
    (laidFrom start pairs).IsChain fun found next => found.stop = next.start := by
  induction pairs generalizing start with
  | nil => exact .nil
  | cons first others ih =>
      cases others with
      | nil => exact .singleton _
      | cons next others => exact .cons_cons rfl (ih _)

theorem stop_laidFrom (start : Nat) (present : pairs ≠ []) :
    (laidFrom start pairs).getLast?.map stop = some (start + byteLength (joined pairs)) := by
  induction pairs generalizing start with
  | nil => cases present rfl
  | cons first others ih =>
      have length : byteLength (joined (first :: others)) =
          byteLength (first.1 ++ first.2) + byteLength (joined others) := byteLength_append ..
      rw [length, ← Nat.add_assoc]
      cases others with
      | nil => rfl
      | cons next others => exact ih _ (List.cons_ne_nil _ _)

theorem cover_laidFrom (present : pairs ≠ []) : Cover (joined pairs) (laidFrom 0 pairs) where
  inPlace := inPlace_laidFrom [] pairs
  first := by
    obtain ⟨first, others, rfl⟩ := List.exists_cons_of_ne_nil present
    rfl
  adjacent := adjacent_laidFrom 0 pairs
  last := by
    rw [stop_laidFrom 0 present, Nat.zero_add]

end Found

namespace Pattern

/-- The matches of two patterns together from left to right, each from behind the one before it.
Where none begins, a character is passed over. No match is longer than the fuel. -/
def findWithin (first second : Pattern) : Nat → Nat → List Char → List Found
  | 0, _, _ => []
  | _ + 1, _, [] => []
  | fuel + 1, start, character :: text =>
    match (inTurn first.fronts second.fronts (character :: text)).head? with
    | some (front, back, rest) =>
      { start, front, back } ::
        findWithin first second fuel (start + byteLength (front ++ back)) rest
    | none => findWithin first second fuel (start + character.utf8Size) text

def findAll (first second : Pattern) (text : List Char) : List Found :=
  findWithin first second text.length 0 text

end Pattern

end PollHerald.Text
