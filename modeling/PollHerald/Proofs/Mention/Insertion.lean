import PollHerald.Proofs.Mention.Order

set_option autoImplicit false

/-! The whole course of a composition from a list of mentions whose offsets never go back. The names
that go in leave the text in front of them as it is, so an offset can be judged by the clean text
alone. The last mention that cannot be put in ends the composition, and the names that were asked
for are those of the mentions behind it. -/

namespace PollHerald.Mention

/-- A mention that can be put into a text. -/
structure Placeable {ε : Type} (name : Fid → Except ε (List Char)) (text : List Char)
    (mark : Fid × Nat) : Prop where
  borders : Text.Borders mark.2 text
  named : ∃ found, name mark.1 = .ok found

/-- A text that is cut at the offsets of mentions, with their names put in at the cuts. -/
def WrittenInto {ε : Type} (name : Fid → Except ε (List Char)) (text : List Char)
    (marks : List (Fid × Nat)) (woven : List Char) : Prop :=
  ∃ found : Fid → List Char, (∀ mark ∈ marks, name mark.1 = .ok (found mark.1)) ∧
    weave 0 (marks.map fun mark => ('@' :: found mark.1, mark.2)) text = some woven

/-- What becomes of mentions that are put into a clean text from the last to the first: the names
that are asked for, and the outcome. -/
inductive Course {ε : Type} (name : Fid → Except ε (List Char)) (text : List Char)
    (marks : List (Fid × Nat)) : Composed ε → Prop where
  | whole {woven : List Char} (placeable : ∀ mark ∈ marks, Placeable name text mark)
    (written : WrittenInto name text marks woven) :
    Course name text marks { asked := (marks.map Prod.fst).reverse, outcome := .ok woven }
  /-- The offset of a mention ends it. Its name is not asked for. -/
  | offset {front back : List (Fid × Nat)} {mark : Fid × Nat} {grown : List Char}
    (split : marks = front ++ mark :: back)
    (placeable : ∀ later ∈ back, Placeable name text later)
    (written : WrittenInto name text back grown) (apart : ¬ Text.Borders mark.2 text) :
    Course name text marks
      { asked := (back.map Prod.fst).reverse
        outcome := .error (.mention (.offset mark.2 (Text.byteLength grown))) }
  /-- The name of a mention ends it. -/
  | name {front back : List (Fid × Nat)} {mark : Fid × Nat} {error : ε}
    (split : marks = front ++ mark :: back)
    (placeable : ∀ later ∈ back, Placeable name text later)
    (borders : Text.Borders mark.2 text) (unnamed : name mark.1 = .error error) :
    Course name text marks
      { asked := ((mark :: back).map Prod.fst).reverse, outcome := .error (.name error) }

section Weave

variable {done offset : Nat} {tokens : List (List Char × Nat)} {text woven : List Char}

theorem exists_weave (forward : tokens.Pairwise fun token later => token.2 ≤ later.2)
    (borders : ∀ token ∈ tokens, done ≤ token.2 ∧ Text.Borders (token.2 - done) text) :
    ∃ woven, weave done tokens text = some woven := by
  induction tokens generalizing done text with
  | nil => exact ⟨text, rfl⟩
  | cons token rest ih =>
      obtain ⟨token, offset⟩ := token
      obtain ⟨further, forwardRest⟩ := List.pairwise_cons.mp forward
      obtain ⟨⟨reached, front, back, rfl, length⟩, bordersRest⟩ := List.forall_mem_cons.mp borders
      have here : offset = done + Text.byteLength front := by omega
      have bordersBack : ∀ later ∈ rest, offset ≤ later.2 ∧ Text.Borders (later.2 - offset) back := by
        intro later member
        have behind := further later member
        refine ⟨behind, (Text.borders_append_add front back _).mp ?_⟩
        have same : Text.byteLength front + (later.2 - offset) = later.2 - done := by omega
        rw [same]
        exact (bordersRest later member).2
      obtain ⟨woven, found⟩ := ih forwardRest bordersBack
      exact ⟨_, weave_cons_eq_some_iff.mpr ⟨front, back, woven, rfl, here, found, rfl⟩⟩

/-- Tokens that go in at an offset or behind it leave the text in front of it as it is. -/
theorem borders_weave (weaves : weave 0 tokens text = some woven)
    (behind : ∀ token ∈ tokens, offset ≤ token.2) :
    Text.Borders offset woven ↔ Text.Borders offset text := by
  cases tokens with
  | nil =>
      cases weaves
      rfl
  | cons token rest =>
      obtain ⟨token, first⟩ := token
      obtain ⟨front, back, later, rfl, length, _, rfl⟩ := weave_cons_eq_some_iff.mp weaves
      have within : offset ≤ Text.byteLength front := by
        have reached := behind _ List.mem_cons_self
        omega
      rw [List.append_assoc, Text.borders_append_of_le within, Text.borders_append_of_le within]

end Weave

section Compose

variable {ε : Type} {name : Fid → Except ε (List Char)} {own : Fid} {text : List Char}
variable {marks : List (Fid × Nat)}

theorem exists_writtenInto (forward : marks.Pairwise fun mark later => mark.2 ≤ later.2)
    (placeable : ∀ mark ∈ marks, Placeable name text mark) :
    ∃ woven, WrittenInto name text marks woven := by
  let found : Fid → List Char := fun fid => (name fid).toOption.getD []
  have named : ∀ mark ∈ marks, name mark.1 = .ok (found mark.1) := by
    intro mark member
    obtain ⟨spelling, spelled⟩ := (placeable mark member).named
    simp only [found, spelled, Except.toOption, Option.getD_some]
  have forwardTokens : (marks.map fun mark => ('@' :: found mark.1, mark.2)).Pairwise
      fun token later => token.2 ≤ later.2 :=
    List.pairwise_map.mpr forward
  have bordersTokens : ∀ token ∈ marks.map fun mark => ('@' :: found mark.1, mark.2),
      0 ≤ token.2 ∧ Text.Borders (token.2 - 0) text := by
    intro token member
    obtain ⟨mark, inMarks, rfl⟩ := List.mem_map.mp member
    exact ⟨Nat.zero_le _, (placeable mark inMarks).borders⟩
  obtain ⟨woven, weaves⟩ := exists_weave forwardTokens bordersTokens
  exact ⟨woven, found, named, weaves⟩

theorem insertNames_of_writtenInto (visible : ∀ mark ∈ marks, isSuppressed own mark = false)
    {woven : List Char} (written : WrittenInto name text marks woven) :
    insertNames name own marks.reverse text =
      { asked := (marks.map Prod.fst).reverse, outcome := .ok woven } := by
  obtain ⟨found, named, weaves⟩ := written
  have kept : marks.filter (fun mark => !isSuppressed own mark) = marks :=
    List.filter_eq_self.mpr fun mark member => by rw [visible mark member]; rfl
  have succeeds : (insertNames name own marks.reverse text).outcome = .ok woven :=
    insertNames_of_weave [] (fun mark member _ => named mark member) (by rw [kept]; exact weaves)
  have asked := asked_of_ok succeeds
  rw [List.filter_reverse, kept, List.map_reverse] at asked
  rw [← asked, ← succeeds]

theorem exists_last_of_not_all {α : Type} {holds : α → Prop} {items : List α}
    (notAll : ¬ ∀ item ∈ items, holds item) :
    ∃ front item back, items = front ++ item :: back ∧ ¬ holds item ∧
      ∀ later ∈ back, holds later := by
  induction items with
  | nil => exact absurd (fun _ absent => nomatch absent) notAll
  | cons first rest ih =>
      by_cases all : ∀ item ∈ rest, holds item
      · exact ⟨[], first, rest, rfl, fun here => notAll (List.forall_mem_cons.mpr ⟨here, all⟩), all⟩
      · obtain ⟨front, item, back, rfl, here, behind⟩ := ih all
        exact ⟨first :: front, item, back, rfl, here, behind⟩

theorem compose_eq_insertNames {mentions : List Fid} {positions : List Nat}
    (counts : mentions.length = positions.length) :
    compose name own text mentions positions =
      insertNames name own (shown own (mentions.zip positions)).reverse text := by
  have reversed : (shown own (mentions.zip positions)).reverse =
      shown own (mentions.zip positions).reverse :=
    List.filter_reverse.symm
  rw [compose, if_pos counts, reversed, insertNames_shown]

/-- Where all names behind a mention are in the text, that mention is the next to be put in. -/
theorem insertNames_reverse_of_split {front back : List (Fid × Nat)} {mark : Fid × Nat}
    {grown : List Char}
    (visible : ∀ other ∈ front ++ mark :: back, isSuppressed own other = false)
    (written : WrittenInto name text back grown) :
    insertNames name own (front ++ mark :: back).reverse text =
      { asked := (back.map Prod.fst).reverse ++
          (insertNames name own (mark :: front.reverse) grown).asked
        outcome := (insertNames name own (mark :: front.reverse) grown).outcome } := by
  have visibleBack : ∀ later ∈ back, isSuppressed own later = false := fun later member =>
    visible later (List.mem_append_right _ (List.mem_cons_of_mem mark member))
  have behind := insertNames_of_writtenInto visibleBack written
  rw [List.reverse_append, List.reverse_cons, List.append_assoc, List.singleton_append,
    insertNames_append_of_ok (congrArg Composed.outcome behind), behind]

theorem course_of_misplaced {front back : List (Fid × Nat)} {mark : Fid × Nat}
    (visible : ∀ other ∈ front ++ mark :: back, isSuppressed own other = false)
    (forward : (mark :: back).Pairwise fun mark later => mark.2 ≤ later.2)
    (misplaced : ¬ Placeable name text mark)
    (placeable : ∀ later ∈ back, Placeable name text later) :
    Course name text (front ++ mark :: back)
      (insertNames name own (front ++ mark :: back).reverse text) := by
  obtain ⟨further, forwardBack⟩ := List.pairwise_cons.mp forward
  obtain ⟨grown, written⟩ := exists_writtenInto forwardBack placeable
  have sameBorders : Text.Borders mark.2 grown ↔ Text.Borders mark.2 text := by
    obtain ⟨found, _, weaves⟩ := written
    refine borders_weave weaves fun token member => ?_
    obtain ⟨later, inBack, rfl⟩ := List.mem_map.mp member
    exact further later inBack
  have visibleMark : isSuppressed own mark = false :=
    visible mark (List.mem_append_right _ List.mem_cons_self)
  rw [insertNames_reverse_of_split visible written]
  obtain ⟨fid, offset⟩ := mark
  by_cases borders : Text.Borders offset text
  · obtain ⟨⟨first, second⟩, cut⟩ := Option.isSome_iff_exists.mp
      ((Text.borders_iff _ _).mp (sameBorders.mpr borders))
    cases unnamed : name fid with
    | ok found => exact absurd ⟨borders, found, unnamed⟩ misplaced
    | error error =>
        have course : Course name text (front ++ (fid, offset) :: back) _ :=
          .name rfl placeable borders unnamed
        simpa only [insertNames, visibleMark, Bool.false_eq_true, if_false, cut, unnamed,
          List.map_cons, List.reverse_cons] using course
  · have noCut : Text.cutAt offset grown = none :=
      (Text.cutAt_eq_none_iff _ _).mpr fun found => borders (sameBorders.mp found)
    have course : Course name text (front ++ (fid, offset) :: back) _ :=
      .offset rfl placeable written borders
    simpa only [insertNames, visibleMark, Bool.false_eq_true, if_false, noCut, List.append_nil]
      using course

/-- A composition whose offsets never go back is settled by the clean text: either all shown
mentions stand at their offsets there, or the last one that cannot be put in ends it. -/
theorem compose_stops_at_last_misplaced (name : Fid → Except ε (List Char)) (own : Fid)
    (text : List Char) {mentions : List Fid} {positions : List Nat}
    (counts : mentions.length = positions.length) (ordered : positions.Pairwise (· ≤ ·)) :
    Course name text (shown own (mentions.zip positions))
      (compose name own text mentions positions) := by
  have places : (mentions.zip positions).map Prod.snd = positions :=
    List.map_snd_zip (Nat.le_of_eq counts.symm)
  have forward : (shown own (mentions.zip positions)).Pairwise
      fun mark later => mark.2 ≤ later.2 := by
    rw [← places] at ordered
    exact (List.pairwise_map.mp ordered).filter _
  have visible : ∀ mark ∈ shown own (mentions.zip positions), isSuppressed own mark = false := by
    intro mark member
    simpa using (List.mem_filter.mp member).2
  rw [compose_eq_insertNames counts]
  by_cases all : ∀ mark ∈ shown own (mentions.zip positions), Placeable name text mark
  · obtain ⟨woven, written⟩ := exists_writtenInto forward all
    rw [insertNames_of_writtenInto visible written]
    exact .whole all written
  · obtain ⟨front, mark, back, split, misplaced, placeable⟩ := exists_last_of_not_all all
    rw [split] at forward visible ⊢
    obtain ⟨_, forwardBack, _⟩ := List.pairwise_append.mp forward
    exact course_of_misplaced visible forwardBack misplaced placeable

end Compose

/-- Two names go in at the end of the text. Then an offset inside a character ends the composition,
in front of which there is an account without a name. -/
theorem crowdedText_stops_inside_character :
    [7, 9, 11, 10, 9, 10].length = [0, 0, 1, 2, 3, 4].length ∧
      [0, 0, 1, 2, 3, 4].Pairwise (· ≤ ·) ∧
      Course memberName " é-".toList [(9, 0), (11, 1), (10, 2), (9, 3), (10, 4)]
        { asked := [10, 9], outcome := .error (.mention (.offset 2 16)) } := by
  have counts : [7, 9, 11, 10, 9, 10].length = [0, 0, 1, 2, 3, 4].length := rfl
  have ordered : [0, 0, 1, 2, 3, 4].Pairwise (· ≤ ·) := by decide
  exact ⟨counts, ordered,
    compose_stops_at_last_misplaced memberName 7 " é-".toList counts ordered⟩

end PollHerald.Mention
