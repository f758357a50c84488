import Mathlib.Data.List.Forall2
import PollHerald.Proofs.Mention.Spelling
import PollHerald.Proofs.Poll.Grammar

set_option autoImplicit false

/-! A poll command, written out with other names. A line with a name in it stays what it was: it is
not blank, it starts as before, and it is no duration. So the command comes to the same poll, but
for the names in its question and in its options, or has the same fault. -/

namespace PollHerald

namespace Text

variable {text : List Char} {character : Char}

/-- What stands before the first line feed is in front of the first line. -/
theorem splitOn_append_of_tame {front : List Char} (tame : '\n' ∉ front) (back : List Char) :
    (front ++ back).splitOn '\n' = (back.splitOn '\n').modifyHead (front ++ ·) := by
  induction front with
  | nil => exact (congrFun List.modifyHead_id (back.splitOn '\n')).symm
  | cons first rest ih =>
      obtain ⟨noFeed, tameRest⟩ := not_or.mp (mt List.mem_cons.mpr tame)
      have notFeed : ¬ (first == '\n') = true := fun feed => noFeed (eq_of_beq feed).symm
      rw [List.splitOn, List.cons_append, List.splitOnP_cons_eq_if_modifyHead, if_neg notFeed,
        ← List.splitOn, ih tameRest, List.modifyHead_modifyHead]
      rfl

end Text

namespace Mention.Respelled

variable {one other : List Char}

theorem eq_or_named (respelled : Respelled one other) : one = other ∨ '@' ∈ one ∧ '@' ∈ other := by
  induction respelled with
  | nil => exact .inl rfl
  | same character later ih =>
      rcases ih with rfl | ⟨inOne, inOther⟩
      · exact .inl rfl
      · exact .inr ⟨List.mem_cons_of_mem _ inOne, List.mem_cons_of_mem _ inOther⟩
  | name leftTame rightTame later ih => exact .inr ⟨List.mem_cons_self, List.mem_cons_self⟩

theorem head?_trimFront (respelled : Respelled one other) :
    (Text.trimFront one).head? = (Text.trimFront other).head? := by
  induction respelled with
  | nil => rfl
  | same character later ih =>
      by_cases blank : Text.isBlank character = true
      · unfold Text.trimFront
        rw [List.dropWhile_cons_of_pos blank, List.dropWhile_cons_of_pos blank]
        exact ih
      · unfold Text.trimFront
        rw [List.dropWhile_cons_of_neg blank, List.dropWhile_cons_of_neg blank]
        rfl
  | name leftTame rightTame later ih => rfl

theorem modifyHead {lines otherLines : List (List Char)}
    {change otherChange : List Char → List Char}
    (alike : List.Forall₂ Respelled lines otherLines)
    (changes : ∀ one other, Respelled one other → Respelled (change one) (otherChange other)) :
    List.Forall₂ Respelled (lines.modifyHead change) (otherLines.modifyHead otherChange) := by
  cases alike with
  | nil => exact .nil
  | cons first rest => exact .cons (changes _ _ first) rest

/-- The lines are the same but for names, since no name goes over the end of a line. -/
theorem splitOn (respelled : Respelled one other) :
    List.Forall₂ Respelled (one.splitOn '\n') (other.splitOn '\n') := by
  induction respelled with
  | nil => exact .cons .nil .nil
  | @same character one other later ih =>
      by_cases feed : character = '\n'
      · rw [List.splitOn, List.splitOn, List.splitOnP_cons_eq_if_modifyHead,
          List.splitOnP_cons_eq_if_modifyHead, if_pos (beq_iff_eq.mpr feed),
          if_pos (beq_iff_eq.mpr feed)]
        exact .cons .nil ih
      · have tame : '\n' ∉ [character] := by
          intro member
          exact feed (List.mem_singleton.mp member).symm
        have front := Text.splitOn_append_of_tame tame one
        have otherFront := Text.splitOn_append_of_tame tame other
        rw [List.singleton_append] at front otherFront
        rw [front, otherFront]
        exact modifyHead ih fun _ _ alike => .same character alike
  | @name left right one other leftTame rightTame later ih =>
      have marked {name : List Char} (tame : '\n' ∉ name) : '\n' ∉ '@' :: name := by
        intro member
        rcases List.mem_cons.mp member with feed | inName
        · cases feed
        · exact tame inName
      rw [← List.cons_append, ← List.cons_append, Text.splitOn_append_of_tame (marked leftTame),
        Text.splitOn_append_of_tame (marked rightTame)]
      exact modifyHead ih fun _ _ alike => .name leftTame rightTame alike

end Mention.Respelled

namespace Poll

open Mention (Respelled)

/-- Trimmed lines that are the same, or that both have a name in them and start alike. -/
def LinesAlike (one other : List Char) : Prop :=
  one = other ∨ '@' ∈ one ∧ '@' ∈ other ∧ one.head? = other.head?

theorem linesAlike_trim {one other : List Char} (respelled : Respelled one other) :
    LinesAlike (Text.trim one) (Text.trim other) := by
  have filled : Text.isBlank '@' = false := by decide
  rcases respelled.eq_or_named with rfl | ⟨inOne, inOther⟩
  · exact .inl rfl
  · refine .inr ⟨Text.mem_trim filled inOne, Text.mem_trim filled inOther, ?_⟩
    rw [Text.head?_trim, Text.head?_trim]
    exact respelled.head?_trimFront

theorem Progress.step_at (progress : Progress) : progress.step '@' = .failed := by
  have noDigit : Text.isDigit '@' = false := by decide
  have noStart : Progress.ofNumberStart '@' = .failed := by
    rw [ofNumberStart, noDigit]
    rfl
  have noUnit : Progress.ofUnitLetter '@' = .failed := rfl
  cases progress with
  | start => exact noStart
  | complete => exact noStart
  | whole => simp only [step, noDigit, Bool.false_eq_true, if_false, noUnit, Char.reduceEq]
  | point => simp only [step, noDigit, Bool.false_eq_true, if_false]
  | fraction => simp only [step, noDigit, Bool.false_eq_true, if_false, noUnit]
  | halfUnit => rfl
  | minute => exact noStart
  | failed => rfl

theorem Progress.foldl_failed (text : List Char) : text.foldl step .failed = .failed := by
  induction text with
  | nil => rfl
  | cons first rest ih => exact ih

/-- A text with a mark in it is no duration, whatever was read before it. -/
theorem Progress.foldl_of_marked {text : List Char} (marked : '@' ∈ text) (progress : Progress) :
    text.foldl step progress = .failed := by
  induction text generalizing progress with
  | nil => cases marked
  | cons first rest ih =>
      rw [List.foldl_cons]
      rcases List.mem_cons.mp marked with rfl | later
      · rw [step_at, foldl_failed]
      · exact ih later _

theorem durationOf?_of_marked {text : List Char} (marked : '@' ∈ text) :
    durationOf? text = none := by
  have notZero : text ≠ ['0'] := by
    rintro rfl
    cases List.mem_singleton.mp marked
  have noDuration : isDuration text = false := by
    rw [isDuration, Progress.foldl_of_marked marked]
  rw [durationOf?, if_neg notZero, noDuration]
  rfl

theorem parseDuration_of_marked {line : List Char} (marked : '@' ∈ line) :
    parseDuration (String.ofList line) = .error (.durationParse (String.ofList line)) := by
  have trimmed : '@' ∈ Text.trim line := Text.mem_trim (by decide) marked
  rw [parseDuration, String.toList_ofList, durationOf?_of_marked trimmed]

/-- Faults that are the same, but for the text of what should be a duration and is none. -/
inductive Error.Alike : Error → Error → Prop where
  | refl (error : Error) : Alike error error
  | durationParse (one other : String) : Alike (.durationParse one) (.durationParse other)

/-- What was read of two commands, the same but for the wording. -/
structure Outline.Alike (one other : Outline) : Prop where
  question : List.Forall₂ LinesAlike one.question other.question
  options : one.options.length = other.options.length
  duration : one.duration = other.duration

/-- Polls that are the same but for the wording. -/
structure Alike (one other : Poll) : Prop where
  options : one.options.length = other.options.length
  duration : one.duration = other.duration

abbrev ParsedAlike (one other : Except Error Poll) : Prop :=
  BothWays Error.Alike Alike one other

section Reading

variable {limits : Limits} {outline otherOutline : Outline} {line otherLine : List Char}

theorem isOption_of_alike (alike : LinesAlike line otherLine) :
    isOption otherLine = isOption line := by
  rcases alike with rfl | ⟨_, _, sameHead⟩
  · rfl
  · rw [isOption, isOption, sameHead]

theorem eq_nil_of_alike (alike : LinesAlike line otherLine) (blank : line = []) :
    otherLine = [] := by
  rcases alike with rfl | ⟨marked, _, _⟩
  · exact blank
  · rw [blank] at marked
    cases marked

theorem LinesAlike.symm (alike : LinesAlike line otherLine) : LinesAlike otherLine line := by
  rcases alike with rfl | ⟨marked, otherMarked, sameHead⟩
  · exact .inl rfl
  · exact .inr ⟨otherMarked, marked, sameHead.symm⟩

theorem readDuration_alike (limits : Limits) (alike : LinesAlike line otherLine) :
    BothWays Error.Alike (· = ·) (readDuration limits line) (readDuration limits otherLine) := by
  rcases alike with rfl | ⟨marked, otherMarked, _⟩
  · cases readDuration limits line with
    | ok duration => exact .ok rfl
    | error fault => exact .error (.refl fault)
  · rw [readDuration_eq, readDuration_eq, parseDuration_of_marked marked,
      parseDuration_of_marked otherMarked]
    exact .error (.durationParse _ _)

theorem readLines_alike {lines otherLines : List (List Char)}
    (alike : List.Forall₂ LinesAlike lines otherLines) (sofar : outline.Alike otherOutline) :
    BothWays Error.Alike Outline.Alike (readLines limits outline lines)
      (readLines limits otherOutline otherLines) := by
  induction alike generalizing outline otherOutline with
  | nil => exact .ok sofar
  | @cons line otherLine rest otherRest first later ih =>
      have sameOption := isOption_of_alike first
      cases option : isOption line with
      | true =>
          rw [option] at sameOption
          rw [readLines_of_option limits outline rest option,
            readLines_of_option limits otherOutline otherRest sameOption, sofar.options]
          split
          · exact .error (.refl _)
          · refine ih ⟨sofar.question, ?_, sofar.duration⟩
            rw [List.length_append, List.length_append, sofar.options]
            rfl
      | false =>
          rw [option] at sameOption
          by_cases blank : line = []
          · cases blank
            cases eq_nil_of_alike first rfl
            exact ih sofar
          · have otherFilled : otherLine ≠ [] := by
              intro empty
              exact blank (eq_nil_of_alike first.symm empty)
            rw [readLines_of_plain limits outline rest blank option,
              readLines_of_plain limits otherOutline otherRest otherFilled sameOption]
            by_cases noneYet : outline.options = []
            · have otherNoneYet : otherOutline.options = [] := by
                rw [← List.length_eq_zero_iff, ← sofar.options, noneYet, List.length_nil]
              rw [if_pos noneYet, if_pos otherNoneYet]
              refine ih ⟨?_, sofar.options, sofar.duration⟩
              exact List.rel_append sofar.question (.cons first .nil)
            · have otherSome : otherOutline.options ≠ [] := by
                rw [ne_eq, ← List.length_eq_zero_iff, ← sofar.options, List.length_eq_zero_iff]
                exact noneYet
              rw [if_neg noneYet, if_neg otherSome]
              refine (readDuration_alike limits first).map fun duration otherDuration same => ?_
              exact ⟨sofar.question, sofar.options, congrArg some same⟩

theorem LinesAlike.blank (alike : LinesAlike line otherLine)
    (blank : ∀ character ∈ line, Text.isBlank character = true) :
    ∀ character ∈ otherLine, Text.isBlank character = true := by
  rcases alike with rfl | ⟨marked, _, _⟩
  · exact blank
  · cases blank '@' marked

theorem isEmpty_question_of_alike {question other : List (List Char)}
    (alike : List.Forall₂ LinesAlike question other) :
    (Text.trim ([' '].intercalate question)).isEmpty =
      (Text.trim ([' '].intercalate other)).isEmpty := by
  rw [Bool.eq_iff_iff, List.isEmpty_iff, List.isEmpty_iff, Text.trim_intercalate_eq_nil_iff,
    Text.trim_intercalate_eq_nil_iff]
  induction alike with
  | nil => exact Iff.rfl
  | cons first later ih =>
      rw [List.forall_mem_cons, List.forall_mem_cons, ih]
      exact and_congr_left' ⟨first.blank, first.symm.blank⟩

theorem toPoll_alike (limits : Limits) (alike : outline.Alike otherOutline) :
    ParsedAlike (outline.toPoll limits) (otherOutline.toPoll limits) := by
  unfold Outline.toPoll
  simp only [isEmpty_question_of_alike alike.question, alike.options, alike.duration]
  split
  · exact .error (.refl _)
  · split
    · exact .error (.refl _)
    · refine .ok ⟨?_, rfl⟩
      rw [List.length_map, List.length_map, alike.options]

/-- A command is read line by line, wherever its line feeds are. -/
theorem parse_eq_readLines (limits : Limits) (text : List Char) :
    parse limits (String.ofList text) =
      readLines limits {} ((text.splitOn '\n').map Text.trim) >>= Outline.toPoll limits := by
  have trimmed : ((text.splitOn '\n').map fun line => Text.trim (Text.dropReturn line)) =
      (text.splitOn '\n').map Text.trim :=
    List.map_congr_left fun line _ => Text.trim_dropReturn line
  unfold parse
  rw [← readLines_filter, ← commandLines_eq, commandLines, String.toList_ofList, trimmed,
    readLines_filter]

theorem parse_alike (limits : Limits) {one other : List Char} (respelled : Respelled one other) :
    ParsedAlike (parse limits (String.ofList one)) (parse limits (String.ofList other)) := by
  have lines : List.Forall₂ LinesAlike ((one.splitOn '\n').map Text.trim)
      ((other.splitOn '\n').map Text.trim) := by
    rw [List.forall₂_map_left_iff, List.forall₂_map_right_iff]
    exact respelled.splitOn.imp fun _ _ alike => linesAlike_trim alike
  have fresh : Outline.Alike {} {} := ⟨.nil, rfl, rfl⟩
  rw [parse_eq_readLines, parse_eq_readLines]
  exact (readLines_alike lines fresh).bind fun _ _ alike => toPoll_alike limits alike

end Reading

/-- Names do not change what a poll command means. With one way to name the accounts and with
another, the mentions of a cast fit into its text both times or neither time. And the two texts come
to polls with as many options and the same duration, or have the same fault. -/
theorem names_leave_meaning {ε : Type} {names others : Fid → List Char} {positions : List Nat}
    (tame : ∀ fid, '\n' ∉ names fid) (othersTame : ∀ fid, '\n' ∉ others fid)
    (ordered : positions.Pairwise (· ≤ ·)) (limits : Limits) (own : Fid) (text : List Char)
    (mentions : List Fid) :
    BothWays (fun _ _ => True)
      (fun one other =>
        ParsedAlike (parse limits (String.ofList one)) (parse limits (String.ofList other)))
      (Mention.compose (Mention.spelledBy (ε := ε) names) own text mentions positions).outcome
      (Mention.compose (Mention.spelledBy (ε := ε) others) own text mentions
        positions).outcome := by
  have composed : Mention.ComposedAlike
      (Mention.compose (Mention.spelledBy (ε := ε) names) own text mentions positions)
      (Mention.compose (Mention.spelledBy (ε := ε) others) own text mentions positions) :=
    Mention.compose_alike tame othersTame ordered text mentions
  exact composed.imp fun _ _ respelled => parse_alike limits respelled

/-- Names as people have them. -/
def honestNames : Fid → List Char
  | 9 => ['a', 'n', 'n']
  | _ => ['b', 'o', 'b']

/-- Names that look like an option and like a duration. -/
def trickNames : Fid → List Char
  | 9 => ['-', ' ', 'x']
  | _ => ['1', '5', 'h', ' ']

/-- A command for which accounts 9 and 10 are named, at its start and at the end of an option. -/
def lunchText : String := "Lunch?\n- soup\n- with \n2h"

theorem lunchText_means_one_poll :
    ∃ one other, (Mention.compose (Mention.spelledBy (ε := Empty) honestNames) 7 lunchText.toList
        [9, 10] [0, 21]).outcome = .ok one ∧
      (Mention.compose (Mention.spelledBy (ε := Empty) trickNames) 7 lunchText.toList
        [9, 10] [0, 21]).outcome = .ok other ∧
      String.ofList one = "@annLunch?\n- soup\n- with @bob\n2h" ∧
      String.ofList other = "@- xLunch?\n- soup\n- with @15h \n2h" ∧
      ParsedAlike (parse Limits.standard (String.ofList one))
        (parse Limits.standard (String.ofList other)) := by
  have tame : ∀ fid, '\n' ∉ honestNames fid := by
    intro fid
    unfold honestNames
    split <;> decide
  have trickTame : ∀ fid, '\n' ∉ trickNames fid := by
    intro fid
    unfold trickNames
    split <;> decide
  have ordered : [0, 21].Pairwise (· ≤ ·) := by decide
  have composed : (Mention.compose (Mention.spelledBy (ε := Empty) honestNames) 7
      lunchText.toList [9, 10] [0, 21]).outcome =
        .ok "@annLunch?\n- soup\n- with @bob\n2h".toList := by rfl
  have trickComposed : (Mention.compose (Mention.spelledBy (ε := Empty) trickNames) 7
      lunchText.toList [9, 10] [0, 21]).outcome =
        .ok "@- xLunch?\n- soup\n- with @15h \n2h".toList := by rfl
  have meaning := names_leave_meaning (ε := Empty) tame trickTame ordered Limits.standard 7
    lunchText.toList [9, 10]
  rw [composed, trickComposed] at meaning
  refine ⟨_, _, composed, trickComposed, String.ofList_toList, String.ofList_toList, ?_⟩
  cases meaning with
  | ok alike => exact alike

end Poll

end PollHerald
