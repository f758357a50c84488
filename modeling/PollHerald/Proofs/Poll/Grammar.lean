import Mathlib.Data.List.Basic
import PollHerald.Poll.Grammar
import PollHerald.Proofs.Text.Blank

set_option autoImplicit false

/-! The poll that a command asks for, told from the command as a whole. The lines up to the first
that starts with a hyphen are the question, the lines from there that start with one are the
options, and the line behind them is the duration. Reading the command line by line finds the same
poll, or the same fault where there are several. -/

namespace PollHerald

namespace Poll

/-- Whether a trimmed line writes an option. -/
def isOption (line : List Char) : Bool :=
  line.head? == some '-'

/-- The text of a line that writes an option. -/
def optionText (line : List Char) : List Char :=
  Text.trim line.tail

def commandLines (text : String) : List (List Char) :=
  ((text.toList.splitOn '\n').map fun line => Text.trim (Text.dropReturn line)).filter
    fun line => !line.isEmpty

/-- The parts of a command. Lines behind the duration are in none of them. -/
structure Sections where
  question : List (List Char)
  options : List (List Char)
  duration : Option (List Char)
  deriving DecidableEq, Repr

def Sections.ofLines (lines : List (List Char)) : Sections :=
  let fromOptions := lines.dropWhile fun line => !isOption line
  { question := lines.takeWhile fun line => !isOption line
    options := fromOptions.takeWhile isOption
    duration := (fromOptions.dropWhile isOption).head? }

/-- The poll of a given duration, when there is a question and options enough. -/
def Sections.poll (limits : Limits) (sections : Sections) (duration : Nat) : Except Error Poll :=
  if sections.question = [] then
    .error .questionNotSet
  else if sections.options.length < limits.minOptions then
    .error (.tooFewOptions limits.minOptions sections.options.length)
  else
    .ok {
      question := String.ofList (List.intercalate [' '] sections.question)
      options := sections.options.map fun line => String.ofList (optionText line)
      duration }

/-- What a command comes to. Of several faults the one that is named first here is reported. -/
def Sections.verdict (limits : Limits) (sections : Sections) : Except Error Poll :=
  if limits.maxOptions < sections.options.length then
    .error (.tooManyOptions limits.maxOptions)
  else
    match sections.duration with
    | none => sections.poll limits limits.defaultDuration
    | some line =>
      match parseDuration (String.ofList line) with
      | .error reason => .error reason
      | .ok duration =>
        if limits.minDuration ≤ duration ∧ duration ≤ limits.maxDuration then
          sections.poll limits duration
        else
          .error (.durationOutOfRange (String.ofList line))

theorem commandLines_eq (text : String) :
    commandLines text =
      ((Text.lines text.toList).map Text.trim).filter fun line => !line.isEmpty := by
  obtain ⟨ended, last, split, lines⟩ := Text.lines_eq text.toList
  unfold commandLines
  rw [split, lines]
  simp only [Text.trim_dropReturn, List.map_append, List.map_map, Function.comp_def,
    List.filter_append]
  congr 1
  -- A last line that is cut off by no line feed counts unless it is empty, and then it is blank.
  cases last with
  | nil => rfl
  | cons character rest => rfl

theorem neat_of_mem_commandLines {text : String} {line : List Char}
    (member : line ∈ commandLines text) : Text.Neat line := by
  obtain ⟨inText, filled⟩ := List.mem_filter.mp member
  obtain ⟨untrimmed, _, rfl⟩ := List.mem_map.mp inText
  apply Text.neat_trim
  intro empty
  rw [empty] at filled
  cases filled

theorem exists_cons_of_isOption {line : List Char} (option : isOption line = true) :
    line = '-' :: line.tail := by
  cases line with
  | nil => cases option
  | cons first text =>
      have hyphen : first = '-' := Option.some.inj (beq_iff_eq.mp option)
      rw [hyphen, List.tail_cons]

section Reading

variable (limits : Limits) (outline : Outline)

theorem readLines_of_option {line : List Char} (rest : List (List Char))
    (option : isOption line = true) :
    readLines limits outline (line :: rest) =
      if outline.options.length = limits.maxOptions then
        .error (.tooManyOptions limits.maxOptions)
      else
        readLines limits { outline with options := outline.options ++ [optionText line] } rest := by
  rw [exists_cons_of_isOption option]
  simp only [readLines, if_pos, optionText, List.tail_cons]

theorem readLines_of_plain {line : List Char} (rest : List (List Char)) (filled : line ≠ [])
    (plain : isOption line = false) :
    readLines limits outline (line :: rest) =
      if outline.options = [] then
        readLines limits { outline with question := outline.question ++ [line] } rest
      else
        (readDuration limits line).map fun duration =>
          { outline with duration := some duration } := by
  cases line with
  | nil => exact absurd rfl filled
  | cons first text =>
      have noHyphen : first ≠ '-' := by
        intro hyphen
        rw [hyphen] at plain
        cases plain
      simp only [readLines, if_neg noHyphen, List.isEmpty_iff]
      rfl

/-- Blank lines may be left out beforehand. -/
theorem readLines_filter (lines : List (List Char)) :
    readLines limits outline (lines.filter fun line => !line.isEmpty) =
      readLines limits outline lines := by
  induction lines generalizing outline with
  | nil => rfl
  | cons line rest ih =>
      cases line with
      | nil => exact ih outline
      | cons first text =>
          have kept : ((first :: text) :: rest).filter (fun line => !line.isEmpty) =
              (first :: text) :: rest.filter fun line => !line.isEmpty := rfl
          rw [kept]
          simp only [readLines, ih]

/-- The lines before the first option are added to the question. -/
theorem readLines_question {front : List (List Char)} (rest : List (List Char))
    (filled : ∀ line ∈ front, line ≠ []) (plain : ∀ line ∈ front, isOption line = false)
    (noneYet : outline.options = []) :
    readLines limits outline (front ++ rest) =
      readLines limits { outline with question := outline.question ++ front } rest := by
  induction front generalizing outline with
  | nil => rw [List.nil_append, List.append_nil]
  | cons line others ih =>
      have othersFilled : ∀ other ∈ others, other ≠ [] := by
        intro other member
        exact filled other (List.mem_cons_of_mem _ member)
      have othersPlain : ∀ other ∈ others, isOption other = false := by
        intro other member
        exact plain other (List.mem_cons_of_mem _ member)
      rw [List.cons_append, readLines_of_plain limits outline _ (filled line List.mem_cons_self)
        (plain line List.mem_cons_self), if_pos noneYet,
        ih { outline with question := outline.question ++ [line] } othersFilled othersPlain
          noneYet, List.append_assoc, List.singleton_append]

/-- A run of options is added as a whole, unless it goes beyond the most allowed. -/
theorem readLines_options {front : List (List Char)} (rest : List (List Char))
    (option : ∀ line ∈ front, isOption line = true)
    (fits : outline.options.length ≤ limits.maxOptions) :
    readLines limits outline (front ++ rest) =
      if limits.maxOptions < outline.options.length + front.length then
        .error (.tooManyOptions limits.maxOptions)
      else
        readLines limits
          { outline with options := outline.options ++ front.map optionText } rest := by
  induction front generalizing outline with
  | nil =>
      have notMore : ¬ limits.maxOptions < outline.options.length + 0 := Nat.not_lt.mpr fits
      rw [List.length_nil, if_neg notMore, List.nil_append, List.map_nil, List.append_nil]
  | cons line others ih =>
      rw [List.cons_append, readLines_of_option limits outline _ (option line List.mem_cons_self)]
      by_cases full : outline.options.length = limits.maxOptions
      · have more : limits.maxOptions < outline.options.length + (line :: others).length := by
          rw [List.length_cons]
          omega
        rw [if_pos full, if_pos more]
      · have fitsNext : (outline.options ++ [optionText line]).length ≤ limits.maxOptions := by
          rw [List.length_append, List.length_singleton]
          omega
        have sameCount : (outline.options ++ [optionText line]).length + others.length =
            outline.options.length + (line :: others).length := by
          rw [List.length_append, List.length_singleton, List.length_cons]
          omega
        have othersOption : ∀ other ∈ others, isOption other = true := by
          intro other member
          exact option other (List.mem_cons_of_mem _ member)
        rw [if_neg full, ih { outline with options := outline.options ++ [optionText line] }
          othersOption fitsNext, sameCount, List.map_cons, List.append_assoc,
          List.singleton_append]

end Reading

theorem readDuration_eq (limits : Limits) (line : List Char) :
    readDuration limits line =
      match parseDuration (String.ofList line) with
      | .error reason => .error reason
      | .ok duration =>
        if limits.minDuration ≤ duration ∧ duration ≤ limits.maxDuration then
          .ok duration
        else
          .error (.durationOutOfRange (String.ofList line)) := by
  unfold readDuration
  cases parseDuration (String.ofList line) with
  | error reason => rfl
  | ok duration =>
      by_cases within : limits.minDuration ≤ duration ∧ duration ≤ limits.maxDuration
      · have notOutside : ¬ (duration < limits.minDuration ∨ limits.maxDuration < duration) := by
          omega
        simp only [bind, Except.bind, if_neg notOutside, if_pos within]
        rfl
      · have outside : duration < limits.minDuration ∨ limits.maxDuration < duration := by
          omega
        simp only [bind, Except.bind, if_pos outside, if_neg within]
        rfl

/-- A question of trimmed lines needs no more trimming, and is there where it has a line. -/
theorem toPoll_of_sections (limits : Limits) {sections : Sections}
    (neat : ∀ line ∈ sections.question, Text.Neat line) (duration : Option Nat) :
    Outline.toPoll limits
        { question := sections.question
          options := sections.options.map optionText
          duration } =
      sections.poll limits (duration.getD limits.defaultDuration) := by
  unfold Outline.toPoll Sections.poll
  by_cases unasked : sections.question = []
  · rw [if_pos unasked, unasked]
    rfl
  · have neatQuestion := Text.Neat.intercalate [' '] unasked neat
    have asked : ([' '].intercalate sections.question).isEmpty = false :=
      List.isEmpty_eq_false_iff.mpr neatQuestion.ne_nil
    simp only [neatQuestion.trim_eq, asked, unasked, Bool.false_eq_true, if_false, List.length_map,
      List.map_map, Function.comp_def]

private theorem head_of_dropWhile {p : List Char → Bool} {lines rest : List (List Char)}
    {line : List Char} (left : lines.dropWhile p = line :: rest) : p line = false := by
  have stop := List.head?_dropWhile_not p lines
  rw [left] at stop
  exact stop

/-- The lines are the parts one after another with something behind them. It starts with the
duration, which stands behind at least one option. -/
theorem Sections.ofLines_split (lines : List (List Char)) :
    ∃ behind, lines =
        (ofLines lines).question ++ ((ofLines lines).options ++ behind) ∧
      behind.head? = (ofLines lines).duration ∧
      ∀ line rest, behind = line :: rest →
        isOption line = false ∧ (ofLines lines).options ≠ [] := by
  let fromOptions := lines.dropWhile fun line => !isOption line
  have first : lines = (lines.takeWhile fun line => !isOption line) ++ fromOptions :=
    List.takeWhile_append_dropWhile.symm
  have second : fromOptions = fromOptions.takeWhile isOption ++ fromOptions.dropWhile isOption :=
    List.takeWhile_append_dropWhile.symm
  refine ⟨fromOptions.dropWhile isOption, first.trans (congrArg (_ ++ ·) second), rfl, ?_⟩
  intro line rest behind
  have plain : isOption line = false := head_of_dropWhile behind
  refine ⟨plain, ?_⟩
  -- What follows the question starts with an option, unless nothing follows it.
  intro noOption
  have nothingTaken : fromOptions.takeWhile isOption = [] := noOption
  rw [nothingTaken, List.nil_append, behind] at second
  have option : (!isOption line) = false := head_of_dropWhile second
  rw [plain] at option
  cases option

theorem readLines_eq (limits : Limits) {lines : List (List Char)}
    (filled : ∀ line ∈ lines, line ≠ []) :
    readLines limits {} lines =
      if limits.maxOptions < (Sections.ofLines lines).options.length then
        .error (.tooManyOptions limits.maxOptions)
      else
        match (Sections.ofLines lines).duration with
        | none => .ok {
            question := (Sections.ofLines lines).question
            options := (Sections.ofLines lines).options.map optionText }
        | some line => (readDuration limits line).map fun duration => {
            question := (Sections.ofLines lines).question
            options := (Sections.ofLines lines).options.map optionText
            duration := some duration } := by
  obtain ⟨behind, split, duration, atBehind⟩ := Sections.ofLines_split lines
  have plain : ∀ line ∈ (Sections.ofLines lines).question, isOption line = false := by
    intro line member
    have taken := List.mem_takeWhile_imp member
    rwa [Bool.not_eq_true'] at taken
  have option : ∀ line ∈ (Sections.ofLines lines).options, isOption line = true := by
    intro line member
    exact List.mem_takeWhile_imp member
  generalize Sections.ofLines lines = sections at split duration atBehind plain option ⊢
  have questionFilled : ∀ line ∈ sections.question, line ≠ [] := by
    intro line member
    exact filled line (split ▸ List.mem_append_left _ member)
  rw [split, readLines_question limits {} _ questionFilled plain rfl,
    readLines_options limits _ behind option (Nat.zero_le _)]
  simp only [List.nil_append, List.length_nil, Nat.zero_add]
  split
  · rfl
  · cases behind with
    | nil =>
        rw [← duration]
        rfl
    | cons line rest =>
        obtain ⟨linePlain, someOption⟩ := atBehind line rest rfl
        have lineFilled : line ≠ [] := by
          apply filled line
          rw [split]
          exact List.mem_append_right _ (List.mem_append_right _ List.mem_cons_self)
        have optionsRead : sections.options.map optionText ≠ [] :=
          mt List.map_eq_nil_iff.mp someOption
        rw [← duration, readLines_of_plain limits _ rest lineFilled linePlain,
          if_neg optionsRead]
        rfl

/-- A command is read as its parts say, for all limits. -/
theorem parse_eq_verdict (limits : Limits) (text : String) :
    parse limits text = (Sections.ofLines (commandLines text)).verdict limits := by
  have neat : ∀ line ∈ (Sections.ofLines (commandLines text)).question, Text.Neat line := by
    intro line member
    exact neat_of_mem_commandLines ((List.takeWhile_prefix _).subset member)
  unfold parse Sections.verdict
  rw [← readLines_filter, ← commandLines_eq,
    readLines_eq limits fun _ member => (neat_of_mem_commandLines member).ne_nil]
  by_cases tooMany : limits.maxOptions < (Sections.ofLines (commandLines text)).options.length
  · rw [if_pos tooMany, if_pos tooMany]
    rfl
  · rw [if_neg tooMany, if_neg tooMany]
    cases (Sections.ofLines (commandLines text)).duration with
    | none => exact toPoll_of_sections limits neat none
    | some line =>
        simp only [readDuration_eq]
        cases parseDuration (String.ofList line) with
        | error reason => rfl
        | ok duration =>
            simp only []
            split
            · exact toPoll_of_sections limits neat (some duration)
            · rfl

/-- An option behind the duration is passed over. -/
example : parse Limits.standard "Lunch?\n- soup\r\n- salad\n\n 2h\n- bread" =
    .ok {
      question := "Lunch?"
      options := ["soup", "salad"]
      duration := 2 * TimeUnit.hour.nanoseconds } := by
  decide +kernel

end Poll

end PollHerald
