import PollHerald.Proofs.Poll.Grammar

set_option autoImplicit false

/-! How long an accepted poll may be. A duration that the command states is checked against the
limits. The default one is taken as it is configured, so the limits hold of every poll exactly where
they hold of the default. -/

namespace PollHerald.Poll

def Limits.Allow (limits : Limits) (duration : Nat) : Prop :=
  limits.minDuration ≤ duration ∧ duration ≤ limits.maxDuration

instance (limits : Limits) (duration : Nat) : Decidable (limits.Allow duration) :=
  inferInstanceAs (Decidable (_ ∧ _))

/-- The line of a command that states its duration. -/
def statedDuration (text : String) : Option (List Char) :=
  (Sections.ofLines (commandLines text)).duration

theorem durations_of_toLimits {settings : Settings} {limits : Limits}
    (accepted : settings.toLimits = .ok limits) :
    parseDuration settings.minDuration = .ok limits.minDuration ∧
      parseDuration settings.maxDuration = .ok limits.maxDuration ∧
      parseDuration settings.defaultDuration = .ok limits.defaultDuration := by
  unfold Settings.toLimits at accepted
  cases least : parseDuration settings.minDuration with
  | error error =>
      rw [least] at accepted
      cases accepted
  | ok minDuration =>
      cases most : parseDuration settings.maxDuration with
      | error error =>
          rw [least, most] at accepted
          cases accepted
      | ok maxDuration =>
          cases usual : parseDuration settings.defaultDuration with
          | error error =>
              rw [least, most, usual] at accepted
              cases accepted
          | ok defaultDuration =>
              rw [least, most, usual] at accepted
              cases accepted
              exact ⟨rfl, rfl, rfl⟩

section Accepted

variable {limits : Limits} {sections : Sections} {poll : Poll}

theorem Sections.poll_eq_ok {duration : Nat} (accepted : sections.poll limits duration = .ok poll) :
    poll.duration = duration ∧ limits.minOptions ≤ sections.options.length := by
  unfold Sections.poll at accepted
  split at accepted
  · cases accepted
  · split at accepted
    · cases accepted
    · rename_i enough
      cases accepted
      exact ⟨rfl, Nat.not_lt.mp enough⟩

/-- The duration of an accepted poll is the stated one, which the limits allow, or the default. -/
theorem Sections.duration_of_verdict (accepted : sections.verdict limits = .ok poll) :
    (∀ line, sections.duration = some line →
        parseDuration (String.ofList line) = .ok poll.duration ∧ limits.Allow poll.duration) ∧
      (sections.duration = none → poll.duration = limits.defaultDuration) ∧
      limits.minOptions ≤ limits.maxOptions := by
  unfold Sections.verdict at accepted
  split at accepted
  · cases accepted
  · rename_i fits
    have most : sections.options.length ≤ limits.maxOptions := Nat.not_lt.mp fits
    split at accepted
    · rename_i unstated
      obtain ⟨duration, least⟩ := Sections.poll_eq_ok accepted
      refine ⟨?_, fun _ => duration, Nat.le_trans least most⟩
      intro line stated
      rw [unstated] at stated
      cases stated
    · rename_i line stated
      split at accepted
      · cases accepted
      · rename_i duration parsed
        split at accepted
        · rename_i allowed
          obtain ⟨rfl, least⟩ := Sections.poll_eq_ok accepted
          refine ⟨?_, ?_, Nat.le_trans least most⟩
          · intro other otherStated
            cases stated.symm.trans otherStated
            exact ⟨parsed, allowed⟩
          · intro unstated
            rw [stated] at unstated
            cases unstated
        · cases accepted

theorem duration_of_parse {text : String} (accepted : parse limits text = .ok poll) :
    (∀ line, statedDuration text = some line →
        parseDuration (String.ofList line) = .ok poll.duration ∧ limits.Allow poll.duration) ∧
      (statedDuration text = none → poll.duration = limits.defaultDuration) ∧
      limits.minOptions ≤ limits.maxOptions := by
  rw [parse_eq_verdict] at accepted
  exact Sections.duration_of_verdict accepted

end Accepted

/-- A command of a question and some options without a text, which states no duration. -/
def bareCommand (count : Nat) : String :=
  String.ofList (['\n'].intercalate (['?'] :: List.replicate count ['-']))

theorem commandLines_bareCommand (count : Nat) :
    commandLines (bareCommand count) = ['?'] :: List.replicate count ['-'] := by
  have unbroken : ∀ line ∈ ['?'] :: List.replicate count ['-'], '\n' ∉ line := by
    intro line member
    rcases List.mem_cons.mp member with rfl | option
    · decide
    · rw [List.eq_of_mem_replicate option]
      decide
  have question : Text.trim (Text.dropReturn ['?']) = ['?'] := by decide
  have option : Text.trim (Text.dropReturn ['-']) = ['-'] := by decide
  unfold commandLines bareCommand
  rw [String.toList_ofList, List.splitOn_intercalate '\n' unbroken (List.cons_ne_nil _ _),
    List.map_cons, List.map_replicate, question, option]
  refine List.filter_eq_self.mpr fun line member => ?_
  rcases List.mem_cons.mp member with rfl | option
  · rfl
  · rw [List.eq_of_mem_replicate option]
    rfl

theorem ofLines_bareCommand (count : Nat) :
    Sections.ofLines (commandLines (bareCommand count)) =
      { question := [['?']], options := List.replicate count ['-'], duration := none } := by
  have plain : isOption ['?'] = false := rfl
  have option : isOption ['-'] = true := rfl
  simp only [commandLines_bareCommand, Sections.ofLines, List.takeWhile_cons, List.dropWhile_cons,
    List.takeWhile_replicate, List.dropWhile_replicate, plain, option, Bool.not_false,
    Bool.not_true, Bool.false_eq_true, if_true, if_false, List.head?_nil]

theorem parse_bareCommand {limits : Limits} {count : Nat} (least : limits.minOptions ≤ count)
    (most : count ≤ limits.maxOptions) :
    parse limits (bareCommand count) =
      .ok {
        question := "?"
        options := List.replicate count ""
        duration := limits.defaultDuration } := by
  have fits : ¬ limits.maxOptions < count := Nat.not_lt.mpr most
  have enough : ¬ count < limits.minOptions := Nat.not_lt.mpr least
  have question : String.ofList (List.intercalate [' '] [['?']]) = "?" := by decide
  have option : String.ofList (optionText ['-']) = "" := by decide
  rw [parse_eq_verdict, ofLines_bareCommand]
  simp only [Sections.verdict, Sections.poll, List.length_replicate, fits, enough,
    List.cons_ne_nil, if_false, question, List.map_replicate, option]

/-- Accepted polls keep to the limits where they state how long they last. So all of them do exactly
where the default does, unless no poll is accepted at all. -/
theorem stated_durations_keep_limits {settings : Settings} {limits : Limits}
    (accepted : settings.toLimits = .ok limits) :
    (∀ text poll, parse limits text = .ok poll →
      (∀ line, statedDuration text = some line →
        parseDuration (String.ofList line) = .ok poll.duration ∧ limits.Allow poll.duration) ∧
      (statedDuration text = none →
        parseDuration settings.defaultDuration = .ok poll.duration)) ∧
    ((∀ text poll, parse limits text = .ok poll → limits.Allow poll.duration) ↔
      limits.Allow limits.defaultDuration ∨ limits.maxOptions < limits.minOptions) := by
  obtain ⟨_, _, usual⟩ := durations_of_toLimits accepted
  refine ⟨fun text poll parsed => ?_, fun always => ?_, ?_⟩
  · obtain ⟨stated, unstated, _⟩ := duration_of_parse parsed
    refine ⟨stated, fun none => ?_⟩
    rw [unstated none]
    exact usual
  · -- Where any poll is accepted, so is one that states no duration.
    by_cases possible : limits.minOptions ≤ limits.maxOptions
    · exact .inl (always _ _ (parse_bareCommand (Nat.le_refl _) possible))
    · exact .inr (Nat.not_le.mp possible)
  · intro either text poll parsed
    obtain ⟨stated, unstated, possible⟩ := duration_of_parse parsed
    cases line : statedDuration text with
    | some line' => exact (stated line' line).2
    | none =>
        rw [unstated line]
        exact either.resolve_right (Nat.not_lt.mpr possible)

/-- Settings with a default duration beyond the longest that they allow. -/
def shortPolls : Settings :=
  { maxDuration := "2h" }

def shortLimits : Limits :=
  { Limits.standard with maxDuration := 2 * TimeUnit.hour.nanoseconds }

theorem toLimits_shortPolls : shortPolls.toLimits = .ok shortLimits := by
  decide +kernel

/-- With these settings a poll lasts a day where it does not say how long, and not every poll keeps
to the limits. -/
theorem shortPolls_bind_stated_only :
    shortPolls.toLimits = .ok shortLimits ∧
      (∃ poll, parse shortLimits "Tea?\n- yes\n- no" = .ok poll ∧
        statedDuration "Tea?\n- yes\n- no" = none ∧
        parseDuration shortPolls.defaultDuration = .ok poll.duration) ∧
      ¬ ∀ text poll, parse shortLimits text = .ok poll → shortLimits.Allow poll.duration := by
  have bound := stated_durations_keep_limits toLimits_shortPolls
  have read : parse shortLimits "Tea?\n- yes\n- no" = .ok {
      question := "Tea?"
      options := ["yes", "no"]
      duration := TimeUnit.day.nanoseconds } := by decide +kernel
  have unstated : statedDuration "Tea?\n- yes\n- no" = none := by decide +kernel
  refine ⟨toLimits_shortPolls, ⟨_, read, unstated, (bound.1 _ _ read).2 unstated⟩, ?_⟩
  rw [bound.2]
  decide

/-- An accepted poll need not keep to the limits. -/
theorem not_every_poll_keeps_limits :
    ¬ ∀ (settings : Settings) (limits : Limits) (text : String) (poll : Poll),
      settings.toLimits = .ok limits → parse limits text = .ok poll →
        limits.minDuration ≤ poll.duration ∧ poll.duration ≤ limits.maxDuration := by
  intro always
  have read := @parse_bareCommand shortLimits 2 (by decide) (by decide)
  have within := always shortPolls shortLimits _ _ toLimits_shortPolls read
  exact absurd within (by decide)

end PollHerald.Poll
