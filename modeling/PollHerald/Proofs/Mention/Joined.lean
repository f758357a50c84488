import Mathlib
import PollHerald.Proofs.Mention.Occurrence

set_option autoImplicit false

/-! Tokens that come about when others are taken out. A text is scanned once. What stood in front of
a token and what stood behind it are neighbours in the clean text, and there an `@` may meet a
handle character. -/

namespace PollHerald.Mention

/-- Pieces among which a stray `@` and a handle character have only tokens between them. The last of
these ends in `.eth`, for the handle character would else belong to it. -/
def Joins (parts : List Piece) : Prop :=
  ∃ front between handle character back,
    parts = front ++ .plain '@' ::
      (between ++ .token ('@' :: (handle ++ eth)) :: .plain character :: back) ∧
    (∀ part ∈ between, part.isToken = true) ∧ isHandleChar character = true

section Plain

theorem plainText_append (front back : List Piece) :
    plainText (front ++ back) = plainText front ++ plainText back := by
  induction front with
  | nil => rfl
  | cons part rest ih =>
      cases part with
      | plain character => exact congrArg (character :: ·) ih
      | token token => exact ih

theorem plainText_eq_nil_iff (parts : List Piece) :
    plainText parts = [] ↔ ∀ part ∈ parts, part.isToken = true := by
  induction parts with
  | nil => exact iff_of_true rfl fun _ absent => nomatch absent
  | cons part rest ih =>
      rw [List.forall_mem_cons]
      cases part with
      | plain character => exact iff_of_false (List.cons_ne_nil _ _) fun both => nomatch both.1
      | token token => exact ih.trans (and_iff_right rfl).symm

/-- A character of the clean text is one of the plain pieces. -/
theorem exists_split_of_plainText {parts : List Piece} {first later : List Char} {character : Char}
    (split : plainText parts = first ++ character :: later) :
    ∃ front back, parts = front ++ .plain character :: back ∧ plainText front = first ∧
      plainText back = later := by
  induction parts generalizing first with
  | nil => exact absurd split.symm (List.append_ne_nil_of_right_ne_nil _ (List.cons_ne_nil _ _))
  | cons part rest ih =>
      cases part with
      | token token =>
          obtain ⟨front, back, rfl, before, behind⟩ := ih split
          exact ⟨.token token :: front, back, rfl, before, behind⟩
      | plain other =>
          cases first with
          | nil =>
              obtain ⟨rfl, behind⟩ := List.cons.inj split
              exact ⟨[], rest, rfl, rfl, behind⟩
          | cons head first =>
              obtain ⟨rfl, splitRest⟩ := List.cons.inj split
              obtain ⟨front, back, rfl, before, behind⟩ := ih splitRest
              exact ⟨.plain other :: front, back, rfl, congrArg (other :: ·) before, behind⟩

theorem flatMap_text_of_no_tokens {parts : List Piece} (none : tokens parts = []) :
    plainText parts = parts.flatMap Piece.text := by
  induction parts with
  | nil => rfl
  | cons part rest ih =>
      cases part with
      | plain character => exact congrArg (character :: ·) (ih none)
      | token token => cases none

end Plain

section Scan

/-- A text has a token where an `@` stands directly before a handle character. -/
theorem tokens_pieces_eq_nil_iff (text : List Char) :
    tokens (pieces text) = [] ↔
      ∀ front character back, text = front ++ '@' :: character :: back →
        isHandleChar character = false := by
  rw [← map_token_tokenSpans 0, List.map_eq_nil_iff, List.eq_nil_iff_forall_not_mem]
  simp only [mem_tokenSpans_iff]
  constructor
  · intro none front character back split
    apply Bool.eq_false_iff.mpr
    intro handle
    have begins : BeginsWith ('@' :: (splitToken (character :: back)).1)
        ('@' :: character :: back) :=
      (beginsWith_iff _ _).mpr ⟨_, rfl, handle, rfl⟩
    exact none ⟨_, _⟩ ⟨front, _, split.symm, rfl, begins⟩
  · rintro plain span ⟨front, rest, joined, _, begins⟩
    obtain ⟨later, rfl, opens, _⟩ := (beginsWith_iff _ _).mp begins
    cases later with
    | nil => cases opens
    | cons character back =>
        have other := plain front character back joined.symm
        rw [show isHandleChar character = true from opens] at other
        cases other

/-- From a border between two pieces on, a scan goes as it would from the start of a text. -/
theorem exists_pieces_of_suffix {text : List Char} {front back : List Piece}
    (split : pieces text = front ++ back) : ∃ rest, back = pieces rest := by
  induction text using pieces.induct generalizing front with
  | case1 =>
      rw [pieces] at split
      obtain ⟨_, rfl⟩ := List.append_eq_nil_iff.mp split.symm
      exact ⟨[], by rw [pieces]⟩
  | case2 character rest opens ih =>
      cases front with
      | nil => exact ⟨character :: rest, split.symm⟩
      | cons part front =>
          rw [pieces, if_pos opens] at split
          exact ih (List.cons.inj split).2
  | case3 character rest plain ih =>
      cases front with
      | nil => exact ⟨character :: rest, split.symm⟩
      | cons part front =>
          rw [pieces, if_neg plain] at split
          exact ih (List.cons.inj split).2

theorem eq_cons_of_plain {text : List Char} {character : Char} {back : List Piece}
    (first : pieces text = .plain character :: back) :
    ∃ rest, text = character :: rest ∧ ¬ (character = '@' ∧ opensToken rest = true) ∧
      back = pieces rest := by
  cases text with
  | nil =>
      rw [pieces] at first
      cases first
  | cons head rest =>
      rw [pieces] at first
      split at first
      · cases first
      · rename_i plain
        cases first
        exact ⟨rest, rfl, plain, rfl⟩

theorem isHandleChar_of_stray {text : List Char} {character : Char} {back : List Piece}
    (first : pieces text = .plain '@' :: .plain character :: back) :
    isHandleChar character = false := by
  obtain ⟨rest, rfl, plain, behind⟩ := eq_cons_of_plain first
  obtain ⟨later, rfl, _, _⟩ := eq_cons_of_plain behind.symm
  exact Bool.eq_false_iff.mpr fun handle => plain ⟨rfl, handle⟩

/-- Only a token with `.eth` is followed by a handle character. -/
theorem exists_handle_of_followed {text token : List Char} {character : Char} {back : List Piece}
    (first : pieces text = .token token :: .plain character :: back)
    (handle : isHandleChar character = true) : ∃ name, token = '@' :: (name ++ eth) := by
  cases text with
  | nil =>
      rw [pieces] at first
      cases first
  | cons head rest =>
      rw [pieces] at first
      split at first
      · rename_i opens
        obtain ⟨same, behind⟩ := List.cons.inj first
        obtain ⟨later, followed, _, _⟩ := eq_cons_of_plain behind
        obtain ⟨ending, split, left, ends⟩ := exists_splitToken rest
        rcases ends with rfl | ⟨rfl, _⟩
        · cases same
          exact ⟨_, by rw [split, opens.1]⟩
        · have notHandle := List.head?_dropWhile_not isHandleChar rest
          rw [← left, followed, List.nil_append, List.head?_cons] at notHandle
          simp only [handle, Bool.true_eq_false] at notHandle
      · cases first

theorem joins_of_neighbours {text : List Char} {front between back : List Piece} {character : Char}
    (split : pieces text = front ++ .plain '@' :: (between ++ .plain character :: back))
    (all : ∀ part ∈ between, part.isToken = true) (handle : isHandleChar character = true) :
    Joins (pieces text) := by
  rcases List.eq_nil_or_concat between with rfl | ⟨others, last, rfl⟩
  · obtain ⟨rest, stray⟩ := exists_pieces_of_suffix split
    rw [isHandleChar_of_stray stray.symm] at handle
    cases handle
  · rw [List.concat_eq_append] at split all
    obtain ⟨allOthers, lastIsToken⟩ := List.forall_mem_append.mp all
    cases last with
    | plain other => cases lastIsToken _ List.mem_cons_self
    | token token =>
        have suffix : pieces text = (front ++ .plain '@' :: others) ++
            .token token :: .plain character :: back := by
          rw [split]
          simp only [List.append_assoc, List.cons_append, List.nil_append]
        obtain ⟨rest, followed⟩ := exists_pieces_of_suffix suffix
        obtain ⟨name, rfl⟩ := exists_handle_of_followed followed.symm handle
        refine ⟨front, others, name, character, back, ?_, allOthers, handle⟩
        rw [suffix, List.append_assoc, List.cons_append]

end Scan

/-- A clean text has a token exactly where taking out the others joined one. -/
theorem tokens_clean_eq_nil_iff (text : List Char) :
    tokens (pieces (plainText (pieces text))) = [] ↔ ¬ Joins (pieces text) := by
  rw [tokens_pieces_eq_nil_iff]
  constructor
  · rintro apart ⟨front, between, handle, character, back, split, all, isHandle⟩
    have joined : plainText (pieces text) =
        plainText front ++ '@' :: character :: plainText back := by
      rw [split, plainText_append, plainText, plainText_append,
        (plainText_eq_nil_iff between).mpr all]
      rfl
    rw [apart _ _ _ joined] at isHandle
    cases isHandle
  · intro apart first character later split
    apply Bool.eq_false_iff.mpr
    intro isHandle
    obtain ⟨front, behind, parts, _, rest⟩ := exists_split_of_plainText split
    rw [← List.nil_append (character :: later)] at rest
    obtain ⟨between, back, rfl, none, _⟩ := exists_split_of_plainText rest
    have all := (plainText_eq_nil_iff between).mp none
    exact apart (joins_of_neighbours parts all isHandle)

/-- A clean text is one from which nothing is left to be taken out, unless taking out its tokens
joined another one. -/
theorem decompose_clean_iff_not_joins {text : String} {mentions : List Fid} {clean : Clean}
    (taken : decompose text mentions = .ok clean) :
    decompose clean.text [] = .ok { text := clean.text, mentions := [], positions := [] } ↔
      ¬ Joins (pieces text.toList) := by
  obtain ⟨_, rfl⟩ := (decompose_eq_ok_iff _ _ _).mp taken
  rw [← tokens_clean_eq_nil_iff, decompose_eq_ok_iff, tokensOf, String.toList_ofList,
    List.length_nil, List.length_eq_zero_iff]
  refine and_iff_left_of_imp fun none => ?_
  have nowhere : tokenOffsets 0 (pieces (plainText (pieces text.toList))) = [] := by
    rw [← List.length_eq_zero_iff, length_tokenOffsets, none, List.length_nil]
  rw [nowhere, flatMap_text_of_no_tokens none, flatMap_text_pieces]

/-- The `@` in front of a token meets the letter behind it. -/
theorem joined_ann_is_taken_out_again :
    ∃ clean, decompose "hey @@bob@ann.ethel" [9, 10] = .ok clean ∧ clean.text = "hey @el" ∧
      ¬ decompose clean.text [] = .ok { text := clean.text, mentions := [], positions := [] } := by
  have taken : decompose "hey @@bob@ann.ethel" [9, 10] =
      .ok { text := "hey @el", mentions := [9, 10], positions := [5, 5] } := by
    cbv
  have parts : pieces "hey @@bob@ann.ethel".toList =
      [.plain 'h', .plain 'e', .plain 'y', .plain ' ', .plain '@', .token "@bob".toList,
        .token "@ann.eth".toList, .plain 'e', .plain 'l'] := by
    cbv
  refine ⟨_, taken, rfl, ?_⟩
  rw [decompose_clean_iff_not_joins taken, parts]
  apply not_not_intro
  exact ⟨[.plain 'h', .plain 'e', .plain 'y', .plain ' '], [.token "@bob".toList], "ann".toList, 'e',
    [.plain 'l'], rfl, by decide, rfl⟩

/-- Not every clean text is free of tokens. -/
theorem clean_text_can_have_token :
    ¬ ∀ (text : String) (mentions : List Fid) (clean : Clean),
      decompose text mentions = .ok clean →
        decompose clean.text [] = .ok { text := clean.text, mentions := [], positions := [] } := by
  intro always
  have again := always "@@a.ethb" [9] { text := "@b", mentions := [9], positions := [1] } (by cbv)
  have refused : decompose "@b" [] = .error (.count 1 0) := by cbv
  rw [refused] at again
  cases again

end PollHerald.Mention
