import Mathlib.Data.List.Induction
import PollHerald.Proofs.Mention.Compose
import PollHerald.Proofs.Mention.Spelling

set_option autoImplicit false

/-! A clean text with every name at its own place. Here each offset counts bytes of the clean text,
whatever the order of the mentions. A composition comes to the same where the offsets of the list
never go back. -/

namespace PollHerald.Mention

/-- A text with labels in it: at each offset, and at the end, stands what `label` has for it. The
first character is at `offset`. -/
def labelled (label : Nat → List Char) (offset : Nat) : List Char → List Char
  | [] => label offset
  | character :: rest =>
    label offset ++ character :: labelled label (offset + character.utf8Size) rest

/-- The names at an offset, in the order of the list. -/
def labelAt (names : Fid → List Char) (marks : List (Fid × Nat)) (offset : Nat) : List Char :=
  (marks.filter fun mark => mark.2 == offset).flatMap fun mark => '@' :: names mark.1

def shown (own : Fid) (marks : List (Fid × Nat)) : List (Fid × Nat) :=
  marks.filter fun mark => !isSuppressed own mark

/-- The clean text with the names of the shown mentions, each at its offset in the clean text. There
is none where an offset is beyond the text or inside a character. -/
def placed (names : Fid → List Char) (own : Fid) (text : List Char) (marks : List (Fid × Nat)) :
    Option (List Char) :=
  if ∀ mark ∈ shown own marks, (Text.cutAt mark.2 text).isSome then
    some (labelled (labelAt names (shown own marks)) 0 text)
  else
    none

section Labelled

variable {label other : Nat → List Char} {offset : Nat}

theorem labelled_eq_append (label : Nat → List Char) (offset : Nat) (text : List Char) :
    ∃ rest, labelled label offset text = label offset ++ rest := by
  cases text with
  | nil => exact ⟨[], (List.append_nil _).symm⟩
  | cons character rest => exact ⟨_, rfl⟩

theorem labelled_of_quiet_behind {text : List Char}
    (quiet : ∀ later, offset < later → label later = []) :
    labelled label offset text = label offset ++ text := by
  induction text generalizing offset with
  | nil => exact (List.append_nil _).symm
  | cons character rest ih =>
      have further : offset < offset + character.utf8Size :=
        Nat.lt_add_of_pos_right character.utf8Size_pos
      have tail := ih fun later behind => quiet later (Nat.lt_trans further behind)
      rw [labelled, tail, quiet _ further, List.nil_append]

theorem labelled_append_of_quiet_behind {front back : List Char}
    (quiet : ∀ later, offset + Text.byteLength front < later → label later = []) :
    labelled label offset (front ++ back) = labelled label offset front ++ back := by
  induction front generalizing offset with
  | nil => exact labelled_of_quiet_behind quiet
  | cons character rest ih =>
      rw [Text.byteLength, ← Nat.add_assoc] at quiet
      rw [List.cons_append, labelled, labelled, ih quiet, List.append_assoc, List.cons_append]

theorem labelled_append_of_quiet_before {front back : List Char}
    (quiet : ∀ earlier, offset ≤ earlier → earlier < offset + Text.byteLength front →
      label earlier = []) :
    labelled label offset (front ++ back) =
      front ++ labelled label (offset + Text.byteLength front) back := by
  induction front generalizing offset with
  | nil => rfl
  | cons character rest ih =>
      have positive := character.utf8Size_pos
      rw [Text.byteLength, ← Nat.add_assoc] at quiet ⊢
      have here : label offset = [] := quiet offset (Nat.le_refl _) (by omega)
      have tail := ih fun earlier behind before => quiet earlier (by omega) before
      rw [List.cons_append, labelled, here, tail, List.nil_append, List.cons_append]

/-- One more label at the end of a text goes behind the others there. -/
theorem labelled_concat {text token : List Char}
    (same : ∀ earlier, earlier < offset + Text.byteLength text → other earlier = label earlier)
    (more : other (offset + Text.byteLength text) = label (offset + Text.byteLength text) ++ token) :
    labelled other offset text = labelled label offset text ++ token := by
  induction text generalizing offset with
  | nil => exact more
  | cons character rest ih =>
      have positive := character.utf8Size_pos
      rw [Text.byteLength, ← Nat.add_assoc] at same more
      rw [labelled, labelled, ih same more, same offset (by omega), List.append_assoc,
        List.cons_append]

end Labelled

section LabelAt

variable {names : Fid → List Char} {offset : Nat}

theorem labelAt_append (names : Fid → List Char) (marks later : List (Fid × Nat)) (offset : Nat) :
    labelAt names (marks ++ later) offset =
      labelAt names marks offset ++ labelAt names later offset := by
  simp only [labelAt, List.filter_append, List.flatMap_append]

theorem labelAt_self (names : Fid → List Char) (mark : Fid × Nat) :
    labelAt names [mark] mark.2 = '@' :: names mark.1 := by
  simp only [labelAt, List.filter_cons, List.filter_nil, beq_self_eq_true, if_true,
    List.flatMap_cons, List.flatMap_nil, List.append_nil]

theorem labelAt_of_absent {marks : List (Fid × Nat)} (absent : ∀ mark ∈ marks, mark.2 ≠ offset) :
    labelAt names marks offset = [] := by
  rw [labelAt, List.filter_eq_nil_iff.mpr, List.flatMap_nil]
  intro mark member same
  exact absent mark member (beq_iff_eq.mp same)

/-- The last name may go in first, where no other one comes behind it. -/
theorem labelled_labelAt_concat {marks : List (Fid × Nat)} {front : List Char}
    (before : ∀ mark ∈ marks, mark.2 ≤ Text.byteLength front) (fid : Fid) (back : List Char) :
    labelled (labelAt names (marks ++ [(fid, Text.byteLength front)])) 0 (front ++ back) =
      labelled (labelAt names marks) 0 (front ++ ('@' :: names fid ++ back)) := by
  let last : Fid × Nat := (fid, Text.byteLength front)
  have quiet (later : Nat) (behind : 0 + Text.byteLength front < later) :
      labelAt names marks later = [] := by
    refine labelAt_of_absent fun mark member same => ?_
    have within := before mark member
    omega
  have quietLast (later : Nat) (differs : later ≠ Text.byteLength front) :
      labelAt names [last] later = [] := by
    refine labelAt_of_absent fun mark member same => differs ?_
    rw [← same, List.mem_singleton.mp member]
  have quietBoth (later : Nat) (behind : 0 + Text.byteLength front < later) :
      labelAt names (marks ++ [last]) later = [] := by
    rw [labelAt_append, quiet later behind, quietLast later (by omega), List.append_nil]
  have atEnd : labelled (labelAt names (marks ++ [last])) 0 front =
      labelled (labelAt names marks) 0 front ++ '@' :: names fid := by
    refine labelled_concat ?_ ?_
    · intro earlier inFront
      rw [labelAt_append, quietLast earlier (by omega), List.append_nil]
    · rw [labelAt_append, Nat.zero_add]
      exact congrArg _ (labelAt_self names last)
  rw [labelled_append_of_quiet_behind quietBoth, labelled_append_of_quiet_behind quiet, atEnd,
    List.append_assoc]

end LabelAt

section Place

variable {names : Fid → List Char} {own : Fid} {text : List Char}

theorem shown_append (own : Fid) (marks later : List (Fid × Nat)) :
    shown own (marks ++ later) = shown own marks ++ shown own later :=
  List.filter_append marks later

theorem shown_singleton {mark : Fid × Nat} (visible : isSuppressed own mark = false) :
    shown own [mark] = [mark] :=
  filter_shown_of_visible visible []

theorem shown_singleton_of_left {mark : Fid × Nat} (left : isSuppressed own mark = true) :
    shown own [mark] = [] :=
  filter_shown_of_left left []

theorem isSome_cutAt_append {offset : Nat} {front : List Char}
    (within : offset ≤ Text.byteLength front) (back : List Char) :
    (Text.cutAt offset (front ++ back)).isSome = (Text.cutAt offset front).isSome := by
  rw [Text.cutAt_append_of_le within, Option.isSome_map]

theorem cuts_concat_iff {marks : List (Fid × Nat)} {front : List Char}
    (before : ∀ mark ∈ marks, mark.2 ≤ Text.byteLength front) (fid : Fid)
    (back later : List Char) :
    (∀ mark ∈ marks ++ [(fid, Text.byteLength front)],
        (Text.cutAt mark.2 (front ++ back)).isSome) ↔
      ∀ mark ∈ marks, (Text.cutAt mark.2 (front ++ later)).isSome := by
  have sameCut (mark : Fid × Nat) (member : mark ∈ marks) :
      (Text.cutAt mark.2 (front ++ back)).isSome = (Text.cutAt mark.2 (front ++ later)).isSome := by
    rw [isSome_cutAt_append (before mark member), isSome_cutAt_append (before mark member)]
  constructor
  · intro cuts mark member
    rw [← sameCut mark member]
    exact cuts mark (List.mem_append_left _ member)
  · intro cuts mark member
    rcases List.mem_append.mp member with earlier | last
    · rw [sameCut mark earlier]
      exact cuts mark earlier
    · rw [List.mem_singleton.mp last, Text.cutAt_append]
      rfl

theorem placed_concat {marks : List (Fid × Nat)} {fid : Fid} {front : List Char}
    (visible : isSuppressed own (fid, Text.byteLength front) = false)
    (before : ∀ mark ∈ shown own marks, mark.2 ≤ Text.byteLength front) (back : List Char) :
    placed names own (front ++ back) (marks ++ [(fid, Text.byteLength front)]) =
      placed names own (front ++ ('@' :: names fid ++ back)) marks := by
  rw [placed, placed, shown_append, shown_singleton visible, labelled_labelAt_concat before]
  exact if_congr (cuts_concat_iff before fid back _) rfl rfl

/-- Names that go in from the last mention to the first come to stand at their places, where the
offsets of the shown mentions never go back. -/
theorem insertNames_of_ascending {ε : Type} {marks : List (Fid × Nat)}
    (ascending : (shown own marks).Pairwise fun mark later => mark.2 ≤ later.2) :
    (insertNames (spelledBy (ε := ε) names) own marks.reverse text).outcome.toOption =
      placed names own text marks := by
  -- On the list from its end: the last name goes in first, and leaves the text in front as it is.
  induction marks using List.reverseRecOn generalizing text with
  | nil =>
      have unlabelled : labelled (labelAt names []) 0 text = text :=
        labelled_of_quiet_behind fun _ _ => rfl
      rw [placed, if_pos fun mark absent => nomatch absent]
      exact congrArg some unlabelled.symm
  | append_singleton marks mark ih =>
      obtain ⟨fid, offset⟩ := mark
      rw [shown_append] at ascending
      obtain ⟨ascendingFront, _, before⟩ := List.pairwise_append.mp ascending
      rw [List.reverse_append, List.reverse_singleton, List.singleton_append, insertNames]
      by_cases left : isSuppressed own (fid, offset) = true
      · rw [if_pos left, ih ascendingFront, placed, placed, shown_append,
          shown_singleton_of_left left, List.append_nil]
      · have visible : isSuppressed own (fid, offset) = false := Bool.eq_false_iff.mpr left
        rw [shown_singleton visible] at before
        rw [if_neg left]
        cases cut : Text.cutAt offset text with
        | none =>
            have noPlace : ¬ ∀ mark ∈ shown own (marks ++ [(fid, offset)]),
                (Text.cutAt mark.2 text).isSome := by
              intro cuts
              rw [shown_append, shown_singleton visible] at cuts
              have found := cuts (fid, offset) (List.mem_append_right _ List.mem_cons_self)
              rw [cut] at found
              cases found
            rw [placed, if_neg noPlace]
            rfl
        | some parts =>
            obtain ⟨front, back⟩ := parts
            obtain ⟨rfl, rfl⟩ := (Text.cutAt_eq_some_iff _ _ _ _).mp cut
            have beforeHere (mark : Fid × Nat) (member : mark ∈ shown own marks) :
                mark.2 ≤ Text.byteLength front :=
              before mark member _ List.mem_cons_self
            rw [placed_concat visible beforeHere, ← ih ascendingFront, ← List.append_assoc]
            rfl

end Place

end PollHerald.Mention
