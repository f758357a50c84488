import PollHerald.Proofs.Mention.Placement
import PollHerald.Proofs.Mention.RoundTrip

set_option autoImplicit false

/-! What the order of a list of mentions does to the composed text. Names that went in before move
what is behind them, and an offset is checked against the text as it is by then. So each name comes
to its own place, for all texts and names, only where the list is in the order of the offsets. -/

namespace PollHerald.Mention

/-- The text that is composed of a clean text and mentions, each an account with its offset. -/
def composed (names : Fid → List Char) (own : Fid) (text : List Char) (marks : List (Fid × Nat)) :
    Option (List Char) :=
  (compose (spelledBy (ε := Empty) names) own text (marks.map Prod.fst)
    (marks.map Prod.snd)).outcome.toOption

def Ascending (marks : List (Fid × Nat)) : Prop :=
  marks.Pairwise fun mark later => mark.2 < later.2

theorem eq_of_perm_of_alone {α : Type} {list other : List α} (same : other.Perm list)
    (alone : list.length ≤ 1) : other = list := by
  cases list with
  | nil => exact same.eq_nil
  | cons head tail =>
      cases List.eq_nil_of_length_eq_zero (Nat.le_zero.mp (Nat.le_of_succ_le_succ alone))
      exact same.eq_singleton

theorem eq_ok_of_toOption {ε α : Type} {outcome : Except ε α} {value : α}
    (brings : outcome.toOption = some value) : outcome = .ok value := by
  cases outcome with
  | ok found => exact congrArg Except.ok (Option.some.inj brings)
  | error error => cases brings

section Shown

variable {names : Fid → List Char} {own : Fid} {text : List Char} {marks other : List (Fid × Nat)}

theorem composed_eq (names : Fid → List Char) (own : Fid) (text : List Char)
    (marks : List (Fid × Nat)) :
    composed names own text marks =
      (insertNames (spelledBy (ε := Empty) names) own marks.reverse text).outcome.toOption := by
  have paired : (marks.map Prod.fst).zip (marks.map Prod.snd) = marks :=
    (List.zip_of_prod rfl rfl).symm
  rw [composed, compose, if_pos (by rw [List.length_map, List.length_map]), paired]

theorem insertNames_shown {ε : Type} (name : Fid → Except ε (List Char)) (own : Fid)
    (marks : List (Fid × Nat)) (text : List Char) :
    insertNames name own (shown own marks) text = insertNames name own marks text := by
  induction marks generalizing text with
  | nil => rfl
  | cons mark rest ih =>
      obtain ⟨fid, offset⟩ := mark
      by_cases left : isSuppressed own (fid, offset) = true
      · have dropped : shown own ((fid, offset) :: rest) = shown own rest :=
          filter_shown_of_left left rest
        rw [dropped, insertNames, if_pos left, ih]
      · have visible : isSuppressed own (fid, offset) = false := Bool.eq_false_iff.mpr left
        have kept : shown own ((fid, offset) :: rest) = (fid, offset) :: shown own rest :=
          filter_shown_of_visible visible rest
        rw [kept, insertNames, insertNames, if_neg left, if_neg left]
        simp only [ih]

theorem shown_perm (same : other.Perm marks) : (shown own other).Perm (shown own marks) :=
  same.filter _

theorem composed_shown (names : Fid → List Char) (own : Fid) (text : List Char)
    (marks : List (Fid × Nat)) :
    composed names own text (shown own marks) = composed names own text marks := by
  have reversed : (shown own marks).reverse = shown own marks.reverse :=
    List.filter_reverse.symm
  rw [composed_eq, composed_eq, reversed, insertNames_shown]

theorem composed_of_ascending (ascending : Ascending (shown own marks)) :
    composed names own text marks = placed names own text marks := by
  rw [composed_eq]
  exact insertNames_of_ascending (ascending.imp Nat.le_of_lt)

/-- At an offset that no two mentions share, the order of the list does not show. -/
theorem labelAt_perm (same : other.Perm marks) (distinct : (marks.map Prod.snd).Nodup)
    (offset : Nat) : labelAt names other offset = labelAt names marks offset := by
  let here : Fid × Nat → Bool := fun mark => mark.2 == offset
  have alone : (marks.filter here).length ≤ 1 := by
    have all : (marks.filter here).map Prod.snd =
        List.replicate ((marks.filter here).map Prod.snd).length offset := by
      refine List.eq_replicate_of_mem fun place member => ?_
      obtain ⟨mark, kept, rfl⟩ := List.mem_map.mp member
      exact beq_iff_eq.mp (List.mem_filter.mp kept).2
    have once : ((marks.filter here).map Prod.snd).Nodup :=
      distinct.sublist (List.filter_sublist.map Prod.snd)
    rw [all, List.nodup_replicate, List.length_map] at once
    exact once
  have same : other.filter here = marks.filter here :=
    eq_of_perm_of_alone (same.filter here) alone
  exact congrArg (List.flatMap fun mark => '@' :: names mark.1) same

theorem placed_perm (same : other.Perm marks) (distinct : (marks.map Prod.snd).Nodup) :
    placed names own text other = placed names own text marks := by
  have sameShown : (shown own other).Perm (shown own marks) := shown_perm same
  have distinctShown : ((shown own marks).map Prod.snd).Nodup :=
    distinct.sublist (List.filter_sublist.map Prod.snd)
  have sameLabels : labelAt names (shown own other) = labelAt names (shown own marks) :=
    funext (labelAt_perm sameShown distinctShown)
  have sameCuts : (∀ mark ∈ shown own other, (Text.cutAt mark.2 text).isSome) ↔
      ∀ mark ∈ shown own marks, (Text.cutAt mark.2 text).isSome :=
    forall_congr' fun mark => by rw [sameShown.mem_iff]
  rw [placed, placed, sameLabels]
  exact if_congr sameCuts rfl rfl

end Shown

/-- A list that is out of order has a place where it goes back, with only order behind that. -/
theorem exists_descent {marks : List (Fid × Nat)} (distinct : (marks.map Prod.snd).Nodup)
    (unordered : ¬ Ascending marks) :
    ∃ front high low back, marks = front ++ high :: low :: back ∧ Ascending (low :: back) ∧
      low.2 < high.2 := by
  induction marks with
  | nil => exact absurd List.Pairwise.nil unordered
  | cons mark rest ih =>
      rw [List.map_cons, List.nodup_cons] at distinct
      by_cases ordered : Ascending rest
      · cases rest with
        | nil => exact absurd (List.pairwise_singleton _ mark) unordered
        | cons next back =>
            refine ⟨[], mark, next, back, rfl, ordered, ?_⟩
            have differs : mark.2 ≠ next.2 := by
              intro same
              exact distinct.1 (same ▸ List.mem_cons_self)
            by_contra notBack
            have forward : mark.2 < next.2 := by omega
            refine unordered (List.pairwise_cons.mpr ⟨?_, ordered⟩)
            intro later member
            rcases List.mem_cons.mp member with rfl | behind
            · exact forward
            · exact Nat.lt_trans forward ((List.pairwise_cons.mp ordered).1 later behind)
      · obtain ⟨front, high, low, back, rfl, tail, goesBack⟩ := ih distinct.2 ordered
        exact ⟨mark :: front, high, low, back, rfl, tail, goesBack⟩

/-! ### A text in which a list out of order goes wrong -/

def Narrow (text : List Char) : Prop :=
  ∀ character ∈ text, character.utf8Size = 1

theorem byteLength_of_narrow {text : List Char} (narrow : Narrow text) :
    Text.byteLength text = text.length := by
  induction text with
  | nil => rfl
  | cons character rest ih =>
      obtain ⟨one, later⟩ := List.forall_mem_cons.mp narrow
      rw [Text.byteLength, one, ih later, List.length_cons, Nat.add_comm]

theorem exists_cut_of_narrow {offset : Nat} {front : List Char} (narrow : Narrow front)
    (within : offset ≤ Text.byteLength front) (back : List Char) :
    ∃ first second, front = first ++ second ∧
      Text.cutAt offset (front ++ back) = some (first, second ++ back) := by
  have length := byteLength_of_narrow narrow
  have narrowTake : Narrow (front.take offset) := fun character member =>
    narrow character (List.mem_of_mem_take member)
  have taken : Text.byteLength (front.take offset) = offset := by
    rw [byteLength_of_narrow narrowTake, List.length_take]
    omega
  refine ⟨front.take offset, front.drop offset, (List.take_append_drop _ _).symm, ?_⟩
  rw [Text.cutAt_eq_some_iff, ← List.append_assoc, List.take_append_drop]
  exact ⟨rfl, taken⟩

section Narrow

variable {names : Fid → List Char}

theorem insertNames_of_room (own : Fid) (narrowNames : ∀ fid, Narrow (names fid))
    {marks : List (Fid × Nat)} {front : List Char} (narrow : Narrow front)
    (room : ∀ mark ∈ marks, mark.2 ≤ Text.byteLength front) (back : List Char) :
    ∃ text, (insertNames (spelledBy (ε := Empty) names) own marks (front ++ back)).outcome =
      .ok text := by
  -- On the list: each name makes the front longer, so the others keep their room in it.
  induction marks generalizing front back with
  | nil => exact ⟨_, rfl⟩
  | cons mark rest ih =>
      obtain ⟨fid, offset⟩ := mark
      obtain ⟨roomHere, roomLater⟩ := List.forall_mem_cons.mp room
      rw [insertNames]
      split
      · exact ih narrow roomLater back
      · obtain ⟨first, second, rfl, cut⟩ := exists_cut_of_narrow narrow roomHere back
        obtain ⟨narrowFirst, narrowSecond⟩ := List.forall_mem_append.mp narrow
        have narrowLabel : Narrow ('@' :: names fid) :=
          List.forall_mem_cons.mpr ⟨rfl, narrowNames fid⟩
        have narrowLater : Narrow (first ++ '@' :: names fid ++ second) :=
          List.forall_mem_append.mpr
            ⟨List.forall_mem_append.mpr ⟨narrowFirst, narrowLabel⟩, narrowSecond⟩
        have longer : ∀ mark ∈ rest,
            mark.2 ≤ Text.byteLength (first ++ '@' :: names fid ++ second) := by
          intro mark member
          have before := roomLater mark member
          simp only [Text.byteLength_append] at before ⊢
          omega
        obtain ⟨text, succeeds⟩ := ih narrowLater longer back
        refine ⟨text, ?_⟩
        rw [cut]
        simp only [spelledBy]
        rw [← List.append_assoc]
        exact succeeds

end Narrow

/-- A text of narrow characters but for one of two bytes, which `hole` bytes are in front of. -/
def pitted (hole size : Nat) : List Char :=
  List.replicate hole 'a' ++ 'é' :: List.replicate size 'a'

theorem narrow_replicate (count : Nat) : Narrow (List.replicate count 'a') := by
  intro character member
  rw [List.eq_of_mem_replicate member]
  rfl

theorem byteLength_replicate (count : Nat) :
    Text.byteLength (List.replicate count 'a') = count := by
  rw [byteLength_of_narrow (narrow_replicate count), List.length_replicate]

theorem cutAt_pitted_of_hole (hole size : Nat) :
    Text.cutAt (hole + 1) (pitted hole size) = none := by
  have behind := Text.cutAt_add (List.replicate hole 'a') ('é' :: List.replicate size 'a') 1
  rw [byteLength_replicate] at behind
  exact behind

theorem isSome_cutAt_pitted {hole size offset : Nat} (within : offset ≤ size)
    (differs : offset ≠ hole + 1) : (Text.cutAt offset (pitted hole size)).isSome := by
  by_cases before : offset ≤ hole
  · rw [← byteLength_replicate hole] at before
    obtain ⟨_, _, _, cut⟩ := exists_cut_of_narrow (narrow_replicate hole) before
      ('é' :: List.replicate size 'a')
    rw [pitted, cut]
    rfl
  · obtain ⟨further, rfl⟩ : ∃ further, offset = hole + 2 + further :=
      ⟨offset - (hole + 2), by omega⟩
    have inRest : further ≤ Text.byteLength (List.replicate size 'a') := by
      rw [byteLength_replicate]
      omega
    obtain ⟨_, _, _, cut⟩ := exists_cut_of_narrow (narrow_replicate size) inRest []
    have behind := Text.cutAt_add (List.replicate hole 'a' ++ ['é']) (List.replicate size 'a')
      further
    rw [List.append_nil] at cut
    rw [Text.byteLength_append, byteLength_replicate, List.append_assoc, cut] at behind
    exact congrArg Option.isSome behind

section Misplaced

variable {names : Fid → List Char} {own : Fid} {marks : List (Fid × Nat)}

theorem labelled_of_first (names : Fid → List Char) {low : Fid × Nat} {back : List (Fid × Nat)}
    (ascending : Ascending (low :: back)) {front : List Char}
    (length : Text.byteLength front = low.2) (later : List Char) :
    ∃ rest, labelled (labelAt names (low :: back)) 0 (front ++ later) =
      (front ++ '@' :: names low.1) ++ rest := by
  have quiet (earlier : Nat) (_ : 0 ≤ earlier) (before : earlier < 0 + Text.byteLength front) :
      labelAt names (low :: back) earlier = [] := by
    refine labelAt_of_absent fun mark member => ?_
    rcases List.mem_cons.mp member with rfl | behind
    · omega
    · have above := (List.pairwise_cons.mp ascending).1 mark behind
      omega
  have label : labelAt names (low :: back) low.2 = '@' :: names low.1 ++ labelAt names back low.2 := by
    rw [← labelAt_self names low]
    exact labelAt_append names [low] back low.2
  obtain ⟨rest, labelledLater⟩ := labelled_eq_append (labelAt names (low :: back)) low.2 later
  refine ⟨labelAt names back low.2 ++ rest, ?_⟩
  rw [labelled_append_of_quiet_before quiet, Nat.zero_add, length, labelledLater, label]
  simp only [List.append_assoc, List.cons_append]

theorem exists_bound (marks : List (Fid × Nat)) : ∃ size, ∀ mark ∈ marks, mark.2 ≤ size := by
  induction marks with
  | nil => exact ⟨0, fun _ absent => nomatch absent⟩
  | cons mark rest ih =>
      obtain ⟨size, bounded⟩ := ih
      refine ⟨max mark.2 size, List.forall_mem_cons.mpr ⟨Nat.le_max_left _ _, ?_⟩⟩
      intro later member
      exact Nat.le_trans (bounded later member) (Nat.le_max_right _ _)

theorem placed_pitted (names : Fid → List Char) {hole size : Nat} {low : Fid × Nat}
    {back : List (Fid × Nat)} (visible : shown own (low :: back) = low :: back)
    (ascending : Ascending (low :: back))
    (bounded : ∀ mark ∈ low :: back, mark.2 ≤ size)
    (beside : ∀ mark ∈ low :: back, mark.2 ≠ hole + 1) (before : low.2 ≤ hole) :
    ∃ rest, placed names own (pitted hole size) (low :: back) =
      some (List.replicate low.2 'a' ++ '@' :: names low.1 ++ rest) := by
  have cuts : ∀ mark ∈ low :: back, (Text.cutAt mark.2 (pitted hole size)).isSome :=
    fun mark member => isSome_cutAt_pitted (bounded mark member) (beside mark member)
  have split : pitted hole size = List.replicate low.2 'a' ++
      (List.replicate (hole - low.2) 'a' ++ 'é' :: List.replicate size 'a') := by
    rw [← List.append_assoc, List.replicate_append_replicate, Nat.add_sub_cancel' before]
    rfl
  obtain ⟨rest, starts⟩ := labelled_of_first names ascending (byteLength_replicate low.2)
    (List.replicate (hole - low.2) 'a' ++ 'é' :: List.replicate size 'a')
  refine ⟨rest, ?_⟩
  rw [placed, visible, if_pos cuts, split, starts]

/-- Behind names that are at their places already, all others can be put in where there is room in
front of the text. -/
theorem exists_composed_of_room {first later : List (Fid × Nat)} {text front rest : List Char}
    (ascending : Ascending (shown own first))
    (placedFirst : placed names own text first = some (front ++ rest))
    (narrowNames : ∀ fid, Narrow (names fid)) (narrow : Narrow front)
    (room : ∀ mark ∈ later, mark.2 ≤ Text.byteLength front) :
    ∃ woven, composed names own text (later ++ first) = some woven := by
  have succeeds : (insertNames (spelledBy (ε := Empty) names) own first.reverse text).outcome =
      .ok (front ++ rest) := by
    rw [← insertNames_of_ascending (ascending.imp Nat.le_of_lt)] at placedFirst
    exact eq_ok_of_toOption placedFirst
  obtain ⟨woven, goesOn⟩ := insertNames_of_room own narrowNames narrow
    (fun mark member => room mark (List.mem_reverse.mp member)) rest
  refine ⟨woven, ?_⟩
  rw [composed_eq, List.reverse_append, insertNames_append_of_ok succeeds, goesOn]
  rfl

/-- Out of order, a name comes to stand where another one has its offset inside a character, and that
other name goes into the middle of the first one instead of being refused. -/
theorem exists_misplaced (distinct : (marks.map Prod.snd).Nodup)
    (unordered : ¬ Ascending (shown own marks)) :
    ∃ names text, composed names own text marks ≠ placed names own text marks := by
  have distinctShown : ((shown own marks).map Prod.snd).Nodup :=
    distinct.sublist (List.filter_sublist.map Prod.snd)
  obtain ⟨front, high, low, back, split, ascending, goesBack⟩ :=
    exists_descent distinctShown unordered
  obtain ⟨size, bounded⟩ := exists_bound (shown own marks)
  obtain ⟨hole, atHigh⟩ : ∃ hole, high.2 = hole + 1 := ⟨high.2 - 1, by omega⟩
  have fromLow {mark : Fid × Nat} (member : mark ∈ low :: back) : mark ∈ shown own marks :=
    split ▸ List.mem_append_right _ (List.mem_cons_of_mem _ member)
  have visible : shown own (low :: back) = low :: back :=
    List.filter_eq_self.mpr fun mark member => (List.mem_filter.mp (fromLow member)).2
  have beside : ∀ mark ∈ low :: back, mark.2 ≠ hole + 1 := by
    intro mark member same
    rw [split, List.map_append, List.map_cons] at distinctShown
    have absent := (List.nodup_cons.mp (List.nodup_append.mp distinctShown).2.1).1
    rw [atHigh, ← same] at absent
    exact absent (List.mem_map_of_mem member)
  -- Names are longer than any offset, so behind the first of them all others have room.
  let names : Fid → List Char := fun _ => List.replicate size 'a'
  obtain ⟨rest, placedLow⟩ := placed_pitted names visible ascending
    (fun mark member => bounded mark (fromLow member)) beside (by omega)
  have narrow : Narrow (List.replicate low.2 'a' ++ '@' :: names low.1) :=
    List.forall_mem_append.mpr ⟨narrow_replicate low.2,
      List.forall_mem_cons.mpr ⟨rfl, narrow_replicate size⟩⟩
  have room : ∀ mark ∈ front ++ [high],
      mark.2 ≤ Text.byteLength (List.replicate low.2 'a' ++ '@' :: names low.1) := by
    intro mark member
    have within : mark.2 ≤ size := by
      refine bounded mark (split ▸ ?_)
      rw [List.append_cons]
      exact List.mem_append_left _ member
    rw [Text.byteLength_append, Text.byteLength, byteLength_replicate, byteLength_replicate]
    omega
  obtain ⟨woven, succeeds⟩ := exists_composed_of_room (visible.symm ▸ ascending) placedLow
    (fun _ => narrow_replicate size) narrow room
  refine ⟨names, pitted hole size, ?_⟩
  have unplaced : placed names own (pitted hole size) marks = none := by
    refine if_neg fun cuts => ?_
    have cut := cuts high (split ▸ List.mem_append_right _ List.mem_cons_self)
    rw [atHigh, cutAt_pitted_of_hole] at cut
    cases cut
  rw [unplaced, ← composed_shown, split, List.append_cons, succeeds]
  exact Option.some_ne_none woven

theorem exists_ascending_perm (distinct : (marks.map Prod.snd).Nodup) :
    ∃ sorted, sorted.Perm marks ∧ Ascending sorted := by
  let before : Fid × Nat → Fid × Nat → Bool := fun mark later => decide (mark.2 ≤ later.2)
  have transitive (first second third : Fid × Nat) (firstBefore : before first second = true)
      (secondBefore : before second third = true) : before first third = true :=
    decide_eq_true
      (Nat.le_trans (of_decide_eq_true firstBefore) (of_decide_eq_true secondBefore))
  have total (mark later : Fid × Nat) : (before mark later || before later mark) = true := by
    simp only [before, Bool.or_eq_true, decide_eq_true_eq]
    omega
  have same : (marks.mergeSort before).Perm marks := List.mergeSort_perm _ _
  have apart : (marks.mergeSort before).Pairwise fun mark later => mark.2 ≠ later.2 :=
    List.pairwise_map.mp ((same.map Prod.snd).nodup_iff.mpr distinct)
  refine ⟨_, same, ((List.pairwise_mergeSort transitive total marks).and apart).imp ?_⟩
  intro mark later both
  exact Nat.lt_of_le_of_ne (of_decide_eq_true both.1) both.2

theorem not_ascending_reverse (ascending : Ascending marks) (many : 1 < marks.length) :
    ¬ Ascending marks.reverse := by
  intro reversed
  match marks, many with
  | first :: second :: _, _ =>
      have forward := (List.pairwise_cons.mp ascending).1 second List.mem_cons_self
      have backward :=
        (List.pairwise_cons.mp (List.pairwise_reverse.mp reversed)).1 second List.mem_cons_self
      exact Nat.lt_asymm forward backward

/-- A list of which two permutations show more than one mention is composed to different texts. -/
theorem exists_order_that_shows (distinct : (marks.map Prod.snd).Nodup)
    (many : 1 < (shown own marks).length) :
    ∃ other, other.Perm marks ∧ ∃ names text,
      composed names own text other ≠ composed names own text marks := by
  obtain ⟨sorted, same, ascending⟩ := exists_ascending_perm distinct
  have sameReverse : sorted.reverse.Perm marks := (List.reverse_perm sorted).trans same
  have shownReverse : shown own sorted.reverse = (shown own sorted).reverse := List.filter_reverse
  have ascendingShown : Ascending (shown own sorted) := ascending.filter _
  have unordered : ¬ Ascending (shown own sorted.reverse) := by
    rw [shownReverse]
    refine not_ascending_reverse ascendingShown ?_
    rw [(shown_perm same).length_eq]
    exact many
  obtain ⟨names, text, differs⟩ :=
    exists_misplaced ((sameReverse.map Prod.snd).nodup_iff.mpr distinct) unordered
  by_contra none
  have always (other : List (Fid × Nat)) (permuted : other.Perm marks) :
      composed names own text other = composed names own text marks := by
    by_contra shows
    exact none ⟨other, permuted, names, text, shows⟩
  refine differs ?_
  calc composed names own text sorted.reverse
    _ = composed names own text marks := always _ sameReverse
    _ = composed names own text sorted := (always _ same).symm
    _ = placed names own text sorted := composed_of_ascending ascendingShown
    _ = placed names own text marks := placed_perm same distinct
    _ = placed names own text sorted.reverse := (placed_perm sameReverse distinct).symm

variable (own) in
/-- The places of the names do not depend on the order of the list. The names come to these places,
whatever the text and the names, exactly where the list is in order. So the order of a list does not
matter exactly where it shows one mention at most. -/
theorem order_matters_unless_ascending (distinct : (marks.map Prod.snd).Nodup) :
    (∀ other, other.Perm marks → ∀ names text,
        placed names own text other = placed names own text marks) ∧
      ((∀ names text, composed names own text marks = placed names own text marks) ↔
        Ascending (shown own marks)) ∧
      ((∀ other, other.Perm marks → ∀ names text,
          composed names own text other = composed names own text marks) ↔
        (shown own marks).length ≤ 1) := by
  refine ⟨fun other same names text => placed_perm same distinct, ?_, ?_⟩
  · constructor
    · intro always
      by_contra unordered
      obtain ⟨names, text, differs⟩ := exists_misplaced distinct unordered
      exact differs (always names text)
    · intro ascending names text
      exact composed_of_ascending ascending
  · constructor
    · intro always
      by_contra many
      obtain ⟨other, same, names, text, differs⟩ :=
        exists_order_that_shows distinct (Nat.not_le.mp many)
      exact differs (always other same names text)
    · intro alone other same names text
      have sameShown : shown own other = shown own marks :=
        eq_of_perm_of_alone (shown_perm same) alone
      rw [← composed_shown, sameShown, composed_shown]

end Misplaced

def crossedMarks : List (Fid × Nat) := [(9, 2), (10, 1)]

theorem crossedMarks_go_wrong :
    (crossedMarks.map Prod.snd).Nodup ∧
      (¬ ∀ names text, composed names 7 text crossedMarks = placed names 7 text crossedMarks) ∧
      ¬ ∀ other, other.Perm crossedMarks → ∀ names text,
        composed names 7 text other = composed names 7 text crossedMarks := by
  have distinct : (crossedMarks.map Prod.snd).Nodup := by decide
  obtain ⟨_, places, orders⟩ := order_matters_unless_ascending 7 distinct
  rw [places, orders]
  have shownMarks : shown 7 crossedMarks = crossedMarks := by decide
  rw [shownMarks]
  refine ⟨distinct, fun ascending => ?_, by decide⟩
  have forward := (List.pairwise_cons.mp ascending).1 (10, 1) (by decide)
  exact absurd forward (by decide)

/-- The order in which mentions are listed can change the text: the second name here stands inside
the first one. -/
theorem order_of_mentions_can_show :
    ¬ ∀ (names : Fid → List Char) (own : Fid) (text : List Char) (marks other : List (Fid × Nat)),
      (marks.map Prod.snd).Nodup → other.Perm marks →
        composed names own text other = composed names own text marks := by
  intro always
  let names : Fid → List Char := fun fid => if fid = 9 then ['x'] else ['y']
  have same := always names 7 ['a', 'b'] [(10, 1), (9, 2)] crossedMarks (by decide)
    (List.Perm.swap _ _ [])
  have crossed : composed names 7 ['a', 'b'] crossedMarks = some ['a', '@', '@', 'x', 'y', 'b'] := by
    decide
  have straight : composed names 7 ['a', 'b'] [(10, 1), (9, 2)] =
      some ['a', '@', 'y', 'b', '@', 'x'] := by decide
  rw [crossed, straight] at same
  cases same

end PollHerald.Mention
