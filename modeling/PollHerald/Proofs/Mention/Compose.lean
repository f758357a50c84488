import PollHerald.Mention.Compose

set_option autoImplicit false

/-! Which names a composition depends on. Only the accounts that are listed for it beforehand are
ever asked for, so two sources of names that agree on these give the same text. -/

namespace PollHerald.Mention

theorem mem_insertAscending (fid number : Nat) (fids : List Nat) :
    fid ∈ insertAscending number fids ↔ fid = number ∨ fid ∈ fids := by
  induction fids with
  | nil => simp only [insertAscending, List.mem_singleton, List.not_mem_nil, or_false]
  | cons head rest ih =>
      unfold insertAscending
      split
      · rw [List.mem_cons]
      · split
        · rename_i same
          simp only [same, List.mem_cons, or_self_left]
        · simp only [List.mem_cons, ih]
          exact or_left_comm

theorem mem_fidsToResolve (own fid : Fid) (mentions : List Fid) (positions : List Nat) :
    fid ∈ fidsToResolve own mentions positions ↔
      ∃ offset, (fid, offset) ∈ mentions.zip positions ∧ isSuppressed own (fid, offset) = false := by
  have folded (pairs : List (Fid × Nat)) :
      fid ∈ pairs.foldr (fun mention fids => insertAscending mention.1 fids) [] ↔
        ∃ offset, (fid, offset) ∈ pairs := by
    induction pairs with
    | nil => simp only [List.foldr_nil, List.not_mem_nil, exists_false]
    | cons mention rest ih =>
        simp only [List.foldr_cons, mem_insertAscending, ih, List.mem_cons, exists_or]
        refine or_congr_left ⟨fun same => ⟨mention.2, Prod.ext same rfl⟩, ?_⟩
        rintro ⟨_, rfl⟩
        rfl
  simp only [fidsToResolve, folded, List.mem_filter, Bool.not_eq_eq_eq_not, Bool.not_true]

theorem ascending_insertAscending {number : Nat} {fids : List Nat}
    (ascending : fids.Pairwise (· < ·)) : (insertAscending number fids).Pairwise (· < ·) := by
  induction fids with
  | nil => exact List.pairwise_singleton _ _
  | cons head rest ih =>
      obtain ⟨above, sorted⟩ := List.pairwise_cons.mp ascending
      unfold insertAscending
      split
      · rename_i less
        refine List.pairwise_cons.mpr ⟨List.forall_mem_cons.mpr ⟨less, ?_⟩, ascending⟩
        exact fun later member => Nat.lt_trans less (above later member)
      · split
        · exact ascending
        · rename_i notLess differs
          refine List.pairwise_cons.mpr ⟨fun later member => ?_, ih sorted⟩
          rcases (mem_insertAscending later number rest).mp member with rfl | inRest
          · omega
          · exact above later inRest

theorem ascending_fidsToResolve (own : Fid) (mentions : List Fid) (positions : List Nat) :
    (fidsToResolve own mentions positions).Pairwise (· < ·) := by
  unfold fidsToResolve
  induction (mentions.zip positions).filter fun mention => !isSuppressed own mention with
  | nil => exact .nil
  | cons mention rest ih => exact ascending_insertAscending ih

section Names

variable {ε : Type} {name other : Fid → Except ε (List Char)} {own : Fid}

theorem insertNames_congr {mentions : List (Fid × Nat)} {text : List Char}
    (same : ∀ mention ∈ mentions, isSuppressed own mention = false →
      name mention.1 = other mention.1) :
    insertNames name own mentions text = insertNames other own mentions text := by
  induction mentions generalizing text with
  | nil => rfl
  | cons mention rest ih =>
      obtain ⟨fid, offset⟩ := mention
      have sameRest (text : List Char) :
          insertNames name own rest text = insertNames other own rest text :=
        ih fun later member => same later (List.mem_cons_of_mem _ member)
      by_cases suppressed : isSuppressed own (fid, offset) = true
      · simp only [insertNames, suppressed, if_true, sameRest]
      · have sameName : name fid = other fid :=
          same _ List.mem_cons_self (Bool.eq_false_iff.mpr suppressed)
        simp only [insertNames, suppressed, Bool.false_eq_true, if_false, sameName, sameRest]

theorem compose_congr {text : List Char} {mentions : List Fid} {positions : List Nat}
    (same : ∀ fid ∈ fidsToResolve own mentions positions, name fid = other fid) :
    compose name own text mentions positions = compose other own text mentions positions := by
  unfold compose
  split
  · refine insertNames_congr fun mention member shown => same _ ?_
    rw [mem_fidsToResolve]
    exact ⟨mention.2, List.mem_reverse.mp member, shown⟩
  · rfl

theorem filter_shown_of_left {mention : Fid × Nat} (left : isSuppressed own mention = true)
    (rest : List (Fid × Nat)) :
    ((mention :: rest).filter fun other => !isSuppressed own other) =
      rest.filter fun other => !isSuppressed own other :=
  List.filter_cons_of_neg (by rw [left]; exact Bool.noConfusion)

theorem filter_shown_of_visible {mention : Fid × Nat}
    (visible : isSuppressed own mention = false) (rest : List (Fid × Nat)) :
    ((mention :: rest).filter fun other => !isSuppressed own other) =
      mention :: rest.filter fun other => !isSuppressed own other :=
  List.filter_cons_of_pos (by rw [visible]; rfl)

/-- Names are asked for one after another, as the list has the mentions. -/
theorem asked_in_order (mentions : List (Fid × Nat)) (text : List Char) :
    (insertNames name own mentions text).asked <+:
      (mentions.filter fun mention => !isSuppressed own mention).map Prod.fst := by
  induction mentions generalizing text with
  | nil => exact List.nil_prefix
  | cons mention rest ih =>
      obtain ⟨fid, offset⟩ := mention
      by_cases left : isSuppressed own (fid, offset) = true
      · rw [insertNames, if_pos left, filter_shown_of_left left]
        exact ih text
      · have visible : isSuppressed own (fid, offset) = false := Bool.eq_false_iff.mpr left
        rw [insertNames, if_neg left, filter_shown_of_visible visible, List.map_cons]
        split
        · exact List.nil_prefix
        · split
          · exact List.cons_prefix_cons.mpr ⟨rfl, List.nil_prefix⟩
          · exact List.cons_prefix_cons.mpr ⟨rfl, ih _⟩

theorem asked_of_ok {mentions : List (Fid × Nat)} {text composed : List Char}
    (succeeds : (insertNames name own mentions text).outcome = .ok composed) :
    (insertNames name own mentions text).asked =
      (mentions.filter fun mention => !isSuppressed own mention).map Prod.fst := by
  induction mentions generalizing text with
  | nil => rfl
  | cons mention rest ih =>
      obtain ⟨fid, offset⟩ := mention
      by_cases left : isSuppressed own (fid, offset) = true
      · rw [insertNames, if_pos left] at succeeds ⊢
        rw [filter_shown_of_left left]
        exact ih succeeds
      · have visible : isSuppressed own (fid, offset) = false := Bool.eq_false_iff.mpr left
        rw [insertNames, if_neg left] at succeeds ⊢
        rw [filter_shown_of_visible visible, List.map_cons]
        split at succeeds
        · cases succeeds
        · split at succeeds
          · cases succeeds
          · exact congrArg (fid :: ·) (ih succeeds)

/-- The names that a composition asks for are among those that were listed for it, and they are all
of these where it succeeds. -/
theorem mem_fidsToResolve_of_asked {text : List Char} {mentions : List Fid} {positions : List Nat}
    {fid : Fid} (asked : fid ∈ (compose name own text mentions positions).asked) :
    fid ∈ fidsToResolve own mentions positions := by
  unfold compose at asked
  split at asked
  · obtain ⟨mention, member, rfl⟩ := List.mem_map.mp ((asked_in_order _ _).subset asked)
    obtain ⟨listed, shown⟩ := List.mem_filter.mp member
    rw [mem_fidsToResolve]
    exact ⟨mention.2, List.mem_reverse.mp listed, by simpa using shown⟩
  · cases asked

theorem asked_of_mem_fidsToResolve {text composed : List Char} {mentions : List Fid}
    {positions : List Nat}
    (succeeds : (compose name own text mentions positions).outcome = .ok composed) {fid : Fid}
    (listed : fid ∈ fidsToResolve own mentions positions) :
    fid ∈ (compose name own text mentions positions).asked := by
  unfold compose at succeeds ⊢
  split at succeeds
  · rename_i counts
    obtain ⟨offset, member, shown⟩ := (mem_fidsToResolve own fid mentions positions).mp listed
    rw [if_pos counts, asked_of_ok succeeds]
    refine List.mem_map.mpr ⟨(fid, offset), List.mem_filter.mpr ⟨?_, ?_⟩, rfl⟩
    · exact List.mem_reverse.mpr member
    · rw [shown]
      rfl
  · cases succeeds

end Names

end PollHerald.Mention
