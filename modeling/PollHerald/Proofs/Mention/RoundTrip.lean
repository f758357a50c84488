import Mathlib
import PollHerald.Proofs.Mention.Compose
import PollHerald.Proofs.Mention.Decompose

set_option autoImplicit false

/-! Back from a clean text. Tokens that go in at byte offsets of one text are woven into it from its
front to its end, and putting names in from the last mention to the first comes to the same. So a
text that was taken apart comes back, but for the mentions that are left out at its front. -/

namespace PollHerald.Mention

/-- A text with tokens put in, each at its byte offset in that text, of which `done` bytes are cut
off already. There is none where an offset goes back, is beyond the text or inside a character. -/
def weave (done : Nat) : List (List Char × Nat) → List Char → Option (List Char)
  | [], text => some text
  | (token, offset) :: rest, text =>
    if done ≤ offset then
      match Text.cutAt (offset - done) text with
      | some (front, back) => (weave offset rest back).map fun later => front ++ token ++ later
      | none => none
    else
      none

/-- The pieces without the tokens whose marks are not to be kept. Each token has one mark. -/
def keepTokens {α : Type} (keep : α → Bool) : List Piece → List α → List Piece
  | .plain character :: rest, marks => .plain character :: keepTokens keep rest marks
  | .token token :: rest, mark :: marks =>
    if keep mark then .token token :: keepTokens keep rest marks else keepTokens keep rest marks
  | parts, _ => parts

section Weave

variable {α : Type}

theorem weave_cons (front back token : List Char) (done : Nat) (rest : List (List Char × Nat)) :
    weave done ((token, done + Text.byteLength front) :: rest) (front ++ back) =
      (weave (done + Text.byteLength front) rest back).map fun later =>
        front ++ token ++ later := by
  have cut : Text.cutAt (done + Text.byteLength front - done) (front ++ back) =
      some (front, back) := by
    rw [Nat.add_sub_cancel_left]
    exact Text.cutAt_append front back
  simp only [weave, cut, Nat.le_add_right, if_true]

theorem weave_cons_eq_some_iff {done offset : Nat} {token text woven : List Char}
    {rest : List (List Char × Nat)} :
    weave done ((token, offset) :: rest) text = some woven ↔
      ∃ front back later, front ++ back = text ∧ offset = done + Text.byteLength front ∧
        weave offset rest back = some later ∧ front ++ token ++ later = woven := by
  constructor
  · intro found
    simp only [weave] at found
    split at found
    · rename_i forward
      split at found
      · rename_i front back cut
        obtain ⟨later, rested, same⟩ := Option.map_eq_some_iff.mp found
        obtain ⟨joined, length⟩ := (Text.cutAt_eq_some_iff _ _ _ _).mp cut
        exact ⟨front, back, later, joined, by omega, rested, same⟩
      · cases found
    · cases found
  · rintro ⟨front, back, later, rfl, rfl, rested, rfl⟩
    rw [weave_cons, rested, Option.map_some]

/-- The tokens that are kept go back to where they stood. In front of the pieces, `done` bytes are
cut off, and `front` is left. -/
theorem weave_keepTokens (keep : α × Nat → Bool) (spell : α → List Char) {parts : List Piece}
    {labels : List α} (spelled : labels.map spell = tokens parts) (done : Nat)
    (front : List Char) :
    weave done
        (((labels.zip (tokenOffsets (done + Text.byteLength front) parts)).filter keep).map
          fun mark => (spell mark.1, mark.2))
        (front ++ plainText parts) =
      some (front ++
        (keepTokens keep parts
          (labels.zip (tokenOffsets (done + Text.byteLength front) parts))).flatMap Piece.text) := by
  induction parts generalizing labels done front with
  | nil =>
      cases List.map_eq_nil_iff.mp spelled
      rfl
  | cons part rest ih =>
      cases part with
      | plain character =>
          have tail := ih spelled done (front ++ [character])
          simp only [Text.byteLength_append, Text.byteLength, Nat.add_zero, ← Nat.add_assoc,
            List.append_assoc, List.singleton_append] at tail
          exact tail
      | token token =>
          cases labels with
          | nil => cases spelled
          | cons label labels =>
              obtain ⟨rfl, spelledRest⟩ := List.cons.inj spelled
              simp only [tokenOffsets, List.zip_cons_cons, plainText, keepTokens]
              by_cases kept : keep (label, done + Text.byteLength front) = true
              · have tail := ih spelledRest (done + Text.byteLength front) []
                simp only [Text.byteLength, Nat.add_zero, List.nil_append] at tail
                rw [List.filter_cons_of_pos kept, List.map_cons, weave_cons, tail, if_pos kept]
                simp only [Option.map_some, List.flatMap_cons, Piece.text, List.append_assoc]
              · rw [List.filter_cons_of_neg kept, if_neg kept]
                exact ih spelledRest done front

theorem keepTokens_of_all {keep : α → Bool} {marks : List α} (parts : List Piece)
    (all : ∀ mark ∈ marks, keep mark = true) : keepTokens keep parts marks = parts := by
  induction parts generalizing marks with
  | nil => rfl
  | cons part rest ih =>
      cases part with
      | plain character => exact congrArg (Piece.plain character :: ·) (ih all)
      | token token =>
          cases marks with
          | nil => rfl
          | cons mark marks =>
              obtain ⟨kept, later⟩ := List.forall_mem_cons.mp all
              rw [keepTokens, if_pos kept, ih later]

/-- The tokens of a text, put back at their offsets in the clean text, make up the text. -/
theorem weave_tokensOf (text : String) :
    weave 0 ((tokensOf text).zip (tokenOffsets 0 (pieces text.toList)))
      (plainText (pieces text.toList)) = some text.toList := by
  have woven := weave_keepTokens (fun _ => true) id (List.map_id (tokensOf text)) 0 []
  simp only [Text.byteLength, Nat.add_zero, List.nil_append, id_eq, List.map_id'] at woven
  rw [List.filter_eq_self.mpr fun _ _ => rfl, keepTokens_of_all _ fun _ _ => rfl,
    flatMap_text_pieces] at woven
  exact woven

end Weave

section Compose

variable {ε : Type} {name : Fid → Except ε (List Char)} {own : Fid}

theorem insertNames_append_of_ok {first later : List (Fid × Nat)} {text composed : List Char}
    (succeeds : (insertNames name own first text).outcome = .ok composed) :
    insertNames name own (first ++ later) text =
      { asked := (insertNames name own first text).asked ++
          (insertNames name own later composed).asked
        outcome := (insertNames name own later composed).outcome } := by
  induction first generalizing text with
  | nil =>
      cases succeeds
      rfl
  | cons mention rest ih =>
      obtain ⟨fid, offset⟩ := mention
      by_cases left : isSuppressed own (fid, offset) = true
      · simp only [insertNames, left, if_true] at succeeds
        simp only [List.cons_append, insertNames, left, if_true, ih succeeds]
      · simp only [insertNames, left, Bool.false_eq_true, if_false] at succeeds
        simp only [List.cons_append, insertNames, left, Bool.false_eq_true, if_false]
        split at succeeds
        · cases succeeds
        · split at succeeds
          · cases succeeds
          · simp only [ih succeeds, List.cons_append]

theorem insertNames_one {fid : Fid} {front found : List Char} (back : List Char)
    (shown : isSuppressed own (fid, Text.byteLength front) = false)
    (named : name fid = .ok found) :
    (insertNames name own [(fid, Text.byteLength front)] (front ++ back)).outcome =
      .ok (front ++ '@' :: found ++ back) := by
  simp only [insertNames, shown, Bool.false_eq_true, if_false, Text.cutAt_append, named]

/-- Names that go in from the last mention to the first are woven into the text. In front of the
text, `front` was cut off. -/
theorem insertNames_of_weave {found : Fid → List Char} {mentions : List (Fid × Nat)}
    {text woven : List Char} (front : List Char)
    (named : ∀ mention ∈ mentions, isSuppressed own mention = false →
      name mention.1 = .ok (found mention.1))
    (weaves : weave (Text.byteLength front)
      ((mentions.filter fun mention => !isSuppressed own mention).map fun mention =>
        ('@' :: found mention.1, mention.2)) text = some woven) :
    (insertNames name own mentions.reverse (front ++ text)).outcome = .ok (front ++ woven) := by
  induction mentions generalizing front text woven with
  | nil =>
      cases weaves
      rfl
  | cons mention rest ih =>
      obtain ⟨fid, offset⟩ := mention
      obtain ⟨namedHere, namedLater⟩ := List.forall_mem_cons.mp named
      rw [List.reverse_cons]
      by_cases left : isSuppressed own (fid, offset) = true
      · rw [filter_shown_of_left left] at weaves
        rw [insertNames_append_of_ok (ih front namedLater weaves)]
        simp only [insertNames, left, if_true]
      · have shown : isSuppressed own (fid, offset) = false := Bool.eq_false_iff.mpr left
        rw [filter_shown_of_visible shown, List.map_cons, weave_cons_eq_some_iff] at weaves
        obtain ⟨first, back, later, rfl, rfl, rested, rfl⟩ := weaves
        rw [← Text.byteLength_append] at rested shown namedHere ⊢
        have composed := ih _ namedLater rested
        rw [List.append_assoc] at composed
        rw [insertNames_append_of_ok composed]
        have inserted := insertNames_one later shown (namedHere shown)
        simp only [List.append_assoc] at inserted ⊢
        exact inserted

/-- Accounts that are named in the tokens of a text have one name each, whatever their number. -/
theorem exists_handles {text : String} {mentions : List Fid}
    (fits : (tokensOf text).length = mentions.length)
    (named : ∀ pair ∈ (tokensOf text).zip mentions, name pair.2 = .ok pair.1.tail) :
    ∃ handle : Fid → List Char, mentions.map (fun fid => '@' :: handle fid) = tokensOf text ∧
      ∀ fid ∈ mentions, name fid = .ok (handle fid) := by
  let handle : Fid → List Char := fun fid => (name fid).toOption.getD []
  have handleOf {fid : Fid} {found : List Char} (succeeds : name fid = .ok found) :
      handle fid = found := by
    simp only [handle, succeeds, Except.toOption, Option.getD_some]
  have lefts : ((tokensOf text).zip mentions).map Prod.fst = tokensOf text :=
    List.map_fst_zip (Nat.le_of_eq fits)
  have rights : ((tokensOf text).zip mentions).map Prod.snd = mentions :=
    List.map_snd_zip (Nat.le_of_eq fits.symm)
  refine ⟨handle, ?_, ?_⟩
  · calc mentions.map (fun fid => '@' :: handle fid)
      _ = ((tokensOf text).zip mentions).map fun pair => '@' :: handle pair.2 := by
          conv => lhs; rw [← rights]
          rw [List.map_map]
          rfl
      _ = ((tokensOf text).zip mentions).map Prod.fst := by
          refine List.map_congr_left fun pair member => ?_
          rw [handleOf (named pair member)]
          exact (eq_cons_of_mem_tokens (List.of_mem_zip member).1).symm
      _ = tokensOf text := lefts
  · intro fid member
    rw [← rights] at member
    obtain ⟨pair, paired, rfl⟩ := List.mem_map.mp member
    rw [handleOf (named pair paired)]
    exact named pair paired

theorem isSuppressed_eq (own : Fid) (mention : Fid × Nat) :
    isSuppressed own mention = !decide (mention ≠ (own, 0)) := by
  obtain ⟨fid, offset⟩ := mention
  by_cases front : offset = 0 <;> by_cases same : fid = own <;> simp [isSuppressed, front, same]

/-- Taking the mentions out of a text and putting them back. If each account has the name that
stands in its token, the text comes back without the tokens of `own` at the front of the clean text,
and as it was where there are none. -/
theorem compose_decompose {text : String} {mentions : List Fid} {clean : Clean}
    (taken : decompose text mentions = .ok clean)
    (named : ∀ pair ∈ (tokensOf text).zip mentions, name pair.2 = .ok pair.1.tail) :
    (compose name own clean.text.toList clean.mentions clean.positions).outcome =
        .ok ((keepTokens (fun mark => decide (mark ≠ (own, 0))) (pieces text.toList)
          (clean.mentions.zip clean.positions)).flatMap Piece.text) ∧
      ((own, 0) ∉ clean.mentions.zip clean.positions →
        (compose name own clean.text.toList clean.mentions clean.positions).outcome =
          .ok text.toList) := by
  obtain ⟨fits, rfl⟩ := (decompose_eq_ok_iff _ _ _).mp taken
  obtain ⟨handle, spelled, handles⟩ := exists_handles fits named
  have sameLength : mentions.length = (tokenOffsets 0 (pieces text.toList)).length := by
    rw [length_tokenOffsets]
    exact fits.symm
  have woven := weave_keepTokens (fun mark => !isSuppressed own mark) _ spelled 0 []
  have restored : (compose name own (plainText (pieces text.toList)) mentions
      (tokenOffsets 0 (pieces text.toList))).outcome =
        .ok ((keepTokens (fun mark => !isSuppressed own mark) (pieces text.toList)
          (mentions.zip (tokenOffsets 0 (pieces text.toList)))).flatMap Piece.text) := by
    rw [compose, if_pos sameLength]
    exact insertNames_of_weave []
      (fun mention member _ => handles mention.1 (List.of_mem_zip member).1) woven
  simp only [String.toList_ofList]
  simp only [isSuppressed_eq, Bool.not_not] at restored
  refine ⟨restored, fun absent => ?_⟩
  rw [restored, keepTokens_of_all, flatMap_text_pieces]
  intro mark member
  exact decide_eq_true fun same => absent (same ▸ member)

end Compose

/-- The names of three accounts. -/
def memberName : Fid → Except Unit (List Char)
  | 7 => .ok ['b', 'o', 't']
  | 9 => .ok ['a', 'n', 'n']
  | 10 => .ok ['a', 'n', 'n', '.', 'e', 't', 'h']
  | _ => .error ()

/-- Of two leading mentions of the reader neither comes back, the one between them does. -/
theorem compose_decompose_crowded :
    ∃ clean, decompose "@bot@ann@bot é@ann.eth-@bot" [7, 9, 7, 10, 7] = .ok clean ∧
      clean.positions = [0, 0, 0, 3, 4] ∧
      (compose memberName 7 clean.text.toList clean.mentions clean.positions).outcome =
        .ok "@ann é@ann.eth-@bot".toList := by
  have taken : decompose "@bot@ann@bot é@ann.eth-@bot" [7, 9, 7, 10, 7] =
      .ok { text := " é-", mentions := [7, 9, 7, 10, 7], positions := [0, 0, 0, 3, 4] } := by
    cbv
  have found : tokensOf "@bot@ann@bot é@ann.eth-@bot" =
      ["@bot".toList, "@ann".toList, "@bot".toList, "@ann.eth".toList, "@bot".toList] := by
    cbv
  have named : ∀ pair ∈ (tokensOf "@bot@ann@bot é@ann.eth-@bot").zip [7, 9, 7, 10, 7],
      memberName pair.2 = .ok pair.1.tail := by
    rw [found]
    simp [memberName]
  refine ⟨_, taken, rfl, ?_⟩
  rw [(compose_decompose taken named).1]
  cbv

end PollHerald.Mention
