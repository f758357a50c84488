import PollHerald.Mention.Decompose
import PollHerald.Proofs.Text.Bytes

set_option autoImplicit false

/-! What is taken out of a text, and what is left of it. The pieces of a text make up the whole of
it, the tokens among them stand for the accounts, and the rest is the clean text. -/

namespace PollHerald.Mention

/-- The mention tokens, each with its `@`. -/
def tokens : List Piece → List (List Char)
  | [] => []
  | .plain _ :: rest => tokens rest
  | .token token :: rest => token :: tokens rest

/-- The mention tokens of a text. -/
def tokensOf (text : String) : List (List Char) :=
  tokens (pieces text.toList)

theorem countP_isToken (parts : List Piece) :
    parts.countP Piece.isToken = (tokens parts).length := by
  induction parts with
  | nil => rfl
  | cons part rest ih =>
      cases part with
      | plain character => exact (List.countP_cons_of_neg (by exact Bool.noConfusion)).trans ih
      | token token =>
          rw [List.countP_cons_of_pos rfl, ih]
          rfl

theorem length_tokenOffsets (offset : Nat) (parts : List Piece) :
    (tokenOffsets offset parts).length = (tokens parts).length := by
  induction parts generalizing offset with
  | nil => rfl
  | cons part rest ih =>
      cases part with
      | plain character => exact ih _
      | token token => exact congrArg Nat.succ (ih offset)

theorem dropEth_eq_some {text rest : List Char} (found : dropEth text = some rest) :
    text = ['.', 'e', 't', 'h'] ++ rest := by
  unfold dropEth at found
  split at found
  · cases found
    rfl
  · cases found

theorem splitToken_append (text : List Char) : (splitToken text).1 ++ (splitToken text).2 = text := by
  have whole : text.takeWhile isHandleChar ++ text.dropWhile isHandleChar = text :=
    List.takeWhile_append_dropWhile
  simp only [splitToken]
  split
  · rename_i rest found
    rw [List.append_assoc, ← dropEth_eq_some found, whole]
  · exact whole

/-- Nothing of a text is lost in its pieces. -/
theorem flatMap_text_pieces (text : List Char) : (pieces text).flatMap Piece.text = text := by
  induction text using pieces.induct with
  | case1 => rw [pieces, List.flatMap_nil]
  | case2 character rest opens ih =>
      rw [pieces, if_pos opens, List.flatMap_cons, ih]
      exact congrArg (character :: ·) (splitToken_append rest)
  | case3 character rest plain ih =>
      rw [pieces, if_neg plain, List.flatMap_cons, ih]
      rfl

theorem eq_cons_of_mem_tokens {text token : List Char} (member : token ∈ tokens (pieces text)) :
    token = '@' :: token.tail := by
  induction text using pieces.induct with
  | case1 =>
      rw [pieces, tokens] at member
      cases member
  | case2 character rest opens ih =>
      rw [pieces, if_pos opens, tokens] at member
      rcases List.mem_cons.mp member with rfl | later
      · rw [opens.1]
        rfl
      · exact ih later
  | case3 character rest plain ih =>
      rw [pieces, if_neg plain, tokens] at member
      exact ih member

theorem tokens_pieces_of_no_at {text : List Char} (plain : '@' ∉ text) :
    tokens (pieces text) = [] := by
  induction text using pieces.induct with
  | case1 => rw [pieces, tokens]
  | case2 character rest opens ih => exact absurd (opens.1 ▸ List.mem_cons_self) plain
  | case3 character rest notOpens ih =>
      rw [pieces, if_neg notOpens, tokens]
      exact ih fun later => plain (List.mem_cons_of_mem character later)

theorem tokens_pieces_append_of_no_at {front : List Char} (plain : '@' ∉ front)
    (text : List Char) : tokens (pieces (front ++ text)) = tokens (pieces text) := by
  induction front with
  | nil => rfl
  | cons character rest ih =>
      obtain ⟨notAt, plainRest⟩ := List.ne_and_not_mem_of_not_mem_cons plain
      rw [List.cons_append, pieces, if_neg fun opens => notAt opens.1.symm, tokens, ih plainRest]

/-- A text is taken apart where it has one account for each token, and only then. -/
theorem decompose_eq_ok_iff (text : String) (mentions : List Fid) (clean : Clean) :
    decompose text mentions = .ok clean ↔
      (tokensOf text).length = mentions.length ∧
        clean = {
          text := String.ofList (plainText (pieces text.toList))
          mentions
          positions := tokenOffsets 0 (pieces text.toList) } := by
  simp only [decompose, tokensOf, countP_isToken]
  by_cases fits : (tokens (pieces text.toList)).length = mentions.length
  · simp only [fits, if_true, Except.ok.injEq, true_and]
    exact eq_comm
  · simp only [fits, if_false, reduceCtorEq, false_and]

theorem decompose_of_miscount {text : String} {mentions : List Fid}
    (miscounts : (tokensOf text).length ≠ mentions.length) :
    decompose text mentions = .error (.count (tokensOf text).length mentions.length) := by
  simp only [decompose, tokensOf, countP_isToken] at miscounts ⊢
  rw [if_neg miscounts]

theorem exists_front_of_mem_tokenOffsets {offset position : Nat} {parts : List Piece}
    (member : position ∈ tokenOffsets offset parts) :
    ∃ front back, front ++ back = plainText parts ∧
      position = offset + Text.byteLength front := by
  induction parts generalizing offset with
  | nil => cases member
  | cons part rest ih =>
      cases part with
      | plain character =>
          obtain ⟨front, back, joined, place⟩ := ih member
          refine ⟨character :: front, back, congrArg (character :: ·) joined, ?_⟩
          rw [place, Text.byteLength, Nat.add_assoc]
      | token token =>
          rcases List.mem_cons.mp member with rfl | later
          · exact ⟨[], plainText rest, rfl, rfl⟩
          · exact ih later

/-- No token stands beyond the end of the clean text. -/
theorem le_of_mem_tokenOffsets {offset position : Nat} {parts : List Piece}
    (member : position ∈ tokenOffsets offset parts) :
    position ≤ offset + Text.byteLength (plainText parts) := by
  obtain ⟨front, back, joined, rfl⟩ := exists_front_of_mem_tokenOffsets member
  rw [← joined, Text.byteLength_append]
  omega

theorem byteLength_plainText_le (parts : List Piece) :
    Text.byteLength (plainText parts) ≤ Text.byteLength (parts.flatMap Piece.text) := by
  induction parts with
  | nil => exact Nat.le_refl _
  | cons part rest ih =>
      cases part with
      | plain character => exact Nat.add_le_add_left ih _
      | token token =>
          rw [List.flatMap_cons, Text.byteLength_append]
          exact Nat.le_trans ih (Nat.le_add_left _ _)

end PollHerald.Mention
