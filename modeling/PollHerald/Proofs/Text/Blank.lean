import Mathlib.Data.List.DropRight
import Mathlib.Data.List.TakeWhile
import PollHerald.Text.Blank
import PollHerald.Text.Lines

set_option autoImplicit false

/-! What trimming leaves of a text: all that is not blank, between the first and the last character
that are not. Trimmed texts that are joined by a blank need no trimming any more. -/

namespace PollHerald.Text

variable {text : List Char} {character : Char}

private theorem trim_concat_of_blank (text : List Char) (blank : isBlank character = true) :
    trim (text ++ [character]) = trim text := by
  unfold trim trimFront
  rw [List.dropWhile_append]
  split
  · rename_i allBlank
    rw [List.isEmpty_iff.mp allBlank, List.dropWhile_cons_of_pos blank, List.dropWhile_nil]
  · exact List.rdropWhile_concat_pos isBlank _ character blank

/-- A carriage return is a blank, so it is trimmed away wherever a line ends. -/
theorem trim_dropReturn (line : List Char) : trim (dropReturn line) = trim line := by
  unfold dropReturn
  split
  · rename_i returnLast
    have whole : line.dropLast ++ ['\r'] = line :=
      List.dropLast_append_getLast? '\r' returnLast
    have blank : isBlank '\r' = true := by decide
    have trimmed := trim_concat_of_blank line.dropLast blank
    rw [whole] at trimmed
    exact trimmed.symm
  · rfl

theorem mem_dropWhile_of_kept {drops : Char → Bool} (kept : drops character = false)
    (member : character ∈ text) : character ∈ text.dropWhile drops := by
  induction text with
  | nil => cases member
  | cons first rest ih =>
      by_cases dropped : drops first = true
      · rw [List.dropWhile_cons_of_pos dropped]
        rcases List.mem_cons.mp member with rfl | later
        · cases kept.symm.trans dropped
        · exact ih later
      · rw [List.dropWhile_cons_of_neg dropped]
        exact member

/-- Only blanks are trimmed away. -/
theorem mem_trim (filled : isBlank character = false) (member : character ∈ text) :
    character ∈ trim text := by
  have inFront : character ∈ trimFront text := mem_dropWhile_of_kept filled member
  have inReverse : character ∈ (trimFront text).reverse := List.mem_reverse.mpr inFront
  exact List.mem_reverse.mpr (mem_dropWhile_of_kept filled inReverse)

theorem trim_eq_nil_iff (text : List Char) :
    trim text = [] ↔ ∀ character ∈ text, isBlank character = true := by
  constructor
  · intro nothing character member
    cases blank : isBlank character with
    | true => rfl
    | false =>
        have kept := mem_trim blank member
        rw [nothing] at kept
        cases kept
  · intro blank
    have front : trimFront text = [] := List.dropWhile_eq_nil_iff.mpr blank
    rw [trim, front]
    rfl

/-- What is left of a text by the trimming at its front is where the whole trimming starts. -/
theorem head?_trim (text : List Char) : (trim text).head? = (trimFront text).head? := by
  unfold trim trimBack
  cases front : trimFront text with
  | nil => rfl
  | cons first rest =>
      have filled : isBlank first = false := by
        have stop := List.head?_dropWhile_not isBlank text
        rw [← trimFront, front] at stop
        exact stop
      have kept : [first].dropWhile isBlank = [first] :=
        List.dropWhile_cons_of_neg (Bool.eq_false_iff.mp filled)
      rw [List.reverse_cons, List.dropWhile_append]
      split
      · rw [kept]
        rfl
      · rw [List.reverse_append]
        rfl

/-- A text that begins and ends with characters that are not blank. -/
structure Neat (text : List Char) : Prop where
  begins : ∃ first rest, text = first :: rest ∧ isBlank first = false
  ends : ∃ front last, text = front ++ [last] ∧ isBlank last = false

namespace Neat

variable {front back : List Char} {lines : List (List Char)}

theorem ne_nil (neat : Neat text) : text ≠ [] := by
  obtain ⟨first, rest, rfl, _⟩ := neat.begins
  exact List.cons_ne_nil first rest

theorem trim_eq (neat : Neat text) : trim text = text := by
  have frontKept : trimFront text = text := by
    obtain ⟨first, rest, rfl, filled⟩ := neat.begins
    exact List.dropWhile_cons_of_neg (Bool.eq_false_iff.mp filled)
  obtain ⟨front, last, rfl, filled⟩ := neat.ends
  rw [trim, frontKept]
  exact List.rdropWhile_concat_neg isBlank front last (Bool.eq_false_iff.mp filled)

theorem append (neatFront : Neat front) (between : List Char) (neatBack : Neat back) :
    Neat (front ++ (between ++ back)) := by
  constructor
  · obtain ⟨first, rest, rfl, filled⟩ := neatFront.begins
    exact ⟨first, _, rfl, filled⟩
  · obtain ⟨before, last, rfl, filled⟩ := neatBack.ends
    refine ⟨front ++ (between ++ before), last, ?_, filled⟩
    simp only [List.append_assoc]

theorem intercalate (separator : List Char) (present : lines ≠ [])
    (neat : ∀ line ∈ lines, Neat line) : Neat (separator.intercalate lines) := by
  induction lines with
  | nil => exact absurd rfl present
  | cons line rest ih =>
      obtain ⟨neatLine, neatRest⟩ := List.forall_mem_cons.mp neat
      cases rest with
      | nil =>
          have single : separator.intercalate [line] = line := List.append_nil line
          rw [single]
          exact neatLine
      | cons next others => exact neatLine.append separator (ih (List.cons_ne_nil _ _) neatRest)

end Neat

theorem neat_trim (filled : trim text ≠ []) : Neat (trim text) := by
  constructor
  · obtain ⟨first, rest, trimmed⟩ := List.exists_cons_of_ne_nil filled
    have stop := List.head?_dropWhile_not isBlank text
    rw [← trimFront, ← head?_trim, trimmed] at stop
    exact ⟨first, rest, trimmed, stop⟩
  · have last := List.rdropWhile_last_not isBlank (trimFront text) filled
    exact ⟨_, _, (List.dropLast_concat_getLast filled).symm, Bool.eq_false_iff.mpr last⟩

theorem trim_intercalate_eq_nil_iff (lines : List (List Char)) :
    trim ([' '].intercalate lines) = [] ↔
      ∀ line ∈ lines, ∀ character ∈ line, isBlank character = true := by
  rw [trim_eq_nil_iff]
  induction lines with
  | nil => exact iff_of_true nofun nofun
  | cons line rest ih =>
      cases rest with
      | nil =>
          have single : [' '].intercalate [line] = line := List.append_nil line
          rw [single, List.forall_mem_singleton]
      | cons next others =>
          have joined : [' '].intercalate (line :: next :: others) =
              line ++ ' ' :: [' '].intercalate (next :: others) := rfl
          have blank : isBlank ' ' = true := by decide
          rw [joined, List.forall_mem_append, List.forall_mem_cons, and_iff_right blank, ih,
            List.forall_mem_cons (a := line)]

end PollHerald.Text
