set_option autoImplicit false

/-! Lines of a text. A line ends at a line feed, and a carriage return directly before the line
feed belongs to the line's end. A last line without a line feed is kept as it stands. -/

namespace PollHerald.Text

def dropReturn (line : List Char) : List Char :=
  if line.getLast? = some '\r' then line.dropLast else line

/-- The lines of a text; `current` holds the part of the current line already read, last character
first. -/
private def linesFrom (current : List Char) : List Char → List (List Char)
  | [] => if current.isEmpty then [] else [current.reverse]
  | character :: rest =>
    if character = '\n' then
      dropReturn current.reverse :: linesFrom [] rest
    else
      linesFrom (character :: current) rest

/-- The lines of a text without their ends. The empty text has no line. -/
def lines (text : List Char) : List (List Char) :=
  linesFrom [] text

private theorem linesFrom_eq (current text : List Char) :
    ∃ ended last, text.splitOnPPrepend (· == '\n') current = ended ++ [last] ∧
      linesFrom current text = ended.map dropReturn ++ if last.isEmpty then [] else [last] := by
  induction text generalizing current with
  | nil =>
      refine ⟨[], current.reverse, List.splitOnPPrepend_nil, ?_⟩
      simp only [linesFrom, List.isEmpty_reverse, List.map_nil, List.nil_append]
  | cons character rest ih =>
      by_cases feed : character = '\n'
      · obtain ⟨ended, last, split, lines⟩ := ih []
        refine ⟨current.reverse :: ended, last, ?_, ?_⟩
        · rw [List.splitOnPPrepend_cons_eq_if, if_pos (beq_iff_eq.mpr feed),
            ← List.splitOnPPrepend_nil_right, split, List.cons_append]
        · simp only [linesFrom, if_pos feed, lines, List.map_cons, List.cons_append]
      · obtain ⟨ended, last, split, lines⟩ := ih (character :: current)
        refine ⟨ended, last, ?_, ?_⟩
        · rw [List.splitOnPPrepend_cons_eq_if, if_neg (mt beq_iff_eq.mp feed), split]
        · simp only [linesFrom, if_neg feed, lines]

/-- A text is cut at its line feeds. Only what stands behind the last one may be no line. -/
theorem lines_eq (text : List Char) :
    ∃ ended last, text.splitOn '\n' = ended ++ [last] ∧
      lines text = ended.map dropReturn ++ if last.isEmpty then [] else [last] :=
  linesFrom_eq [] text

end PollHerald.Text
