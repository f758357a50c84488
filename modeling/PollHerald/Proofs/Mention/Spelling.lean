import PollHerald.Mention.Compose
import PollHerald.Proofs.Text.Bytes

set_option autoImplicit false

/-! One cast, written out with other names. The names stand behind `@` marks at the same places, so
the two texts are the same but for what is behind the marks. And whether the mentions fit into the
text does not depend on the names, as long as their offsets never go back. -/

namespace PollHerald

/-- Two outcomes that are alike: both succeed or both fail, and what they bring is alike. -/
inductive BothWays {ε α : Type} (failure : ε → ε → Prop) (success : α → α → Prop) :
    Except ε α → Except ε α → Prop where
  | ok {one other : α} (alike : success one other) :
      BothWays failure success (.ok one) (.ok other)
  | error {one other : ε} (alike : failure one other) :
      BothWays failure success (.error one) (.error other)

namespace BothWays

variable {ε α β : Type} {failure : ε → ε → Prop} {success : α → α → Prop}
variable {later : β → β → Prop} {one other : Except ε α}

theorem bind {next otherNext : α → Except ε β} (outcomes : BothWays failure success one other)
    (goesOn : ∀ found otherFound, success found otherFound →
      BothWays failure later (next found) (otherNext otherFound)) :
    BothWays failure later (one >>= next) (other >>= otherNext) := by
  cases outcomes with
  | ok alike => exact goesOn _ _ alike
  | error alike => exact .error alike

theorem map {change otherChange : α → β} (outcomes : BothWays failure success one other)
    (changes : ∀ found otherFound, success found otherFound →
      later (change found) (otherChange otherFound)) :
    BothWays failure later (one.map change) (other.map otherChange) := by
  cases outcomes with
  | ok alike => exact .ok (changes _ _ alike)
  | error alike => exact .error alike

theorem imp {weaker : α → α → Prop} (outcomes : BothWays failure success one other)
    (weakens : ∀ found otherFound, success found otherFound → weaker found otherFound) :
    BothWays failure weaker one other := by
  cases outcomes with
  | ok alike => exact .ok (weakens _ _ alike)
  | error alike => exact .error alike

end BothWays

namespace Mention

/-- Two texts that are the same but for names. A name stands behind an `@` and within a line. -/
inductive Respelled : List Char → List Char → Prop where
  | nil : Respelled [] []
  | same (character : Char) {one other : List Char} (later : Respelled one other) :
      Respelled (character :: one) (character :: other)
  | name {left right one other : List Char} (leftTame : '\n' ∉ left) (rightTame : '\n' ∉ right)
      (later : Respelled one other) :
      Respelled ('@' :: (left ++ one)) ('@' :: (right ++ other))

namespace Respelled

theorem refl (text : List Char) : Respelled text text := by
  induction text with
  | nil => exact .nil
  | cons character rest ih => exact .same character ih

theorem append_left {one other : List Char} (front : List Char) (later : Respelled one other) :
    Respelled (front ++ one) (front ++ other) := by
  induction front with
  | nil => exact later
  | cons character rest ih => exact .same character ih

end Respelled

/-- Whether a cut at an offset takes the same front off two texts, and leaves what is the same but
for names. There may also be no cut in either. -/
def CutAlike (one other : List Char) (offset : Nat) : Prop :=
  Option.Rel (fun cut otherCut => cut.1 = otherCut.1 ∧ Respelled cut.2 otherCut.2)
    (Text.cutAt offset one) (Text.cutAt offset other)

section Cut

variable {one other : List Char} {offset : Nat}

theorem cutAlike_refl (text : List Char) (offset : Nat) : CutAlike text text offset := by
  unfold CutAlike
  cases Text.cutAt offset text with
  | none => exact .none
  | some cut => exact .some ⟨rfl, .refl cut.2⟩

theorem cutAlike_of_front {front : List Char} (later : Respelled one other)
    (within : offset ≤ Text.byteLength front) :
    CutAlike (front ++ one) (front ++ other) offset := by
  unfold CutAlike
  rw [Text.cutAt_append_of_le within, Text.cutAt_append_of_le within]
  cases Text.cutAt offset front with
  | none => exact .none
  | some cut => exact .some ⟨rfl, later.append_left cut.2⟩

theorem CutAlike.both (alike : CutAlike one other offset) :
    Text.cutAt offset one = none ∧ Text.cutAt offset other = none ∨
      ∃ front back otherBack, Text.cutAt offset one = some (front, back) ∧
        Text.cutAt offset other = some (front, otherBack) ∧ Respelled back otherBack := by
  unfold CutAlike at alike
  generalize Text.cutAt offset one = cut at alike
  generalize Text.cutAt offset other = otherCut at alike
  cases alike with
  | none => exact .inl ⟨rfl, rfl⟩
  | @some cut otherCut alike =>
      obtain ⟨front, back⟩ := cut
      obtain ⟨otherFront, otherBack⟩ := otherCut
      obtain ⟨rfl, later⟩ := alike
      exact .inr ⟨front, back, otherBack, rfl, rfl, later⟩

end Cut

/-- A source that has a name for every account. -/
def spelledBy {ε : Type} (names : Fid → List Char) (fid : Fid) : Except ε (List Char) :=
  .ok (names fid)

/-- Compositions that both fail, or come to texts that are the same but for names. -/
abbrev ComposedAlike {ε : Type} (one other : Composed ε) : Prop :=
  BothWays (fun _ _ => True) Respelled one.outcome other.outcome

section Compose

variable {ε : Type} {names others : Fid → List Char} {own : Fid}

/-- Of the mentions that are left, none comes behind the last one that went in. There both texts are
still as they were. -/
theorem insertNames_alike (tame : ∀ fid, '\n' ∉ names fid) (othersTame : ∀ fid, '\n' ∉ others fid)
    {mentions : List (Fid × Nat)}
    (descending : mentions.Pairwise fun mention later => later.2 ≤ mention.2)
    {one other : List Char} (alike : Respelled one other)
    (cuts : ∀ mention ∈ mentions, CutAlike one other mention.2) :
    ComposedAlike (insertNames (spelledBy (ε := ε) names) own mentions one)
      (insertNames (spelledBy (ε := ε) others) own mentions other) := by
  induction mentions generalizing one other with
  | nil => exact .ok alike
  | cons mention rest ih =>
      obtain ⟨fid, offset⟩ := mention
      obtain ⟨bounded, descendingRest⟩ := List.pairwise_cons.mp descending
      obtain ⟨cut, cutsRest⟩ := List.forall_mem_cons.mp cuts
      by_cases left : isSuppressed own (fid, offset) = true
      · simp only [insertNames, left, if_true]
        exact ih descendingRest alike cutsRest
      · simp only [insertNames, left, Bool.false_eq_true, if_false]
        rcases cut.both with ⟨noCut, noOtherCut⟩ |
          ⟨front, back, otherBack, found, otherFound, later⟩
        · rw [noCut, noOtherCut]
          exact .error trivial
        · have atFront : Text.byteLength front = offset :=
            ((Text.cutAt_eq_some_iff _ _ _ _).mp found).2
          have named : Respelled ('@' :: (names fid ++ back))
              ('@' :: (others fid ++ otherBack)) :=
            .name (tame fid) (othersTame fid) later
          rw [found, otherFound]
          simp only [spelledBy, List.append_assoc]
          refine ih descendingRest (named.append_left front) ?_
          intro earlier member
          have within : earlier.2 ≤ Text.byteLength front := by
            rw [atFront]
            exact bounded earlier member
          exact cutAlike_of_front named within

theorem compose_alike (tame : ∀ fid, '\n' ∉ names fid) (othersTame : ∀ fid, '\n' ∉ others fid)
    {positions : List Nat} (ordered : positions.Pairwise (· ≤ ·)) (text : List Char)
    (mentions : List Fid) :
    ComposedAlike (compose (spelledBy (ε := ε) names) own text mentions positions)
      (compose (spelledBy (ε := ε) others) own text mentions positions) := by
  unfold compose
  split
  · rename_i fits
    have places : (mentions.zip positions).map Prod.snd = positions :=
      List.map_snd_zip (Nat.le_of_eq fits.symm)
    have descending : (mentions.zip positions).reverse.Pairwise
        fun mention later => later.2 ≤ mention.2 := by
      rw [List.pairwise_reverse]
      rw [← places] at ordered
      exact List.pairwise_map.mp ordered
    exact insertNames_alike tame othersTame descending (.refl text) fun _ _ => cutAlike_refl text _
  · exact .error trivial

end Compose

end Mention

end PollHerald
