import PollHerald.Clock

set_option autoImplicit false

/-! The turns between the two clocks. They are no inverses where a time is not after the hub's
epoch. The turn to hub time keeps the order on either side of the epoch, but not across it. All that
holds around a cursor is said here. -/

namespace PollHerald.Clock

theorem toUnix?_eq_some_iff (hub unix : Nat) :
    toUnix? hub = some unix ↔ unix = hub + epoch ∧ hub + epoch < Width.bound64 := by
  unfold toUnix?
  rw [Nat.add_comm epoch hub]
  split
  · rename_i fits
    simp only [Option.some.injEq, fits, and_true, eq_comm]
  · rename_i tooLate
    simp only [reduceCtorEq, tooLate, and_false]

theorem toUnix?_eq_none_iff (hub : Nat) :
    toUnix? hub = none ↔ Width.bound64 ≤ hub + epoch := by
  unfold toUnix?
  rw [Nat.add_comm epoch hub]
  split
  · rename_i fits
    simp only [reduceCtorEq, Nat.not_le_of_gt fits]
  · rename_i tooLate
    simp only [Nat.le_of_not_lt tooLate]

theorem toHub_of_late {unix : Nat} (late : epoch < unix) : toHub unix = unix - epoch := by
  rw [toHub, if_pos late]

theorem toHub_of_early {unix : Nat} (early : unix ≤ epoch) : toHub unix = unix := by
  rw [toHub, if_neg (Nat.not_lt.mpr early)]

theorem toHub_lt_iff (unix hub : Nat) :
    toHub unix < hub ↔ if epoch < unix then unix < hub + epoch else unix < hub := by
  by_cases late : epoch < unix
  · rw [toHub_of_late late, if_pos late]
    omega
  · rw [toHub_of_early (Nat.le_of_not_lt late), if_neg late]

theorem toHub_le_toHub {earlier later : Nat} (ordered : earlier ≤ later)
    (sameSide : later ≤ epoch ∨ epoch < earlier) : toHub earlier ≤ toHub later := by
  cases sameSide with
  | inl early =>
      rw [toHub_of_early early, toHub_of_early (Nat.le_trans ordered early)]
      exact ordered
  | inr late =>
      rw [toHub_of_late late, toHub_of_late (Nat.lt_of_lt_of_le late ordered)]
      exact Nat.sub_le_sub_right ordered epoch

/-- The hub's epoch itself is turned back into a zero, and no earlier time ever was. -/
theorem toHub_add_epoch {hub : Nat} (positive : 0 < hub) : toHub (hub + epoch) = hub := by
  rw [toHub, if_pos (Nat.lt_add_of_pos_left positive), Nat.add_sub_cancel]

theorem le_toHub {hub unix : Nat} (reached : hub + epoch ≤ unix) : hub ≤ toHub unix := by
  unfold toHub
  split
  · exact Nat.le_sub_of_add_le reached
  · exact Nat.le_trans (Nat.le_add_right hub epoch) reached

theorem lt_add_epoch {hub unix : Nat} (later : toHub unix < hub) : unix < hub + epoch := by
  unfold toHub at later
  split at later
  · omega
  · exact Nat.lt_add_right epoch later

end PollHerald.Clock
