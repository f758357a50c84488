set_option autoImplicit false

/-! The ways in which a poll command can be wrong. -/

namespace PollHerald.Poll

inductive Error where
  | questionNotSet
  | tooFewOptions (least found : Nat)
  | tooManyOptions (most : Nat)
  | durationParse (text : String)
  | durationOutOfRange (text : String)
  deriving DecidableEq, Repr

def Error.message : Error → String
  | .questionNotSet => "question not set"
  | .tooFewOptions least found => s!"too few options: at least {least} required, got {found}"
  | .tooManyOptions most => s!"too many options: at most {most} allowed"
  | .durationParse text => "cannot parse duration '" ++ text ++ "'"
  | .durationOutOfRange text => "duration '" ++ text ++ "' out of range"

end PollHerald.Poll
