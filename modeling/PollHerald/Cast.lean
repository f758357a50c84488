set_option autoImplicit false

/-! What the network holds and what is sent to it: casts, the mentions read from them, the drafts
of new casts, and the profiles of users. -/

namespace PollHerald

/-- The number of an account. Readers admit numbers below 2^64. -/
abbrev Fid := Nat

structure CastId where
  fid : Fid
  hash : List UInt8
  deriving DecidableEq, Repr

/-- A cast that may mention the bot, with its text written out for people. -/
structure Mention where
  /-- Whether the cast mentions the bot's own account. -/
  isMention : Bool
  /-- The text with every mentioned account written as `@name`. -/
  text : String
  author : Fid
  /-- The message hash as the hub writes it, `0x` and base 16. -/
  hash : String
  /-- Seconds on the hub's clock. -/
  timestamp : Nat
  /-- The cast that this one answers. -/
  parent : Option CastId
  deriving DecidableEq, Repr

/-- A cast to be published. Every `@name` token in the text has one account in `mentions`, in the
same order. -/
structure Draft where
  text : String
  mentions : List Fid := []
  embeds : List String := []
  parent : Option CastId := none
  deriving DecidableEq, Repr

/-- What a hub knows of a user. Both lists are ascending and without repetition. -/
structure Profile where
  fid : Fid
  username : String
  custodyAddress : String
  verificationAddresses : List String
  signers : List String
  deriving DecidableEq, Repr

end PollHerald
