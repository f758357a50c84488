import PollHerald.Cast

set_option autoImplicit false

/-! The channel between a poll loop and the one who works on its mentions. It holds a bounded number
of mentions, so that a slow receiver slows the loop down. -/

namespace PollHerald.Bot

structure Channel where
  capacity : Nat
  /-- The mentions that were handed over and not yet received, the oldest first. -/
  buffer : List Mention := []
  /-- Whether there still is a receiver. -/
  isOpen : Bool := true
  deriving DecidableEq, Repr

namespace Channel

def greatestCapacity : Nat := 2305843009213693951

def hasRoom (channel : Channel) : Bool :=
  channel.buffer.length < channel.capacity

def push (channel : Channel) (mention : Mention) : Channel :=
  { channel with buffer := channel.buffer ++ [mention] }

def pop (channel : Channel) : Channel :=
  { channel with buffer := channel.buffer.tail }

/-- Drops the receiver, and with it all that it has not received. -/
def close (channel : Channel) : Channel :=
  { channel with buffer := [], isOpen := false }

end Channel

end PollHerald.Bot
