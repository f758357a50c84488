import PollHerald.Bot.Rehearsal
import PollHerald.Proofs.Bot.Lifetime
import PollHerald.Proofs.Bot.Machine

set_option autoImplicit false

/-! The stream of mentions from the polls of a loop to its receiver. While there is a receiver, what
a loop still owes it, in the channel or in the batch at hand, makes up for the difference between
what the polls brought and what was received. -/

namespace PollHerald.Bot

/-- What a move brings to a loop: a batch, if it takes one in. -/
def Move.brings (index : Nat) : Move → List Mention
  | .loop other (.take result) => if other = index then PollResult.mentions result else []
  | _ => []

/-- What the receiver of a loop gets in a move. -/
def Move.yields (index : Nat) (bot : Bot) : Move → List Mention
  | .receive other => if other = index then (bot.next? other).toList else []
  | _ => []

def brought (index : Nat) (moves : List Move) : List Mention :=
  moves.flatMap (Move.brings index)

/-- All that the receiver of a loop gets while the moves are made. -/
def received (index : Nat) (bot : Bot) : List Move → List Mention
  | [] => []
  | move :: rest =>
    move.yields index bot ++
      match bot.step move with
      | none => []
      | some next => received index next rest

def Loop.owed (loop : Loop) : List Mention :=
  loop.channel.buffer ++ loop.phase.unsent

/-- What a loop has not yet handed out, where it was ever started. -/
def owed (bot : Bot) (index : Nat) : List Mention :=
  ((bot.loop? index).map Loop.owed).getD []

/-- A loop whose receiver is there, with a buffer that is within its bounds. -/
structure Loop.Served (capacity : Nat) (loop : Loop) : Prop where
  isOpen : loop.channel.isOpen = true
  size : loop.channel.capacity = capacity
  fits : loop.channel.buffer.length ≤ capacity

section Moves

variable {bot next : Bot} {index capacity : Nat} {move : Bot.Move} {moves : List Bot.Move}
variable {loop : Loop}

theorem Loop.Served.of_sees {cursor : Nat} {after : Loop} (served : loop.Served capacity)
    (sees : Sees index cursor loop move after) (kept : move ≠ .drop index) :
    after.Served capacity := by
  cases sees with
  | move steps =>
      cases steps with
      | send sending isOpen hasRoom =>
          have room : loop.channel.buffer.length < loop.channel.capacity :=
            of_decide_eq_true hasRoom
          refine ⟨served.isOpen, served.size, ?_⟩
          rw [served.size] at room
          simp only [Channel.push, List.length_append, List.length_singleton]
          exact room
      | _ => exact ⟨served.isOpen, served.size, served.fits⟩
  | receive filled =>
      refine ⟨served.isOpen, served.size, ?_⟩
      simp only [Channel.pop, List.length_tail]
      exact Nat.le_trans (Nat.sub_le _ _) served.fits
  | drop => exact absurd rfl kept
  | signal call => exact ⟨served.isOpen, served.size, served.fits⟩
  | nothing elsewhere => exact served

/-- Whether all that a bot has at a number, if anything, is a loop with a receiver. -/
def Serves (bot : Bot) (index : Nat) : Prop :=
  ∀ loop, bot.loop? index = some loop → loop.Served bot.capacity

theorem Serves.step (serves : bot.Serves index) (stepped : bot.step move = some next)
    (kept : move ≠ .drop index) : next.Serves index := by
  intro after foundAfter
  rw [capacity_of_step stepped]
  -- The loop may also be the one that this move starts.
  cases found : bot.loop? index with
  | none =>
      obtain ⟨_, rfl⟩ := new_loop_of_step stepped found foundAfter
      exact ⟨rfl, rfl, Nat.zero_le _⟩
  | some loop =>
      obtain ⟨_, same, sees⟩ := sees_of_step stepped found
      cases same.symm.trans foundAfter
      exact (serves loop found).of_sees sees kept

theorem owed_of_loop (found : bot.loop? index = some loop) : bot.owed index = loop.owed := by
  rw [owed, found]
  rfl

theorem owed_of_none (absent : bot.loop? index = none) : bot.owed index = [] := by
  rw [owed, absent]
  rfl

theorem yields_receive (found : bot.loop? index = some loop) :
    Bot.Move.yields index bot (.receive index) = loop.channel.buffer.head?.toList := by
  rw [Bot.Move.yields, if_pos rfl, next?, found]
  rfl

theorem brings_of_elsewhere (elsewhere : move.index? ≠ some index) : move.brings index = [] := by
  cases move with
  | loop other loopMove =>
      cases loopMove with
      | take result => exact if_neg fun same => elsewhere (congrArg some same)
      | _ => rfl
  | _ => rfl

theorem yields_of_elsewhere (elsewhere : move.index? ≠ some index) :
    move.yields index bot = [] := by
  cases move with
  | receive other => exact if_neg fun same => elsewhere (congrArg some same)
  | _ => rfl

/-- What comes in with a move goes out with it or is owed from then on. -/
theorem owed_of_sees {after : Loop} (found : bot.loop? index = some loop)
    (served : loop.Served capacity) (sees : Sees index bot.cursor loop move after)
    (kept : move ≠ .drop index) :
    loop.owed ++ move.brings index = move.yields index bot ++ after.owed := by
  cases sees with
  | move steps =>
      cases steps with
      | heed resting told =>
          have before : loop.phase.unsent = [] := by rw [resting]; rfl
          simp only [Loop.owed, before, Bot.Move.brings, List.append_nil]
          exact (List.append_nil _).symm
      | tick resting untold =>
          have before : loop.phase.unsent = [] := by rw [resting]; rfl
          simp only [Loop.owed, before, Bot.Move.brings, List.append_nil]
          exact (List.append_nil _).symm
      | poll ticked =>
          have before : loop.phase.unsent = [] := by rw [ticked]; rfl
          simp only [Loop.owed, before, Bot.Move.brings, List.append_nil]
          exact (List.append_nil _).symm
      | take polling =>
          have before : loop.phase.unsent = [] := by rw [polling]; rfl
          simp only [Loop.owed, before, Loop.unsent_phaseAfter, Bot.Move.brings, Bot.Move.yields,
            if_true, List.append_nil, List.nil_append]
      | abandon sending closed => cases served.isOpen.symm.trans closed
      | @send first rest sending isOpen hasRoom =>
          have before : loop.phase.unsent = first :: rest := by rw [sending]; rfl
          simp only [Loop.owed, before, Channel.push, Phase.unsent_handingOver, Bot.Move.brings,
            Bot.Move.yields, List.append_assoc, List.singleton_append, List.append_nil,
            List.nil_append]
  | receive filled =>
      rw [yields_receive found]
      simp only [Loop.owed, Channel.pop, Bot.Move.brings, List.append_nil]
      cases buffer : loop.channel.buffer with
      | nil => exact absurd buffer filled
      | cons oldest others => rfl
  | drop => exact absurd rfl kept
  | signal call => exact List.append_nil _
  | nothing elsewhere =>
      rw [brings_of_elsewhere elsewhere, yields_of_elsewhere elsewhere, List.append_nil,
        List.nil_append]

theorem owed_of_step (serves : bot.Serves index) (stepped : bot.step move = some next)
    (kept : move ≠ .drop index) :
    bot.owed index ++ move.brings index = move.yields index bot ++ next.owed index := by
  cases found : bot.loop? index with
  | some loop =>
      obtain ⟨after, foundAfter, sees⟩ := sees_of_step stepped found
      rw [owed_of_loop found, owed_of_loop foundAfter]
      exact owed_of_sees found (serves loop found) sees kept
  | none =>
      have elsewhere := index?_ne_of_absent stepped found
      have nothingNew : next.owed index = [] := by
        cases foundNext : next.loop? index with
        | none => exact owed_of_none foundNext
        | some loop =>
            obtain ⟨_, rfl⟩ := new_loop_of_step stepped found foundNext
            exact owed_of_loop foundNext
      rw [brings_of_elsewhere elsewhere, yields_of_elsewhere elsewhere, owed_of_none found,
        nothingNew]

/-- What is brought during a run is received in it or owed at its end, in the same order. -/
theorem owed_of_run (serves : bot.Serves index) (reached : bot.run moves = some next)
    (kept : .drop index ∉ moves) :
    next.Serves index ∧
      bot.owed index ++ brought index moves = received index bot moves ++ next.owed index := by
  induction moves generalizing bot with
  | nil =>
      cases reached
      exact ⟨serves, List.append_nil _⟩
  | cons move rest ih =>
      obtain ⟨middle, stepped, reached⟩ := Option.bind_eq_some_iff.mp reached
      have keptNow : move ≠ .drop index := fun same => kept (same ▸ List.mem_cons_self)
      have keptLater : .drop index ∉ rest := fun member => kept (List.mem_cons_of_mem _ member)
      obtain ⟨servesNext, balance⟩ := ih (serves.step stepped keptNow) reached keptLater
      refine ⟨servesNext, ?_⟩
      have first := owed_of_step serves stepped keptNow
      calc bot.owed index ++ brought index (move :: rest)
          = (bot.owed index ++ move.brings index) ++ brought index rest := by
            rw [brought, List.flatMap_cons, List.append_assoc, brought]
        _ = move.yields index bot ++ (middle.owed index ++ brought index rest) := by
            rw [first, List.append_assoc]
        _ = received index bot (move :: rest) ++ next.owed index := by
            rw [balance, received, stepped, List.append_assoc]

end Moves

section Stop

variable {capacity index : Nat} {identity : Option Fid} {moves earlier later : List Move}
variable {bot stopping : Bot} {loop : Loop}

/-- The receiver of a loop that has ended gets what is left, and then the end of the stream. -/
theorem Rehearsal.receive_of_ended {rehearsal : Rehearsal}
    (found : rehearsal.bot.loop? index = some loop) (isOpen : loop.channel.isOpen = true)
    (ended : loop.phase.hasEnded = true) (limit : Nat) :
    (rehearsal.receive index limit).2 = match loop.channel.buffer with
      | [] => .closed
      | next :: _ => .received next := by
  have ready : canReceive index rehearsal.bot = true := by
    simp only [canReceive, found, Option.any_some, ended, Bool.or_true]
  have next : rehearsal.bot.next? index = loop.channel.buffer.head? := by
    rw [next?, found, Option.bind_some]
  simp only [receive, found, isOpen, ready, next, Bool.not_true, Bool.false_eq_true, if_false,
    if_true]
  cases loop.channel.buffer with
  | nil => rfl
  | cons next rest => rfl

/-- A loop loses nothing that it was brought, as long as there is a receiver. What was received, what
the channel holds and what is left of the batch at hand are all that the polls brought, in order. The
channel stays within its bounds, and no poll begins before the batch at hand is done with. Where a
call to stop took effect, nothing is left but what the channel holds, and behind that the receiver
gets the end of the stream. -/
theorem run_loses_nothing (reached : (Bot.new capacity identity).run moves = some bot)
    (found : bot.loop? index = some loop) (kept : .drop index ∉ moves) :
    (received index (.new capacity identity) moves ++ loop.channel.buffer ++ loop.phase.unsent =
        brought index moves) ∧
      loop.channel.buffer.length ≤ max capacity 1 ∧
      (∀ next, bot.step (.loop index .tick) = some next ∨
        bot.step (.loop index .poll) = some next → loop.phase.unsent = []) ∧
      ∀ earlier later stopping, moves = earlier ++ .finish :: later →
        (Bot.new capacity identity).run earlier = some stopping →
        stopping.waiting = some .stop → index < stopping.loops.length →
        received index (.new capacity identity) moves ++ loop.channel.buffer =
            brought index moves ∧
          loop.phase.hasEnded = true ∧
          ∀ (rehearsal : Rehearsal) (limit : Nat), rehearsal.bot = bot →
            (rehearsal.receive index limit).2 = match loop.channel.buffer with
              | [] => .closed
              | next :: _ => .received next := by
  have fresh : (Bot.new capacity identity).Serves index := nofun
  obtain ⟨serves, balance⟩ := owed_of_run fresh reached kept
  have served := serves loop found
  have nothingOwed : (Bot.new capacity identity).owed index = [] := owed_of_none rfl
  rw [nothingOwed, List.nil_append, owed_of_loop found, Loop.owed, ← List.append_assoc] at balance
  refine ⟨balance.symm, ?_, ?_, ?_⟩
  · rw [← show bot.capacity = max capacity 1 from capacity_of_run reached]
    exact served.fits
  · rintro next (ticks | polls)
    · obtain ⟨_, _, sees⟩ := sees_of_step ticks found
      cases sees with
      | move steps =>
          cases steps with
          | tick resting untold =>
              rw [resting]
              rfl
      | nothing elsewhere => exact absurd rfl elsewhere
    · obtain ⟨_, _, sees⟩ := sees_of_step polls found
      cases sees with
      | move steps =>
          cases steps with
          | poll ticked =>
              rw [ticked]
              rfl
      | nothing elsewhere => exact absurd rfl elsewhere
  · rintro earlier later stopping rfl before stops there
    rw [Bot.run, List.foldlM_append] at reached
    obtain ⟨middle, reachedMiddle, after⟩ := Option.bind_eq_some_iff.mp reached
    cases before.symm.trans reachedMiddle
    have ended := ended_of_finish before there after found
    have nothingLeft : loop.phase.unsent = [] := by
      cases phase : loop.phase with
      | ended ending => rfl
      | _ =>
          rw [phase] at ended
          cases ended
    rw [nothingLeft, List.append_nil] at balance
    refine ⟨balance.symm, ended, fun rehearsal limit same => ?_⟩
    cases same
    exact Rehearsal.receive_of_ended found served.isOpen ended limit

end Stop

/-- A mention of which only the time matters. -/
def mentionAt (time : Nat) : Mention :=
  { isMention := true, text := "", author := 9, hash := "0x01", timestamp := time, parent := none }

/-- A batch of three mentions for a channel that holds one, with a call to stop after the second. -/
def crowdedMoves : List Move :=
  [.begin (.start 0), .finish, .loop 0 .tick, .loop 0 .poll,
    .loop 0 (.take (.ok { mentions := [mentionAt 1, mentionAt 2, mentionAt 3], next := 4 })),
    .loop 0 .send, .receive 0, .loop 0 .send, .begin .stop, .receive 0, .loop 0 .send,
    .loop 0 .heed, .finish]

theorem crowdedMoves_lose_nothing :
    ∃ bot loop, (Bot.new 1 (some 7)).run crowdedMoves = some bot ∧ bot.loop? 0 = some loop ∧
      received 0 (.new 1 (some 7)) crowdedMoves = [mentionAt 1, mentionAt 2] ∧
      loop.channel.buffer = [mentionAt 3] ∧
      received 0 (.new 1 (some 7)) crowdedMoves ++ loop.channel.buffer =
        brought 0 crowdedMoves ∧
      (Rehearsal.receive 0 5 { bot, cooldown := 1 }).2 = .received (mentionAt 3) := by
  obtain ⟨bot, loop, reached, found, got, left⟩ : ∃ bot loop,
      (Bot.new 1 (some 7)).run crowdedMoves = some bot ∧ bot.loop? 0 = some loop ∧
      received 0 (.new 1 (some 7)) crowdedMoves = [mentionAt 1, mentionAt 2] ∧
      loop.channel.buffer = [mentionAt 3] :=
    ⟨_, _, rfl, rfl, rfl, rfl⟩
  obtain ⟨stopping, before, stops, there⟩ : ∃ stopping,
      (Bot.new 1 (some 7)).run (crowdedMoves.take 12) = some stopping ∧
      stopping.waiting = some .stop ∧ 0 < stopping.loops.length :=
    ⟨_, rfl, rfl, by decide⟩
  have kept : Move.drop 0 ∉ crowdedMoves := by
    simp only [crowdedMoves, List.mem_cons, List.not_mem_nil, reduceCtorEq, or_self,
      not_false_eq_true]
  obtain ⟨_, _, _, stopped⟩ := run_loses_nothing reached found kept
  obtain ⟨balance, _, receives⟩ := stopped (crowdedMoves.take 12) [] stopping rfl before stops there
  refine ⟨bot, loop, reached, found, got, left, balance, ?_⟩
  rw [receives { bot, cooldown := 1 } 5 rfl, left]

end PollHerald.Bot
