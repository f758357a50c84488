import PollHerald.Hub.Request
import PollHerald.Journal

set_option autoImplicit false

/-! Work with a hub as a value. A dialogue either is done, or writes an entry into the journal, or
asks a request and goes on with the answer, whatever that is. So all that a piece of work can do is
seen without a hub. -/

namespace PollHerald.Hub

open Journal (Entry)

inductive Dialogue (α : Type) where
  | done (value : α)
  | note (entry : Entry) (next : Dialogue α)
  | ask (request : Request) (next : Answer → Dialogue α)

namespace Dialogue

variable {α β : Type}

def bind (first : Dialogue α) (next : α → Dialogue β) : Dialogue β :=
  match first with
  | .done value => next value
  | .note entry rest => .note entry (rest.bind next)
  | .ask request rest => .ask request fun answer => (rest answer).bind next

instance : Monad Dialogue where
  pure := .done
  bind := bind

def request (request : Request) : Dialogue Answer :=
  .ask request .done

def tell (entry : Entry) : Dialogue Unit :=
  .note entry (.done ())

structure Record (α : Type) where
  value : α
  exchanges : List Exchange
  entries : List Entry

/-- Runs a dialogue with a hub. The answer may depend on all exchanges before the request, the
latest of which is first in `past`. -/
def run (hub : List Exchange → Request → Answer) (past : List Exchange) : Dialogue α → Record α
  | .done value => { value, exchanges := [], entries := [] }
  | .note entry rest =>
    let record := rest.run hub past
    { record with entries := entry :: record.entries }
  | .ask request rest =>
    let exchange : Exchange := { request, answer := hub past request }
    let record := (rest exchange.answer).run hub (exchange :: past)
    { record with exchanges := exchange :: record.exchanges }

end Dialogue

abbrev Task (α : Type) := ExceptT Error Dialogue α

end PollHerald.Hub
