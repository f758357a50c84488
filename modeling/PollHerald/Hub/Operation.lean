import PollHerald.Hub.Client

set_option autoImplicit false

/-! The operations of a hub client, one after another. Between two of them only the installed
identity is kept: an operation that installs an identity or lets it go changes what is kept, and no
other one does. -/

namespace PollHerald.Hub

inductive Operation where
  | useIdentity (fid : Fid) (key : String)
  | release
  | publish (draft : Draft)
  | reply (target : Mention) (draft : Draft)
  | lastMentions (since : Nat)
  | profile (fid : Fid)
  | castById (fid : Fid) (hash : String)

inductive Result where
  | done
  | batch (batch : Batch)
  | profile (profile : Profile)
  | mention (mention : Mention)
  deriving DecidableEq, Repr

/-- How an operation ended, with the identity that is installed after it. -/
structure Step where
  identity : Option Identity
  result : Except Failure Result

namespace Operation

def keeping {α : Type} (identity : Option Identity) (wrap : α → Result)
    (outcome : Except Error α) : Step :=
  match outcome with
  | .ok value => { identity, result := .ok (wrap value) }
  | .error error => { identity, result := .error (.hub error) }

def perform (identity : Option Identity) (now : Nat) : Operation → Dialogue Step
  | useIdentity fid key => do
    match ← (Hub.useIdentity fid key).run with
    | .ok installed => return { identity := some installed, result := .ok .done }
    | .error error => return { identity, result := .error (.hub error) }
  | release => do
    Hub.release identity
    return { identity := none, result := .ok .done }
  | publish draft =>
    return keeping identity (fun _ => .done) (← (Hub.publish identity now draft).run)
  | reply target draft =>
    return keeping identity (fun _ => .done) (← (Hub.reply identity now target draft).run)
  | lastMentions since => do
    match ← Hub.lastMentions identity since with
    | .ok batch => return { identity, result := .ok (.batch batch) }
    | .error failure => return { identity, result := .error failure }
  | profile fid => return keeping identity .profile (← (Hub.profile fid).run)
  | castById fid hash =>
    return keeping identity .mention (← (Hub.castById identity fid hash).run)

end Operation

end PollHerald.Hub
