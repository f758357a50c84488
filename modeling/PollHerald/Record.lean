set_option autoImplicit false

/-! Records in documents. A record is written by named members in any order, of which unknown ones
are passed over, or as a list of its fields in order. A field may go by several names, but may be
given only once. The values, of type `ν`, are those of the document's format. -/

namespace PollHerald.Record

structure Field where
  names : List String
  /-- Whether a list may end before the field. -/
  hasDefault : Bool

variable {ν α : Type}

def index? (fields : List Field) (name : List Char) : Option Nat :=
  fields.findIdx? fun field => field.names.any fun known => known.toList == name

/-- Puts members into the places of their fields. A member without a proper name is refused, and so
is a second value for a field. -/
def fill (fields : List Field) (found : List (Option ν)) :
    List (Option (List Char) × ν) → Option (List (Option ν))
  | [] => some found
  | (none, _) :: _ => none
  | (some name, value) :: rest =>
    match index? fields name with
    | none => fill fields found rest
    | some index =>
      match found[index]? with
      | some none => fill fields (found.set index (some value)) rest
      | _ => none

def ofMembers (fields : List Field) (members : List (Option (List Char) × ν)) :
    Option (List (Option ν)) :=
  fill fields (fields.map fun _ => none) members

/-- The values of the fields that a list gives. Only fields with a default may be missing at its
end, and nothing may follow the last field. -/
def ofItems : List Field → List ν → Option (List (Option ν))
  | [], [] => some []
  | [], _ :: _ => none
  | fields, [] =>
    if fields.all Field.hasDefault then some (fields.map fun _ => none) else none
  | _ :: fields, item :: items => (ofItems fields items).map (some item :: ·)

def orDefault (default : α) (read : ν → Option α) : Option ν → Option α
  | none => some default
  | some value => read value

def required (read : ν → Option α) : Option ν → Option α
  | none => none
  | some value => read value

end PollHerald.Record
