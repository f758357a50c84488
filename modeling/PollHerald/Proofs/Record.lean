import PollHerald.Record

set_option autoImplicit false

/-! What a record takes from its members. Where every member has a proper name and no field is given
twice, each field gets the value that stands under one of its names, wherever that member is and
whatever else is there. -/

namespace PollHerald.Record

variable {ν : Type}

/-- Whether a name is one of the given ones. -/
def isAmong (names : List String) (name : List Char) : Bool :=
  names.any fun known => known.toList == name

/-- The values of the members that go by one of the given names. -/
def given (names : List String) : List (Option (List Char) × ν) → List ν
  | [] => []
  | (some name, value) :: rest =>
    if isAmong names name then value :: given names rest else given names rest
  | (none, _) :: rest => given names rest

/-- Fields of which no two share a name. -/
def Distinct (fields : List Field) : Prop :=
  fields.Pairwise fun one other => ∀ name ∈ one.names, name ∉ other.names

instance (fields : List Field) : Decidable (Distinct fields) :=
  inferInstanceAs (Decidable (fields.Pairwise _))

/-- What each field has, first what was found for it and then what members give it. -/
def gathered : List Field → List (Option ν) → List (Option (List Char) × ν) → List (List ν)
  | field :: fields, value :: found, members =>
    (value.toList ++ given field.names members) :: gathered fields found members
  | _, _, _ => []

theorem given_of_isAmong {names : List String} {name : List Char}
    (known : isAmong names name = true) (value : ν) (rest : List (Option (List Char) × ν)) :
    given names ((some name, value) :: rest) = value :: given names rest :=
  if_pos known

theorem given_of_not_isAmong {names : List String} {name : List Char}
    (unknown : isAmong names name = false) (value : ν) (rest : List (Option (List Char) × ν)) :
    given names ((some name, value) :: rest) = given names rest :=
  if_neg (Bool.eq_false_iff.mp unknown)

/-- A member is passed over by the fields that do not know its name. -/
theorem gathered_of_unknown {fields : List Field} {name : List Char}
    (unknown : ∀ field ∈ fields, isAmong field.names name = false) (found : List (Option ν))
    (value : ν) (rest : List (Option (List Char) × ν)) :
    gathered fields found ((some name, value) :: rest) = gathered fields found rest := by
  induction fields generalizing found with
  | nil => rfl
  | cons field fields ih =>
      obtain ⟨first, later⟩ := List.forall_mem_cons.mp unknown
      cases found with
      | nil => rfl
      | cons value found => rw [gathered, gathered, given_of_not_isAmong first, ih later]

/-- No field knows a name of another one. -/
theorem unknown_to_others {field : Field} {fields : List Field} {name : List Char}
    (distinct : ∀ other ∈ fields, ∀ own ∈ field.names, own ∉ other.names)
    (known : isAmong field.names name = true) :
    ∀ other ∈ fields, isAmong other.names name = false := by
  obtain ⟨own, isOwn, spells⟩ := List.any_eq_true.mp known
  intro other isOther
  apply Bool.eq_false_iff.mpr
  intro shared
  obtain ⟨foreign, isForeign, spellsToo⟩ := List.any_eq_true.mp shared
  have same : own = foreign :=
    String.toList_inj.mp ((eq_of_beq spells).trans (eq_of_beq spellsToo).symm)
  exact distinct other isOther own isOwn (same ▸ isForeign)

/-- A member that goes into the place of its field changes nothing in what the fields have. -/
theorem gathered_set {fields : List Field} (distinct : Distinct fields) {name : List Char}
    {index : Nat} (position : index? fields name = some index) {found : List (Option ν)}
    (sameLength : found.length = fields.length) {value : ν} {rest : List (Option (List Char) × ν)}
    (single : ∀ values ∈ gathered fields found ((some name, value) :: rest), values.length ≤ 1) :
    found[index]? = some none ∧
      gathered fields (found.set index (some value)) rest =
        gathered fields found ((some name, value) :: rest) := by
  induction fields generalizing found index with
  | nil => cases position
  | cons field fields ih =>
      obtain ⟨apart, distinctLater⟩ := List.pairwise_cons.mp distinct
      cases found with
      | nil => cases sameLength
      | cons first found =>
          obtain ⟨singleFirst, singleLater⟩ := List.forall_mem_cons.mp single
          -- The member belongs to the first field, or to a later one and passes the first.
          rw [index?, List.findIdx?_cons] at position
          split at position
          · rename_i known
            cases position
            rw [given_of_isAmong known] at singleFirst
            cases first with
            | some value =>
                simp only [Option.toList_some, List.length_append, List.length_cons] at singleFirst
                omega
            | none =>
                refine ⟨rfl, ?_⟩
                rw [List.set_cons_zero, gathered, gathered, given_of_isAmong known,
                  gathered_of_unknown (unknown_to_others apart known)]
                rfl
          · rename_i unknown
            obtain ⟨earlier, positionLater, rfl⟩ := Option.map_eq_some_iff.mp position
            obtain ⟨free, keeps⟩ := ih distinctLater positionLater (Nat.succ.inj sameLength)
              singleLater
            refine ⟨free, ?_⟩
            rw [List.set_cons_succ, gathered, gathered, keeps,
              given_of_not_isAmong (Bool.eq_false_iff.mpr unknown)]

theorem gathered_done {fields : List Field} {found : List (Option ν)}
    (sameLength : found.length = fields.length) :
    (gathered fields found []).map List.head? = found := by
  induction fields generalizing found with
  | nil => rw [List.eq_nil_of_length_eq_zero sameLength]; rfl
  | cons field fields ih =>
      cases found with
      | nil => cases sameLength
      | cons first found =>
          rw [gathered, List.map_cons, ih (Nat.succ.inj sameLength)]
          cases first <;> rfl

theorem fill_eq_some {fields : List Field} (distinct : Distinct fields)
    {members : List (Option (List Char) × ν)}
    (named : ∀ member ∈ members, member.1.isSome = true) {found : List (Option ν)}
    (sameLength : found.length = fields.length)
    (single : ∀ values ∈ gathered fields found members, values.length ≤ 1) :
    fill fields found members = some ((gathered fields found members).map List.head?) := by
  induction members generalizing found with
  | nil => rw [fill, gathered_done sameLength]
  | cons member rest ih =>
      obtain ⟨proper, properLater⟩ := List.forall_mem_cons.mp named
      obtain ⟨_ | name, value⟩ := member
      · cases proper
      · cases position : index? fields name with
        | none =>
            have unknown := List.findIdx?_eq_none_iff.mp position
            have passes := gathered_of_unknown unknown found value rest
            rw [passes] at single ⊢
            simp only [fill, position]
            exact ih properLater sameLength single
        | some index =>
            obtain ⟨free, keeps⟩ := gathered_set distinct position sameLength single
            rw [← keeps] at single ⊢
            simp only [fill, position, free]
            apply ih properLater _ single
            rw [List.length_set, sameLength]

theorem gathered_none (fields : List Field) (members : List (Option (List Char) × ν)) :
    gathered fields (fields.map fun _ => none) members =
      fields.map fun field => given field.names members := by
  induction fields with
  | nil => rfl
  | cons field fields ih => rw [List.map_cons, gathered, ih]; rfl

/-- Each field has the value that is given under its names. -/
theorem ofMembers_eq_some {fields : List Field} (distinct : Distinct fields)
    {members : List (Option (List Char) × ν)}
    (named : ∀ member ∈ members, member.1.isSome = true)
    (single : ∀ field ∈ fields, (given field.names members).length ≤ 1) :
    ofMembers fields members =
      some (fields.map fun field => (given field.names members).head?) := by
  have fits : ∀ values ∈ gathered fields (fields.map fun _ => none) members,
      values.length ≤ 1 := by
    rw [gathered_none]
    exact List.forall_mem_map.mpr single
  have fills := fill_eq_some distinct named (List.length_map _) fits
  rw [gathered_none, List.map_map] at fills
  exact fills

end PollHerald.Record
