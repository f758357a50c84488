import PollHerald.Json.Reader
import PollHerald.Proofs.Json.Strict

set_option autoImplicit false

/-! How values are written. A text writes a value if it lays out the tokens of the value, its items
and members in order. Every such text is read as that value, however deep its arrays and objects
are, and no other text is. -/

namespace PollHerald.Json

mutual

/-- The tokens that write a value. -/
def Value.tokens : Value → List Token
  | .null => [.null]
  | .truth value => [.truth value]
  | .number digits => [.number digits]
  | .string content => [.string content]
  | .array [] => [.openArray, .closeArray]
  | .array (item :: items) => .openArray :: (item.tokens ++ (itemsTokens items ++ [.closeArray]))
  | .object [] => [.openObject, .closeObject]
  | .object ((name, value) :: members) =>
    .openObject :: .string name :: .colon ::
      (value.tokens ++ (membersTokens members ++ [.closeObject]))

/-- The tokens of the items after the first. -/
def itemsTokens : List Value → List Token
  | [] => []
  | item :: items => .comma :: (item.tokens ++ itemsTokens items)

/-- The tokens of the members after the first. -/
def membersTokens : List (Content × Value) → List Token
  | [] => []
  | (name, value) :: members =>
    .comma :: .string name :: .colon :: (value.tokens ++ membersTokens members)

end

/-- The texts that write a value, with any blanks between the tokens and any spelling of each. -/
def Value.Written (value : Value) (text : String) : Prop :=
  Laid value.tokens text.toList

/-! ### Numbers in values -/

theorem apart_cons {token : Token} (noNumber : token.isNumber = false) {rest : List Token}
    (apart : Apart rest) : Apart (token :: rest) := by
  constructor
  · intro isNumber
    cases noNumber.symm.trans isNumber
  · exact apart

/-- No number comes first among tokens. -/
def StartsApart (tokens : List Token) : Prop :=
  ∀ next ∈ tokens.head?, next.isNumber = false

theorem startsApart_cons {token : Token} (noNumber : token.isNumber = false) (rest : List Token) :
    StartsApart (token :: rest) := by
  rintro _ ⟨⟩
  exact noNumber

mutual

/-- In a value, a comma or a bracket follows on every number. -/
theorem apart_tokens (value : Value) {rest : List Token} (starts : StartsApart rest)
    (apart : Apart rest) : Apart (value.tokens ++ rest) := by
  match value with
  | .null => exact apart_cons rfl apart
  | .truth _ => exact apart_cons rfl apart
  | .number _ => exact ⟨fun _ => starts, apart⟩
  | .string _ => exact apart_cons rfl apart
  | .array [] => exact apart_cons rfl (apart_cons rfl apart)
  | .array (item :: items) =>
      have closes : Apart (.closeArray :: rest) := apart_cons rfl apart
      have later := apart_itemsTokens items (startsApart_cons rfl rest) closes
      have first := apart_tokens item later.1 later.2
      simp only [Value.tokens, List.cons_append, List.append_assoc, List.nil_append]
      exact apart_cons rfl first
  | .object [] => exact apart_cons rfl (apart_cons rfl apart)
  | .object ((name, value) :: members) =>
      have closes : Apart (.closeObject :: rest) := apart_cons rfl apart
      have later := apart_membersTokens members (startsApart_cons rfl rest) closes
      have first := apart_tokens value later.1 later.2
      simp only [Value.tokens, List.cons_append, List.append_assoc, List.nil_append]
      exact apart_cons rfl (apart_cons rfl (apart_cons rfl first))

theorem apart_itemsTokens (items : List Value) {rest : List Token} (starts : StartsApart rest)
    (apart : Apart rest) :
    StartsApart (itemsTokens items ++ rest) ∧ Apart (itemsTokens items ++ rest) := by
  match items with
  | [] => exact ⟨starts, apart⟩
  | item :: items =>
      have later := apart_itemsTokens items starts apart
      have first := apart_tokens item later.1 later.2
      simp only [itemsTokens, List.cons_append, List.append_assoc]
      exact ⟨startsApart_cons rfl _, apart_cons rfl first⟩

theorem apart_membersTokens (members : List (Content × Value)) {rest : List Token}
    (starts : StartsApart rest) (apart : Apart rest) :
    StartsApart (membersTokens members ++ rest) ∧ Apart (membersTokens members ++ rest) := by
  match members with
  | [] => exact ⟨starts, apart⟩
  | (name, value) :: members =>
      have later := apart_membersTokens members starts apart
      have first := apart_tokens value later.1 later.2
      simp only [membersTokens, List.cons_append, List.append_assoc]
      exact ⟨startsApart_cons rfl _, apart_cons rfl (apart_cons rfl (apart_cons rfl first))⟩

end

/-! ### Reading the tokens -/

/-- Reads tokens from a place on. -/
def Place.run (place : Place) (tokens : List Token) : Option Place :=
  tokens.foldlM Place.step place

theorem Place.run_cons (place : Place) (token : Token) (rest : List Token) :
    place.run (token :: rest) = (place.step token).bind fun next => next.run rest :=
  List.foldlM_cons

/-- No value begins with the end of an array. -/
theorem tokens_head (value : Value) :
    ∃ token others, value.tokens = token :: others ∧ token ≠ .closeArray := by
  match value with
  | .null | .truth _ | .number _ | .string _ | .array [] | .array (_ :: _) | .object []
  | .object (_ :: _) => exact ⟨_, _, rfl, nofun⟩

theorem run_firstItem (value : Value) (outer : List Frame) (rest : List Token) :
    Place.run ⟨.firstItem, outer⟩ (value.tokens ++ rest) =
      Place.run ⟨.value, outer⟩ (value.tokens ++ rest) := by
  obtain ⟨token, others, tokens, noEnd⟩ := tokens_head value
  have sameStep : Place.step ⟨.firstItem, outer⟩ token = Place.step ⟨.value, outer⟩ token := by
    simp only [Place.step]
    split
    · exact absurd rfl noEnd
    · rfl
  rw [tokens, List.cons_append, Place.run_cons, Place.run_cons, sameStep]

mutual

-- The items and members before the one that is read stand in reverse in the innermost frame.
/-- Where a value has to come, the tokens of a value are read as that value. -/
theorem run_tokens (value : Value) (frames : List Frame) (rest : List Token) :
    Place.run ⟨.value, frames⟩ (value.tokens ++ rest) = Place.run ⟨.read value, frames⟩ rest := by
  match value with
  | .null | .truth _ | .number _ | .string _ | .array [] | .object [] => rfl
  | .array (item :: items) =>
      have first := run_firstItem item (.array [] :: frames)
        (itemsTokens items ++ .closeArray :: rest)
      simp only [Value.tokens, List.cons_append, List.append_assoc, List.nil_append]
      refine first.trans ?_
      rw [run_tokens item, run_itemsTokens items]
      rfl
  | .object ((name, value) :: members) =>
      simp only [Value.tokens, List.cons_append, List.append_assoc, List.nil_append]
      refine (run_tokens value (.member name :: .object [] :: frames) _).trans ?_
      rw [run_membersTokens members]
      rfl

theorem run_itemsTokens (items : List Value) (item : Value) (before : List Value)
    (frames : List Frame) (rest : List Token) :
    Place.run ⟨.read item, .array before :: frames⟩ (itemsTokens items ++ .closeArray :: rest) =
      Place.run ⟨.read (.array (before.reverse ++ item :: items)), frames⟩ rest := by
  match items with
  | [] =>
      rw [← List.reverse_cons]
      rfl
  | next :: items =>
      simp only [itemsTokens, List.cons_append, List.append_assoc]
      refine (run_tokens next (.array (item :: before) :: frames) _).trans ?_
      rw [run_itemsTokens items, List.reverse_cons, List.append_assoc]
      rfl

theorem run_membersTokens (members : List (Content × Value)) (name : Content) (value : Value)
    (before : List (Content × Value)) (frames : List Frame) (rest : List Token) :
    Place.run ⟨.read value, .member name :: .object before :: frames⟩
        (membersTokens members ++ .closeObject :: rest) =
      Place.run ⟨.read (.object (before.reverse ++ (name, value) :: members)), frames⟩ rest := by
  match members with
  | [] =>
      rw [← List.reverse_cons]
      rfl
  | (nextName, next) :: members =>
      simp only [membersTokens, List.cons_append, List.append_assoc]
      refine (run_tokens next (.member nextName :: .object ((name, value) :: before) :: frames)
        _).trans ?_
      rw [run_membersTokens members, List.reverse_cons, List.append_assoc]
      rfl

end

theorem ofTokens?_tokens (value : Value) : Value.ofTokens? value.tokens = some value := by
  have runs := run_tokens value [] []
  rw [List.append_nil] at runs
  have reads : value.tokens.foldlM Place.step ⟨.value, []⟩ = some ⟨.read value, []⟩ := runs
  rw [Value.ofTokens?, reads]
  rfl

/-- Every text that writes a value is read as that value. -/
theorem parse?_of_written {value : Value} {text : String} (written : value.Written text) :
    Value.parse? text = some value := by
  have apart : Apart (value.tokens ++ []) := apart_tokens value nofun trivial
  rw [List.append_nil] at apart
  rw [Value.parse?, tokens?_of_laid written apart]
  exact ofTokens?_tokens value

/-! ### The tokens behind a place -/

def memberTokens (member : Content × Value) : List Token :=
  .string member.1 :: .colon :: member.2.tokens

/-- The tokens of a frame that is still open. -/
def Frame.tokens : Frame → List Token
  | .array items => .openArray :: items.reverse.flatMap fun item => item.tokens ++ [.comma]
  | .object members =>
    .openObject :: members.reverse.flatMap fun member => memberTokens member ++ [.comma]
  | .member name => [.string name, .colon]

def framesTokens : List Frame → List Token
  | [] => []
  | frame :: outer => framesTokens outer ++ frame.tokens

def Focus.tokens : Focus → List Token
  | .value | .firstItem | .firstName | .name => []
  | .colon known => [.string known]
  | .read done => done.tokens

/-- All tokens that were read on the way to a place. -/
def Place.tokens (place : Place) : List Token :=
  framesTokens place.frames ++ place.focus.tokens

/-- Nothing was read yet of an array or object whose first item or name has to come. -/
def Place.Fresh (place : Place) : Prop :=
  match place.focus, place.frames with
  | .firstItem, .array items :: _ => items = []
  | .firstName, .object members :: _ => members = []
  | _, _ => True

theorem tokens_of_scalar? {token : Token} {value : Value} (scalar : token.scalar? = some value) :
    value.tokens = [token] := by
  cases token <;> cases scalar <;> rfl

/-- Commas stand between pieces whether they are counted with the one before or the one behind. -/
theorem commas_between {α : Type} (piece : α → List Token) (first : α) (others : List α)
    (last : α) :
    piece first ++ (others ++ [last]).flatMap (fun item => .comma :: piece item) =
      (first :: others).flatMap (fun item => piece item ++ [.comma]) ++ piece last := by
  induction others generalizing first with
  | nil => simp only [List.nil_append, List.flatMap_cons, List.flatMap_nil, List.append_nil,
      List.append_assoc, List.singleton_append]
  | cons next others ih =>
      have later := ih next
      simp only [List.cons_append, List.flatMap_cons, List.append_assoc, List.nil_append] at later ⊢
      rw [later]

theorem itemsTokens_eq (items : List Value) :
    itemsTokens items = items.flatMap fun item => .comma :: item.tokens := by
  induction items with
  | nil => rfl
  | cons item items ih => rw [itemsTokens, ih]; rfl

theorem membersTokens_eq (members : List (Content × Value)) :
    membersTokens members = members.flatMap fun member => .comma :: memberTokens member := by
  induction members with
  | nil => rfl
  | cons member members ih => rw [membersTokens, ih]; rfl

theorem tokens_array (items : List Value) (last : Value) :
    (Value.array (items ++ [last])).tokens =
      .openArray :: (items.flatMap (fun item => item.tokens ++ [.comma]) ++ last.tokens) ++
        [.closeArray] := by
  cases items with
  | nil => rfl
  | cons first others =>
      have between := commas_between Value.tokens first others last
      rw [List.cons_append, Value.tokens, itemsTokens_eq, ← List.append_assoc, between]
      rfl

theorem tokens_object (members : List (Content × Value)) (last : Content × Value) :
    (Value.object (members ++ [last])).tokens =
      .openObject :: (members.flatMap (fun member => memberTokens member ++ [.comma]) ++
        memberTokens last) ++ [.closeObject] := by
  cases members with
  | nil => rfl
  | cons first others =>
      have between := commas_between memberTokens first others last
      rw [List.cons_append, Value.tokens, membersTokens_eq, ← between]
      simp only [memberTokens, List.cons_append, List.append_assoc]

theorem framesTokens_array (value : Value) (items : List Value) (outer : List Frame) :
    framesTokens (.array (value :: items) :: outer) =
      framesTokens (.array items :: outer) ++ (value.tokens ++ [.comma]) := by
  simp only [framesTokens, Frame.tokens, List.reverse_cons, List.flatMap_append, List.flatMap_cons,
    List.flatMap_nil, List.append_nil, List.append_assoc, List.cons_append]

theorem framesTokens_closeArray (value : Value) (items : List Value) (outer : List Frame) :
    framesTokens (.array items :: outer) ++ (value.tokens ++ [.closeArray]) =
      framesTokens outer ++ (Value.array (value :: items).reverse).tokens := by
  simp only [framesTokens, Frame.tokens, List.reverse_cons, tokens_array, List.append_assoc,
    List.cons_append]

theorem framesTokens_object (name : Content) (value : Value) (members : List (Content × Value))
    (outer : List Frame) :
    framesTokens (.object ((name, value) :: members) :: outer) =
      framesTokens (.member name :: .object members :: outer) ++ (value.tokens ++ [.comma]) := by
  simp only [framesTokens, Frame.tokens, List.reverse_cons, List.flatMap_append, List.flatMap_cons,
    List.flatMap_nil, memberTokens, List.append_nil, List.append_assoc, List.cons_append,
    List.nil_append]

theorem framesTokens_closeObject (name : Content) (value : Value)
    (members : List (Content × Value)) (outer : List Frame) :
    framesTokens (.member name :: .object members :: outer) ++ (value.tokens ++ [.closeObject]) =
      framesTokens outer ++ (Value.object ((name, value) :: members).reverse).tokens := by
  simp only [framesTokens, Frame.tokens, List.reverse_cons, tokens_object, memberTokens,
    List.append_assoc, List.cons_append, List.nil_append]

theorem Place.tokens_at (focus : Focus) (frames : List Frame) :
    Place.tokens ⟨focus, frames⟩ = framesTokens frames ++ focus.tokens :=
  rfl

theorem Place.tokens_start {frames : List Frame} {token : Token} {next : Place}
    (starts : Place.start frames token = some next) :
    next.Fresh ∧ next.tokens = framesTokens frames ++ [token] := by
  unfold Place.start at starts
  split at starts
  · cases starts
    exact ⟨rfl, List.append_nil _⟩
  · cases starts
    exact ⟨rfl, List.append_nil _⟩
  · obtain ⟨value, scalar, rfl⟩ := Option.map_eq_some_iff.mp starts
    refine ⟨trivial, ?_⟩
    rw [← tokens_of_scalar? scalar]
    rfl

theorem Place.tokens_startMember {frames : List Frame} {token : Token} {next : Place}
    (starts : Place.startMember frames token = some next) :
    next.Fresh ∧ next.tokens = framesTokens frames ++ [token] := by
  unfold Place.startMember at starts
  split at starts
  · cases starts
    exact ⟨trivial, rfl⟩
  · cases starts

theorem Place.tokens_continue {value : Value} {frames : List Frame} {token : Token} {next : Place}
    (continues : Place.continue value frames token = some next) :
    next.Fresh ∧ next.tokens = framesTokens frames ++ (value.tokens ++ [token]) := by
  unfold Place.continue at continues
  split at continues
  · cases continues
    rw [← framesTokens_array]
    exact ⟨trivial, List.append_nil _⟩
  · cases continues
    rw [framesTokens_closeArray]
    exact ⟨trivial, rfl⟩
  · cases continues
    rw [← framesTokens_object]
    exact ⟨trivial, List.append_nil _⟩
  · cases continues
    rw [framesTokens_closeObject]
    exact ⟨trivial, rfl⟩
  · cases continues

/-- A step reads its token and nothing else. -/
theorem Place.tokens_step {place next : Place} {token : Token} (fresh : place.Fresh)
    (steps : place.step token = some next) :
    next.Fresh ∧ next.tokens = place.tokens ++ [token] := by
  obtain ⟨focus, frames⟩ := place
  -- Only an end that comes at once needs to know that nothing was read of the array or object.
  cases focus with
  | value =>
      rw [Place.tokens_at .value, Focus.tokens, List.append_nil]
      exact Place.tokens_start steps
  | firstItem =>
      rw [Place.tokens_at .firstItem, Focus.tokens, List.append_nil]
      simp only [Place.step] at steps
      split at steps
      · cases steps
        cases fresh
        rw [framesTokens, List.append_assoc]
        exact ⟨trivial, rfl⟩
      · exact Place.tokens_start steps
  | firstName =>
      rw [Place.tokens_at .firstName, Focus.tokens, List.append_nil]
      simp only [Place.step] at steps
      split at steps
      · cases steps
        cases fresh
        rw [framesTokens, List.append_assoc]
        exact ⟨trivial, rfl⟩
      · exact Place.tokens_startMember steps
  | name =>
      rw [Place.tokens_at .name, Focus.tokens, List.append_nil]
      exact Place.tokens_startMember steps
  | colon name =>
      simp only [Place.step] at steps
      split at steps
      · cases steps
        rw [Place.tokens_at (.colon name), List.append_assoc]
        exact ⟨trivial, List.append_nil _⟩
      · cases steps
  | read value =>
      rw [Place.tokens_at (.read value), List.append_assoc]
      exact Place.tokens_continue steps

theorem Place.tokens_run {place last : Place} {tokens : List Token} (fresh : place.Fresh)
    (runs : place.run tokens = some last) : last.tokens = place.tokens ++ tokens := by
  induction tokens generalizing place with
  | nil =>
      cases runs
      exact (List.append_nil _).symm
  | cons token rest ih =>
      rw [Place.run_cons] at runs
      obtain ⟨next, steps, runsOn⟩ := Option.bind_eq_some_iff.mp runs
      obtain ⟨freshNext, reads⟩ := Place.tokens_step fresh steps
      rw [ih freshNext runsOn, reads, List.append_assoc]
      rfl

theorem tokens_of_ofTokens? {tokens : List Token} {value : Value}
    (reads : Value.ofTokens? tokens = some value) : tokens = value.tokens := by
  unfold Value.ofTokens? at reads
  obtain ⟨last, runs, ends⟩ := Option.bind_eq_some_iff.mp reads
  split at ends
  · cases ends
    have starts : Place.Fresh ⟨.value, []⟩ := trivial
    exact (Place.tokens_run starts runs).symm
  · cases ends

/-- A text is read as the value that it writes, and as no other. -/
theorem parse?_eq_some_iff {value : Value} {text : String} :
    Value.parse? text = some value ↔ value.Written text := by
  constructor
  · intro reads
    obtain ⟨tokens, finds, reads⟩ := Option.bind_eq_some_iff.mp reads
    rw [Value.Written, ← tokens_of_ofTokens? reads]
    exact laid_of_tokens? finds
  · exact parse?_of_written

end PollHerald.Json
