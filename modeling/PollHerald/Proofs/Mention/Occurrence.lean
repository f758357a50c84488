import PollHerald.Proofs.Mention.Decompose

set_option autoImplicit false

/-! Tokens as they stand in a text, by their byte offsets. The tokens that are taken out are exactly
these, the clean text is what stands outside of them, and the offset that a token leaves is where it
started, less the bytes of the tokens before it. -/

namespace PollHerald.Mention

/-- The end that a token may have behind its handle. -/
def eth : List Char := ['.', 'e', 't', 'h']

/-- A text that begins with a token: an `@`, all handle characters behind it, at least one, and a
`.eth` that follows them directly. -/
def BeginsWith (token text : List Char) : Prop :=
  ∃ handle ending back, token = '@' :: (handle ++ ending) ∧ text = token ++ back ∧
    handle ≠ [] ∧ (∀ character ∈ handle, isHandleChar character = true) ∧
    (∀ next later, ending ++ back = next :: later → isHandleChar next = false) ∧
    (ending = eth ∨ ending = [] ∧ ¬ eth <+: back)

/-- Characters in a row, and the byte offset at which they start. -/
structure Span where
  start : Nat
  token : List Char

def Span.stop (span : Span) : Nat :=
  span.start + Text.byteLength span.token

/-- Whether a byte stands in a span. -/
def Span.covers (span : Span) (offset : Nat) : Bool :=
  decide (span.start ≤ offset ∧ offset < span.stop)

/-- A token that stands in a text. The first character of the text is at `offset`. -/
def Span.In (span : Span) (offset : Nat) (text : List Char) : Prop :=
  ∃ front rest, front ++ rest = text ∧ span.start = offset + Text.byteLength front ∧
    BeginsWith span.token rest

/-- The characters of a text outside of spans. The first one is at `offset`. -/
def outside (spans : List Span) (offset : Nat) : List Char → List Char
  | [] => []
  | character :: rest =>
    if spans.any fun span => span.covers offset then
      outside spans (offset + character.utf8Size) rest
    else
      character :: outside spans (offset + character.utf8Size) rest

/-- The tokens among the pieces of a text. The first piece is at `offset`. -/
def tokenSpans (offset : Nat) : List Piece → List Span
  | [] => []
  | .plain character :: rest => tokenSpans (offset + character.utf8Size) rest
  | .token token :: rest =>
    { start := offset, token } :: tokenSpans (offset + Text.byteLength token) rest

section Begins

theorem dropEth_eth (rest : List Char) : dropEth (eth ++ rest) = some rest :=
  rfl

theorem dropEth_eq_none_iff (text : List Char) : dropEth text = none ↔ ¬ eth <+: text := by
  constructor
  · rintro none ⟨rest, rfl⟩
    rw [dropEth_eth] at none
    cases none
  · intro apart
    cases found : dropEth text with
    | none => rfl
    | some rest => exact absurd ⟨rest, (dropEth_eq_some found).symm⟩ apart

theorem splitToken_eq {handle ending back : List Char}
    (handles : ∀ character ∈ handle, isHandleChar character = true)
    (longest : ∀ next later, ending ++ back = next :: later → isHandleChar next = false)
    (ends : ending = eth ∨ ending = [] ∧ ¬ eth <+: back) :
    splitToken (handle ++ (ending ++ back)) = (handle ++ ending, back) := by
  have stops : (ending ++ back).takeWhile isHandleChar = [] ∧
      (ending ++ back).dropWhile isHandleChar = ending ++ back := by
    cases behind : ending ++ back with
    | nil => exact ⟨rfl, rfl⟩
    | cons next later =>
        have other := longest next later behind
        simp only [List.takeWhile_cons, List.dropWhile_cons, other, Bool.false_eq_true, if_false,
          and_self]
  have taken : (handle ++ (ending ++ back)).takeWhile isHandleChar = handle := by
    rw [List.takeWhile_append_of_pos handles, stops.1, List.append_nil]
  have left : (handle ++ (ending ++ back)).dropWhile isHandleChar = ending ++ back := by
    rw [List.dropWhile_append_of_pos handles, stops.2]
  simp only [splitToken, taken, left]
  rcases ends with rfl | ⟨rfl, apart⟩
  · rw [dropEth_eth]
    rfl
  · rw [List.nil_append, (dropEth_eq_none_iff back).mpr apart, List.append_nil]

theorem exists_splitToken (rest : List Char) :
    ∃ ending, splitToken rest = (rest.takeWhile isHandleChar ++ ending, (splitToken rest).2) ∧
      ending ++ (splitToken rest).2 = rest.dropWhile isHandleChar ∧
      (ending = eth ∨ ending = [] ∧ ¬ eth <+: (splitToken rest).2) := by
  simp only [splitToken]
  split
  · rename_i back found
    exact ⟨eth, rfl, (dropEth_eq_some found).symm, .inl rfl⟩
  · rename_i none
    refine ⟨[], ?_, rfl, .inr ⟨rfl, (dropEth_eq_none_iff _).mp none⟩⟩
    rw [List.append_nil]

/-- A scan reads off the front of a text the token that the text begins with. -/
theorem beginsWith_iff (token text : List Char) :
    BeginsWith token text ↔
      ∃ rest, text = '@' :: rest ∧ opensToken rest = true ∧ token = '@' :: (splitToken rest).1 := by
  constructor
  · rintro ⟨handle, ending, back, rfl, rfl, nonempty, handles, longest, ends⟩
    refine ⟨handle ++ (ending ++ back), ?_, ?_, ?_⟩
    · rw [List.cons_append, List.append_assoc]
    · cases handle with
      | nil => exact absurd rfl nonempty
      | cons first later => exact handles first List.mem_cons_self
    · rw [splitToken_eq handles longest ends]
  · rintro ⟨rest, rfl, opens, rfl⟩
    obtain ⟨ending, split, left, ends⟩ := exists_splitToken rest
    refine ⟨rest.takeWhile isHandleChar, ending, (splitToken rest).2, by rw [split], ?_, ?_, ?_, ?_,
      ends⟩
    · rw [List.cons_append, splitToken_append]
    · cases rest with
      | nil => cases opens
      | cons first later =>
          have handle : isHandleChar first = true := opens
          rw [List.takeWhile_cons_of_pos handle]
          exact List.cons_ne_nil _ _
    · intro character member
      exact List.all_eq_true.mp List.all_takeWhile character member
    · intro next later behind
      rw [left] at behind
      have notHandle := List.head?_dropWhile_not isHandleChar rest
      rw [behind] at notHandle
      simpa using notHandle

end Begins

section Spans

variable {span : Span} {offset : Nat}

theorem le_start_of_mem_tokenSpans {parts : List Piece} (member : span ∈ tokenSpans offset parts) :
    offset ≤ span.start := by
  induction parts generalizing offset with
  | nil => cases member
  | cons part rest ih =>
      cases part with
      | plain character =>
          have behind := ih member
          omega
      | token token =>
          rcases List.mem_cons.mp member with rfl | later
          · exact Nat.le_refl _
          · have behind := ih later
            omega

theorem tokenSpans_apart (offset : Nat) (parts : List Piece) :
    (tokenSpans offset parts).Pairwise fun span later => span.stop ≤ later.start := by
  induction parts generalizing offset with
  | nil => exact .nil
  | cons part rest ih =>
      cases part with
      | plain character => exact ih _
      | token token => exact List.pairwise_cons.mpr ⟨fun _ => le_start_of_mem_tokenSpans, ih _⟩

theorem map_token_tokenSpans (offset : Nat) (parts : List Piece) :
    (tokenSpans offset parts).map Span.token = tokens parts := by
  induction parts generalizing offset with
  | nil => rfl
  | cons part rest ih =>
      cases part with
      | plain character => exact ih _
      | token token => exact congrArg (token :: ·) (ih _)

theorem in_cons_iff (span : Span) (offset : Nat) (character : Char) (rest : List Char) :
    span.In offset (character :: rest) ↔
      span.start = offset ∧ BeginsWith span.token (character :: rest) ∨
        span.In (offset + character.utf8Size) rest := by
  constructor
  · rintro ⟨front, back, joined, start, begins⟩
    cases front with
    | nil =>
        cases joined
        exact .inl ⟨start, begins⟩
    | cons first front =>
        cases joined
        rw [Text.byteLength, ← Nat.add_assoc] at start
        exact .inr ⟨front, back, rfl, start, begins⟩
  · rintro (⟨start, begins⟩ | ⟨front, back, rfl, start, begins⟩)
    · exact ⟨[], character :: rest, rfl, start, begins⟩
    · refine ⟨character :: front, back, rfl, ?_, begins⟩
      rw [start, Text.byteLength, Nat.add_assoc]

theorem in_cons_of_plain {character : Char} {rest : List Char}
    (plain : ¬ (character = '@' ∧ opensToken rest = true)) :
    span.In offset (character :: rest) ↔ span.In (offset + character.utf8Size) rest := by
  rw [in_cons_iff, beginsWith_iff, or_iff_right]
  rintro ⟨_, _, same, opens, _⟩
  cases same
  exact plain ⟨rfl, opens⟩

theorem in_append_of_no_at {front : List Char} (plain : '@' ∉ front) (rest : List Char) :
    span.In offset (front ++ rest) ↔ span.In (offset + Text.byteLength front) rest := by
  induction front generalizing offset with
  | nil => rfl
  | cons character front ih =>
      have differs : character ≠ '@' := (List.ne_of_not_mem_cons plain).symm
      rw [List.cons_append, in_cons_of_plain fun both => differs both.1,
        ih (List.not_mem_of_not_mem_cons plain), Text.byteLength, Nat.add_assoc]

theorem no_at_in_splitToken (rest : List Char) : '@' ∉ (splitToken rest).1 := by
  obtain ⟨ending, split, _, ends⟩ := exists_splitToken rest
  rw [split, List.mem_append]
  rintro (inHandle | inEnding)
  · have handle := List.all_eq_true.mp List.all_takeWhile '@' inHandle
    exact absurd handle (by decide)
  · rcases ends with rfl | ⟨rfl, _⟩
    · exact absurd inEnding (by decide)
    · cases inEnding

/-- The tokens that are taken out of a text are those that stand in it. -/
theorem mem_tokenSpans_iff (text : List Char) :
    span ∈ tokenSpans offset (pieces text) ↔ span.In offset text := by
  induction text using pieces.induct generalizing offset with
  | case1 =>
      rw [pieces, tokenSpans]
      refine iff_of_false List.not_mem_nil ?_
      rintro ⟨front, rest, joined, _, begins⟩
      obtain ⟨_, rfl⟩ := List.append_eq_nil_iff.mp joined
      obtain ⟨_, none, _⟩ := (beginsWith_iff _ _).mp begins
      cases none
  | case2 character rest opens ih =>
      obtain ⟨rfl, opens⟩ := opens
      have first : span.start = offset ∧ BeginsWith span.token ('@' :: rest) ↔
          span = { start := offset, token := '@' :: (splitToken rest).1 } := by
        rw [beginsWith_iff]
        constructor
        · rintro ⟨start, _, same, _, token⟩
          cases same
          cases span
          simp only at start token
          rw [start, token]
        · rintro rfl
          exact ⟨rfl, rest, rfl, opens, rfl⟩
      rw [pieces, if_pos ⟨rfl, opens⟩, tokenSpans, List.mem_cons, ih, ← first, Text.byteLength,
        ← Nat.add_assoc, ← in_append_of_no_at (no_at_in_splitToken rest), splitToken_append,
        ← in_cons_iff]
  | case3 character rest plain ih =>
      rw [pieces, if_neg plain, tokenSpans, ih, in_cons_of_plain plain]

theorem covers_iff (span : Span) (offset : Nat) :
    span.covers offset = true ↔ span.start ≤ offset ∧ offset < span.stop :=
  decide_eq_true_iff

theorem outside_of_covered {spans : List Span} {front : List Char}
    (covered : ∀ later, offset ≤ later → later < offset + Text.byteLength front →
      ∃ span ∈ spans, span.covers later = true) (rest : List Char) :
    outside spans offset (front ++ rest) = outside spans (offset + Text.byteLength front) rest := by
  induction front generalizing offset with
  | nil => rfl
  | cons character front ih =>
      have positive := character.utf8Size_pos
      rw [Text.byteLength, ← Nat.add_assoc] at covered ⊢
      have here : (spans.any fun span => span.covers offset) = true :=
        List.any_eq_true.mpr (covered offset (Nat.le_refl _) (by omega))
      rw [List.cons_append, outside, if_pos here]
      apply ih
      intro later behind before
      exact covered later (by omega) before

theorem outside_cons_of_passed (spans : List Span) (text : List Char)
    (passed : span.stop ≤ offset) : outside (span :: spans) offset text = outside spans offset text := by
  induction text generalizing offset with
  | nil => rfl
  | cons character rest ih =>
      have uncovered : span.covers offset = false := by
        rw [Bool.eq_false_iff, ne_eq, covers_iff]
        omega
      rw [outside, outside, List.any_cons, uncovered, Bool.false_or, ih (by omega)]

/-- What stands outside of the tokens is the clean text. -/
theorem outside_tokenSpans (offset : Nat) (parts : List Piece) :
    outside (tokenSpans offset parts) offset (parts.flatMap Piece.text) = plainText parts := by
  induction parts generalizing offset with
  | nil => rfl
  | cons part rest ih =>
      cases part with
      | plain character =>
          have positive := character.utf8Size_pos
          have uncovered : ((tokenSpans (offset + character.utf8Size) rest).any
              fun span => span.covers offset) = false := by
            rw [List.any_eq_false]
            intro span member covered
            have behind := le_start_of_mem_tokenSpans member
            have before := (covers_iff span offset).mp covered
            omega
          rw [List.flatMap_cons, Piece.text, List.singleton_append, tokenSpans, outside, uncovered,
            if_neg Bool.false_ne_true, ih, plainText]
      | token token =>
          let first : Span := { start := offset, token }
          have covered (later : Nat) (behind : offset ≤ later)
              (before : later < offset + Text.byteLength token) :
              ∃ span ∈ first :: tokenSpans (offset + Text.byteLength token) rest,
                span.covers later = true :=
            ⟨first, List.mem_cons_self, (covers_iff _ _).mpr ⟨behind, before⟩⟩
          have passed : first.stop ≤ offset + Text.byteLength token := Nat.le_refl _
          rw [List.flatMap_cons, Piece.text, tokenSpans, outside_of_covered covered,
            outside_cons_of_passed _ _ passed, ih, plainText]

/-- A token leaves the offset at which it started, less the bytes of the tokens before it. Before
`offset` in the clean text, `removed` bytes were taken out. -/
theorem position_of_split {removed : Nat} {parts : List Piece} {before after : List Span}
    (split : tokenSpans (offset + removed) parts = before ++ span :: after) :
    ∃ position, (tokenOffsets offset parts)[before.length]? = some position ∧
      position + removed + Text.byteLength (before.flatMap Span.token) = span.start := by
  induction parts generalizing offset removed before with
  | nil => exact absurd split (by cases before <;> exact nofun)
  | cons part rest ih =>
      cases part with
      | plain character =>
          rw [tokenSpans, Nat.add_right_comm] at split
          exact ih split
      | token token =>
          cases before with
          | nil =>
              cases (List.cons.inj split).1
              exact ⟨offset, rfl, rfl⟩
          | cons first before =>
              obtain ⟨rfl, splitRest⟩ := List.cons.inj split
              rw [Nat.add_assoc] at splitRest
              obtain ⟨position, found, start⟩ := ih splitRest
              refine ⟨position, found, ?_⟩
              simp only [List.flatMap_cons, Text.byteLength_append]
              omega

theorem tokenOffsets_ascending (offset : Nat) (parts : List Piece) :
    (tokenOffsets offset parts).Pairwise (· ≤ ·) := by
  induction parts generalizing offset with
  | nil => exact .nil
  | cons part rest ih =>
      cases part with
      | plain character => exact ih _
      | token token =>
          refine List.pairwise_cons.mpr ⟨fun later member => ?_, ih _⟩
          obtain ⟨front, _, _, rfl⟩ := exists_front_of_mem_tokenOffsets member
          exact Nat.le_add_right _ _

end Spans

/-- The tokens in a text, in their order, decide what becomes of it. There has to be one account for
each of them. Then the clean text is what stands outside of them, and each leaves the offset at
which it started, less the bytes of the tokens before it. -/
theorem decompose_takes_out_occurrences (text : String) (mentions : List Fid) :
    ∃ spans : List Span, (∀ span, span ∈ spans ↔ span.In 0 text.toList) ∧
      (spans.Pairwise fun span later => span.stop ≤ later.start) ∧
      (spans.length ≠ mentions.length →
        decompose text mentions = .error (.count spans.length mentions.length)) ∧
      (spans.length = mentions.length → ∃ clean, decompose text mentions = .ok clean ∧
        clean.text.toList = outside spans 0 text.toList ∧ clean.mentions = mentions ∧
        clean.positions.length = spans.length ∧
        (∀ before span after, spans = before ++ span :: after →
          ∃ position, clean.positions[before.length]? = some position ∧
            position + Text.byteLength (before.flatMap Span.token) = span.start) ∧
        clean.positions.Pairwise (· ≤ ·) ∧
        ∀ position ∈ clean.positions, Text.Borders position clean.text.toList) := by
  have count : (tokenSpans 0 (pieces text.toList)).length = (tokensOf text).length := by
    rw [← List.length_map (f := Span.token), map_token_tokenSpans]
    rfl
  refine ⟨tokenSpans 0 (pieces text.toList), fun span => mem_tokenSpans_iff text.toList,
    tokenSpans_apart 0 _, ?_, ?_⟩
  · intro miscounts
    rw [count] at miscounts ⊢
    exact decompose_of_miscount miscounts
  · intro counts
    rw [count] at counts
    refine ⟨_, (decompose_eq_ok_iff _ _ _).mpr ⟨counts, rfl⟩, ?_, rfl, ?_, ?_,
      tokenOffsets_ascending 0 _, ?_⟩
    · rw [String.toList_ofList, ← outside_tokenSpans 0, flatMap_text_pieces]
    · rw [length_tokenOffsets, count]
      rfl
    · intro before span after split
      change tokenSpans (0 + 0) _ = _ at split
      exact position_of_split split
    · intro position member
      rw [String.toList_ofList]
      obtain ⟨front, back, joined, rfl⟩ := exists_front_of_mem_tokenOffsets member
      exact ⟨front, back, joined, (Nat.zero_add _).symm⟩

end PollHerald.Mention
