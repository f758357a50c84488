import Mathlib.Data.List.Induction
import Mathlib.Data.List.Nodup
import PollHerald.Hub.Headers

set_option autoImplicit false

/-! Headers that are given in some order. The first bad one is reported, and of several values for one
name the last one holds. So the order shows exactly where bad names stand beside bad values, or where
names that differ only in case have different values. -/

namespace PollHerald.Hub.Headers

variable {headers order : List (String × String)} {name value : String}

/-- A header that may be sent. -/
structure Fits (header : String × String) : Prop where
  name : isName header.1 = true
  value : isValue header.2 = true

/-- The error that a header is refused with, if it is. -/
def flaw? (header : String × String) : Option Error :=
  if isName header.1 = false then some .name
  else if isValue header.2 = false then some .value
  else none

/-- The header is the last one that goes by the name. -/
def IsLast (headers : List (String × String)) (name value : String) : Prop :=
  ∃ front last back, headers = front ++ last :: back ∧ lowerName last.1 = name ∧ last.2 = value ∧
    ∀ later ∈ back, lowerName later.1 ≠ name

/-- The same headers, or the same kind of error. -/
def Alike : Except Error Headers → Except Error Headers → Prop
  | .ok one, .ok other => ∀ header, header ∈ one ↔ header ∈ other
  | .error one, .error other => one = other
  | _, _ => False

/-- What makes the order of headers show. -/
inductive Clash (headers : List (String × String)) : Prop where
  /-- Two of them are bad in different ways. -/
  | flaws {one other : String × String} (isOne : one ∈ headers) (isOther : other ∈ headers)
      (badName : isName one.1 = false) (goodName : isName other.1 = true)
      (badValue : isValue other.2 = false)
  /-- All may be sent, but two are for one name. -/
  | values {one other : String × String} (fit : ∀ header ∈ headers, Fits header)
      (isOne : one ∈ headers) (isOther : other ∈ headers)
      (sameName : lowerName one.1 = lowerName other.1) (differs : one.2 ≠ other.2)

theorem flaw?_eq_none_iff (header : String × String) : flaw? header = none ↔ Fits header := by
  unfold flaw?
  constructor
  · intro sound
    cases goodName : isName header.1 with
    | false => simp [goodName] at sound
    | true =>
        cases goodValue : isValue header.2 with
        | false => simp [goodName, goodValue] at sound
        | true => exact ⟨goodName, goodValue⟩
  · intro fits
    simp [fits.name, fits.value]

theorem flaw?_eq_name_iff (header : String × String) :
    flaw? header = some .name ↔ isName header.1 = false := by
  unfold flaw?
  cases isName header.1 with
  | false => simp
  | true => cases isValue header.2 <;> simp

theorem flaw?_eq_value_iff (header : String × String) :
    flaw? header = some .value ↔ isName header.1 = true ∧ isValue header.2 = false := by
  unfold flaw?
  cases isName header.1 with
  | false => simp
  | true => cases isValue header.2 <;> simp

/-- Puts a header with the others, whatever it is. -/
def put (headers : Headers) (header : String × String) : Headers :=
  headers.insert (lowerName header.1) header.2

theorem add_eq (headers : Headers) (header : String × String) :
    headers.add header =
      match flaw? header with
      | some error => .error error
      | none => .ok (headers.put header) := by
  unfold add flaw?
  cases isName header.1 with
  | false => rfl
  | true => cases isValue header.2 <;> rfl

/-- The first flaw is reported. Without one, the headers are put in one after another. -/
theorem foldlM_add (headers : List (String × String)) (found : Headers) :
    headers.foldlM add found =
      match headers.findSome? flaw? with
      | some error => .error error
      | none => .ok (headers.foldl put found) := by
  induction headers generalizing found with
  | nil => rfl
  | cons header rest ih =>
      rw [List.foldlM_cons, add_eq, List.findSome?_cons]
      cases flaw? header with
      | some error => rfl
      | none => exact ih _

section Insertion

/-- Whether each name occurs once. -/
def Distinct (headers : Headers) : Prop := (headers.map Prod.fst).Nodup

theorem mem_names_insert (headers : Headers) (name value other : String) :
    other ∈ (headers.insert name value).map Prod.fst ↔
      other = name ∨ other ∈ headers.map Prod.fst := by
  induction headers with
  | nil => simp [insert]
  | cons header rest ih =>
      unfold insert
      by_cases same : header.1 = name
      · rw [if_pos same]
        simp only [List.map_cons, List.mem_cons, same]
        tauto
      · rw [if_neg same]
        simp only [List.map_cons, List.mem_cons, ih]
        tauto

theorem Distinct.insert {headers : Headers} (distinct : headers.Distinct) (name value : String) :
    (headers.insert name value).Distinct := by
  induction headers with
  | nil => exact List.nodup_cons.mpr ⟨List.not_mem_nil, List.nodup_nil⟩
  | cons header rest ih =>
      obtain ⟨fresh, distinctRest⟩ := List.nodup_cons.mp distinct
      unfold Headers.insert
      by_cases same : header.1 = name
      · rw [if_pos same]
        rw [same] at fresh
        exact List.nodup_cons.mpr ⟨fresh, distinctRest⟩
      · rw [if_neg same]
        apply List.nodup_cons.mpr
        refine ⟨?_, ih distinctRest⟩
        intro again
        rcases (mem_names_insert rest name value header.1).mp again with equal | inRest
        · exact same equal
        · exact fresh inRest

theorem mem_insert {headers : Headers} (distinct : headers.Distinct) (name value : String)
    (header : String × String) :
    header ∈ headers.insert name value ↔
      header = (name, value) ∨ header.1 ≠ name ∧ header ∈ headers := by
  induction headers with
  | nil => simp [insert]
  | cons first rest ih =>
      obtain ⟨fresh, distinctRest⟩ := List.nodup_cons.mp distinct
      unfold insert
      by_cases same : first.1 = name
      · rw [if_pos same]
        have elsewhere : ∀ other ∈ rest, other.1 ≠ name := by
          intro other member equal
          apply fresh
          rw [same, ← equal]
          exact List.mem_map_of_mem member
        constructor
        · intro member
          rcases List.mem_cons.mp member with isNew | inRest
          · exact Or.inl isNew
          · exact Or.inr ⟨elsewhere header inRest, List.mem_cons_of_mem _ inRest⟩
        · intro member
          rcases member with isNew | ⟨differs, member⟩
          · rw [isNew]
            exact List.mem_cons_self
          · rcases List.mem_cons.mp member with isFirst | inRest
            · rw [isFirst] at differs
              exact absurd same differs
            · exact List.mem_cons_of_mem _ inRest
      · rw [if_neg same, List.mem_cons, ih distinctRest, List.mem_cons]
        constructor
        · intro member
          rcases member with isFirst | isNew | ⟨differs, inRest⟩
          · rw [isFirst]
            exact Or.inr ⟨same, Or.inl rfl⟩
          · exact Or.inl isNew
          · exact Or.inr ⟨differs, Or.inr inRest⟩
        · intro member
          rcases member with isNew | ⟨differs, isFirst | inRest⟩
          · exact Or.inr (Or.inl isNew)
          · exact Or.inl isFirst
          · exact Or.inr (Or.inr ⟨differs, inRest⟩)

end Insertion

theorem isLast_concat (headers : List (String × String)) (header : String × String) :
    IsLast (headers ++ [header]) name value ↔
      (name, value) = (lowerName header.1, header.2) ∨
        name ≠ lowerName header.1 ∧ IsLast headers name value := by
  constructor
  · rintro ⟨front, last, back, split, sameName, sameValue, nothingLater⟩
    rcases List.eq_nil_or_concat' back with rfl | ⟨between, final, rfl⟩
    · obtain ⟨_, isLast⟩ := List.append_inj' split rfl
      cases isLast
      exact Or.inl (by rw [sameName, sameValue])
    · rw [← List.cons_append, ← List.append_assoc] at split
      obtain ⟨rfl, isFinal⟩ := List.append_inj' split rfl
      cases isFinal
      have differs := nothingLater header (List.mem_append_right _ List.mem_cons_self)
      refine Or.inr ⟨differs.symm, front, last, between, rfl, sameName, sameValue, ?_⟩
      intro later member
      exact nothingLater later (List.mem_append_left _ member)
  · intro isLast
    rcases isLast with isNew | ⟨differs, front, last, back, rfl, sameName, sameValue, nothingLater⟩
    · cases isNew
      exact ⟨headers, header, [], rfl, rfl, rfl, fun _ absent => nomatch absent⟩
    · refine ⟨front, last, back ++ [header], ?_, sameName, sameValue, ?_⟩
      · rw [List.append_assoc, List.cons_append]
      · intro later member
        rcases List.mem_append.mp member with inBack | isHeader
        · exact nothingLater later inBack
        · rw [List.mem_singleton.mp isHeader]
          exact differs.symm

/-- Headers put in one after another: each name has the value of the last that goes by it. -/
theorem mem_foldl_put (headers : List (String × String)) :
    Distinct (headers.foldl put []) ∧
      ∀ name value, (name, value) ∈ headers.foldl put [] ↔ IsLast headers name value := by
  induction headers using List.reverseRecOn with
  | nil =>
      refine ⟨List.nodup_nil, fun name value => ⟨nofun, ?_⟩⟩
      rintro ⟨front, last, back, split, _⟩
      cases front <;> cases split
  | append_singleton headers header ih =>
      obtain ⟨distinct, members⟩ := ih
      rw [List.foldl_append]
      refine ⟨distinct.insert _ _, fun name value => ?_⟩
      rw [isLast_concat, ← members name value]
      exact mem_insert distinct _ _ _

theorem ofList_eq_error_iff (error : Error) :
    ofList headers = .error error ↔ headers.findSome? flaw? = some error := by
  rw [ofList, foldlM_add]
  cases headers.findSome? flaw? with
  | some first => simp only [Except.error.injEq, Option.some.injEq]
  | none => simp only [reduceCtorEq]

theorem ofList_eq_ok_iff (result : Headers) :
    ofList headers = .ok result ↔
      (∀ header ∈ headers, Fits header) ∧ headers.foldl put [] = result := by
  have sound : headers.findSome? flaw? = none ↔ ∀ header ∈ headers, Fits header := by
    simp only [List.findSome?_eq_none_iff, flaw?_eq_none_iff]
  rw [ofList, foldlM_add, ← sound]
  cases headers.findSome? flaw? with
  | some first => simp only [reduceCtorEq, false_and]
  | none => simp only [Except.ok.injEq, true_and]

theorem mem_of_ofList {result : Headers} (built : ofList headers = .ok result)
    (name value : String) : (name, value) ∈ result ↔ IsLast headers name value := by
  obtain ⟨_, rfl⟩ := (ofList_eq_ok_iff result).mp built
  exact (mem_foldl_put headers).2 name value

theorem value_unique {result : Headers} {other : String} (built : ofList headers = .ok result)
    (isValue : (name, value) ∈ result) (isOther : (name, other) ∈ result) : value = other := by
  obtain ⟨_, rfl⟩ := (ofList_eq_ok_iff result).mp built
  have distinct := (mem_foldl_put headers).1
  exact (Prod.mk.inj (List.inj_on_of_nodup_map distinct isValue isOther rfl)).2

theorem exists_isLast {header : String × String} (member : header ∈ headers) :
    ∃ value, IsLast headers (lowerName header.1) value := by
  induction headers using List.reverseRecOn with
  | nil => cases member
  | append_singleton headers final ih =>
      by_cases same : lowerName header.1 = lowerName final.1
      · exact ⟨final.2, (isLast_concat _ _).mpr (Or.inl (by rw [same]))⟩
      · rcases List.mem_append.mp member with before | isFinal
        · obtain ⟨value, isLast⟩ := ih before
          exact ⟨value, (isLast_concat _ _).mpr (Or.inr ⟨same, isLast⟩)⟩
        · rw [List.mem_singleton.mp isFinal] at same
          exact absurd rfl same

/-- Where headers for one name agree on its value, a name has the value of any of them. -/
theorem isLast_iff_exists
    (agree : ∀ one ∈ headers, ∀ other ∈ headers, lowerName one.1 = lowerName other.1 →
      one.2 = other.2) :
    IsLast headers name value ↔
      ∃ header ∈ headers, lowerName header.1 = name ∧ header.2 = value := by
  constructor
  · rintro ⟨front, last, back, rfl, sameName, sameValue, _⟩
    exact ⟨last, List.mem_append_right _ List.mem_cons_self, sameName, sameValue⟩
  · rintro ⟨header, member, rfl, rfl⟩
    obtain ⟨value, isLast⟩ := exists_isLast member
    rcases isLast with ⟨front, last, back, rfl, sameName, rfl, nothingLater⟩
    have there : last ∈ front ++ last :: back := List.mem_append_right _ List.mem_cons_self
    have sameValue := agree last there header member sameName
    exact ⟨front, last, back, rfl, sameName, sameValue, nothingLater⟩

/-- Flaws of one kind are reported in any order. -/
theorem ofList_eq_error_of_flaw {header : String × String} {error : Error}
    (member : header ∈ headers) (flawed : flaw? header = some error)
    (alone : ∀ other ∈ headers, flaw? other = none ∨ flaw? other = some error) :
    ofList headers = .error error := by
  apply (ofList_eq_error_iff error).mpr
  cases first : headers.findSome? flaw? with
  | none =>
      have sound := List.findSome?_eq_none_iff.mp first header member
      cases sound.symm.trans flawed
  | some found =>
      obtain ⟨other, isOther, found⟩ := List.exists_of_findSome?_eq_some first
      rcases alone other isOther with sound | same
      · cases sound.symm.trans found
      · exact found.symm.trans same

/-- In every order the first header can be any of them. -/
theorem error_of_alike {header : String × String} {error : Error} (member : header ∈ headers)
    (flawed : flaw? header = some error)
    (alike : ∀ order : List (String × String), order.Perm headers →
      Alike (ofList order) (ofList headers)) : ofList headers = .error error := by
  have same := alike (header :: headers.erase header) (List.perm_cons_erase member).symm
  have first : ofList (header :: headers.erase header) = .error error := by
    apply (ofList_eq_error_iff error).mpr
    rw [List.findSome?_cons, flawed]
  rw [first] at same
  cases whole : ofList headers with
  | ok result =>
      rw [whole] at same
      cases same
  | error other =>
      rw [whole] at same
      exact congrArg Except.error (Eq.symm same)

/-- In every order the last header can be any of them. -/
theorem mem_of_alike {header : String × String} {result : Headers} (member : header ∈ headers)
    (built : ofList headers = .ok result)
    (alike : ∀ order : List (String × String), order.Perm headers →
      Alike (ofList order) (ofList headers)) : (lowerName header.1, header.2) ∈ result := by
  have moved : (headers.erase header ++ [header]).Perm headers :=
    (List.perm_append_singleton header _).trans (List.perm_cons_erase member).symm
  have same := alike _ moved
  rw [built] at same
  cases last : ofList (headers.erase header ++ [header]) with
  | error error =>
      rw [last] at same
      cases same
  | ok other =>
      rw [last] at same
      apply (same _).mp
      apply (mem_of_ofList last _ _).mpr
      exact (isLast_concat _ _).mpr (Or.inl rfl)

theorem alike_of_no_clash (noClash : ¬ Clash headers) (moved : order.Perm headers) :
    Alike (ofList order) (ofList headers) := by
  by_cases fit : ∀ header ∈ headers, Fits header
  · have agree : ∀ one ∈ headers, ∀ other ∈ headers, lowerName one.1 = lowerName other.1 →
        one.2 = other.2 := by
      intro one isOne other isOther sameName
      apply Decidable.byContradiction
      intro differs
      exact noClash (.values fit isOne isOther sameName differs)
    have agreeMoved : ∀ one ∈ order, ∀ other ∈ order, lowerName one.1 = lowerName other.1 →
        one.2 = other.2 := by
      intro one isOne other isOther sameName
      exact agree one (moved.mem_iff.mp isOne) other (moved.mem_iff.mp isOther) sameName
    have fitMoved : ∀ header ∈ order, Fits header :=
      fun header member => fit header (moved.mem_iff.mp member)
    have built := (ofList_eq_ok_iff _).mpr ⟨fit, rfl⟩
    have builtMoved := (ofList_eq_ok_iff _).mpr ⟨fitMoved, rfl⟩
    rw [built, builtMoved]
    rintro ⟨name, value⟩
    rw [mem_of_ofList built, mem_of_ofList builtMoved, isLast_iff_exists agree,
      isLast_iff_exists agreeMoved]
    simp only [moved.mem_iff]
  · obtain ⟨bad, isBad, unfit⟩ : ∃ bad ∈ headers, ¬ Fits bad := by
      simpa only [not_forall, exists_prop] using fit
    obtain ⟨error, flawed⟩ : ∃ error, flaw? bad = some error := by
      apply Option.ne_none_iff_exists'.mp
      intro sound
      exact unfit ((flaw?_eq_none_iff bad).mp sound)
    have alone : ∀ other ∈ headers, flaw? other = none ∨ flaw? other = some error := by
      intro other isOther
      cases otherFlaw : flaw? other with
      | none => exact Or.inl rfl
      | some otherError =>
          refine Or.inr (congrArg some ?_)
          cases error with
          | name =>
              cases otherError with
              | name => rfl
              | value =>
                  have badName := (flaw?_eq_name_iff bad).mp flawed
                  obtain ⟨goodName, badValue⟩ := (flaw?_eq_value_iff other).mp otherFlaw
                  exact absurd (.flaws isBad isOther badName goodName badValue) noClash
          | value =>
              cases otherError with
              | value => rfl
              | name =>
                  have badName := (flaw?_eq_name_iff other).mp otherFlaw
                  obtain ⟨goodName, badValue⟩ := (flaw?_eq_value_iff bad).mp flawed
                  exact absurd (.flaws isOther isBad badName goodName badValue) noClash
    have reported := ofList_eq_error_of_flaw isBad flawed alone
    have reportedMoved := ofList_eq_error_of_flaw (moved.mem_iff.mpr isBad) flawed
      fun other member => alone other (moved.mem_iff.mp member)
    rw [reported, reportedMoved]
    rfl

theorem no_clash_of_alike
    (alike : ∀ order : List (String × String), order.Perm headers →
      Alike (ofList order) (ofList headers)) : ¬ Clash headers := by
  intro clash
  cases clash with
  | flaws isOne isOther badName goodName badValue =>
      have nameFlaw := (flaw?_eq_name_iff _).mpr badName
      have valueFlaw := (flaw?_eq_value_iff _).mpr ⟨goodName, badValue⟩
      have asName := error_of_alike isOne nameFlaw alike
      have asValue := error_of_alike isOther valueFlaw alike
      cases asName.symm.trans asValue
  | values fit isOne isOther sameName differs =>
      have built := (ofList_eq_ok_iff _).mpr ⟨fit, rfl⟩
      have hasOne := mem_of_alike isOne built alike
      have hasOther := mem_of_alike isOther built alike
      rw [sameName] at hasOne
      exact differs (value_unique built hasOne hasOther)

/-- What comes of headers that are given in some order. They are all set if each may be sent, and then
each name has the value of the last header that goes by it. Else the first that may not be sent is
reported. So the order shows exactly in a clash, of two names that differ only in case or of two
kinds of error. -/
theorem order_shows_iff_clash (headers : List (String × String)) :
    ((∃ result, ofList headers = .ok result) ↔ ∀ header ∈ headers, Fits header) ∧
      (∀ result, ofList headers = .ok result →
        ∀ name value, (name, value) ∈ result ↔ IsLast headers name value) ∧
      (∀ error, ofList headers = .error error ↔
        ∃ front first back, headers = front ++ first :: back ∧ (∀ header ∈ front, Fits header) ∧
          flaw? first = some error) ∧
      ((∀ order : List (String × String), order.Perm headers →
        Alike (ofList order) (ofList headers)) ↔ ¬ Clash headers) := by
  refine ⟨?_, ?_, ?_, ?_⟩
  · constructor
    · rintro ⟨result, built⟩
      exact ((ofList_eq_ok_iff result).mp built).1
    · intro fit
      exact ⟨_, (ofList_eq_ok_iff _).mpr ⟨fit, rfl⟩⟩
  · intro result built name value
    exact mem_of_ofList built name value
  · intro error
    rw [ofList_eq_error_iff, List.findSome?_eq_some_iff]
    simp only [flaw?_eq_none_iff]
    constructor
    · rintro ⟨front, first, back, split, flawed, sound⟩
      exact ⟨front, first, back, split, sound, flawed⟩
    · rintro ⟨front, first, back, split, sound, flawed⟩
      exact ⟨front, first, back, split, flawed, sound⟩
  · constructor
    · intro alike
      exact no_clash_of_alike alike
    · intro noClash order moved
      exact alike_of_no_clash noClash moved

/-- The order of headers with different names can show, both in a value and in the kind of error. -/
theorem order_of_headers_can_show :
    (¬ ∀ headers order : List (String × String), (headers.map Prod.fst).Nodup →
      order.Perm headers → (∃ result, ofList headers = .ok result) →
      Alike (ofList order) (ofList headers)) ∧
    ¬ ∀ headers order : List (String × String), (headers.map Prod.fst).Nodup →
      order.Perm headers → (∃ error, ofList headers = .error error) →
      Alike (ofList order) (ofList headers) := by
  constructor
  · intro neverShows
    have fit : ∀ header ∈ [("X-Key", "a"), ("x-key", "b")], Fits header := by
      intro header member
      simp only [List.mem_cons, List.not_mem_nil, or_false] at member
      rcases member with rfl | rfl <;> exact ⟨by decide, by decide⟩
    have clash : Clash [("X-Key", "a"), ("x-key", "b")] :=
      .values fit List.mem_cons_self (List.mem_cons_of_mem _ List.mem_cons_self) (by decide)
        (by decide)
    apply no_clash_of_alike _ clash
    intro order moved
    exact neverShows _ order (by decide) moved ⟨_, (ofList_eq_ok_iff _).mpr ⟨fit, rfl⟩⟩
  · intro neverShows
    have clash : Clash [("", "a"), ("x-key", "\n")] :=
      .flaws List.mem_cons_self (List.mem_cons_of_mem _ List.mem_cons_self) (by decide) (by decide)
        (by decide)
    apply no_clash_of_alike _ clash
    intro order moved
    have reported : ofList [("", "a"), ("x-key", "\n")] = .error .name :=
      (ofList_eq_error_iff _).mpr (by decide)
    exact neverShows _ order (by decide) moved ⟨_, reported⟩

end PollHerald.Hub.Headers
