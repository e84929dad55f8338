import DamlBindings.Lib.StepWalk
import DamlBindings.Macro.PathSyntax

/-!
# What a path expression extracts

The code of a path expression reads a value out of a record.  It walks along the address of the
path, whose steps go from a value to one inside it, and hands what it finds to the accessor of the
type specifier.
-/

namespace DamlBindings.Macro

open Grpc StepWalk

variable {N D T : Type}

/-! ### Running the code -/

/-- `daml_path!(@get_list_item $value, $index)` -/
def getListItem (value : DamlValue N D T) (index : Nat) : LedgerResult (DamlValue N D T) := do
  let fieldAsList ← value.tryList.lift
  match fieldAsList[index]? with
  | some item => .ok item
  | none => .error (.listIndexOutOfRange index)

/-- `daml_path!(@get_variant_value $value, $variant)` -/
def getVariantValue (value : DamlValue N D T) (variant : String) :
    DamlResult (DamlValue N D T) := do
  let v ← value.tryVariant
  if variant = "__" ∨ v.constructor = variant then .ok v.value
  else .error (.unexpectedVariant variant v.constructor)

/-- `$value.try_optional()?.ok_or(DamlError::MissingRequiredField)?` -/
def getOptionalValue (value : DamlValue N D T) : DamlResult (DamlValue N D T) := do
  req (← value.tryOptional)

/-- The block of a path element, up to its last binding. -/
def PathElement.read (e : PathElement) (record : DamlRecord (DamlValue N D T)) :
    LedgerResult (DamlValue N D T) := do
  let fieldValue ← (record.field e.field).lift
  let variantValue ← match e.variant with
    | some variant => (getVariantValue fieldValue variant).lift
    | none => .ok fieldValue
  let listItemValue ← match e.index with
    | some index => getListItem variantValue index
    | none => .ok variantValue
  if e.optional then (getOptionalValue listItemValue).lift else .ok listItemValue

/-- What a path expression returns: a value, or what is in one. -/
inductive Extracted (N D T : Type) where
  | value (v : DamlValue N D T)
  | contractId (v : DamlContractId)
  | unit
  | party (v : DamlParty)
  | int64 (v : Int64)
  | numeric (v : N)
  | text (v : String)
  | bool (v : Bool)
  | timestamp (v : T)
  | date (v : D)
  | record (v : DamlRecord (DamlValue N D T))
  | list (v : List (DamlValue N D T))
  | variant (v : DamlVariant (DamlValue N D T))

/-- The accessor that a leaf calls. -/
def TypeSpecifier.access : TypeSpecifier → DamlValue N D T → DamlResult (Extracted N D T)
  | contractId, v => .contractId <$> v.tryContractId
  | unit, v => (fun _ => .unit) <$> v.tryUnitRef
  | party, v => .party <$> v.tryParty
  | int64, v => .int64 <$> v.tryInt64Ref
  | numeric, v => .numeric <$> v.tryNumeric
  | text, v => .text <$> v.tryText
  | bool, v => .bool <$> v.tryBoolRef
  | timestamp, v => .timestamp <$> v.tryTimestampRef
  | date, v => .date <$> v.tryDateRef
  | record, v => .record <$> v.tryRecord
  | list, v => .list <$> v.tryList
  | variant, v => .variant <$> v.tryVariant

/-- A leaf. -/
def leafValue : Option TypeSpecifier → DamlValue N D T → DamlResult (Extracted N D T)
  | some type, v => type.access v
  | none, v => .ok (.value v)

/-- The function of a record that a block computes, where the code is a block for a record. -/
def Expansion.onRecord : Expansion →
    Option (DamlRecord (DamlValue N D T) → LedgerResult (Extracted N D T))
  | .final e (.leaf type) => some fun record => do (leafValue type (← e.read record)).lift
  | .nonFinal e rest => do
    let rest ← rest.onRecord
    return fun record => do
      let fieldAsRecord ← (← e.read record).tryRecord.lift
      rest fieldAsRecord
  | _ => none

/-- The closure that the macro returns, where the code is one. -/
def Expansion.extractor : Expansion →
    Option (DamlRecord (DamlValue N D T) → LedgerResult (Extracted N D T))
  | .closure body => body.onRecord
  | _ => none

/-! ### Addresses -/

/-- A step from a value to one inside it. -/
inductive Step where
  | field (label : String)
  | variant (constructor : String)
  | index (i : Nat)
  | content
deriving DecidableEq, Repr

/-- Where a step leads, and what it reports where it leads nowhere. -/
def Step.take : Step → DamlValue N D T → LedgerResult (DamlValue N D T)
  | field label, v => do ((← v.tryRecord.lift).field label).lift
  | variant constructor, v => (getVariantValue v constructor).lift
  | index i, v => getListItem v i
  | content, v => (getOptionalValue v).lift

/-- The steps of an element that follow its field. -/
def PathElement.accesses (e : PathElement) : List Step :=
  e.variant.toList.map .variant ++ e.index.toList.map .index ++
    if e.optional then [.content] else []

/-- The steps of an element. -/
def PathElement.address (e : PathElement) : List Step := .field e.field :: e.accesses

/-- The steps of a path. -/
def DamlPath.address (p : DamlPath) : List Step :=
  p.init.flatMap PathElement.address ++ p.last.address

/-- Where a step leads: to the first field with the label, to what is under the constructor, to the
item at the index, to what is in the optional. -/
inductive Step.Goes : Step → DamlValue N D T → DamlValue N D T → Prop
  | field {r : DamlRecord (DamlValue N D T)} {label : String} {w : DamlValue N D T} :
      (r.occurrences label).head? = some w → Goes (.field label) (.record r) w
  | variant {x : DamlVariant (DamlValue N D T)} {c : String} :
      c = "__" ∨ x.constructor = c → Goes (.variant c) (.variant x) x.value
  | index {l : List (DamlValue N D T)} {i : Nat} {w : DamlValue N D T} :
      l[i]? = some w → Goes (.index i) (.list l) w
  | content {w : DamlValue N D T} : Goes .content (.optional (some w)) w

/-- What a step reports where it leads nowhere. -/
def Step.report : Step → DamlValue N D T → LedgerError
  | .field label, .record _ => .daml (.unknownField label)
  | .field _, v => .daml (.unexpectedType "Record" v.variantName)
  | .variant c, .variant x => .daml (.unexpectedVariant c x.constructor)
  | .variant _, v => .daml (.unexpectedType "Variant" v.variantName)
  | .index i, .list _ => .listIndexOutOfRange i
  | .index _, v => .daml (.unexpectedType "List" v.variantName)
  | .content, .optional _ => .daml .missingRequiredField
  | .content, v => .daml (.unexpectedType "Optional" v.variantName)

section Steps

variable {v w : DamlValue N D T} {s : Step} {e : LedgerError}

lemma goes_field {r : DamlRecord (DamlValue N D T)} {label : String} :
    Step.Goes (.field label) (.record r) w ↔ (r.occurrences label).head? = some w :=
  ⟨fun h => by cases h; assumption, .field⟩

lemma goes_variant {x : DamlVariant (DamlValue N D T)} {c : String} :
    Step.Goes (.variant c) (.variant x) w ↔ (c = "__" ∨ x.constructor = c) ∧ x.value = w :=
  ⟨fun h => by cases h; exact ⟨by assumption, rfl⟩, fun ⟨h, hw⟩ => hw ▸ .variant h⟩

lemma goes_index {l : List (DamlValue N D T)} {i : Nat} :
    Step.Goes (.index i) (.list l) w ↔ l[i]? = some w :=
  ⟨fun h => by cases h; assumption, .index⟩

/-- A step leads to a value, or it leads nowhere and reports. -/
lemma take_cases (s : Step) (v : DamlValue N D T) : (∃ w, s.Goes v w ∧ s.take v = .ok w) ∨
    (∀ w, ¬ s.Goes v w) ∧ s.take v = .error (s.report v) := by
  cases s with
  | field label =>
    cases v with
    | record r =>
      have htake : (Step.field label).take (.record r) = (r.occurrence label 0).lift := by
        rw [← DamlRecord.field_eq_occurrence]
        rfl
      rw [htake, DamlRecord.occurrence, ← List.head?_eq_getElem?]
      rcases hw : (r.occurrences label).head? with _ | w
      · refine .inr ⟨fun w h => ?_, rfl⟩
        rw [goes_field, hw] at h
        cases h
      · exact .inl ⟨w, .field hw, rfl⟩
    | _ => exact .inr ⟨fun w h => (by cases h), rfl⟩
  | variant c =>
    cases v with
    | variant x =>
      have htake : (Step.variant c).take (.variant x : DamlValue N D T) =
          (if c = "__" ∨ x.constructor = c then .ok x.value
            else .error (.unexpectedVariant c x.constructor) : DamlResult _).lift := rfl
      by_cases hc : c = "__" ∨ x.constructor = c
      · exact .inl ⟨x.value, .variant hc, by rw [htake, if_pos hc]; rfl⟩
      · refine .inr ⟨fun w h => hc (goes_variant.1 h).1, ?_⟩
        rw [htake, if_neg hc]
        rfl
    | _ => exact .inr ⟨fun w h => (by cases h), rfl⟩
  | index i =>
    cases v with
    | list l =>
      have htake : (Step.index i).take (.list l : DamlValue N D T) =
          match l[i]? with
          | some item => .ok item
          | none => .error (.listIndexOutOfRange i) := rfl
      rw [htake]
      rcases hw : l[i]? with _ | w
      · refine .inr ⟨fun w h => ?_, rfl⟩
        rw [goes_index, hw] at h
        cases h
      · exact .inl ⟨w, .index hw, rfl⟩
    | _ => exact .inr ⟨fun w h => (by cases h), rfl⟩
  | content =>
    cases v with
    | optional o =>
      cases o with
      | none => exact .inr ⟨fun w h => (by cases h), rfl⟩
      | some w => exact .inl ⟨w, .content, rfl⟩
    | _ => exact .inr ⟨fun w h => (by cases h), rfl⟩

lemma goes_unique {w' : DamlValue N D T} (h : s.Goes v w) (h' : s.Goes v w') : w = w' := by
  cases h with
  | field hw => exact Option.some.inj (hw.symm.trans (goes_field.1 h'))
  | variant => exact (goes_variant.1 h').2
  | index hw => exact Option.some.inj (hw.symm.trans (goes_index.1 h'))
  | content => cases h'; rfl

lemma take_spec : Spec (Step.take : Step → DamlValue N D T → _) Step.Goes Step.report where
  ok_iff {s a b} := by
    rcases take_cases s a with ⟨w, hgo, htake⟩ | ⟨hgo, htake⟩ <;> rw [htake]
    · exact ⟨fun h => by cases h; exact hgo, fun h => by rw [goes_unique hgo h]⟩
    · exact ⟨fun h => (by cases h), fun h => absurd h (hgo b)⟩
  error_iff {s a e} := by
    rcases take_cases s a with ⟨w, hgo, htake⟩ | ⟨hgo, htake⟩ <;> rw [htake]
    · exact ⟨fun h => (by cases h), fun h => absurd hgo (h.1 w)⟩
    · exact ⟨fun h => by cases h; exact ⟨hgo, rfl⟩, fun h => by rw [h.2]⟩

end Steps

/-! ### The code walks along the address -/

section Run

variable {record : DamlRecord (DamlValue N D T)}

/-- The block of an element takes the steps of its address. -/
lemma read_eq_walk (e : PathElement) :
    e.read record = walk Step.take e.address (.record record) := by
  have hfield (label : String) :
      (Step.field label).take (.record record) = (record.field label).lift := rfl
  have hok (v : DamlValue N D T) (f : DamlValue N D T → LedgerResult (DamlValue N D T)) :
      (.ok v >>= f) = f v := rfl
  have hpure (x : LedgerResult (DamlValue N D T)) : (x >>= fun v => .ok v) = x := bind_pure x
  have hcons (s : Step) (steps : List Step) :
      walk (Step.take : Step → DamlValue N D T → _) (s :: steps) =
        fun v => s.take v >>= walk Step.take steps := funext fun v => walk_cons
  obtain ⟨field, variant, index, optional⟩ := e
  rw [PathElement.read, PathElement.address, PathElement.accesses, walk_cons, hfield]
  refine congrArg _ (funext fun fieldValue => ?_)
  cases variant <;> cases index <;> cases optional <;> simp [hcons, Step.take, hok, hpure]

/-- The walk from a value begins with the record that the value is. -/
lemma tryRecord_bind_walk {label : String} {steps : List Step} (v : DamlValue N D T) :
    (v.tryRecord.lift >>= fun r => walk Step.take (.field label :: steps) (.record r)) =
      walk Step.take (.field label :: steps) v := by
  cases v <;> rfl

lemma DamlPath.exists_address (p : DamlPath) :
    ∃ label steps, p.address = .field label :: steps := by
  obtain ⟨_ | ⟨e, init⟩, last, type⟩ := p
  · exact ⟨last.field, _, rfl⟩
  · exact ⟨e.field, _, rfl⟩

/-- By induction on the elements in front of the last one. -/
lemma onRecord_body (p : DamlPath) :
    ∃ f, p.body.onRecord = some f ∧ ∀ record : DamlRecord (DamlValue N D T),
      f record =
        walk Step.take p.address (.record record) >>= fun v => (leafValue p.type v).lift := by
  obtain ⟨init, last, type⟩ := p
  induction init with
  | nil =>
    refine ⟨_, rfl, fun record => ?_⟩
    rw [read_eq_walk]
    rfl
  | cons e init ih =>
    obtain ⟨f, hf, hrun⟩ := ih
    obtain ⟨label, steps, haddress⟩ := DamlPath.exists_address ⟨init, last, type⟩
    refine ⟨fun record => do
      let fieldAsRecord ← (← e.read record).tryRecord.lift
      f fieldAsRecord, ?_, fun record => ?_⟩
    · have hbody : DamlPath.body ⟨e :: init, last, type⟩ =
          .nonFinal e (DamlPath.body ⟨init, last, type⟩) := rfl
      rw [hbody, Expansion.onRecord, hf]
      rfl
    · have hsplit : DamlPath.address ⟨e :: init, last, type⟩ =
          e.address ++ DamlPath.address ⟨init, last, type⟩ := by
        simp [DamlPath.address]
      rw [hsplit, walk_append, ← read_eq_walk, bind_assoc]
      refine congrArg _ (funext fun v => ?_)
      rw [haddress, ← tryRecord_bind_walk, bind_assoc]
      refine congrArg _ (funext fun r => ?_)
      rw [hrun, haddress]

end Run

/-! ### Leaves -/

/-- The variant that the accessor of a specifier expects. -/
def TypeSpecifier.expected : TypeSpecifier → String
  | contractId => "ContractId"
  | unit => "Unit"
  | party => "Party"
  | int64 => "Int64"
  | numeric => "Numeric"
  | text => "Text"
  | bool => "Bool"
  | timestamp => "Timestamp"
  | date => "Date"
  | record => "Record"
  | list => "List"
  | variant => "Variant"

/-- The value that is extracted or was read. -/
def Extracted.toValue : Extracted N D T → DamlValue N D T
  | value v => v
  | contractId c => .contractId c
  | unit => .unit
  | party p => .party p
  | int64 i => .int64 i
  | numeric n => .numeric n
  | text s => .text s
  | bool b => .bool b
  | timestamp t => .timestamp t
  | date d => .date d
  | record r => .record r
  | list l => .list l
  | variant x => .variant x

/-- The specifier that it was read by. -/
def Extracted.type : Extracted N D T → Option TypeSpecifier
  | value _ => none
  | contractId _ => some .contractId
  | unit => some .unit
  | party _ => some .party
  | int64 _ => some .int64
  | numeric _ => some .numeric
  | text _ => some .text
  | bool _ => some .bool
  | timestamp _ => some .timestamp
  | date _ => some .date
  | record _ => some .record
  | list _ => some .list
  | variant _ => some .variant

section Leaf

variable {v : DamlValue N D T} {t : TypeSpecifier} {type : Option TypeSpecifier}
  {a : Extracted N D T} {e : DamlError}

/-- An accessor reads the values of its variant and expects it. -/
lemma access_cases (t : TypeSpecifier) (v : DamlValue N D T) :
    (∃ a : Extracted N D T, t.access v = .ok a ∧ a.type = some t ∧ a.toValue = v) ∨
      t.expected ≠ v.variantName ∧
        t.access v = .error (.unexpectedType t.expected v.variantName) := by
  cases t <;> cases v <;> first
    | exact .inl ⟨_, rfl, rfl, rfl⟩
    | exact .inr ⟨by simp [TypeSpecifier.expected, DamlValue.variantName], rfl⟩

/-- What was read by a specifier is of the variant it expects. -/
lemma variantName_toValue (h : a.type = some t) : a.toValue.variantName = t.expected := by
  cases a <;> cases h <;> rfl

lemma eq_of_toValue {a' : Extracted N D T} (htype : a.type = a'.type)
    (h : a.toValue = a'.toValue) : a = a' := by
  cases a <;> cases a' <;> cases htype <;> cases h <;> rfl

lemma leafValue_eq_ok : leafValue type v = .ok a ↔ a.type = type ∧ a.toValue = v := by
  cases type with
  | none =>
    constructor
    · rintro ⟨⟩
      exact ⟨rfl, rfl⟩
    · rintro ⟨htype, rfl⟩
      cases a <;> cases htype
      rfl
  | some t =>
    show t.access v = .ok a ↔ _
    rcases access_cases t v with ⟨b, hb, htype, hval⟩ | ⟨hne, herr⟩
    · rw [hb]
      constructor
      · rintro ⟨⟩
        exact ⟨htype, hval⟩
      · rintro ⟨htype', hval'⟩
        rw [eq_of_toValue (htype.trans htype'.symm) (hval.trans hval'.symm)]
    · rw [herr]
      constructor
      · intro h
        cases h
      · rintro ⟨htype, rfl⟩
        exact absurd (variantName_toValue htype).symm hne

lemma leafValue_eq_error : leafValue type v = .error e ↔ ∃ t, type = some t ∧
    t.expected ≠ v.variantName ∧ e = .unexpectedType t.expected v.variantName := by
  cases type with
  | none =>
    constructor
    · intro h
      cases h
    · rintro ⟨t, ht, -⟩
      cases ht
  | some t =>
    show t.access v = .error e ↔ _
    rcases access_cases t v with ⟨a, ha, htype, rfl⟩ | ⟨hne, herr⟩
    · rw [ha]
      constructor
      · intro h
        cases h
      · rintro ⟨t', ht, hne, -⟩
        cases ht
        exact absurd (variantName_toValue htype).symm hne
    · rw [herr]
      constructor
      · rintro ⟨⟩
        exact ⟨t, rfl, hne, rfl⟩
      · rintro ⟨t', ht, -, rfl⟩
        cases ht
        rfl

end Leaf

/-- The closure of a path expression, applied to any value with `extract`, returns exactly what
stands at the address of the path, of the type that the specifier names.  It fails exactly if a step
of the address leads nowhere, with the report of the first such step, or if what stands there is
of another variant than the specifier expects. -/
theorem extract_path (p : DamlPath) :
    ∃ f : DamlRecord (DamlValue N D T) → LedgerResult (Extracted N D T),
      p.expansion.extractor = some f ∧ ∀ value : DamlValue N D T,
        (∀ a, value.extract f = .ok a ↔
          a.type = p.type ∧ Leads Step.Goes p.address value a.toValue) ∧
        ∀ e, value.extract f = .error e ↔ Refuses Step.Goes Step.report p.address value e ∨
          ∃ v t, Leads Step.Goes p.address value v ∧ p.type = some t ∧
            t.expected ≠ v.variantName ∧ e = .daml (.unexpectedType t.expected v.variantName) := by
  obtain ⟨f, hf, hrun⟩ := onRecord_body (N := N) (D := D) (T := T) p
  obtain ⟨label, steps, haddress⟩ := p.exists_address
  have hextract (value : DamlValue N D T) : value.extract f =
      walk Step.take p.address value >>= fun v => (leafValue p.type v).lift := by
    rw [DamlValue.extract, haddress, ← tryRecord_bind_walk, bind_assoc]
    exact congrArg _ (funext fun r => by rw [hrun, haddress])
  have hlift (v : DamlValue N D T) (a : Extracted N D T) :
      (leafValue p.type v).lift = .ok a ↔ leafValue p.type v = .ok a := by
    cases leafValue p.type v <;> simp
  have hlift' (v : DamlValue N D T) (e : LedgerError) :
      (leafValue p.type v).lift = .error e ↔
        ∃ e', leafValue p.type v = .error e' ∧ e = .daml e' := by
    cases leafValue p.type v <;> simp [eq_comm]
  refine ⟨f, hf, fun value => ⟨fun a => ?_, fun e => ?_⟩⟩
  · rw [hextract, Except.bind_eq_ok]
    simp only [walk_eq_ok take_spec, hlift, leafValue_eq_ok]
    constructor
    · rintro ⟨v, hlead, htype, rfl⟩
      exact ⟨htype, hlead⟩
    · rintro ⟨htype, hlead⟩
      exact ⟨_, hlead, htype, rfl⟩
  · rw [hextract, Except.bind_eq_error, walk_eq_error take_spec]
    simp only [walk_eq_ok take_spec, hlift', leafValue_eq_error]
    constructor
    · rintro (h | ⟨v, hlead, e', ⟨t, htype, hne, rfl⟩, rfl⟩)
      · exact .inl h
      · exact .inr ⟨v, t, hlead, htype, hne, rfl⟩
    · rintro (h | ⟨v, t, hlead, htype, hne, rfl⟩)
      · exact .inl h
      · exact .inr ⟨v, hlead, _, ⟨t, htype, hne, rfl⟩, rfl⟩

end DamlBindings.Macro
