import DamlBindings.Lib.AssocMap

/-!
# Ledger values

The value type of the Ledger API bindings (`daml-grpc`, `data/value`).  The decimal, date and
date-time types come from other crates, so the value type is generic in them: `N` is
`BigDecimal`, `D` is `NaiveDate` and `T` is `DateTime<Utc>`.

A `DamlTextMap` is a hash map, listed in its iteration order; a `DamlGenMap` is a `BTreeMap`,
listed in the order of its keys.
-/

namespace DamlBindings.Grpc

/-- Unique identifier of an entity on a Daml ledger. -/
structure DamlIdentifier where
  packageRef : String
  moduleName : String
  entityName : String
deriving DecidableEq, Repr

structure DamlParty where
  party : String
deriving DecidableEq, Repr

/-- A raw Daml `ContractId` string. -/
structure DamlContractId where
  contractId : String
deriving DecidableEq, Repr

/-- A single field on a Daml record, over the type `V` of values. -/
structure DamlRecordField (V : Type) where
  label : Option String
  value : V

structure DamlRecord (V : Type) where
  recordId : Option DamlIdentifier
  fields : List (DamlRecordField V)

structure DamlVariant (V : Type) where
  variantId : Option DamlIdentifier
  constructor : String
  value : V

structure DamlEnum where
  enumId : Option DamlIdentifier
  constructor : String
deriving DecidableEq, Repr

/-- A generic representation of data on a Daml ledger. -/
inductive DamlValue (N D T : Type) where
  | record (v : DamlRecord (DamlValue N D T))
  | variant (v : DamlVariant (DamlValue N D T))
  | enum (v : DamlEnum)
  | contractId (v : DamlContractId)
  | list (v : List (DamlValue N D T))
  | int64 (v : Int64)
  | numeric (v : N)
  | text (v : String)
  | timestamp (v : T)
  | party (v : DamlParty)
  | bool (v : Bool)
  | unit
  | date (v : D)
  | optional (v : Option (DamlValue N D T))
  | textMap (v : List (String × DamlValue N D T))
  | genMap (v : List (DamlValue N D T × DamlValue N D T))

namespace DamlValue

variable {N D T : Type}

/-- A stable ordinal per variant. -/
def ordinal : DamlValue N D T → Nat
  | .unit => 0
  | .bool _ => 1
  | .int64 _ => 2
  | .numeric _ => 3
  | .text _ => 4
  | .party _ => 5
  | .contractId _ => 6
  | .timestamp _ => 7
  | .date _ => 8
  | .optional _ => 9
  | .list _ => 10
  | .textMap _ => 11
  | .genMap _ => 12
  | .record _ => 13
  | .variant _ => 14
  | .enum _ => 15

/-- `DamlValue::variant_name`. -/
def variantName : DamlValue N D T → String
  | .record _ => "Record"
  | .variant _ => "Variant"
  | .enum _ => "Enum"
  | .contractId _ => "ContractId"
  | .list _ => "List"
  | .int64 _ => "Int64"
  | .numeric _ => "Numeric"
  | .text _ => "Text"
  | .timestamp _ => "Timestamp"
  | .party _ => "Party"
  | .bool _ => "Bool"
  | .unit => "Unit"
  | .date _ => "Date"
  | .optional _ => "Optional"
  | .textMap _ => "TextMap"
  | .genMap _ => "GenMap"

/-! ### The values inside a value -/

mutual

/-- A value and all values inside it, at any depth. -/
def subvalues : DamlValue N D T → List (DamlValue N D T)
  | .record ⟨id, fs⟩ => .record ⟨id, fs⟩ :: subvaluesFields fs
  | .variant ⟨id, c, v⟩ => .variant ⟨id, c, v⟩ :: subvalues v
  | .list vs => .list vs :: subvaluesList vs
  | .optional (some v) => .optional (some v) :: subvalues v
  | .textMap m => .textMap m :: subvaluesEntries m
  | .genMap m => .genMap m :: subvaluesPairs m
  | v => [v]
termination_by structural v => v

def subvaluesFields : List (DamlRecordField (DamlValue N D T)) → List (DamlValue N D T)
  | [] => []
  | ⟨_, v⟩ :: fs => subvalues v ++ subvaluesFields fs
termination_by structural fs => fs

def subvaluesList : List (DamlValue N D T) → List (DamlValue N D T)
  | [] => []
  | v :: vs => subvalues v ++ subvaluesList vs
termination_by structural vs => vs

def subvaluesEntries : List (String × DamlValue N D T) → List (DamlValue N D T)
  | [] => []
  | (_, v) :: m => subvalues v ++ subvaluesEntries m
termination_by structural m => m

def subvaluesPairs : List (DamlValue N D T × DamlValue N D T) → List (DamlValue N D T)
  | [] => []
  | (k, v) :: m => subvalues k ++ subvalues v ++ subvaluesPairs m
termination_by structural m => m

end

lemma subvaluesFields_eq (fs : List (DamlRecordField (DamlValue N D T))) :
    subvaluesFields fs = fs.flatMap fun f => f.value.subvalues := by
  induction fs with
  | nil => rfl
  | cons f fs ih => exact congrArg (f.value.subvalues ++ ·) ih

lemma subvaluesList_eq (vs : List (DamlValue N D T)) :
    subvaluesList vs = vs.flatMap subvalues := by
  induction vs with
  | nil => rfl
  | cons v vs ih => exact congrArg (v.subvalues ++ ·) ih

lemma subvaluesEntries_eq (m : List (String × DamlValue N D T)) :
    subvaluesEntries m = m.flatMap fun p => p.2.subvalues := by
  induction m with
  | nil => rfl
  | cons p m ih => exact congrArg (p.2.subvalues ++ ·) ih

lemma subvaluesPairs_eq (m : List (DamlValue N D T × DamlValue N D T)) :
    subvaluesPairs m = m.flatMap fun p => p.1.subvalues ++ p.2.subvalues := by
  induction m with
  | nil => rfl
  | cons p m ih => exact congrArg (p.1.subvalues ++ p.2.subvalues ++ ·) ih

section Inside

variable (r : DamlRecord (DamlValue N D T)) (x : DamlVariant (DamlValue N D T))
  (vs : List (DamlValue N D T)) (v : DamlValue N D T)
  (m : List (String × DamlValue N D T)) (g : List (DamlValue N D T × DamlValue N D T))

@[simp] lemma subvalues_record :
    subvalues (.record r) = .record r :: r.fields.flatMap fun f => f.value.subvalues :=
  congrArg (record r :: ·) (subvaluesFields_eq r.fields)

@[simp] lemma subvalues_variant :
    subvalues (.variant x) = .variant x :: x.value.subvalues := rfl

@[simp] lemma subvalues_list : subvalues (.list vs) = .list vs :: vs.flatMap subvalues :=
  congrArg (list vs :: ·) (subvaluesList_eq vs)

@[simp] lemma subvalues_some :
    subvalues (.optional (some v)) = .optional (some v) :: v.subvalues := rfl

@[simp] lemma subvalues_none :
    subvalues (.optional none : DamlValue N D T) = [.optional none] := rfl

@[simp] lemma subvalues_textMap :
    subvalues (.textMap m) = .textMap m :: m.flatMap fun p => p.2.subvalues :=
  congrArg (textMap m :: ·) (subvaluesEntries_eq m)

@[simp] lemma subvalues_genMap : subvalues (.genMap g) =
    .genMap g :: g.flatMap fun p => p.1.subvalues ++ p.2.subvalues :=
  congrArg (genMap g :: ·) (subvaluesPairs_eq g)

end Inside

/-- The timestamps in a value, at any depth. -/
def timestamps (v : DamlValue N D T) : List T :=
  v.subvalues.filterMap fun
    | .timestamp t => some t
    | _ => none

/-- The field labels in a value, at any depth. -/
def labels (v : DamlValue N D T) : List (Option String) :=
  v.subvalues.flatMap fun
    | .record r => r.fields.map DamlRecordField.label
    | _ => []

section Inside

variable (r : DamlRecord (DamlValue N D T)) (x : DamlVariant (DamlValue N D T))
  (vs : List (DamlValue N D T)) (o : Option (DamlValue N D T))
  (m : List (String × DamlValue N D T)) (g : List (DamlValue N D T × DamlValue N D T))

@[simp] lemma timestamps_record :
    timestamps (.record r) = r.fields.flatMap fun f => f.value.timestamps := by
  simp [timestamps, List.filterMap_flatMap]

@[simp] lemma timestamps_variant : timestamps (.variant x) = x.value.timestamps := by
  simp [timestamps]

@[simp] lemma timestamps_list : timestamps (.list vs) = vs.flatMap fun v => v.timestamps := by
  simp [timestamps, List.filterMap_flatMap]

@[simp] lemma timestamps_optional :
    timestamps (.optional o) = o.toList.flatMap timestamps := by
  cases o <;> simp [timestamps]

@[simp] lemma timestamps_textMap :
    timestamps (.textMap m) = m.flatMap fun p => p.2.timestamps := by
  simp [timestamps, List.filterMap_flatMap]

@[simp] lemma timestamps_genMap :
    timestamps (.genMap g) = g.flatMap fun p => p.1.timestamps ++ p.2.timestamps := by
  simp [timestamps, List.filterMap_flatMap, List.filterMap_append]

@[simp] lemma timestamps_timestamp (t : T) :
    timestamps (.timestamp t : DamlValue N D T) = [t] := rfl

@[simp] lemma labels_record : labels (.record r) =
    r.fields.map DamlRecordField.label ++ r.fields.flatMap fun f => f.value.labels := by
  simp [labels, List.flatMap_assoc]

@[simp] lemma labels_variant : labels (.variant x) = x.value.labels := by
  simp [labels]

@[simp] lemma labels_list : labels (.list vs) = vs.flatMap fun v => v.labels := by
  simp [labels, List.flatMap_assoc]

@[simp] lemma labels_optional : labels (.optional o) = o.toList.flatMap labels := by
  cases o <;> simp [labels]

@[simp] lemma labels_textMap : labels (.textMap m) = m.flatMap fun p => p.2.labels := by
  simp [labels, List.flatMap_assoc]

@[simp] lemma labels_genMap :
    labels (.genMap g) = g.flatMap fun p => p.1.labels ++ p.2.labels := by
  simp [labels, List.flatMap_assoc, List.flatMap_append]

end Inside

section Induction

variable {P : DamlValue N D T → Prop}
  (record : ∀ r : DamlRecord (DamlValue N D T), (∀ f ∈ r.fields, P f.value) → P (.record r))
  (variant : ∀ x : DamlVariant (DamlValue N D T), P x.value → P (.variant x))
  (enum : ∀ e, P (.enum e)) (contractId : ∀ c, P (.contractId c))
  (list : ∀ vs, (∀ v ∈ vs, P v) → P (.list vs))
  (int64 : ∀ i, P (.int64 i)) (numeric : ∀ n, P (.numeric n)) (text : ∀ s, P (.text s))
  (timestamp : ∀ t, P (.timestamp t)) (party : ∀ p, P (.party p)) (bool : ∀ b, P (.bool b))
  (unit : P .unit) (date : ∀ d, P (.date d))
  (optional : ∀ o : Option (DamlValue N D T), (∀ v ∈ o, P v) → P (.optional o))
  (textMap : ∀ m : List (String × DamlValue N D T), (∀ p ∈ m, P p.2) → P (.textMap m))
  (genMap : ∀ m : List (DamlValue N D T × DamlValue N D T), (∀ p ∈ m, P p.1 ∧ P p.2) →
    P (.genMap m))

include record variant enum contractId list int64 numeric text timestamp party bool unit date
  optional textMap genMap

/-- Induction on a value, with a hypothesis for every value directly inside it. -/
@[elab_as_elim, induction_eliminator]
theorem induction (v : DamlValue N D T) : P v :=
  @DamlValue.rec N D T P (fun r => ∀ f ∈ r.fields, P f.value) (fun x => P x.value)
    (fun vs => ∀ v ∈ vs, P v) (fun o => ∀ v ∈ o, P v) (fun m => ∀ p ∈ m, P p.2)
    (fun m => ∀ p ∈ m, P p.1 ∧ P p.2) (fun fs => ∀ f ∈ fs, P f.value) (fun p => P p.2)
    (fun p => P p.1 ∧ P p.2) (fun f => P f.value)
    record variant enum contractId list int64 numeric text timestamp party bool unit date
    optional textMap genMap (fun _ _ h => h) (fun _ _ _ h => h)
    (List.forall_mem_nil _) (fun _ _ h hs => List.forall_mem_cons.2 ⟨h, hs⟩)
    (fun _ h => nomatch h) (fun _ h _ hv => Option.mem_some.1 hv ▸ h)
    (List.forall_mem_nil _) (fun _ _ h hs => List.forall_mem_cons.2 ⟨h, hs⟩)
    (List.forall_mem_nil _) (fun _ _ h hs => List.forall_mem_cons.2 ⟨h, hs⟩)
    (List.forall_mem_nil _) (fun _ _ h hs => List.forall_mem_cons.2 ⟨h, hs⟩)
    (fun _ _ h => h) (fun _ _ h₁ h₂ => ⟨h₁, h₂⟩) (fun _ _ h => h) v

end Induction

end DamlValue

end DamlBindings.Grpc
