import DamlBindings.Codegen.IntermediateData

/-!
# The types that the attribute macros read

`daml-derive/src/convert/attr_type.rs` reads a type of the annotated item, and
`attribute_converter.rs` makes it a Daml type.  What a name stands for depends on the name and on
the number of its arguments alone, not on the path in front of it.
-/

namespace DamlBindings.Derive

open Lf Codegen

/-- The panics of the macros, with those of the renderer that they call. -/
inductive DerivePanic
  /-- "only Path types allowed" -/
  | onlyPathTypes
  /-- "Box may only be applied to data types" -/
  | boxOfOtherType
  /-- "expected exactly 1 segment, found .." -/
  | segments (found : Nat)
  /-- "expected a single type" -/
  | notSingleType
  /-- "tuple struct not supported" -/
  | tupleStruct
  /-- "unit struct not supported" -/
  | unitStruct
  /-- "the DamlData attribute may only be applied to struct types", and likewise for enum types -/
  | wrongItem (macroName : String)
  /-- "variant .. takes at most one type parameter, found .." -/
  | variantArity (ident : String) (found : Nat)
  /-- "only Unnamed or Unit enum variant expected" -/
  | namedVariant
  /-- "DamlEnum variants may not have type parameters (use DamlVariant instead)" -/
  | enumVariantType
  | render (panic : RenderPanic)

/-- What a macro gives, or the panic. -/
abbrev DeriveResult := Except DerivePanic

/-- What the renderer gives. -/
def rendered {α : Type} : Render α → DeriveResult α := Except.mapError .render

lemma rendered_eq_ok {α : Type} {x : Render α} {a : α} : rendered x = .ok a ↔ x = .ok a := by
  cases x <;> simp [rendered, Except.mapError]

/-- `AttrType`.  A `Box` is only made of a `TyCon`, which it holds the parts of. -/
inductive AttrType where
  | contractId (nested : AttrType)
  | int64
  | numeric
  | text
  | timestamp
  | party
  | bool
  | unit
  | date
  | box (dataName : String) (path : List String) (typeArguments : List AttrType)
  | list (nested : AttrType)
  | textMap (nested : AttrType)
  | genMap (k v : AttrType)
  | optional (nested : AttrType)
  | tyCon (dataName : String) (path : List String) (typeArguments : List AttrType)

/-- The path of `split_segments`: a `crate` in front is dropped. -/
def modulePathOf : List String → List String
  | [] => []
  | head :: rest => if head = "crate" then rest else head :: rest

/-- `Box` is applied to a data type. -/
def boxOf : AttrType → DeriveResult AttrType
  | .tyCon dataName path typeArguments => .ok (.box dataName path typeArguments)
  | _ => .error .boxOfOtherType

/-- `daml_type_from_segments`, of the segments in front, the last segment and what is read of its
type arguments. -/
def damlTypeFromSegments (front : List String) (ident : String)
    (typeParams : List (DeriveResult AttrType)) : DeriveResult AttrType :=
  match ident, typeParams with
  | "DamlInt64", _ => .ok .int64
  | "DamlNumeric", _ => .ok .numeric
  | "DamlText", _ => .ok .text
  | "DamlTimestamp", _ => .ok .timestamp
  | "DamlParty", _ => .ok .party
  | "DamlBool", _ => .ok .bool
  | "DamlUnit", _ => .ok .unit
  | "DamlDate", _ => .ok .date
  | "Box", [ty] => ty >>= boxOf
  | "DamlList", [ty] => .list <$> ty
  | "DamlTextMap", [ty] => .textMap <$> ty
  | "DamlGenMap", [k, v] => do
    let k ← k
    let v ← v
    pure (.genMap k v)
  | "DamlOptional", [ty] => .optional <$> ty
  | "DamlContractId", [ty] => .contractId <$> ty
  | "DamlContractId", _ => .ok (.contractId .unit)
  -- also a name of a builtin type with the wrong number of arguments
  | dataName, typeArguments => .tyCon dataName (modulePathOf front) <$> typeArguments.mapM id

mutual

/-- `AttrType::from_type` -/
def fromType : SynType → DeriveResult AttrType
  | .path front ident args => damlTypeFromSegments front ident (fromTypes args)
  | .other => .error .onlyPathTypes
termination_by structural t => t

def fromTypes : List SynType → List (DeriveResult AttrType)
  | [] => []
  | t :: ts => fromType t :: fromTypes ts
termination_by structural ts => ts

end

/-- `data_type_string_from_path`, of the parts of the path. -/
def dataTypeStringFromPath (front : List String) (ident : String) (args : List SynType) :
    DeriveResult String :=
  if front ≠ [] then .error (.segments (front.length + 1))
  else do
    match ← damlTypeFromSegments front ident (fromTypes args) with
    | .tyCon data _ _ => pure data
    | _ => .error .notSingleType

/-- `data_type_string_from_type` -/
def dataTypeStringFromType : SynType → DeriveResult String
  | .path front ident args => dataTypeStringFromPath front ident args
  | .other => .error .onlyPathTypes

/-- `AttrField` -/
structure AttrField where
  fieldLabel : String
  fieldType : AttrType

lemma fromTypes_eq (ts : List SynType) : fromTypes ts = ts.map fromType := by
  induction ts with
  | nil => rfl
  | cons t ts ih => exact congrArg (fromType t :: ·) ih

/-- The name of a data type is the last segment. -/
lemma dataName_of_damlTypeFromSegments {front : List String} {ident dataName : String}
    {typeParams : List (DeriveResult AttrType)} {path : List String} {args : List AttrType}
    (h : damlTypeFromSegments front ident typeParams = .ok (.tyCon dataName path args)) :
    dataName = ident := by
  have hmap : ∀ {f : AttrType → AttrType} {ty : DeriveResult AttrType},
      (∀ a, f a ≠ .tyCon dataName path args) → f <$> ty ≠ .ok (.tyCon dataName path args) := by
    intro f ty hf h
    obtain ⟨a, -, ha⟩ := Except.map_eq_ok.1 h
    exact hf a ha
  unfold damlTypeFromSegments at h
  split at h
  case h_9 ty =>
    obtain ⟨a, -, h⟩ := Except.bind_eq_ok.1 h
    unfold boxOf at h
    split at h <;> cases h
  case h_12 k v =>
    obtain ⟨_, -, h⟩ := Except.bind_eq_ok.1 h
    obtain ⟨_, -, h⟩ := Except.bind_eq_ok.1 h
    cases h
  case h_16 =>
    obtain ⟨_, -, h⟩ := Except.map_eq_ok.1 h
    cases h
    rfl
  all_goals first
    | cases h
    | exact absurd h (hmap fun _ ha => by cases ha)

lemma eq_of_dataTypeStringFromPath {front : List String} {ident data : String}
    {args : List SynType} (h : dataTypeStringFromPath front ident args = .ok data) :
    data = ident := by
  unfold dataTypeStringFromPath at h
  split_ifs at h
  obtain ⟨ty, hty, h⟩ := Except.bind_eq_ok.1 h
  split at h
  next dataName _ _ =>
    cases h
    exact dataName_of_damlTypeFromSegments hty
  next => cases h

/-! ### As Daml types -/

/-- `DEFAULT_NAT` -/
def defaultNat : Nat := 10

/-- The name of the type constructor of a `TyCon`: one without a path is local, and any other path
is taken for an absolute one.  The package is not known. -/
def tyConName (dataName : String) (path : List String) : DamlTyConName :=
  if path.isEmpty then .localTyCon ⟨dataName, "", "", path⟩
  else .absolute ⟨dataName, "", "", path⟩

mutual

/-- `From<&AttrType> for DamlType` -/
def toDamlType : AttrType → DamlType
  | .unit => .unit
  | .contractId _ => .contractId none
  | .int64 => .int64
  | .numeric => .numeric [.nat defaultNat]
  | .text => .text
  | .timestamp => .timestamp
  | .party => .party
  | .bool => .bool
  | .date => .date
  | .list nested => .list [toDamlType nested]
  | .textMap nested => .textMap [toDamlType nested]
  | .genMap k v => .genMap [toDamlType k, toDamlType v]
  | .optional nested => .optional [toDamlType nested]
  | .tyCon dataName path args => .tyCon (tyConName dataName path) (toDamlTypes args)
  | .box dataName path args => .boxedTyCon (tyConName dataName path) (toDamlTypes args)
termination_by structural t => t

def toDamlTypes : List AttrType → List DamlType
  | [] => []
  | t :: ts => toDamlType t :: toDamlTypes ts
termination_by structural ts => ts

end

lemma toDamlTypes_eq (ts : List AttrType) : toDamlTypes ts = ts.map toDamlType := by
  induction ts with
  | nil => rfl
  | cons t ts ih => exact congrArg (toDamlType t :: ·) ih

/-- `From<&AttrField> for DamlField` -/
def AttrField.toDamlField (f : AttrField) : DamlField DamlType :=
  ⟨f.fieldLabel, toDamlType f.fieldType⟩

end DamlBindings.Derive
