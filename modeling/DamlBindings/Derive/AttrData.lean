import DamlBindings.Derive.AttrType

/-!
# The data macros

`daml-derive/src/convert/attr_data.rs` and `attr_variant.rs` read the struct or the enum that
`DamlData`, `DamlVariant` or `DamlEnum` is applied to, `attribute_converter.rs` makes it a
definition of Daml-LF, and `generator.rs` has that one rendered.
-/

namespace DamlBindings.Derive

open Lf Codegen

/-! ### Extraction -/

/-- `AttrRecord`, and `AttrVariant`, which has the same fields. -/
structure AttrRecord where
  name : String
  fields : List AttrField
  typeArguments : List String

structure AttrEnum where
  name : String
  fields : List String
  typeArguments : List String

/-- `extract_struct_data` -/
def extractStructData (fieldsNamed : List (String × SynType)) : DeriveResult (List AttrField) :=
  fieldsNamed.mapM fun field => AttrField.mk field.1 <$> fromType field.2

/-- `extract_enum_field_type`, of the variant with the identifier `ident`. -/
def extractEnumFieldType (ident : String) : SynFields → DeriveResult AttrType
  | .unit => .ok .unit
  | .unnamed [] => .ok .unit
  | .unnamed [ty] => fromType ty
  | .unnamed unnamed => .error (.variantArity ident unnamed.length)
  | .named _ => .error .namedVariant

/-- `extract_enum_data` -/
def extractEnumData (variants : List (String × SynFields)) : DeriveResult (List AttrField) :=
  variants.mapM fun variant => AttrField.mk variant.1 <$> extractEnumFieldType variant.1 variant.2

/-- `extract_record` -/
def extractRecord (name : String) (fieldsNamed : List (String × SynType))
    (generics : List String) : DeriveResult AttrRecord :=
  (fun fields => ⟨name, fields, generics⟩) <$> extractStructData fieldsNamed

/-- `extract_variant` -/
def extractVariant (name : String) (variants : List (String × SynFields))
    (generics : List String) : DeriveResult AttrRecord :=
  (fun fields => ⟨name, fields, generics⟩) <$> extractEnumData variants

/-- The constructor of an enum, which has no data. -/
def enumConstructor (v : AttrField) : DeriveResult String :=
  match v.fieldType with
  | .unit => .ok v.fieldLabel
  | _ => .error .enumVariantType

/-- `extract_enum` -/
def extractEnum (name : String) (variants : List (String × SynFields))
    (generics : List String) : DeriveResult AttrEnum := do
  let data ← extractEnumData variants
  let fields ← data.mapM enumConstructor
  pure ⟨name, fields, generics⟩

/-! ### Conversion -/

/-- A type argument is a type parameter of kind `*`. -/
def typeVarOf (arg : String) : DamlTypeVarWithKind := ⟨arg, .star⟩

/-- `From<&AttrRecord> for DamlRecord` -/
def AttrRecord.toDamlRecord (r : AttrRecord) : DamlRecord where
  name := r.name
  packageId := ""
  modulePath := []
  fields := r.fields.map AttrField.toDamlField
  typeParams := r.typeArguments.map typeVarOf
  serializable := true

/-- `From<&AttrVariant> for DamlVariant` -/
def AttrRecord.toDamlVariant (v : AttrRecord) : DamlVariant where
  name := v.name
  packageId := ""
  modulePath := []
  fields := v.fields.map AttrField.toDamlField
  typeParams := v.typeArguments.map typeVarOf
  serializable := true

/-- `From<&AttrEnum> for DamlEnum` -/
def AttrEnum.toDamlEnum (e : AttrEnum) : DamlEnum where
  name := e.name
  packageId := ""
  modulePath := []
  constructors := e.fields
  typeParams := e.typeArguments.map typeVarOf
  serializable := true

/-! ### Generation -/

/-- `RenderContext::default` -/
def defaultContext : RenderContext := ⟨⟨"", "", []⟩, .higherKindedType⟩

variable (N : Naming)

/-- `generate_data_struct` -/
def generateDataStruct (input : DeriveInput) : DeriveResult RecordTokens :=
  match input.data with
  | .struct (.named fieldsNamed) => do
    -- the name, the fields and the generics of the item are all that is read
    let record ← extractRecord input.ident fieldsNamed input.generics
    let damlRecord := record.toDamlRecord
    rendered (quoteDamlRecordAndImpl N defaultContext damlRecord.name damlRecord.fields
      damlRecord.typeParams)
  | .struct (.unnamed _) => .error .tupleStruct
  | .struct .unit => .error .unitStruct
  | _ => .error (.wrongItem "DamlData")

/-- `generate_data_variant` -/
def generateDataVariant (input : DeriveInput) : DeriveResult VariantTokens :=
  match input.data with
  | .enum variants => do
    let variant ← extractVariant input.ident variants input.generics
    rendered (quoteDamlVariant N defaultContext variant.toDamlVariant)
  | _ => .error (.wrongItem "DamlVariant")

/-- `generate_data_enum` -/
def generateDataEnum (input : DeriveInput) : DeriveResult VariantTokens :=
  match input.data with
  | .enum variants => do
    let enumVariants ← extractEnum input.ident variants input.generics
    rendered (quoteDamlEnum N enumVariants.toDamlEnum)
  | _ => .error (.wrongItem "DamlEnum")

/-! ### The types that are read are all rendered -/

variable {N}

section Filter

variable {ctx : RenderContext}

mutual

/-- A filter that admits every data type admits every type that the macros read. -/
lemma checkType_toDamlType (h : ∀ tycon, checkTargetData ctx tycon = true) (a : AttrType) :
    checkType ctx (toDamlType a) = true :=
  match a with
  | .contractId _ | .int64 | .numeric | .text | .timestamp | .party | .bool | .unit | .date => rfl
  | .box _ _ args => by
    show (checkTargetData ctx _ && checkTypes ctx (toDamlTypes args)) = true
    rw [h, checkTypes_toDamlTypes h args]
    rfl
  | .list nested => by
    show (checkType ctx (toDamlType nested) && true) = true
    rw [checkType_toDamlType h nested]
    rfl
  | .textMap nested => by
    show (checkType ctx (toDamlType nested) && true) = true
    rw [checkType_toDamlType h nested]
    rfl
  | .genMap k v => by
    show (checkType ctx (toDamlType k) && (checkType ctx (toDamlType v) && true)) = true
    rw [checkType_toDamlType h k, checkType_toDamlType h v]
    rfl
  | .optional nested => by
    show (checkType ctx (toDamlType nested) && true) = true
    rw [checkType_toDamlType h nested]
    rfl
  | .tyCon _ _ args => by
    show (checkTargetData ctx _ && checkTypes ctx (toDamlTypes args)) = true
    rw [h, checkTypes_toDamlTypes h args]
    rfl

lemma checkTypes_toDamlTypes (h : ∀ tycon, checkTargetData ctx tycon = true)
    (as : List AttrType) : checkTypes ctx (toDamlTypes as) = true :=
  match as with
  | [] => rfl
  | a :: as => by
    show (checkType ctx (toDamlType a) && checkTypes ctx (toDamlTypes as)) = true
    rw [checkType_toDamlType h a, checkTypes_toDamlTypes h as]
    rfl

end

lemma supportedFields_of_checkTargetData (h : ∀ tycon, checkTargetData ctx tycon = true)
    (fields : List AttrField) : supportedFields ctx (fields.map AttrField.toDamlField) =
      fields.map AttrField.toDamlField := by
  refine List.filter_eq_self.2 (List.forall_mem_map.2 fun f _ => ?_)
  exact checkType_toDamlType h f.fieldType

end Filter

/-- The macros leave out none of the fields that they read. -/
lemma supportedFields_toDamlField (fields : List AttrField) :
    supportedFields defaultContext (fields.map AttrField.toDamlField) =
      fields.map AttrField.toDamlField :=
  supportedFields_of_checkTargetData (fun _ => rfl) fields

end DamlBindings.Derive
