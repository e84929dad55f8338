import DamlBindings.Lib.Worklist
import DamlBindings.Lf.Payload
import DamlBindings.Lf.Element

/-!
# Validation of archives

`DamlArchive::validate` walks the modules of an archive, and in them the types of data types,
templates and interfaces.  It looks at fewer positions than hold names.
-/

namespace DamlBindings.Lf

open Worklist

/-! ### Types -/

namespace DamlType

/-- The types that are immediate parts of a type. -/
def components : DamlType → List DamlType
  | .contractId inner => inner.toList
  | .numeric args => args
  | .list args => args
  | .textMap args => args
  | .genMap args => args
  | .optional args => args
  | .tyCon _ args => args
  | .boxedTyCon _ args => args
  | .var _ args => args
  | .forAll _ body => [body]
  | .struct fields => fields.map DamlField.ty
  | .syn _ args => args
  | .int64 | .text | .timestamp | .party | .bool | .unit | .date | .nat _ | .arrow | .any
  | .typeRep | .bignumeric | .roundingMode | .anyException | .update | .failureCategory => []

/-- The type constructor that a type is an application of. -/
def head? : DamlType → Option DamlTyConName
  | .tyCon n _ => some n
  | .boxedTyCon n _ => some n
  | _ => none

/-- The name of a type constructor occurs in a type. -/
inductive Mentions (n : DamlTyConName) : DamlType → Prop
  | head {t : DamlType} (h : t.head? = some n) : Mentions n t
  | inside {t c : DamlType} (hc : c ∈ t.components) (h : Mentions n c) : Mentions n t

lemma mentions_iff_reaches {n : DamlTyConName} {t : DamlType} :
    Mentions n t ↔ ∃ c, Reaches components t c ∧ c.head? = some n := by
  constructor
  · intro h
    induction h with
    | head h => exact ⟨_, .refl, h⟩
    | inside hc _ ih =>
      obtain ⟨c, hreach, hhead⟩ := ih
      exact ⟨c, reaches_iff.2 (.inr ⟨_, hc, hreach⟩), hhead⟩
  · rintro ⟨c, hreach, hhead⟩
    induction hreach using Relation.ReflTransGen.head_induction_on with
    | refl => exact .head hhead
    | head hc _ ih => exact .inside hc ih

lemma sum_sizeOf_le (ts : List DamlType) : (ts.map sizeOf).sum < sizeOf ts := by
  induction ts with
  | nil => simp
  | cons t ts ih =>
    simp only [List.map_cons, List.sum_cons, List.cons.sizeOf_spec]
    omega

lemma sum_sizeOf_fields_le (fs : List (DamlField DamlType)) :
    ((fs.map DamlField.ty).map sizeOf).sum < sizeOf fs := by
  induction fs with
  | nil => simp
  | cons f fs ih =>
    have hf : sizeOf f = 1 + sizeOf f.name + sizeOf f.ty := by
      cases f
      rfl
    simp only [List.map_cons, List.sum_cons, List.cons.sizeOf_spec]
    omega

/-- The parts of a type are smaller than the type. -/
lemma shrinks_components : Shrinks components := by
  refine ⟨sizeOf, fun t => ?_⟩
  have hargs := sum_sizeOf_le
  cases t with
  | contractId inner =>
    rcases inner with _ | inner
    · simp [components]
    · simp [components]
      omega
  | struct fields =>
    have hfields := sum_sizeOf_fields_le fields
    simp only [components, struct.sizeOf_spec]
    omega
  | forAll vars body => simp [components]
  | numeric args | list args | textMap args | genMap args | optional args | tyCon n args
  | boxedTyCon n args | var v args | syn s args =>
    have := hargs args
    simp [components]
    omega
  | _ => simp [components]

end DamlType

/-! ### Modules -/

namespace DamlModule

/-- The child modules, without their names. -/
def childList (m : DamlModule) : List DamlModule := m.childModules.map Prod.snd

lemma sum_sizeOf_children_le (cs : List (String × DamlModule)) :
    ((cs.map Prod.snd).map sizeOf).sum < sizeOf cs := by
  induction cs with
  | nil => simp
  | cons c cs ih =>
    have hc : sizeOf c = 1 + sizeOf c.1 + sizeOf c.2 := rfl
    simp only [List.map_cons, List.sum_cons, List.cons.sizeOf_spec]
    omega

/-- The child modules are smaller than the module. -/
lemma shrinks_childList : Shrinks childList := by
  refine ⟨sizeOf, fun m => ?_⟩
  rcases m with ⟨body, cs⟩
  have hcs := sum_sizeOf_children_le cs
  show ((cs.map Prod.snd).map sizeOf).sum < sizeOf (PathTree.node body cs)
  rw [PathTree.node.sizeOf_spec]
  omega

end DamlModule

/-! ### The walk -/

namespace DamlArchive

variable (A : DamlArchive)

/-- `resolves_to_record`. -/
def resolvesToRecord (ty : DamlType) : Bool :=
  match ty with
  | .tyCon n _ | .boxedTyCon n _ =>
    match A.dataByTyconName n with
    | some (.record _) => true
    | _ => false
  | _ => false

/-- `validate_tycon_name`. -/
def validateTyconName (name : DamlTyConName) : DamlLfConvertResult Unit :=
  if (A.dataByTyconName name).isSome || (A.interfaceByTyconName name).isSome then .ok ()
  else
    match name.referenceParts with
    | (pkgId, modulePath, dataName) =>
      match A.packages.lookup pkgId with
      | none => .error (.unknownPackage pkgId)
      | some package =>
        if (DamlModule.childModulePath package.rootModule modulePath).isNone then
          .error (.unknownModule (".".intercalate modulePath))
        else .error (.unknownData dataName)

/-- One round of the loop of `validate_type`. -/
def validateTypeNode (ty : DamlType) : DamlLfConvertResult Unit :=
  match ty with
  | .tyCon n _ | .boxedTyCon n _ => A.validateTyconName n
  | _ => .ok ()

/-- `validate_type`: the loop puts the components of each type on the stack. -/
def validateType (ty : DamlType) : DamlLfConvertResult Unit :=
  walk DamlType.components DamlType.shrinks_components A.validateTypeNode [ty]

/-- The argument of a choice, in `validate_choice`. -/
def validateArgument : Option (DamlField DamlType) → DamlLfConvertResult Unit
  | some field =>
    if A.resolvesToRecord field.ty then A.validateType field.ty else .error .unexpectedChoiceData
  | none => .error .unexpectedChoiceData

/-- `validate_choice`. -/
def validateChoice (choice : DamlChoice) : DamlLfConvertResult Unit := do
  A.validateArgument choice.fields.head?
  A.validateType choice.returnType

/-- The key of a template, in `validate_template`. -/
def validateKey : Option DamlDefKey → DamlLfConvertResult Unit
  | some key => A.validateType key.ty
  | none => .ok ()

/-- `validate_template`. -/
def validateTemplate (template : DamlTemplate) : DamlLfConvertResult Unit := do
  template.fields.forM fun field => A.validateType field.ty
  template.choices.forM A.validateChoice
  A.validateKey template.key

/-- `validate_data`. -/
def validateData (data : DamlData) : DamlLfConvertResult Unit :=
  match data with
  | .record r => r.fields.forM fun field => A.validateType field.ty
  | .variant v => v.fields.forM fun field => A.validateType field.ty
  | .enum _ => .ok ()
  | .template t => A.validateTemplate t

/-- The shape of the view of an interface, in `validate_interface`, with the debug formatting of
types. -/
def validateView (debug : DamlType → String) (view : DamlType) : DamlLfConvertResult Unit :=
  if A.resolvesToRecord view then .ok () else .error (.unexpectedType "Record" (debug view))

/-- `validate_interface`. -/
def validateInterface (debug : DamlType → String) (interface : DamlInterface) :
    DamlLfConvertResult Unit := do
  A.validateView debug interface.view
  A.validateType interface.view
  interface.methods.forM fun method => A.validateType method.ty
  interface.choices.forM A.validateChoice
  interface.requires.forM A.validateTyconName

/-- One round of the loop of `validate`. -/
def validateModule (debug : DamlType → String) (module : DamlModule) :
    DamlLfConvertResult Unit := do
  module.val.dataTypes.forM fun e => A.validateData e.2
  module.val.interfaces.forM fun e => A.validateInterface debug e.2

/-- `DamlArchive::validate`. -/
def validate (debug : DamlType → String) : DamlLfConvertResult Unit :=
  walk DamlModule.childList DamlModule.shrinks_childList (A.validateModule debug)
    (A.packages.map fun e => e.2.rootModule).reverse

end DamlArchive

end DamlBindings.Lf
