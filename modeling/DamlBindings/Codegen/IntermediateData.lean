import DamlBindings.Codegen.DataRenderer

/-!
# The intermediate renderer

`data_renderer/intermediate/quote_intermediate_data.rs` quotes a record, a variant or an enum as a
plain struct or enum, under the attribute of a macro of `daml-derive`, and a template as a struct
with an impl block for its choices.  The macro gets the item as `syn` parses it.
-/

namespace DamlBindings.Codegen

open Lf

/-- An item with its attribute: `#[DamlData] pub struct name { .. }`, `#[DamlVariant] pub enum name
{ .. }` or `#[DamlEnum] pub enum name { .. }`. -/
inductive IntermediateTokens
  | damlData (name : String) (fields : List FieldTokens)
  | damlVariant (name : String) (constructors : List ConstructorTokens)
  | damlEnum (name : String) (constructors : List String)

/-- The method of a choice: `#[choice] pub fn name(&self, ..) {}`. -/
structure ChoiceItemTokens where
  choice : String
  name : String
  arguments : List FieldTokens

/-- A template: `#[DamlTemplate(package_id = .., module_name = ..)] pub struct name { .. }` and
`#[DamlChoices] impl name { .. }`. -/
structure TemplateItemTokens where
  packageId : String
  moduleName : String
  name : String
  fields : List FieldTokens
  choices : List ChoiceItemTokens

namespace Intermediate

variable (N : Naming)

/-- `quote_daml_record` -/
def quoteDamlRecord (ctx : RenderContext) (record : DamlRecord) : Render IntermediateTokens := do
  let name ← quoteEscapedIdent N record.name
  let fields ← (supportedFields ctx record.fields).mapM (quoteField N)
  pure (.damlData name fields)

/-- `quote_daml_variant`, with `quote_variant_field` for the constructors. -/
def quoteDamlVariant (ctx : RenderContext) (variant : DamlVariant) : Render IntermediateTokens := do
  let name ← quoteEscapedIdent N variant.name
  let constructors ← (supportedFields ctx variant.fields).mapM (quoteConstructor N)
  pure (.damlVariant name constructors)

/-- `quote_daml_enum` -/
def quoteDamlEnum (dataEnum : DamlEnum) : Render IntermediateTokens := do
  let name ← quoteEscapedIdent N dataEnum.name
  let constructors ← dataEnum.constructors.mapM (quoteEscapedIdent N)
  pure (.damlEnum name constructors)

/-- `quote_choice` -/
def quoteChoice (ctx : RenderContext) (choice : DamlChoice) : Render ChoiceItemTokens := do
  let choiceName ← quoteEscapedIdent N choice.name
  let functionName ← quoteEscapedIdent N (N.toSnakeCase choice.name)
  let arguments ← (supportedFields ctx choice.fields).mapM (quoteField N)
  pure ⟨choiceName, functionName, arguments⟩

/-- `quote_daml_template` -/
def quoteDamlTemplate (ctx : RenderContext) (template : DamlTemplate) :
    Render TemplateItemTokens := do
  let name ← quoteEscapedIdent N template.name
  let fields ← (supportedFields ctx template.fields).mapM (quoteField N)
  let choices ← template.choices.mapM (quoteChoice N ctx)
  pure ⟨template.packageId, toModulePath template.modulePath, name, fields, choices⟩

end Intermediate

/-! ### As `syn` parses it -/

/-- A type: a path, by the segments in front of the last one and the last one with its type
arguments, or a type of another form. -/
inductive SynType where
  | path (front : List String) (ident : String) (args : List SynType)
  | other

/-- The fields of a struct or of a variant. -/
inductive SynFields
  | named (fields : List (String × SynType))
  | unnamed (types : List SynType)
  | unit

/-- What is defined. -/
inductive SynData
  | struct (fields : SynFields)
  | enum (variants : List (String × SynFields))
  | union

/-- The item that a macro is applied to; of its generics, the type parameters. -/
structure DeriveInput where
  ident : String
  generics : List String
  data : SynData

/-- The segments in front of the identifier. -/
def RustPath.front (p : RustPath) : List String :=
  match p.start with
  | .here => p.segments
  | .crate => "crate" :: p.segments
  | .supers n => List.replicate n "super" ++ p.segments

mutual

/-- The type that the tokens spell.  A type variable is a path like any other. -/
def TypeTokens.spelled : TypeTokens → SynType
  | .var ident => .path [] ident []
  | .path p args => .path p.front p.ident (spelledArgs args)
termination_by structural t => t

def spelledArgs : List TypeTokens → List SynType
  | [] => []
  | t :: ts => t.spelled :: spelledArgs ts
termination_by structural ts => ts

end

lemma spelledArgs_eq (ts : List TypeTokens) : spelledArgs ts = ts.map TypeTokens.spelled := by
  induction ts with
  | nil => rfl
  | cons t ts ih => exact congrArg (t.spelled :: ·) ih

/-- The field of a struct. -/
def FieldTokens.spelled (f : FieldTokens) : String × SynType := (f.label, f.ty.spelled)

/-- The variant of an enum. -/
def ConstructorTokens.spelled (c : ConstructorTokens) : String × SynFields :=
  (c.name, c.data.elim .unit fun t => .unnamed [t.spelled])

/-- The item under the attribute.  It is quoted without type parameters. -/
def IntermediateTokens.input : IntermediateTokens → DeriveInput
  | .damlData name fields => ⟨name, [], .struct (.named (fields.map FieldTokens.spelled))⟩
  | .damlVariant name constructors => ⟨name, [], .enum (constructors.map ConstructorTokens.spelled)⟩
  | .damlEnum name constructors => ⟨name, [], .enum (constructors.map fun c => (c, .unit))⟩

/-- The struct under the attribute `DamlTemplate`. -/
def TemplateItemTokens.input (t : TemplateItemTokens) : DeriveInput :=
  ⟨t.name, [], .struct (.named (t.fields.map FieldTokens.spelled))⟩

end DamlBindings.Codegen
