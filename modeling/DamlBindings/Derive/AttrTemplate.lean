import DamlBindings.Derive.AttrChoice
import DamlBindings.Derive.AttrData
import DamlBindings.Lf.Yaml

/-!
# The template macro

`generate_template` of `daml-derive/src/generator.rs` reads the struct that `DamlTemplate` is
applied to and the arguments of the attribute, and has a template without choices rendered, in an
archive of nothing but its package.  The choices come from an impl block under `DamlChoices`.
-/

namespace DamlBindings.Derive

open Lf Codegen

/-- The panics of the template macro, with those that it shares with the other macros. -/
inductive TemplatePanic
  | derive (panic : DerivePanic)
  /-- "requires at least one of `package_name = \"...\"` or `package_id = \"...\"`" -/
  | noPackage
  /-- "expected `<pkg>:<Module.Path>:<Entity>`, got .." -/
  | implementsEntry (entry : String)

/-- What the template macro gives, or the panic. -/
abbrev DeriveTemplate := Except TemplatePanic

/-- What the other macros give. -/
def derived {α : Type} : DeriveResult α → DeriveTemplate α := Except.mapError .derive

lemma derived_eq_ok {α : Type} {x : DeriveResult α} {a : α} : derived x = .ok a ↔ x = .ok a :=
  Except.mapError_eq_ok

/-! ### Extraction -/

/-- `DamlTemplateInfo`, the arguments of the attribute. -/
structure DamlTemplateInfo where
  packageName : Option String
  packageId : Option String
  moduleName : String
  implements : Option String

/-- `AttrInterfaceRef` -/
structure AttrInterfaceRef where
  packageName : String
  modulePath : List String
  entityName : String

/-- `AttrTemplate` -/
structure AttrTemplate where
  name : String
  packageId : String
  modulePath : List String
  fields : List AttrField
  implements : List AttrInterfaceRef

/-- `str::split` at a character. -/
def splitText (separator : Char) (s : String) : List String :=
  (s.toList.splitOn separator).map String.ofList

/-- `str::trim` -/
def trimText (s : String) : String :=
  String.ofList ((s.toList.dropWhile isWhitespace).rdropWhile isWhitespace)

/-- An entry of the list of `parse_implements_list`. -/
def parseInterfaceRef (entry : String) : DeriveTemplate AttrInterfaceRef :=
  match splitText ':' entry with
  | [packageName, modulePath, entityName] =>
    .ok ⟨packageName, splitText '.' modulePath, entityName⟩
  | _ => .error (.implementsEntry entry)

/-- `parse_implements_list` -/
def parseImplementsList (raw : String) : DeriveTemplate (List AttrInterfaceRef) :=
  (((splitText ',' raw).map trimText).filter fun s => !s.isEmpty).mapM parseInterfaceRef

/-- `extract_template` -/
def extractTemplate (name packageId modulePath : String) (fieldsNamed : List (String × SynType))
    (implements : List AttrInterfaceRef) : DeriveResult AttrTemplate :=
  (fun fields => ⟨name, packageId, splitText '.' modulePath, fields, implements⟩) <$>
    extractStructData fieldsNamed

/-! ### Conversion -/

/-- `From<&AttrInterfaceRef> for DamlTyConName`; the id of the package is not known. -/
def AttrInterfaceRef.toTyConName (iface : AttrInterfaceRef) : DamlTyConName :=
  .absolute ⟨iface.entityName, "", iface.packageName, iface.modulePath⟩

/-- `From<&AttrTemplate> for DamlTemplate`, with the defaults of
`DamlTemplate::new_with_defaults`. -/
def AttrTemplate.toDamlTemplate (t : AttrTemplate) : DamlTemplate where
  name := t.name
  packageId := t.packageId
  modulePath := t.modulePath
  fields := t.fields.map AttrField.toDamlField
  choices := []
  param := ""
  implements := t.implements.map AttrInterfaceRef.toTyConName
  precond := none
  signatories := .nil (.list [.party])
  agreement := .primLit (.text "")
  observers := .nil (.list [.party])
  key := none
  serializable := true

/-! ### Generation -/

/-- `synthesize_archive`: a package without a name has the empty name. -/
def synthesizeArchive (packageId : String) (packageName : Option String) : DamlArchive :=
  ⟨"", packageId,
    [(packageId, ⟨packageName.getD "", packageId, none, .node (.newEmpty []) []⟩)]⟩

/-- The context with that archive. -/
def templateContext (packageId : String) (packageName : Option String) : RenderContext :=
  ⟨synthesizeArchive packageId packageName, .higherKindedType⟩

variable (N : Naming)

/-- `generate_template` -/
def generateTemplate (input : DeriveInput) (packageName : Option String)
    (packageId moduleName implements : String) : DeriveTemplate TemplateTokens :=
  match input.data with
  | .struct (.named fieldsNamed) => do
    let implements ← parseImplementsList implements
    let template ←
      derived (extractTemplate input.ident packageId moduleName fieldsNamed implements)
    derived (rendered (Codegen.quoteDamlTemplate N (templateContext packageId packageName)
      template.toDamlTemplate))
  | _ => .error (.derive (.wrongItem "DamlTemplate"))

/-- The attribute `DamlTemplate`. -/
def damlTemplate (info : DamlTemplateInfo) (input : DeriveInput) :
    DeriveTemplate TemplateTokens :=
  if info.packageName.isNone && info.packageId.isNone then .error .noPackage
  else generateTemplate N input info.packageName (info.packageId.getD "") info.moduleName
    (info.implements.getD "")

/-! ### The item that the intermediate renderer quotes -/

/-- The arguments of its attribute. -/
def templateInfo (t : TemplateItemTokens) : DamlTemplateInfo :=
  ⟨none, some t.packageId, t.moduleName, none⟩

/-- A method under the attribute of its choice. -/
def choiceItem (c : ChoiceItemTokens) : ImplItem :=
  .fn [([], c.choice)]
    (.receiver :: c.arguments.map fun f => .typed (some f.label) f.ty.spelled) none

/-- The impl block under the attribute `DamlChoices`. -/
def choicesItem (t : TemplateItemTokens) : ItemImpl :=
  ⟨.path [] t.name [], t.choices.map choiceItem⟩

variable (ctx : RenderContext)

/-- A template is rendered for the macros, which expand the struct and the impl block. -/
def expandTemplate (template : DamlTemplate) :
    DeriveTemplate (TemplateTokens × (String × List ChoiceTokens)) := do
  let item ← derived (rendered (Intermediate.quoteDamlTemplate N ctx template))
  let tokens ← damlTemplate N (templateInfo item) item.input
  let choices ← derived (generateChoices N (choicesItem item))
  pure (tokens, choices)

variable {N ctx}

/-! ### The archive of the macro -/

/-- A path that has been split is joined to itself. -/
lemma toModulePath_splitText (s : String) : toModulePath (splitText '.' s) = s := by
  have hmap : (splitText '.' s).map String.toList = s.toList.splitOn '.' := by
    rw [splitText, List.map_map]
    exact (List.map_congr_left fun _ _ => String.toList_ofList).trans (List.map_id _)
  have hdot : ".".toList = ['.'] := rfl
  rw [← String.toList_inj, toModulePath, String.toList_intercalate, hmap, hdot,
    List.intercalate_splitOn]

/-- Without a name in the attribute the package has none. -/
lemma packageNameFor_templateContext (packageId : String) :
    (templateContext packageId none).packageNameFor packageId = none := by
  simp [RenderContext.packageNameFor, templateContext, synthesizeArchive]

/-- There is no data type in the archive. -/
lemma checkTargetData_templateContext (packageId : String) (packageName : Option String)
    (tycon : DamlTyConName) :
    checkTargetData (templateContext packageId packageName) tycon = true := by
  have hdata : (templateContext packageId packageName).archive.dataByTyconName tycon = none := by
    simp only [templateContext, synthesizeArchive, DamlArchive.dataByTyconName, DamlArchive.data,
      Option.bind_eq_bind, Option.bind_eq_none_iff]
    intro package hpackage module hmodule
    obtain rfl : ⟨_, _, none, .node (.newEmpty []) []⟩ = package :=
      (Prod.mk.inj (List.mem_singleton.1 (AssocMap.mem_of_lookup hpackage))).2.symm
    rw [DamlModule.childModulePath, PathTree.get?_node_nil] at hmodule
    split_ifs at hmodule
    cases hmodule
    rfl
  show (DamlArchive.dataByTyconName _ tycon).all _ = true
  rw [hdata]
  rfl

end DamlBindings.Derive
