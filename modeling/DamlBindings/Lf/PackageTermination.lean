import DamlBindings.Lf.ConvertModule
import DamlBindings.Lf.DefinitionParts
import DamlBindings.Lf.Termination

/-!
# Termination of the conversion of a package

The conversion of a package reads its modules in order, and of each the data types, the synonyms,
the interfaces, the exceptions and the values.  With what they are made of in the order in which it
is read, the conversion of a package is a descent as well.
-/

namespace DamlBindings.Lf

open Proto Traversal Outcome

namespace DamlPackageTables

variable (P : DamlPackageTables)

/-! ### What a definition is read from, in order -/

/-- A dotted name that resolves. -/
def dottedPart (index : Int) : Proto.Part := .check (P.resolveDotted index).isOk

def readChoice (c : TemplateChoice) : List Proto.Part :=
  [.check c.authorizers.isNone, .string c.nameInternedStr, .string c.selfBinderInternedStr] ++
    fieldParts VarWithType.parts c.argBinder ++
    [field .type c.retType, field .expr c.update, field .expr c.controllers,
      field .expr c.observers]

def readTemplate (t : DefTemplate) : List Proto.Part :=
  .string t.paramInternedStr :: t.choices.flatMap readChoice ++ t.key.toList.flatMap DefKey.parts ++
    t.implements.map (fun i => field .tycon i.interface) ++ t.precond.toList.map .expr ++
    [field .expr t.signatories, field .expr t.observers]

/-- A record is read before the template of its name. -/
def readDataType (templates : List (Int × DefTemplate)) (d : DefDataType) : List Proto.Part :=
  d.params.flatMap TypeVarWithKind.parts ++
    match d.dataCons with
    | .record fields =>
      fields.flatMap FieldWithType.parts ++
        (templates.lookup d.nameInternedDname).toList.flatMap readTemplate
    | .variant fields => fields.flatMap FieldWithType.parts
    | .enum constructorsInternedStr => constructorsInternedStr.map .string
    | .interface => []
    | .unset => [.missing]

def readPlacedType (templates : List (Int × DefTemplate)) (d : DefDataType) : List Proto.Part :=
  .check (P.resolveDotted d.nameInternedDname >>= splitDataName).isOk :: readDataType templates d

def readSynonym (s : DefTypeSyn) : List Proto.Part :=
  P.dottedPart s.nameInternedDname :: s.params.flatMap TypeVarWithKind.parts ++
    [field .type s.type]

def readInterface (i : DefInterface) : List Proto.Part :=
  [.check (P.splitDefinitionName "interface tycon_interned_dname" i.tyconInternedDname).isOk,
    .string i.paramInternedStr] ++
    i.methods.flatMap (fun m => [.string m.methodInternedName, field .type m.type]) ++
    i.choices.flatMap readChoice ++ [field .type i.view] ++ i.requires.map .tycon

def readException (e : DefException) : List Proto.Part :=
  [.check (P.splitDefinitionName "exception name_interned_dname" e.nameInternedDname).isOk,
    field .expr e.message]

def readValue (v : DefValue) : List Proto.Part :=
  fieldParts (fun n => [P.dottedPart n.nameInternedDname, field .type n.type]) v.nameWithType ++
    [field .expr v.expr]

def readModule (m : DamlModulePayload) : List Proto.Part :=
  [.check (P.modulePath m).isOk, .check (P.checkFlags m.flags).isOk] ++
    m.module.dataTypes.flatMap (P.readPlacedType (templateByTycon m.module)) ++
    m.module.synonyms.flatMap P.readSynonym ++ m.module.interfaces.flatMap P.readInterface ++
    m.module.exceptions.flatMap P.readException ++ m.module.values.flatMap P.readValue

/-! ### The conversions of the definitions are descents -/

variable {P} (fuel : Nat) {path : List String}

lemma outcome_expr (o : Option Expr) :
    (P.expr fuel o).outcome = P.partOutcome fuel (field .expr o) :=
  (partOutcome_field_expr fuel o).symm

section Lists

variable {α β : Type} {f : α → ConvertRun β} {parts : α → List Proto.Part}

lemma outcome_list (h : ∀ a, (f a).outcome = all ((parts a).map (P.partOutcome fuel)))
    (as : List α) :
    (as.mapM f).outcome = all ((as.flatMap parts).map (P.partOutcome fuel)) := by
  rw [Run.outcome_mapM, outcome_flatMap fuel h]

lemma outcome_transpose (h : ∀ a, (f a).outcome = all ((parts a).map (P.partOutcome fuel)))
    (o : Option α) :
    (transpose f o).outcome = all ((o.toList.flatMap parts).map (P.partOutcome fuel)) := by
  cases o with
  | none => rfl
  | some a => simp [h]

end Lists

lemma outcome_convertArgBinder (v : VarWithType) :
    (P.convertArgBinder fuel v).outcome = all (v.parts.map (P.partOutcome fuel)) := by
  simp [convertArgBinder, VarWithType.parts]

lemma outcome_convertChoice (c : TemplateChoice) :
    (P.convertChoice fuel path c).outcome = all ((readChoice c).map (P.partOutcome fuel)) := by
  rcases hauthorizers : c.authorizers with _ | e
  · simp [convertChoice, readChoice, hauthorizers, outcome_expr, andThen_assoc,
      outcome_required fuel (outcome_convertArgBinder fuel)]
  · simp [convertChoice, readChoice, hauthorizers, andThen]

lemma outcome_convertDefKey (k : DefKey) :
    (P.convertDefKey fuel k).outcome = all (k.parts.map (P.partOutcome fuel)) := by
  simp [convertDefKey, DefKey.parts, outcome_expr, andThen_assoc]

lemma outcome_convertImplements (is : List Implements) :
    (P.convertImplements is).outcome =
      all ((is.map fun i => field .tycon i.interface).map (P.partOutcome fuel)) := by
  simp [convertImplements, Function.comp_def]

lemma outcome_buildTemplate (t : DefTemplate) (name : String) (fields : List (DamlField DamlType))
    (serializable : Bool) :
    (P.buildTemplate fuel t name path fields serializable).outcome =
      all ((readTemplate t).map (P.partOutcome fuel)) := by
  have hprecond : (transpose (P.convertExpr fuel) t.precond).outcome =
      all ((t.precond.toList.map .expr).map (P.partOutcome fuel)) := by
    cases t.precond <;> simp
  simp only [buildTemplate, readTemplate, Run.outcome_seq, Run.outcome_map,
    outcome_list fuel (outcome_convertChoice fuel),
    outcome_transpose fuel (outcome_convertDefKey fuel), outcome_convertImplements fuel, hprecond,
    outcome_expr, List.map_append, List.map_cons, List.map_nil, all_append, all_cons, all_nil,
    andThen_pass, partOutcome_string, andThen_assoc, List.cons_append]

lemma outcome_resolveStrings (indices : List Int) :
    (Run.lift (P.resolveStrings indices) : ConvertRun (List String)).outcome =
      all ((indices.map .string).map (P.partOutcome fuel)) := by
  induction indices with
  | nil => rfl
  | cons i indices ih =>
    rw [List.map_cons, List.map_cons, all_cons, ← ih, partOutcome_string, string]
    rw [resolveStrings, List.mapM_cons]
    rcases P.resolveString i with e | s
    · rfl
    · show _ = (Run.lift (indices.mapM P.resolveString) : ConvertRun (List String)).outcome
      rcases indices.mapM P.resolveString with e | ss <;> rfl

/-- Neither the place nor the name of a data type matters. -/
lemma outcome_buildDataType (templates : List (Int × DefTemplate)) (name : String)
    (d : DefDataType) :
    (P.buildDataType fuel templates path name d).outcome =
      all ((readDataType templates d).map (P.partOutcome fuel)) := by
  have hfields : ∀ fs : List (FieldWithType Ty), (fs.mapM (P.convertField fuel)).outcome =
      all ((fs.flatMap FieldWithType.parts).map (P.partOutcome fuel)) := fun fs =>
    outcome_list fuel
      (fun f => by simp [convertField, convertFieldWith, FieldWithType.parts, type]) fs
  have hparams : (P.convertTypeParams fuel d.params).outcome =
      all ((d.params.flatMap TypeVarWithKind.parts).map (P.partOutcome fuel)) :=
    outcome_list fuel (outcome_convertTypevarWithKind fuel) d.params
  unfold buildDataType readDataType
  rw [List.map_append, all_append, ← hparams]
  refine Run.outcome_bind fun typeParams => ?_
  rcases d.dataCons with fields | fields | constructors | _ | _
  · rw [List.map_append, all_append, ← hfields]
    refine Run.outcome_bind fun damlFields => ?_
    rcases templates.lookup d.nameInternedDname with _ | template
    · rfl
    · simp [outcome_buildTemplate]
  · rw [← hfields]
    simp
  · rw [← outcome_resolveStrings]
    simp
  · rfl
  · rfl

/-- A name that does not resolve ends the conversion of a definition. -/
lemma outcome_lift_bind {α β : Type} {x : DamlLfConvertResult α} {f : α → ConvertRun β}
    {o : Outcome} (h : ∀ a, (f a).outcome = o) :
    (Run.lift x >>= f).outcome = (ofBool x.isOk).andThen o := by
  rw [Run.outcome_bind h, Run.outcome_lift]

lemma outcome_placeDataType (module : Module) (d : DefDataType) :
    (P.placeDataType fuel module path d).outcome =
      all ((P.readPlacedType (templateByTycon module) d).map (P.partOutcome fuel)) := by
  rw [readPlacedType, List.map_cons, all_cons, partOutcome_check]
  unfold placeDataType
  rcases P.resolveDotted d.nameInternedDname with e | segments
  · rfl
  show (Run.lift (splitDataName segments) >>= _).outcome =
    (ofBool (splitDataName segments).isOk).andThen _
  refine outcome_lift_bind fun ⟨name, extraPath⟩ => ?_
  rw [Run.outcome_bind (o := .pass) fun _ => rfl, andThen_pass, outcome_buildDataType]

lemma outcome_buildSynonym (s : DefTypeSyn) :
    (P.buildSynonym fuel path s).outcome = all ((P.readSynonym s).map (P.partOutcome fuel)) := by
  simp [buildSynonym, readSynonym, dottedPart, convertTypeParams, type, andThen_assoc]

lemma outcome_convertMethod (m : InterfaceMethod) :
    (P.convertMethod fuel m).outcome =
      all ([.string m.methodInternedName, field .type m.type].map (P.partOutcome fuel)) := by
  simp [convertMethod]

lemma outcome_convertInterface (i : DefInterface) :
    (P.convertInterface fuel path i).outcome =
      all ((P.readInterface i).map (P.partOutcome fuel)) := by
  have hrequires : (i.requires.mapM fun r => P.tycon (some r)).outcome =
      all ((i.requires.map .tycon).map (P.partOutcome fuel)) := by
    rw [Run.outcome_mapM, List.map_map]
    exact congrArg all (List.map_congr_left fun r _ => (partOutcome_field_tycon fuel (some r)).symm)
  unfold convertInterface readInterface
  simp only [List.cons_append, List.map_cons, all_cons, partOutcome_check]
  refine outcome_lift_bind fun nameAndPath => ?_
  simp only [Run.outcome_seq, Run.outcome_map, outcome_list fuel (outcome_convertMethod fuel),
    outcome_list fuel (outcome_convertChoice fuel), hrequires, type, partOutcome_field_type,
    partOutcome_string, List.nil_append, List.map_append, List.map_cons, List.map_nil, all_append,
    all_cons, all_nil, andThen_pass, andThen_assoc]

lemma outcome_convertException (e : DefException) :
    (P.convertException fuel path e).outcome =
      all ((P.readException e).map (P.partOutcome fuel)) := by
  unfold convertException readException
  rw [List.map_cons, all_cons, partOutcome_check]
  refine outcome_lift_bind fun nameAndPath => ?_
  rw [Run.outcome_map, outcome_expr, List.map_singleton, all_cons, all_nil, andThen_pass]

lemma outcome_convertDefValue (v : DefValue) :
    (P.convertDefValue fuel v).outcome = all ((P.readValue v).map (P.partOutcome fuel)) := by
  have hname : ∀ n : NameWithType, (P.convertNameWithType fuel n).outcome =
      all ([P.dottedPart n.nameInternedDname, field .type n.type].map (P.partOutcome fuel)) := by
    intro n
    simp [convertNameWithType, dottedPart]
  simp [convertDefValue, readValue, outcome_required fuel hname, outcome_expr]

/-! ### Modules and packages -/

lemma outcome_convertModule (payload : DamlModulePayload) :
    (P.convertModule fuel payload).outcome =
      all ((P.readModule payload).map (P.partOutcome fuel)) := by
  unfold convertModule readModule
  simp only [List.cons_append, List.nil_append, List.map_cons, all_cons, partOutcome_check]
  refine outcome_lift_bind fun path => ?_
  refine outcome_lift_bind fun _ => ?_
  simp only [Run.outcome_seq, Run.outcome_map, buildDataTypes, buildSynonyms, buildInterfaces,
    buildExceptions, buildValues, outcome_list fuel (outcome_placeDataType fuel payload.module),
    outcome_list fuel (outcome_buildSynonym fuel),
    outcome_list fuel (outcome_convertInterface fuel),
    outcome_list fuel (outcome_convertException fuel),
    outcome_list fuel (outcome_convertDefValue fuel), List.map_append, all_append, andThen_assoc]

end DamlPackageTables

namespace DamlPackagePayload

variable (P : DamlPackagePayload)

/-- What the conversion of a package reads, module by module. -/
def read : List Proto.Part := P.modules.flatMap P.readModule

/-- The conversion of the package gets to an entry of an interning table that is reached again from
itself. -/
def ReachesCycle : Prop := P.grammar.ReachesCycleIn (P.read.map P.step)

variable {P} (fuel : Nat)

lemma outcome_buildPackage :
    (P.buildPackage fuel).outcome = all (P.read.map (P.partOutcome fuel)) := by
  have htree : ∀ (modules : List DamlModulePayload) (root : DamlModule),
      (modules.foldlM
        (fun root module => DamlModule.insertLeaf root <$> P.convertModule fuel module)
        root).outcome = all ((modules.flatMap P.readModule).map (P.partOutcome fuel)) := by
    intro modules
    induction modules with
    | nil => exact fun _ => rfl
    | cons module modules ih =>
      intro root
      rw [List.foldlM_cons, Run.outcome_bind fun root' => ih root', Run.outcome_map,
        DamlPackageTables.outcome_convertModule, List.flatMap_cons, List.map_append, all_append]
  rw [buildPackage, Run.outcome_map]
  exact htree P.modules _

/-- On the fuel left, the conversion of a package is the descent through what it reads. -/
lemma outcome_buildPackage_eq_run :
    (P.buildPackage fuel).outcome =
      all ((P.read.map P.step).map (P.grammar.runPart (P.grammar.run fuel))) := by
  have hrun : P.convertOutcome fuel = P.grammar.run fuel :=
    funext fun n => DamlPackageTables.convertOutcome_eq_run fuel n
  rw [outcome_buildPackage, List.map_map, ← hrun]
  rfl

/-- More fuel changes nothing once the conversion has ended. -/
lemma outcome_buildPackage_of_le {fuel' : Nat} (hle : fuel ≤ fuel')
    (h : (P.buildPackage fuel).outcome ≠ .outOfFuel) :
    (P.buildPackage fuel').outcome = (P.buildPackage fuel).outcome := by
  rw [outcome_buildPackage_eq_run] at h
  rw [outcome_buildPackage_eq_run, outcome_buildPackage_eq_run, Grammar.all_eq_of_le hle h]

variable (P) in
/-- The conversion of a package ends, with a result or an error, exactly when it gets to no entry
that is reached again from itself. -/
theorem buildPackage_ends_iff :
    (∃ fuel, (P.buildPackage fuel).outcome ≠ .outOfFuel) ↔ ¬ P.ReachesCycle := by
  simp only [outcome_buildPackage_eq_run]
  exact Grammar.exists_all_iff

end DamlPackagePayload

end DamlBindings.Lf
