import DamlBindings.Lf.Validate
import DamlBindings.Lf.VisitComplete

/-!
# What validation establishes

An archive is intact if every name of a type constructor in it resolves and choices and interface
views are over records.  Validation accepts an archive when the positions that it looks at are in
order, so that it is right exactly when the remaining positions do not decide.
-/

namespace DamlBindings.Lf

open Worklist

/-! ### Positions of types and names -/

namespace Element

/-- The names of type constructors right inside an element.  The name of a type synonym is none. -/
def tyconNames : Element → List DamlTyConName
  | .syn _ _ => []
  | e => e.children.filterMap tyconName?

end Element

/-- The name of a type constructor occurs in an expression, at any depth. -/
def DamlExpr.Mentions (n : DamlTyConName) (e : DamlExpr) : Prop :=
  ∃ x, Reaches Element.children (.expr e) x ∧ n ∈ x.tyconNames

namespace DamlChoice

/-- The expressions of a choice. -/
def expressions (c : DamlChoice) : List DamlExpr := [c.update, c.controllers, c.observers]

/-- The argument of a choice, which conversion puts first among the fields. -/
def argument? (c : DamlChoice) : Option (DamlField DamlType) := c.fields.head?

/-- The types in a choice. -/
def types (c : DamlChoice) : List DamlType := c.fields.map DamlField.ty ++ [c.returnType]

/-- The types that `validate_choice` looks at. -/
def checkedTypes (c : DamlChoice) : List DamlType :=
  (c.argument?.map DamlField.ty).toList ++ [c.returnType]

/-- The fields after the argument. -/
def uncheckedTypes (c : DamlChoice) : List DamlType := c.fields.tail.map DamlField.ty

lemma mem_types {c : DamlChoice} {t : DamlType} :
    t ∈ c.types ↔ t ∈ c.checkedTypes ∨ t ∈ c.uncheckedTypes := by
  unfold types checkedTypes uncheckedTypes argument?
  rcases c.fields with _ | ⟨f, fs⟩
  · simp
  · simp only [List.map_cons, List.cons_append, List.mem_cons, List.mem_append, List.head?_cons,
      Option.map_some, Option.toList_some, List.nil_append, List.tail_cons,
      List.not_mem_nil, or_false]
    tauto

end DamlChoice

namespace DamlData

/-- The fields of a data type. -/
def fields : DamlData → List (DamlField DamlType)
  | .record r => r.fields
  | .variant v => v.fields
  | .enum _ => []
  | .template t => t.fields

/-- The choices of a data type, which only templates have. -/
def choices : DamlData → List DamlChoice
  | .template t => t.choices
  | _ => []

/-- The interfaces that a data type implements. -/
def implements : DamlData → List DamlTyConName
  | .template t => t.implements
  | _ => []

/-- The types in a data type outside of its choices. -/
def ownTypes : DamlData → List DamlType
  | .record r => r.fields.map DamlField.ty
  | .variant v => v.fields.map DamlField.ty
  | .enum _ => []
  | .template t => t.fields.map DamlField.ty ++ (t.key.map DamlDefKey.ty).toList

/-- The expressions in the key of a data type, which only templates have. -/
def keyExpressions : DamlData → List DamlExpr
  | .template t => t.key.toList.flatMap fun k => [k.maintainers, k.keyExpr]
  | _ => []

end DamlData

namespace DamlModule

variable (m : DamlModule)

def dataTypes : List DamlData := m.val.dataTypes.map Prod.snd

def interfaces : List DamlInterface := m.val.interfaces.map Prod.snd

/-- The choices of the templates and of the interfaces. -/
def choices : List DamlChoice :=
  m.dataTypes.flatMap DamlData.choices ++ m.interfaces.flatMap DamlInterface.choices

/-- The types of the module outside of its choices and type synonyms. -/
def ownTypes : List DamlType :=
  m.dataTypes.flatMap DamlData.ownTypes ++
    m.interfaces.flatMap fun i => i.view :: i.methods.map DamlInterfaceMethod.ty

/-- The types in a module. -/
def types : List DamlType :=
  m.ownTypes ++ m.choices.flatMap DamlChoice.types ++ m.val.synonyms.map DamlDefTypeSyn.ty

/-- The names of type constructors that a module has outside of types. -/
def names : List DamlTyConName :=
  m.dataTypes.flatMap DamlData.implements ++ m.interfaces.flatMap DamlInterface.requires

/-- The expressions in the choices and the keys of a module. -/
def expressions : List DamlExpr :=
  m.choices.flatMap DamlChoice.expressions ++ m.dataTypes.flatMap DamlData.keyExpressions

end DamlModule

/-! ### Integrity -/

namespace DamlArchive

variable (A : DamlArchive)

/-- A module of the archive, at any depth. -/
def HasModule (m : DamlModule) : Prop :=
  ∃ e ∈ A.packages, Reaches DamlModule.childList e.2.rootModule m

/-- The name resolves to a data type or an interface. -/
def Resolves (n : DamlTyConName) : Prop :=
  (A.dataByTyconName n).isSome ∨ (A.interfaceByTyconName n).isSome

/-- All names in the type resolve. -/
def TypeResolves (t : DamlType) : Prop := ∀ n, t.Mentions n → A.Resolves n

/-- All names in the expression resolve. -/
def ExprResolves (e : DamlExpr) : Prop := ∀ n, e.Mentions n → A.Resolves n

/-- The type is a type constructor that resolves to a record. -/
def IsRecord (t : DamlType) : Prop :=
  ∃ n r, t.head? = some n ∧ A.dataByTyconName n = some (.record r)

/-- The choices of the module take records, and its interfaces have records as views. -/
structure ShapesOk (m : DamlModule) : Prop where
  arguments : ∀ c ∈ m.choices, ∃ f, c.argument? = some f ∧ A.IsRecord f.ty
  views : ∀ i ∈ m.interfaces, A.IsRecord i.view

/-- Every name of a type constructor in the archive resolves, and the shapes are right. -/
structure Intact : Prop where
  types : ∀ m, A.HasModule m → ∀ t ∈ m.types, A.TypeResolves t
  names : ∀ m, A.HasModule m → ∀ n ∈ m.names, A.Resolves n
  expressions : ∀ m, A.HasModule m → ∀ e ∈ m.expressions, A.ExprResolves e
  shapes : ∀ m, A.HasModule m → A.ShapesOk m

/-- The positions that validation looks at are in order. -/
structure CheckedIntact : Prop where
  types : ∀ m, A.HasModule m → ∀ t ∈ m.ownTypes ++ m.choices.flatMap DamlChoice.checkedTypes,
    A.TypeResolves t
  requires : ∀ m, A.HasModule m → ∀ i ∈ m.interfaces, ∀ n ∈ i.requires, A.Resolves n
  shapes : ∀ m, A.HasModule m → A.ShapesOk m

/-- The names in the other positions resolve: what templates implement, type synonyms, the fields of
choices after the argument, and the expressions of choices and keys. -/
structure UncheckedIntact : Prop where
  implements : ∀ m, A.HasModule m → ∀ d ∈ m.dataTypes, ∀ n ∈ d.implements, A.Resolves n
  synonyms : ∀ m, A.HasModule m → ∀ s ∈ m.val.synonyms, A.TypeResolves s.ty
  fields : ∀ m, A.HasModule m → ∀ c ∈ m.choices, ∀ t ∈ c.uncheckedTypes, A.TypeResolves t
  expressions : ∀ m, A.HasModule m → ∀ e ∈ m.expressions, A.ExprResolves e

variable {A}

theorem intact_iff : A.Intact ↔ A.CheckedIntact ∧ A.UncheckedIntact := by
  -- both ways sort the positions into those that validation looks at and the others
  constructor
  · rintro ⟨htypes, hnames, hexpressions, hshapes⟩
    refine ⟨⟨?_, ?_, hshapes⟩, ⟨?_, ?_, ?_, hexpressions⟩⟩
    · intro m hm t ht
      refine htypes m hm t ?_
      rcases List.mem_append.1 ht with ht | ht
      · simp [DamlModule.types, ht]
      · obtain ⟨c, hc, ht⟩ := List.mem_flatMap.1 ht
        have hmem : t ∈ m.choices.flatMap DamlChoice.types :=
          List.mem_flatMap.2 ⟨c, hc, DamlChoice.mem_types.2 (.inl ht)⟩
        simp only [DamlModule.types, List.mem_append]
        tauto
    · intro m hm i hi n hn
      exact hnames m hm n (List.mem_append_right _ (List.mem_flatMap.2 ⟨i, hi, hn⟩))
    · intro m hm d hd n hn
      exact hnames m hm n (List.mem_append_left _ (List.mem_flatMap.2 ⟨d, hd, hn⟩))
    · intro m hm s hs
      exact htypes m hm _ (List.mem_append_right _ (List.mem_map_of_mem hs))
    · intro m hm c hc t ht
      have hmem : t ∈ m.choices.flatMap DamlChoice.types :=
        List.mem_flatMap.2 ⟨c, hc, DamlChoice.mem_types.2 (.inr ht)⟩
      refine htypes m hm t ?_
      simp only [DamlModule.types, List.mem_append]
      tauto
  · rintro ⟨⟨htypes, hrequires, hshapes⟩, ⟨himplements, hsynonyms, hfields, hexpressions⟩⟩
    refine ⟨?_, ?_, hexpressions, hshapes⟩
    · intro m hm t ht
      rcases List.mem_append.1 ht with ht | ht
      · rcases List.mem_append.1 ht with ht | ht
        · exact htypes m hm t (List.mem_append_left _ ht)
        · obtain ⟨c, hc, ht⟩ := List.mem_flatMap.1 ht
          rcases DamlChoice.mem_types.1 ht with ht | ht
          · exact htypes m hm t (List.mem_append_right _ (List.mem_flatMap.2 ⟨c, hc, ht⟩))
          · exact hfields m hm c hc t ht
      · obtain ⟨s, hs, rfl⟩ := List.mem_map.1 ht
        exact hsynonyms m hm s hs
    · intro m hm n hn
      rcases List.mem_append.1 hn with hn | hn
      · obtain ⟨d, hd, hn⟩ := List.mem_flatMap.1 hn
        exact himplements m hm d hd n hn
      · obtain ⟨i, hi, hn⟩ := List.mem_flatMap.1 hn
        exact hrequires m hm i hi n hn

/-! ### What each check establishes -/

lemma validateTyconName_eq_ok {n : DamlTyConName} :
    A.validateTyconName n = .ok () ↔ A.Resolves n := by
  unfold validateTyconName Resolves
  split_ifs with h
  · simpa using h
  · simp only [Bool.or_eq_true] at h
    refine iff_of_false ?_ h
    rcases n.referenceParts with ⟨pkgId, modulePath, dataName⟩
    rcases hpackage : A.packages.lookup pkgId with _ | package
    · simp [hpackage]
    · simp only [hpackage]
      split_ifs <;> nofun

lemma validateTypeNode_eq_ok {t : DamlType} :
    A.validateTypeNode t = .ok () ↔ ∀ n, t.head? = some n → A.Resolves n := by
  cases t with
  | tyCon n args => simp [validateTypeNode, DamlType.head?, validateTyconName_eq_ok]
  | boxedTyCon n args => simp [validateTypeNode, DamlType.head?, validateTyconName_eq_ok]
  | _ => simp [validateTypeNode, DamlType.head?]

lemma validateType_eq_ok {t : DamlType} : A.validateType t = .ok () ↔ A.TypeResolves t := by
  rw [validateType, walk_eq_ok, List.forall_mem_singleton]
  simp only [validateTypeNode_eq_ok, TypeResolves, DamlType.mentions_iff_reaches]
  constructor
  · rintro h n ⟨c, hc, hhead⟩
    exact h c hc n hhead
  · intro h c hc n hhead
    exact h n ⟨c, hc, hhead⟩

lemma resolvesToRecord_iff {t : DamlType} : A.resolvesToRecord t = true ↔ A.IsRecord t := by
  unfold IsRecord resolvesToRecord
  cases t with
  | tyCon n args => rcases h : A.dataByTyconName n with _ | _ | _ | _ <;> simp [DamlType.head?, h]
  | boxedTyCon n args =>
    rcases h : A.dataByTyconName n with _ | _ | _ | _ <;> simp [DamlType.head?, h]
  | _ => simp [DamlType.head?]

lemma validateArgument_eq_ok {o : Option (DamlField DamlType)} :
    A.validateArgument o = .ok () ↔ ∃ f, o = some f ∧ A.IsRecord f.ty ∧ A.TypeResolves f.ty := by
  rcases o with _ | f
  · simp [validateArgument]
  · rw [validateArgument]
    split_ifs with h
    · simp [validateType_eq_ok, resolvesToRecord_iff.1 h]
    · have hrecord := mt resolvesToRecord_iff.2 h
      simp [hrecord]

lemma validateChoice_eq_ok {c : DamlChoice} :
    A.validateChoice c = .ok () ↔
      (∃ f, c.argument? = some f ∧ A.IsRecord f.ty) ∧ ∀ t ∈ c.checkedTypes, A.TypeResolves t := by
  rw [validateChoice, Except.check_bind_eq_ok, validateArgument_eq_ok, validateType_eq_ok,
    DamlChoice.checkedTypes, DamlChoice.argument?]
  rcases c.fields.head? with _ | f
  · simp
  · simp [and_assoc]

lemma forM_validateType {α : Type} {f : α → DamlType} {as : List α} :
    (as.forM fun a => A.validateType (f a)) = .ok () ↔ ∀ t ∈ as.map f, A.TypeResolves t := by
  rw [List.forall_mem_map]
  exact Except.forM_eq_ok.trans (forall₂_congr fun a _ => validateType_eq_ok)

lemma validateTemplate_eq_ok {t : DamlTemplate} :
    A.validateTemplate t = .ok () ↔
      (∀ ty ∈ (DamlData.template t).ownTypes, A.TypeResolves ty) ∧
        ∀ c ∈ t.choices, A.validateChoice c = .ok () := by
  have hkey : A.validateKey t.key = .ok () ↔
      ∀ ty ∈ (t.key.map DamlDefKey.ty).toList, A.TypeResolves ty := by
    rcases t.key with _ | key
    · simp [validateKey]
    · simp [validateKey, validateType_eq_ok]
  rw [validateTemplate, Except.check_bind_eq_ok, Except.check_bind_eq_ok, forM_validateType,
    Except.forM_eq_ok, hkey, DamlData.ownTypes, List.forall_mem_append]
  tauto

lemma validateData_eq_ok {d : DamlData} :
    A.validateData d = .ok () ↔
      (∀ t ∈ d.ownTypes, A.TypeResolves t) ∧ ∀ c ∈ d.choices, A.validateChoice c = .ok () := by
  cases d with
  | record r => exact forM_validateType.trans (by simp [DamlData.ownTypes, DamlData.choices])
  | variant v => exact forM_validateType.trans (by simp [DamlData.ownTypes, DamlData.choices])
  | enum e => simp [validateData, DamlData.ownTypes, DamlData.choices]
  | template t => exact validateTemplate_eq_ok

lemma validateInterface_eq_ok {debug : DamlType → String} {i : DamlInterface} :
    A.validateInterface debug i = .ok () ↔
      A.IsRecord i.view ∧ (∀ t ∈ i.view :: i.methods.map DamlInterfaceMethod.ty, A.TypeResolves t) ∧
        (∀ c ∈ i.choices, A.validateChoice c = .ok ()) ∧ ∀ n ∈ i.requires, A.Resolves n := by
  have hview : A.validateView debug i.view = .ok () ↔ A.IsRecord i.view := by
    rw [← resolvesToRecord_iff, validateView]
    split_ifs with h <;> simp [h]
  simp only [validateInterface, Except.check_bind_eq_ok, hview, validateType_eq_ok,
    Except.forM_eq_ok, validateTyconName_eq_ok, List.forall_mem_cons,
    List.forall_mem_map, and_assoc]

/-- What a round of the walk over the modules establishes. -/
lemma validateModule_eq_ok {debug : DamlType → String} {m : DamlModule} :
    A.validateModule debug m = .ok () ↔
      (∀ t ∈ m.ownTypes ++ m.choices.flatMap DamlChoice.checkedTypes, A.TypeResolves t) ∧
        (∀ i ∈ m.interfaces, ∀ n ∈ i.requires, A.Resolves n) ∧ A.ShapesOk m := by
  have hdata : (m.val.dataTypes.forM fun e => A.validateData e.2) = .ok () ↔
      ∀ d ∈ m.dataTypes, A.validateData d = .ok () := by
    rw [DamlModule.dataTypes, List.forall_mem_map]
    exact Except.forM_eq_ok
  have hinterfaces : (m.val.interfaces.forM fun e => A.validateInterface debug e.2) = .ok () ↔
      ∀ i ∈ m.interfaces, A.validateInterface debug i = .ok () := by
    rw [DamlModule.interfaces, List.forall_mem_map]
    exact Except.forM_eq_ok
  rw [validateModule, Except.check_bind_eq_ok, hdata, hinterfaces]
  constructor
  · rintro ⟨hd, hi⟩
    -- a choice is checked with its template or its interface
    have hchoices : ∀ c ∈ m.choices, A.validateChoice c = .ok () := by
      intro c hc
      rcases List.mem_append.1 hc with hc | hc
      · obtain ⟨d, hmem, hc⟩ := List.mem_flatMap.1 hc
        exact (validateData_eq_ok.1 (hd d hmem)).2 c hc
      · obtain ⟨i, hmem, hc⟩ := List.mem_flatMap.1 hc
        exact (validateInterface_eq_ok.1 (hi i hmem)).2.2.1 c hc
    refine ⟨?_, fun i hmem => (validateInterface_eq_ok.1 (hi i hmem)).2.2.2, ?_, ?_⟩
    · intro t ht
      rcases List.mem_append.1 ht with ht | ht
      · rcases List.mem_append.1 ht with ht | ht
        · obtain ⟨d, hmem, ht⟩ := List.mem_flatMap.1 ht
          exact (validateData_eq_ok.1 (hd d hmem)).1 t ht
        · obtain ⟨i, hmem, ht⟩ := List.mem_flatMap.1 ht
          exact (validateInterface_eq_ok.1 (hi i hmem)).2.1 t ht
      · obtain ⟨c, hc, ht⟩ := List.mem_flatMap.1 ht
        exact (validateChoice_eq_ok.1 (hchoices c hc)).2 t ht
    · exact fun c hc => (validateChoice_eq_ok.1 (hchoices c hc)).1
    · exact fun i hmem => (validateInterface_eq_ok.1 (hi i hmem)).1
  · rintro ⟨htypes, hrequires, harguments, hviews⟩
    have hown : ∀ t ∈ m.ownTypes, A.TypeResolves t := fun t ht =>
      htypes t (List.mem_append_left _ ht)
    have hchoices : ∀ c ∈ m.choices, A.validateChoice c = .ok () := fun c hc =>
      validateChoice_eq_ok.2 ⟨harguments c hc, fun t ht =>
        htypes t (List.mem_append_right _ (List.mem_flatMap.2 ⟨c, hc, ht⟩))⟩
    refine ⟨fun d hmem => validateData_eq_ok.2 ⟨?_, ?_⟩, fun i hmem =>
      validateInterface_eq_ok.2 ⟨hviews i hmem, ?_, ?_, hrequires i hmem⟩⟩
    · exact fun t ht => hown t (List.mem_append_left _ (List.mem_flatMap.2 ⟨d, hmem, ht⟩))
    · exact fun c hc => hchoices c (List.mem_append_left _ (List.mem_flatMap.2 ⟨d, hmem, hc⟩))
    · exact fun t ht => hown t (List.mem_append_right _ (List.mem_flatMap.2 ⟨i, hmem, ht⟩))
    · exact fun c hc => hchoices c (List.mem_append_right _ (List.mem_flatMap.2 ⟨i, hmem, hc⟩))

/-- Validation accepts an archive when the positions that it looks at are in order. -/
theorem validate_eq_ok {debug : DamlType → String} :
    A.validate debug = .ok () ↔ A.CheckedIntact := by
  have hmodules : A.validate debug = .ok () ↔
      ∀ m, A.HasModule m → A.validateModule debug m = .ok () := by
    rw [validate, walk_eq_ok]
    constructor
    · rintro h m ⟨e, he, hreach⟩
      exact h _ (List.mem_reverse.2 (List.mem_map_of_mem he)) m hreach
    · intro h root hroot m hreach
      obtain ⟨e, he, rfl⟩ := List.mem_map.1 (List.mem_reverse.1 hroot)
      exact h m ⟨e, he, hreach⟩
  simp only [hmodules, validateModule_eq_ok]
  constructor
  · intro h
    exact ⟨fun m hm => (h m hm).1, fun m hm => (h m hm).2.1, fun m hm => (h m hm).2.2⟩
  · rintro ⟨htypes, hrequires, hshapes⟩ m hm
    exact ⟨htypes m hm, hrequires m hm, hshapes m hm⟩

/-- Validation is sound and complete exactly when the names that it does not look at resolve, or
one of the positions that it looks at is not in order. -/
theorem validate_sound_complete_iff (debug : DamlType → String) :
    (A.validate debug = .ok () ↔ A.Intact) ↔ (A.CheckedIntact → A.UncheckedIntact) := by
  rw [validate_eq_ok, intact_iff]
  tauto

/-- A template without fields and choices that implements the interface `n`. -/
def implementing (n : DamlTyConName) : DamlTemplate where
  name := "T"
  packageId := "pkg"
  modulePath := ["M"]
  fields := []
  choices := []
  param := "this"
  implements := [n]
  precond := none
  signatories := .nil .party
  agreement := .primLit (.text "")
  observers := .nil .party
  key := none
  serializable := true

/-- The only module of an archive, which has that template. -/
def danglingModule (n : DamlTyConName) : DamlModule :=
  .node
    { path := ["M"]
      flags := ⟨true, true, true⟩
      synonyms := []
      dataTypes := [("T", .template (implementing n))]
      interfaces := []
      exceptions := []
      values := []
      synthetic := false } []

/-- The archive of that module. -/
def danglingArchive (n : DamlTyConName) : DamlArchive where
  name := "dangling"
  mainPackageId := "pkg"
  packages := [("pkg",
    { name := "dangling"
      packageId := "pkg"
      version := none
      rootModule := .node
        { path := []
          flags := ⟨true, true, true⟩
          synonyms := []
          dataTypes := []
          interfaces := []
          exceptions := []
          values := []
          synthetic := false } [("M", danglingModule n)] })]

/-- The name of an interface in a package that is not in that archive. -/
def missingInterface : DamlTyConName := .absolute ⟨"I", "other", "", ["N"]⟩

/-- The template implements an interface that does not resolve, and validation accepts it. -/
theorem validate_dangling :
    (∀ debug : DamlType → String, (danglingArchive missingInterface).validate debug = .ok ()) ∧
      ¬ (danglingArchive missingInterface).Intact := by
  constructor
  · intro debug
    rw [validate_eq_ok]
    have hnothing : ∀ m, (danglingArchive missingInterface).HasModule m →
        m.ownTypes = [] ∧ m.choices = [] ∧ m.interfaces = [] := by
      rintro m ⟨e, he, hreach⟩
      cases List.mem_singleton.1 he
      obtain rfl | ⟨c, hc, hreach⟩ := reaches_iff.1 hreach
      · exact ⟨rfl, rfl, rfl⟩
      cases List.mem_singleton.1 hc
      obtain rfl | ⟨c, hc, -⟩ := reaches_iff.1 hreach
      · exact ⟨rfl, rfl, rfl⟩
      · nomatch hc
    refine ⟨fun m hm => ?_, fun m hm => ?_, fun m hm => ⟨?_, ?_⟩⟩ <;>
      obtain ⟨htypes, hchoices, hinterfaces⟩ := hnothing m hm
    · simp [htypes, hchoices]
    · simp [hinterfaces]
    · simp [hchoices]
    · simp [hinterfaces]
  · intro hintact
    have hmodule : (danglingArchive missingInterface).HasModule (danglingModule missingInterface) :=
      ⟨_, List.mem_singleton_self _, .single (List.mem_singleton_self _)⟩
    have hname := hintact.names _ hmodule missingInterface (List.mem_singleton_self _)
    have hnone : (danglingArchive missingInterface).dataByTyconName missingInterface = none ∧
        (danglingArchive missingInterface).interfaceByTyconName missingInterface = none :=
      ⟨rfl, rfl⟩
    simp [Resolves, hnone] at hname

end DamlArchive

end DamlBindings.Lf
