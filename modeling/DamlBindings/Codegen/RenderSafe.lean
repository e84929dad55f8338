import DamlBindings.Codegen.ValidNames

/-!
# Rendering of validated archives

Validation gives every choice an argument that is a record, and the filter keeps the types that
cannot be rendered from the fields.  The types of choice arguments pass neither a filter nor, in
their arguments, validation, so that they decide whether the renderer panics, with the names of
which nothing is left.
-/

namespace DamlBindings.Lf

open Worklist

namespace DamlType

lemma mentions_of_reaches_kept {t s : DamlType} (h : Reaches keptArguments t s) {n : DamlTyConName}
    (hn : s.head? = some n) : t.Mentions n := by
  refine mentions_iff_reaches.2 ⟨s, Relation.ReflTransGen.mono (fun a b hb => ?_) _ _ h, hn⟩
  exact a.arguments_subset (a.keptArguments_sublist.subset hb)

end DamlType

namespace DamlTyConName

/-- The names of packages in the name of a type constructor. -/
def packageNames : DamlTyConName → List String
  | .localTyCon c => [c.packageName]
  | .nonLocal c => [c.sourcePackageName, c.targetPackageName]
  | .absolute c => [c.packageName]

/-- The names of modules in the name of a type constructor. -/
def moduleNames : DamlTyConName → List String
  | .localTyCon c => c.modulePath
  | .nonLocal c => c.sourceModulePath ++ c.targetModulePath
  | .absolute c => c.modulePath

end DamlTyConName

/-- The names of the fields or constructors of a data type. -/
def DamlData.memberNames : DamlData → List String
  | .record r => r.fields.map DamlField.name
  | .variant v => v.fields.map DamlField.name
  | .enum e => e.constructors
  | .template t => t.fields.map DamlField.name

namespace DamlArchive

variable {A : DamlArchive}

lemma hasModule_of_get? {e : String × DamlPackage} (he : e ∈ A.packages) {p : List String}
    {m : DamlModule} (hm : PathTree.get? p e.2.rootModule = some m) : A.HasModule m := by
  refine ⟨e, he, ?_⟩
  have hreaches : ∀ (p : List String) (root : DamlModule), PathTree.get? p root = some m →
      Reaches DamlModule.childList root m := by
    intro p
    induction p with
    | nil =>
      rintro root hroot
      cases hroot
      exact .refl
    | cons k p ih =>
      intro root hroot
      rw [PathTree.get?_cons, Option.bind_eq_some_iff] at hroot
      obtain ⟨c, hc, hroot⟩ := hroot
      have hmem : c ∈ root.childList := List.mem_map_of_mem (AssocMap.mem_of_lookup hc)
      exact reaches_iff.2 (.inr ⟨c, hmem, ih c hroot⟩)
  exact hreaches p _ hm

/-- An interface that is found is in a module of the archive. -/
lemma exists_module_of_interface {n : DamlTyConName} {i : DamlInterface}
    (h : A.interfaceByTyconName n = some i) : ∃ m, A.HasModule m ∧ i ∈ m.interfaces := by
  obtain ⟨package, hpackage, h⟩ := Option.bind_eq_some_iff.1 h
  obtain ⟨m, hm, h⟩ := Option.bind_eq_some_iff.1 h
  exact ⟨m, hasModule_of_get? (AssocMap.mem_of_lookup hpackage) hm, List.mem_of_find?_eq_some h⟩

end DamlArchive

end DamlBindings.Lf

namespace DamlBindings.Codegen

open Lf Worklist PathTree

/-! ### The names of an archive -/

/-- The names in the name of a type constructor are valid. -/
structure TyconNamesValid (n : DamlTyConName) : Prop where
  packages : ∀ s ∈ n.packageNames, IsPackageName s
  modules : ∀ s ∈ n.moduleNames, IsDamlIdentifier s
  name : IsDamlIdentifier n.dataName

/-- The names of packages, modules, types, fields and choices are valid, where they are declared
and where they are referred to. -/
structure NamesValid (A : DamlArchive) : Prop where
  packages : ∀ e ∈ A.packages, IsPackageName e.2.name
  modules : ∀ m, A.HasModule m → ∀ s ∈ m.val.path, IsDamlIdentifier s
  dataTypes : ∀ m, A.HasModule m → ∀ d ∈ m.dataTypes,
    IsDamlIdentifier d.name ∧ ∀ s ∈ d.memberNames, IsDamlIdentifier s
  interfaces : ∀ m, A.HasModule m → ∀ i ∈ m.interfaces,
    IsDamlIdentifier i.name ∧ ∀ s ∈ i.modulePath, IsDamlIdentifier s
  choices : ∀ m, A.HasModule m → ∀ c ∈ m.choices, IsDamlIdentifier c.name
  types : ∀ m, A.HasModule m → ∀ t ∈ m.types, ∀ n, t.Mentions n → TyconNamesValid n
  names : ∀ m, A.HasModule m → ∀ n ∈ m.names, TyconNamesValid n

/-! ### What may go wrong -/

/-- The names in the Rust type of a type constructor are rendered. -/
def HeadSafe (N : Naming) : DamlType → Prop
  | .tyCon n _ => ∀ s ∈ tyconSegments N n, s ≠ ""
  | .boxedTyCon n _ => ∀ s ∈ tyconSegments N n, s ≠ ""
  | .var v _ => N.isIdent (N.toUppercase (sanitizeVarName v)) = true
  | _ => True

/-- The names in a type are rendered. -/
def TypeNamesSafe (N : Naming) (t : DamlType) : Prop :=
  ∀ s, Reaches DamlType.keptArguments t s → HeadSafe N s

/-- The Rust types for a type are known, and the names in it are rendered. -/
structure TypeSafe (N : Naming) (t : DamlType) : Prop where
  supported : ∀ s, Reaches DamlType.keptArguments t s → s.isSupported = true
  names : TypeNamesSafe N t

/-- The names of modules are rendered: something is left of them in snake case. -/
def SegmentsSafe (N : Naming) (path : List String) : Prop := ∀ s ∈ path, N.toSnakeCase s ≠ ""

/-- The type parameters are rendered. -/
def ParamsSafe (N : Naming) (params : List DamlTypeVarWithKind) : Prop :=
  ∀ p ∈ params, N.isIdent (N.toUppercase (normalizeGenericParam p.var)) = true

/-- The names in the types of the fields are rendered. -/
def FieldsSafe (N : Naming) (ctx : RenderContext) (fields : List (DamlField DamlType)) : Prop :=
  ∀ f ∈ supportedFields ctx fields, TypeNamesSafe N f.ty

/-- The fields for parameters that are not used are rendered. -/
def PhantomsSafe (N : Naming) (ctx : RenderContext) (params : List DamlTypeVarWithKind)
    (fields : List (DamlField DamlType)) : Prop :=
  ∀ p ∈ unusedParams params (supportedFields ctx fields),
    N.isIdent (escapeIdentifier (makeIgnoredIdent p.var)) = true

/-- The type of the argument is rendered, which no filter looks at. -/
def ArgumentSafe (N : Naming) (choice : DamlChoice) : Prop :=
  ∀ f, choice.argument? = some f → TypeSafe N f.ty

/-- The methods of the choices of an interface, and the path to it, are rendered. -/
structure InterfaceSafe (N : Naming) (ctx : RenderContext) (i : DamlInterface) : Prop where
  path : SegmentsSafe N (interfaceCratePath ctx i)
  choices : ∀ c ∈ i.choices, ArgumentSafe N c

/-- A template is rendered, with the choices of the interfaces that it implements. -/
structure TemplateSafe (N : Naming) (ctx : RenderContext) (t : DamlTemplate) : Prop where
  members : FieldsSafe N ctx t.fields
  choices : ∀ c ∈ t.choices, ArgumentSafe N c
  implements : ∀ n ∈ t.implements, SegmentsSafe N (tyconCratePath n)
  interfaces : ∀ i ∈ implementedInterfaces ctx t, InterfaceSafe N ctx i

/-- A definition with valid names is rendered. -/
def ItemSafe (N : Naming) (ctx : RenderContext) : RenderItem → Prop
  | .data (.record r) => ParamsSafe N r.typeParams ∧ FieldsSafe N ctx r.fields ∧
    PhantomsSafe N ctx r.typeParams r.fields
  | .data (.variant v) => ParamsSafe N v.typeParams ∧ FieldsSafe N ctx v.fields
  | .data (.enum e) => ParamsSafe N e.typeParams
  | .data (.template t) => TemplateSafe N ctx t
  | .interface _ => True

/-- An included module is rendered, with those on the way to it. -/
structure ModuleSafe (N : Naming) (ctx : RenderContext) (name : String)
    (below : List DamlModuleBody) (b : DamlModuleBody) : Prop where
  way : SegmentsSafe N (name :: below.map localName)
  items : ∀ i ∈ quotedItems .full b, ItemSafe N ctx i

/-- Of every included module, something is left of the names on the way to it in snake case, the
type variables are rendered, and the types of choice arguments are supported. -/
def RendersSafely (N : Naming) (matcher : ModuleMatcher) (A : DamlArchive) : Prop :=
  ∀ e ∈ A.packages, ∀ p b, valAt e.2.rootModule p = some b → Included matcher e.2.rootModule p →
    ModuleSafe N ⟨A, .higherKindedType⟩ e.2.name (way p e.2.rootModule).tail b

/-! ### Types -/

section Documented

variable {N : Naming} (hN : N.Documented)

include hN

lemma segmentsSafe_iff {path : List String} (h : ∀ s ∈ path, IsText s) :
    (∀ s ∈ path.map N.toSnakeCase, Quotes N s) ↔ SegmentsSafe N path := by
  rw [List.forall_mem_map]
  exact forall₂_congr fun s hs => quotes_snakeCase hN (h s hs)

/-- The segments of the path to a type constructor are texts. -/
lemma isText_tyconSegments {n : DamlTyConName} (h : TyconNamesValid n) :
    ∀ s ∈ tyconSegments N n, IsText s := by
  have hsnake : ∀ path : List String, (∀ s ∈ path, IsText s) →
      ∀ s ∈ path.map N.toSnakeCase, IsText s := by
    intro path hpath
    rw [List.forall_mem_map]
    exact fun s hs => isText_snakeCase hN (hpath s hs)
  cases n with
  | localTyCon c => exact List.forall_mem_nil _
  | nonLocal c =>
    intro s hs
    refine hsnake (c.targetPackageName :: c.targetModulePath) ?_ s (List.mem_of_mem_drop hs)
    refine List.forall_mem_cons.2 ⟨(h.packages _ (by simp [DamlTyConName.packageNames])).isText, ?_⟩
    exact fun s hs => (h.modules s (List.mem_append_right _ hs)).isText
  | absolute c =>
    refine hsnake (cratePath c.packageName c.modulePath) ?_
    have hmodules : ∀ s ∈ c.modulePath, IsText s := fun s hs => (h.modules s hs).isText
    rw [cratePath]
    split_ifs
    · exact hmodules
    · exact List.forall_mem_cons.2 ⟨(h.packages _ (List.mem_singleton_self _)).isText, hmodules⟩

lemma renders_quoteTyconName_iff {n : DamlTyConName} (h : TyconNamesValid n) :
    Renders (quoteTyconName N n) ↔ ∀ s ∈ tyconSegments N n, s ≠ "" := by
  rw [renders_quoteTyconName, and_iff_right (quotes_identifier hN h.name)]
  exact forall₂_congr fun s hs => quotes_iff_ne_empty hN (isText_tyconSegments hN h s hs)

/-- A type constructor is rendered if its Rust type is known and the names in it are rendered. -/
lemma renders_quoteHead_iff {t : DamlType} (h : ∀ n, t.head? = some n → TyconNamesValid n) :
    Renders (quoteHead N t) ↔ t.isSupported = true ∧ HeadSafe N t := by
  -- builtin types are named by constants, which are escaped without a panic
  have hname : ∀ name : String, name.toList.all isNameChar = true → name ≠ "" →
      Renders ((fun ident => TypeHead.path (.name ident)) <$> quoteEscapedIdent N name) :=
    fun name hchars hne =>
      renders_map.2 ((quotes_iff_ne_empty hN (List.all_eq_true.1 hchars)).2 hne)
  have hunsupported : ∀ {e : RenderPanic}, t.isSupported = false →
      (Renders (.error e : Render TypeHead) ↔ t.isSupported = true ∧ HeadSafe N t) := by
    intro e ht
    rw [ht]
    exact iff_of_false (not_renders_error e) (by simp)
  cases t with
  | tyCon n args =>
    exact (renders_map.trans (renders_quoteTyconName_iff hN (h n rfl))).trans
      (by simp [DamlType.isSupported, HeadSafe])
  | boxedTyCon n args =>
    exact (renders_map.trans (renders_quoteTyconName_iff hN (h n rfl))).trans
      (by simp [DamlType.isSupported, HeadSafe])
  | var v args =>
    exact (renders_map.trans renders_quoteIdent).trans (by simp [DamlType.isSupported, HeadSafe])
  | nat n =>
    -- the digits of `n` behind `Nat` are a word
    have hword : IsWord ("Nat" ++ toString n) := by
      have hlist : ("Nat" ++ toString n).toList = 'N' :: 'a' :: 't' :: Nat.toDigits 10 n := by
        simp [String.toList_append]
      refine ⟨?_, 'N', by rw [hlist]; rfl, rfl⟩
      rw [hlist]
      refine List.forall_mem_cons.2 ⟨rfl, List.forall_mem_cons.2 ⟨rfl, List.forall_mem_cons.2
        ⟨rfl, fun c hc => ?_⟩⟩⟩
      have hdigit : c.isDigit = true := Nat.isDigit_of_mem_toDigits (by decide) (by decide) hc
      simp [isWordChar, Char.isAlphanum, hdigit]
    exact iff_of_true (renders_map.2 (renders_quoteIdent.2 (hN.isIdent_word _ hword)))
      ⟨rfl, trivial⟩
  | list args => exact iff_of_true (hname "DamlList" rfl (by decide)) ⟨rfl, trivial⟩
  | optional args => exact iff_of_true (hname "DamlOptional" rfl (by decide)) ⟨rfl, trivial⟩
  | numeric args => exact iff_of_true (hname "DamlFixedNumeric" rfl (by decide)) ⟨rfl, trivial⟩
  | textMap args => exact iff_of_true (hname "DamlTextMap" rfl (by decide)) ⟨rfl, trivial⟩
  | genMap args => exact iff_of_true (hname "DamlGenMap" rfl (by decide)) ⟨rfl, trivial⟩
  | contractId inner => exact iff_of_true (hname "DamlContractId" rfl (by decide)) ⟨rfl, trivial⟩
  | int64 => exact iff_of_true (hname "DamlInt64" rfl (by decide)) ⟨rfl, trivial⟩
  | text => exact iff_of_true (hname "DamlText" rfl (by decide)) ⟨rfl, trivial⟩
  | timestamp => exact iff_of_true (hname "DamlTimestamp" rfl (by decide)) ⟨rfl, trivial⟩
  | party => exact iff_of_true (hname "DamlParty" rfl (by decide)) ⟨rfl, trivial⟩
  | bool => exact iff_of_true (hname "DamlBool" rfl (by decide)) ⟨rfl, trivial⟩
  | unit => exact iff_of_true (hname "DamlUnit" rfl (by decide)) ⟨rfl, trivial⟩
  | date => exact iff_of_true (hname "DamlDate" rfl (by decide)) ⟨rfl, trivial⟩
  | _ => exact hunsupported rfl

lemma renders_quoteType_iff {t : DamlType} (h : ∀ n, t.Mentions n → TyconNamesValid n) :
    Renders (quoteType N t) ↔ TypeSafe N t := by
  have hhead : Renders (quoteType N t) ↔
      ∀ s, Reaches DamlType.keptArguments t s → s.isSupported = true ∧ HeadSafe N s :=
    renders_quoteType.trans <| forall₂_congr fun s hs =>
      renders_quoteHead_iff hN fun n hn => h n (DamlType.mentions_of_reaches_kept hs hn)
  rw [hhead]
  exact ⟨fun hall => ⟨fun s hs => (hall s hs).1, fun s hs => (hall s hs).2⟩,
    fun hsafe s hs => ⟨hsafe.supported s hs, hsafe.names s hs⟩⟩

/-! ### Definitions -/

/-- The names of the fields are valid, and those in their types. -/
def FieldNamesValid (fields : List (DamlField DamlType)) : Prop :=
  ∀ f ∈ fields, IsDamlIdentifier f.name ∧ ∀ n, f.ty.Mentions n → TyconNamesValid n

/-- Of the fields that the filter admits, only names in types can be refused. -/
lemma fieldsSafe_iff {ctx : RenderContext} {fields : List (DamlField DamlType)}
    (h : FieldNamesValid fields) :
    (∀ f ∈ supportedFields ctx fields, Quotes N f.name ∧ Renders (quoteType N f.ty)) ↔
      FieldsSafe N ctx fields := by
  refine forall₂_congr fun f hf => ?_
  obtain ⟨hmem, hcheck⟩ := List.mem_filter.1 hf
  obtain ⟨hname, htypes⟩ := h f hmem
  rw [and_iff_right (quotes_identifier hN hname), renders_quoteType_iff hN htypes]
  exact ⟨TypeSafe.names, fun hsafe => ⟨fun s hs => isSupported_of_reaches hcheck hs, hsafe⟩⟩

omit hN in
lemma paramsSafe_iff {params : List DamlTypeVarWithKind} :
    (∀ p ∈ params, Renders (quoteVar N p.var)) ↔ ParamsSafe N params :=
  forall₂_congr fun _ _ => renders_quoteIdent

lemma structRenders_iff {ctx : RenderContext} {name : String} {fields : List (DamlField DamlType)}
    {params : List DamlTypeVarWithKind} (hname : IsDamlIdentifier name)
    (hfields : FieldNamesValid fields) :
    StructRenders N name (supportedFields ctx fields) params ↔
      ParamsSafe N params ∧ FieldsSafe N ctx fields ∧ PhantomsSafe N ctx params fields := by
  have hphantoms : (∀ p ∈ unusedParams params (supportedFields ctx fields),
      Quotes N (makeIgnoredIdent p.var)) ↔ PhantomsSafe N ctx params fields :=
    forall₂_congr fun _ _ => renders_quoteIdent
  rw [← paramsSafe_iff, ← fieldsSafe_iff hN hfields, ← hphantoms]
  exact ⟨fun h => ⟨h.vars, h.members, h.phantoms⟩,
    fun ⟨hvars, hmembers, hphantoms⟩ => ⟨quotes_identifier hN hname, hvars, hmembers, hphantoms⟩⟩

lemma enumRenders_iff {ctx : RenderContext} {name : String} {fields : List (DamlField DamlType)}
    {params : List DamlTypeVarWithKind} (hname : IsDamlIdentifier name)
    (hfields : FieldNamesValid fields) :
    EnumRenders N name (supportedFields ctx fields) params ↔
      ParamsSafe N params ∧ FieldsSafe N ctx fields := by
  rw [← paramsSafe_iff, ← fieldsSafe_iff hN hfields]
  exact ⟨fun h => ⟨h.vars, h.members⟩,
    fun ⟨hvars, hmembers⟩ => ⟨quotes_identifier hN hname, hvars, hmembers⟩⟩

end Documented

section Archive

variable {N : Naming} {A : DamlArchive} {m : DamlModule} (hN : N.Documented) (hnames : NamesValid A)
  (hchecked : A.CheckedIntact) (hm : A.HasModule m)

include hnames hm in
lemma fieldNamesValid_of_data {d : DamlData} (hd : d ∈ m.dataTypes)
    {fields : List (DamlField DamlType)} (hmembers : fields.map DamlField.name ⊆ d.memberNames)
    (htypes : fields.map DamlField.ty ⊆ d.ownTypes) : FieldNamesValid fields := by
  intro f hf
  refine ⟨(hnames.dataTypes m hm d hd).2 _ (hmembers (List.mem_map_of_mem hf)), ?_⟩
  refine hnames.types m hm _ ?_
  have hown : f.ty ∈ m.ownTypes := List.mem_append_left _ <|
    List.mem_flatMap.2 ⟨d, hd, htypes (List.mem_map_of_mem hf)⟩
  exact List.mem_append_left _ (List.mem_append_left _ hown)

include hN hnames hchecked hm in
/-- Validation gives every choice an argument, but does not look at what its type is made of. -/
lemma argumentRenders_iff {c : DamlChoice} (hc : c ∈ m.choices) :
    ArgumentRenders N c ↔ ArgumentSafe N c := by
  obtain ⟨f, hf, -⟩ := (hchecked.shapes m hm).arguments c hc
  have hmem : f.ty ∈ m.choices.flatMap DamlChoice.types := by
    refine List.mem_flatMap.2 ⟨c, hc, DamlChoice.mem_types.2 (.inl ?_)⟩
    rw [DamlChoice.checkedTypes, hf]
    exact List.mem_cons_self
  have htypes : f.ty ∈ m.types :=
    List.mem_append_left _ (List.mem_append_right _ hmem)
  have hrenders := renders_quoteType_iff hN (hnames.types m hm _ htypes)
  rw [ArgumentRenders, ArgumentSafe, hf]
  simp [hrenders]

include hN hnames hm in
lemma quotes_choice {c : DamlChoice} (hc : c ∈ m.choices) :
    IsText (N.toSnakeCase c.name) ∧ Quotes N (N.toSnakeCase c.name ++ "_command") := by
  have htext := isText_snakeCase hN (hnames.choices m hm c hc).isText
  exact ⟨htext, quotes_append hN htext (List.all_eq_true.1 rfl) (by decide)⟩

include hnames in
lemma isText_packageNameFor {mode : RenderFilterMode} {packageId name : String}
    (h : RenderContext.packageNameFor ⟨A, mode⟩ packageId = some name) : IsText name := by
  obtain ⟨e, he, h⟩ := Option.bind_eq_some_iff.1 h
  split_ifs at h
  cases h
  exact (hnames.packages e (List.mem_of_find?_eq_some he)).isText

include hN hnames hchecked hm in
lemma interfaceChoicesRender_iff {mode : RenderFilterMode} {i : DamlInterface}
    (hi : i ∈ m.interfaces) :
    InterfaceChoicesRender N ⟨A, mode⟩ i ↔ InterfaceSafe N ⟨A, mode⟩ i := by
  obtain ⟨hname, hmodules⟩ := hnames.interfaces m hm i hi
  -- the name of the package is in the path, if the interface has one
  have hpath : ∀ s ∈ interfaceCratePath ⟨A, mode⟩ i, IsText s := by
    have hmodules : ∀ s ∈ i.modulePath, IsText s := fun s hs => (hmodules s hs).isText
    rw [interfaceCratePath, cratePath]
    split_ifs with hempty
    · exact hmodules
    · refine List.forall_mem_cons.2 ⟨?_, hmodules⟩
      rcases hpackage : RenderContext.packageNameFor ⟨A, mode⟩ i.packageId with _ | name
      · rw [hpackage] at hempty
        exact absurd rfl hempty
      · exact isText_packageNameFor hnames hpackage
  have hchoices : ∀ c ∈ i.choices, (Quotes N (interfaceMethod N i c) ∧ ArgumentRenders N c ↔
      ArgumentSafe N c) := by
    intro c hc
    have hmem : c ∈ m.choices := List.mem_append_right _ (List.mem_flatMap.2 ⟨i, hi, hc⟩)
    rw [argumentRenders_iff hN hnames hchecked hm hmem]
    refine and_iff_right (quotes_append hN (isText_append (isText_append ?_ ?_) ?_) ?_ (by decide))
    · exact isText_snakeCase hN hname.isText
    · exact List.all_eq_true.1 rfl
    · exact (quotes_choice hN hnames hm hmem).1
    · exact List.all_eq_true.1 rfl
  constructor
  · rintro ⟨hsegments, -, hall⟩
    exact ⟨(segmentsSafe_iff hN hpath).1 hsegments, fun c hc => (hchoices c hc).1 (hall c hc)⟩
  · rintro ⟨hsegments, hall⟩
    exact ⟨(segmentsSafe_iff hN hpath).2 hsegments, quotes_identifier hN hname,
      fun c hc => (hchoices c hc).2 (hall c hc)⟩

include hN hnames hchecked hm in
lemma templateRenders_iff {mode : RenderFilterMode} {t : DamlTemplate}
    (ht : DamlData.template t ∈ m.dataTypes) :
    TemplateRenders N ⟨A, mode⟩ t ↔ TemplateSafe N ⟨A, mode⟩ t := by
  have hname : IsDamlIdentifier t.name := (hnames.dataTypes m hm _ ht).1
  have hfields : FieldNamesValid t.fields := fieldNamesValid_of_data hnames hm ht
    (List.Subset.refl _) (List.subset_append_left _ _)
  have hchoices : ∀ c ∈ t.choices, (Quotes N (N.toSnakeCase c.name ++ "_command") ∧
      ArgumentRenders N c ↔ ArgumentSafe N c) := by
    intro c hc
    have hmem : c ∈ m.choices := List.mem_append_left _ (List.mem_flatMap.2 ⟨_, ht, hc⟩)
    rw [argumentRenders_iff hN hnames hchecked hm hmem]
    exact and_iff_right (quotes_choice hN hnames hm hmem).2
  -- the paths of the interfaces: their names are checked, so only empty segments are left to fear
  have himplements : ∀ n ∈ t.implements,
      ((∀ s ∈ (tyconCratePath n).map N.toSnakeCase, Quotes N s) ∧ Quotes N n.dataName ↔
        SegmentsSafe N (tyconCratePath n)) := by
    intro n hn
    have hvalid : TyconNamesValid n := hnames.names m hm n <|
      List.mem_append_left _ (List.mem_flatMap.2 ⟨_, ht, hn⟩)
    have hpath : ∀ packageName modulePath, packageName ∈ n.packageNames →
        modulePath ⊆ n.moduleNames → ∀ s ∈ cratePath packageName modulePath, IsText s := by
      intro packageName modulePath hpackage hmodule s hs
      rw [cratePath] at hs
      split_ifs at hs
      · exact (hvalid.modules s (hmodule hs)).isText
      · rcases List.mem_cons.1 hs with rfl | hs
        · exact (hvalid.packages s hpackage).isText
        · exact (hvalid.modules s (hmodule hs)).isText
    rw [segmentsSafe_iff hN, and_iff_left (quotes_identifier hN hvalid.name)]
    cases n with
    | localTyCon c => exact hpath _ _ (List.mem_singleton_self _) (List.Subset.refl _)
    | nonLocal c =>
      exact hpath _ _ (List.mem_cons_of_mem _ (List.mem_singleton_self _))
        (List.subset_append_right _ _)
    | absolute c => exact hpath _ _ (List.mem_singleton_self _) (List.Subset.refl _)
  have hinterfaces : ∀ i ∈ implementedInterfaces ⟨A, mode⟩ t,
      (InterfaceChoicesRender N ⟨A, mode⟩ i ↔ InterfaceSafe N ⟨A, mode⟩ i) := by
    intro i hi
    obtain ⟨n, -, hn⟩ := List.mem_filterMap.1 hi
    obtain ⟨m', hm', hmem⟩ := DamlArchive.exists_module_of_interface hn
    exact interfaceChoicesRender_iff hN hnames hchecked hm' hmem
  constructor
  · intro h
    exact ⟨((structRenders_iff hN hname hfields).1 h.record).2.1,
      fun c hc => (hchoices c hc).1 (h.choices c hc),
      fun n hn => (himplements n hn).1 (h.implements n hn),
      fun i hi => (hinterfaces i hi).1 (h.interfaces i hi)⟩
  · intro h
    refine ⟨(structRenders_iff hN hname hfields).2 ⟨List.forall_mem_nil _, h.members, nofun⟩,
      quotes_append hN hname.isText (List.all_eq_true.1 rfl) (by decide),
      quotes_append hN hname.isText (List.all_eq_true.1 rfl) (by decide),
      fun c hc => (hchoices c hc).2 (h.choices c hc),
      fun n hn => (himplements n hn).2 (h.implements n hn),
      fun i hi => (hinterfaces i hi).2 (h.interfaces i hi)⟩

include hN hnames hchecked hm in
/-- A definition of the archive is rendered if it is safe. -/
lemma itemRenders_iff {mode : RenderFilterMode} {i : RenderItem}
    (hi : i ∈ quotedItems .full m.val) : ItemRenders N ⟨A, mode⟩ i ↔ ItemSafe N ⟨A, mode⟩ i := by
  rcases List.mem_append.1 hi with hi | hi
  · obtain ⟨e, he, rfl⟩ := List.mem_map.1 hi
    have hd : e.2 ∈ m.dataTypes := List.mem_map_of_mem he
    obtain ⟨hname, hmembers⟩ := hnames.dataTypes m hm _ hd
    cases hdata : e.2 with
    | record r =>
      rw [hdata] at hd hname
      exact structRenders_iff hN hname <| fieldNamesValid_of_data hnames hm hd
        (List.Subset.refl _) (List.Subset.refl _)
    | variant v =>
      rw [hdata] at hd hname
      exact enumRenders_iff hN hname <| fieldNamesValid_of_data hnames hm hd
        (List.Subset.refl _) (List.Subset.refl _)
    | enum d =>
      rw [hdata] at hname hmembers
      show (Quotes N d.name ∧ (∀ p ∈ d.typeParams, Renders (quoteVar N p.var)) ∧
        ∀ s ∈ d.constructors, Quotes N s) ↔ ParamsSafe N d.typeParams
      have hquotes : Quotes N d.name := quotes_identifier hN hname
      rw [paramsSafe_iff, and_iff_right hquotes]
      exact and_iff_left fun s hs => quotes_identifier hN (hmembers s hs)
    | template t =>
      rw [hdata] at hd
      exact templateRenders_iff hN hnames hchecked hm hd
  · obtain ⟨e, he, rfl⟩ := List.mem_map.1 hi
    have hmem : e.2 ∈ m.interfaces := List.mem_map_of_mem he
    exact iff_of_true (quotes_identifier hN (hnames.interfaces m hm _ hmem).1) trivial

end Archive

lemma isText_localName {A : DamlArchive} (hnames : NamesValid A) {m : DamlModule}
    (hm : A.HasModule m) : IsText (localName m.val) := by
  rw [localName]
  rcases hlast : m.val.path.getLast? with _ | s
  · exact List.all_eq_true.1 rfl
  · exact (hnames.modules m hm s (List.mem_of_getLast? hlast)).isText

/-- The modules on the way to a path are modules of the archive. -/
lemma exists_module_of_way {A : DamlArchive} {e : String × DamlPackage} (he : e ∈ A.packages)
    {p : List String} {b : DamlModuleBody} (hb : b ∈ way p e.2.rootModule) :
    ∃ m, A.HasModule m ∧ m.val = b := by
  rw [way_eq] at hb
  obtain ⟨q, -, hq⟩ := List.mem_filterMap.1 hb
  obtain ⟨m, hm, rfl⟩ := Option.map_eq_some_iff.1 hq
  exact ⟨m, DamlArchive.hasModule_of_get? he hm, rfl⟩

/-- The case conversions on a single word in ASCII, where snake case drops the other characters. -/
def asciiNaming : Naming :=
  { wordNaming with
    toSnakeCase := fun value =>
      String.ofList ((wordNaming.toSnakeCase value).toList.filter isWordChar) }

lemma documented_asciiNaming : asciiNaming.Documented where
  isIdent_word := by
    intro s hs
    obtain ⟨c, hc, hdigit⟩ := hs.head
    show (s.toList.all isWordChar && s.toList.head?.any fun c => !c.isDigit) = true
    rw [Option.mem_def.1 hc, Option.any_some, hdigit, List.all_eq_true.2 hs.chars]
    rfl
  isIdent_empty := rfl
  snakeCase_empty := rfl
  snakeCase_word := by
    intro s _ c hc
    rw [show asciiNaming.toSnakeCase s = String.ofList _ from rfl, String.toList_ofList] at hc
    exact (List.mem_filter.1 hc).2

/-- A record with a type parameter of kind `* -> *`. -/
def callRecord : DamlRecord where
  name := "Call"
  packageId := "pkg"
  modulePath := ["Main"]
  fields := []
  typeParams := [⟨"f", .arrow [.star] .star⟩]
  serializable := false

/-- The name of that record. -/
def callName : DamlTyConName := .absolute ⟨"Call", "pkg", "phones", ["Main"]⟩

/-- A choice with the argument `Call f`. -/
def ringChoice (f : DamlType) : DamlChoice where
  name := "Ring"
  packageId := "pkg"
  modulePath := ["Main"]
  fields := [⟨"arg", .tyCon callName [f]⟩]
  returnType := .unit
  consuming := true
  selfBinder := "self"
  update := .primLit (.text "")
  controllers := .nil .party
  observers := .nil .party

/-- A template with that choice. -/
def phoneTemplate (f : DamlType) : DamlTemplate where
  name := "Phone"
  packageId := "pkg"
  modulePath := ["Main"]
  fields := []
  choices := [ringChoice f]
  param := "this"
  implements := []
  precond := none
  signatories := .nil .party
  agreement := .primLit (.text "")
  observers := .nil .party
  key := none
  serializable := true

/-- The module of the record and the template. -/
def phoneModule (f : DamlType) : DamlModuleBody :=
  { DamlModuleBody.newEmpty ["Main"] with
    dataTypes := [("Call", .record callRecord), ("Phone", .template (phoneTemplate f))] }

/-- An archive with that module only. -/
def phoneArchive (f : DamlType) : DamlArchive where
  name := "phones"
  mainPackageId := "pkg"
  packages := [("pkg", ⟨"phones", "pkg", none,
    .node (.newEmpty []) [("Main", .node (phoneModule f) [])]⟩)]

section Phone

variable {f : DamlType}

lemma keyedModules_phoneArchive (f : DamlType) : KeyedModules (phoneArchive f) := by
  refine List.forall_mem_singleton.2 (.node (List.nodup_singleton _) ?_)
  exact List.forall_mem_singleton.2 (.node List.nodup_nil (List.forall_mem_nil _))

lemma hasModule_phoneArchive {m : DamlModule} (hm : (phoneArchive f).HasModule m) :
    m.val = .newEmpty [] ∨ m.val = phoneModule f := by
  obtain ⟨e, he, hreach⟩ := hm
  cases List.mem_singleton.1 he
  obtain rfl | ⟨c, hc, hreach⟩ := reaches_iff.1 hreach
  · exact .inl rfl
  cases List.mem_singleton.1 hc
  obtain rfl | ⟨c, hc, -⟩ := reaches_iff.1 hreach
  · exact .inr rfl
  · cases hc

/-- The types and names of that archive are those of the choice. -/
lemma types_phoneArchive {m : DamlModule} (hm : (phoneArchive f).HasModule m) :
    m.names = [] ∧ m.interfaces = [] ∧ m.types ⊆ [.tyCon callName [f], .unit] ∧
      m.choices ⊆ [ringChoice f] := by
  have hbody : ∀ b : DamlModuleBody, m.val = b → m = .node b m.childModules := by
    rintro b rfl
    cases m
    rfl
  rcases hasModule_phoneArchive hm with hval | hval <;> rw [hbody _ hval]
  · exact ⟨rfl, rfl, List.nil_subset _, List.nil_subset _⟩
  · exact ⟨rfl, rfl, List.Subset.refl _, List.Subset.refl _⟩

lemma mentions_phoneArchive (hf : ∀ n, ¬ f.Mentions n) {t : DamlType}
    (ht : t ∈ [DamlType.tyCon callName [f], .unit]) {n : DamlTyConName} (hn : t.Mentions n) :
    n = callName := by
  rcases List.mem_cons.1 ht with rfl | ht
  · cases hn with
    | head h => exact (Option.some.inj h).symm
    | inside hc h =>
      cases List.mem_singleton.1 hc
      exact absurd h (hf n)
  · cases List.mem_singleton.1 ht
    cases hn with
    | head h => cases h
    | inside hc h => cases hc

lemma namesValid_phoneArchive (hf : ∀ n, ¬ f.Mentions n) : NamesValid (phoneArchive f) := by
  have hmain : IsDamlIdentifier "Main" := ⟨List.all_eq_true.1 rfl, 'M', rfl, rfl⟩
  have hcall : IsDamlIdentifier "Call" := ⟨List.all_eq_true.1 rfl, 'C', rfl, rfl⟩
  have hphone : IsDamlIdentifier "Phone" := ⟨List.all_eq_true.1 rfl, 'P', rfl, rfl⟩
  have hring : IsDamlIdentifier "Ring" := ⟨List.all_eq_true.1 rfl, 'R', rfl, rfl⟩
  have hpackage : IsPackageName "phones" := ⟨List.all_eq_true.1 rfl, by decide⟩
  have hname : TyconNamesValid callName :=
    ⟨List.forall_mem_singleton.2 hpackage, List.forall_mem_singleton.2 hmain, hcall⟩
  constructor
  · exact List.forall_mem_singleton.2 hpackage
  · intro m hm s hs
    rcases hasModule_phoneArchive hm with hval | hval <;> rw [hval] at hs
    · cases hs
    · cases List.mem_singleton.1 hs
      exact hmain
  · intro m hm d hd
    obtain ⟨e, he, rfl⟩ := List.mem_map.1 hd
    rcases hasModule_phoneArchive hm with hval | hval <;> rw [hval] at he
    · cases he
    · rcases List.mem_cons.1 he with rfl | he
      · exact ⟨hcall, List.forall_mem_nil _⟩
      · cases List.mem_singleton.1 he
        exact ⟨hphone, List.forall_mem_nil _⟩
  · intro m hm i hi
    rw [(types_phoneArchive hm).2.1] at hi
    cases hi
  · intro m hm c hc
    cases List.mem_singleton.1 ((types_phoneArchive hm).2.2.2 hc)
    exact hring
  · intro m hm t ht n hn
    rw [mentions_phoneArchive hf ((types_phoneArchive hm).2.2.1 ht) hn]
    exact hname
  · intro m hm n hn
    rw [(types_phoneArchive hm).1] at hn
    cases hn

lemma validate_phoneArchive (hf : ∀ n, ¬ f.Mentions n) (debug : DamlType → String) :
    (phoneArchive f).validate debug = .ok () := by
  have hcall : (phoneArchive f).dataByTyconName callName = some (.record callRecord) := rfl
  refine DamlArchive.validate_eq_ok.2 ⟨fun m hm t ht n hn => ?_, fun m hm i hi => ?_,
    fun m hm => ⟨fun c hc => ?_, fun i hi => ?_⟩⟩
  · have htypes : t ∈ m.types := by
      rcases List.mem_append.1 ht with ht | ht
      · exact List.mem_append_left _ (List.mem_append_left _ ht)
      · obtain ⟨c, hc, ht⟩ := List.mem_flatMap.1 ht
        refine List.mem_append_left _ (List.mem_append_right _ ?_)
        exact List.mem_flatMap.2 ⟨c, hc, DamlChoice.mem_types.2 (.inl ht)⟩
    rw [mentions_phoneArchive hf ((types_phoneArchive hm).2.2.1 htypes) hn]
    exact .inl (by rw [hcall]; rfl)
  · rw [(types_phoneArchive hm).2.1] at hi
    cases hi
  · cases List.mem_singleton.1 ((types_phoneArchive hm).2.2.2 hc)
    exact ⟨_, rfl, callName, callRecord, rfl, hcall⟩
  · rw [(types_phoneArchive hm).2.1] at hi
    cases hi

end Phone

lemma not_mentions_of_parts {t : DamlType} (hhead : t.head? = none) (hparts : t.components = [])
    (n : DamlTyConName) : ¬ t.Mentions n := by
  intro h
  cases h with
  | head h =>
    rw [hhead] at h
    cases h
  | inside hc h =>
    rw [hparts] at hc
    cases hc

end DamlBindings.Codegen
