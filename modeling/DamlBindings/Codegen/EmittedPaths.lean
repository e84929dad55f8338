import DamlBindings.Codegen.EmittedPlaces
import DamlBindings.Codegen.Payloads
import DamlBindings.Codegen.RenderSafe
import DamlBindings.Codegen.TokenPaths
import DamlBindings.Lf.ConvertedNames

/-!
# Emitted paths

A reference is emitted as the path from the crate that is spelled by the names in it.  It points at
the definition that it refers to, except for the interfaces that templates implement, which
validation does not look at.
-/

namespace DamlBindings.Codegen

open Lf PathTree Worklist

/-- The definition is the data type or the interface that the name refers to. -/
structure IsTarget (A : DamlArchive) (n : DamlTyConName) (x : PlacedTokens) : Prop where
  path : x.path = n.modulePath
  item : (∃ d, x.item = .data d ∧ A.dataByTyconName n = some d) ∨
    ∃ i, x.item = .interface i ∧ A.interfaceByTyconName n = some i

/-- What the name refers to is emitted at the path. -/
def PointsAt (A : DamlArchive) (ms : List RenderedMod) (n : DamlTyConName)
    (path : RustPath) : Prop :=
  ∃ x ∈ placedOf ms, IsTarget A n x ∧ x.rustPath = path.segments ∧ x.tokens.ident = path.ident

/-- Every path from the crate in the tokens of a definition is emitted for a name, and points at
what the name refers to. -/
def PathsPoint (N : Naming) (A : DamlArchive) (ms : List RenderedMod) : Prop :=
  ∀ x ∈ placedOf ms, ∀ path ∈ x.tokens.paths, path.start = .crate →
    (∃ n, Emits N ⟨A, .higherKindedType⟩ x.item n path) ∧
      ∀ n, Emits N ⟨A, .higherKindedType⟩ x.item n path → PointsAt A ms n path

/-- The interfaces that templates implement are in the archive, and those with choices are in the
modules that their own paths spell. -/
structure ImplementsPlaced (N : Naming) (A : DamlArchive) : Prop where
  resolves : ∀ m, A.HasModule m → ∀ d ∈ m.dataTypes, ∀ n ∈ d.implements, A.Resolves n
  modulePath : ∀ m, A.HasModule m → ∀ d ∈ m.dataTypes, ∀ n ∈ d.implements, ∀ i,
    A.interfaceByTyconName n = some i → i.choices ≠ [] →
      i.modulePath.map (toRustIdentifier N) = n.modulePath.map (toRustIdentifier N)

section Paths

variable {N : Naming}

/-- The path to a package, a module and a name in the generated code. -/
def cratePathOf (N : Naming) (packageName : String) (modulePath : List String) (name : String) :
    RustPath :=
  ⟨.crate, (cratePath packageName modulePath).map (toRustIdentifier N), escapeIdentifier name⟩

lemma quoteTyconName_absolute {c : DamlAbsoluteTyCon} {path : RustPath}
    (h : quoteTyconName N (.absolute c) = .ok path) :
    path = cratePathOf N c.packageName c.modulePath c.dataName := by
  obtain ⟨ident, hident, h⟩ := Except.bind_eq_ok.1 h
  obtain ⟨segments, hsegments, h⟩ := Except.bind_eq_ok.1 h
  cases h
  rw [← (quotePathSegments_eq_ok.1 hsegments).1, ← (quoteEscapedIdent_eq_ok.1 hident).2]
  rfl

lemma quoteInterfaceTraitPath_absolute {c : DamlAbsoluteTyCon} {path : RustPath}
    (h : quoteInterfaceTraitPath N (.absolute c) = .ok path) :
    path = cratePathOf N c.packageName c.modulePath c.dataName := by
  obtain ⟨segments, hsegments, h⟩ := Except.bind_eq_ok.1 h
  obtain ⟨ident, hident, h⟩ := Except.bind_eq_ok.1 h
  cases h
  rw [← (quotePathSegments_eq_ok.1 hsegments).1, ← (quoteEscapedIdent_eq_ok.1 hident).2]
  rfl

lemma quoteInterfacePathFromParts_eq {packageName : Option String} {modulePath : List String}
    {name : String} {path : RustPath}
    (h : quoteInterfacePathFromParts N packageName modulePath name = .ok path) :
    path = cratePathOf N (packageName.getD "") modulePath name := by
  obtain ⟨segments, hsegments, h⟩ := Except.bind_eq_ok.1 h
  obtain ⟨ident, hident, h⟩ := Except.bind_eq_ok.1 h
  cases h
  rw [← (quotePathSegments_eq_ok.1 hsegments).1, ← (quoteEscapedIdent_eq_ok.1 hident).2]
  rfl

end Paths

/-! ### A rendered archive -/

section Archive

variable {N : Naming} (hN : N.Documented) {payload : DamlArchivePayload} {fuel : Nat}
  {A : DamlArchive} (hnames : payload.NamesAgree) (hbuild : payload.buildArchive fuel = .ok A)
  {ms : List RenderedMod} (hms : quoteArchive N ⟨[]⟩ A = .ok ms)

include hbuild in
/-- Without patterns, every module of a converted archive is included. -/
lemma included_of_buildArchive {e : String × DamlPackage} (he : e ∈ A.packages) {p : List String}
    {b : DamlModuleBody} (hb : valAt e.2.rootModule p = some b) :
    Included ⟨[]⟩ e.2.rootModule p := by
  obtain ⟨P, -, hfrom⟩ := DamlArchivePayload.exists_builtFrom hbuild he
  obtain ⟨leaves, hconv, htree⟩ := hfrom.tree
  rw [htree] at hb ⊢
  rw [included_ofLeaves hconv hb]
  simp [ModuleMatcher.matches]

include hbuild hms in
lemma moduleRenders_of_buildArchive {e : String × DamlPackage} (he : e ∈ A.packages)
    {p : List String} {b : DamlModuleBody} (hb : valAt e.2.rootModule p = some b) :
    ModuleRenders N ⟨A, .higherKindedType⟩ e.2.name (way p e.2.rootModule).tail b := by
  have hkeyed : KeyedModules A := fun e he =>
    keyed_of_placed ((DamlArchivePayload.wellPlaced_of_buildArchive hbuild).rootModules e he)
  exact (renders_quoteArchive hkeyed).1 ⟨ms, hms⟩ e he p b hb
    (included_of_buildArchive hbuild he hb)

include hN hbuild hms in
/-- A package of a rendered archive has a name. -/
lemma name_ne_empty {e : String × DamlPackage} (he : e ∈ A.packages) : e.2.name ≠ "" := by
  intro hempty
  have hname := (moduleRenders_of_buildArchive hbuild hms he (valAt_nil _)).name
  rw [hempty, hN.snakeCase_empty] at hname
  exact (quotes_iff_ne_empty hN (List.all_eq_true.1 rfl)).1 hname rfl

include hbuild in
lemma path_of_buildArchive {e : String × DamlPackage} (he : e ∈ A.packages) {p : List String}
    {b : DamlModuleBody} (hb : valAt e.2.rootModule p = some b) : b.path = p := by
  obtain ⟨P, -, hfrom⟩ := DamlArchivePayload.exists_builtFrom hbuild he
  obtain ⟨leaves, -, htree⟩ := hfrom.tree
  rw [htree] at hb
  exact DamlModule.path_of_valAt hb

include hN hbuild hms in
/-- A definition of a module is emitted in the module of its path. -/
lemma exists_placed {e : String × DamlPackage} (he : e ∈ A.packages) {p : List String}
    {b : DamlModuleBody} (hb : valAt e.2.rootModule p = some b) {i : RenderItem}
    (hi : i ∈ quotedItems .full b) :
    ∃ x ∈ placedOf ms, x.item = i ∧ x.path = p ∧
      x.rustPath = (cratePath e.2.name p).map (toRustIdentifier N) ∧
      x.tokens.ident = escapeIdentifier i.name := by
  have hplaced := DamlArchivePayload.wellPlaced_of_buildArchive hbuild
  have hincluded := included_of_buildArchive hbuild he hb
  obtain ⟨tokens, htokens⟩ : Renders (quoteItem N ⟨A, .higherKindedType⟩ i) :=
    renders_quoteItem.2 ((moduleRenders_of_buildArchive hbuild hms he hb).items i hi)
  refine ⟨⟨(e.2.name :: p).map (toRustIdentifier N), p, i, tokens⟩, ?_, rfl, rfl, ?_,
    ident_of_quoteItem htokens⟩
  · refine (mem_placedOf_quoteArchive hplaced hms).2 ⟨e, he, p, b, hb, hincluded, ?_⟩
    exact ⟨(path_of_buildArchive hbuild he hb).symm, hi, htokens, rfl⟩
  · rw [cratePath, if_neg]
    rw [String.isEmpty_iff]
    exact name_ne_empty hN hbuild hms he

include hnames hbuild in
/-- The name of a package in a converted name is that of the package that is found. -/
lemma packageName_of_names {e : String × DamlPackagePayload} (he : e ∈ payload.packages)
    {c : DamlAbsoluteTyCon} (hc : c.packageName = e.2.resolvePackageName c.packageId)
    {package : DamlPackage} (hpackage : (c.packageId, package) ∈ A.packages) :
    c.packageName = package.name := by
  obtain ⟨e', he', hfrom⟩ := DamlArchivePayload.exists_builtFrom hbuild hpackage
  have hkey : c.packageId = e'.2.packageId := hfrom.key
  rw [hc, hkey, hnames e he e' he', ← hfrom.name]

include hN hnames hbuild hms in
/-- A converted name that resolves points at what it resolves to. -/
lemma pointsAt_of_resolves {e : String × DamlPackagePayload} (he : e ∈ payload.packages)
    {n : DamlTyConName} (hn : e.2.Names n) (hresolves : A.Resolves n) {path : RustPath}
    (hpath : ∀ c, n = .absolute c → path = cratePathOf N c.packageName c.modulePath c.dataName) :
    PointsAt A ms n path := by
  obtain ⟨c, rfl, hc⟩ := hn
  cases hpath c rfl
  -- the module and the definition that the name finds
  have hfound : ∃ package b i, (c.packageId, package) ∈ A.packages ∧
      valAt package.rootModule c.modulePath = some b ∧ i ∈ quotedItems .full b ∧
      i.name = c.dataName ∧ ((∃ d, i = .data d ∧ A.dataByTyconName (.absolute c) = some d) ∨
        ∃ j, i = .interface j ∧ A.interfaceByTyconName (.absolute c) = some j) := by
    rcases hresolves with hdata | hinterface
    · obtain ⟨d, hd⟩ := Option.isSome_iff_exists.1 hdata
      obtain ⟨package, b, hpackage, hb, hentry⟩ := DamlArchive.exists_entry_of_data hd
      obtain ⟨P, -, hfrom⟩ := DamlArchivePayload.exists_builtFrom hbuild hpackage
      exact ⟨package, b, .data d, hpackage, hb,
        List.mem_append_left _ (List.mem_map.2 ⟨_, hentry, rfl⟩), (hfrom.data hb hentry).1.name,
        .inl ⟨d, rfl, hd⟩⟩
    · obtain ⟨j, hj⟩ := Option.isSome_iff_exists.1 hinterface
      obtain ⟨package, b, key, hpackage, hb, hentry, hname⟩ :=
        DamlArchive.exists_entry_of_interface hj
      exact ⟨package, b, .interface j, hpackage, hb,
        List.mem_append_right _ (List.mem_map.2 ⟨_, hentry, rfl⟩), hname, .inr ⟨j, rfl, hj⟩⟩
  obtain ⟨package, b, i, hpackage, hb, hi, hname, htarget⟩ := hfound
  obtain ⟨x, hx, rfl, hxpath, hrust, hident⟩ := exists_placed hN hbuild hms hpackage hb hi
  refine ⟨x, hx, ⟨hxpath, htarget⟩, ?_, ?_⟩
  · rw [hrust, packageName_of_names hnames hbuild he hc hpackage]
    rfl
  · rw [hident, hname]
    rfl

/-- The types of the fields of a data type are among those that validation looks at. -/
lemma subset_ownTypes (d : DamlData) : d.fields.map DamlField.ty ⊆ d.ownTypes := by
  cases d with
  | record r => exact List.Subset.refl _
  | variant v => exact List.Subset.refl _
  | enum e => exact List.Subset.refl _
  | template t => exact List.subset_append_left _ _

include hN hnames hbuild hms in
lemma pointsAt_of_spellsPath {e : String × DamlPackagePayload} (he : e ∈ payload.packages)
    {t : DamlType} (hnamed : e.2.NamesIn t) (ht : A.TypeResolves t) {n : DamlTyConName}
    {path : RustPath} (h : SpellsPath N t n path) : PointsAt A ms n path := by
  obtain ⟨s, hreach, hhead, hpath⟩ := h
  have hmentions := DamlType.mentions_of_reaches_kept hreach hhead
  refine pointsAt_of_resolves hN hnames hbuild hms he (hnamed n hmentions) (ht n hmentions) ?_
  rintro c rfl
  exact quoteTyconName_absolute hpath

/-- Validation looks at the type of the argument of a choice. -/
lemma typeResolves_argument (hchecked : A.CheckedIntact) {m : DamlModule} (hm : A.HasModule m)
    {c : DamlChoice} (hc : c ∈ m.choices) {f : DamlField DamlType} (hf : c.argument? = some f) :
    A.TypeResolves f.ty := by
  refine hchecked.types m hm _ (List.mem_append_right _ (List.mem_flatMap.2 ⟨c, hc, ?_⟩))
  rw [DamlChoice.checkedTypes, hf]
  exact List.mem_cons_self

include hbuild in
/-- The name of a package is found by its id. -/
lemma packageNameFor_eq {e : String × DamlPackage} (he : e ∈ A.packages) (hne : e.2.name ≠ "")
    {mode : RenderFilterMode} :
    RenderContext.packageNameFor ⟨A, mode⟩ e.2.packageId = some e.2.name := by
  have hid : ∀ x ∈ A.packages, x.2.packageId = x.1 := by
    intro x hx
    obtain ⟨P, -, hfrom⟩ := DamlArchivePayload.exists_builtFrom hbuild hx
    exact hfrom.packageId.trans hfrom.key.symm
  have hnodup := (DamlArchivePayload.wellPlaced_of_buildArchive hbuild).nodup
  obtain ⟨x, hx⟩ : ∃ x, A.packages.find? (fun x => x.2.packageId == e.2.packageId) = some x := by
    rw [← Option.isSome_iff_exists, List.find?_isSome]
    exact ⟨e, he, by simp⟩
  have hmem := List.mem_of_find?_eq_some hx
  have hkey : x.1 = e.1 := by
    have hsame : x.2.packageId = e.2.packageId := by simpa using List.find?_some hx
    rw [← hid x hmem, ← hid e he, hsame]
  -- there is one package under an id
  have hsame : x.2 = e.2 := by
    have hlookup := (AssocMap.lookup_eq_some_iff hnodup).2 hmem
    rw [hkey, (AssocMap.lookup_eq_some_iff hnodup).2 he] at hlookup
    exact (Option.some.inj hlookup).symm
  show (A.packages.find? _).bind _ = _
  rw [hx, Option.bind_some, hsame, if_neg]
  rwa [String.isEmpty_iff]

include hN hbuild hms in
/-- The path to the interface in the methods of its choices is the one to the module that its own
path spells. -/
lemma interfaceTrait_path {n : DamlTyConName} {i : DamlInterface}
    (hi : A.interfaceByTyconName n = some i) {path : RustPath}
    (h : quoteInterfacePathFromParts N (RenderContext.packageNameFor ⟨A, .higherKindedType⟩
      i.packageId) i.modulePath i.name = .ok path) :
    ∃ package b, (n.packageId, package) ∈ A.packages ∧
      valAt package.rootModule n.modulePath = some b ∧ .interface i ∈ quotedItems .full b ∧
      path = cratePathOf N package.name i.modulePath n.dataName := by
  obtain ⟨package, b, key, hpackage, hb, hentry, hname⟩ := DamlArchive.exists_entry_of_interface hi
  obtain ⟨P, hP, hfrom⟩ := DamlArchivePayload.exists_builtFrom hbuild hpackage
  have hid : i.packageId = package.packageId := (hfrom.interface hb hentry).2.1.trans
    hfrom.packageId.symm
  refine ⟨package, b, hpackage, hb, List.mem_append_right _ (List.mem_map.2 ⟨_, hentry, rfl⟩), ?_⟩
  rw [quoteInterfacePathFromParts_eq h, hid,
    packageNameFor_eq hbuild hpackage (name_ne_empty hN hbuild hms hpackage), hname]
  rfl

/-- Every module of an archive is at some path. -/
lemma exists_get?_of_hasModule (hkeyed : KeyedModules A) {m : DamlModule} (hm : A.HasModule m) :
    ∃ e ∈ A.packages, ∃ p, PathTree.get? p e.2.rootModule = some m := by
  obtain ⟨e, he, hreach⟩ := hm
  refine ⟨e, he, ?_⟩
  have hroot := hkeyed e he
  generalize e.2.rootModule = root at hreach hroot
  induction hreach using Relation.ReflTransGen.head_induction_on with
  | refl => exact ⟨[], rfl⟩
  | @head root c hc _ ih =>
    obtain ⟨⟨k, c⟩, hmem, rfl⟩ := List.mem_map.1 hc
    obtain ⟨p, hp⟩ := ih (hroot.child hmem)
    refine ⟨k :: p, ?_⟩
    rw [get?_cons, hroot.lookup_iff.2 hmem]
    exact hp

include hN hbuild hms in
/-- A template of the archive is emitted. -/
lemma exists_placed_of_implements {m : DamlModule} (hm : A.HasModule m) {d : DamlData}
    (hd : d ∈ m.dataTypes) {n : DamlTyConName} (hn : n ∈ d.implements) :
    ∃ t, d = .template t ∧ n ∈ t.implements ∧ TemplateRenders N ⟨A, .higherKindedType⟩ t ∧
      ∃ x ∈ placedOf ms, x.item = .data (.template t) := by
  cases d with
  | template t =>
    have hplaced := DamlArchivePayload.wellPlaced_of_buildArchive hbuild
    obtain ⟨e, he, p, hp⟩ :=
      exists_get?_of_hasModule (fun e he => keyed_of_placed (hplaced.rootModules e he)) hm
    have hb : valAt e.2.rootModule p = some m.val := congrArg (Option.map PathTree.val) hp
    obtain ⟨entry, hentry, heq⟩ := List.mem_map.1 hd
    have hitem : RenderItem.data (.template t) ∈ quotedItems .full m.val :=
      List.mem_append_left _ (List.mem_map.2 ⟨entry, hentry, by rw [heq]⟩)
    obtain ⟨x, hx, hxitem, -⟩ := exists_placed hN hbuild hms he hb hitem
    exact ⟨t, rfl, hn, (moduleRenders_of_buildArchive hbuild hms he hb).items _ hitem,
      x, hx, hxitem⟩
  | record r => cases hn
  | variant v => cases hn
  | enum e => cases hn

include hbuild in
/-- The module that a definition is emitted for. -/
lemma exists_module_of_placed {ms : List RenderedMod} {matcher : ModuleMatcher}
    (hms : quoteArchive N matcher A = .ok ms) {x : PlacedTokens} (hx : x ∈ placedOf ms)
    {d : DamlData} (hd : x.item = .data d) :
    ∃ m, A.HasModule m ∧ d ∈ m.dataTypes ∧ ∃ e ∈ payload.packages,
      DamlPackageTables.DataNamed e.2.toDamlPackageTables d := by
  have hplaced := DamlArchivePayload.wellPlaced_of_buildArchive hbuild
  obtain ⟨e, he, p, b, hb, -, hemitted⟩ := (mem_placedOf_quoteArchive hplaced hms).1 hx
  obtain ⟨P, hP, hfrom⟩ := DamlArchivePayload.exists_builtFrom hbuild he
  have hitem := hemitted.item
  rw [hd] at hitem
  have hentry : ∃ entry ∈ b.dataTypes, entry.2 = d := by
    rcases List.mem_append.1 hitem with hitem | hitem
    · obtain ⟨entry, hentry, heq⟩ := List.mem_map.1 hitem
      cases heq
      exact ⟨entry, hentry, rfl⟩
    · obtain ⟨entry, -, heq⟩ := List.mem_map.1 hitem
      cases heq
  obtain ⟨entry, hentry, rfl⟩ := hentry
  have hnamed := (hfrom.data hb hentry).2
  obtain ⟨m, hm, rfl⟩ := Option.map_eq_some_iff.1 hb
  exact ⟨m, DamlArchive.hasModule_of_get? he hm, List.mem_map_of_mem hentry, P, hP, hnamed⟩

include hN hnames hbuild hms in
/-- Every path that is emitted for a reference points at what it refers to, where the interfaces
that templates implement are in place. -/
lemma pointsAt_of_emits (hchecked : A.CheckedIntact) (hplaced : ImplementsPlaced N A)
    {x : PlacedTokens} (hx : x ∈ placedOf ms) {n : DamlTyConName} {path : RustPath}
    (h : Emits N ⟨A, .higherKindedType⟩ x.item n path) : PointsAt A ms n path := by
  generalize hitem : x.item = item at h
  -- one case for each place of a path; in a member, an argument or the header of a trait impl
  -- validation or the hypothesis resolves the name
  cases h with
  | @member d f _ _ hf hspells =>
    obtain ⟨m, hm, hd, e, he, hnamed⟩ := exists_module_of_placed hbuild hms hx hitem
    have hf := List.mem_of_mem_filter hf
    have htype : f.ty ∈ m.ownTypes := List.mem_append_left _ <|
      List.mem_flatMap.2 ⟨d, hd, subset_ownTypes d (List.mem_map_of_mem hf)⟩
    exact pointsAt_of_spellsPath hN hnames hbuild hms he (hnamed.members f hf)
      (hchecked.types m hm _ (List.mem_append_left _ htype)) hspells
  | @argument t c f _ _ hc hf hspells =>
    obtain ⟨m, hm, hd, e, he, hnamed⟩ := exists_module_of_placed hbuild hms hx hitem
    have hmem : c ∈ m.choices := List.mem_append_left _ (List.mem_flatMap.2 ⟨_, hd, hc⟩)
    exact pointsAt_of_spellsPath hN hnames hbuild hms he
      (hnamed.choices c hc f (List.mem_of_head? hf)) (typeResolves_argument hchecked hm hmem hf)
      hspells
  | @trait t _ _ hn hpath =>
    obtain ⟨m, hm, hd, e, he, hnamed⟩ := exists_module_of_placed hbuild hms hx hitem
    refine pointsAt_of_resolves hN hnames hbuild hms he (hnamed.implements n hn)
      (hplaced.resolves m hm _ hd n hn) ?_
    rintro c rfl
    exact quoteInterfaceTraitPath_absolute hpath
  | @interfaceArgument t n' _ i c f _ hn hi hc hf hspells =>
    obtain ⟨package, b, key, hpackage, hb, hentry, -⟩ := DamlArchive.exists_entry_of_interface hi
    obtain ⟨P, hP, hfrom⟩ := DamlArchivePayload.exists_builtFrom hbuild hpackage
    have hnamed := (hfrom.interface hb hentry).2.2.2 c hc f (List.mem_of_head? hf)
    obtain ⟨m, hm, rfl⟩ := Option.map_eq_some_iff.1 hb
    have hmodule := DamlArchive.hasModule_of_get? hpackage hm
    have hmem : c ∈ DamlModule.choices m := List.mem_append_right _ <|
      List.mem_flatMap.2 ⟨i, List.mem_map_of_mem hentry, hc⟩
    exact pointsAt_of_spellsPath hN hnames hbuild hms hP hnamed
      (typeResolves_argument hchecked hmodule hmem hf) hspells
  -- this path is built from the interface that was found, not from the name
  | @interfaceTrait t _ i _ hn hi hchoices hpath =>
    obtain ⟨m, hm, hd, -, -, -⟩ := exists_module_of_placed hbuild hms hx hitem
    obtain ⟨package, b, hpackage, hb, hmem, rfl⟩ := interfaceTrait_path hN hbuild hms hi hpath
    obtain ⟨y, hy, hyitem, hypath, hrust, hident⟩ := exists_placed hN hbuild hms hpackage hb hmem
    refine ⟨y, hy, ⟨hypath, .inr ⟨i, hyitem, hi⟩⟩, ?_, ?_⟩
    · have hne := name_ne_empty hN hbuild hms hpackage
      have hsame := hplaced.modulePath m hm _ hd n hn i hi hchoices
      rw [hrust]
      show (cratePath package.name n.modulePath).map _ = (cratePath package.name i.modulePath).map _
      rw [cratePath, cratePath, if_neg (by rwa [String.isEmpty_iff]),
        if_neg (by rwa [String.isEmpty_iff]), List.map_cons, List.map_cons, hsame]
    · obtain ⟨-, -, -, -, -, -, hname⟩ := DamlArchive.exists_entry_of_interface hi
      rw [hident, ← hname]
      rfl

include hN hbuild hms in
/-- Where every path points at what it refers to, the interfaces that templates implement are in
place. -/
lemma implementsPlaced_of_pathsPoint (hpoint : PathsPoint N A ms) : ImplementsPlaced N A := by
  have hall : ∀ x ∈ placedOf ms, ∀ n path, Emits N ⟨A, .higherKindedType⟩ x.item n path →
      path.start = .crate → PointsAt A ms n path := by
    intro x hx n path hemits hstart
    obtain ⟨_, _, _, _, _, _, hemitted⟩ := (mem_placedOf_quoteArchive
      (DamlArchivePayload.wellPlaced_of_buildArchive hbuild) hms).1 hx
    have hmem := (mem_paths_quoteItem hstart hemitted.tokens).2 ⟨n, hemits⟩
    exact (hpoint x hx path hmem hstart).2 n hemits
  refine ⟨fun m hm d hd n hn => ?_, fun m hm d hd n hn i hi hchoices => ?_⟩
  · obtain ⟨t, rfl, hn, hrenders, x, hx, hitem⟩ :=
      exists_placed_of_implements hN hbuild hms hm hd hn
    -- the path of the impl block points at some definition
    obtain ⟨path, hpath⟩ := renders_quoteInterfaceTraitPath.2 (hrenders.implements n hn)
    have hemits : Emits N ⟨A, .higherKindedType⟩ x.item n path := hitem ▸ .trait hn hpath
    have hstart : path.start = .crate := by
      obtain ⟨_, -, hpath⟩ := Except.bind_eq_ok.1 hpath
      obtain ⟨_, -, hpath⟩ := Except.bind_eq_ok.1 hpath
      cases hpath
      rfl
    obtain ⟨y, -, ⟨-, htarget⟩, -⟩ := hall x hx n path hemits hstart
    rcases htarget with ⟨d, -, hd⟩ | ⟨i, -, hi⟩
    · exact .inl (by rw [hd]; rfl)
    · exact .inr (by rw [hi]; rfl)
  · obtain ⟨t, rfl, hn, hrenders, x, hx, hitem⟩ :=
      exists_placed_of_implements hN hbuild hms hm hd hn
    have hinterface : InterfaceChoicesRender N ⟨A, .higherKindedType⟩ i :=
      hrenders.interfaces i (List.mem_filterMap.2 ⟨n, hn, hi⟩)
    obtain ⟨path, hpath⟩ : Renders (quoteInterfacePathFromParts N
        (RenderContext.packageNameFor ⟨A, .higherKindedType⟩ i.packageId) i.modulePath i.name) :=
      renders_quoteInterfacePathFromParts.2 ⟨hinterface.path, hinterface.name⟩
    have hemits : Emits N ⟨A, .higherKindedType⟩ x.item n path :=
      hitem ▸ .interfaceTrait hn hi hchoices hpath
    obtain ⟨package, b, hpackage, hb, hmem, rfl⟩ := interfaceTrait_path hN hbuild hms hi hpath
    obtain ⟨y, hy, htarget, hrust, -⟩ := hall x hx n _ hemits rfl
    obtain ⟨e, he, p, b', hb', -, hemitted⟩ := (mem_placedOf_quoteArchive
      (DamlArchivePayload.wellPlaced_of_buildArchive hbuild) hms).1 hy
    have hp : p = n.modulePath := by
      rw [← htarget.path, hemitted.path, path_of_buildArchive hbuild he hb']
    have hne := name_ne_empty hN hbuild hms hpackage
    have heq : (cratePath package.name i.modulePath).map (toRustIdentifier N) =
        (e.2.name :: p).map (toRustIdentifier N) := hrust.symm.trans hemitted.rustPath
    rw [cratePath, if_neg (by rwa [String.isEmpty_iff]), List.map_cons, List.map_cons, hp] at heq
    exact (List.cons.inj heq).2

end Archive

/-- In an archive from a DAR that validation accepts, rendered into a single file, every path that
is emitted from the crate points at the definition that it refers to, if and only if the interfaces
that templates implement are in the archive, and those with choices are in the modules that their
own paths spell. -/
theorem pathsPoint_iff {N : Naming} (hN : N.Documented) {dar : DarFile}
    {payload : DamlArchivePayload}
    (hdar : DamlArchivePayload.tryFrom dar = .ok payload) {fuel : Nat} {A : DamlArchive}
    (hbuild : payload.buildArchive fuel = .ok A) {debug : DamlType → String}
    (hvalid : A.validate debug = .ok ()) {ms : List RenderedMod}
    (hms : quoteArchive N ⟨[]⟩ A = .ok ms) :
    PathsPoint N A ms ↔ ImplementsPlaced N A := by
  have hnames := DamlArchivePayload.namesAgree_of_tryFrom hdar
  have hchecked := DamlArchive.validate_eq_ok.1 hvalid
  constructor
  · exact implementsPlaced_of_pathsPoint hN hbuild hms
  · intro hplaced x hx path hmem hstart
    obtain ⟨_, _, _, _, _, _, hemitted⟩ := (mem_placedOf_quoteArchive
      (DamlArchivePayload.wellPlaced_of_buildArchive hbuild) hms).1 hx
    refine ⟨(mem_paths_quoteItem hstart hemitted.tokens).1 hmem, fun n hemits => ?_⟩
    exact pointsAt_of_emits hN hnames hbuild hms hchecked hplaced hx hemits

/-! ### A template that implements an interface -/

open Proto

/-- A reference to the name of the given index in a package. -/
def tokensId (package : SelfOrImportedPackageId) (nameIndex : Int) : TypeConId :=
  ⟨some ⟨some package, 0⟩, nameIndex⟩

/-- A choice with the argument `View`. -/
def useChoice : TemplateChoice where
  nameInternedStr := 7
  consuming := true
  controllers := some (.varInternedStr 2)
  observers := some (.varInternedStr 2)
  argBinder := some ⟨8, some (.con (tokensId .selfPackageId 2) [])⟩
  retType := some (.builtin 0 [])
  update := some (.varInternedStr 2)
  selfBinderInternedStr := 9
  authorizers := none

/-- The module `Main` with the template `Asset`, the record `View` and the interface `Token`.  The
template implements the interface `Token` of a package. -/
def tokensModule (package : SelfOrImportedPackageId) : Proto.Module where
  nameInternedDname := 0
  flags := some ⟨true, true, true⟩
  synonyms := []
  dataTypes := [⟨1, [], true, .record []⟩, ⟨2, [], true, .record []⟩, ⟨3, [], false, .interface⟩]
  values := []
  templates := [⟨1, 2, none, some (.varInternedStr 2), [], some (.varInternedStr 2), none,
    [⟨some (tokensId package 3), none⟩]⟩]
  exceptions := []
  interfaces := [⟨3, [], 2, [useChoice], some (.con (tokensId .selfPackageId 2) []), []⟩]

/-- A DAR with that module. -/
def tokensDar (package : SelfOrImportedPackageId) : DarFile where
  main :=
    { name := "tokens"
      hash := "pkg"
      languageVersion := .lv2 .v1
      package :=
        { modules := [tokensModule package]
          internedStrings := ["Main", "Asset", "this", "tokens", "1.0.0", "View", "Token", "Use",
            "arg", "self", "other"]
          internedDottedNames := [[0], [1], [5], [6]]
          metadata := some ⟨3, 4⟩
          internedTypes := []
          internedKinds := []
          internedExprs := [] } }
  dependencies := []

/-- The name of the record `View`. -/
def viewName : DamlTyConName := .absolute ⟨"View", "pkg", "tokens", ["Main"]⟩

/-- The template `Asset`, which implements the interface `n`. -/
def assetTemplate (n : DamlTyConName) : DamlTemplate where
  name := "Asset"
  packageId := "pkg"
  modulePath := ["Main"]
  fields := []
  choices := []
  param := "this"
  implements := [n]
  precond := none
  signatories := .var "this"
  agreement := DamlPackageTables.agreementPlaceholder
  observers := .var "this"
  key := none
  serializable := true

/-- The interface `Token`. -/
def viewInterface : DamlInterface where
  name := "Token"
  packageId := "pkg"
  modulePath := ["Main"]
  param := "this"
  methods := []
  choices := [{
    name := "Use"
    packageId := "pkg"
    modulePath := ["Main"]
    fields := [⟨"arg", .tyCon viewName []⟩]
    returnType := .unit
    consuming := true
    selfBinder := "self"
    update := .var "this"
    controllers := .var "this"
    observers := .var "this" }]
  view := .tyCon viewName []
  requires := []

/-- The module `Main`, converted. -/
def tokensBody (n : DamlTyConName) : DamlModuleBody :=
  { DamlModuleBody.newEmpty ["Main"] with
    dataTypes := [("Asset", .template (assetTemplate n)),
      ("View", .record ⟨"View", "pkg", ["Main"], [], [], true⟩)]
    interfaces := [("Token", viewInterface)] }

/-- The archive that the DAR is converted to. -/
def tokensArchive (n : DamlTyConName) : DamlArchive where
  name := "tokens"
  mainPackageId := "pkg"
  packages := [("pkg", ⟨"tokens", "pkg", some "1.0.0",
    .node (.newEmpty []) [("Main", .node (tokensBody n) [])]⟩)]

lemma validate_tokensArchive (n : DamlTyConName) (debug : DamlType → String) :
    (tokensArchive n).validate debug = .ok () := by
  have hview : (tokensArchive n).dataByTyconName viewName =
      some (.record ⟨"View", "pkg", ["Main"], [], [], true⟩) := rfl
  have hmodules : ∀ m, (tokensArchive n).HasModule m →
      m.ownTypes ++ m.choices.flatMap DamlChoice.checkedTypes ⊆ [.tyCon viewName [], .unit] ∧
        m.choices ⊆ viewInterface.choices ∧ m.interfaces ⊆ [viewInterface] := by
    rintro m ⟨e, he, hreach⟩
    cases List.mem_singleton.1 he
    obtain rfl | ⟨c, hc, hreach⟩ := reaches_iff.1 hreach
    · exact ⟨List.nil_subset _, List.nil_subset _, List.nil_subset _⟩
    cases List.mem_singleton.1 hc
    obtain rfl | ⟨c, hc, -⟩ := reaches_iff.1 hreach
    · refine ⟨?_, List.Subset.refl _, List.Subset.refl _⟩
      show [DamlType.tyCon viewName [], .tyCon viewName [], .unit] ⊆ _
      simp
    · cases hc
  refine DamlArchive.validate_eq_ok.2 ⟨fun m hm t ht n' hn => ?_, fun m hm i hi n' hn => ?_,
    fun m hm => ⟨fun c hc => ?_, fun i hi => ?_⟩⟩
  · have hname : n' = viewName := by
      rcases List.mem_cons.1 ((hmodules m hm).1 ht) with rfl | ht
      · cases hn with
        | head h => exact (Option.some.inj h).symm
        | inside hc h => cases hc
      · cases List.mem_singleton.1 ht
        exact absurd hn (not_mentions_of_parts rfl rfl n')
    rw [hname]
    exact .inl (by rw [hview]; rfl)
  · cases List.mem_singleton.1 ((hmodules m hm).2.2 hi)
    cases hn
  · cases List.mem_singleton.1 ((hmodules m hm).2.1 hc)
    exact ⟨_, rfl, viewName, _, rfl, hview⟩
  · cases List.mem_singleton.1 ((hmodules m hm).2.2 hi)
    exact ⟨viewName, _, rfl, hview⟩

/-- The only template of that archive is `Asset`. -/
lemma implements_tokensArchive {n n' : DamlTyConName} {m : DamlModule}
    (hm : (tokensArchive n).HasModule m) {d : DamlData} (hd : d ∈ m.dataTypes)
    (hn : n' ∈ d.implements) : n' = n := by
  obtain ⟨e, he, hreach⟩ := hm
  cases List.mem_singleton.1 he
  obtain rfl | ⟨c, hc, hreach⟩ := reaches_iff.1 hreach
  · cases hd
  cases List.mem_singleton.1 hc
  obtain rfl | ⟨c, hc, -⟩ := reaches_iff.1 hreach
  · rcases List.mem_cons.1 hd with rfl | hd
    · exact List.mem_singleton.1 hn
    · cases List.mem_singleton.1 hd
      cases hn
  · cases hc

/-- The template implements the interface of its own module. -/
theorem pathsPoint_tokensDar : ∃ payload A ms,
    DamlArchivePayload.tryFrom (tokensDar .selfPackageId) = .ok payload ∧
      payload.buildArchive 2 = .ok A ∧ quoteArchive asciiNaming ⟨[]⟩ A = .ok ms ∧
        PathsPoint asciiNaming A ms := by
  have hconvert : ∃ payload ms,
      DamlArchivePayload.tryFrom (tokensDar .selfPackageId) = .ok payload ∧
        payload.buildArchive 2 =
          .ok (tokensArchive (.absolute ⟨"Token", "pkg", "tokens", ["Main"]⟩)) ∧
        quoteArchive asciiNaming ⟨[]⟩
          (tokensArchive (.absolute ⟨"Token", "pkg", "tokens", ["Main"]⟩)) = .ok ms :=
    ⟨_, _, rfl, rfl, rfl⟩
  obtain ⟨payload, ms, hdar, hbuild, hms⟩ := hconvert
  refine ⟨payload, _, ms, hdar, hbuild, hms, ?_⟩
  refine (pathsPoint_iff documented_asciiNaming hdar hbuild (validate_tokensArchive _ fun _ => "")
    hms).2 ⟨fun m hm d hd n hn => ?_, fun m hm d hd n hn i hi _ => ?_⟩
  · cases implements_tokensArchive hm hd hn
    exact .inr rfl
  · cases implements_tokensArchive hm hd hn
    cases hi
    rfl

/-- The template implements an interface of a package that is not in the archive. -/
theorem not_pathsPoint :
    ¬ ∀ (N : Naming) (dar : DarFile) (payload : DamlArchivePayload) (fuel : Nat) (A : DamlArchive)
      (ms : List RenderedMod), N.Documented → DamlArchivePayload.tryFrom dar = .ok payload →
      payload.buildArchive fuel = .ok A → (∀ debug : DamlType → String, A.validate debug = .ok ()) →
      quoteArchive N ⟨[]⟩ A = .ok ms → PathsPoint N A ms := by
  intro hall
  have hconvert : ∃ payload ms,
      DamlArchivePayload.tryFrom (tokensDar (.importedPackageIdInternedStr 10)) = .ok payload ∧
        payload.buildArchive 2 =
          .ok (tokensArchive (.absolute ⟨"Token", "other", "", ["Main"]⟩)) ∧
        quoteArchive asciiNaming ⟨[]⟩
          (tokensArchive (.absolute ⟨"Token", "other", "", ["Main"]⟩)) = .ok ms :=
    ⟨_, _, rfl, rfl, rfl⟩
  obtain ⟨payload, ms, hdar, hbuild, hms⟩ := hconvert
  have hplaced := implementsPlaced_of_pathsPoint documented_asciiNaming hbuild hms <|
    hall _ _ _ _ _ _ documented_asciiNaming hdar hbuild (validate_tokensArchive _) hms
  have hmodule : (tokensArchive (.absolute ⟨"Token", "other", "", ["Main"]⟩)).HasModule
      (.node (tokensBody (.absolute ⟨"Token", "other", "", ["Main"]⟩)) []) :=
    ⟨_, List.mem_singleton_self _, .single (List.mem_singleton_self _)⟩
  have hresolves := hplaced.resolves _ hmodule _ List.mem_cons_self _ (List.mem_singleton_self _)
  rcases hresolves with hdata | hinterface
  · cases hdata
  · cases hinterface

end DamlBindings.Codegen
