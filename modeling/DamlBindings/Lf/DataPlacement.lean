import DamlBindings.Lf.ModuleTree
import Mathlib.Data.List.ReduceOption

/-!
# Data types and the references to them

A data type is put into the tree of its package by splitting its dotted name in one way, and a
reference to it is resolved by splitting the same dotted name in another place.  Both agree: the
name that a reference resolves to finds the data type.
-/

namespace DamlBindings.Lf

open Proto

/-! ### Definitions and their names -/

namespace DamlPackageTables

variable {P : DamlPackageTables} {fuel : Nat} {module : Module} {path : List String}
  {d : DefDataType}

/-- The converted data knows its package, its module path and its name. -/
structure Labelled (P : DamlPackageTables) (path : List String) (name : String) (x : DamlData) :
    Prop where
  packageId : x.packageId = P.packageId
  modulePath : x.modulePath = path
  name : x.name = name

lemma labelled_buildTemplate {template : DefTemplate} {name : String}
    {fields : List (DamlField DamlType)} {serializable : Bool} {t : DamlTemplate}
    (h : P.buildTemplate fuel template name path fields serializable = .ok t) :
    Labelled P path name (.template t) := by
  simp only [buildTemplate, Except.seq_eq_ok, Except.map_eq_ok] at h
  obtain ⟨_, ⟨_, ⟨_, ⟨_, ⟨_, ⟨_, ⟨_, -, rfl⟩, _, -, rfl⟩, _, -, rfl⟩, _, -, rfl⟩, _, -, rfl⟩, _, -,
    rfl⟩, _, -, rfl⟩ := h
  exact ⟨rfl, rfl, rfl⟩

/-- The marker of an interface gives nothing, everything else gives data that knows its place. -/
lemma buildDataType_eq_ok {templates : List (Int × DefTemplate)} {name : String}
    {o : Option DamlData} (h : P.buildDataType fuel templates path name d = .ok o) :
    d.dataCons = .interface ∧ o = none ∨
      d.dataCons ≠ .interface ∧ ∃ x, o = some x ∧ Labelled P path name x := by
  unfold buildDataType at h
  obtain ⟨typeParams, -, h⟩ := Except.bind_eq_ok.1 h
  rcases hcons : d.dataCons with fields | fields | constructors | _ | _ <;> rw [hcons] at h
  · obtain ⟨damlFields, -, h⟩ := Except.bind_eq_ok.1 h
    refine .inr ⟨nofun, ?_⟩
    rcases hlookup : templates.lookup d.nameInternedDname with _ | template <;> rw [hlookup] at h
    · cases h
      exact ⟨_, rfl, rfl, rfl, rfl⟩
    · obtain ⟨t, ht, rfl⟩ := Except.map_eq_ok.1 h
      exact ⟨_, rfl, labelled_buildTemplate ht⟩
  · obtain ⟨damlFields, -, h⟩ := Except.bind_eq_ok.1 h
    cases h
    exact .inr ⟨nofun, _, rfl, rfl, rfl, rfl⟩
  · obtain ⟨names, -, h⟩ := Except.bind_eq_ok.1 h
    cases h
    exact .inr ⟨nofun, _, rfl, rfl, rfl, rfl⟩
  · cases h
    exact .inl ⟨rfl, rfl⟩
  · cases h

lemma splitDataName_eq_ok {s : List String} {last : String} {init : List String} :
    splitDataName s = .ok (last, init) ↔ s = init ++ [last] := by
  simp only [splitDataName, Except.bind_eq_ok, req_eq_ok, Except.pure_eq_ok, Prod.mk.injEq]
  constructor
  · rintro ⟨_, hlast, rfl, rfl⟩
    obtain ⟨init, rfl⟩ := List.getLast?_eq_some_iff.1 hlast
    simp
  · rintro rfl
    exact ⟨last, by simp, rfl, by simp⟩

/-- The loop of `build_data_types` splits the dotted name and puts the data under it. -/
lemma placeDataType_eq_ok {o : Option PlacedData}
    (h : P.placeDataType fuel module path d = .ok o) :
    ∃ extraPath key, P.resolveDotted d.nameInternedDname = .ok (extraPath ++ [key]) ∧
      (d.dataCons = .interface ∧ o = none ∨
        d.dataCons ≠ .interface ∧ ∃ x, o = some ⟨extraPath, key, x⟩ ∧
          Labelled P (path ++ extraPath) key x) := by
  simp only [placeDataType, Except.bind_eq_ok, Run.lift_eq_ok, Except.pure_eq_ok] at h
  obtain ⟨s, hs, ⟨key, extraPath⟩, hsplit, o', ho', rfl⟩ := h
  cases splitDataName_eq_ok.1 hsplit
  refine ⟨extraPath, key, hs, ?_⟩
  obtain ⟨hcons, rfl⟩ | ⟨hcons, x, rfl, hx⟩ := buildDataType_eq_ok ho'
  · exact .inl ⟨hcons, rfl⟩
  · exact .inr ⟨hcons, x, rfl, hx⟩

lemma placeDataType_eq_some {pd : PlacedData}
    (h : P.placeDataType fuel module path d = .ok (some pd)) :
    P.resolveDotted d.nameInternedDname = .ok (pd.extraPath ++ [pd.key]) ∧
      d.dataCons ≠ .interface ∧ Labelled P (path ++ pd.extraPath) pd.key pd.data := by
  obtain ⟨extraPath, key, hname, ⟨-, hnone⟩ | ⟨hcons, x, heq, hx⟩⟩ := placeDataType_eq_ok h
  · nomatch hnone
  · cases heq
    exact ⟨hname, hcons, hx⟩

/-- The data types of a converted module are those that its definitions give. -/
lemma mem_buildDataTypes {ds : List PlacedData} (h : P.buildDataTypes fuel module path = .ok ds)
    {pd : PlacedData} :
    pd ∈ ds ↔ ∃ d ∈ module.dataTypes, P.placeDataType fuel module path d = .ok (some pd) := by
  obtain ⟨os, hos, rfl⟩ := Except.map_eq_ok.1 h
  have hall := Except.mapM_eq_ok.1 hos
  rw [List.reduceOption_mem_iff]
  constructor
  · intro hpd
    obtain ⟨d, hd, hplace⟩ := hall.exists_left hpd
    exact ⟨d, hd, hplace⟩
  · rintro ⟨d, hd, hplace⟩
    obtain ⟨o, ho, heq⟩ := hall.exists_right hd
    cases hplace.symm.trans heq
    exact ho

/-- Every definition of a module that converts is converted. -/
lemma exists_placeDataType {ds : List PlacedData}
    (h : P.buildDataTypes fuel module path = .ok ds) (hd : d ∈ module.dataTypes) :
    ∃ o, P.placeDataType fuel module path d = .ok o := by
  obtain ⟨os, hos, -⟩ := Except.map_eq_ok.1 h
  obtain ⟨o, -, ho⟩ := (Except.mapM_eq_ok.1 hos).exists_right hd
  exact ⟨o, ho⟩

/-- The parts of a module are converted one by one. -/
structure ConvertedParts (P : DamlPackageTables) (fuel : Nat) (m : DamlModulePayload)
    (l : ModuleLeaf) : Prop where
  path : P.modulePath m = .ok l.path
  dataTypes : P.buildDataTypes fuel m.module l.path = .ok l.dataTypes
  synonyms : P.buildSynonyms fuel m.module l.path = .ok l.synonyms
  interfaces : P.buildInterfaces fuel m.module l.path = .ok l.interfaces
  exceptions : P.buildExceptions fuel m.module l.path = .ok l.exceptions
  values : P.buildValues fuel m.module = .ok l.values

lemma convertedParts_of_ok {m : DamlModulePayload} {l : ModuleLeaf}
    (h : P.convertModule fuel m = .ok l) : ConvertedParts P fuel m l := by
  simp only [convertModule, Except.bind_eq_ok, Run.lift_eq_ok, Except.seq_eq_ok,
    Except.map_eq_ok] at h
  obtain ⟨path, hpath, _, -, _, ⟨_, ⟨_, ⟨_, ⟨ds, hds, rfl⟩, ss, hss, rfl⟩, is, his, rfl⟩, es, hes,
    rfl⟩, vs, hvs, rfl⟩ := h
  exact ⟨hpath, hds, hss, his, hes, hvs⟩

lemma convertModule_eq_ok {m : DamlModulePayload} {l : ModuleLeaf}
    (h : P.convertModule fuel m = .ok l) :
    P.modulePath m = .ok l.path ∧ P.buildDataTypes fuel m.module l.path = .ok l.dataTypes :=
  ⟨(convertedParts_of_ok h).path, (convertedParts_of_ok h).dataTypes⟩

end DamlPackageTables

namespace DamlPackagePayload

variable (P : DamlPackagePayload) (fuel : Nat)

/-- The flattened name of a data type: the name of its module and its dotted name. -/
def flatName (m : DamlModulePayload) (d : DefDataType) : DamlLfConvertResult (List String) :=
  (· ++ ·) <$> P.modulePath m <*> P.resolveDotted d.nameInternedDname

/-- No two modules have the same name. -/
def ModuleNamesDistinct : Prop := (P.modules.filterMap fun m => (P.modulePath m).toOption).Nodup

/-- No two data types have the same flattened name. -/
def DataNamesDistinct : Prop :=
  (P.modules.flatMap fun m => m.module.dataTypes.filterMap fun d => (P.flatName m d).toOption).Nodup

instance : Decidable P.ModuleNamesDistinct := inferInstanceAs (Decidable (List.Nodup _))

instance : Decidable P.DataNamesDistinct := inferInstanceAs (Decidable (List.Nodup _))

variable {P fuel}

lemma flatName_eq_ok {m : DamlModulePayload} {d : DefDataType} {p s : List String}
    (hp : P.modulePath m = .ok p) (hs : P.resolveDotted d.nameInternedDname = .ok s) :
    P.flatName m d = .ok (p ++ s) := by
  rw [flatName, hp, hs]
  rfl

/-- The tree is built from the modules, all of which have to convert. -/
lemma buildModuleTree_eq :
    P.buildModuleTree fuel = DamlModule.ofLeaves <$> P.modules.mapM (P.convertModule fuel) :=
  Except.foldlM_map ..

/-- The modules and what they convert to. -/
abbrev Converted (P : DamlPackagePayload) (fuel : Nat) (modules : List DamlModulePayload)
    (leaves : List ModuleLeaf) : Prop :=
  List.Forall₂ (fun m l => P.convertModule fuel m = .ok l) modules leaves

lemma buildModuleTree_eq_ok {t : DamlModule} :
    P.buildModuleTree fuel = .ok t ↔
      ∃ leaves, P.Converted fuel P.modules leaves ∧ DamlModule.ofLeaves leaves = t := by
  simp [buildModuleTree_eq, Except.mapM_eq_ok]

section Converted

variable {modules : List DamlModulePayload} {leaves : List ModuleLeaf}

lemma paths_of_converted (h : P.Converted fuel modules leaves) :
    modules.filterMap (fun m => (P.modulePath m).toOption) = leaves.map ModuleLeaf.path := by
  induction h with
  | nil => rfl
  | cons hm _ ih =>
    have hpath := (DamlPackageTables.convertModule_eq_ok hm).1
    simp [hpath, ih]

lemma names_of_placed {m : DamlModulePayload} {path : List String}
    (hpath : P.modulePath m = .ok path) {module : Module} {ds : List DefDataType}
    {os : List (Option PlacedData)}
    (h : List.Forall₂ (fun d o => P.placeDataType fuel module path d = .ok o) ds os) :
    (os.reduceOption.map fun d => path ++ d.extraPath ++ [d.key]).Sublist
      (ds.filterMap fun d => (P.flatName m d).toOption) := by
  induction h with
  | nil => exact .slnil
  | @cons d o ds os hd _ ih =>
    obtain ⟨extraPath, key, hname, hcase⟩ := DamlPackageTables.placeDataType_eq_ok hd
    have hflat := flatName_eq_ok hpath hname
    rw [List.filterMap_cons_some (b := path ++ (extraPath ++ [key])) (by simp [hflat])]
    obtain ⟨-, rfl⟩ | ⟨-, x, rfl, -⟩ := hcase
    · exact ih.cons _
    · rw [List.reduceOption_cons_of_some, List.map_cons, List.append_assoc]
      exact ih.cons_cons _

/-- The names of the data types that come out are among the names of the definitions. -/
lemma names_of_converted (h : P.Converted fuel modules leaves) :
    (dataNames leaves).Sublist (modules.flatMap fun m =>
      m.module.dataTypes.filterMap fun d => (P.flatName m d).toOption) := by
  induction h with
  | nil => exact .slnil
  | cons hm _ ih =>
    obtain ⟨hpath, hdata⟩ := DamlPackageTables.convertModule_eq_ok hm
    obtain ⟨os, hos, hds⟩ := Except.map_eq_ok.1 hdata
    have hplaced := names_of_placed hpath (Except.mapM_eq_ok.1 hos)
    rw [hds] at hplaced
    exact hplaced.append ih

/-- A data type of a converted module comes from a definition of the module. -/
lemma exists_def_of_converted (h : P.Converted fuel modules leaves) {l : ModuleLeaf}
    (hl : l ∈ leaves) {pd : PlacedData} (hpd : pd ∈ l.dataTypes) :
    ∃ m ∈ modules, P.modulePath m = .ok l.path ∧ ∃ d ∈ m.module.dataTypes,
      P.placeDataType fuel m.module l.path d = .ok (some pd) := by
  obtain ⟨m, hm, hconv⟩ := h.exists_left hl
  obtain ⟨hpath, hdata⟩ := DamlPackageTables.convertModule_eq_ok hconv
  exact ⟨m, hm, hpath, (DamlPackageTables.mem_buildDataTypes hdata).1 hpd⟩

lemma labelled_of_converted (h : P.Converted fuel modules leaves) :
    ∀ l ∈ leaves, ∀ pd ∈ l.dataTypes,
      DamlPackageTables.Labelled P.toDamlPackageTables (l.path ++ pd.extraPath) pd.key pd.data := by
  intro l hl pd hpd
  obtain ⟨m, -, -, d, -, hplace⟩ := exists_def_of_converted h hl hpd
  exact (DamlPackageTables.placeDataType_eq_some hplace).2.2

/-- The data types of converted modules are kept under their own names. -/
lemma name_of_converted (h : P.Converted fuel modules leaves) :
    ∀ l ∈ leaves, ∀ pd ∈ l.dataTypes, pd.data.name = pd.key :=
  fun l hl pd hpd => (labelled_of_converted h l hl pd hpd).name

lemma leavesOk_of_converted (hpaths : P.ModuleNamesDistinct) (hnames : P.DataNamesDistinct)
    (h : P.Converted fuel P.modules leaves) : LeavesOk leaves where
  paths := paths_of_converted h ▸ hpaths
  names := hnames.sublist (names_of_converted h)
  name_eq := name_of_converted h

/-- A module with a path is declared by the leaf that it converts to. -/
lemma declares_of_converted (h : P.Converted fuel modules leaves) {q : List String} :
    Declares leaves q ↔ ∃ m ∈ modules, P.modulePath m = .ok q := by
  constructor
  · rintro ⟨l, hl, rfl⟩
    obtain ⟨m, hm, hconv⟩ := h.exists_left hl
    exact ⟨m, hm, (DamlPackageTables.convertModule_eq_ok hconv).1⟩
  · rintro ⟨m, hm, hpath⟩
    obtain ⟨l, hl, hconv⟩ := h.exists_right hm
    refine ⟨l, hl, ?_⟩
    cases hpath.symm.trans (DamlPackageTables.convertModule_eq_ok hconv).1
    rfl

/-- The data that a definition of a module gives is among the data of the converted module. -/
lemma exists_leaf_of_placed (h : P.Converted fuel modules leaves) {m : DamlModulePayload}
    (hm : m ∈ modules) {path : List String} (hpath : P.modulePath m = .ok path) {d : DefDataType}
    (hd : d ∈ m.module.dataTypes) {pd : PlacedData}
    (hplace : P.placeDataType fuel m.module path d = .ok (some pd)) :
    ∃ l ∈ leaves, l.path = path ∧ pd ∈ l.dataTypes := by
  obtain ⟨l, hl, hconv⟩ := h.exists_right hm
  obtain ⟨hpath', hdata⟩ := DamlPackageTables.convertModule_eq_ok hconv
  cases hpath.symm.trans hpath'
  exact ⟨l, hl, rfl, (DamlPackageTables.mem_buildDataTypes hdata).2 ⟨d, hd, hplace⟩⟩

end Converted

/-- No module is declared at the place of a data type, nor on the way from its module to it. -/
def DataNamesFree (P : DamlPackagePayload) : Prop :=
  ∀ m ∈ P.modules, ∀ d ∈ m.module.dataTypes, ∀ p s, P.modulePath m = .ok p →
    P.resolveDotted d.nameInternedDname = .ok s → ∀ r, r ≠ [] → r <+: s →
      ∀ m' ∈ P.modules, P.modulePath m' ≠ .ok (p ++ r)

end DamlPackagePayload

/-! ### References -/

/-- A reference to a type constructor, resolved: its package, its module and its dotted name. -/
def DamlPackageTables.RefersTo (P : DamlPackageTables) (id : TypeConId) (packageId : String)
    (path s : List String) : Prop :=
  ∃ module ref, id.module = some module ∧ module.packageId = some ref ∧
    P.resolvePackageRef ref = .ok packageId ∧
    P.resolveDotted module.moduleNameInternedDname = .ok path ∧
    P.resolveDotted id.nameInternedDname = .ok s

/-- A reference to a dotted name takes the prefix of it into the module path. -/
lemma DamlPackageTables.RefersTo.convertTyconId {P : DamlPackageTables} {id : TypeConId}
    {packageId : String} {path extraPath : List String} {key : String}
    (h : P.RefersTo id packageId path (extraPath ++ [key])) :
    ∃ name, P.convertTyconId id = .ok name ∧
      name.referenceParts = (packageId, path ++ extraPath, key) := by
  obtain ⟨module, ref, hmodule, href, hpackage, hpath, hname⟩ := h
  have hresolve : P.resolveModuleId module = .ok (packageId, path) := by
    simp [resolveModuleId, href, hpackage, hpath, req]
  have hsplit : splitDataName (extraPath ++ [key]) = .ok (key, extraPath) :=
    splitDataName_eq_ok.2 rfl
  refine ⟨.absolute ⟨key, packageId, P.resolvePackageName packageId, path ++ extraPath⟩, ?_, rfl⟩
  simp only [DamlPackageTables.convertTyconId, Except.bind_eq_ok, req_eq_ok, Except.pure_eq_ok]
  exact ⟨module, hmodule, _, hresolve, _, hname, _, hsplit, rfl⟩

namespace DamlArchivePayload

variable {A : DamlArchivePayload} {fuel : Nat} {archive : DamlArchive}

/-- The archive holds the package built from each payload under the id of the payload. -/
lemma lookup_of_buildArchive (h : A.buildArchive fuel = .ok archive)
    {e : String × DamlPackagePayload} (he : e ∈ A.packages) :
    ∃ package, e.2.buildPackage fuel = .ok package ∧
      archive.packages.lookup e.2.packageId = some package := by
  obtain ⟨packages, hpackages, rfl⟩ := Except.map_eq_ok.1 h
  have hall := Except.mapM_eq_ok.1 hpackages
  have hkeys : AssocMap.keys packages = AssocMap.keys A.packages := by
    refine (AssocMap.keys_eq_of_forall₂ (hall.imp_of_mem ?_)).symm
    intro e he p _ hp
    obtain ⟨package, -, rfl⟩ := Except.map_eq_ok.1 hp
    exact (A.keyed e he).symm
  have hnodup : (AssocMap.keys packages).Nodup := hkeys ▸ A.nodup
  obtain ⟨p, hp, hbuild⟩ := hall.exists_right he
  obtain ⟨package, hpackage, rfl⟩ := Except.map_eq_ok.1 hbuild
  refine ⟨package, hpackage, ?_⟩
  show (AssocMap.ofList packages).lookup e.2.packageId = some package
  rw [AssocMap.ofList_eq_self hnodup]
  exact (AssocMap.lookup_eq_some_iff hnodup).2 hp

lemma data_of_valAt {packageId : String} {package : DamlPackage}
    (hpackage : archive.packages.lookup packageId = some package) {q : List String}
    {b : DamlModuleBody} (hb : PathTree.valAt package.rootModule q = some b) (k : String) :
    archive.data packageId q k = b.dataTypes.lookup k := by
  obtain ⟨module, hmodule, rfl⟩ := Option.map_eq_some_iff.1 hb
  simp [DamlArchive.data, hpackage, DamlModule.childModulePath, hmodule, DamlModule.dataType]

/-- The name that a reference to a data type resolves to, in its own package or in another
package of the archive, finds the data converted from its definition.  No definition of another
name in the archive gives that data. -/
theorem dataByTyconName_convertTyconId (h : A.buildArchive fuel = .ok archive)
    {e : String × DamlPackagePayload} (he : e ∈ A.packages)
    (hpaths : e.2.ModuleNamesDistinct) (hnames : e.2.DataNamesDistinct) (hfree : e.2.DataNamesFree)
    {m : DamlModulePayload} (hm : m ∈ e.2.modules) {d : DefDataType}
    (hd : d ∈ m.module.dataTypes) (hcons : d.dataCons ≠ .interface) {path s : List String}
    (hpath : e.2.modulePath m = .ok path)
    (hs : e.2.resolveDotted d.nameInternedDname = .ok s) :
    ∃ pd, e.2.placeDataType fuel m.module path d = .ok (some pd) ∧
      (∀ e' ∈ A.packages, ∀ id : TypeConId, e'.2.RefersTo id e.2.packageId path s →
        ∃ name, e'.2.convertTyconId id = .ok name ∧
          archive.dataByTyconName name = some pd.data) ∧
      ∀ e' ∈ A.packages, ∀ m' ∈ e'.2.modules, ∀ d' ∈ m'.module.dataTypes, ∀ path' s' pd',
        e'.2.modulePath m' = .ok path' → e'.2.resolveDotted d'.nameInternedDname = .ok s' →
          e'.2.placeDataType fuel m'.module path' d' = .ok (some pd') → pd'.data = pd.data →
            e'.1 = e.1 ∧ path' ++ s' = path ++ s := by
  obtain ⟨package, hpackage, hlookup⟩ := lookup_of_buildArchive h he
  obtain ⟨t, ht, rfl⟩ := Except.map_eq_ok.1 hpackage
  obtain ⟨leaves, hconv, rfl⟩ := DamlPackagePayload.buildModuleTree_eq_ok.1 ht
  have hok := DamlPackagePayload.leavesOk_of_converted hpaths hnames hconv
  -- The definition converts, to data under its own name.
  obtain ⟨l, hl, hleaf⟩ := hconv.exists_right hm
  obtain ⟨hpath', hdata⟩ := DamlPackageTables.convertModule_eq_ok hleaf
  cases hpath.symm.trans hpath'
  obtain ⟨o, ho⟩ := DamlPackageTables.exists_placeDataType hdata hd
  obtain ⟨extraPath, key, hs', ⟨hinterface, -⟩ | ⟨-, x, rfl, hx⟩⟩ :=
    DamlPackageTables.placeDataType_eq_ok ho
  · exact absurd hinterface hcons
  cases hs.symm.trans hs'
  refine ⟨_, ho, ?_, ?_⟩
  · intro e' he' id hid
    obtain ⟨name, hname, hparts⟩ := hid.convertTyconId
    refine ⟨name, hname, ?_⟩
    have hpd : (⟨extraPath, key, x⟩ : PlacedData) ∈ l.dataTypes :=
      (DamlPackageTables.mem_buildDataTypes hdata).2 ⟨d, hd, ho⟩
    obtain ⟨b, hb, hfound⟩ := DamlModule.lookup_of_defines hok hl hpd fun hextra hdecl => by
      obtain ⟨m', hm', hdecl⟩ := (DamlPackagePayload.declares_of_converted hconv).1 hdecl
      exact hfree m hm d hd _ _ hpath hs extraPath hextra (List.prefix_append _ _) m' hm' hdecl
    rw [DamlArchive.dataByTyconName, hparts]
    exact (data_of_valAt hlookup hb key).trans hfound
  · intro e' he' m' _ d' _ path' s' pd' _ hs'' hplace heq
    obtain ⟨hname, -, hpackage', hmodule', hkey'⟩ := DamlPackageTables.placeDataType_eq_some hplace
    cases hs''.symm.trans hname
    rw [heq] at hpackage' hmodule' hkey'
    refine ⟨?_, ?_⟩
    · rw [← A.keyed e' he', ← A.keyed e he]
      exact hpackage'.symm.trans hx.packageId
    · rw [← List.append_assoc, ← List.append_assoc, ← hmodule', ← hkey', hx.modulePath, hx.name]

/-- The record of `data Shape = Circle {radius : Int} | Point`, whose name is `Shape.Circle`. -/
def circleDataType : DefDataType := ⟨2, [], true, .record [⟨4, some (.builtin 2 [])⟩]⟩

/-- The reference to it from its own package. -/
def circleId : TypeConId := ⟨some ⟨some .selfPackageId, 0⟩, 2⟩

/-- The module `Main` with that variant. -/
def shapeModule : DamlModulePayload where
  nameIndex := 0
  flags := ⟨true, true, true⟩
  module :=
    { nameInternedDname := 0
      flags := some ⟨true, true, true⟩
      synonyms := []
      dataTypes := [
        ⟨1, [], true, .variant [⟨2, some (.con (some circleId) [])⟩, ⟨3, some (.builtin 0 [])⟩]⟩,
        circleDataType]
      values := []
      templates := []
      exceptions := []
      interfaces := [] }

def shapePackage : DamlPackagePayload where
  name := "shapes"
  languageVersion := .lv2 .v1
  packageId := "pkg"
  internedStrings := ["Main", "Shape", "Circle", "Point", "radius"]
  internedDottedNames := [[0], [1], [1, 2]]
  internedTypes := []
  internedKinds := []
  internedExprs := []
  pkgNames := [("pkg", "shapes")]
  version := some "1.0.0"
  modules := [shapeModule]

/-- An archive with that package only. -/
def shapeArchive : DamlArchivePayload where
  archiveName := "shapes"
  mainPackageId := "pkg"
  packages := [("pkg", shapePackage)]
  nodup := by decide
  keyed := List.forall_mem_singleton.2 rfl

theorem dataByTyconName_convertTyconId_circle :
    ∃ archive name x, shapeArchive.buildArchive 2 = .ok archive ∧
      shapePackage.convertTyconId circleId = .ok name ∧ archive.dataByTyconName name = some x := by
  have h : ∃ archive, shapeArchive.buildArchive 2 = .ok archive := ⟨_, rfl⟩
  obtain ⟨archive, h⟩ := h
  have he : ("pkg", shapePackage) ∈ shapeArchive.packages := List.mem_singleton_self _
  have hpath : shapePackage.modulePath shapeModule = .ok ["Main"] := rfl
  have hname : shapePackage.resolveDotted 2 = .ok ["Shape", "Circle"] := rfl
  have hfree : shapePackage.DataNamesFree := by
    intro m hm d _ p s hp _ r hr _ m' hm' heq
    cases List.mem_singleton.1 hm
    cases List.mem_singleton.1 hm'
    cases hp.symm.trans hpath
    cases hpath.symm.trans heq
    exact hr rfl
  have hcircle : circleDataType ∈ shapeModule.module.dataTypes :=
    List.mem_cons_of_mem _ (List.mem_singleton_self _)
  have href : shapePackage.RefersTo circleId "pkg" ["Main"] ["Shape", "Circle"] :=
    ⟨_, _, rfl, rfl, rfl, rfl, rfl⟩
  obtain ⟨pd, -, hfind, -⟩ := dataByTyconName_convertTyconId h he (by decide) (by decide) hfree
    (List.mem_singleton_self _) hcircle nofun hpath hname
  obtain ⟨name, hconvert, hdata⟩ := hfind _ he circleId href
  exact ⟨archive, name, pd.data, h, hconvert, hdata⟩

end DamlArchivePayload

end DamlBindings.Lf
