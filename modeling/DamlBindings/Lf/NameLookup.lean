import DamlBindings.Lf.NestedData

/-!
# Values, interfaces and the references to them

The segments of a dotted name before the last one become part of the module path in a reference.
A value is kept in its module under its whole dotted name, and an interface is kept in its module
under its last segment.  So a reference finds a definition only if the name of the definition has
one segment.
-/

namespace DamlBindings.Lf

open Proto PathTree DamlModuleBody

/-- `reference_parts` of the name of a value. -/
def DamlValueName.referenceParts : DamlValueName → String × List String × String
  | .localValue c => (c.packageId, c.modulePath, c.name)
  | .nonLocal c => (c.targetPackageId, c.targetModulePath, c.name)

/-- `DamlModule::value`. -/
def DamlModule.value (m : DamlModule) (name : String) : Option DamlDefValue :=
  m.val.values.lookup name

namespace DamlArchive

variable (A : DamlArchive)

/-- `DamlArchive::value`. -/
def value (packageId : String) (modulePath : List String) (name : String) :
    Option DamlDefValue := do
  let package ← A.packages.lookup packageId
  let module ← DamlModule.childModulePath package.rootModule modulePath
  module.value name

/-- `value_by_name`. -/
def valueByName (name : DamlValueName) : Option DamlDefValue :=
  match name.referenceParts with
  | (packageId, modulePath, name) => A.value packageId modulePath name

end DamlArchive

/-! ### The nodes of the tree -/

namespace DamlModule

variable {leaves : List ModuleLeaf} {q : List String} {b : DamlModuleBody}

/-- A node has what some module declared there has, or nothing. -/
lemma header_eq_of_valAt (hb : valAt (ofLeaves leaves) q = some b) :
    b.header = (newEmpty []).header ∨
      ∃ l ∈ leaves, l.path = q ∧ b.header = ((newEmpty []).takeFrom l).header := by
  rw [valAt_ofLeaves] at hb
  refine forall_leavesStep (q := q) (Q := fun b => b.header = (newEmpty []).header ∨
    ∃ l ∈ leaves, l.path = q ∧ b.header = ((newEmpty []).takeFrom l).header) (fun _ => .inl rfl)
    (fun _ => .inl rfl) ?_ (fun _ _ _ _ _ _ _ h => h)
      (forall_rootAt (.inl (header_newEmpty q))) b hb
  exact fun l hl hpath b _ => .inr ⟨l, hl, hpath.symm, header_takeFrom b l⟩

lemma exists_leaf_of_value {name : String} {v : DamlDefValue}
    (hb : valAt (ofLeaves leaves) q = some b) (hv : b.values.lookup name = some v) :
    ∃ l ∈ leaves, l.path = q ∧ l.values.lookup name = some v := by
  rcases header_eq_of_valAt hb with hheader | ⟨l, hl, hpath, hheader⟩
  · have hvalues : b.values = [] := congrArg DamlModuleBody.values hheader
    simp [hvalues] at hv
  · have hvalues : b.values = l.values := congrArg DamlModuleBody.values hheader
    exact ⟨l, hl, hpath, hvalues ▸ hv⟩

lemma exists_leaf_of_interface {e : String × DamlInterface}
    (hb : valAt (ofLeaves leaves) q = some b) (he : e ∈ b.interfaces) :
    ∃ l ∈ leaves, l.path = q ∧ e ∈ l.interfaces := by
  rcases header_eq_of_valAt hb with hheader | ⟨l, hl, hpath, hheader⟩
  · have hinterfaces : b.interfaces = [] := congrArg DamlModuleBody.interfaces hheader
    simp [hinterfaces] at he
  · have hinterfaces : b.interfaces = l.interfaces := congrArg DamlModuleBody.interfaces hheader
    exact ⟨l, hl, hpath, hinterfaces ▸ he⟩

/-- The node of a declared module has its values and its interfaces. -/
lemma exists_valAt_of_mem (hpaths : (leaves.map ModuleLeaf.path).Nodup) {l : ModuleLeaf}
    (hl : l ∈ leaves) : ∃ b, valAt (ofLeaves leaves) l.path = some b ∧ b.values = l.values ∧
      b.interfaces = l.interfaces := by
  have hsome : (valAt (ofLeaves leaves) l.path).isSome := by
    rw [valAt_ofLeaves]
    exact isSome_leavesStep.2 (.inr ⟨l, hl, .inl (List.prefix_refl _)⟩)
  obtain ⟨b, hb⟩ := Option.isSome_iff_exists.1 hsome
  have hheader := header_of_declared hpaths hl hb
  exact ⟨b, hb, congrArg DamlModuleBody.values hheader, congrArg DamlModuleBody.interfaces hheader⟩

end DamlModule

/-! ### Definitions and their names -/

namespace DamlPackageTables

variable (P : DamlPackageTables) (fuel : Nat)

/-- The name of a value: its dotted name as one string. -/
def valueKey (d : DefValue) : Option String :=
  d.nameWithType.bind fun nt =>
    (P.resolveDotted nt.nameInternedDname).toOption.map (".".intercalate ·)

/-- The values of a module with a name, as they are listed. -/
def valuesNamed (module : Module) (name : String) : List DefValue :=
  module.values.filter fun d => P.valueKey d = some name

/-- The definitions have the same type and the same expression. -/
def SameBody (d d' : DefValue) : Prop :=
  (required d.nameWithType fun nt => P.type fuel nt.type) =
      (required d'.nameWithType fun nt => P.type fuel nt.type) ∧
    P.expr fuel d.expr = P.expr fuel d'.expr

/-- The last segment of the dotted name of an interface. -/
def interfaceKey (d : DefInterface) : Option String :=
  (P.resolveDotted d.tyconInternedDname).toOption.bind List.getLast?

/-- The interfaces of a module with a last segment, as they are listed. -/
def interfacesNamed (module : Module) (name : String) : List DefInterface :=
  module.interfaces.filter fun d => P.interfaceKey d = some name

/-- A reference to a value, resolved: its package, its module and its dotted name. -/
def RefersToValue (id : ValueId) (packageId : String) (path s : List String) : Prop :=
  ∃ module ref, id.module = some module ∧ module.packageId = some ref ∧
    P.resolveValuePackageRef ref = .ok packageId ∧
    P.resolveDotted module.moduleNameInternedDname = .ok path ∧
    P.resolveDotted id.nameInternedDname = .ok s

variable {P fuel} {path : List String} {name : String}

lemma convertDefValue_eq_ok {d : DefValue} {v : DamlDefValue} :
    P.convertDefValue fuel d = .ok v ↔ ∃ nt s, d.nameWithType = some nt ∧
      P.resolveDotted nt.nameInternedDname = .ok s ∧ v.name = ".".intercalate s ∧
      P.type fuel nt.type = .ok v.ty ∧ P.expr fuel d.expr = .ok v.expr := by
  simp only [convertDefValue, convertNameWithType, Except.seq_eq_ok, Except.map_eq_ok,
    required_eq_ok, Run.lift_eq_ok]
  constructor
  · rintro ⟨_, ⟨_, ⟨nt, hnt, _, ⟨s, hs, rfl⟩, ty, hty, rfl⟩, rfl⟩, expr, hexpr, rfl⟩
    exact ⟨nt, s, hnt, hs, rfl, hty, hexpr⟩
  · rintro ⟨nt, s, hnt, hs, hname, hty, hexpr⟩
    refine ⟨_, ⟨_, ⟨nt, hnt, _, ⟨s, hs, rfl⟩, _, hty, rfl⟩, rfl⟩, _, hexpr, ?_⟩
    cases v
    simp_all

lemma valueKey_eq {d : DefValue} {v : DamlDefValue} (h : P.convertDefValue fuel d = .ok v) :
    P.valueKey d = some v.name := by
  obtain ⟨nt, s, hnt, hs, hname, -, -⟩ := convertDefValue_eq_ok.1 h
  simp [valueKey, hnt, hs, hname]

/-- Definitions with one name convert to the same value if and only if their bodies do. -/
lemma sameBody_iff {d d' : DefValue} {v : DamlDefValue} (h : P.convertDefValue fuel d = .ok v)
    (hkey : P.valueKey d' = some v.name) :
    P.SameBody fuel d' d ↔ P.convertDefValue fuel d' = .ok v := by
  obtain ⟨nt, s, hnt, -, -, hty, hexpr⟩ := convertDefValue_eq_ok.1 h
  obtain ⟨nt', hnt', hkey⟩ := Option.bind_eq_some_iff.1 hkey
  obtain ⟨s', hs', hname'⟩ := Option.map_eq_some_iff.1 hkey
  rw [Except.toOption_eq_some] at hs'
  rw [SameBody, hnt, hnt', convertDefValue_eq_ok]
  show P.type fuel nt'.type = P.type fuel nt.type ∧ P.expr fuel d'.expr = P.expr fuel d.expr ↔ _
  rw [hty, hexpr]
  constructor
  · rintro ⟨hty', hexpr'⟩
    exact ⟨nt', s', hnt', hs', hname'.symm, hty', hexpr'⟩
  · rintro ⟨nt'', _, hnt'', -, -, hty', hexpr'⟩
    cases hnt'.symm.trans hnt''
    exact ⟨hty', hexpr'⟩

/-- Of the values of a module with a name, the last one is kept. -/
lemma lookup_buildValues {module : Module} {values : List (String × DamlDefValue)}
    (h : P.buildValues fuel module = .ok values) {v : DamlDefValue} :
    values.lookup name = some v ↔
      ∃ d, (P.valuesNamed module name).getLast? = some d ∧ P.convertDefValue fuel d = .ok v := by
  obtain ⟨vs, hvs, rfl⟩ := Except.map_eq_ok.1 h
  refine AssocMap.lookup_ofList_of_forall₂ (Except.mapM_eq_ok.1 hvs) (fun _ _ => valueKey_eq) ?_
  intro d v v' hv hv'
  exact Except.ok.inj (hv.symm.trans hv')

/-- A converted interface has the last segment of its dotted name. -/
lemma label_of_convertInterface {d : DefInterface} {i : DamlInterface}
    (h : P.convertInterface fuel path d = .ok i) :
    ∃ extraPath, P.resolveDotted d.tyconInternedDname = .ok (extraPath ++ [i.name]) ∧
      i.modulePath = path ++ extraPath := by
  simp only [convertInterface, Except.bind_eq_ok, Run.lift_eq_ok, Except.seq_eq_ok,
    Except.map_eq_ok] at h
  obtain ⟨⟨key, extraPath⟩, hsplit, _, ⟨_, ⟨_, ⟨_, ⟨_, -, rfl⟩, _, -, rfl⟩, _, -, rfl⟩, _, -, rfl⟩,
    _, -, rfl⟩ := h
  refine ⟨extraPath, ?_, rfl⟩
  unfold splitDefinitionName at hsplit
  obtain ⟨s, hs, hsplit⟩ := Except.bind_eq_ok.1 hsplit
  rcases hlast : s.getLast? with _ | last <;> rw [hlast] at hsplit
  · cases hsplit
  · cases hsplit
    rw [hs]
    obtain ⟨init, rfl⟩ := List.getLast?_eq_some_iff.1 hlast
    rw [List.dropLast_concat]

lemma interfaceKey_eq {d : DefInterface} {i : DamlInterface}
    (h : P.convertInterface fuel path d = .ok i) : P.interfaceKey d = some i.name := by
  obtain ⟨extraPath, hs, -⟩ := label_of_convertInterface h
  simp [interfaceKey, hs]

/-- Of the interfaces of a module with a last segment, the last one is kept. -/
lemma lookup_buildInterfaces {module : Module} {interfaces : List (String × DamlInterface)}
    (h : P.buildInterfaces fuel module path = .ok interfaces) {i : DamlInterface} :
    interfaces.lookup name = some i ↔
      ∃ d, (P.interfacesNamed module name).getLast? = some d ∧
        P.convertInterface fuel path d = .ok i := by
  obtain ⟨is, his, rfl⟩ := Except.map_eq_ok.1 h
  refine AssocMap.lookup_ofList_of_forall₂ (Except.mapM_eq_ok.1 his) (fun _ _ => interfaceKey_eq) ?_
  intro d i i' hi hi'
  exact Except.ok.inj (hi.symm.trans hi')

/-- An interface of a converted module comes from a definition and is kept under its name. -/
lemma exists_of_mem_buildInterfaces {module : Module} {interfaces : List (String × DamlInterface)}
    (h : P.buildInterfaces fuel module path = .ok interfaces) {x : String × DamlInterface}
    (hx : x ∈ interfaces) :
    x.2.name = x.1 ∧ ∃ d ∈ module.interfaces, P.convertInterface fuel path d = .ok x.2 := by
  obtain ⟨is, his, rfl⟩ := Except.map_eq_ok.1 h
  obtain ⟨i, hi, rfl⟩ := List.mem_map.1 (AssocMap.mem_of_mem_ofList hx)
  exact ⟨rfl, (Except.mapM_eq_ok.1 his).exists_left hi⟩

lemma find?_buildInterfaces {module : Module} {interfaces : List (String × DamlInterface)}
    (h : P.buildInterfaces fuel module path = .ok interfaces) {i : DamlInterface} :
    (interfaces.map Prod.snd).find? (fun i => i.name = name) = some i ↔
      ∃ d, (P.interfacesNamed module name).getLast? = some d ∧
        P.convertInterface fuel path d = .ok i := by
  rw [AssocMap.find?_map_snd fun x hx => (exists_of_mem_buildInterfaces h hx).1]
  exact lookup_buildInterfaces h

/-- A reference to a dotted name takes the prefix of it into the module path. -/
lemma RefersToValue.convertValueId {id : ValueId} {packageId : String} {s : List String}
    (h : P.RefersToValue id packageId path s) {n : DamlValueName} :
    P.convertValueId id = .ok n ↔ ∃ extraPath name, s = extraPath ++ [name] ∧
      n = .localValue ⟨name, packageId, P.resolvePackageName packageId, path ++ extraPath⟩ := by
  obtain ⟨module, ref, hmodule, href, hpackage, hpath, hname⟩ := h
  simp only [DamlPackageTables.convertValueId, Except.bind_eq_ok, req_eq_ok, Except.pure_eq_ok,
    hmodule, Option.some.injEq, exists_eq_left', href, hpackage, Except.ok.injEq, hpath, hname]
  constructor
  · rintro ⟨⟨key, extraPath⟩, hsplit, heq⟩
    exact ⟨extraPath, key, splitDataName_eq_ok.1 hsplit, heq.symm⟩
  · rintro ⟨extraPath, key, hs, rfl⟩
    exact ⟨(key, extraPath), splitDataName_eq_ok.2 hs, rfl⟩

end DamlPackageTables

/-- A dotted name with more than one segment is longer than its last segment. -/
lemma eq_nil_of_intercalate_concat {init : List String} {last : String}
    (h : ".".intercalate (init ++ [last]) = last) : init = [] := by
  by_contra hne
  rw [String.intercalate_append_of_ne_nil hne (List.cons_ne_nil _ _), String.intercalate_singleton]
    at h
  have hlen := congrArg String.length h
  rw [String.length_append, String.length_append] at hlen
  have hdot : ".".length = 1 := rfl
  omega

/-- A name that is listed once belongs to one element. -/
lemma eq_of_nodup_filterMap {α β : Type*} {f : α → Option β} {as : List α}
    (h : (as.filterMap f).Nodup) {a a' : α} (ha : a ∈ as) (ha' : a' ∈ as) {x : β}
    (hx : f a = some x) (hx' : f a' = some x) : a = a' := by
  induction as with
  | nil => simp at ha
  | cons c as ih =>
    rcases List.mem_cons.1 ha with rfl | hmem <;> rcases List.mem_cons.1 ha' with rfl | hmem'
    · rfl
    · rw [List.filterMap_cons_some hx, List.nodup_cons] at h
      exact absurd (List.mem_filterMap.2 ⟨a', hmem', hx'⟩) h.1
    · rw [List.filterMap_cons_some hx', List.nodup_cons] at h
      exact absurd (List.mem_filterMap.2 ⟨a, hmem, hx⟩) h.1
    · exact ih (h.sublist ((List.sublist_cons_self c as).filterMap f)) hmem hmem'

namespace DamlPackagePayload

variable (P : DamlPackagePayload)

/-- The flattened name of an interface: the name of its module and its dotted name. -/
def flatInterfaceName (m : DamlModulePayload) (d : DefInterface) :
    DamlLfConvertResult (List String) :=
  (· ++ ·) <$> P.modulePath m <*> P.resolveDotted d.tyconInternedDname

/-- No two interfaces have the same flattened name. -/
def InterfaceNamesDistinct : Prop :=
  (P.modules.flatMap fun m =>
    m.module.interfaces.filterMap fun d => (P.flatInterfaceName m d).toOption).Nodup

instance : Decidable P.InterfaceNamesDistinct := inferInstanceAs (Decidable (List.Nodup _))

variable {P}

lemma flatInterfaceName_eq_ok {m : DamlModulePayload} {d : DefInterface} {p s : List String}
    (hp : P.modulePath m = .ok p) (hs : P.resolveDotted d.tyconInternedDname = .ok s) :
    P.flatInterfaceName m d = .ok (p ++ s) := by
  rw [flatInterfaceName, hp, hs]
  rfl

/-- A converted interface knows the flattened name of its definition. -/
lemma flatInterfaceName_of_convertInterface {fuel : Nat} {m : DamlModulePayload} {d : DefInterface}
    {path : List String} {i : DamlInterface} (hpath : P.modulePath m = .ok path)
    (hi : P.convertInterface fuel path d = .ok i) :
    P.flatInterfaceName m d = .ok (i.modulePath ++ [i.name]) := by
  obtain ⟨extraPath, hs, hmodulePath⟩ := DamlPackageTables.label_of_convertInterface hi
  rw [flatInterfaceName_eq_ok hpath hs, hmodulePath, List.append_assoc]

/-- A flattened name belongs to one interface of one module. -/
lemma InterfaceNamesDistinct.eq_of_flatInterfaceName (h : P.InterfaceNamesDistinct)
    {m m' : DamlModulePayload} (hm : m ∈ P.modules) (hm' : m' ∈ P.modules) {d d' : DefInterface}
    (hd : d ∈ m.module.interfaces) (hd' : d' ∈ m'.module.interfaces) {x : List String}
    (hx : P.flatInterfaceName m d = .ok x) (hx' : P.flatInterfaceName m' d' = .ok x) :
    m = m' ∧ d = d' := by
  have hpairs : ((P.modules.flatMap fun m => m.module.interfaces.map fun d => (m, d)).filterMap
      fun p => (P.flatInterfaceName p.1 p.2).toOption).Nodup := by
    rw [List.filterMap_flatMap]
    simp only [List.filterMap_map, Function.comp_def]
    exact h
  have hmem : ∀ {m d}, m ∈ P.modules → d ∈ m.module.interfaces →
      (m, d) ∈ P.modules.flatMap fun m => m.module.interfaces.map fun d => (m, d) := by
    intro m d hm hd
    exact List.mem_flatMap.2 ⟨m, hm, List.mem_map.2 ⟨d, hd, rfl⟩⟩
  have heq := eq_of_nodup_filterMap hpairs (hmem hm hd) (hmem hm' hd')
    (Except.toOption_eq_some.2 hx) (Except.toOption_eq_some.2 hx')
  exact Prod.mk.injEq .. ▸ heq

end DamlPackagePayload

/-! ### References -/

namespace DamlArchivePayload

open DamlPackageTables

variable {A : DamlArchivePayload} {fuel : Nat} {archive : DamlArchive}

/-- The tree of a package of the archive. -/
lemma exists_leaves_of_buildArchive (h : A.buildArchive fuel = .ok archive)
    {e : String × DamlPackagePayload} (he : e ∈ A.packages) :
    ∃ leaves package, e.2.Converted fuel e.2.modules leaves ∧
      archive.packages.lookup e.2.packageId = some package ∧
      package.rootModule = DamlModule.ofLeaves leaves := by
  obtain ⟨package, hpackage, hlookup⟩ := lookup_of_buildArchive h he
  obtain ⟨t, ht, rfl⟩ := Except.map_eq_ok.1 hpackage
  obtain ⟨leaves, hconv, rfl⟩ := DamlPackagePayload.buildModuleTree_eq_ok.1 ht
  exact ⟨leaves, _, hconv, hlookup, rfl⟩

lemma value_eq_some {packageId : String} {package : DamlPackage}
    (hpackage : archive.packages.lookup packageId = some package) {q : List String} {name : String}
    {v : DamlDefValue} : archive.value packageId q name = some v ↔
      ∃ b, valAt package.rootModule q = some b ∧ b.values.lookup name = some v := by
  simp [DamlArchive.value, hpackage, DamlModule.childModulePath, DamlModule.value, valAt,
    Option.bind_eq_some_iff]

lemma interface_eq_some {packageId : String} {package : DamlPackage}
    (hpackage : archive.packages.lookup packageId = some package) {q : List String} {name : String}
    {i : DamlInterface} : archive.interface packageId q name = some i ↔
      ∃ b, valAt package.rootModule q = some b ∧
        (b.interfaces.map Prod.snd).find? (fun i => i.name = name) = some i := by
  simp only [DamlArchive.interface, hpackage, DamlModule.childModulePath, valAt,
    Option.bind_eq_bind, Option.bind_some, Option.bind_eq_some_iff, Option.map_eq_some_iff,
    exists_exists_and_eq_and]

section References

variable (h : A.buildArchive fuel = .ok archive) {e : String × DamlPackagePayload}
  (he : e ∈ A.packages) (hpaths : e.2.ModuleNamesDistinct) {m : DamlModulePayload}
  (hm : m ∈ e.2.modules) {path s : List String} (hpath : e.2.modulePath m = .ok path)

include h he hpaths hm hpath

/-- A reference to a value finds it if and only if its name has one segment, and no value with
that name and another body is listed after it. -/
theorem valueByName_convertValueId_iff {d : DefValue} (hd : d ∈ m.module.values)
    {nt : NameWithType} (hnt : d.nameWithType = some nt)
    (hs : e.2.resolveDotted nt.nameInternedDname = .ok s) {e' : String × DamlPackagePayload}
    {id : ValueId} (hid : e'.2.RefersToValue id e.2.packageId path s) :
    (∃ n v, e'.2.convertValueId id = .ok n ∧ e.2.convertDefValue fuel d = .ok v ∧
        archive.valueByName n = some v) ↔
      ∃ name d', s = [name] ∧ (e.2.valuesNamed m.module name).getLast? = some d' ∧
        e.2.SameBody fuel d' d := by
  obtain ⟨leaves, package, hconv, hpackage, hroot⟩ := exists_leaves_of_buildArchive h he
  have hnodup : (leaves.map ModuleLeaf.path).Nodup :=
    DamlPackagePayload.paths_of_converted hconv ▸ hpaths
  obtain ⟨l, hl, hleaf⟩ := hconv.exists_right hm
  cases hpath.symm.trans (convertModule_eq_ok hleaf).1
  have hvalues := (convertedParts_of_ok hleaf).values
  have hname : ∀ {v}, e.2.convertDefValue fuel d = .ok v → v.name = ".".intercalate s := by
    intro v hv
    obtain ⟨nt', s', hnt', hs', hname, -, -⟩ := convertDefValue_eq_ok.1 hv
    cases hnt.symm.trans hnt'
    cases hs.symm.trans hs'
    exact hname
  constructor
  · rintro ⟨n, v, hn, hv, hfound⟩
    obtain ⟨extraPath, name, rfl, rfl⟩ := hid.convertValueId.1 hn
    obtain ⟨b, hb, hlookup⟩ := (value_eq_some hpackage).1 hfound
    rw [hroot] at hb
    obtain ⟨l', hl', hpath', hlookup'⟩ := DamlModule.exists_leaf_of_value hb hlookup
    obtain ⟨m', -, hleaf'⟩ := hconv.exists_left hl'
    obtain ⟨d', hd', hv'⟩ := (lookup_buildValues (convertedParts_of_ok hleaf').values).1 hlookup'
    have hkey : e.2.valueKey d' = some name :=
      of_decide_eq_true (List.mem_filter.1 (List.mem_of_getLast? hd')).2
    -- the name of the value is the whole dotted name and its last segment
    have hlast : v.name = name := Option.some_inj.1 ((valueKey_eq hv').symm.trans hkey)
    have hnil := eq_nil_of_intercalate_concat ((hname hv).symm.trans hlast)
    subst hnil
    have hsame : l' = l :=
      List.inj_on_of_nodup_map hnodup hl' hl (hpath'.trans (List.append_nil _))
    subst hsame
    obtain ⟨d'', hd'', hv''⟩ := (lookup_buildValues hvalues).1 hlookup'
    have hkey' : e.2.valueKey d'' = some v.name := valueKey_eq hv''
    exact ⟨name, d'', rfl, hd'', (sameBody_iff hv hkey').2 hv''⟩
  · rintro ⟨name, d', rfl, hd', hbody⟩
    obtain ⟨vs, hvs, -⟩ := Except.map_eq_ok.1 hvalues
    obtain ⟨v, -, hv⟩ := (Except.mapM_eq_ok.1 hvs).exists_right hd
    have hkey : e.2.valueKey d' = some name :=
      of_decide_eq_true (List.mem_filter.1 (List.mem_of_getLast? hd')).2
    have hvname : v.name = name := (hname hv).trans (String.intercalate_singleton)
    have hv' := (sameBody_iff hv (hvname ▸ hkey)).1 hbody
    obtain ⟨b, hb, hbvalues, -⟩ := DamlModule.exists_valAt_of_mem hnodup hl
    refine ⟨_, v, hid.convertValueId.2 ⟨[], name, rfl, rfl⟩, hv,
      (value_eq_some hpackage).2 ⟨b, ?_, ?_⟩⟩
    · rw [hroot, List.append_nil, hb]
    · rw [hbvalues]
      exact (lookup_buildValues hvalues).2 ⟨d', hd', hv'⟩

/-- A reference to an interface finds it if and only if its name has one segment, and no interface
with that last segment is listed after it in its module. -/
theorem interfaceByTyconName_convertTyconId_iff (hnames : e.2.InterfaceNamesDistinct)
    {d : DefInterface} (hd : d ∈ m.module.interfaces)
    (hs : e.2.resolveDotted d.tyconInternedDname = .ok s) {e' : String × DamlPackagePayload}
    {id : TypeConId} (hid : e'.2.RefersTo id e.2.packageId path s) :
    (∃ n i, e'.2.convertTyconId id = .ok n ∧ e.2.convertInterface fuel path d = .ok i ∧
        archive.interfaceByTyconName n = some i) ↔
      ∃ name, s = [name] ∧ (e.2.interfacesNamed m.module name).getLast? = some d := by
  obtain ⟨leaves, package, hconv, hpackage, hroot⟩ := exists_leaves_of_buildArchive h he
  have hnodup : (leaves.map ModuleLeaf.path).Nodup :=
    DamlPackagePayload.paths_of_converted hconv ▸ hpaths
  obtain ⟨l, hl, hleaf⟩ := hconv.exists_right hm
  cases hpath.symm.trans (convertModule_eq_ok hleaf).1
  have hinterfaces := (convertedParts_of_ok hleaf).interfaces
  constructor
  · rintro ⟨n, i, hn, hi, hfound⟩
    obtain ⟨extraPath, hname, hmodulePath⟩ := label_of_convertInterface hi
    cases hs.symm.trans hname
    obtain ⟨n', hn', hparts⟩ := hid.convertTyconId
    cases hn.symm.trans hn'
    rw [DamlArchive.interfaceByTyconName, hparts, interface_eq_some hpackage] at hfound
    obtain ⟨b, hb, hfind⟩ := hfound
    rw [hroot] at hb
    obtain ⟨x, hx, hxi⟩ := List.mem_map.1 (List.mem_of_find?_eq_some hfind)
    obtain ⟨l', hl', hpath', hmem⟩ := DamlModule.exists_leaf_of_interface hb hx
    obtain ⟨m', hm', hleaf'⟩ := hconv.exists_left hl'
    obtain ⟨-, d', hd', hi'⟩ :=
      exists_of_mem_buildInterfaces (convertedParts_of_ok hleaf').interfaces hmem
    rw [hxi] at hi'
    have hflat := DamlPackagePayload.flatInterfaceName_of_convertInterface hpath hi
    -- the interface there has the full name of the definition, so it comes from the definition
    obtain ⟨rfl, rfl⟩ := hnames.eq_of_flatInterfaceName hm hm' hd hd' hflat
      (DamlPackagePayload.flatInterfaceName_of_convertInterface (convertModule_eq_ok hleaf').1 hi')
    have hnil : extraPath = [] := by
      have hsame := Except.ok.inj (hpath.symm.trans (convertModule_eq_ok hleaf').1)
      rw [hpath'] at hsame
      simpa using hsame
    subst hnil
    refine ⟨i.name, rfl, ?_⟩
    obtain ⟨b', hb', -, hinterfaces'⟩ := DamlModule.exists_valAt_of_mem hnodup hl
    rw [List.append_nil] at hb
    cases hb.symm.trans hb'
    rw [hinterfaces'] at hfind
    obtain ⟨d'', hd'', hi''⟩ := (find?_buildInterfaces hinterfaces).1 hfind
    -- of the definitions with the last segment, the last one has the same full name
    have hmem'' := (List.mem_filter.1 (List.mem_of_getLast? hd'')).1
    obtain ⟨-, rfl⟩ := hnames.eq_of_flatInterfaceName hm hm hd hmem'' hflat
      (DamlPackagePayload.flatInterfaceName_of_convertInterface hpath hi'')
    exact hd''
  · rintro ⟨name, rfl, hlast⟩
    obtain ⟨is, his, -⟩ := Except.map_eq_ok.1 hinterfaces
    obtain ⟨i, -, hi⟩ := (Except.mapM_eq_ok.1 his).exists_right hd
    obtain ⟨b, hb, -, hbinterfaces⟩ := DamlModule.exists_valAt_of_mem hnodup hl
    have hid' : e'.2.RefersTo id e.2.packageId l.path ([] ++ [name]) := hid
    obtain ⟨n, hn, hparts⟩ := hid'.convertTyconId
    refine ⟨n, i, hn, hi, ?_⟩
    rw [DamlArchive.interfaceByTyconName, hparts, interface_eq_some hpackage]
    refine ⟨b, ?_, ?_⟩
    · rw [hroot, List.append_nil, hb]
    · rw [hbinterfaces]
      exact (find?_buildInterfaces hinterfaces).2 ⟨d, hlast, hi⟩

end References

/-- A value with the name of the given index. -/
def bareValue (nameIndex : Int) : DefValue :=
  ⟨some ⟨nameIndex, some (.builtin 2 [])⟩, some (.varInternedStr 1)⟩

/-- An interface with the name of the given index. -/
def bareInterface (nameIndex : Int) : DefInterface :=
  ⟨nameIndex, [], 3, [], some (.builtin 2 []), []⟩

/-- The module `Main` with values `greet` and `inner.greet` and interfaces `Token` and
`inner.Asset`. -/
def lookupModule : DamlModulePayload where
  nameIndex := 0
  flags := ⟨true, true, true⟩
  module :=
    { nameInternedDname := 0
      flags := some ⟨true, true, true⟩
      synonyms := []
      dataTypes := []
      values := [bareValue 1, bareValue 2]
      templates := []
      exceptions := []
      interfaces := [bareInterface 3, bareInterface 4] }

def lookupPackage : DamlPackagePayload where
  name := "lookup"
  languageVersion := .lv2 .v1
  packageId := "pkg"
  internedStrings := ["Main", "greet", "inner", "Token", "Asset"]
  internedDottedNames := [[0], [1], [2, 1], [3], [2, 4]]
  internedTypes := []
  internedKinds := []
  internedExprs := []
  pkgNames := [("pkg", "lookup")]
  version := some "1.0.0"
  modules := [lookupModule]

/-- The package under its id. -/
def lookupEntry : String × DamlPackagePayload := ("pkg", lookupPackage)

/-- A reference to the value with the name of the given index. -/
def ownValueId (nameIndex : Int) : ValueId := ⟨some ⟨some .selfPackageId, 0⟩, nameIndex⟩

/-- A reference to the interface with the name of the given index. -/
def ownInterfaceId (nameIndex : Int) : TypeConId := ⟨some ⟨some .selfPackageId, 0⟩, nameIndex⟩

/-- `greet` is found. -/
theorem valueByName_convertValueId_greet : ∃ archive n v,
    (fromSinglePackage lookupPackage).buildArchive 2 = .ok archive ∧
      lookupPackage.convertValueId (ownValueId 1) = .ok n ∧
      lookupPackage.convertDefValue 2 (bareValue 1) = .ok v ∧ archive.valueByName n = some v := by
  have h : ∃ archive, (fromSinglePackage lookupPackage).buildArchive 2 = .ok archive := ⟨_, rfl⟩
  obtain ⟨archive, h⟩ := h
  have he : lookupEntry ∈ (fromSinglePackage lookupPackage).packages := List.mem_singleton_self _
  have hid : lookupEntry.2.RefersToValue (ownValueId 1) "pkg" ["Main"] ["greet"] :=
    ⟨_, _, rfl, rfl, rfl, rfl, rfl⟩
  have hlast : ∃ name d', ["greet"] = [name] ∧
      (lookupPackage.valuesNamed lookupModule.module name).getLast? = some d' ∧
      lookupPackage.SameBody 2 d' (bareValue 1) := ⟨_, _, rfl, rfl, rfl, rfl⟩
  obtain ⟨n, v, hn, hv, hfound⟩ := (valueByName_convertValueId_iff h he (by decide)
    (List.mem_singleton_self _) rfl List.mem_cons_self rfl rfl hid).2 hlast
  exact ⟨archive, n, v, h, hn, hv, hfound⟩

/-- `inner.greet` is not found. -/
theorem not_valueByName_convertValueId_inner :
    ¬ ∀ A : DamlArchivePayload, ∀ fuel archive, A.buildArchive fuel = .ok archive →
      ∀ e ∈ A.packages, e.2.ModuleNamesDistinct → ∀ m ∈ e.2.modules, ∀ d ∈ m.module.values,
        ∀ nt path s, e.2.modulePath m = .ok path → d.nameWithType = some nt →
          e.2.resolveDotted nt.nameInternedDname = .ok s → ∀ e' ∈ A.packages, ∀ id,
            e'.2.RefersToValue id e.2.packageId path s →
              ∃ n v, e'.2.convertValueId id = .ok n ∧ e.2.convertDefValue fuel d = .ok v ∧
                archive.valueByName n = some v := by
  intro hall
  have h : ∃ archive, (fromSinglePackage lookupPackage).buildArchive 2 = .ok archive ∧
      ∃ n, lookupPackage.convertValueId (ownValueId 2) = .ok n ∧ archive.valueByName n = none :=
    ⟨_, rfl, _, rfl, rfl⟩
  obtain ⟨archive, h, n, hn, hnone⟩ := h
  obtain ⟨n', v, hn', -, hfound⟩ := hall _ 2 archive h lookupEntry (List.mem_singleton_self _)
    (by decide) lookupModule (List.mem_singleton_self _) (bareValue 2)
    (List.mem_cons_of_mem _ (List.mem_singleton_self _)) _ _ _ rfl rfl rfl lookupEntry
    (List.mem_singleton_self _) (ownValueId 2) ⟨_, _, rfl, rfl, rfl, rfl, rfl⟩
  cases hn.symm.trans hn'
  cases hnone.symm.trans hfound

/-- `Token` is found. -/
theorem interfaceByTyconName_convertTyconId_token : ∃ archive n i,
    (fromSinglePackage lookupPackage).buildArchive 2 = .ok archive ∧
      lookupPackage.convertTyconId (ownInterfaceId 3) = .ok n ∧
      lookupPackage.convertInterface 2 ["Main"] (bareInterface 3) = .ok i ∧
      archive.interfaceByTyconName n = some i := by
  have h : ∃ archive, (fromSinglePackage lookupPackage).buildArchive 2 = .ok archive := ⟨_, rfl⟩
  obtain ⟨archive, h⟩ := h
  have he : lookupEntry ∈ (fromSinglePackage lookupPackage).packages := List.mem_singleton_self _
  have hid : lookupEntry.2.RefersTo (ownInterfaceId 3) "pkg" ["Main"] ["Token"] :=
    ⟨_, _, rfl, rfl, rfl, rfl, rfl⟩
  have hlast : ∃ name, ["Token"] = [name] ∧
      (lookupPackage.interfacesNamed lookupModule.module name).getLast? = some (bareInterface 3) :=
    ⟨_, rfl, rfl⟩
  obtain ⟨n, i, hn, hi, hfound⟩ := (interfaceByTyconName_convertTyconId_iff h he (by decide)
    (List.mem_singleton_self _) rfl (by decide) List.mem_cons_self rfl hid).2 hlast
  exact ⟨archive, n, i, h, hn, hi, hfound⟩

/-- `inner.Asset` is not found. -/
theorem not_interfaceByTyconName_convertTyconId_inner :
    ¬ ∀ A : DamlArchivePayload, ∀ fuel archive, A.buildArchive fuel = .ok archive →
      ∀ e ∈ A.packages, e.2.ModuleNamesDistinct → e.2.InterfaceNamesDistinct →
        ∀ m ∈ e.2.modules, ∀ d ∈ m.module.interfaces, ∀ path s, e.2.modulePath m = .ok path →
          e.2.resolveDotted d.tyconInternedDname = .ok s → ∀ e' ∈ A.packages, ∀ id,
            e'.2.RefersTo id e.2.packageId path s →
              ∃ n i, e'.2.convertTyconId id = .ok n ∧ e.2.convertInterface fuel path d = .ok i ∧
                archive.interfaceByTyconName n = some i := by
  intro hall
  have h : ∃ archive, (fromSinglePackage lookupPackage).buildArchive 2 = .ok archive ∧
      ∃ n, lookupPackage.convertTyconId (ownInterfaceId 4) = .ok n ∧
        archive.interfaceByTyconName n = none :=
    ⟨_, rfl, _, rfl, rfl⟩
  obtain ⟨archive, h, n, hn, hnone⟩ := h
  obtain ⟨n', i, hn', -, hfound⟩ := hall _ 2 archive h lookupEntry (List.mem_singleton_self _)
    (by decide) (by decide) lookupModule (List.mem_singleton_self _)
    (bareInterface 4) (List.mem_cons_of_mem _ (List.mem_singleton_self _)) _ _ rfl rfl
    lookupEntry (List.mem_singleton_self _) (ownInterfaceId 4)
    ⟨_, _, rfl, rfl, rfl, rfl, rfl⟩
  cases hn.symm.trans hn'
  cases hnone.symm.trans hfound

end DamlArchivePayload

end DamlBindings.Lf
