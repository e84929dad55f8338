import DamlBindings.Lf.NestedData

/-!
# Templates and the records they wrap

A template refers to its record by the index of an interned name, and the record becomes the
template when it is converted.  Whether this happens to every template of a module depends on the
indices: two indices may stand for one name, and nothing is converted for a template whose index no
record has.
-/

namespace DamlBindings.Lf

open Proto PathTree DamlModuleBody

namespace DamlPackageTables

variable (P : DamlPackageTables) (fuel : Nat) (module : Module) (path : List String)

/-- The dotted name of a template. -/
def templateName (t : DefTemplate) : Option (List String) :=
  (P.resolveDotted t.tyconInternedDname).toOption

/-- The definition gives data under a dotted name. -/
def isDataNamed (s : List String) (d : DefDataType) : Bool :=
  (match d.dataCons with
    | .interface => false
    | _ => true) &&
  decide ((P.resolveDotted d.nameInternedDname).toOption = some s)

/-- The data types of a module with a dotted name, without the markers of interfaces. -/
def namedDataTypes (s : List String) : List DefDataType := module.dataTypes.filter (P.isDataNamed s)

/-- The template with its own choices, key and interfaces and the fields of a record of its name. -/
def IsTemplateOf (t : DefTemplate) (T : DamlTemplate) : Prop :=
  ∃ extraPath key, P.resolveDotted t.tyconInternedDname = .ok (extraPath ++ [key]) ∧
    ∃ d ∈ module.dataTypes, P.resolveDotted d.nameInternedDname = .ok (extraPath ++ [key]) ∧
      ∃ fields, d.dataCons = .record fields ∧
        ∃ damlFields, fields.mapM (P.convertField fuel) = .ok damlFields ∧
          P.buildTemplate fuel t key (path ++ extraPath) damlFields d.serializable = .ok T

/-- The full name of a template. -/
def fullName (T : DamlTemplate) : List String := T.modulePath ++ [T.name]

/-- Every template of a module is in a tree, in one place, which is that of its name, and no record
is there under the name of a template. -/
structure KeepsTemplates (tree : DamlModule) : Prop where
  templates : ∃ Ts, List.Forall₂ (P.IsTemplateOf fuel module path) module.templates Ts ∧
    (Ts.map fullName).Nodup ∧
    ∀ T ∈ Ts, ∀ q k, tree.dataTypeAt q k = some (.template T) ↔ q = T.modulePath ∧ k = T.name
  records : ∀ t ∈ module.templates, ∀ extraPath key,
    P.resolveDotted t.tyconInternedDname = .ok (extraPath ++ [key]) →
    ∀ r, tree.dataTypeAt (path ++ extraPath) key ≠ some (.record r)

/-- The templates have distinct names, and of the data types with the name of a template the last
one is a record with the index of the template. -/
structure TemplatesBacked : Prop where
  nodup : (module.templates.map P.templateName).Nodup
  backed : ∀ t ∈ module.templates, ∃ s d, P.resolveDotted t.tyconInternedDname = .ok s ∧
    (P.namedDataTypes module s).getLast? = some d ∧
    d.nameInternedDname = t.tyconInternedDname ∧ ∃ fields, d.dataCons = .record fields

variable {P fuel module path}

/-! ### What a definition gives -/

/-- A record becomes the template that is listed last under its index. -/
lemma placeDataType_eq_template {d : DefDataType} {extraPath : List String} {key : String}
    {T : DamlTemplate}
    (h : P.placeDataType fuel module path d = .ok (some ⟨extraPath, key, .template T⟩)) :
    ∃ fields, d.dataCons = .record fields ∧ ∃ t,
      (templateByTycon module).lookup d.nameInternedDname = some t ∧
      ∃ damlFields, fields.mapM (P.convertField fuel) = .ok damlFields ∧
        P.buildTemplate fuel t key (path ++ extraPath) damlFields d.serializable = .ok T := by
  simp only [placeDataType, Except.bind_eq_ok, Run.lift_eq_ok, Except.pure_eq_ok] at h
  obtain ⟨s, hs, ⟨key', extraPath'⟩, hsplit, o, ho, heq⟩ := h
  obtain ⟨x, rfl, heq⟩ := Option.map_eq_some_iff.1 heq
  cases heq
  unfold buildDataType at ho
  obtain ⟨typeParams, -, ho⟩ := Except.bind_eq_ok.1 ho
  rcases hcons : d.dataCons with fields | fields | constructors | _ | _ <;> rw [hcons] at ho
  · obtain ⟨damlFields, hfields, ho⟩ := Except.bind_eq_ok.1 ho
    rcases hlookup : (templateByTycon module).lookup d.nameInternedDname with _ | t <;>
      rw [hlookup] at ho
    · cases ho
    · obtain ⟨T', hT, heq⟩ := Except.map_eq_ok.1 ho
      cases heq
      exact ⟨fields, rfl, t, rfl, damlFields, hfields, hT⟩
  · obtain ⟨_, -, ho⟩ := Except.bind_eq_ok.1 ho
    cases ho
  · obtain ⟨_, -, ho⟩ := Except.bind_eq_ok.1 ho
    cases ho
  · cases ho
  · cases ho

/-- The template under an index. -/
lemma lookup_templateByTycon (index : Int) :
    (templateByTycon module).lookup index =
      (module.templates.filter fun t => t.tyconInternedDname = index).getLast? := by
  rw [templateByTycon, AssocMap.lookup_ofList_map, Option.map_id']

/-- A record with the index of a template becomes that template. -/
lemma placeDataType_of_template {d : DefDataType} {pd : PlacedData} {t : DefTemplate}
    {fields : List (FieldWithType Ty)}
    (h : P.placeDataType fuel module path d = .ok (some pd)) (hcons : d.dataCons = .record fields)
    (ht : (templateByTycon module).lookup d.nameInternedDname = some t) :
    ∃ T, pd.data = .template T := by
  simp only [placeDataType, Except.bind_eq_ok, Run.lift_eq_ok, Except.pure_eq_ok] at h
  obtain ⟨s, hs, ⟨key', extraPath'⟩, hsplit, o, ho, heq⟩ := h
  obtain ⟨x, rfl, rfl⟩ := Option.map_eq_some_iff.1 heq
  unfold buildDataType at ho
  obtain ⟨typeParams, -, ho⟩ := Except.bind_eq_ok.1 ho
  rw [hcons] at ho
  obtain ⟨damlFields, -, ho⟩ := Except.bind_eq_ok.1 ho
  rw [ht] at ho
  obtain ⟨T, -, heq⟩ := Except.map_eq_ok.1 ho
  cases heq
  exact ⟨T, rfl⟩

/-- A template knows the full name under which it was built. -/
lemma IsTemplateOf.fullName_eq {t : DefTemplate} {T : DamlTemplate}
    (h : P.IsTemplateOf fuel module path t T) :
    ∃ extraPath, P.resolveDotted t.tyconInternedDname = .ok (extraPath ++ [T.name]) ∧
      T.modulePath = path ++ extraPath := by
  obtain ⟨extraPath, key, hname, d, -, -, fields, -, damlFields, -, hT⟩ := h
  have hlabel := labelled_buildTemplate hT
  have hkey : T.name = key := hlabel.name
  exact ⟨extraPath, hkey ▸ hname, hlabel.modulePath⟩

/-- The templates have distinct names if and only if what becomes of them has. -/
lemma nodup_templateName_iff {ts : List DefTemplate} {Ts : List DamlTemplate}
    (h : List.Forall₂ (P.IsTemplateOf fuel module path) ts Ts) :
    (ts.map P.templateName).Nodup ↔ (Ts.map fullName).Nodup := by
  have hnames : (ts.map P.templateName).map (Option.map (path ++ ·)) =
      (Ts.map fullName).map some := by
    rw [List.map_map, List.map_map]
    refine (h.imp fun t T hT => ?_).map_eq
    obtain ⟨extraPath, hname, hmodulePath⟩ := hT.fullName_eq
    rw [Function.comp_apply, Function.comp_apply, templateName, hname, fullName, hmodulePath,
      List.append_assoc]
    rfl
  rw [← List.nodup_map_iff (Option.map_injective (List.append_right_injective path)), hnames,
    List.nodup_map_iff (Option.some_injective _)]

lemma isDataNamed_iff {s : List String} {d : DefDataType} :
    P.isDataNamed s d = true ↔ d.dataCons ≠ .interface ∧
      P.resolveDotted d.nameInternedDname = .ok s := by
  rw [isDataNamed, Bool.and_eq_true, decide_eq_true_iff, Except.toOption_eq_some]
  rcases hcons : d.dataCons <;> simp

/-- The definitions with a dotted name give the data that a converted module puts there. -/
lemma forall₂_dataFor {m : DamlModulePayload} {l : ModuleLeaf} (h : P.convertModule fuel m = .ok l)
    (extraPath : List String) (key : String) :
    List.Forall₂ (fun d x => P.placeDataType fuel m.module l.path d =
      .ok (some ⟨extraPath, key, x⟩)) (P.namedDataTypes m.module (extraPath ++ [key]))
      (l.dataTypes.filterMap (l.dataFor (l.path ++ extraPath) key)) := by
  obtain ⟨os, hos, hds⟩ := Except.map_eq_ok.1 (convertModule_eq_ok h).2
  have hall := Except.mapM_eq_ok.1 hos
  rw [namedDataTypes, ← hds]
  clear hos hds
  generalize m.module.dataTypes = ds at hall ⊢
  induction hall with
  | nil => exact .nil
  | @cons d o ds os hd _ ih =>
    obtain ⟨extraPath', key', hname, ⟨hcons, rfl⟩ | ⟨hcons, x, rfl, -⟩⟩ := placeDataType_eq_ok hd
    · -- the marker of an interface gives nothing
      have hnot : ¬ P.isDataNamed (extraPath ++ [key]) d = true :=
        fun hnamed => (isDataNamed_iff.1 hnamed).1 hcons
      rw [List.reduceOption_cons_of_none, List.filter_cons_of_neg hnot]
      exact ih
    · rw [List.reduceOption_cons_of_some]
      by_cases hsame : extraPath' = extraPath ∧ key' = key
      · obtain ⟨rfl, rfl⟩ := hsame
        have hfor : l.dataFor (l.path ++ extraPath') key' ⟨extraPath', key', x⟩ = some x :=
          if_pos ⟨rfl, rfl⟩
        rw [List.filter_cons_of_pos (isDataNamed_iff.2 ⟨hcons, hname⟩),
          List.filterMap_cons_some hfor]
        exact .cons hd ih
      · have hfor : l.dataFor (l.path ++ extraPath) key ⟨extraPath', key', x⟩ = none := by
          refine if_neg ?_
          rintro ⟨hextra, hkey⟩
          exact hsame ⟨List.append_cancel_left hextra, hkey⟩
        have hnot : ¬ P.isDataNamed (extraPath ++ [key]) d = true := by
          intro hnamed
          have heq := Except.ok.inj (hname.symm.trans (isDataNamed_iff.1 hnamed).2)
          obtain ⟨hextra, hkey⟩ := List.append_inj' heq rfl
          exact hsame ⟨hextra, List.cons.inj hkey |>.1⟩
        rw [List.filter_cons_of_neg hnot, List.filterMap_cons_none hfor]
        exact ih

end DamlPackageTables

/-! ### What is in the tree -/

namespace DamlModule

variable {leaves post : List ModuleLeaf} {l : ModuleLeaf} {q extraPath : List String} {k : String}

/-- Modules that put nothing at a place leave what is there. -/
lemma dataIn_leavesStep_of_untouched
    (h : ∀ l ∈ post, q ≠ l.path ∧ ∀ d ∈ l.dataTypes, l.dataFor q k d = none)
    (o : Option DamlModuleBody) : dataIn (leavesStep post q o) k = dataIn o k := by
  induction post generalizing o with
  | nil => rfl
  | cons l post ih =>
    rw [List.forall_mem_cons] at h
    have hnone : l.dataTypes.filterMap (l.dataFor q k) = [] := List.filterMap_eq_nil_iff.2 h.1.2
    rw [leavesStep_cons, ih h.2, dataIn_leavesStep_singleton h.1.1, hnone]
    rfl

/-- The last data that a module puts at a place is there, if no later module puts anything there. -/
lemma dataTypeAt_of_last (hname : ∀ d ∈ l.dataTypes, d.data.name = d.key)
    (hpost : ∀ l' ∈ post, l.path ++ extraPath ≠ l'.path ∧
      ∀ d ∈ l'.dataTypes, l'.dataFor (l.path ++ extraPath) k d = none)
    {x : DamlData}
    (hx : (l.dataTypes.filterMap (l.dataFor (l.path ++ extraPath) k)).getLast? = some x) :
    (ofLeaves (leaves ++ l :: post)).dataTypeAt (l.path ++ extraPath) k = some x := by
  have hsplit : ∀ o, leavesStep (leaves ++ l :: post) (l.path ++ extraPath) o =
      leavesStep post (l.path ++ extraPath)
        (leavesStep [l] (l.path ++ extraPath) (leavesStep leaves (l.path ++ extraPath) o)) := by
    intro o
    simp [leavesStep, List.foldl_append]
  show dataIn (valAt (ofLeaves (leaves ++ l :: post)) (l.path ++ extraPath)) k = some x
  rw [valAt_ofLeaves, hsplit, dataIn_leavesStep_of_untouched hpost]
  by_cases hextra : extraPath = []
  · subst hextra
    rw [List.append_nil] at hx ⊢
    rw [dataIn_leavesStep_own hname, hx]
  · have hne : l.path ++ extraPath ≠ l.path := by simpa using hextra
    rw [dataIn_leavesStep_singleton hne, hx]
    rfl

/-- Data is found where its labels say. -/
lemma label_of_dataTypeAt
    (hlabel : ∀ l ∈ leaves, ∀ d ∈ l.dataTypes,
      d.data.modulePath = l.path ++ d.extraPath ∧ d.data.name = d.key) {x : DamlData}
    (hx : (ofLeaves leaves).dataTypeAt q k = some x) : x.modulePath = q ∧ x.name = k := by
  obtain ⟨b, hb, hlookup⟩ := Option.bind_eq_some_iff.1 hx
  obtain ⟨l, hl, d, hd, heq, rfl⟩ := exists_leaf_of_dataType
    (fun l hl d hd => (hlabel l hl d hd).2) hb (AssocMap.mem_of_lookup hlookup)
  cases heq
  exact hlabel l hl d hd

end DamlModule

/-! ### The templates of a module of a package -/

namespace DamlPackagePayload

open DamlPackageTables

/-- The module is not declared at a node and gives no data that goes there under the name. -/
structure LeavesPlace (P : DamlPackagePayload) (m : DamlModulePayload) (q : List String)
    (k : String) : Prop where
  path : P.modulePath m ≠ .ok q
  data : ∀ d ∈ m.module.dataTypes, d.dataCons ≠ .interface → P.flatName m d ≠ .ok (q ++ [k])

variable {P : DamlPackagePayload} {fuel : Nat} {pre post : List DamlModulePayload}
  {m : DamlModulePayload} {l : ModuleLeaf} {tree : DamlModule} {path : List String}

lemma LeavesPlace.dataFor_eq_none {q : List String} {k : String} (h : P.LeavesPlace m q k)
    (hconv : P.convertModule fuel m = .ok l) :
    q ≠ l.path ∧ ∀ d ∈ l.dataTypes, l.dataFor q k d = none := by
  obtain ⟨hpath, hdata⟩ := convertModule_eq_ok hconv
  refine ⟨?_, fun pd hpd => if_neg ?_⟩
  · rintro rfl
    exact h.path hpath
  · rintro ⟨rfl, rfl⟩
    obtain ⟨d, hd, hplace⟩ := (mem_buildDataTypes hdata).1 hpd
    obtain ⟨hname, hcons, -⟩ := placeDataType_eq_some hplace
    refine h.data d hd hcons ?_
    rw [flatName_eq_ok hpath hname, List.append_assoc]

/-- All data in the tree of a package is found where its labels say. -/
lemma label_of_buildModuleTree (htree : P.buildModuleTree fuel = .ok tree) {q : List String}
    {k : String} {x : DamlData} (hx : tree.dataTypeAt q k = some x) :
    x.modulePath = q ∧ x.name = k := by
  obtain ⟨leaves, hconv, rfl⟩ := buildModuleTree_eq_ok.1 htree
  refine DamlModule.label_of_dataTypeAt (fun l hl pd hpd => ?_) hx
  have hlabel := labelled_of_converted hconv l hl pd hpd
  exact ⟨hlabel.modulePath, hlabel.name⟩

/-- The last data type of a module with a dotted name is in the tree, if no later module takes its
place. -/
lemma dataTypeAt_of_namedDataTypes (hmodules : P.modules = pre ++ m :: post)
    (htree : P.buildModuleTree fuel = .ok tree) (hpath : P.modulePath m = .ok path)
    {extraPath : List String} {key : String}
    (hpost : ∀ m' ∈ post, P.LeavesPlace m' (path ++ extraPath) key) {d : DefDataType}
    (hd : (P.namedDataTypes m.module (extraPath ++ [key])).getLast? = some d) :
    ∃ x, P.placeDataType fuel m.module path d = .ok (some ⟨extraPath, key, x⟩) ∧
      tree.dataTypeAt (path ++ extraPath) key = some x := by
  obtain ⟨leaves, hconv, rfl⟩ := buildModuleTree_eq_ok.1 htree
  rw [hmodules] at hconv
  obtain ⟨before, l, after, rfl, -, hl, hafter⟩ := hconv.exists_append_cons
  obtain ⟨hpath', hdata⟩ := convertModule_eq_ok hl
  cases hpath.symm.trans hpath'
  obtain ⟨x, hx, hplace⟩ := (forall₂_dataFor hl extraPath key).exists_getLast? hd
  refine ⟨x, hplace, DamlModule.dataTypeAt_of_last ?_ ?_ hx⟩
  · intro pd hpd
    obtain ⟨d, -, hplace⟩ := (mem_buildDataTypes hdata).1 hpd
    exact (placeDataType_eq_some hplace).2.2.name
  · intro l' hl'
    obtain ⟨m', hm', hconv'⟩ := hafter.exists_left hl'
    exact (hpost m' hm').dataFor_eq_none hconv'

/-- Every definition of a module of a package that converts is converted. -/
lemma exists_placeDataType_of_mem (htree : P.buildModuleTree fuel = .ok tree) (hm : m ∈ P.modules)
    (hpath : P.modulePath m = .ok path) {d : DefDataType} (hd : d ∈ m.module.dataTypes) :
    ∃ o, P.placeDataType fuel m.module path d = .ok o := by
  obtain ⟨leaves, hconv, -⟩ := buildModuleTree_eq_ok.1 htree
  obtain ⟨l, -, hl⟩ := hconv.exists_right hm
  obtain ⟨hpath', hdata⟩ := convertModule_eq_ok hl
  cases hpath.symm.trans hpath'
  exact exists_placeDataType hdata hd

section Templates

variable (hmodules : P.modules = pre ++ m :: post) (htree : P.buildModuleTree fuel = .ok tree)
  (hpath : P.modulePath m = .ok path)
  (hpost : ∀ m' ∈ post, ∀ t ∈ m.module.templates, ∀ extraPath key,
    P.resolveDotted t.tyconInternedDname = .ok (extraPath ++ [key]) →
    P.LeavesPlace m' (path ++ extraPath) key)

include hmodules htree hpath hpost

/-- A tree that keeps the templates has a record for each. -/
lemma templatesBacked_of_keepsTemplates (h : P.KeepsTemplates fuel m.module path tree) :
    P.TemplatesBacked m.module := by
  obtain ⟨Ts, hTs, hnodup, hplaces⟩ := h.templates
  have hdistinct := (nodup_templateName_iff hTs).2 hnodup
  refine ⟨hdistinct, fun t ht => ?_⟩
  obtain ⟨T, hT, hof⟩ := hTs.exists_right ht
  obtain ⟨extraPath, hname, hmodulePath⟩ := hof.fullName_eq
  obtain ⟨extraPath', key, hname', d, hd, hdname, fields, hcons, -⟩ := hof
  obtain ⟨rfl, hkey⟩ := List.append_inj' (Except.ok.inj (hname.symm.trans hname')) rfl
  cases hkey
  -- the template is the data of the last definition with its name
  have hmem : d ∈ P.namedDataTypes m.module (extraPath ++ [T.name]) := by
    refine List.mem_filter.2 ⟨hd, isDataNamed_iff.2 ⟨?_, hdname⟩⟩
    rw [hcons]
    nofun
  obtain ⟨d', hd'⟩ := Option.isSome_iff_exists.1
    (List.getLast?_isSome.2 (List.ne_nil_of_mem hmem))
  obtain ⟨x, hplace, hx⟩ := dataTypeAt_of_namedDataTypes hmodules htree hpath
    (fun m' hm' => hpost m' hm' t ht extraPath T.name hname) hd'
  have hx' := (hplaces T hT (path ++ extraPath) T.name).2 ⟨hmodulePath.symm, rfl⟩
  cases hx.symm.trans hx'
  obtain ⟨fields', hcons', t', ht', -⟩ := placeDataType_eq_template hplace
  -- it has the index of a template with that name, and there is only one
  rw [lookup_templateByTycon] at ht'
  obtain ⟨hmem', hindex⟩ := List.mem_filter.1 (List.mem_of_getLast? ht')
  have hindex' : t'.tyconInternedDname = d'.nameInternedDname := of_decide_eq_true hindex
  have hdname' := (isDataNamed_iff.1 (List.mem_filter.1 (List.mem_of_getLast? hd')).2).2
  have hsame : t = t' := by
    refine List.inj_on_of_nodup_map hdistinct ht hmem' ?_
    rw [templateName, templateName, hindex', hdname', hname]
  subst hsame
  exact ⟨_, d', hname, hd', hindex'.symm, fields', hcons'⟩

/-- A template with a record of its index is in the tree. -/
lemma exists_template_of_templatesBacked (h : P.TemplatesBacked m.module) {t : DefTemplate}
    (ht : t ∈ m.module.templates) : ∃ T, P.IsTemplateOf fuel m.module path t T ∧
      tree.dataTypeAt T.modulePath T.name = some (.template T) := by
  obtain ⟨s, d, hname, hlast, hindex, fields, hcons⟩ := h.backed t ht
  have hmem := List.mem_of_getLast? hlast
  obtain ⟨hd, hnamed⟩ := List.mem_filter.1 hmem
  obtain ⟨o, ho⟩ := exists_placeDataType_of_mem htree (hmodules ▸ by simp) hpath hd
  obtain ⟨extraPath, key, hdname, -⟩ := placeDataType_eq_ok ho
  cases (isDataNamed_iff.1 hnamed).2.symm.trans hdname
  obtain ⟨x, hplace, hx⟩ := dataTypeAt_of_namedDataTypes hmodules htree hpath
    (fun m' hm' => hpost m' hm' t ht extraPath key hname) hlast
  -- the names are distinct, so no other template has the index
  have hlookup : (templateByTycon m.module).lookup d.nameInternedDname = some t := by
    rw [lookup_templateByTycon]
    have hne : (m.module.templates.filter
        fun t => t.tyconInternedDname = d.nameInternedDname) ≠ [] :=
      List.ne_nil_of_mem (List.mem_filter.2 ⟨ht, decide_eq_true hindex.symm⟩)
    obtain ⟨t', ht'⟩ := Option.isSome_iff_exists.1 (List.getLast?_isSome.2 hne)
    obtain ⟨hmem', hindex'⟩ := List.mem_filter.1 (List.mem_of_getLast? ht')
    have hsame : t' = t := by
      refine List.inj_on_of_nodup_map h.nodup hmem' ht ?_
      rw [templateName, templateName, of_decide_eq_true hindex', hindex]
    rw [ht', hsame]
  obtain ⟨T, rfl⟩ : ∃ T, x = .template T := placeDataType_of_template hplace hcons hlookup
  obtain ⟨fields', hcons', t', ht', damlFields, hfields, hT⟩ := placeDataType_eq_template hplace
  cases hlookup.symm.trans ht'
  have hof : P.IsTemplateOf fuel m.module path t T :=
    ⟨extraPath, key, hname, d, hd, hdname, fields', hcons', damlFields, hfields, hT⟩
  refine ⟨T, hof, ?_⟩
  have hlabel := labelled_buildTemplate hT
  have hmodulePath : T.modulePath = path ++ extraPath := hlabel.modulePath
  have hkey : T.name = key := hlabel.name
  rw [hmodulePath, hkey, hx]

/-- The tree of a package keeps the templates of a module if and only if every template has a
record of its index and a name of its own, where no later module takes the place of one. -/
theorem keepsTemplates_iff :
    P.KeepsTemplates fuel m.module path tree ↔ P.TemplatesBacked m.module := by
  refine ⟨templatesBacked_of_keepsTemplates hmodules htree hpath hpost, fun h => ?_⟩
  obtain ⟨Ts, hTs⟩ := List.exists_forall₂
    fun t ht => exists_template_of_templatesBacked hmodules htree hpath hpost h ht
  have hof := hTs.imp fun _ _ hT => hT.1
  refine ⟨⟨Ts, hof, (nodup_templateName_iff hof).1 h.nodup, ?_⟩, ?_⟩
  · intro T hT q k
    obtain ⟨t, -, -, hfound⟩ := hTs.exists_left hT
    constructor
    · intro hq
      obtain ⟨rfl, rfl⟩ := label_of_buildModuleTree htree hq
      exact ⟨rfl, rfl⟩
    · rintro ⟨rfl, rfl⟩
      exact hfound
  · intro t ht extraPath key hname r hr
    obtain ⟨T, hof, hfound⟩ := exists_template_of_templatesBacked hmodules htree hpath hpost h ht
    obtain ⟨extraPath', hname', hmodulePath⟩ := hof.fullName_eq
    obtain ⟨rfl, hkey⟩ := List.append_inj' (Except.ok.inj (hname.symm.trans hname')) rfl
    cases hkey
    rw [hmodulePath] at hfound
    cases hfound.symm.trans hr

end Templates

/-- The module `Main` with the record `Ticket` and its template, which refers to it by an index. -/
def ticketModule (index : Int) : DamlModulePayload where
  nameIndex := 0
  flags := ⟨true, true, true⟩
  module :=
    { nameInternedDname := 0
      flags := some ⟨true, true, true⟩
      synonyms := []
      dataTypes := [⟨1, [], true, .record []⟩]
      values := []
      templates :=
        [⟨index, 2, none, some (.varInternedStr 2), [], some (.varInternedStr 2), none, []⟩]
      exceptions := []
      interfaces := [] }

/-- The name `Ticket` is interned twice. -/
def ticketPackage (index : Int) : DamlPackagePayload where
  name := "tickets"
  languageVersion := .lv2 .v1
  packageId := "pkg"
  internedStrings := ["Main", "Ticket", "this"]
  internedDottedNames := [[0], [1], [1]]
  internedTypes := []
  internedKinds := []
  internedExprs := []
  pkgNames := [("pkg", "tickets")]
  version := some "1.0.0"
  modules := [ticketModule index]

/-- The template has the index of the record. -/
theorem keepsTemplates_ticket : ∃ tree, (ticketPackage 1).buildModuleTree 1 = .ok tree ∧
    (ticketPackage 1).KeepsTemplates 1 (ticketModule 1).module ["Main"] tree := by
  have htree : ∃ tree, (ticketPackage 1).buildModuleTree 1 = .ok tree := ⟨_, rfl⟩
  obtain ⟨tree, htree⟩ := htree
  refine ⟨tree, htree, ?_⟩
  have hbacked : (ticketPackage 1).TemplatesBacked (ticketModule 1).module := by
    refine ⟨List.nodup_singleton _, List.forall_mem_singleton.2 ?_⟩
    exact ⟨["Ticket"], _, rfl, rfl, rfl, _, rfl⟩
  have hmodules : (ticketPackage 1).modules = [] ++ ticketModule 1 :: [] := rfl
  exact (keepsTemplates_iff hmodules htree rfl (List.forall_mem_nil _)).2 hbacked

/-- The template has the other index of the name: it is lost, and its record is kept as a record. -/
theorem not_keepsTemplates_alias : ¬ ∀ P : DamlPackagePayload, ∀ fuel tree,
    P.buildModuleTree fuel = .ok tree → ∀ m ∈ P.modules, ∀ path, P.modulePath m = .ok path →
      P.KeepsTemplates fuel m.module path tree := by
  intro hall
  have htree : ∃ tree, (ticketPackage 2).buildModuleTree 1 = .ok tree ∧
      ∃ r, tree.dataTypeAt ["Main"] "Ticket" = some (.record r) := ⟨_, rfl, _, rfl⟩
  obtain ⟨tree, htree, r, hr⟩ := htree
  have hkeeps := hall (ticketPackage 2) 1 tree htree (ticketModule 2) (List.mem_singleton_self _)
    ["Main"] rfl
  exact hkeeps.records _ (List.mem_singleton_self _) [] "Ticket" rfl r hr

end DamlPackagePayload

end DamlBindings.Lf
