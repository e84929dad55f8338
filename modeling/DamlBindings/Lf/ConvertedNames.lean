import DamlBindings.Lf.DataIdentity
import DamlBindings.Lf.Integrity
import DamlBindings.Lf.NameLookup

/-!
# Names in converted archives

A name of a type constructor in a converted package is absolute and has the name of the package
that it refers to.  The types and names that the generated code spells are those of fields, of
choices and of implemented interfaces.
-/

namespace DamlBindings.Lf

open Proto PathTree

namespace DamlPackageTables

variable {P : DamlPackageTables} {fuel : Nat}

/-- The name is absolute and has the name of its package. -/
def Names (P : DamlPackageTables) (n : DamlTyConName) : Prop :=
  ∃ c : DamlAbsoluteTyCon, n = .absolute c ∧ c.packageName = P.resolvePackageName c.packageId

/-- The names in a type are. -/
def NamesIn (P : DamlPackageTables) (t : DamlType) : Prop := ∀ n, t.Mentions n → P.Names n

lemma names_of_convertTyconId {id : TypeConId} {n : DamlTyConName}
    (h : P.convertTyconId id = .ok n) : P.Names n := by
  unfold convertTyconId at h
  obtain ⟨module, -, h⟩ := Except.bind_eq_ok.1 h
  obtain ⟨⟨pkgId, modulePath⟩, -, h⟩ := Except.bind_eq_ok.1 h
  obtain ⟨segments, -, h⟩ := Except.bind_eq_ok.1 h
  obtain ⟨⟨dataName, extraPath⟩, -, h⟩ := Except.bind_eq_ok.1 h
  cases h
  exact ⟨_, rfl, rfl⟩

lemma names_of_tycon {o : Option TypeConId} {n : DamlTyConName} (h : P.tycon o = .ok n) :
    P.Names n := by
  obtain ⟨id, -, hid⟩ := tycon_eq_ok.1 h
  exact names_of_convertTyconId hid

lemma namesIn_iff {t : DamlType} :
    P.NamesIn t ↔ (∀ n, t.head? = some n → P.Names n) ∧ ∀ c ∈ t.components, P.NamesIn c := by
  constructor
  · intro h
    exact ⟨fun n hn => h n (.head hn), fun c hc n hn => h n (.inside hc hn)⟩
  · rintro ⟨hhead, hcomponents⟩ n hn
    cases hn with
    | head h => exact hhead n h
    | inside hc h => exact hcomponents _ hc n h

/-- A type that is no type constructor has the names of its parts. -/
lemma namesIn_of_components {t : DamlType} (hhead : t.head? = none)
    (hcomponents : ∀ c ∈ t.components, P.NamesIn c) : P.NamesIn t := by
  refine namesIn_iff.2 ⟨fun n hn => ?_, hcomponents⟩
  rw [hhead] at hn
  cases hn

lemma namesIn_builtinType {kind : BuiltinType} {args : List DamlType} {t : DamlType}
    (h : builtinType kind args = .ok t) (hargs : ∀ a ∈ args, P.NamesIn a) : P.NamesIn t := by
  cases kind with
  | contractId =>
    unfold builtinType at h
    -- of the arguments of a contract id only the first is kept
    split_ifs at h
    cases h
    refine namesIn_of_components rfl fun c hc => hargs c ?_
    exact List.mem_of_head? (Option.mem_toList.1 hc)
  | numeric | optional | list | genmap | textmap =>
    cases h
    exact namesIn_of_components rfl hargs
  | _ =>
    cases h
    exact namesIn_of_components rfl (List.forall_mem_nil _)

/-- The names in a converted type are those of the package. -/
lemma namesIn_convertType {proto : Ty} {t : DamlType} (h : P.convertType fuel proto = .ok t) :
    P.NamesIn t := by
  induction fuel generalizing proto t with
  | zero => cases h
  | succ fuel ih =>
    have hargs : ∀ {protos : List Ty} {args : List DamlType},
        protos.mapM (P.convertType fuel) = .ok args → ∀ a ∈ args, P.NamesIn a := by
      intro protos args hprotos a ha
      obtain ⟨proto, -, hproto⟩ := (Except.mapM_eq_ok.1 hprotos).exists_left ha
      exact ih hproto
    cases proto with
    | var v protos =>
      obtain ⟨f, hf, args, hprotos, rfl⟩ := Except.seq_eq_ok.1 h
      obtain ⟨var, -, rfl⟩ := Except.map_eq_ok.1 hf
      exact namesIn_of_components rfl (hargs hprotos)
    | con c protos =>
      obtain ⟨f, hf, args, hprotos, rfl⟩ := Except.seq_eq_ok.1 h
      obtain ⟨n, hn, rfl⟩ := Except.map_eq_ok.1 hf
      -- the only case that brings in a name of its own
      refine namesIn_iff.2 ⟨fun n' hn' => ?_, hargs hprotos⟩
      cases hn'
      exact names_of_tycon hn
    | syn s protos =>
      obtain ⟨f, hf, args, hprotos, rfl⟩ := Except.seq_eq_ok.1 h
      obtain ⟨n, -, rfl⟩ := Except.map_eq_ok.1 hf
      exact namesIn_of_components rfl (hargs hprotos)
    | builtin b protos =>
      obtain ⟨kind, -, h⟩ := Except.bind_eq_ok.1 h
      obtain ⟨args, hprotos, h⟩ := Except.bind_eq_ok.1 h
      exact namesIn_builtinType (Run.lift_eq_ok.1 h) (hargs hprotos)
    | forAll vars body =>
      obtain ⟨f, hf, t, ht, rfl⟩ := Except.seq_eq_ok.1 h
      obtain ⟨params, -, rfl⟩ := Except.map_eq_ok.1 hf
      refine namesIn_of_components rfl (List.forall_mem_singleton.2 ?_)
      obtain ⟨proto, -, ht⟩ := required_eq_ok.1 ht
      exact ih ht
    | struct protos =>
      obtain ⟨fields, hfields, rfl⟩ := Except.map_eq_ok.1 h
      refine namesIn_of_components rfl (List.forall_mem_map.2 fun f hf => ?_)
      obtain ⟨proto, -, hproto⟩ := (Except.mapM_eq_ok.1 hfields).exists_left hf
      obtain ⟨g, hg, ty, hty, rfl⟩ := Except.seq_eq_ok.1 hproto
      obtain ⟨name, -, rfl⟩ := Except.map_eq_ok.1 hg
      obtain ⟨proto, -, hty⟩ := required_eq_ok.1 hty
      exact ih hty
    | nat n =>
      have hnat : convertNat n = .ok t := Run.lift_eq_ok.1 h
      unfold convertNat at hnat
      split_ifs at hnat
      cases hnat
      exact namesIn_of_components rfl (List.forall_mem_nil _)
    | internedType i =>
      obtain ⟨proto, -, h⟩ := Except.bind_eq_ok.1 h
      exact ih h
    | tapp => cases h
    | unset => cases h

lemma namesIn_type {o : Option Ty} {t : DamlType} (h : P.type fuel o = .ok t) : P.NamesIn t := by
  obtain ⟨proto, -, hproto⟩ := required_eq_ok.1 h
  exact namesIn_convertType hproto

lemma namesIn_convertField {proto : FieldWithType Ty} {f : DamlField DamlType}
    (h : P.convertField fuel proto = .ok f) : P.NamesIn f.ty := by
  obtain ⟨g, hg, ty, hty, rfl⟩ := Except.seq_eq_ok.1 h
  obtain ⟨name, -, rfl⟩ := Except.map_eq_ok.1 hg
  obtain ⟨proto, -, hty⟩ := required_eq_ok.1 hty
  exact namesIn_convertType hty

/-! ### Definitions -/

/-- The names in the types of the fields are those of the package. -/
def FieldsNamed (P : DamlPackageTables) (fields : List (DamlField DamlType)) : Prop :=
  ∀ f ∈ fields, P.NamesIn f.ty

lemma fieldsNamed_of_convertField {protos : List (FieldWithType Ty)}
    {fields : List (DamlField DamlType)} (h : protos.mapM (P.convertField fuel) = .ok fields) :
    P.FieldsNamed fields := by
  intro f hf
  obtain ⟨proto, -, hproto⟩ := (Except.mapM_eq_ok.1 h).exists_left hf
  exact namesIn_convertField hproto

lemma fieldsNamed_of_convertChoice {path : List String} {proto : TemplateChoice} {c : DamlChoice}
    (h : P.convertChoice fuel path proto = .ok c) : P.FieldsNamed c.fields := by
  unfold convertChoice at h
  split_ifs at h
  simp only [Except.seq_eq_ok, Except.map_eq_ok] at h
  obtain ⟨_, ⟨_, ⟨_, ⟨_, ⟨_, ⟨_, ⟨_, -, rfl⟩, _, -, rfl⟩, arg, harg, rfl⟩, _, -, rfl⟩, _, -, rfl⟩,
    _, -, rfl⟩, _, -, rfl⟩ := h
  refine List.forall_mem_singleton.2 ?_
  obtain ⟨proto, -, harg⟩ := required_eq_ok.1 harg
  obtain ⟨g, hg, ty, hty, rfl⟩ := Except.seq_eq_ok.1 harg
  obtain ⟨name, -, rfl⟩ := Except.map_eq_ok.1 hg
  exact namesIn_type hty

/-- The names that are rendered of a data type are those of the package. -/
structure DataNamed (P : DamlPackageTables) (d : DamlData) : Prop where
  members : P.FieldsNamed d.fields
  choices : ∀ c ∈ d.choices, P.FieldsNamed c.fields
  implements : ∀ n ∈ d.implements, P.Names n

lemma dataNamed_of_buildTemplate {template : DefTemplate} {name : String} {path : List String}
    {fields : List (DamlField DamlType)} {serializable : Bool} {t : DamlTemplate}
    (hfields : P.FieldsNamed fields)
    (h : P.buildTemplate fuel template name path fields serializable = .ok t) :
    P.DataNamed (.template t) := by
  simp only [buildTemplate, Except.seq_eq_ok, Except.map_eq_ok] at h
  obtain ⟨_, ⟨_, ⟨_, ⟨_, ⟨_, ⟨_, ⟨_, -, rfl⟩, choices, hchoices, rfl⟩, _, -, rfl⟩, implements,
    himplements, rfl⟩, _, -, rfl⟩, _, -, rfl⟩, _, -, rfl⟩ := h
  refine ⟨hfields, fun c hc => ?_, fun n hn => ?_⟩
  · obtain ⟨proto, -, hproto⟩ := (Except.mapM_eq_ok.1 hchoices).exists_left hc
    exact fieldsNamed_of_convertChoice hproto
  · obtain ⟨proto, -, hproto⟩ := (Except.mapM_eq_ok.1 himplements).exists_left hn
    exact names_of_tycon hproto

lemma dataNamed_of_buildDataType {templates : List (Int × DefTemplate)} {name : String}
    {path : List String} {d : DefDataType} {x : DamlData}
    (h : P.buildDataType fuel templates path name d = .ok (some x)) : P.DataNamed x := by
  have hplain : ∀ {x : DamlData}, P.FieldsNamed x.fields → x.choices = [] → x.implements = [] →
      P.DataNamed x := by
    intro x hfields hchoices himplements
    refine ⟨hfields, ?_, ?_⟩
    · rw [hchoices]
      exact List.forall_mem_nil _
    · rw [himplements]
      exact List.forall_mem_nil _
  unfold buildDataType at h
  obtain ⟨typeParams, -, h⟩ := Except.bind_eq_ok.1 h
  rcases hcons : d.dataCons with fields | fields | constructors | _ | _ <;> rw [hcons] at h
  · obtain ⟨damlFields, hfields, h⟩ := Except.bind_eq_ok.1 h
    have hnamed := fieldsNamed_of_convertField hfields
    rcases hlookup : templates.lookup d.nameInternedDname with _ | template <;> rw [hlookup] at h
    · cases h
      exact hplain hnamed rfl rfl
    · obtain ⟨t, ht, heq⟩ := Except.map_eq_ok.1 h
      cases heq
      exact dataNamed_of_buildTemplate hnamed ht
  · obtain ⟨damlFields, hfields, h⟩ := Except.bind_eq_ok.1 h
    cases h
    exact hplain (fieldsNamed_of_convertField hfields) rfl rfl
  · obtain ⟨names, -, h⟩ := Except.bind_eq_ok.1 h
    cases h
    exact hplain (List.forall_mem_nil _) rfl rfl
  · cases h
  · cases h

lemma fieldsNamed_of_convertInterface {path : List String} {d : DefInterface} {i : DamlInterface}
    (h : P.convertInterface fuel path d = .ok i) : ∀ c ∈ i.choices, P.FieldsNamed c.fields := by
  simp only [convertInterface, Except.bind_eq_ok, Except.seq_eq_ok, Except.map_eq_ok] at h
  obtain ⟨_, -, _, ⟨_, ⟨_, ⟨_, ⟨_, -, rfl⟩, _, -, rfl⟩, choices, hchoices, rfl⟩, _, -, rfl⟩, _, -,
    rfl⟩ := h
  intro c hc
  obtain ⟨proto, -, hproto⟩ := (Except.mapM_eq_ok.1 hchoices).exists_left hc
  exact fieldsNamed_of_convertChoice hproto

end DamlPackageTables

/-! ### Archives -/

namespace DamlArchive

variable {A : DamlArchive} {n : DamlTyConName}

/-- A data type that is found is in the module that the name spells. -/
lemma exists_entry_of_data {d : DamlData} (h : A.dataByTyconName n = some d) :
    ∃ package b, (n.packageId, package) ∈ A.packages ∧
      valAt package.rootModule n.modulePath = some b ∧ (n.dataName, d) ∈ b.dataTypes := by
  have hentry : ∀ {packageId modulePath dataName}, A.data packageId modulePath dataName = some d →
      ∃ package b, (packageId, package) ∈ A.packages ∧
        valAt package.rootModule modulePath = some b ∧ (dataName, d) ∈ b.dataTypes := by
    intro packageId modulePath dataName h
    obtain ⟨package, hpackage, h⟩ := Option.bind_eq_some_iff.1 h
    obtain ⟨m, hm, h⟩ := Option.bind_eq_some_iff.1 h
    exact ⟨package, m.val, AssocMap.mem_of_lookup hpackage, congrArg (Option.map PathTree.val) hm,
      AssocMap.mem_of_lookup h⟩
  cases n <;> exact hentry h

/-- An interface that is found is in the module that the name spells. -/
lemma exists_entry_of_interface {i : DamlInterface} (h : A.interfaceByTyconName n = some i) :
    ∃ package b key, (n.packageId, package) ∈ A.packages ∧
      valAt package.rootModule n.modulePath = some b ∧ (key, i) ∈ b.interfaces ∧
        i.name = n.dataName := by
  have hentry : ∀ {packageId modulePath name}, A.interface packageId modulePath name = some i →
      ∃ package b key, (packageId, package) ∈ A.packages ∧
        valAt package.rootModule modulePath = some b ∧ (key, i) ∈ b.interfaces ∧ i.name = name := by
    intro packageId modulePath name h
    obtain ⟨package, hpackage, h⟩ := Option.bind_eq_some_iff.1 h
    obtain ⟨m, hm, h⟩ := Option.bind_eq_some_iff.1 h
    obtain ⟨⟨key, i'⟩, hentry, rfl⟩ := List.mem_map.1 (List.mem_of_find?_eq_some h)
    exact ⟨package, m.val, key, AssocMap.mem_of_lookup hpackage,
      congrArg (Option.map PathTree.val) hm, hentry, by simpa using List.find?_some h⟩
  cases n <;> exact hentry h

end DamlArchive

namespace DamlArchivePayload

variable {A : DamlArchivePayload} {fuel : Nat} {archive : DamlArchive}

/-- Every payload of the archive knows the names of all of them. -/
def NamesAgree (A : DamlArchivePayload) : Prop :=
  ∀ e ∈ A.packages, ∀ e' ∈ A.packages, e.2.resolvePackageName e'.2.packageId = e'.2.name

lemma namesAgree_of_tryFrom {dar : DarFile} (h : tryFrom dar = .ok A) : A.NamesAgree := by
  obtain ⟨payloads, -, rfl⟩ := Except.map_eq_ok.1 h
  set packages := AssocMap.ofList (payloads.map fun p => (p.packageId, p))
  have hnodup : (AssocMap.keys packages).Nodup := AssocMap.nodup_keys_ofList _
  have hkey : ∀ e ∈ packages, e.2.packageId = e.1 := by
    intro e he
    obtain ⟨p, -, rfl⟩ := List.mem_map.1 (AssocMap.mem_of_mem_ofList he)
    rfl
  intro e he e' he'
  obtain ⟨p, hp, rfl⟩ := List.mem_map.1 he
  obtain ⟨p', hp', rfl⟩ := List.mem_map.1 he'
  have hlookup := (AssocMap.lookup_eq_some_iff hnodup).2 hp'
  show (if p'.2.packageId = p.2.packageId then p.2.name
    else ((AssocMap.mapValues (fun q : DamlPackagePayload => q.name) packages).lookup
      p'.2.packageId).getD "") = p'.2.name
  rw [hkey _ hp', hkey _ hp]
  split_ifs with heq
  · have hsame := (AssocMap.lookup_eq_some_iff hnodup).2 hp
    rw [← heq, hlookup] at hsame
    rw [Option.some.inj hsame]
  · rw [AssocMap.lookup_mapValues, hlookup]
    rfl

/-- A package of the archive and the payload that it is built from. -/
structure BuiltFrom (fuel : Nat) (P : DamlPackagePayload) (x : String × DamlPackage) : Prop where
  key : x.1 = P.packageId
  name : x.2.name = P.name
  packageId : x.2.packageId = P.packageId
  tree : ∃ leaves, P.Converted fuel P.modules leaves ∧ x.2.rootModule = DamlModule.ofLeaves leaves

lemma exists_builtFrom (h : A.buildArchive fuel = .ok archive) {x : String × DamlPackage}
    (hx : x ∈ archive.packages) : ∃ e ∈ A.packages, BuiltFrom fuel e.2 x := by
  obtain ⟨packages, hpackages, rfl⟩ := Except.map_eq_ok.1 h
  have hx : x ∈ packages := AssocMap.mem_of_mem_ofList hx
  obtain ⟨e, he, hbuild⟩ := (Except.mapM_eq_ok.1 hpackages).exists_left hx
  obtain ⟨package, hpackage, rfl⟩ := Except.map_eq_ok.1 hbuild
  obtain ⟨t, ht, rfl⟩ := Except.map_eq_ok.1 hpackage
  obtain ⟨leaves, hconv, rfl⟩ := DamlPackagePayload.buildModuleTree_eq_ok.1 ht
  exact ⟨e, he, rfl, rfl, rfl, leaves, hconv, rfl⟩

namespace BuiltFrom

open DamlPackageTables

variable {P : DamlPackagePayload} {x : String × DamlPackage} {q : List String} {b : DamlModuleBody}

/-- A data type of the package is where its labels say, and its names are those of the package. -/
lemma data (h : BuiltFrom fuel P x) (hb : valAt x.2.rootModule q = some b)
    {e : String × DamlData} (he : e ∈ b.dataTypes) :
    Labelled P.toDamlPackageTables q e.1 e.2 ∧ P.DataNamed e.2 := by
  obtain ⟨leaves, hconv, htree⟩ := h.tree
  rw [htree] at hb
  obtain ⟨l, hl, d, hd, rfl, rfl⟩ :=
    DamlModule.exists_leaf_of_dataType (DamlPackagePayload.name_of_converted hconv) hb he
  obtain ⟨m, -, -, proto, -, hproto⟩ :=
    DamlPackagePayload.exists_def_of_converted hconv hl hd
  refine ⟨(placeDataType_eq_some hproto).2.2, ?_⟩
  unfold placeDataType at hproto
  obtain ⟨s, -, hproto⟩ := Except.bind_eq_ok.1 hproto
  obtain ⟨⟨key, extraPath⟩, -, hproto⟩ := Except.bind_eq_ok.1 hproto
  obtain ⟨o, ho, hproto⟩ := Except.bind_eq_ok.1 hproto
  obtain ⟨y, rfl, rfl⟩ := Option.map_eq_some_iff.1 (Except.pure_eq_ok.1 hproto)
  exact dataNamed_of_buildDataType ho

/-- An interface of the package is in the module that declares it, under its last segment. -/
lemma interface (h : BuiltFrom fuel P x) (hb : valAt x.2.rootModule q = some b)
    {e : String × DamlInterface} (he : e ∈ b.interfaces) :
    e.2.name = e.1 ∧ e.2.packageId = P.packageId ∧ q <+: e.2.modulePath ∧
      ∀ c ∈ e.2.choices, P.FieldsNamed c.fields := by
  obtain ⟨leaves, hconv, htree⟩ := h.tree
  rw [htree] at hb
  obtain ⟨l, hl, rfl, he⟩ := DamlModule.exists_leaf_of_interface hb he
  obtain ⟨m, -, hm⟩ := hconv.exists_left hl
  obtain ⟨hname, d, -, hd⟩ := exists_of_mem_buildInterfaces (convertedParts_of_ok hm).interfaces he
  obtain ⟨extraPath, -, hpath⟩ := label_of_convertInterface hd
  refine ⟨hname, ?_, hpath ▸ List.prefix_append _ _, fieldsNamed_of_convertInterface hd⟩
  simp only [convertInterface, Except.bind_eq_ok, Except.seq_eq_ok, Except.map_eq_ok] at hd
  obtain ⟨_, -, _, ⟨_, ⟨_, ⟨_, ⟨_, -, rfl⟩, _, -, rfl⟩, _, -, rfl⟩, _, -, rfl⟩, _, -, heq⟩ := hd
  rw [← heq]

end BuiltFrom

end DamlArchivePayload

end DamlBindings.Lf
