import DamlBindings.Lf.DefinitionParts

/-!
# The references in a package

What a package refers to, anywhere in its message, and what a visit of the converted package sees
of it.  A visit sees neither values, nor what templates implement, nor the arguments of builtin
types without room for them, nor what the tree does not keep.
-/

namespace DamlBindings.Lf

open Proto PathTree DamlModuleBody

namespace Proto.Package

variable (package : Proto.Package)

/-- The part is somewhere in the message. -/
inductive Contains : Part → Prop where
  | dataType {m : Module} {d : DefDataType} {p : Part} :
      m ∈ package.modules → d ∈ m.dataTypes → p ∈ d.parts → Contains p
  | template {m : Module} {t : DefTemplate} {p : Part} :
      m ∈ package.modules → t ∈ m.templates → p ∈ t.parts → Contains p
  | synonym {m : Module} {s : DefTypeSyn} {p : Part} :
      m ∈ package.modules → s ∈ m.synonyms → p ∈ s.parts → Contains p
  | interface {m : Module} {i : DefInterface} {p : Part} :
      m ∈ package.modules → i ∈ m.interfaces → p ∈ i.parts → Contains p
  | exception {m : Module} {e : DefException} {p : Part} :
      m ∈ package.modules → e ∈ m.exceptions → p ∈ e.parts → Contains p
  | value {m : Module} {v : DefValue} {p : Part} :
      m ∈ package.modules → v ∈ m.values → p ∈ v.parts → Contains p
  | internedType {t : Ty} : t ∈ package.internedTypes → Contains (.type t)
  | internedExpr {e : Expr} : e ∈ package.internedExprs → Contains (.expr e)

/-- The interning tables of the message. -/
def tables : DamlPackageTables where
  name := ""
  languageVersion := .lv2 .v1
  packageId := ""
  internedStrings := package.internedStrings
  internedDottedNames := package.internedDottedNames
  internedTypes := package.internedTypes
  internedKinds := package.internedKinds
  internedExprs := package.internedExprs
  pkgNames := []

end Proto.Package

namespace DamlPackageTables

variable (P : DamlPackageTables)

/-- A reference to a type constructor, a type synonym or a value. -/
inductive Reference where
  | type (r : TypeRef)
  | value (id : ValueId)

/-- The module that a reference is to. -/
def Reference.module : Reference → Option ModuleId
  | .type (.con id) => id.module
  | .type (.syn id) => id.module
  | .value id => id.module

/-- All references in an occurrence. -/
def occurrenceReferences (m : Nat) : Occurrence → List Reference
  | .tycon id => [.type (.con id)]
  | .value id => [.value id]
  | .type t => (P.typeRefs m t).map .type

/-- The references that a visit sees. -/
def seenReferences (m : Nat) : Occurrence → List Reference
  | .tycon id => [.type (.con id)]
  | .value _ => []
  | .type t => (P.keptTypeRefs m t).map .type

/-- The package that a reference is to, from the package `selfId`. -/
def targetPackage (selfId : String) (r : Reference) : Option String :=
  match r.module.bind ModuleId.packageId with
  | some .selfPackageId => some selfId
  | some (.importedPackageIdInternedStr i) => (P.resolveString i).toOption
  | _ => none

/-- The last segment of the dotted name of an exception. -/
def exceptionKey (d : DefException) : Option String :=
  (P.resolveDotted d.nameInternedDname).toOption.bind List.getLast?

/-- The exceptions of a module with a last segment, as they are listed. -/
def exceptionsNamed (module : Module) (name : String) : List DefException :=
  module.exceptions.filter fun d => P.exceptionKey d = some name

/-- The part is in a synonym of the module, or in the last interface, exception or value with its
name. -/
inductive WalksIn (module : Module) : Part → Prop where
  | synonym {s : DefTypeSyn} {p : Part} : s ∈ module.synonyms → p ∈ s.parts → WalksIn module p
  | interface {name : String} {i : DefInterface} {p : Part} :
      (P.interfacesNamed module name).getLast? = some i → p ∈ i.parts → WalksIn module p
  | exception {name : String} {e : DefException} {p : Part} :
      (P.exceptionsNamed module name).getLast? = some e → p ∈ e.parts → WalksIn module p
  | value {name : String} {v : DefValue} {p : Part} :
      (P.valuesNamed module name).getLast? = some v → p ∈ v.parts → WalksIn module p

end DamlPackageTables

/-- The package with the id `selfId` refers to the package `id` from somewhere in its message. -/
def Proto.Package.RefersAnywhere (package : Proto.Package) (selfId id : String) : Prop :=
  ∃ p, package.Contains p ∧ ∃ m, ∃ o ∈ package.tables.occurrences m [p],
    ∃ r ∈ package.tables.occurrenceReferences m o, package.tables.targetPackage selfId r = some id

namespace DamlPackagePayload

open DamlPackageTables

variable (P : DamlPackagePayload)

/-- The part is in a definition that the tree keeps, and not in what a template implements. -/
inductive Walks : Part → Prop where
  | dataType {m : DamlModulePayload} {d : DefDataType} {p : Part} :
      P.IsLastDataType m d → p ∈ d.walkedParts (templateByTycon m.module) → Walks p
  | definition {m : DamlModulePayload} {p : Part} :
      P.IsLastModule m → P.WalksIn m.module p → Walks p

/-- The package refers to the package `id` where a visit sees it. -/
def RefersSeen (id : String) : Prop :=
  id ≠ "" ∧ ∃ p, P.Walks p ∧ ∃ m, ∃ o ∈ P.occurrences m [p], ∃ r ∈ P.seenReferences m o,
    P.targetPackage "" r = some id

variable {P} {fuel m : Nat} {leaves : List ModuleLeaf}

/-! ### What is seen is there -/

lemma mem_of_getLast?_filter {α : Type} {p : α → Bool} {as : List α} {a : α}
    (h : (as.filter p).getLast? = some a) : a ∈ as :=
  List.mem_of_mem_filter (List.mem_of_getLast? h)

lemma IsLastModule.mem {m : DamlModulePayload} (h : P.IsLastModule m) : m ∈ P.modules := by
  obtain ⟨pre, post, path, hmodules, -⟩ := h
  simp [hmodules]

lemma IsLastDataType.mem {m : DamlModulePayload} {d : DefDataType} (h : P.IsLastDataType m d) :
    m ∈ P.modules ∧ d ∈ m.module.dataTypes := by
  obtain ⟨pre, post, path, extraPath, key, hmodules, -, hd, -⟩ := h
  exact ⟨by simp [hmodules], mem_of_getLast?_filter hd⟩

/-- A part of a data type that is walked is its own or that of a template of its name. -/
lemma mem_walkedParts {templates : List (Int × DefTemplate)} {d : DefDataType} {p : Part}
    (h : p ∈ d.walkedParts templates) :
    p ∈ d.parts ∨ ∃ t, templates.lookup d.nameInternedDname = some t ∧ p ∈ t.ownParts := by
  unfold DefDataType.walkedParts at h
  split at h
  · obtain h | h := List.mem_append.1 h
    · exact .inl h
    · obtain ⟨t, ht, hp⟩ := List.mem_flatMap.1 h
      exact .inr ⟨t, Option.mem_toList.1 ht, hp⟩
  · exact .inl h

lemma mem_of_templateByTycon {module : Module} {i : Int} {t : DefTemplate}
    (h : (templateByTycon module).lookup i = some t) : t ∈ module.templates := by
  obtain ⟨t', ht', heq⟩ := List.mem_map.1 (AssocMap.mem_of_lookup_ofList h)
  cases heq
  exact ht'

/-- Only the interned types matter for the references in a type. -/
lemma typeRefs_congr {P Q : DamlPackageTables} (h : P.internedTypes = Q.internedTypes) (m : Nat)
    (t : Ty) : P.typeRefs m t = Q.typeRefs m t := by
  induction m generalizing t with
  | zero => rfl
  | succ m ih =>
    have hfun : P.typeRefs m = Q.typeRefs m := funext ih
    cases t <;> simp only [typeRefs, h, hfun]

lemma partOccurrences_congr {P Q : DamlPackageTables} (h : P.internedExprs = Q.internedExprs) :
    P.partOccurrences = Q.partOccurrences := by
  ext occurrences p
  cases p <;> simp only [partOccurrences, h]

/-- Only the interned expressions matter for the occurrences in an expression. -/
lemma exprOccurrences_congr {P Q : DamlPackageTables} (h : P.internedExprs = Q.internedExprs)
    (m : Nat) (e : Expr) : P.exprOccurrences m e = Q.exprOccurrences m e := by
  induction m generalizing e with
  | zero => rfl
  | succ m ih =>
    have hfun : P.exprOccurrences m = Q.exprOccurrences m := funext ih
    rw [exprOccurrences, exprOccurrences, hfun, partOccurrences_congr h]

lemma occurrences_congr {P Q : DamlPackageTables} (h : P.internedExprs = Q.internedExprs) (m : Nat)
    (ps : List Part) : P.occurrences m ps = Q.occurrences m ps := by
  have hfun : P.exprOccurrences m = Q.exprOccurrences m := funext (exprOccurrences_congr h m)
  rw [occurrences, occurrences, hfun, partOccurrences_congr h]

section TryFrom

variable {hash : String} {version : LanguageVersion} {package : Proto.Package}
  (h : DamlPackagePayload.tryFrom hash version package = .ok P)

include h

lemma mem_modules_of_tryFrom {m : DamlModulePayload} (hm : m ∈ P.modules) :
    m.module ∈ package.modules := by
  simp only [DamlPackagePayload.tryFrom, Except.bind_eq_ok, Except.pure_eq_ok] at h
  obtain ⟨_, -, _, -, _, -, modules, hmodules, rfl⟩ := h
  obtain ⟨module, hmodule, hnew⟩ := (Except.mapM_eq_ok.1 hmodules).exists_left hm
  obtain ⟨flags, -, heq⟩ := Except.bind_eq_ok.1 hnew
  cases heq
  exact hmodule

lemma Walks.contains {p : Part} (hp : P.Walks p) : package.Contains p := by
  cases hp with
  | @dataType m d _ hlast hp =>
    have hm := mem_modules_of_tryFrom h hlast.mem.1
    obtain hp | ⟨t, ht, hp⟩ := mem_walkedParts hp
    · exact .dataType hm hlast.mem.2 hp
    · exact .template hm (mem_of_templateByTycon ht) (List.mem_append_left _ hp)
  | definition hlast hp =>
    have hm := mem_modules_of_tryFrom h hlast.mem
    cases hp with
    | synonym hs hp => exact .synonym hm hs hp
    | interface hi hp => exact .interface hm (mem_of_getLast?_filter hi) hp
    | exception he hp => exact .exception hm (mem_of_getLast?_filter he) hp
    | value hv hp => exact .value hm (mem_of_getLast?_filter hv) hp

/-- What is seen is there. -/
lemma RefersSeen.anywhere {selfId id : String} (hseen : P.RefersSeen id) :
    package.RefersAnywhere selfId id := by
  obtain ⟨hne, p, hp, m, o, ho, r, hr, htarget⟩ := hseen
  have hcontains := hp.contains h
  obtain ⟨hexprs, htypes, hstrings⟩ : package.tables.internedExprs = P.internedExprs ∧
      package.tables.internedTypes = P.internedTypes ∧
        package.tables.internedStrings = P.internedStrings := by
    simp only [DamlPackagePayload.tryFrom, Except.bind_eq_ok, Except.pure_eq_ok] at h
    obtain ⟨_, -, _, -, _, -, modules, -, rfl⟩ := h
    exact ⟨rfl, rfl, rfl⟩
  refine ⟨p, hcontains, m, o, (occurrences_congr hexprs m [p]).symm ▸ ho, r, ?_, ?_⟩
  · cases o with
    | tycon _ => exact hr
    | value _ => cases hr
    | type t =>
      obtain ⟨r', hr', rfl⟩ := List.mem_map.1 hr
      refine List.mem_map.2 ⟨r', ?_, rfl⟩
      rw [typeRefs_congr htypes]
      exact (typeRefs_perm m t).mem_iff.2 (List.mem_append_left _ hr')
  · -- a reference of the package to itself is not seen
    unfold targetPackage at htarget ⊢
    split at htarget
    · cases htarget
      exact absurd rfl hne
    · rwa [resolveString, hstrings]
    · cases htarget

end TryFrom

end DamlPackagePayload

/-! ### The names in a type -/

/-- The elements that make up types. -/
def Element.isTypeLevel : Element → Bool
  | .field _ => true
  | .type _ => true
  | .typeVar _ => true
  | .kind _ => true
  | .arrow _ _ => true
  | .var _ _ => true
  | .forAll _ _ => true
  | .struct _ => true
  | .syn _ _ => true
  | .tycon _ _ => true
  | .tyconName _ => true
  | .localTycon _ => true
  | .nonLocalTycon _ => true
  | .absoluteTycon _ => true
  | _ => false

lemma Element.isTypeLevel_visitedChildren {e : Element} (he : e.isTypeLevel = true) :
    ∀ c ∈ e.visitedChildren, c.isTypeLevel = true := by
  cases e with
  | type t => cases t <;> simp [visitedChildren, DamlType.elements, isTypeLevel]
  | kind k => cases k <;> simp [visitedChildren, DamlKind.elements, isTypeLevel]
  | tyconName n => cases n <;> simp [visitedChildren, DamlTyConName.elements, isTypeLevel]
  | field f => simp [visitedChildren, isTypeLevel]
  | typeVar v => simp [visitedChildren, isTypeLevel]
  | arrow params result => simp [visitedChildren, isTypeLevel, or_imp, forall_and]
  | var v args => simp [visitedChildren, isTypeLevel]
  | forAll vars body => simp [visitedChildren, isTypeLevel, or_imp, forall_and]
  | struct fields => simp [visitedChildren, isTypeLevel]
  | syn tysyn args => simp [visitedChildren, isTypeLevel]
  | tycon name args => simp [visitedChildren, isTypeLevel]
  | localTycon c => simp [visitedChildren]
  | nonLocalTycon c => simp [visitedChildren]
  | absoluteTycon c => simp [visitedChildren]
  | _ => cases he

/-- A type has no values in it. -/
lemma DamlType.mem_visitedNames_accept {t : DamlType} {x : VisitedName} :
    x ∈ visitedNames t.accept ↔ ∃ n ∈ t.tyconNames, x = .tycon n := by
  have hlevel : ∀ e, Worklist.Reaches Element.visitedChildren (.type t) e →
      e.isTypeLevel = true := by
    intro e hreach
    induction hreach with
    | refl => rfl
    | tail _ hc ih => exact Element.isTypeLevel_visitedChildren ih _ hc
  rw [tyconNames, mem_visited_iff t.isVisit_accept]
  simp only [mem_visited_iff t.isVisit_accept]
  constructor
  · rintro ⟨e, hreach, hx⟩
    have he := hlevel e hreach
    cases e with
    | tyconName n =>
      cases hx
      exact ⟨n, ⟨_, hreach, rfl⟩, rfl⟩
    | valueName n => cases he
    | _ => cases hx
  · rintro ⟨n, ⟨e, hreach, hn⟩, rfl⟩
    cases e with
    | tyconName n' =>
      cases hn
      exact ⟨_, hreach, rfl⟩
    | _ => cases hn

/-! ### The package of a converted reference -/

namespace DamlPackageTables

variable {P : DamlPackageTables} {m : Nat} {id : String}

lemma targetPackage_of_resolveModuleId {r : Reference} {module : ModuleId} {path : List String}
    (hmodule : r.module = some module) (h : P.resolveModuleId module = .ok (id, path)) :
    P.targetPackage P.packageId r = some id := by
  simp only [resolveModuleId, Except.bind_eq_ok, req_eq_ok, Except.pure_eq_ok, Prod.mk.injEq] at h
  obtain ⟨ref, hpackage, s, hs, path, -, rfl, rfl⟩ := h
  rw [targetPackage, hmodule, Option.bind_some, hpackage]
  cases ref with
  | selfPackageId =>
    cases hs
    rfl
  | importedPackageIdInternedStr i => exact Except.toOption_eq_some.2 hs
  | packageImportId i => cases hs
  | unset => cases hs

/-- The name that a reference to a type converts to is in the package that the reference is to. -/
lemma targetPackage_of_convertTypeRef {r : TypeRef} {n : DamlTyConName}
    (h : P.convertTypeRef r = .ok n) :
    (VisitedName.tycon n).targetPackage? = P.targetPackage P.packageId (.type r) := by
  cases r with
  | con c =>
    simp only [convertTypeRef, convertTyconId, Except.bind_eq_ok, req_eq_ok, Except.pure_eq_ok] at h
    obtain ⟨module, hmodule, ⟨s, path⟩, hresolve, _, -, _, -, rfl⟩ := h
    exact (targetPackage_of_resolveModuleId (r := .type (.con c)) hmodule hresolve).symm
  | syn c =>
    simp only [convertTypeRef, convertTysynId, Except.bind_eq_ok, req_eq_ok, Except.pure_eq_ok] at h
    obtain ⟨module, hmodule, ⟨s, path⟩, hresolve, _, -, _, -, rfl⟩ := h
    exact (targetPackage_of_resolveModuleId (r := .type (.syn c)) hmodule hresolve).symm

/-- The names of an occurrence are in the packages that its references are to, apart from those of
values, which are local. -/
lemma exists_targetPackage_iff {o : Occurrence} {ns : List VisitedName}
    (h : P.occurrenceNames m o = .ok ns) :
    (∃ x ∈ ns, x.targetPackage? = some id) ↔
      ∃ r ∈ P.seenReferences m o, P.targetPackage P.packageId r = some id := by
  cases o with
  | tycon c =>
    simp only [occurrenceNames, Run.lift_eq_ok, Except.map_eq_ok] at h
    obtain ⟨n, hn, rfl⟩ := h
    have htarget := targetPackage_of_convertTypeRef (r := .con c) hn
    simp [seenReferences, htarget]
  | value v =>
    simp only [occurrenceNames, Run.lift_eq_ok, Except.map_eq_ok] at h
    obtain ⟨n, hn, rfl⟩ := h
    simp only [convertValueId, Except.bind_eq_ok, Except.pure_eq_ok] at hn
    obtain ⟨_, -, _, -, _, -, _, -, _, -, _, -, rfl⟩ := hn
    simp [seenReferences, VisitedName.targetPackage?]
  | type t =>
    obtain ⟨d, hd, rfl⟩ := Except.map_eq_ok.1 h
    have hall := keptTypeRefs_convertType hd (Nat.le_refl m)
    simp only [DamlType.mem_visitedNames_accept, seenReferences, List.mem_map]
    constructor
    · rintro ⟨_, ⟨n, hn, rfl⟩, htarget⟩
      obtain ⟨r, hr, hconv⟩ := hall.exists_left hn
      exact ⟨_, ⟨r, hr, rfl⟩, (targetPackage_of_convertTypeRef hconv).symm.trans htarget⟩
    · rintro ⟨_, ⟨r, hr, rfl⟩, htarget⟩
      obtain ⟨n, hn, hconv⟩ := hall.exists_right hr
      exact ⟨_, ⟨n, hn, rfl⟩, (targetPackage_of_convertTypeRef hconv).trans htarget⟩

/-! ### More fuel -/

lemma keptTypeRefs_mono {m' : Nat} (h : m ≤ m') {t : Ty} {r : TypeRef}
    (hr : r ∈ P.keptTypeRefs m t) : r ∈ P.keptTypeRefs m' t := by
  induction m generalizing m' t with
  | zero => cases hr
  | succ m ih =>
    obtain ⟨k, rfl⟩ : ∃ k, m' = k + 1 := ⟨m' - 1, by omega⟩
    have hargs : ∀ args : List Ty,
        r ∈ args.flatMap (P.keptTypeRefs m) → r ∈ args.flatMap (P.keptTypeRefs k) := by
      intro args hr
      obtain ⟨t, ht, hr⟩ := List.mem_flatMap.1 hr
      exact List.mem_flatMap.2 ⟨t, ht, ih (by omega) hr⟩
    cases t with
    | var v args => exact hargs args hr
    | con c args => exact List.mem_append.2 ((List.mem_append.1 hr).imp_right (hargs args))
    | syn s args => exact List.mem_append.2 ((List.mem_append.1 hr).imp_right (hargs args))
    | builtin b args =>
      simp only [keptTypeRefs] at hr ⊢
      split_ifs at hr ⊢
      · exact hargs args hr
      · cases hr
    | forAll vars body => exact hargs body.toList hr
    | struct fields =>
      obtain ⟨f, hf, hr⟩ := List.mem_flatMap.1 hr
      exact List.mem_flatMap.2 ⟨f, hf, hargs f.type.toList hr⟩
    | internedType i => exact hargs (entryAt P.internedTypes i).toList hr
    | nat n => cases hr
    | tapp => cases hr
    | unset => cases hr

lemma exprOccurrences_mono {m' : Nat} (h : m ≤ m') {e : Expr} {o : Occurrence}
    (ho : o ∈ P.exprOccurrences m e) : o ∈ P.exprOccurrences m' e := by
  induction m generalizing m' e with
  | zero => cases ho
  | succ m ih =>
    obtain ⟨k, rfl⟩ : ∃ k, m' = k + 1 := ⟨m' - 1, by omega⟩
    obtain ⟨p, hp, ho⟩ := List.mem_flatMap.1 ho
    refine List.mem_flatMap.2 ⟨p, hp, ?_⟩
    cases p with
    | expr e => exact ih (by omega) ho
    | internedExpr i =>
      obtain ⟨e, he, ho⟩ := List.mem_flatMap.1 ho
      exact List.mem_flatMap.2 ⟨e, he, ih (by omega) ho⟩
    | _ => exact ho

lemma occurrences_mono {m' : Nat} (h : m ≤ m') {ps : List Part} {o : Occurrence}
    (ho : o ∈ P.occurrences m ps) : o ∈ P.occurrences m' ps := by
  obtain ⟨p, hp, ho⟩ := List.mem_flatMap.1 ho
  refine List.mem_flatMap.2 ⟨p, hp, ?_⟩
  cases p with
  | expr e => exact exprOccurrences_mono h ho
  | internedExpr i =>
    obtain ⟨e, he, ho⟩ := List.mem_flatMap.1 ho
    exact List.mem_flatMap.2 ⟨e, he, exprOccurrences_mono h ho⟩
  | _ => exact ho

lemma seenReferences_mono {m' : Nat} (h : m ≤ m') {o : Occurrence} {r : Reference}
    (hr : r ∈ P.seenReferences m o) : r ∈ P.seenReferences m' o := by
  cases o with
  | tycon c => exact hr
  | value v => exact hr
  | type t =>
    obtain ⟨r', hr', rfl⟩ := List.mem_map.1 hr
    exact List.mem_map.2 ⟨r', keptTypeRefs_mono h hr', rfl⟩

/-! ### What a part shows -/

variable (P m) in
/-- A name is entered in what a part converts to. -/
def PartShows (p : Part) (x : VisitedName) : Prop :=
  ∃ o ∈ P.occurrences m [p], ∃ ns, P.occurrenceNames m o = .ok ns ∧ x ∈ ns

lemma mem_occurrences_iff {ps : List Part} {o : Occurrence} :
    o ∈ P.occurrences m ps ↔ ∃ p ∈ ps, o ∈ P.occurrences m [p] := by
  simp [occurrences]

/-- What a converted definition shows is what its parts show. -/
lemma Named.shows_iff {ps : List Part} {e : Element} {cs : List Callback}
    (h : P.Named m (P.occurrences m ps) (visitedNames cs)) (hvisit : IsVisit e cs)
    {x : VisitedName} : e.Shows x ↔ ∃ p ∈ ps, P.PartShows m p x := by
  rw [Element.shows_iff_mem hvisit, h.mem_iff]
  constructor
  · rintro ⟨o, ho, hns⟩
    obtain ⟨p, hp, ho⟩ := mem_occurrences_iff.1 ho
    exact ⟨p, hp, o, ho, hns⟩
  · rintro ⟨p, hp, o, ho, hns⟩
    exact ⟨o, mem_occurrences_iff.2 ⟨p, hp, ho⟩, hns⟩

/-- Definitions that are kept under their names show what the parts of those show that are listed
last under a name. -/
lemma exists_shows_iff {D X : Type} {entries : List (String × X)} {last : String → Option D}
    {R : D → X → Prop} {parts : D → List Part} {element : X → Element} {x : VisitedName}
    (hnodup : (AssocMap.keys entries).Nodup)
    (hlookup : ∀ {name v}, entries.lookup name = some v ↔ ∃ d, last name = some d ∧ R d v)
    (hconverts : ∀ name d, last name = some d → ∃ v, R d v)
    (hshows : ∀ d v, R d v → ((element v).Shows x ↔ ∃ p ∈ parts d, P.PartShows m p x)) :
    (∃ e ∈ entries, (element e.2).Shows x) ↔
      ∃ name d, last name = some d ∧ ∃ p ∈ parts d, P.PartShows m p x := by
  constructor
  · rintro ⟨e, he, hx⟩
    obtain ⟨d, hd, hR⟩ := hlookup.1 ((AssocMap.lookup_eq_some_iff hnodup).2 he)
    exact ⟨e.1, d, hd, (hshows d _ hR).1 hx⟩
  · rintro ⟨name, d, hd, hx⟩
    obtain ⟨v, hR⟩ := hconverts name d hd
    exact ⟨(name, v), AssocMap.mem_of_lookup (hlookup.2 ⟨d, hd, hR⟩), (hshows d v hR).2 hx⟩

section Module

variable {fuel : Nat} {module : Module} {path : List String} {x : VisitedName} (hm : fuel ≤ m)

include hm

lemma shows_buildSynonyms {synonyms : List DamlDefTypeSyn}
    (h : P.buildSynonyms fuel module path = .ok synonyms) :
    (∃ s ∈ synonyms, (Element.defTypeSyn s).Shows x) ↔
      ∃ s ∈ module.synonyms, ∃ p ∈ s.parts, P.PartShows m p x := by
  have hall := Except.mapM_eq_ok.1 h
  have hshows : ∀ s d, P.buildSynonym fuel path s = .ok d →
      ((Element.defTypeSyn d).Shows x ↔ ∃ p ∈ s.parts, P.PartShows m p x) :=
    fun s d hd => (named_buildSynonym hm hd).shows_iff d.isVisit_accept
  constructor
  · rintro ⟨d, hd, hx⟩
    obtain ⟨s, hs, hsd⟩ := hall.exists_left hd
    exact ⟨s, hs, (hshows s d hsd).1 hx⟩
  · rintro ⟨s, hs, hx⟩
    obtain ⟨d, hd, hsd⟩ := hall.exists_right hs
    exact ⟨d, hd, (hshows s d hsd).2 hx⟩

lemma shows_buildInterfaces {interfaces : List (String × DamlInterface)}
    (h : P.buildInterfaces fuel module path = .ok interfaces) :
    (∃ i ∈ interfaces, (Element.interface i.2).Shows x) ↔
      ∃ name i, (P.interfacesNamed module name).getLast? = some i ∧
        ∃ p ∈ i.parts, P.PartShows m p x := by
  obtain ⟨is, his, heq⟩ := Except.map_eq_ok.1 h
  refine exists_shows_iff (R := fun d i => P.convertInterface fuel path d = .ok i)
    (heq ▸ AssocMap.nodup_keys_ofList _) (lookup_buildInterfaces h) ?_
    fun d i hd => (named_convertInterface hm hd).shows_iff i.isVisit_accept
  intro name d hd
  obtain ⟨i, -, hi⟩ := (Except.mapM_eq_ok.1 his).exists_right (List.mem_of_mem_filter
    (List.mem_of_getLast? hd))
  exact ⟨i, hi⟩

lemma shows_buildExceptions {exceptions : List (String × DamlException)}
    (h : P.buildExceptions fuel module path = .ok exceptions) :
    (∃ e ∈ exceptions, (Element.exception e.2).Shows x) ↔
      ∃ name e, (P.exceptionsNamed module name).getLast? = some e ∧
        ∃ p ∈ e.parts, P.PartShows m p x := by
  obtain ⟨es, hes, rfl⟩ := Except.map_eq_ok.1 h
  have hall := Except.mapM_eq_ok.1 hes
  have hkey : ∀ d e, P.convertException fuel path d = .ok e → P.exceptionKey d = some e.name := by
    intro d e hd
    simp only [convertException, splitDefinitionName, Except.bind_eq_ok, Run.lift_eq_ok,
      Except.map_eq_ok] at hd
    obtain ⟨⟨name, extraPath⟩, ⟨s, hs, hsplit⟩, message, -, rfl⟩ := hd
    rcases hlast : s.getLast? with _ | last <;> rw [hlast] at hsplit
    · cases hsplit
    · cases hsplit
      simp [exceptionKey, hs, hlast]
  refine exists_shows_iff (R := fun d e => P.convertException fuel path d = .ok e)
    (AssocMap.nodup_keys_ofList _) (AssocMap.lookup_ofList_of_forall₂ hall hkey ?_) ?_
    fun d e hd => (named_convertException hm hd).shows_iff e.isVisit_accept
  · intro d e e' he he'
    exact Except.ok.inj (he.symm.trans he')
  · intro name d hd
    obtain ⟨e, -, he⟩ := hall.exists_right (List.mem_of_mem_filter (List.mem_of_getLast? hd))
    exact ⟨e, he⟩

lemma shows_buildValues {values : List (String × DamlDefValue)}
    (h : P.buildValues fuel module = .ok values) :
    (∃ v ∈ values, (Element.defValue v.2).Shows x) ↔
      ∃ name v, (P.valuesNamed module name).getLast? = some v ∧
        ∃ p ∈ v.parts, P.PartShows m p x := by
  obtain ⟨vs, hvs, heq⟩ := Except.map_eq_ok.1 h
  refine exists_shows_iff (R := fun d v => P.convertDefValue fuel d = .ok v)
    (heq ▸ AssocMap.nodup_keys_ofList _) (lookup_buildValues h) ?_
    fun d v hd => (named_convertDefValue hm hd).shows_iff v.isVisit_accept
  intro name d hd
  obtain ⟨v, -, hv⟩ := (Except.mapM_eq_ok.1 hvs).exists_right (List.mem_of_mem_filter
    (List.mem_of_getLast? hd))
  exact ⟨v, hv⟩

/-- The definitions of a module other than its data types. -/
lemma shows_convertModule {d : DamlModulePayload} {l : ModuleLeaf}
    (h : P.convertModule fuel d = .ok l) :
    ((∃ s ∈ l.synonyms, (Element.defTypeSyn s).Shows x) ∨
      (∃ i ∈ l.interfaces, (Element.interface i.2).Shows x) ∨
      (∃ e ∈ l.exceptions, (Element.exception e.2).Shows x) ∨
      ∃ v ∈ l.values, (Element.defValue v.2).Shows x) ↔
      ∃ p, P.WalksIn d.module p ∧ P.PartShows m p x := by
  obtain ⟨-, -, hss, his, hes, hvs⟩ := convertedParts_of_ok h
  rw [shows_buildSynonyms hm hss, shows_buildInterfaces hm his, shows_buildExceptions hm hes,
    shows_buildValues hm hvs]
  constructor
  · rintro (⟨s, hs, p, hp, hx⟩ | ⟨_, i, hi, p, hp, hx⟩ | ⟨_, e, he, p, hp, hx⟩ |
      ⟨_, v, hv, p, hp, hx⟩)
    · exact ⟨p, .synonym hs hp, hx⟩
    · exact ⟨p, .interface hi hp, hx⟩
    · exact ⟨p, .exception he hp, hx⟩
    · exact ⟨p, .value hv hp, hx⟩
  · rintro ⟨p, hp, hx⟩
    cases hp with
    | synonym hs hp => exact .inl ⟨_, hs, p, hp, hx⟩
    | interface hi hp => exact .inr (.inl ⟨_, _, hi, p, hp, hx⟩)
    | exception he hp => exact .inr (.inr (.inl ⟨_, _, he, p, hp, hx⟩))
    | value hv hp => exact .inr (.inr (.inr ⟨_, _, hv, p, hp, hx⟩))

end Module

end DamlPackageTables

lemma DamlModuleBody.exists_definitions_iff {b : DamlModuleBody} {Q : Element → Prop} :
    (∃ e ∈ b.definitions, Q e) ↔
      (∃ d ∈ b.dataTypes, Q (.data d.2)) ∨ (∃ s ∈ b.synonyms, Q (.defTypeSyn s)) ∨
        (∃ i ∈ b.interfaces, Q (.interface i.2)) ∨ (∃ e ∈ b.exceptions, Q (.exception e.2)) ∨
        ∃ v ∈ b.values, Q (.defValue v.2) := by
  simp only [definitions, List.mem_append, or_and_right, exists_or, List.mem_map,
    exists_exists_and_eq_and, or_assoc]
  exact or_left_comm

namespace DamlPackagePayload

open DamlPackageTables

variable {P : DamlPackagePayload} {fuel m : Nat} {leaves : List ModuleLeaf}

/-- The data types in the tree show the parts of the last data types. -/
lemma shows_dataTypes_iff (hconv : P.Converted fuel P.modules leaves) (hm : fuel ≤ m)
    {x : VisitedName} :
    (∃ q b, valAt (DamlModule.ofLeaves leaves) q = some b ∧
      ∃ d ∈ b.dataTypes, (Element.data d.2).Shows x) ↔
      ∃ p, (∃ m d, P.IsLastDataType m d ∧ p ∈ d.walkedParts (templateByTycon m.module)) ∧
        P.PartShows m p x := by
  -- a data type shows what is in its walked parts, at whatever place it is put
  have hdata : ∀ {m' : DamlModulePayload} {d path} {place : PlacedData},
      P.placeDataType fuel m'.module path d = .ok (some place) →
      ((Element.data place.data).Shows x ↔
        ∃ p ∈ d.walkedParts (templateByTycon m'.module), P.PartShows m p x) := by
    intro m' d path place hplace
    simp only [placeDataType, Except.bind_eq_ok, Except.pure_eq_ok] at hplace
    obtain ⟨s, -, ⟨key, extraPath⟩, -, o, ho, hplace⟩ := hplace
    obtain ⟨y, rfl, rfl⟩ := Option.map_eq_some_iff.1 hplace
    exact (named_buildDataType hm ho).shows_iff y.isVisit_accept
  -- no key occurs twice, so to be in a table is to be found there
  have hkept : ∀ y, (∃ q b, valAt (DamlModule.ofLeaves leaves) q = some b ∧
      ∃ d ∈ b.dataTypes, d.2 = y) ↔
        ∃ q k, (DamlModule.ofLeaves leaves).dataTypeAt q k = some y := by
    intro y
    constructor
    · rintro ⟨q, b, hb, e, he, rfl⟩
      refine ⟨q, e.1, Option.bind_eq_some_iff.2 ⟨b, hb, ?_⟩⟩
      exact (AssocMap.lookup_eq_some_iff (DamlModule.nodup_keys_dataTypes hb)).2 he
    · rintro ⟨q, k, hy⟩
      obtain ⟨b, hb, hlookup⟩ := Option.bind_eq_some_iff.1 hy
      exact ⟨q, b, hb, (k, y), AssocMap.mem_of_lookup hlookup, rfl⟩
  constructor
  · rintro ⟨q, b, hb, e, he, hx⟩
    obtain ⟨m', d, hlast, path, place, key, -, hplace⟩ :=
      (exists_dataTypeAt_iff hconv e.2).1 ((hkept e.2).1 ⟨q, b, hb, e, he, rfl⟩)
    obtain ⟨p, hp, hshows⟩ := (hdata hplace).1 hx
    exact ⟨p, ⟨m', d, hlast, hp⟩, hshows⟩
  · rintro ⟨p, ⟨m', d, hlast, hp⟩, hshows⟩
    obtain ⟨pre, post, path, extraPath, key, hmodules, hpath, hd, hpost⟩ := id hlast
    obtain ⟨x', hplace, hx'⟩ := dataTypeAt_of_namedDataTypes hmodules
      (buildModuleTree_eq_ok.2 ⟨leaves, hconv, rfl⟩) hpath hpost hd
    obtain ⟨q, b, hb, e, he, heq⟩ := (hkept x').2 ⟨_, _, hx'⟩
    exact ⟨q, b, hb, e, he, heq ▸ (hdata hplace).2 ⟨p, hp, hshows⟩⟩

/-- The other definitions in the tree show the parts of those of the last modules. -/
lemma shows_headers_iff (hconv : P.Converted fuel P.modules leaves) (hm : fuel ≤ m)
    {x : VisitedName} :
    (∃ q b, valAt (DamlModule.ofLeaves leaves) q = some b ∧
      ((∃ s ∈ b.synonyms, (Element.defTypeSyn s).Shows x) ∨
        (∃ i ∈ b.interfaces, (Element.interface i.2).Shows x) ∨
        (∃ e ∈ b.exceptions, (Element.exception e.2).Shows x) ∨
        ∃ v ∈ b.values, (Element.defValue v.2).Shows x)) ↔
      ∃ p, (∃ m, P.IsLastModule m ∧ P.WalksIn m.module p) ∧ P.PartShows m p x := by
  constructor
  · rintro ⟨q, b, hb, hx⟩
    obtain hempty | ⟨pre, l, post, rfl, rfl, hpost, hheader⟩ :=
      DamlModule.header_eq_or_exists_last hb
    · -- a node that no module is declared at has no definitions
      obtain ⟨-, hss, his, hes, hvs⟩ := DamlModule.same_header hempty
      simp [hss, his, hes, hvs, newEmpty] at hx
    obtain ⟨-, hss, his, hes, hvs⟩ := DamlModule.same_header hheader
    rw [hss, his, hes, hvs] at hx
    obtain ⟨mpre, m', mpost, hmodules, -, hl, hmpost⟩ :=
      (List.Forall₂.flip (R := flip _) hconv).exists_append_cons
    obtain ⟨p, hp, hshows⟩ := (shows_convertModule hm hl).1 hx
    refine ⟨p, ⟨m', ⟨mpre, mpost, l.path, hmodules, (convertModule_eq_ok hl).1, ?_⟩, hp⟩, hshows⟩
    intro m'' hm'' hpath
    obtain ⟨l', hl', hconv'⟩ := hmpost.exists_left hm''
    exact hpost l' hl' (Except.ok.inj ((convertModule_eq_ok hconv').1.symm.trans hpath))
  · rintro ⟨p, ⟨m', ⟨mpre, mpost, path, hmodules, hpath, hmpost⟩, hp⟩, hshows⟩
    rw [Converted, hmodules] at hconv
    obtain ⟨pre, l, post, rfl, -, hl, hpost⟩ := hconv.exists_append_cons
    obtain rfl := Except.ok.inj ((convertModule_eq_ok hl).1.symm.trans hpath)
    have hlast : ∀ l' ∈ post, l'.path ≠ l.path := by
      intro l' hl' hpath'
      obtain ⟨m'', hm'', hconv'⟩ := hpost.exists_left hl'
      exact hmpost m'' hm'' (hpath' ▸ (convertModule_eq_ok hconv').1)
    obtain ⟨b, hb, hheader⟩ : ∃ b, valAt (DamlModule.ofLeaves (pre ++ l :: post)) l.path = some b ∧
      b.header = ((newEmpty []).takeFrom l).header := DamlModule.exists_header_of_last hlast
    obtain ⟨-, hss, his, hes, hvs⟩ := DamlModule.same_header hheader
    refine ⟨l.path, b, hb, ?_⟩
    rw [hss, his, hes, hvs]
    exact (shows_convertModule hm hl).2 ⟨p, hp, hshows⟩

/-- A visit of the tree enters the names in the parts that it walks. -/
theorem shows_ofLeaves_iff (hconv : P.Converted fuel P.modules leaves) (hm : fuel ≤ m)
    {x : VisitedName} :
    (Element.module (DamlModule.ofLeaves leaves)).Shows x ↔ ∃ p, P.Walks p ∧ P.PartShows m p x := by
  have hdata := shows_dataTypes_iff hconv hm (x := x)
  have hheaders := shows_headers_iff hconv hm (x := x)
  rw [shows_module_iff (DamlModule.placed_ofLeaves leaves).1]
  constructor
  · rintro ⟨q, b, hb, hdef⟩
    obtain hx | hx := exists_definitions_iff.1 hdef
    · obtain ⟨p, ⟨m', d, hlast, hp⟩, hshows⟩ := hdata.1 ⟨q, b, hb, hx⟩
      exact ⟨p, .dataType hlast hp, hshows⟩
    · obtain ⟨p, ⟨m', hlast, hp⟩, hshows⟩ := hheaders.1 ⟨q, b, hb, hx⟩
      exact ⟨p, .definition hlast hp, hshows⟩
  · rintro ⟨p, hp, hshows⟩
    cases hp with
    | dataType hlast hp =>
      obtain ⟨q, b, hb, hx⟩ := hdata.2 ⟨p, ⟨_, _, hlast, hp⟩, hshows⟩
      exact ⟨q, b, hb, exists_definitions_iff.2 (.inl hx)⟩
    | definition hlast hp =>
      obtain ⟨q, b, hb, hx⟩ := hheaders.2 ⟨p, ⟨_, hlast, hp⟩, hshows⟩
      exact ⟨q, b, hb, exists_definitions_iff.2 (.inr hx)⟩

/-- What is walked converts. -/
lemma Walks.exists_occurrenceNames {p : Part} (h : P.Walks p)
    (hconv : P.Converted fuel P.modules leaves) (hm : fuel ≤ m) {o : Occurrence}
    (ho : o ∈ P.occurrences m [p]) : ∃ ns, P.occurrenceNames m o = .ok ns := by
  -- a part that was converted names its occurrences: each case finds the conversion it is in
  have hnamed : ∀ {ps names}, p ∈ ps → P.Named m (P.occurrences m ps) names →
      ∃ ns, P.occurrenceNames m o = .ok ns := by
    intro ps names hp hnames
    obtain ⟨nss, hnss, -⟩ := named_iff.1 hnames
    obtain ⟨ns, -, hns⟩ := hnss.exists_right (mem_occurrences_iff.2 ⟨p, hp, ho⟩)
    exact ⟨ns, hns⟩
  cases h with
  | dataType hlast hp =>
    obtain ⟨pre, post, path, extraPath, key, hmodules, hpath, hd, hpost⟩ := hlast
    obtain ⟨x, hplace, -⟩ := dataTypeAt_of_namedDataTypes hmodules
      (buildModuleTree_eq_ok.2 ⟨leaves, hconv, rfl⟩) hpath hpost hd
    simp only [placeDataType, Except.bind_eq_ok, Except.pure_eq_ok] at hplace
    obtain ⟨s, -, ⟨key', extraPath'⟩, -, data, hdata, hplace⟩ := hplace
    obtain ⟨y, rfl, -⟩ := Option.map_eq_some_iff.1 hplace
    exact hnamed hp (named_buildDataType hm hdata)
  | definition hlast hp =>
    obtain ⟨l, -, hl⟩ := hconv.exists_right hlast.mem
    obtain ⟨-, -, hss, his, hes, hvs⟩ := convertedParts_of_ok hl
    cases hp with
    | synonym hs hp =>
      obtain ⟨d, -, hd⟩ := (Except.mapM_eq_ok.1 hss).exists_right hs
      exact hnamed hp (named_buildSynonym hm hd)
    | interface hi hp =>
      obtain ⟨is, his, -⟩ := Except.map_eq_ok.1 his
      obtain ⟨d, -, hd⟩ := (Except.mapM_eq_ok.1 his).exists_right (mem_of_getLast?_filter hi)
      exact hnamed hp (named_convertInterface hm hd)
    | exception he hp =>
      obtain ⟨es, hes, -⟩ := Except.map_eq_ok.1 hes
      obtain ⟨d, -, hd⟩ := (Except.mapM_eq_ok.1 hes).exists_right (mem_of_getLast?_filter he)
      exact hnamed hp (named_convertException hm hd)
    | value hv hp =>
      obtain ⟨vs, hvs, -⟩ := Except.map_eq_ok.1 hvs
      obtain ⟨d, -, hd⟩ := (Except.mapM_eq_ok.1 hvs).exists_right (mem_of_getLast?_filter hv)
      exact hnamed hp (named_convertDefValue hm hd)

/-- A visit of the tree enters names of a package if and only if a reference that it sees is to the
package. -/
theorem exists_shows_iff_refersSeen (hconv : P.Converted fuel P.modules leaves)
    (hself : P.packageId = "") {id : String} :
    (id ≠ "" ∧ ∃ x, (Element.module (DamlModule.ofLeaves leaves)).Shows x ∧
      x.targetPackage? = some id) ↔ P.RefersSeen id := by
  refine and_congr_right fun _ => ?_
  constructor
  · rintro ⟨x, hx, htarget⟩
    obtain ⟨p, hp, o, ho, ns, hns, hxns⟩ := (shows_ofLeaves_iff hconv (Nat.le_refl fuel)).1 hx
    obtain ⟨r, hr, htarget⟩ := (exists_targetPackage_iff hns).1 ⟨x, hxns, htarget⟩
    exact ⟨p, hp, fuel, o, ho, r, hr, hself ▸ htarget⟩
  · rintro ⟨p, hp, m, o, ho, r, hr, htarget⟩
    -- enough fuel for the conversion and for the references
    have ho' := occurrences_mono (Nat.le_max_right fuel m) ho
    have hr' := seenReferences_mono (Nat.le_max_right fuel m) hr
    obtain ⟨ns, hns⟩ := hp.exists_occurrenceNames hconv (Nat.le_max_left fuel m) ho'
    obtain ⟨x, hxns, htarget⟩ := (exists_targetPackage_iff hns).2 ⟨r, hr', hself.symm ▸ htarget⟩
    exact ⟨x, (shows_ofLeaves_iff hconv (Nat.le_max_left fuel m)).2 ⟨p, hp, _, ho', ns, hns, hxns⟩,
      htarget⟩

end DamlPackagePayload

end DamlBindings.Lf
