import DamlBindings.Lf.ConvertedNames
import DamlBindings.Lf.PackageReferences
import DamlBindings.Util.IntoDar

/-!
# The packages that a filtered DAR keeps

`into_dar` with a filter keeps the packages that the search from the main package reaches.  The
search follows the references that a visit sees.
-/

namespace DamlBindings.Util

open Lf

/-! ### What is collected of a package -/

lemma mem_foldl_record {self : String} {pkgs acc : List String} {id : String} :
    id ∈ pkgs.foldl (record self) acc ↔ id ∈ acc ∨ id ∈ pkgs ∧ id ≠ "" ∧ id ≠ self := by
  induction pkgs generalizing acc with
  | nil => simp
  | cons pkg pkgs ih =>
    have hrecord : id ∈ record self acc pkg ↔ id ∈ acc ∨ id = pkg ∧ id ≠ "" ∧ id ≠ self := by
      rw [record]
      split_ifs with h
      · rw [List.mem_insert_iff]
        constructor
        · rintro (rfl | hid)
          · exact .inr ⟨rfl, h⟩
          · exact .inl hid
        · rintro (hid | ⟨rfl, -⟩)
          · exact .inr hid
          · exact .inl rfl
      · refine ⟨.inl, ?_⟩
        rintro (hid | ⟨rfl, hne⟩)
        · exact hid
        · exact absurd hne h
    rw [List.foldl_cons, ih, hrecord, List.mem_cons, or_and_right, or_assoc]

/-- What the visitor records at an element is the package of the name around it. -/
lemma referencedPackage?_eq_some {e : Element} {id : String} :
    referencedPackage? e = some id ↔
      ∃ x : VisitedName, e = x.inner ∧ x.targetPackage? = some id := by
  constructor
  · intro h
    cases e with
    | absoluteTycon c => exact ⟨.tycon (.absolute c), rfl, h⟩
    | nonLocalTycon c => exact ⟨.tycon (.nonLocal c), rfl, h⟩
    | nonLocalValueName c => exact ⟨.value (.nonLocal c), rfl, h⟩
    | _ => cases h
  · rintro ⟨(n | n), rfl, h⟩
    · cases n with
      | localTyCon c => cases h
      | nonLocal c => exact h
      | absolute c => exact h
    · cases n with
      | localValue c => cases h
      | nonLocal c => exact h

lemma mem_referencedPackages {package : DamlPackage} {id : String} :
    id ∈ referencedPackages package ↔ id ≠ "" ∧ id ≠ package.packageId ∧
      ∃ x, (Element.module package.rootModule).Shows x ∧ x.targetPackage? = some id := by
  have hshows : ∀ x, (Element.package package).Shows x ↔
      (Element.module package.rootModule).Shows x := by
    intro x
    rw [Element.shows_iff]
    simp [Element.name?, Element.visitedChildren]
  have hvisited : id ∈ visited referencedPackage? (package.accept ⟨fun _ => false⟩ []) ↔
      ∃ x, (Element.module package.rootModule).Shows x ∧ x.targetPackage? = some id := by
    rw [mem_visited_iff (DamlPackage.isVisit_accept _ package [])]
    constructor
    · rintro ⟨e, hreach, he⟩
      obtain ⟨x, rfl, htarget⟩ := referencedPackage?_eq_some.1 he
      exact ⟨x, (hshows x).1 ((Element.reaches_inner_iff rfl).1 hreach), htarget⟩
    · rintro ⟨x, hx, htarget⟩
      refine ⟨x.inner, (Element.reaches_inner_iff rfl).2 ((hshows x).2 hx), ?_⟩
      exact referencedPackage?_eq_some.2 ⟨x, rfl, htarget⟩
  rw [referencedPackages, mem_foldl_record, hvisited]
  simp only [List.not_mem_nil, false_or]
  tauto

/-- The view of a payload that the conversion reads, under the empty id. -/
def payloadView (payload : DamlLfArchivePayload) : DamlLfConvertResult DamlPackagePayload :=
  DamlPackagePayload.tryFrom "" payload.languageVersion payload.package

/-- The packages that are collected of a package are those it refers to where a visit sees it. -/
lemma mem_collectReferencedPackageIds {fuel : Nat} {payload : DamlLfArchivePayload}
    {refs : List String} (h : collectReferencedPackageIds fuel payload = .ok refs) :
    ∃ P, payloadView payload = .ok P ∧ ∀ id, id ∈ refs ↔ P.RefersSeen id := by
  obtain ⟨package, happly, rfl⟩ := Except.map_eq_ok.1 h
  simp only [applyPayload, applyDalf, Except.bind_eq_ok, Run.lift_eq_ok] at happly
  obtain ⟨P, hP, archive, harchive, hhead⟩ := happly
  have hself : P.packageId = "" := by
    simp only [DamlPackagePayload.tryFrom, Except.bind_eq_ok, Except.pure_eq_ok] at hP
    obtain ⟨_, -, _, -, _, -, _, -, rfl⟩ := hP
    rfl
  rcases hpackages : archive.packages with _ | ⟨entry, rest⟩ <;> rw [hpackages] at hhead
  · cases hhead
  cases hhead
  have hmem : entry ∈ archive.packages := hpackages ▸ List.mem_cons_self
  obtain ⟨e, he, hbuilt⟩ := DamlArchivePayload.exists_builtFrom harchive hmem
  obtain rfl := List.mem_singleton.1 he
  obtain ⟨leaves, hconv, htree⟩ := hbuilt.tree
  refine ⟨P, hP, fun id => ?_⟩
  rw [mem_referencedPackages, htree, hbuilt.packageId]
  show id ≠ "" ∧ id ≠ P.packageId ∧ _ ↔ _
  rw [hself, ← DamlPackagePayload.exists_shows_iff_refersSeen hconv hself]
  tauto

/-! ### Filtered DARs -/

section Filtered

variable (decoder : MessageDecoder) (packages : List Grpc.DamlPackage)

/-- The package with the first id refers to the package with the second id. -/
def Needs (id id' : String) : Prop :=
  ∃ p ∈ packages, p.hash = id ∧
    ∃ payload, fromBytes decoder p.payload = .ok payload ∧ payload.package.RefersAnywhere id id'

/-- The package with the first id refers to the package with the second id where a visit sees it. -/
def Sees (id id' : String) : Prop :=
  ∃ p ∈ packages, p.hash = id ∧
    ∃ payload P, fromBytes decoder p.payload = .ok payload ∧ payloadView payload = .ok P ∧
      P.RefersSeen id'

/-- The DAR has the packages that the main package needs, directly or through others, and nothing
else. -/
def KeepsNeeded (main : String) (dar : DarFile) : Prop :=
  ∃ kept : List Grpc.DamlPackage, kept.Sublist packages ∧
    (∀ p ∈ packages, p ∈ kept ↔
      Relation.ReflTransGen (Needs decoder packages) main p.hash) ∧
    ((dar.main :: dar.dependencies).map fun a =>
      (a.hash, (.ok (payloadOf a) : DamlResult DamlLfArchivePayload))).Perm
        (kept.map fun p => (p.hash, packageIntoPayload decoder p))

/-- Every package that is needed by a package which is reached over references that a visit sees
is reached over such references itself. -/
def NeedsSeen (main : String) : Prop :=
  ∀ id id', Relation.ReflTransGen (Sees decoder packages) main id → Needs decoder packages id id' →
    id' ∈ packages.map (·.hash) → Relation.ReflTransGen (Sees decoder packages) main id'

variable {decoder packages} {main : String}

lemma Sees.needs {id id' : String} (h : Sees decoder packages id id') :
    Needs decoder packages id id' := by
  obtain ⟨p, hp, hhash, payload, P, hpayload, hP, hseen⟩ := h
  exact ⟨p, hp, hhash, payload, hpayload, hseen.anywhere hP⟩

lemma reaches_needs_of_sees {id : String}
    (h : Relation.ReflTransGen (Sees decoder packages) main id) :
    Relation.ReflTransGen (Needs decoder packages) main id := by
  induction h with
  | refl => exact .refl
  | tail _ hsees ih => exact ih.tail hsees.needs

lemma exists_hash_of_needs {id id' : String} (h : Needs decoder packages id id') :
    id ∈ packages.map (·.hash) := by
  obtain ⟨p, hp, rfl, -⟩ := h
  exact List.mem_map_of_mem hp

/-- What is needed is reached over references that a visit sees. -/
lemma reaches_sees_of_needs (hseen : NeedsSeen decoder packages main) {id : String}
    (hreach : Relation.ReflTransGen (Needs decoder packages) main id)
    (hid : id ∈ packages.map (·.hash)) : Relation.ReflTransGen (Sees decoder packages) main id := by
  induction hreach with
  | refl => exact .refl
  | tail hreach hneeds ih => exact hseen _ _ (ih (exists_hash_of_needs hneeds)) hneeds hid

/-- The payload map has the payloads of the packages. -/
lemma lookup_payloadsById (hnodup : (packages.map (·.hash)).Nodup)
    {payloads : List (String × DamlLfArchivePayload)}
    (h : payloadsById decoder packages = .ok payloads) {id : String}
    {payload : DamlLfArchivePayload} :
    payloads.lookup id = some payload ↔
      ∃ p ∈ packages, p.hash = id ∧ fromBytes decoder p.payload = .ok payload := by
  obtain ⟨entries, hentries, rfl⟩ := Except.map_eq_ok.1 h
  have hall := Except.mapM_eq_ok.1 hentries
  have hkeys : AssocMap.keys entries = packages.map (·.hash) := by
    refine (hall.imp fun p e hentry => ?_ : List.Forall₂ (fun p e => p.hash = e.1) _ _).map_eq.symm
    obtain ⟨payload', -, rfl⟩ := Except.map_eq_ok.1 hentry
    rfl
  rw [AssocMap.ofList_eq_self (hkeys ▸ hnodup), AssocMap.lookup_eq_some_iff (hkeys ▸ hnodup)]
  constructor
  · intro hmem
    obtain ⟨p, hp, hentry⟩ := hall.exists_left hmem
    obtain ⟨payload', hpayload, heq⟩ := Except.map_eq_ok.1 hentry
    cases heq
    exact ⟨p, hp, rfl, packageIntoPayload_eq_ok.1 hpayload⟩
  · rintro ⟨p, hp, rfl, hpayload⟩
    obtain ⟨e, he, hentry⟩ := hall.exists_right hp
    obtain ⟨payload', hpayload', rfl⟩ := Except.map_eq_ok.1 hentry
    cases (packageIntoPayload_eq_ok.1 hpayload').symm.trans hpayload
    exact he

/-- On what the search reaches, what is collected is what a visit sees. -/
lemma refers_iff_sees (hnodup : (packages.map (·.hash)).Nodup) {fuel : Nat}
    {payloads : List (String × DamlLfArchivePayload)}
    (hpayloads : payloadsById decoder packages = .ok payloads) {id id' : String}
    (hwalk : Walkable fuel payloads id) :
    Refers fuel payloads id id' ↔ Sees decoder packages id id' := by
  constructor
  · rintro ⟨payload, refs, hlookup, hrefs, hid'⟩
    obtain ⟨p, hp, hhash, hpayload⟩ := (lookup_payloadsById hnodup hpayloads).1 hlookup
    obtain ⟨P, hP, hmem⟩ := mem_collectReferencedPackageIds hrefs
    exact ⟨p, hp, hhash, payload, P, hpayload, hP, (hmem id').1 hid'⟩
  · rintro ⟨p, hp, hhash, payload, P, hpayload, hP, hseen⟩
    have hlookup := (lookup_payloadsById hnodup hpayloads).2 ⟨p, hp, hhash, hpayload⟩
    obtain ⟨refs, hrefs⟩ := hwalk payload hlookup
    obtain ⟨P', hP', hmem⟩ := mem_collectReferencedPackageIds hrefs
    cases hP.symm.trans hP'
    exact ⟨payload, refs, hlookup, hrefs, (hmem id').2 hseen⟩

/-- A filtered DAR has the packages that are reached over references that a visit sees. -/
lemma keptPackages_eq_ok (hnodup : (packages.map (·.hash)).Nodup) {order : IterationOrder String}
    {fuel turns : Nat} {kept : List Grpc.DamlPackage}
    (h : keptPackages decoder order fuel turns packages true main = some (.ok kept)) :
    kept.Sublist packages ∧ ∀ p ∈ packages, p ∈ kept ↔
      Relation.ReflTransGen (Sees decoder packages) main p.hash := by
  obtain ⟨⟨⟩, -⟩ | ⟨-, payloads, ids, hpayloads, hreachable, rfl⟩ := keptPackages_eq_ok_iff.1 h
  obtain ⟨-, hmem, hwalk⟩ := reachableFrom_eq_ok hreachable
  have hiff : ∀ id, Relation.ReflTransGen (Refers fuel payloads) main id ↔
      Relation.ReflTransGen (Sees decoder packages) main id := by
    refine fun id => ⟨fun hreach => ?_, fun hreach => ?_⟩
    · induction hreach with
      | refl => exact .refl
      | tail hreach hrefers ih =>
        have hw := hwalk _ ((hmem _).2 hreach)
        exact ih.tail ((refers_iff_sees hnodup hpayloads hw).1 hrefers)
    · induction hreach with
      | refl => exact .refl
      | tail _ hsees ih =>
        have hw := hwalk _ ((hmem _).2 ih)
        exact ih.tail ((refers_iff_sees hnodup hpayloads hw).2 hsees)
  refine ⟨List.filter_sublist, fun p hp => ?_⟩
  rw [List.mem_filter, ← hiff, ← hmem]
  simp [hp]

end Filtered

/-- A decoder to which the empty payload is a package that refers to a type of the package `b`, and
any other payload a package without modules. -/
def referringDecoder : MessageDecoder where
  archivePayload bytes := .ok ⟨"1", some (.damlLf2 bytes)⟩
  package
    | [] => .ok referringPayload.package
    | _ :: _ => .ok { referringPayload.package with modules := [] }

def referringPackages : List Grpc.DamlPackage := [⟨[1], "c"⟩, ⟨[], "a"⟩, ⟨[1], "b"⟩]

/-- Only `a` refers to a package, and that is `b`. -/
lemma eq_of_needs_referring {id id' : String}
    (h : Needs referringDecoder referringPackages id id') :
    id = "a" ∧ id' = "b" := by
  obtain ⟨p, hp, rfl, payload, hpayload, part, hpart, m, o, ho, r, hr, htarget⟩ := h
  have hempty : payload.package.modules = [] → payload.package.internedTypes = [] →
      payload.package.internedExprs = [] → ¬ payload.package.Contains part := by
    intro hmodules htypes hexprs hpart
    cases hpart <;> simp_all
  simp only [referringPackages, List.mem_cons, List.not_mem_nil, or_false] at hp
  obtain rfl | rfl | rfl := hp
  · cases hpayload
    exact absurd hpart (hempty rfl rfl rfl)
  · refine ⟨rfl, ?_⟩
    cases hpayload
    have hpart : part ∈ [Proto.Part.string 2, Proto.Part.type importedType] := by
      rcases hpart with ⟨hm, hd, hp⟩ | ⟨hm, hd, -⟩ | ⟨hm, hd, -⟩ | ⟨hm, hd, -⟩ | ⟨hm, hd, -⟩ |
        ⟨hm, hd, -⟩ | hd | hd
      · obtain rfl := List.mem_singleton.1 hm
        obtain rfl := List.mem_singleton.1 hd
        exact hp
      all_goals first | cases hd | (obtain rfl := List.mem_singleton.1 hm; cases hd)
    simp only [List.mem_cons, List.not_mem_nil, or_false] at hpart
    obtain rfl | rfl := hpart
    · cases ho
    -- the field has that type, in which there is one reference
    obtain rfl := List.mem_singleton.1 ho
    rcases m with _ | m
    · cases hr
    · obtain rfl := List.mem_singleton.1 hr
      cases htarget
      rfl
  · cases hpayload
    exact absurd hpart (hempty rfl rfl rfl)

/-- The value `f` of the package `b`. -/
def importedValue : Proto.ValueId := ⟨some ⟨some (.importedPackageIdInternedStr 2), 0⟩, 1⟩

/-- A package with a value `B:f`, which is the value `f` of the package `b`. -/
def callingPackage : Proto.Package where
  modules := [
    { nameInternedDname := 0
      flags := some ⟨true, true, true⟩
      synonyms := []
      dataTypes := []
      values := [⟨some ⟨1, some (.builtin 1 [])⟩, some (.val importedValue)⟩]
      templates := []
      exceptions := []
      interfaces := [] }]
  internedStrings := ["B", "f", "b", "pkg", "1.0.0"]
  internedDottedNames := [[0], [1]]
  metadata := some ⟨3, 4⟩
  internedTypes := []
  internedKinds := []
  internedExprs := []

/-- A decoder to which every payload is that package. -/
def callingDecoder : MessageDecoder where
  archivePayload bytes := .ok ⟨"1", some (.damlLf2 bytes)⟩
  package _ := .ok callingPackage

end DamlBindings.Util
