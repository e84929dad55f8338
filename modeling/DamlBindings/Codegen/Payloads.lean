import DamlBindings.Codegen.ModuleItems
import DamlBindings.Lf.NestedData

/-!
# Data types with dotted names in the generated code

A data type with a dotted name goes to a module of its own, which should be rendered with the
module that declares it.  It is, unless some other module of the package gets between the two,
or puts another data type in its place.
-/

namespace DamlBindings.Codegen

open Lf PathTree DamlModule

section Converted

variable {P : DamlPackagePayload} {fuel : Nat} {leaves : List ModuleLeaf}

/-- The nearest module that is not synthetic, in a converted tree. -/
lemma nearestReal_ofLeaves (h : P.Converted fuel P.modules leaves) {q : List String}
    {b : DamlModuleBody} (hb : valAt (ofLeaves leaves) q = some b) :
    (nearestReal (ofLeaves leaves) q).map DamlModuleBody.path =
      (q.inits.filter P.isRealNode).getLast? := by
  have hway : (way q (ofLeaves leaves)).map DamlModuleBody.path = q.inits := by
    rw [way_eq, List.map_filterMap]
    have hsome : ∀ p ∈ q.inits, (valAt (ofLeaves leaves) p).map DamlModuleBody.path = some p := by
      intro p hp
      have hq : valAt (ofLeaves leaves) q ≠ none := by simp [hb]
      have hne := valAt_on_way ((List.mem_inits p q).1 hp) hq
      obtain ⟨b', hb'⟩ := Option.ne_none_iff_exists'.1 hne
      rw [hb', Option.map_some, path_of_valAt hb']
    rw [List.filterMap_congr hsome, List.filterMap_some]
  have hreal : ∀ b ∈ way q (ofLeaves leaves), (!b.synthetic) = P.isRealNode b.path := by
    intro b hb
    rw [way_eq] at hb
    obtain ⟨p, -, hp⟩ := List.mem_filterMap.1 hb
    rw [synthetic_eq hp, path_of_valAt hp, P.isRealNode_eq h, Bool.not_not]
  rw [nearestReal, ← List.getLast?_map, List.filter_congr hreal, ← hway, List.filter_map]
  rfl

/-- Whether a module of a converted package is rendered is told by the nearest real node. -/
lemma included_ofLeaves (h : P.Converted fuel P.modules leaves) {matcher : ModuleMatcher}
    {q : List String} {b : DamlModuleBody} (hb : valAt (ofLeaves leaves) q = some b) :
    Included matcher (ofLeaves leaves) q ↔
      matcher.matches (toModulePath (P.hostPath q)) = true := by
  have hnearest := nearestReal_ofLeaves h hb
  rw [DamlPackagePayload.hostPath, ← hnearest, Included]
  rcases hreal : nearestReal (ofLeaves leaves) q with - | b'
  · -- the root is real
    rw [hreal, Option.map_none, eq_comm, List.getLast?_eq_none_iff] at hnearest
    have hroot : [] ∈ q.inits.filter P.isRealNode :=
      List.mem_filter.2 ⟨(List.mem_inits [] q).2 List.nil_prefix, rfl⟩
    rw [hnearest] at hroot
    cases hroot
  · simp

end Converted

/-- A data type with a dotted name, at a path that no module is declared at, is rendered exactly if
it is the last one that goes there under its name and the nearest real node is matched. -/
theorem mem_quotePackage_of_nested {P : DamlPackagePayload} {fuel : Nat} {package : DamlPackage}
    (h : P.buildPackage fuel = .ok package) (matcher : ModuleMatcher) (renderMethod : RenderMethod)
    {m : DamlModulePayload} (hm : m ∈ P.modules) {path : List String}
    (hpath : P.modulePath m = .ok path) {d : Proto.DefDataType} (hd : d ∈ m.module.dataTypes)
    {pd : PlacedData} (hplace : P.placeDataType fuel m.module path d = .ok (some pd))
    (hextra : pd.extraPath ≠ [])
    (hfree : ∀ m' ∈ P.modules, P.modulePath m' ≠ .ok (path ++ pd.extraPath)) :
    (path ++ pd.extraPath, .data pd.data) ∈
        ModTokens.itemsOf (quotePackage matcher renderMethod package).toList ↔
      (P.definedData fuel (path ++ pd.extraPath) pd.key).getLast? = some pd.data ∧
        matcher.matches (toModulePath (P.hostPath (path ++ pd.extraPath))) = true := by
  obtain ⟨t, ht, rfl⟩ := Except.map_eq_ok.1 h
  obtain ⟨leaves, hconv, rfl⟩ := DamlPackagePayload.buildModuleTree_eq_ok.1 ht
  have hplaced := placed_ofLeaves leaves
  have hroot : path ++ pd.extraPath ≠ [] := by simp [hextra]
  have hdecl : ¬ Declares leaves (path ++ pd.extraPath) := by
    intro hdeclares
    obtain ⟨m', hm', hpath'⟩ := (DamlPackagePayload.declares_of_converted hconv).1 hdeclares
    exact hfree m' hm' hpath'
  have hnames := DamlPackagePayload.name_of_converted hconv
  -- the node is there, since the data type went to it
  obtain ⟨l, hl, rfl, hpd⟩ := DamlPackagePayload.exists_leaf_of_placed hconv hm hpath hd hplace
  have hsome : (valAt (ofLeaves leaves) (l.path ++ pd.extraPath)).isSome := by
    rw [valAt_ofLeaves, isSome_leavesStep]
    exact .inr ⟨l, hl, .inr ⟨pd, hpd, List.prefix_rfl⟩⟩
  obtain ⟨b, hb⟩ := Option.isSome_iff_exists.1 hsome
  have hlast : b.dataTypes.lookup pd.key =
      (P.definedData fuel (l.path ++ pd.extraPath) pd.key).getLast? := by
    rw [P.definedData_eq hconv, ← dataTypeAt_of_not_declared hroot hdecl, dataTypeAt, hb]
    rfl
  have hquoted : RenderItem.data pd.data ∈ quotedItems renderMethod b ↔
      b.dataTypes.lookup pd.key = some pd.data := by
    rw [← hnames l hl pd hpd, ← mem_dataTypes_iff hnames hb]
    cases renderMethod <;> simp [quotedItems, quoteAllData, quoteAllInterfaces]
  rw [mem_itemsOf_quotePackage hplaced.1, ← hlast, ← hquoted, ← included_ofLeaves hconv hb]
  constructor
  · rintro ⟨q, b', hb', hincluded, hq, hmem⟩
    rw [path_of_valAt hb'] at hq
    subst hq
    cases hb.symm.trans hb'
    exact ⟨hmem, hincluded⟩
  · rintro ⟨hmem, hincluded⟩
    exact ⟨_, b, hb, hincluded, (path_of_valAt hb).symm, hmem⟩

/-- A data type of the module at `path` follows the module, for a matcher. -/
structure FollowsModule (P : DamlPackagePayload) (fuel : Nat) (matcher : ModuleMatcher)
    (path : List String) (pd : PlacedData) : Prop where
  /-- No other data type takes its place, if the module is matched. -/
  kept : matcher.matches (toModulePath path) = true →
    (P.definedData fuel (path ++ pd.extraPath) pd.key).getLast? = some pd.data
  /-- The nearest real node on the way to it is matched if and only if the module is. -/
  host : (P.definedData fuel (path ++ pd.extraPath) pd.key).getLast? = some pd.data →
    (matcher.matches (toModulePath (P.hostPath (path ++ pd.extraPath))) = true ↔
      matcher.matches (toModulePath path) = true)

/-- A data type with a dotted name is rendered if and only if its module is matched, exactly
where it follows its module. -/
theorem mem_quotePackage_iff_matches_iff {P : DamlPackagePayload} {fuel : Nat}
    {package : DamlPackage} (h : P.buildPackage fuel = .ok package) (matcher : ModuleMatcher)
    (renderMethod : RenderMethod) {m : DamlModulePayload} (hm : m ∈ P.modules) {path : List String}
    (hpath : P.modulePath m = .ok path) {d : Proto.DefDataType} (hd : d ∈ m.module.dataTypes)
    {pd : PlacedData} (hplace : P.placeDataType fuel m.module path d = .ok (some pd))
    (hextra : pd.extraPath ≠ [])
    (hfree : ∀ m' ∈ P.modules, P.modulePath m' ≠ .ok (path ++ pd.extraPath)) :
    ((path ++ pd.extraPath, .data pd.data) ∈
        ModTokens.itemsOf (quotePackage matcher renderMethod package).toList ↔
      matcher.matches (toModulePath path) = true) ↔ FollowsModule P fuel matcher path pd := by
  rw [mem_quotePackage_of_nested h matcher renderMethod hm hpath hd hplace hextra hfree]
  constructor
  · intro hiff
    refine ⟨fun hmatches => (hiff.2 hmatches).1, fun hkept => ?_⟩
    rw [← hiff]
    simp [hkept]
  · intro hfollows
    constructor
    · rintro ⟨hkept, hhost⟩
      exact (hfollows.host hkept).1 hhost
    · intro hmatches
      have hkept := hfollows.kept hmatches
      exact ⟨hkept, (hfollows.host hkept).2 hmatches⟩

/-- The matcher of the module `Main`. -/
def mainMatcher : ModuleMatcher := ⟨[fun path => path = "Main"]⟩

/-- The record `Shape.Circle` of `Main`. -/
def circleRecord : DamlRecord where
  name := "Circle"
  packageId := "pkg"
  modulePath := ["Main", "Shape"]
  fields := [⟨"radius", .int64⟩]
  typeParams := []
  serializable := true

open DamlArchivePayload

/-- `Shape.Circle` is rendered with `Main`. -/
theorem mem_quotePackage_circle :
    ∃ package, shapePackage.buildPackage 2 = .ok package ∧
      (["Main", "Shape"], .data (.record circleRecord)) ∈
        ModTokens.itemsOf (quotePackage mainMatcher .full package).toList := by
  have h : ∃ package, shapePackage.buildPackage 2 = .ok package := ⟨_, rfl⟩
  obtain ⟨package, h⟩ := h
  refine ⟨package, h, ?_⟩
  have hcircle : circleDataType ∈ shapeModule.module.dataTypes :=
    List.mem_cons_of_mem _ (List.mem_singleton_self _)
  have hpath : shapePackage.modulePath shapeModule = .ok ["Main"] := rfl
  have hplace : shapePackage.placeDataType 2 shapeModule.module ["Main"] circleDataType =
      .ok (some ⟨["Shape"], "Circle", .record circleRecord⟩) := rfl
  have hfollows : FollowsModule shapePackage 2 mainMatcher ["Main"]
      ⟨["Shape"], "Circle", .record circleRecord⟩ := by
    refine ⟨fun _ => rfl, fun _ => ?_⟩
    have hhost : shapePackage.hostPath ["Main", "Shape"] = ["Main"] := rfl
    show mainMatcher.matches (toModulePath (shapePackage.hostPath ["Main", "Shape"])) = true ↔ _
    rw [hhost]
  have hiff :=
    mem_quotePackage_iff_matches_iff h mainMatcher .full (List.mem_singleton_self _) hpath
    hcircle hplace (by simp) ?_
  · exact (hiff.2 hfollows).2 rfl
  · intro m hm heq
    cases List.mem_singleton.1 hm
    cases heq

/-- A module below the node of `Shape.Circle`. -/
def extraModule : DamlModulePayload where
  nameIndex := 3
  flags := ⟨true, true, true⟩
  module :=
    { nameInternedDname := 3
      flags := some ⟨true, true, true⟩
      synonyms := []
      dataTypes := []
      values := []
      templates := []
      exceptions := []
      interfaces := [] }

/-- The package of `Shape` with the module `Main.Shape.Extra` in front of `Main`. -/
def extraPackage : DamlPackagePayload :=
  { shapePackage with
    internedStrings := ["Main", "Shape", "Circle", "Point", "radius", "Extra"]
    internedDottedNames := [[0], [1], [1, 2], [0, 1, 5]]
    modules := [extraModule, shapeModule] }

/-- `Shape.Circle` is not rendered with `Main`, if `Main.Shape.Extra` is listed first. -/
theorem not_mem_quotePackage_iff_matches :
    ¬ ∀ (P : DamlPackagePayload) (fuel : Nat) (package : DamlPackage),
      P.buildPackage fuel = .ok package → P.ModuleNamesDistinct →
      ∀ (matcher : ModuleMatcher) (renderMethod : RenderMethod), ∀ m ∈ P.modules,
      ∀ path, P.modulePath m = .ok path → ∀ d ∈ m.module.dataTypes, ∀ extraPath key r,
      P.placeDataType fuel m.module path d = .ok (some ⟨extraPath, key, .record r⟩) →
      extraPath ≠ [] → (∀ m' ∈ P.modules, P.modulePath m' ≠ .ok (path ++ extraPath)) →
      ((path ++ extraPath, .data (.record r)) ∈
          ModTokens.itemsOf (quotePackage matcher renderMethod package).toList ↔
        matcher.matches (toModulePath path) = true) := by
  intro hall
  have h : ∃ package, extraPackage.buildPackage 2 = .ok package := ⟨_, rfl⟩
  obtain ⟨package, h⟩ := h
  have hm : shapeModule ∈ extraPackage.modules := List.mem_cons_of_mem _ (List.mem_singleton_self _)
  have hcircle : circleDataType ∈ shapeModule.module.dataTypes :=
    List.mem_cons_of_mem _ (List.mem_singleton_self _)
  have hpath : extraPackage.modulePath shapeModule = .ok ["Main"] := rfl
  have hplace : extraPackage.placeDataType 2 shapeModule.module ["Main"] circleDataType =
      .ok (some ⟨["Shape"], "Circle", .record circleRecord⟩) := rfl
  have hfree : ∀ m' ∈ extraPackage.modules, extraPackage.modulePath m' ≠ .ok ["Main", "Shape"] := by
    intro m hm heq
    rcases List.mem_cons.1 hm with rfl | hm
    · cases heq
    · cases List.mem_singleton.1 hm
      cases heq
  have hiff := hall extraPackage 2 package h (by decide) mainMatcher .full shapeModule hm _ hpath _
    hcircle _ _ _ hplace (by simp) hfree
  have hmem := hiff.2 rfl
  rw [mem_quotePackage_of_nested h mainMatcher .full hm hpath hcircle hplace (by simp)
    hfree] at hmem
  have hhost : extraPackage.hostPath ["Main", "Shape"] = ["Main", "Shape"] := rfl
  have hmatches : mainMatcher.matches
      (toModulePath (extraPackage.hostPath ["Main", "Shape"])) = false := by
    rw [hhost]
    rfl
  cases hmatches.symm.trans hmem.2

end DamlBindings.Codegen
