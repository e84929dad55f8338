import DamlBindings.Codegen.ModuleItems

/-!
# The two layouts of the generated code

A package is rendered into a single file or into a file for each module.  The two do not render
the same items: the files are without interfaces, they have no place for the data types of the
root, they are written for unmatched modules on the way to matched ones, and they do not ask
for the module that a synthetic module belongs to.  Nothing else is different.
-/

namespace DamlBindings.Codegen

open Lf PathTree

section Separate

variable (matcher : ModuleMatcher)

/-- Some module at or below a path has data types and is matched. -/
def InterestingAt (m : DamlModule) (p : List String) : Prop :=
  ∃ q b, p <+: q ∧ valAt m q = some b ∧ b.dataTypes ≠ [] ∧
    matcher.matches (toModulePath b.path) = true

variable {matcher} {N : Naming} {m c : DamlModule}

lemma InterestingAt.of_prefix {p q : List String} (h : InterestingAt matcher m q) (hpq : p <+: q) :
    InterestingAt matcher m p := by
  obtain ⟨r, b, hqr, hb⟩ := h
  exact ⟨r, b, hpq.trans hqr, hb⟩

lemma interestingAt_cons {k : String} (h : m.childModules.lookup k = some c) {p : List String} :
    InterestingAt matcher m (k :: p) ↔ InterestingAt matcher c p := by
  constructor
  · rintro ⟨_ | ⟨k', q⟩, b, hpre, hb⟩
    · exact absurd hpre (by simp)
    · obtain ⟨rfl, hpq⟩ := List.cons_prefix_cons.1 hpre
      exact ⟨q, b, hpq, by rwa [valAt_cons_of_lookup h] at hb⟩
  · rintro ⟨q, b, hpre, hb⟩
    refine ⟨k :: q, b, List.cons_prefix_cons.2 ⟨rfl, hpre⟩, ?_⟩
    rwa [valAt_cons_of_lookup h]

lemma anyInteresting_eq (childModules : List (String × DamlModule)) :
    anyInteresting matcher childModules =
      childModules.any fun c => isInterestingModule matcher c.2 := by
  induction childModules with
  | nil => rfl
  | cons c childModules ih =>
    rw [List.any_cons, ← ih]
    rfl

lemma isInterestingModule_iff (h : Placed m) :
    isInterestingModule matcher m = true ↔ InterestingAt matcher m [] := by
  rw [any_walk (P := fun b => !b.dataTypes.isEmpty && matcher.matches (toModulePath b.path))
    (E := isInterestingModule matcher) ?_ (keyed_of_placed h)]
  · refine exists_congr fun q => exists_congr fun b => ?_
    simp
  · intro body childModules
    rw [← anyInteresting_eq]
    rfl

lemma mem_generateSubModules {childModules : List (String × DamlModule)} {dir : List String}
    {x : List String × RenderItem} :
    x ∈ (generateSubModules N matcher childModules dir).flatMap SourceFile.placedItems ↔
      ∃ c ∈ childModules, isInterestingModule matcher c.2 = true ∧
        x ∈ (generateModuleSource N matcher c.2 dir).flatMap SourceFile.placedItems := by
  induction childModules with
  | nil =>
    rw [show generateSubModules N matcher [] dir = [] from rfl]
    simp
  | cons c childModules ih =>
    rw [show generateSubModules N matcher (c :: childModules) dir =
      (if isInterestingModule matcher c.2 then generateModuleSource N matcher c.2 dir else []) ++
        generateSubModules N matcher childModules dir from rfl]
    rw [List.flatMap_append, List.mem_append, ih, List.exists_mem_cons_iff]
    refine or_congr_left ?_
    cases isInterestingModule matcher c.2 <;> simp

lemma generateModuleSource_items (body : DamlModuleBody) (childModules : List (String × DamlModule))
    (dir : List String) :
    (generateModuleSource N matcher (.node body childModules) dir).flatMap SourceFile.placedItems =
      ((quoteAllData body.dataTypes).map fun i => (body.path, i)) ++
        (generateSubModules N matcher childModules dir).flatMap SourceFile.placedItems := rfl

/-- What the files of the modules below a module hold, given what they hold of each of them. -/
lemma mem_files_below (h : Placed m) {Holds : DamlModuleBody → Prop} :
    (∃ c ∈ m.childModules, isInterestingModule matcher c.2 = true ∧
        ∃ p b, valAt c.2 p = some b ∧ (p = [] ∨ InterestingAt matcher c.2 p) ∧ Holds b) ↔
      ∃ p b, p ≠ [] ∧ valAt m p = some b ∧ InterestingAt matcher m p ∧ Holds b := by
  constructor
  · rintro ⟨⟨k, c⟩, hc, hinteresting, p, b, hb, hp, hholds⟩
    have hlookup := (keyed_of_placed h).lookup_iff.2 hc
    refine ⟨k :: p, b, by simp, valAt_cons_eq_some.2 ⟨c, hlookup, hb⟩, ?_, hholds⟩
    rw [interestingAt_cons hlookup]
    rcases hp with rfl | hp
    · exact (isInterestingModule_iff (h.child hc)).1 hinteresting
    · exact hp
  · rintro ⟨_ | ⟨k, p⟩, b, hp, hb, hinteresting, hholds⟩
    · exact absurd rfl hp
    · obtain ⟨c, hlookup, hb⟩ := valAt_cons_eq_some.1 hb
      have hc := (keyed_of_placed h).lookup_iff.1 hlookup
      rw [interestingAt_cons hlookup] at hinteresting
      refine ⟨(k, c), hc, ?_, p, b, hb, .inr hinteresting, hholds⟩
      exact (isInterestingModule_iff (h.child hc)).2 (hinteresting.of_prefix List.nil_prefix)

lemma mem_generateModuleSource (h : Placed m) {dir : List String} {x : List String × RenderItem} :
    x ∈ (generateModuleSource N matcher m dir).flatMap SourceFile.placedItems ↔
      ∃ p b, valAt m p = some b ∧ (p = [] ∨ InterestingAt matcher m p) ∧
        x.1 = b.path ∧ x.2 ∈ quoteAllData b.dataTypes := by
  induction m using PathTree.induction with
  | node body childModules ih =>
    have hown : x ∈ ((quoteAllData body.dataTypes).map fun i => (body.path, i)) ↔
        x.1 = body.path ∧ x.2 ∈ quoteAllData body.dataTypes := by
      obtain ⟨path, i⟩ := x
      simp [eq_comm, and_comm]
    have hbelow : (∃ c ∈ childModules, isInterestingModule matcher c.2 = true ∧
        x ∈ (generateModuleSource N matcher c.2 dir).flatMap SourceFile.placedItems) ↔
          ∃ p b, p ≠ [] ∧ valAt (.node body childModules) p = some b ∧
            InterestingAt matcher (.node body childModules) p ∧
              x.1 = b.path ∧ x.2 ∈ quoteAllData b.dataTypes := by
      rw [← mem_files_below h]
      refine exists_congr fun c => and_congr_right fun hc => and_congr_right fun _ => ?_
      exact ih c hc (h.child hc)
    rw [generateModuleSource_items, List.mem_append, hown, mem_generateSubModules, hbelow]
    constructor
    · rintro (hx | ⟨p, b, -, hb, hp, hx⟩)
      · exact ⟨[], body, rfl, .inl rfl, hx⟩
      · exact ⟨p, b, hb, .inr hp, hx⟩
    · rintro ⟨p, b, hb, hp, hx⟩
      by_cases hnil : p = []
      · subst hnil
        cases hb
        exact .inl hx
      · exact .inr ⟨p, b, hnil, hb, hp.resolve_left hnil, hx⟩

/-- The items of a package in the files are the data types of the modules below the root at or
below which there is something of interest. -/
theorem mem_generatePackageSource {package : DamlPackage} (h : Placed package.rootModule)
    {x : List String × RenderItem} :
    x ∈ (generatePackageSource N matcher package).flatMap SourceFile.placedItems ↔
      ∃ p b, p ≠ [] ∧ valAt package.rootModule p = some b ∧
        InterestingAt matcher package.rootModule p ∧
          x.1 = b.path ∧ x.2 ∈ quoteAllData b.dataTypes := by
  rw [generatePackageSource, mem_generateSubModules, ← mem_files_below h]
  refine exists_congr fun c => and_congr_right fun hc => and_congr_right fun _ => ?_
  exact mem_generateModuleSource (h.child hc)

end Separate

/-! ### When the layouts agree -/

section Agree

variable (matcher : ModuleMatcher) (renderMethod : RenderMethod)

/-- The modules of a package on which the two layouts agree. -/
structure SameLayout (root : DamlModule) : Prop where
  /-- The root has no data types to render. -/
  rootData : root.val.synthetic = false → matcher.matches (toModulePath root.val.path) = true →
    root.val.dataTypes = []
  /-- There are no interfaces to render. -/
  interfaces : renderMethod = .full → ∀ p b, valAt root p = some b → Included matcher root p →
    b.interfaces = []
  /-- The unmatched modules on the way to matched ones have no data types. -/
  unmatched : ∀ p b, p ≠ [] → valAt root p = some b → b.synthetic = false →
    matcher.matches (toModulePath b.path) = false → InterestingAt matcher root p →
      b.dataTypes = []
  /-- Synthetic modules belong to matched ones where they are matched themselves, or some module
  below them is. -/
  synthetic : ∀ p b, p ≠ [] → valAt root p = some b → b.synthetic = true → b.dataTypes ≠ [] →
    (Included matcher root p ↔ InterestingAt matcher root p)

variable {matcher renderMethod} {root : DamlModule} {p : List String} {b : DamlModuleBody}

lemma nearestReal_of_real (hb : valAt root p = some b) (hreal : b.synthetic = false) :
    nearestReal root p = some b := by
  have hlast : (way p root).getLast? = some b := by
    induction p using List.reverseRecOn with
    | nil =>
      cases hb
      rfl
    | append_singleton p k _ => rw [way_concat hb, List.getLast?_concat]
  obtain ⟨bs, hbs⟩ := List.getLast?_eq_some_iff.1 hlast
  rw [nearestReal, hbs, List.filter_append, List.filter_cons_of_pos (by simp [hreal]),
    List.filter_nil, List.getLast?_concat]

/-- Whether a module that is not synthetic is included depends on itself only. -/
lemma included_of_real (hb : valAt root p = some b) (hreal : b.synthetic = false) :
    Included matcher root p ↔ matcher.matches (toModulePath b.path) = true := by
  rw [Included, nearestReal_of_real hb hreal]
  simp

lemma mem_quotedItems {i : RenderItem} :
    i ∈ quotedItems renderMethod b ↔
      i ∈ quoteAllData b.dataTypes ∨ renderMethod = .full ∧
        ∃ e ∈ b.interfaces, i = .interface e.2 := by
  rw [quotedItems, List.mem_append]
  refine or_congr_right ?_
  cases renderMethod <;> simp [quoteAllInterfaces, eq_comm]

/-- The layouts agree on a module if they agree on its interfaces and on its data types. -/
lemma sameItems_iff {included separate : Prop} :
    (∀ i, included ∧ i ∈ quotedItems renderMethod b ↔ separate ∧ i ∈ quoteAllData b.dataTypes) ↔
      (renderMethod = .full → included → b.interfaces = []) ∧
        (b.dataTypes ≠ [] → (included ↔ separate)) := by
  constructor
  · intro h
    refine ⟨?_, ?_⟩
    · intro hfull hincluded
      refine List.eq_nil_iff_forall_not_mem.2 fun e he => ?_
      have hmem := (h (.interface e.2)).1
        ⟨hincluded, mem_quotedItems.2 (.inr ⟨hfull, e, he, rfl⟩)⟩
      obtain ⟨d, -, hd⟩ := List.mem_map.1 hmem.2
      cases hd
    · intro hdata
      obtain ⟨d, hd⟩ := List.exists_mem_of_ne_nil _ hdata
      have hquoted : RenderItem.data d.2 ∈ quoteAllData b.dataTypes := List.mem_map_of_mem hd
      refine ⟨fun hincluded => ?_, fun hseparate => ?_⟩
      · exact ((h _).1 ⟨hincluded, mem_quotedItems.2 (.inl hquoted)⟩).1
      · exact ((h _).2 ⟨hseparate, hquoted⟩).1
  · rintro ⟨hinterfaces, hdata⟩ i
    have hne : i ∈ quoteAllData b.dataTypes → b.dataTypes ≠ [] := by
      rintro hi hnil
      rw [hnil] at hi
      cases hi
    rw [mem_quotedItems]
    constructor
    · rintro ⟨hincluded, hi | ⟨hfull, e, he, rfl⟩⟩
      · exact ⟨(hdata (hne hi)).1 hincluded, hi⟩
      · rw [hinterfaces hfull hincluded] at he
        cases he
    · rintro ⟨hseparate, hi⟩
      exact ⟨(hdata (hne hi)).2 hseparate, .inl hi⟩

/-- The condition, module by module. -/
lemma sameLayout_iff :
    SameLayout matcher renderMethod root ↔ ∀ p b, valAt root p = some b →
      (renderMethod = .full → Included matcher root p → b.interfaces = []) ∧
        (b.dataTypes ≠ [] →
          (Included matcher root p ↔ p ≠ [] ∧ InterestingAt matcher root p)) := by
  constructor
  · intro h p b hb
    refine ⟨fun hfull => h.interfaces hfull p b hb, fun hdata => ?_⟩
    rcases hsynthetic : b.synthetic with _ | _
    · rw [included_of_real hb hsynthetic]
      constructor
      · intro hmatches
        refine ⟨?_, p, b, List.prefix_rfl, hb, hdata, hmatches⟩
        rintro rfl
        cases hb
        exact hdata (h.rootData hsynthetic hmatches)
      · rintro ⟨hp, hinteresting⟩
        by_contra hmatches
        exact hdata (h.unmatched p b hp hb hsynthetic (by simpa using hmatches) hinteresting)
    · by_cases hp : p = []
      · -- no module lies above the root
        subst hp
        cases hb
        simp [Included, nearestReal, hsynthetic]
      · rw [h.synthetic p b hp hb hsynthetic hdata]
        simp [hp]
  · intro h
    refine ⟨?_, fun hfull p b hb => (h p b hb).1 hfull, ?_, ?_⟩
    · intro hsynthetic hmatches
      by_contra hdata
      have hincluded := (included_of_real (p := []) rfl hsynthetic).2 hmatches
      exact (((h [] _ rfl).2 hdata).1 hincluded).1 rfl
    · intro p b hp hb hsynthetic hmatches hinteresting
      by_contra hdata
      have hincluded := ((h p b hb).2 hdata).2 ⟨hp, hinteresting⟩
      rw [included_of_real hb hsynthetic, hmatches] at hincluded
      cases hincluded
    · intro p b hp hb _ hdata
      rw [(h p b hb).2 hdata]
      simp [hp]

/-- The layouts of a package agree exactly if they agree module by module. -/
lemma mem_package_iff {N : Naming} {package : DamlPackage} (h : Placed package.rootModule) :
    (∀ x, x ∈ ModTokens.itemsOf (quotePackage matcher renderMethod package).toList ↔
        x ∈ (generatePackageSource N matcher package).flatMap SourceFile.placedItems) ↔
      SameLayout matcher renderMethod package.rootModule := by
  -- a path belongs to one module
  have hunique : ∀ {p p' : List String} {b b' : DamlModuleBody},
      valAt package.rootModule p = some b → valAt package.rootModule p' = some b' →
        b.path = b'.path → p = p' ∧ b = b' := by
    intro p p' b b' hb hb' heq
    rw [path_of_placed h hb, path_of_placed h hb'] at heq
    have hp := List.append_cancel_left heq
    subst hp
    exact ⟨rfl, Option.some.inj (hb.symm.trans hb')⟩
  simp only [mem_itemsOf_quotePackage h, mem_generatePackageSource h]
  rw [sameLayout_iff]
  constructor
  · intro hall p b hb
    refine sameItems_iff.1 fun i => ?_
    have hi := hall (b.path, i)
    constructor
    · rintro ⟨hincluded, hmem⟩
      obtain ⟨p', b', hp', hb', hinteresting, hpath, hmem⟩ :=
        hi.1 ⟨p, b, hb, hincluded, rfl, hmem⟩
      obtain ⟨rfl, rfl⟩ := hunique hb hb' hpath
      exact ⟨⟨hp', hinteresting⟩, hmem⟩
    · rintro ⟨⟨hp, hinteresting⟩, hmem⟩
      obtain ⟨p', b', hb', hincluded, hpath, hmem⟩ :=
        hi.2 ⟨p, b, hp, hb, hinteresting, rfl, hmem⟩
      obtain ⟨rfl, rfl⟩ := hunique hb hb' hpath
      exact ⟨hincluded, hmem⟩
  · intro hall x
    constructor
    · rintro ⟨p, b, hb, hincluded, hpath, hmem⟩
      obtain ⟨⟨hp, hinteresting⟩, hmem⟩ :=
        (sameItems_iff.2 (hall p b hb) x.2).1 ⟨hincluded, hmem⟩
      exact ⟨p, b, hp, hb, hinteresting, hpath, hmem⟩
    · rintro ⟨p, b, hp, hb, hinteresting, hpath, hmem⟩
      obtain ⟨hincluded, hmem⟩ :=
        (sameItems_iff.2 (hall p b hb) x.2).2 ⟨⟨hp, hinteresting⟩, hmem⟩
      exact ⟨p, b, hb, hincluded, hpath, hmem⟩

end Agree

/-! ### Archives -/

/-- Two walks of the packages of an archive collect the same if they do so for each package. -/
lemma mem_flatMap_packages {γ : Type} {packages : List (String × DamlPackage)}
    (h : (AssocMap.keys packages).Nodup) {f g : DamlPackage → List γ} :
    (∀ x, x ∈ packages.flatMap (fun e => (f e.2).map fun i => (e.1, i)) ↔
        x ∈ packages.flatMap (fun e => (g e.2).map fun i => (e.1, i))) ↔
      ∀ e ∈ packages, ∀ i, i ∈ f e.2 ↔ i ∈ g e.2 := by
  have hmem : ∀ (f : DamlPackage → List γ) e, e ∈ packages → ∀ i,
      ((e.1, i) ∈ packages.flatMap fun e => (f e.2).map fun i => (e.1, i)) ↔ i ∈ f e.2 := by
    intro f e he i
    rw [List.mem_flatMap]
    constructor
    · rintro ⟨e', he', hi⟩
      obtain ⟨i', hi', heq⟩ := List.mem_map.1 hi
      obtain ⟨hkey, rfl⟩ := Prod.mk.inj heq
      rwa [← List.inj_on_of_nodup_map h he' he hkey]
    · intro hi
      exact ⟨e, he, List.mem_map_of_mem hi⟩
  constructor
  · intro hall e he i
    rw [← hmem f e he, ← hmem g e he, hall]
  · rintro hall ⟨k, i⟩
    simp only [List.mem_flatMap, List.mem_map, Prod.mk.injEq]
    refine exists_congr fun e => and_congr_right fun he => exists_congr fun i' => ?_
    rw [hall e he i']

/-- The two generators render the same items of an archive exactly if they agree on the modules
of each package. -/
theorem mem_combinedItems_iff_mem_separateItems (N : Naming) (matcher : ModuleMatcher)
    (renderMethod : RenderMethod) {A : DamlArchive} (h : A.WellPlaced) :
    (∀ x, x ∈ combinedItems matcher renderMethod A ↔ x ∈ separateItems N matcher A) ↔
      ∀ e ∈ A.packages, SameLayout matcher renderMethod e.2.rootModule := by
  have hpackages := mem_flatMap_packages h.nodup
    (f := fun p => ModTokens.itemsOf (quotePackage matcher renderMethod p).toList)
    (g := fun p => (generatePackageSource N matcher p).flatMap SourceFile.placedItems)
  refine Iff.trans hpackages ?_
  refine forall_congr' fun e => forall_congr' fun he => ?_
  exact mem_package_iff (h.rootModules e he)

/-- The record `Asset` and the interface `Token` of a module `Main`. -/
def assetRecord : DamlRecord where
  name := "Asset"
  packageId := "pkg"
  modulePath := ["Main"]
  fields := [⟨"amount", .int64⟩]
  typeParams := []
  serializable := true

def tokenInterface : DamlInterface where
  name := "Token"
  packageId := "pkg"
  modulePath := ["Main"]
  param := "this"
  methods := []
  choices := []
  view := .unit
  requires := []

def tokenModule : DamlModuleBody :=
  { DamlModuleBody.newEmpty ["Main"] with
    dataTypes := [("Asset", .record assetRecord)]
    interfaces := [("Token", tokenInterface)] }

/-- An archive with that module only. -/
def tokenArchive : DamlArchive where
  name := "tokens"
  mainPackageId := "pkg"
  packages := [("pkg", ⟨"tokens", "pkg", none,
    .node (.newEmpty []) [("Main", .node tokenModule [])]⟩)]

lemma wellPlaced_tokenArchive : tokenArchive.WellPlaced where
  nodup := List.nodup_singleton _
  rootModules := by
    refine List.forall_mem_singleton.2 (.node (List.nodup_singleton _) ?_ ?_)
    · exact List.forall_mem_singleton.2 rfl
    · exact List.forall_mem_singleton.2 (.empty _)

lemma valAt_tokenArchive {p : List String} {b : DamlModuleBody}
    (hb : valAt (.node (.newEmpty []) [("Main", .node tokenModule [])]) p = some b) :
    p = [] ∧ b = .newEmpty [] ∨ p = ["Main"] ∧ b = tokenModule := by
  rcases p with _ | ⟨k, p⟩
  · cases hb
    exact .inl ⟨rfl, rfl⟩
  obtain ⟨c, hlookup, hb⟩ := valAt_cons_eq_some.1 hb
  obtain ⟨rfl, rfl⟩ : k = "Main" ∧ c = .node tokenModule [] := by
    simpa using AssocMap.mem_of_lookup hlookup
  rw [valAt_node_nil] at hb
  split_ifs at hb with hp
  cases hb
  exact .inr ⟨by rw [hp], rfl⟩

/-- Without annotations for interfaces, the layouts agree on the record `Asset`. -/
theorem mem_combinedItems_iff_tokenArchive :
    ("pkg", ["Main"], .data (.record assetRecord)) ∈ combinedItems ⟨[]⟩ .intermediate tokenArchive ↔
      ("pkg", ["Main"], .data (.record assetRecord)) ∈
        separateItems ⟨id, id, fun _ => true⟩ ⟨[]⟩ tokenArchive := by
  refine (mem_combinedItems_iff_mem_separateItems ⟨id, id, fun _ => true⟩ _ _
    wellPlaced_tokenArchive).2 ?_ _
  refine List.forall_mem_singleton.2 ⟨fun _ _ => rfl, nofun, ?_, ?_⟩
  · intro p b _ hb _ hmatches
    obtain ⟨-, rfl⟩ | ⟨-, rfl⟩ := valAt_tokenArchive hb <;> cases hmatches
  · intro p b _ hb hsynthetic
    obtain ⟨-, rfl⟩ | ⟨-, rfl⟩ := valAt_tokenArchive hb <;> cases hsynthetic

/-- The file of `Main` is without `Token`. -/
theorem not_mem_combinedItems_iff :
    ¬ ∀ (N : Naming) (matcher : ModuleMatcher) (renderMethod : RenderMethod) (A : DamlArchive),
      A.WellPlaced → ∀ x, x ∈ combinedItems matcher renderMethod A ↔
        x ∈ separateItems N matcher A := by
  intro hall
  have hcombined : ("pkg", ["Main"], .interface tokenInterface) ∈
      combinedItems ⟨[]⟩ .full tokenArchive := List.mem_cons_of_mem _ List.mem_cons_self
  have hseparate := (hall ⟨id, id, fun _ => true⟩ ⟨[]⟩ .full tokenArchive
    wellPlaced_tokenArchive _).1 hcombined
  rw [show separateItems ⟨id, id, fun _ => true⟩ ⟨[]⟩ tokenArchive =
    [("pkg", ["Main"], .data (.record assetRecord))] from rfl] at hseparate
  cases List.mem_singleton.1 hseparate

end DamlBindings.Codegen
