import DamlBindings.Lf.DataPlacement

/-!
# The order of the modules of a package

Inserting a module overwrites the data types of its node and creates the nodes on the way to it.
The tree depends on the order in which the modules are listed if and only if a data type with a
dotted name and a declared module meet at a node.
-/

namespace DamlBindings.Lf

open PathTree Proto

namespace DamlModule

/-- The same modules at the same paths, up to the order of the entries of their maps. -/
def Same (t t' : DamlModule) : Prop :=
  ∀ q, Option.Rel DamlModuleBody.Same (valAt t q) (valAt t' q)

/-- Look a data type up in the module at a path. -/
def dataTypeAt (t : DamlModule) (q : List String) (k : String) : Option DamlData :=
  (valAt t q).bind fun b => b.dataTypes.lookup k

lemma Same.dataTypeAt_eq {t t' : DamlModule} (h : t.Same t') (q : List String) (k : String) :
    t.dataTypeAt q k = t'.dataTypeAt q k := by
  have hrel := h q
  unfold dataTypeAt
  generalize valAt t q = o, valAt t' q = o' at hrel
  obtain ⟨hbody⟩ | - := hrel
  · exact hbody.dataTypes k
  · rfl

/-! ### Safe nesting makes the order irrelevant -/

section Safe

variable {leaves leaves' : List ModuleLeaf} {q : List String}

lemma isSome_valAt_of_perm (h : leaves.Perm leaves') :
    (valAt (ofLeaves leaves) q).isSome = (valAt (ofLeaves leaves') q).isSome := by
  rw [Bool.eq_iff_iff, valAt_ofLeaves, valAt_ofLeaves, isSome_leavesStep, isSome_leavesStep]
  simp only [h.mem_iff]

lemma same_header {b b' : DamlModuleBody} (h : b.header = b'.header) :
    b.flags = b'.flags ∧ b.synonyms = b'.synonyms ∧ b.interfaces = b'.interfaces ∧
      b.exceptions = b'.exceptions ∧ b.values = b'.values := by
  simpa [DamlModuleBody.header] using h

/-- The body at a node is determined by the modules, whatever their order. -/
lemma same_of_perm (h : leaves.Perm leaves') (hok : LeavesOk leaves) (hsafe : NestedSafe leaves)
    {b b' : DamlModuleBody} (hb : valAt (ofLeaves leaves) q = some b)
    (hb' : valAt (ofLeaves leaves') q = some b') : b.Same b' := by
  have hok' := hok.of_perm h
  have hsafe' := hsafe.of_perm h
  have hpath : b.path = b'.path := (path_of_valAt hb).trans (path_of_valAt hb').symm
  have hheader : b.header = b'.header := by
    by_cases hq : Declares leaves q
    · obtain ⟨l, hl, rfl⟩ := hq
      rw [header_of_declared hok.paths hl hb,
        header_of_declared hok'.paths (h.mem_iff.1 hl) hb']
    · have hq' : ¬ Declares leaves' q := fun hdecl => hq (hdecl.of_perm h.symm)
      rw [header_of_not_declared hq hb, header_of_not_declared hq' hb']
  have hdata : ∀ k, b.dataTypes.lookup k = b'.dataTypes.lookup k := by
    intro k
    refine Option.ext fun x => ?_
    rw [lookup_iff_defines hok hsafe hb, lookup_iff_defines hok' hsafe' hb']
    exact ⟨.of_perm h, .of_perm h.symm⟩
  have hsynthetic : b.synthetic = b'.synthetic := by
    by_cases hq : ∃ l ∈ leaves, q <+: l.path
    · obtain ⟨l, hl, hpre⟩ := hq
      rw [synthetic_on_way hsafe hl hpre hb,
        synthetic_on_way hsafe' (h.mem_iff.1 hl) hpre hb']
    · push Not at hq
      have hq' : ∀ l ∈ leaves', ¬ q <+: l.path := fun l hl => hq l (h.mem_iff.2 hl)
      rcases q with _ | ⟨k, q⟩
      · -- Every module is below the root, so there is none.
        have hnil : leaves = [] := List.eq_nil_iff_forall_not_mem.2 fun l hl =>
          hq l hl List.nil_prefix
        subst hnil
        cases h.nil_eq
        cases hb.symm.trans hb'
        rfl
      · rw [synthetic_off_way (List.cons_ne_nil k q) hq hb,
          synthetic_off_way (List.cons_ne_nil k q) hq' hb']
  obtain ⟨hflags, hsynonyms, hinterfaces, hexceptions, hvalues⟩ := same_header hheader
  exact ⟨hpath, hflags, hsynonyms, hdata, fun k => by rw [hinterfaces],
    fun k => by rw [hexceptions], fun k => by rw [hvalues], hsynthetic⟩

/-- Safe nesting: the tree does not depend on the order of the modules. -/
theorem ofLeaves_same_of_perm (h : leaves.Perm leaves') (hok : LeavesOk leaves)
    (hsafe : NestedSafe leaves) : (ofLeaves leaves).Same (ofLeaves leaves') := by
  intro q
  have hsome := isSome_valAt_of_perm (q := q) h
  rcases hb : valAt (ofLeaves leaves) q with _ | b <;>
    rcases hb' : valAt (ofLeaves leaves') q with _ | b' <;> rw [hb, hb'] at hsome
  · exact .none
  · nomatch hsome
  · nomatch hsome
  · exact .some (same_of_perm h hok hsafe hb hb')

/-- Safe nesting: no data type is lost. -/
theorem dataTypeAt_of_safe (hok : LeavesOk leaves) (hsafe : NestedSafe leaves) {l : ModuleLeaf}
    (hl : l ∈ leaves) {d : PlacedData} (hd : d ∈ l.dataTypes) :
    (ofLeaves leaves).dataTypeAt (l.path ++ d.extraPath) d.key = some d.data := by
  obtain ⟨b, hb, hx⟩ := lookup_of_defines hok hl hd fun hextra ⟨l', hl', hpath⟩ =>
    (hsafe l hl d hd _ hextra List.prefix_rfl ⟨l', hl', hpath ▸ List.prefix_rfl⟩).2 rfl
  rw [dataTypeAt, hb]
  exact hx

end Safe

/-! ### Otherwise some order makes a difference -/

section Unsafe

variable {leaves : List ModuleLeaf} {q : List String} {b : DamlModuleBody}

/-- The module inserted last leaves its own data types only at its node. -/
lemma dataTypeAt_concat {l : ModuleLeaf} {k : String} {x : DamlData}
    (h : (ofLeaves (leaves ++ [l])).dataTypeAt l.path k = some x) :
    ∃ d ∈ l.dataTypes, d.extraPath = [] ∧ d.data.name = k := by
  obtain ⟨b, hb, hx⟩ := Option.bind_eq_some_iff.1 h
  rw [valAt_ofLeaves, leavesStep_concat] at hb
  suffices hQ : ∀ x, b.dataTypes.lookup k = some x →
      ∃ d ∈ l.dataTypes, d.extraPath = [] ∧ d.data.name = k from hQ x hx
  have htake : ∀ b : DamlModuleBody, ∀ x, (b.takeFrom l).dataTypes.lookup k = some x →
      ∃ d ∈ l.dataTypes, d.extraPath = [] ∧ d.data.name = k := by
    intro b x hx
    obtain ⟨d, hd, heq⟩ := List.mem_map.1 (AssocMap.mem_of_lookup_ofList hx)
    obtain ⟨hd, hextra⟩ := List.mem_filter.1 hd
    cases heq
    exact ⟨d, hd, List.isEmpty_iff.1 hextra, rfl⟩
  refine forall_leavesStep_of_mem (Q := fun b => ∀ x, b.dataTypes.lookup k = some x →
    ∃ d ∈ l.dataTypes, d.extraPath = [] ∧ d.data.name = k)
    (ownTouch_mem (List.mem_singleton_self l)) htake ?_ ?_ _ b hb
  · intro l' hl' _ b _
    cases List.mem_singleton.1 hl'
    exact htake b
  · intro l' hl' d _ hextra hpath
    cases List.mem_singleton.1 hl'
    have hlen := congrArg List.length hpath
    simp [ownTouch, hextra] at hlen

/-- A node that is created for a nested data type first stays synthetic. -/
lemma synthetic_of_first {l : ModuleLeaf} {r : List String} (hr : r ≠ [])
    (hq : ¬ Declares (l :: leaves) (l.path ++ r))
    (hb : valAt (ofLeaves (l :: leaves)) (l.path ++ r) = some b) {d : PlacedData}
    (hd : d ∈ l.dataTypes) (hpre : r <+: d.extraPath) : b.synthetic = true := by
  have hroot : rootAt (l.path ++ r) = none := if_neg (by simp [hr])
  rw [valAt_ofLeaves, hroot, leavesStep_cons] at hb
  have hfirst : ∀ b ∈ leavesStep [l] (l.path ++ r) none, b.synthetic = true := by
    refine forall_leavesStep (Q := fun b => b.synthetic = true) ?_ (fun _ => rfl) ?_
      (fun _ _ _ _ _ _ _ h => h) (by simp)
    · rintro ⟨l', hl', hway⟩
      cases List.mem_singleton.1 hl'
      have hlen := hway.length_le
      simp [hr] at hlen
    · intro l' hl' hpath
      exact absurd ⟨l', List.mem_cons.2 (.inl (List.mem_singleton.1 hl')), hpath.symm⟩ hq
  have hsome : (leavesStep [l] (l.path ++ r) none).isSome := by
    refine isSome_leavesStep.2 (.inr ⟨l, List.mem_singleton_self l, .inr ⟨d, hd, ?_⟩⟩)
    exact (List.prefix_append_right_inj l.path).2 hpre
  obtain ⟨b₁, hb₁⟩ := Option.isSome_iff_exists.1 hsome
  rw [hb₁] at hb
  refine forall_leavesStep_some (Q := fun b => b.synthetic = true) ?_ (fun _ _ _ _ _ _ _ h => h)
    (hfirst b₁ hb₁) b hb
  exact fun l' hl' hpath => absurd ⟨l', List.mem_cons_of_mem _ hl', hpath.symm⟩ hq

/-- A node that is created on the way to a module first stays a plain node. -/
lemma not_synthetic_of_first {l : ModuleLeaf} (hpre : q <+: l.path)
    (hb : valAt (ofLeaves (l :: leaves)) q = some b) : b.synthetic = false := by
  rw [valAt_ofLeaves, leavesStep_cons] at hb
  have hfirst : ∀ b ∈ leavesStep [l] q (rootAt q), b.synthetic = false :=
    forall_leavesStep_singleton_way (Q := fun b => b.synthetic = false) hpre rfl
      (fun _ _ _ => rfl) (forall_rootAt rfl)
  have hsome : (leavesStep [l] q (rootAt q)).isSome :=
    isSome_leavesStep.2 (.inr ⟨l, List.mem_singleton_self l, .inl hpre⟩)
  obtain ⟨b₁, hb₁⟩ := Option.isSome_iff_exists.1 hsome
  rw [hb₁] at hb
  exact forall_leavesStep_some (Q := fun b => b.synthetic = false) (fun _ _ _ _ _ => rfl)
    (fun _ _ _ _ _ _ _ h => h) (hfirst b₁ hb₁) b hb

/-- If every order of the modules gives the same tree and keeps all data, the nesting is safe. -/
theorem nestedSafe_of_perm (hok : LeavesOk leaves)
    (hsame : ∀ leaves', leaves.Perm leaves' → (ofLeaves leaves).Same (ofLeaves leaves'))
    (hkeep : ∀ leaves', leaves.Perm leaves' → ∀ l ∈ leaves, ∀ d ∈ l.dataTypes,
      (ofLeaves leaves').dataTypeAt (l.path ++ d.extraPath) d.key = some d.data) :
    NestedSafe leaves := by
  intro l hl d hd r hr hpre hway
  obtain ⟨l₀, hl₀, hway⟩ := hway
  have hfirst : ∀ {l : ModuleLeaf}, l ∈ leaves → ∃ rest, leaves.Perm (l :: rest) := by
    intro l hl
    obtain ⟨pre, post, rfl⟩ := List.append_of_mem hl
    exact ⟨pre ++ post, List.perm_middle⟩
  by_cases hdecl : Declares leaves (l.path ++ r)
  · -- With the module of that node inserted last, the data type is lost.
    refine ⟨hdecl, ?_⟩
    rintro rfl
    obtain ⟨l₁, hl₁, hpath⟩ := hdecl
    obtain ⟨rest, hperm⟩ := hfirst hl₁
    have hdata := hkeep _ (hperm.trans (List.perm_append_singleton l₁ rest).symm) l hl d hd
    rw [← hpath] at hdata
    obtain ⟨d₁, hd₁, hextra, hname⟩ := dataTypeAt_concat hdata
    have hkey := (hok.name_eq l₁ hl₁ d₁ hd₁).symm.trans hname
    obtain ⟨rfl, rfl⟩ := hok.eq_of_name hl₁ hl hd₁ hd (by rw [hextra, List.append_nil, hpath]) hkey
    exact hr hextra
  · -- The node is synthetic or not according to which module is inserted first.
    exfalso
    obtain ⟨rest, hperm⟩ := hfirst hl
    obtain ⟨rest₀, hperm₀⟩ := hfirst hl₀
    have hsome : (valAt (ofLeaves leaves) (l.path ++ r)).isSome := by
      rw [valAt_ofLeaves, isSome_leavesStep]
      exact .inr ⟨l₀, hl₀, .inl hway⟩
    obtain ⟨c, hc⟩ := Option.isSome_iff_exists.1 hsome
    have hrel := hsame _ hperm (l.path ++ r)
    have hrel₀ := hsame _ hperm₀ (l.path ++ r)
    rw [hc] at hrel hrel₀
    generalize hb : valAt (ofLeaves (l :: rest)) (l.path ++ r) = o at hrel
    generalize hb₀ : valAt (ofLeaves (l₀ :: rest₀)) (l.path ++ r) = o₀ at hrel₀
    obtain ⟨hcb⟩ | - := hrel
    obtain ⟨hcb₀⟩ | - := hrel₀
    have hdecl' : ¬ Declares (l :: rest) (l.path ++ r) := fun h => hdecl (h.of_perm hperm.symm)
    have htrue := synthetic_of_first hr hdecl' hb hd hpre
    have hfalse := not_synthetic_of_first hway hb₀
    rw [← hcb.synthetic, hcb₀.synthetic, hfalse] at htrue
    nomatch htrue

end Unsafe

end DamlModule

/-! ### Packages -/

namespace DamlPackagePayload

/-- Two computations of a tree: both fail, or both return the same tree. -/
def SameResult (x y : ConvertRun DamlModule) : Prop :=
  (∀ t, x ≠ .ok t) ∧ (∀ t, y ≠ .ok t) ∨ ∃ t t', x = .ok t ∧ y = .ok t' ∧ t.Same t'

variable (P : DamlPackagePayload)

/-- The package with its modules listed in another order. -/
abbrev reorder (modules : List DamlModulePayload) : DamlPackagePayload :=
  { P with modules := modules }

/-- The tree does not depend on the order of the modules. -/
def OrderIndependent : Prop :=
  ∀ fuel modules, P.modules.Perm modules →
    SameResult (P.buildModuleTree fuel) ((P.reorder modules).buildModuleTree fuel)

/-- In every order of the modules, the tree has the data of every definition in its place. -/
def KeepsData : Prop :=
  ∀ fuel modules t, P.modules.Perm modules → (P.reorder modules).buildModuleTree fuel = .ok t →
    ∀ m ∈ P.modules, ∀ path, P.modulePath m = .ok path → ∀ d ∈ m.module.dataTypes, ∀ pd,
      P.placeDataType fuel m.module path d = .ok (some pd) →
        t.dataTypeAt (path ++ pd.extraPath) pd.key = some pd.data

/-- Every module of the package converts. -/
def Converts : Prop := ∃ fuel, ∀ m ∈ P.modules, ∃ l, P.convertModule fuel m = .ok l

/-- The package declares a module at `q`. -/
def DeclaresModule (q : List String) : Prop := ∃ m ∈ P.modules, P.modulePath m = .ok q

/-- No data type with a dotted name belongs at a declared module or above one, unless
above a node that is declared itself: if the node `p ++ r` between the module `p` and its data type
is on the way to a declared module, then it is declared and does not host the data type. -/
def OrderSafe : Prop :=
  ∀ m ∈ P.modules, ∀ d ∈ m.module.dataTypes, d.dataCons ≠ .interface → ∀ p s,
    P.modulePath m = .ok p → P.resolveDotted d.nameInternedDname = .ok s →
      ∀ r, r ≠ [] → r <+: s.dropLast → (∃ q, P.DeclaresModule q ∧ p ++ r <+: q) →
        P.DeclaresModule (p ++ r) ∧ r ≠ s.dropLast

variable {P} {fuel : Nat} {leaves : List ModuleLeaf}

lemma nestedSafe_iff (h : P.Converted fuel P.modules leaves) :
    NestedSafe leaves ↔ P.OrderSafe := by
  have hdecl : ∀ q, Declares leaves q ↔ P.DeclaresModule q := fun q => declares_of_converted h
  have hway : ∀ q, (∃ l ∈ leaves, q <+: l.path) ↔ ∃ q', P.DeclaresModule q' ∧ q <+: q' := by
    intro q
    simp only [← hdecl]
    constructor
    · rintro ⟨l, hl, hq⟩
      exact ⟨_, ⟨l, hl, rfl⟩, hq⟩
    · rintro ⟨_, ⟨l, hl, rfl⟩, hq⟩
      exact ⟨l, hl, hq⟩
  constructor
  · intro hsafe m hm d hd hcons p s hp hs r hr hpre hq
    obtain ⟨l, hl, hconv⟩ := h.exists_right hm
    obtain ⟨hpath, hdata⟩ := DamlPackageTables.convertModule_eq_ok hconv
    cases hp.symm.trans hpath
    obtain ⟨o, ho⟩ := DamlPackageTables.exists_placeDataType hdata hd
    obtain ⟨extraPath, key, hname, ⟨hinterface, -⟩ | ⟨-, x, rfl, -⟩⟩ :=
      DamlPackageTables.placeDataType_eq_ok ho
    · exact absurd hinterface hcons
    cases hs.symm.trans hname
    rw [List.dropLast_concat] at hpre ⊢
    rw [← hdecl]
    exact hsafe l hl _ ((DamlPackageTables.mem_buildDataTypes hdata).2 ⟨d, hd, ho⟩) r hr hpre
      ((hway _).2 hq)
  · intro hsafe l hl pd hpd r hr hpre hq
    obtain ⟨m, hm, hpath, d, hd, hplace⟩ := exists_def_of_converted h hl hpd
    obtain ⟨hname, hcons, -⟩ := DamlPackageTables.placeDataType_eq_some hplace
    rw [hdecl]
    have hs := hsafe m hm d hd hcons _ _ hpath hname r hr
    rw [List.dropLast_concat] at hs
    exact hs hpre ((hway _).1 hq)

lemma reorder_eq_ok {modules : List DamlModulePayload} {t : DamlModule} :
    (P.reorder modules).buildModuleTree fuel = .ok t ↔
      ∃ leaves, P.Converted fuel modules leaves ∧ DamlModule.ofLeaves leaves = t :=
  buildModuleTree_eq_ok

/-- A package converts in every order or in none. -/
lemma exists_converted_of_perm {modules modules' : List DamlModulePayload}
    (hperm : modules.Perm modules') (h : P.Converted fuel modules leaves) :
    ∃ leaves', leaves.Perm leaves' ∧ P.Converted fuel modules' leaves' := by
  obtain ⟨leaves', h', hperm'⟩ := h.exists_perm_right hperm.symm
  exact ⟨leaves', hperm'.symm, h'⟩

lemma exists_leaves_of_converts (h : P.Converts) :
    ∃ fuel leaves, P.Converted fuel P.modules leaves := by
  obtain ⟨fuel, hall⟩ := h
  exact ⟨fuel, List.exists_forall₂ hall⟩

lemma converts_of_converted (h : P.Converted fuel P.modules leaves) : P.Converts := by
  refine ⟨fuel, fun m hm => ?_⟩
  obtain ⟨l, -, hl⟩ := h.exists_right hm
  exact ⟨l, hl⟩

/-- The order of the modules is irrelevant, and no data is lost in any order, exactly when the
package does not convert or its nested data types keep clear of its modules. -/
theorem orderIndependent_and_keepsData_iff (hpaths : P.ModuleNamesDistinct)
    (hnames : P.DataNamesDistinct) :
    P.OrderIndependent ∧ P.KeepsData ↔ (P.Converts → P.OrderSafe) := by
  constructor
  · rintro ⟨hind, hkeep⟩ hconverts
    obtain ⟨fuel, leaves, h⟩ := exists_leaves_of_converts hconverts
    -- each order of the leaves is the conversion of an order of the modules
    refine (nestedSafe_iff h).1
      (DamlModule.nestedSafe_of_perm (leavesOk_of_converted hpaths hnames h)
      ?_ ?_)
    · intro leaves' hperm
      obtain ⟨modules, hmodules, h'⟩ := h.exists_perm_left hperm
      have htree := buildModuleTree_eq_ok.2 ⟨leaves, h, rfl⟩
      obtain ⟨hfail, -⟩ | ⟨t, t', ht, ht', hsame⟩ := hind fuel modules hmodules
      · exact absurd htree (hfail _)
      · cases htree.symm.trans ht
        cases (reorder_eq_ok.2 ⟨leaves', h', rfl⟩).symm.trans ht'
        exact hsame
    · intro leaves' hperm l hl d hd
      obtain ⟨modules, hmodules, h'⟩ := h.exists_perm_left hperm
      obtain ⟨m, hm, hpath, def', hdef, hplace⟩ := exists_def_of_converted h hl hd
      exact hkeep fuel modules _ hmodules (reorder_eq_ok.2 ⟨leaves', h', rfl⟩)
        m hm _ hpath def' hdef d hplace
  · intro hsafe
    -- what is safe in one order is safe in all, as safety only speaks of the leaves as a set
    have hnested : ∀ {fuel leaves}, P.Converted fuel P.modules leaves →
        LeavesOk leaves ∧ NestedSafe leaves := fun h =>
      ⟨leavesOk_of_converted hpaths hnames h,
        (nestedSafe_iff h).2 (hsafe (converts_of_converted h))⟩
    refine ⟨fun fuel modules hperm => ?_, ?_⟩
    -- whether the modules convert does not depend on their order
    · by_cases h : ∃ leaves, P.Converted fuel P.modules leaves
      · obtain ⟨leaves, h⟩ := h
        obtain ⟨leaves', hperm', h'⟩ := exists_converted_of_perm hperm h
        obtain ⟨hok, hnest⟩ := hnested h
        exact .inr ⟨_, _, buildModuleTree_eq_ok.2 ⟨leaves, h, rfl⟩,
          reorder_eq_ok.2 ⟨leaves', h', rfl⟩, DamlModule.ofLeaves_same_of_perm hperm' hok hnest⟩
      · refine .inl ⟨fun t ht => ?_, fun t ht => ?_⟩
        · obtain ⟨leaves, hleaves, -⟩ := buildModuleTree_eq_ok.1 ht
          exact h ⟨leaves, hleaves⟩
        · obtain ⟨leaves', h', -⟩ := reorder_eq_ok.1 ht
          obtain ⟨leaves, -, hleaves⟩ := exists_converted_of_perm hperm.symm h'
          exact h ⟨leaves, hleaves⟩
    · intro fuel modules t hperm ht m hm path hpath d hd pd hplace
      obtain ⟨leaves', h', rfl⟩ := reorder_eq_ok.1 ht
      obtain ⟨leaves, hperm', h⟩ := exists_converted_of_perm hperm.symm h'
      obtain ⟨hok, hnest⟩ := hnested h
      obtain ⟨l, hl, rfl, hpd⟩ := exists_leaf_of_placed h' (hperm.mem_iff.1 hm) hpath hd hplace
      exact DamlModule.dataTypeAt_of_safe (hok.of_perm hperm'.symm)
        (hnest.of_perm hperm'.symm) hl hpd

/-- The module with the given name and data types. -/
def bareModule (nameIndex : Int) (dataTypes : List DefDataType) : DamlModulePayload where
  nameIndex := nameIndex
  flags := ⟨true, true, true⟩
  module :=
    { nameInternedDname := nameIndex
      flags := some ⟨true, true, true⟩
      synonyms := []
      dataTypes := dataTypes
      values := []
      templates := []
      exceptions := []
      interfaces := [] }

/-- The modules `A.B` and `A`, with a record of the given name in `A`. -/
def nestPackage (dottedName : List Nat) : DamlPackagePayload where
  name := "nest"
  languageVersion := .lv2 .v1
  packageId := "pkg"
  internedStrings := ["A", "B", "C", "D"]
  internedDottedNames := [[0], [0, 1], dottedName]
  internedTypes := []
  internedKinds := []
  internedExprs := []
  pkgNames := [("pkg", "nest")]
  version := some "1.0.0"
  modules := [bareModule 1 [], bareModule 0 [⟨2, [], true, .record []⟩]]

/-- A record `B.C.D` in `A` goes below the module `A.B`, and is there in either order. -/
theorem orderIndependent_and_keepsData_below :
    (nestPackage [1, 2, 3]).OrderIndependent ∧ (nestPackage [1, 2, 3]).KeepsData := by
  refine (orderIndependent_and_keepsData_iff (by decide) (by decide)).2 fun _ => ?_
  intro m hm d hd _ p s hp hs r hr hpre hway
  obtain rfl | hm := List.mem_cons.1 hm
  · cases hd
  obtain rfl := List.mem_singleton.1 hm
  obtain rfl := List.mem_singleton.1 hd
  cases hp
  cases hs
  obtain ⟨m₁, hm₁, hpath₁⟩ : (nestPackage [1, 2, 3]).DeclaresModule ["A", "B"] :=
    ⟨_, List.mem_cons_self, rfl⟩
  rcases r with _ | ⟨x, _ | ⟨y, r⟩⟩
  · exact absurd rfl hr
  · -- the node of the module `A.B`, which is declared
    obtain ⟨rfl, -⟩ := List.cons_prefix_cons.1 hpre
    exact ⟨⟨m₁, hm₁, hpath₁⟩, by decide⟩
  · -- no module is declared as deep as the node of the record
    obtain ⟨q, ⟨m', hm', hq⟩, hle⟩ := hway
    have hlen := hle.length_le
    obtain rfl | hm' := List.mem_cons.1 hm'
    · cases hq
      simp at hlen
    · obtain rfl := List.mem_singleton.1 hm'
      cases hq
      simp at hlen

/-- The record `B.C` in `A` belongs into the module `A.B`. -/
def clashPackage : DamlPackagePayload := nestPackage [1, 2]

/-- With `A.B` listed before `A` the record is there, with `A` listed first it is lost. -/
theorem not_orderIndependent_clash :
    clashPackage.ModuleNamesDistinct ∧ clashPackage.DataNamesDistinct ∧
      ¬ clashPackage.OrderIndependent ∧ ¬ clashPackage.KeepsData := by
  have hperm : clashPackage.modules.Perm clashPackage.modules.reverse :=
    (List.reverse_perm clashPackage.modules).symm
  have htree : ∃ t, clashPackage.buildModuleTree 1 = .ok t ∧
      (t.dataTypeAt ["A", "B"] "C").isSome := ⟨_, rfl, rfl⟩
  have htree' : ∃ t, (clashPackage.reorder clashPackage.modules.reverse).buildModuleTree 1 = .ok t ∧
      t.dataTypeAt ["A", "B"] "C" = none := ⟨_, rfl, rfl⟩
  obtain ⟨t, ht, hdata⟩ := htree
  obtain ⟨t', ht', hlost⟩ := htree'
  refine ⟨by decide, by decide, fun hind => ?_, fun hkeep => ?_⟩
  · obtain ⟨hfail, -⟩ | ⟨s, s', hs, hs', hsame⟩ := hind 1 _ hperm
    · exact hfail t ht
    cases ht.symm.trans hs
    cases ht'.symm.trans hs'
    rw [hsame.dataTypeAt_eq, hlost] at hdata
    nomatch hdata
  · have hrecord : (bareModule 0 [⟨2, [], true, .record []⟩]) ∈ clashPackage.modules :=
      List.mem_cons_of_mem _ (List.mem_singleton_self _)
    have hdata := hkeep 1 _ t' hperm ht' _ hrecord ["A"] rfl _ (List.mem_singleton_self _) _ rfl
    cases hlost.symm.trans hdata

end DamlPackagePayload

end DamlBindings.Lf
