import DamlBindings.Lf.ConvertModule

/-!
# What the tree of modules holds

The tree is built from the converted modules one after the other.  At every path, the insertions
are followed separately: a module acts on the nodes on the way to it, on its own node, and on the
nodes that host its data types with dotted names.
-/

namespace DamlBindings.Lf

open PathTree DamlModuleBody

/-! ### Bodies -/

namespace DamlModuleBody

/-- The flags, synonyms, interfaces, exceptions and values of a body. -/
def header (b : DamlModuleBody) : DamlModuleBody :=
  { b with path := [], dataTypes := [], synthetic := false }

variable (b : DamlModuleBody) (leaf : ModuleLeaf) (name : String) (data : DamlData)

@[simp] lemma path_newEmpty (q : List String) : (newEmpty q).path = q := rfl

@[simp] lemma path_newSynthetic (q : List String) : (newSynthetic q).path = q := rfl

@[simp] lemma path_takeFrom : (b.takeFrom leaf).path = b.path := rfl

@[simp] lemma path_insertDataType : (b.insertDataType name data).path = b.path := rfl

@[simp] lemma dataTypes_newEmpty (q : List String) : (newEmpty q).dataTypes = [] := rfl

@[simp] lemma dataTypes_newSynthetic (q : List String) : (newSynthetic q).dataTypes = [] := rfl

@[simp] lemma dataTypes_insertDataType :
    (b.insertDataType name data).dataTypes = AssocMap.insert name data b.dataTypes := rfl

@[simp] lemma synthetic_newEmpty (q : List String) : (newEmpty q).synthetic = false := rfl

@[simp] lemma synthetic_newSynthetic (q : List String) : (newSynthetic q).synthetic = true := rfl

@[simp] lemma synthetic_takeFrom : (b.takeFrom leaf).synthetic = false := rfl

@[simp] lemma synthetic_insertDataType : (b.insertDataType name data).synthetic = b.synthetic := rfl

lemma header_newEmpty (q : List String) : (newEmpty q).header = (newEmpty []).header := rfl

@[simp] lemma header_insertDataType : (b.insertDataType name data).header = b.header := rfl

lemma header_takeFrom : (b.takeFrom leaf).header = ((newEmpty []).takeFrom leaf).header := rfl

/-- The same body, up to the order of the entries of its maps. -/
structure Same (b b' : DamlModuleBody) : Prop where
  path : b.path = b'.path
  flags : b.flags = b'.flags
  synonyms : b.synonyms = b'.synonyms
  dataTypes : ∀ k, b.dataTypes.lookup k = b'.dataTypes.lookup k
  interfaces : ∀ k, b.interfaces.lookup k = b'.interfaces.lookup k
  exceptions : ∀ k, b.exceptions.lookup k = b'.exceptions.lookup k
  values : ∀ k, b.values.lookup k = b'.values.lookup k
  synthetic : b.synthetic = b'.synthetic

end DamlModuleBody

/-! ### Converted modules -/

/-- A node on the way to a place below `p` is on the way to `p` or lies below `p` itself. -/
lemma prefix_append_cases {q p e : List String} (h : q <+: p ++ e) :
    q <+: p ∨ ∃ r, q = p ++ r ∧ r <+: e := by
  rcases List.prefix_or_prefix_of_prefix h (List.prefix_append p e) with hq | ⟨r, rfl⟩
  · exact .inl hq
  · exact .inr ⟨r, rfl, (List.prefix_append_right_inj p).1 h⟩

/-- The module declares `q`. -/
def Declares (leaves : List ModuleLeaf) (q : List String) : Prop := ∃ l ∈ leaves, l.path = q

/-- A data type of one of the modules belongs at `q`, under `k`. -/
def Defines (leaves : List ModuleLeaf) (q : List String) (k : String) (x : DamlData) : Prop :=
  ∃ l ∈ leaves, ∃ d ∈ l.dataTypes, l.path ++ d.extraPath = q ∧ d.key = k ∧ d.data = x

/-- The flattened names of the data types. -/
def dataNames (leaves : List ModuleLeaf) : List (List String) :=
  leaves.flatMap fun l => l.dataTypes.map fun d => l.path ++ d.extraPath ++ [d.key]

/-- Module names and flattened data names are distinct, and data types know their names. -/
structure LeavesOk (leaves : List ModuleLeaf) : Prop where
  paths : (leaves.map ModuleLeaf.path).Nodup
  names : (dataNames leaves).Nodup
  name_eq : ∀ l ∈ leaves, ∀ d ∈ l.dataTypes, d.data.name = d.key

/-- No data type with a dotted name belongs at or above a declared module, unless above a
node that is declared itself. -/
def NestedSafe (leaves : List ModuleLeaf) : Prop :=
  ∀ l ∈ leaves, ∀ d ∈ l.dataTypes, ∀ r, r ≠ [] → r <+: d.extraPath →
    (∃ l' ∈ leaves, l.path ++ r <+: l'.path) → Declares leaves (l.path ++ r) ∧ r ≠ d.extraPath

section Perm

variable {leaves leaves' : List ModuleLeaf}

lemma Declares.of_perm (h : leaves.Perm leaves') {q : List String} (hq : Declares leaves q) :
    Declares leaves' q := by
  obtain ⟨l, hl, hpath⟩ := hq
  exact ⟨l, h.mem_iff.1 hl, hpath⟩

lemma Defines.of_perm (h : leaves.Perm leaves') {q : List String} {k : String} {x : DamlData}
    (hq : Defines leaves q k x) : Defines leaves' q k x := by
  obtain ⟨l, hl, hd⟩ := hq
  exact ⟨l, h.mem_iff.1 hl, hd⟩

lemma LeavesOk.of_perm (h : leaves.Perm leaves') (hok : LeavesOk leaves) : LeavesOk leaves' where
  paths := (h.map _).nodup_iff.1 hok.paths
  names := (h.flatMap_right _).nodup_iff.1 hok.names
  name_eq l hl := hok.name_eq l (h.mem_iff.2 hl)

lemma NestedSafe.of_perm (h : leaves.Perm leaves') (hsafe : NestedSafe leaves) :
    NestedSafe leaves' := by
  intro l hl d hd r hr hpre hup
  obtain ⟨l', hl', hup⟩ := hup
  obtain ⟨hdecl, hne⟩ := hsafe l (h.mem_iff.2 hl) d hd r hr hpre ⟨l', h.mem_iff.2 hl', hup⟩
  exact ⟨hdecl.of_perm h, hne⟩

lemma LeavesOk.eq_of_path (hok : LeavesOk leaves) {l l' : ModuleLeaf} (hl : l ∈ leaves)
    (hl' : l' ∈ leaves) (h : l.path = l'.path) : l = l' :=
  List.inj_on_of_nodup_map hok.paths hl hl' h

/-- A flattened name belongs to one data type of one module. -/
lemma LeavesOk.eq_of_name (hok : LeavesOk leaves) {l l' : ModuleLeaf} (hl : l ∈ leaves)
    (hl' : l' ∈ leaves) {d d' : PlacedData} (hd : d ∈ l.dataTypes) (hd' : d' ∈ l'.dataTypes)
    (h : l.path ++ d.extraPath = l'.path ++ d'.extraPath) (hkey : d.key = d'.key) :
    l = l' ∧ d = d' := by
  have hpairs : (leaves.flatMap fun l => l.dataTypes.map fun d => (l, d)).map
      (fun p => p.1.path ++ p.2.extraPath ++ [p.2.key]) = dataNames leaves := by
    simp [dataNames, List.map_flatMap, Function.comp_def]
  have hmem : ∀ {l d}, l ∈ leaves → d ∈ l.dataTypes →
      (l, d) ∈ leaves.flatMap fun l => l.dataTypes.map fun d => (l, d) := by
    intro l d hl hd
    exact List.mem_flatMap.2 ⟨l, hl, List.mem_map.2 ⟨d, hd, rfl⟩⟩
  have heq := List.inj_on_of_nodup_map (hpairs ▸ hok.names) (hmem hl hd) (hmem hl' hd')
    (by rw [h, hkey])
  exact Prod.mk.injEq .. ▸ heq

end Perm

/-! ### Insertion as a sequence of touches -/

namespace DamlModule

/-- `insert_module` at the node of the module. -/
def ownTouch (l : ModuleLeaf) : Touch String DamlModuleBody where
  path := l.path
  newChild := newChild
  newAt := newEmpty
  change := takeFrom l

/-- `insert_module` at the node that hosts a data type with a dotted name. -/
def nestedTouch (l : ModuleLeaf) (d : PlacedData) : Touch String DamlModuleBody where
  path := l.path ++ d.extraPath
  newChild := newSyntheticChild
  newAt := newSynthetic
  change := insertDataType d.key d.data

def touches (l : ModuleLeaf) : List (Touch String DamlModuleBody) :=
  ownTouch l :: (nestedData l).map (nestedTouch l)

lemma insertLeaf_eq (root : DamlModule) (l : ModuleLeaf) :
    insertLeaf root l = (touches l).foldl (fun t op => op.apply t) root := by
  have hnested : (fun cursor => (nestedData l).foldl insertNested (modifyVal (takeFrom l) cursor)) =
      fun cursor =>
        ((nestedData l).map fun d => { nestedTouch l d with path := d.extraPath }).foldl
          (fun c op => op.apply c) (modifyVal (takeFrom l) cursor) := by
    ext cursor
    rw [List.foldl_map]
    rfl
  rw [insertLeaf, hnested, alter_foldl_apply, List.map_map]
  rfl

/-- The tree of a list of converted modules. -/
def ofLeaves (leaves : List ModuleLeaf) : DamlModule := leaves.foldl insertLeaf newRoot

/-- What the touches of a list of modules do at `q`. -/
def leavesStep (leaves : List ModuleLeaf) (q : List String) (o : Option DamlModuleBody) :
    Option DamlModuleBody :=
  (leaves.flatMap touches).foldl (fun o op => op.step q o) o

lemma ofLeaves_eq (leaves : List ModuleLeaf) :
    ofLeaves leaves = (leaves.flatMap touches).foldl (fun t op => op.apply t) newRoot := by
  rw [ofLeaves, List.foldl_flatMap]
  congr 1
  ext root l
  exact insertLeaf_eq root l

lemma forall_touches {P : Touch String DamlModuleBody → Prop} {leaves : List ModuleLeaf}
    (own : ∀ l ∈ leaves, P (ownTouch l))
    (nested : ∀ l ∈ leaves, ∀ d ∈ l.dataTypes, d.extraPath ≠ [] → P (nestedTouch l d)) :
    ∀ op ∈ leaves.flatMap touches, P op := by
  intro op hop
  obtain ⟨l, hl, hop⟩ := List.mem_flatMap.1 hop
  rcases List.mem_cons.1 hop with rfl | hop
  · exact own l hl
  obtain ⟨d, hd, rfl⟩ := List.mem_map.1 hop
  obtain ⟨hd, hextra⟩ := List.mem_filter.1 hd
  refine nested l hl d hd ?_
  rintro h
  simp [h] at hextra

lemma ownTouch_mem {leaves : List ModuleLeaf} {l : ModuleLeaf} (hl : l ∈ leaves) :
    ownTouch l ∈ leaves.flatMap touches :=
  List.mem_flatMap.2 ⟨l, hl, List.mem_cons_self⟩

lemma nestedTouch_mem {leaves : List ModuleLeaf} {l : ModuleLeaf} {d : PlacedData} (hl : l ∈ leaves)
    (hd : d ∈ l.dataTypes) (hextra : d.extraPath ≠ []) :
    nestedTouch l d ∈ leaves.flatMap touches := by
  refine List.mem_flatMap.2 ⟨l, hl, List.mem_cons_of_mem _ (List.mem_map_of_mem ?_)⟩
  exact List.mem_filter.2 ⟨hd, by simp [hextra]⟩

/-- Every node knows its path. -/
def AtPath (q : List String) (b : DamlModuleBody) : Prop := b.path = q

lemma touches_respect (leaves : List ModuleLeaf) :
    ∀ op ∈ leaves.flatMap touches, op.Respects AtPath := by
  refine forall_touches (fun l _ => ⟨?_, fun _ => rfl, fun h => h⟩)
    (fun l _ d _ _ => ⟨?_, fun _ => rfl, fun h => h⟩)
  · rintro q b rfl k
    rfl
  · rintro q b rfl k
    rfl

/-- The root before any module is inserted. -/
def rootAt (q : List String) : Option DamlModuleBody := if q = [] then some (newEmpty []) else none

theorem valAt_ofLeaves (leaves : List ModuleLeaf) (q : List String) :
    valAt (ofLeaves leaves) q = leavesStep leaves q (rootAt q) := by
  have hroot : ∀ q, valAt newRoot q = rootAt q := valAt_node_nil _
  rw [ofLeaves_eq, valAt_foldl_apply (touches_respect leaves), hroot]
  · rfl
  · intro q b hb
    rw [hroot, rootAt] at hb
    split_ifs at hb with hq
    · cases hb
      exact hq.symm
    · nomatch hb

/-! ### What the insertions keep -/

section Keep

variable {leaves : List ModuleLeaf} {q : List String} {Q : DamlModuleBody → Prop}

/-- A property of the body at `q` that every step of every insertion keeps. -/
lemma forall_leavesStep (hempty : (∃ l ∈ leaves, q <+: l.path) → Q (newEmpty q))
    (hsynthetic : (∃ l ∈ leaves, ∃ d ∈ l.dataTypes, d.extraPath ≠ [] ∧
      q <+: l.path ++ d.extraPath) → Q (newSynthetic q))
    (htake : ∀ l ∈ leaves, q = l.path → ∀ b, Q b → Q (b.takeFrom l))
    (hinsert : ∀ l ∈ leaves, ∀ d ∈ l.dataTypes, d.extraPath ≠ [] → q = l.path ++ d.extraPath →
      ∀ b, Q b → Q (b.insertDataType d.key d.data))
    {o : Option DamlModuleBody} (ho : ∀ b ∈ o, Q b) : ∀ b ∈ leavesStep leaves q o, Q b := by
  refine forall_foldl_step ?_ ?_ ho
  · refine forall_touches (fun l hl h => hempty ⟨l, hl, h⟩) ?_
    exact fun l hl d hd hextra h => hsynthetic ⟨l, hl, d, hd, hextra, h⟩
  · exact forall_touches htake hinsert

/-- A property of the body at `q` that one step establishes and all of them keep. -/
lemma forall_leavesStep_of_mem {op : Touch String DamlModuleBody}
    (hop : op ∈ leaves.flatMap touches) (hQ : ∀ b, Q (op.change b))
    (htake : ∀ l ∈ leaves, op.path = l.path → ∀ b, Q b → Q (b.takeFrom l))
    (hinsert : ∀ l ∈ leaves, ∀ d ∈ l.dataTypes, d.extraPath ≠ [] → op.path = l.path ++ d.extraPath →
      ∀ b, Q b → Q (b.insertDataType d.key d.data)) (o : Option DamlModuleBody) :
    ∀ b ∈ leavesStep leaves op.path o, Q b :=
  forall_foldl_step_of_mem hop hQ (forall_touches htake hinsert) o

lemma forall_leavesStep_some
    (htake : ∀ l ∈ leaves, q = l.path → ∀ b, Q b → Q (b.takeFrom l))
    (hinsert : ∀ l ∈ leaves, ∀ d ∈ l.dataTypes, d.extraPath ≠ [] → q = l.path ++ d.extraPath →
      ∀ b, Q b → Q (b.insertDataType d.key d.data)) {b : DamlModuleBody} (hb : Q b) :
    ∀ b' ∈ leavesStep leaves q (some b), Q b' :=
  forall_foldl_step_some (forall_touches htake hinsert) hb

lemma leavesStep_cons (l : ModuleLeaf) (o : Option DamlModuleBody) :
    leavesStep (l :: leaves) q o = leavesStep leaves q (leavesStep [l] q o) := by
  simp [leavesStep, List.foldl_append]

lemma leavesStep_concat (l : ModuleLeaf) (o : Option DamlModuleBody) :
    leavesStep (leaves ++ [l]) q o = leavesStep [l] q (leavesStep leaves q o) := by
  simp [leavesStep, List.foldl_append]

/-- A module does nothing at a node that is not on the way to it or to one of its data types. -/
lemma leavesStep_singleton_off_path {l : ModuleLeaf} (hq : ¬ q <+: l.path)
    (hnested : ∀ d ∈ l.dataTypes, ¬ q <+: l.path ++ d.extraPath) (o : Option DamlModuleBody) :
    leavesStep [l] q o = o := by
  refine foldl_step_off_path (forall_touches ?_ ?_) o
  · exact List.forall_mem_singleton.2 hq
  · exact List.forall_mem_singleton.2 fun d hd _ => hnested d hd

/-- On the way to a module, nodes are created by `child_module_or_new` only. -/
lemma forall_leavesStep_singleton_way {l : ModuleLeaf} (hq : q <+: l.path)
    (hempty : Q (newEmpty q)) (htake : q = l.path → ∀ b, Q b → Q (b.takeFrom l))
    {o : Option DamlModuleBody} (ho : ∀ b ∈ o, Q b) : ∀ b ∈ leavesStep [l] q o, Q b := by
  have hsome : ((ownTouch l).step q o).isSome := Touch.isSome_step.2 (.inr hq)
  obtain ⟨b, hb⟩ := Option.isSome_iff_exists.1 hsome
  have hQ : Q b := Touch.forall_step (fun _ _ => hempty) htake ho b hb
  have hstep : leavesStep [l] q o =
      ((nestedData l).map (nestedTouch l)).foldl (fun o op => op.step q o) (some b) := by
    rw [← hb]
    simp [leavesStep, touches]
  rw [hstep]
  refine forall_foldl_step_some ?_ hQ
  rintro op hop rfl
  -- The node of a nested data type is strictly below the module.
  obtain ⟨d, hd, rfl⟩ := List.mem_map.1 hop
  obtain ⟨-, hextra⟩ := List.mem_filter.1 hd
  have hlen : (l.path ++ d.extraPath).length ≤ l.path.length := hq.length_le
  have hnil : d.extraPath = [] := by simpa using hlen
  simp [hnil] at hextra

lemma isSome_leavesStep {o : Option DamlModuleBody} :
    (leavesStep leaves q o).isSome ↔
      o.isSome ∨ ∃ l ∈ leaves, q <+: l.path ∨ ∃ d ∈ l.dataTypes, q <+: l.path ++ d.extraPath := by
  refine isSome_foldl_step.trans (or_congr_right ⟨?_, ?_⟩)
  · rintro ⟨op, hop, hpre⟩
    revert hpre
    refine forall_touches (P := fun op => q <+: op.path → _) ?_ ?_ op hop
    · exact fun l hl hpre => ⟨l, hl, .inl hpre⟩
    · exact fun l hl d hd _ hpre => ⟨l, hl, .inr ⟨d, hd, hpre⟩⟩
  · rintro ⟨l, hl, hpre | ⟨d, hd, hpre⟩⟩
    · exact ⟨_, ownTouch_mem hl, hpre⟩
    by_cases hextra : d.extraPath = []
    · rw [hextra, List.append_nil] at hpre
      exact ⟨_, ownTouch_mem hl, hpre⟩
    · exact ⟨_, nestedTouch_mem hl hd hextra, hpre⟩

end Keep

lemma forall_rootAt {Q : DamlModuleBody → Prop} {q : List String} (h : Q (newEmpty q)) :
    ∀ b ∈ rootAt q, Q b := by
  intro b hb
  rw [rootAt] at hb
  split_ifs at hb with hq
  · cases hb
    exact hq ▸ h
  · nomatch hb

/-! ### Data types -/

section DataTypes

variable {leaves : List ModuleLeaf} {q : List String}

/-- What lies in a node is the data of a definition that belongs there. -/
lemma defines_of_lookup (hok : LeavesOk leaves) {b : DamlModuleBody}
    (hb : valAt (ofLeaves leaves) q = some b) {k : String} {x : DamlData}
    (hx : b.dataTypes.lookup k = some x) : Defines leaves q k x := by
  rw [valAt_ofLeaves] at hb
  suffices h : ∀ k x, b.dataTypes.lookup k = some x → Defines leaves q k x from h k x hx
  refine forall_leavesStep (Q := fun b => ∀ k x, b.dataTypes.lookup k = some x →
    Defines leaves q k x) (fun _ => nofun) (fun _ => nofun) ?_ ?_ (forall_rootAt nofun) b hb
  · intro l hl hq _ _ k x hx
    obtain ⟨d, hd, heq⟩ := List.mem_map.1 (AssocMap.mem_of_lookup_ofList hx)
    obtain ⟨hd, hextra⟩ := List.mem_filter.1 hd
    cases heq
    refine ⟨l, hl, d, hd, ?_, (hok.name_eq l hl d hd).symm, rfl⟩
    rw [List.isEmpty_iff.1 hextra, List.append_nil, hq]
  · intro l hl d hd _ hq b hb k x hx
    rw [dataTypes_insertDataType, AssocMap.lookup_insert] at hx
    split_ifs at hx with hk
    · cases hx
      exact ⟨l, hl, d, hd, hq.symm, hk.symm, rfl⟩
    · exact hb k x hx

/-- Every data type lies where it belongs, if no module is declared at the node that hosts it. -/
lemma lookup_of_defines (hok : LeavesOk leaves) {l : ModuleLeaf} (hl : l ∈ leaves) {d : PlacedData}
    (hd : d ∈ l.dataTypes) (hfree : d.extraPath ≠ [] → ¬ Declares leaves (l.path ++ d.extraPath)) :
    ∃ b, valAt (ofLeaves leaves) (l.path ++ d.extraPath) = some b ∧
      b.dataTypes.lookup d.key = some d.data := by
  have hex : ∃ b, valAt (ofLeaves leaves) (l.path ++ d.extraPath) = some b := by
    rw [valAt_ofLeaves, ← Option.isSome_iff_exists, isSome_leavesStep]
    exact .inr ⟨l, hl, .inr ⟨d, hd, List.prefix_rfl⟩⟩
  obtain ⟨b, hb⟩ := hex
  have hkey : d.key ∈ AssocMap.keys b.dataTypes := by
    rw [valAt_ofLeaves] at hb
    have hinsert : ∀ d' : PlacedData, ∀ b : DamlModuleBody, d.key ∈ AssocMap.keys b.dataTypes →
        d.key ∈ AssocMap.keys (b.insertDataType d'.key d'.data).dataTypes :=
      fun d' b h => AssocMap.mem_keys_insert.2 (.inr h)
    by_cases hextra : d.extraPath = []
    · have hown : ∀ b : DamlModuleBody, d.key ∈ AssocMap.keys (b.takeFrom l).dataTypes := by
        intro b
        refine AssocMap.mem_keys_ofList.2 (List.mem_map.2 ⟨(d.data.name, d.data), ?_, ?_⟩)
        · exact List.mem_map.2 ⟨d, List.mem_filter.2 ⟨hd, by simp [hextra]⟩, rfl⟩
        · exact hok.name_eq l hl d hd
      rw [hextra, List.append_nil] at hb
      refine forall_leavesStep_of_mem (Q := fun b => d.key ∈ AssocMap.keys b.dataTypes)
        (ownTouch_mem hl) hown ?_ (fun _ _ d' _ _ _ => hinsert d') _ b hb
      intro l' hl' hpath b _
      rw [hok.eq_of_path hl' hl hpath.symm]
      exact hown b
    · refine forall_leavesStep_of_mem (Q := fun b => d.key ∈ AssocMap.keys b.dataTypes)
        (nestedTouch_mem hl hd hextra) ?_ ?_ (fun _ _ d' _ _ _ => hinsert d') _ b hb
      · exact fun b => AssocMap.mem_keys_insert.2 (.inl rfl)
      · exact fun l' hl' hpath => absurd ⟨l', hl', hpath.symm⟩ (hfree hextra)
  obtain ⟨x, hx⟩ := AssocMap.exists_lookup.2 hkey
  obtain ⟨l', hl', d', hd', hpath, hkey', rfl⟩ := defines_of_lookup hok hb hx
  obtain ⟨rfl, rfl⟩ := hok.eq_of_name hl' hl hd' hd hpath hkey'
  exact ⟨b, hb, hx⟩

/-- With no module declared at a node that hosts data types, they all lie where they belong. -/
lemma lookup_iff_defines (hok : LeavesOk leaves) (hsafe : NestedSafe leaves) {b : DamlModuleBody}
    (hb : valAt (ofLeaves leaves) q = some b) {k : String} {x : DamlData} :
    b.dataTypes.lookup k = some x ↔ Defines leaves q k x := by
  refine ⟨defines_of_lookup hok hb, ?_⟩
  rintro ⟨l, hl, d, hd, rfl, rfl, rfl⟩
  obtain ⟨b', hb', hx⟩ := lookup_of_defines hok hl hd fun hextra ⟨l', hl', hpath⟩ =>
    (hsafe l hl d hd _ hextra List.prefix_rfl ⟨l', hl', hpath ▸ List.prefix_rfl⟩).2 rfl
  cases hb.symm.trans hb'
  exact hx

end DataTypes

/-! ### Headers and synthetic marks -/

section Headers

variable {leaves : List ModuleLeaf} {q : List String} {b : DamlModuleBody}

lemma path_of_valAt (hb : valAt (ofLeaves leaves) q = some b) : b.path = q := by
  rw [valAt_ofLeaves] at hb
  exact forall_leavesStep (Q := fun b => b.path = q) (fun _ => rfl) (fun _ => rfl)
    (fun _ _ _ _ h => h) (fun _ _ _ _ _ _ _ h => h) (forall_rootAt rfl) b hb

lemma header_of_declared (hpaths : (leaves.map ModuleLeaf.path).Nodup) {l : ModuleLeaf}
    (hl : l ∈ leaves) (hb : valAt (ofLeaves leaves) l.path = some b) :
    b.header = ((newEmpty []).takeFrom l).header := by
  rw [valAt_ofLeaves] at hb
  refine forall_leavesStep_of_mem (Q := fun b => b.header = ((newEmpty []).takeFrom l).header)
    (ownTouch_mem hl) (fun _ => rfl) ?_ (fun _ _ _ _ _ _ _ h => h) _ b hb
  intro l' hl' hpath _ _
  rw [List.inj_on_of_nodup_map hpaths hl' hl hpath.symm]
  rfl

lemma header_of_not_declared (hq : ¬ Declares leaves q)
    (hb : valAt (ofLeaves leaves) q = some b) : b.header = (newEmpty []).header := by
  rw [valAt_ofLeaves] at hb
  exact forall_leavesStep (q := q) (Q := fun b => b.header = (newEmpty []).header) (fun _ => rfl)
    (fun _ => rfl) (fun l hl hpath => absurd ⟨l, hl, hpath.symm⟩ hq) (fun _ _ _ _ _ _ _ h => h)
    (forall_rootAt (header_newEmpty q)) b hb

/-- The nodes of modules and on the way to modules are not synthetic. -/
lemma synthetic_on_way (hsafe : NestedSafe leaves) {l : ModuleLeaf} (hl : l ∈ leaves)
    (hq : q <+: l.path) (hb : valAt (ofLeaves leaves) q = some b) : b.synthetic = false := by
  rw [valAt_ofLeaves] at hb
  by_cases hdecl : Declares leaves q
  · obtain ⟨l', hl', rfl⟩ := hdecl
    exact forall_leavesStep_of_mem (Q := fun b => b.synthetic = false) (ownTouch_mem hl')
      (fun _ => rfl) (fun _ _ _ _ _ => rfl) (fun _ _ _ _ _ _ _ h => h) _ b hb
  -- No data type is nested through an undeclared node on the way to a module.
  have hway : ∀ l' ∈ leaves, ¬ q <+: l'.path →
      ∀ d ∈ l'.dataTypes, ¬ q <+: l'.path ++ d.extraPath := by
    intro l' hl' hnot d hd hpre
    rcases prefix_append_cases hpre with h | ⟨r, rfl, hr⟩
    · exact hnot h
    refine hdecl (hsafe l' hl' d hd r ?_ hr ⟨l, hl, hq⟩).1
    rintro rfl
    exact hnot (by simp)
  suffices hall : ∀ ls : List ModuleLeaf, (∀ l ∈ ls, l ∈ leaves) → ∀ o : Option DamlModuleBody,
      (∀ b ∈ o, b.synthetic = false) → ∀ b ∈ leavesStep ls q o, b.synthetic = false from
    hall leaves (fun _ h => h) _ (forall_rootAt rfl) b hb
  intro ls
  induction ls with
  | nil => exact fun _ _ ho => ho
  | cons l' ls ih =>
    intro hls o ho
    rw [List.forall_mem_cons] at hls
    rw [leavesStep_cons]
    refine ih hls.2 _ ?_
    by_cases hpre : q <+: l'.path
    · exact forall_leavesStep_singleton_way (Q := fun b => b.synthetic = false) hpre rfl
        (fun _ _ _ => rfl) ho
    · rwa [leavesStep_singleton_off_path hpre (hway l' hls.1 hpre)]

/-- The nodes that are not on the way to a module are synthetic. -/
lemma synthetic_off_way (hroot : q ≠ []) (hq : ∀ l ∈ leaves, ¬ q <+: l.path)
    (hb : valAt (ofLeaves leaves) q = some b) : b.synthetic = true := by
  rw [valAt_ofLeaves, rootAt, if_neg hroot] at hb
  refine forall_leavesStep (Q := fun b => b.synthetic = true) ?_ (fun _ => rfl) ?_
    (fun _ _ _ _ _ _ _ h => h) (by simp) b hb
  · rintro ⟨l, hl, hpre⟩
    exact absurd hpre (hq l hl)
  · rintro l hl rfl
    exact absurd List.prefix_rfl (hq l hl)

end Headers

/-! ### The data types of a node -/

section DataTypes

variable {leaves : List ModuleLeaf} {q : List String} {b : DamlModuleBody}

/-- The data types of a node are kept under pairwise distinct keys. -/
lemma nodup_keys_dataTypes (hb : valAt (ofLeaves leaves) q = some b) :
    (AssocMap.keys b.dataTypes).Nodup := by
  rw [valAt_ofLeaves] at hb
  refine forall_leavesStep (q := q) (Q := fun b => (AssocMap.keys b.dataTypes).Nodup)
    (fun _ => List.nodup_nil) (fun _ => List.nodup_nil) ?_ ?_ (forall_rootAt List.nodup_nil) b hb
  · exact fun _ _ _ _ _ => AssocMap.nodup_keys_ofList _
  · exact fun _ _ _ _ _ _ _ h => AssocMap.nodup_keys_insert h

/-- A data type in the tree comes from some module, and is where its dotted name says. -/
lemma exists_leaf_of_dataType (hname : ∀ l ∈ leaves, ∀ d ∈ l.dataTypes, d.data.name = d.key)
    (hb : valAt (ofLeaves leaves) q = some b) {e : String × DamlData} (he : e ∈ b.dataTypes) :
    ∃ l ∈ leaves, ∃ d ∈ l.dataTypes, e = (d.key, d.data) ∧ q = l.path ++ d.extraPath := by
  rw [valAt_ofLeaves] at hb
  refine forall_leavesStep (Q := fun b => ∀ e ∈ b.dataTypes, ∃ l ∈ leaves, ∃ d ∈ l.dataTypes,
    e = (d.key, d.data) ∧ q = l.path ++ d.extraPath) ?_ ?_ ?_ ?_ (forall_rootAt ?_) b hb e he
  · exact fun _ => List.forall_mem_nil _
  · exact fun _ => List.forall_mem_nil _
  · rintro l hl rfl b - e he
    obtain ⟨d, hd, rfl⟩ := List.mem_map.1 (AssocMap.mem_of_mem_ofList he)
    obtain ⟨hd, hextra⟩ := List.mem_filter.1 hd
    refine ⟨l, hl, d, hd, by rw [hname l hl d hd], ?_⟩
    rw [List.isEmpty_iff.1 hextra, List.append_nil]
  · rintro l hl d hd - rfl b hb e he
    rcases AssocMap.eq_or_mem_of_mem_insert he with rfl | he
    · exact ⟨l, hl, d, hd, rfl, rfl⟩
    · exact hb e he
  · exact List.forall_mem_nil _

end DataTypes

end DamlModule

end DamlBindings.Lf
