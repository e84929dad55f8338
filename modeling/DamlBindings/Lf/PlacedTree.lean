import DamlBindings.Lf.DataPlacement

/-!
# Modules at their places

In a tree of modules every module knows the path that leads to it, and has a child under a name
once.  The conversion keeps this.
-/

namespace DamlBindings.Lf

open PathTree DamlModuleBody

/-- A tree in which every module knows its path and has one child under a name. -/
inductive Placed : DamlModule → Prop
  | node {body : DamlModuleBody} {childModules : List (String × DamlModule)} :
      (AssocMap.keys childModules).Nodup →
      (∀ c ∈ childModules, c.2.val.path = body.path ++ [c.1]) →
      (∀ c ∈ childModules, Placed c.2) → Placed (.node body childModules)

namespace Placed

variable {m : DamlModule}

lemma nodup (h : Placed m) : (AssocMap.keys m.childModules).Nodup := by
  cases h with
  | node hnodup _ _ => exact hnodup

lemma path_eq (h : Placed m) {c : String × DamlModule} (hc : c ∈ m.childModules) :
    c.2.val.path = m.val.path ++ [c.1] := by
  cases h with
  | node _ hpath _ => exact hpath c hc

lemma child (h : Placed m) {c : String × DamlModule} (hc : c ∈ m.childModules) : Placed c.2 := by
  cases h with
  | node _ _ hchild => exact hchild c hc

lemma empty (body : DamlModuleBody) : Placed (.node body []) :=
  .node List.nodup_nil (by simp) (by simp)

lemma modifyVal {f : DamlModuleBody → DamlModuleBody} (hf : ∀ b, (f b).path = b.path)
    (h : Placed m) : Placed (PathTree.modifyVal f m) := by
  cases h with
  | node hnodup hpath hchild =>
    refine .node hnodup ?_ hchild
    intro c hc
    rw [hpath c hc, hf]

/-- A descent keeps the places if what it does at its end keeps them. -/
lemma alter {new : DamlModuleBody → String → DamlModuleBody}
    {f : DamlModule → DamlModule} (hnew : ∀ b k, (new b k).path = b.path ++ [k])
    (hf : ∀ m, Placed m → Placed (f m) ∧ (f m).val.path = m.val.path) (q : List String)
    (h : Placed m) : Placed (PathTree.alter new f q m) ∧
      (PathTree.alter new f q m).val.path = m.val.path := by
  induction q generalizing m with
  | nil => exact hf m h
  | cons k q ih =>
    set child := (m.childModules.lookup k).getD (.node (new m.val k) []) with hchild
    have hplaced : Placed child ∧ child.val.path = m.val.path ++ [k] := by
      rw [hchild]
      rcases hlookup : m.childModules.lookup k with - | c
      · exact ⟨empty _, hnew _ k⟩
      · have hmem := AssocMap.mem_of_lookup hlookup
        exact ⟨h.child hmem, h.path_eq hmem⟩
    obtain ⟨halter, hpath⟩ := ih hplaced.1
    -- the other children stay as they are
    have hentry : ∀ c ∈ AssocMap.insert k (PathTree.alter new f q child) m.childModules,
        c = (k, PathTree.alter new f q child) ∨ c ∈ m.childModules := by
      intro c hc
      exact AssocMap.eq_or_mem_of_mem_insert hc
    refine ⟨.node (AssocMap.nodup_keys_insert h.nodup) ?_ ?_, rfl⟩
    · intro c hc
      rcases hentry c hc with rfl | hmem
      · rw [hpath, hplaced.2]
      · exact h.path_eq hmem
    · intro c hc
      rcases hentry c hc with rfl | hmem
      · exact halter
      · exact h.child hmem

end Placed

/-! ### Conversion -/

namespace DamlModule

variable {m : DamlModule}

lemma placed_insertNested (d : PlacedData) (h : Placed m) :
    Placed (insertNested m d) ∧ (insertNested m d).val.path = m.val.path := by
  refine h.alter (fun _ _ => rfl) ?_ d.extraPath
  intro m' hm'
  exact ⟨hm'.modifyVal fun _ => rfl, by rw [val_modifyVal]; rfl⟩

lemma placed_foldl_insertNested (ds : List PlacedData) (h : Placed m) :
    Placed (ds.foldl insertNested m) ∧ (ds.foldl insertNested m).val.path = m.val.path := by
  induction ds generalizing m with
  | nil => exact ⟨h, rfl⟩
  | cons d ds ih =>
    obtain ⟨hplaced, hpath⟩ := placed_insertNested d h
    obtain ⟨hplaced', hpath'⟩ := ih hplaced
    exact ⟨hplaced', hpath'.trans hpath⟩

lemma placed_insertLeaf (leaf : ModuleLeaf) (h : Placed m) :
    Placed (insertLeaf m leaf) ∧ (insertLeaf m leaf).val.path = m.val.path := by
  refine h.alter (fun _ _ => rfl) ?_ leaf.path
  intro cursor hcursor
  have htake : Placed (PathTree.modifyVal (takeFrom leaf) cursor) := hcursor.modifyVal fun _ => rfl
  obtain ⟨hplaced, hpath⟩ := placed_foldl_insertNested (nestedData leaf) htake
  exact ⟨hplaced, hpath.trans (by rw [val_modifyVal]; rfl)⟩

/-- The tree of converted modules has every module at its place. -/
theorem placed_ofLeaves (leaves : List ModuleLeaf) :
    Placed (ofLeaves leaves) ∧ (ofLeaves leaves).val.path = [] := by
  have hall : ∀ ls : List ModuleLeaf, ∀ m : DamlModule, Placed m →
      Placed (ls.foldl insertLeaf m) ∧ (ls.foldl insertLeaf m).val.path = m.val.path := by
    intro ls
    induction ls with
    | nil => exact fun m h => ⟨h, rfl⟩
    | cons l ls ih =>
      intro m h
      obtain ⟨hplaced, hpath⟩ := placed_insertLeaf l h
      obtain ⟨hplaced', hpath'⟩ := ih _ hplaced
      exact ⟨hplaced', hpath'.trans hpath⟩
  exact hall leaves newRoot (Placed.empty _)

end DamlModule

/-- An archive with one package under an id, in which every module is at its place. -/
structure DamlArchive.WellPlaced (A : DamlArchive) : Prop where
  nodup : (AssocMap.keys A.packages).Nodup
  rootModules : ∀ e ∈ A.packages, Placed e.2.rootModule

/-- The conversion gives no other archives. -/
theorem DamlArchivePayload.wellPlaced_of_buildArchive {payload : DamlArchivePayload} {fuel : Nat}
    {archive : DamlArchive} (h : payload.buildArchive fuel = .ok archive) : archive.WellPlaced := by
  obtain ⟨packages, hpackages, rfl⟩ := Except.map_eq_ok.1 h
  refine ⟨AssocMap.nodup_keys_ofList _, fun e he => ?_⟩
  obtain ⟨p, -, hp⟩ :=
    (Except.mapM_eq_ok.1 hpackages).exists_left (AssocMap.mem_of_mem_ofList he)
  obtain ⟨package, hbuild, rfl⟩ := Except.map_eq_ok.1 hp
  obtain ⟨root, hroot, rfl⟩ := Except.map_eq_ok.1 hbuild
  obtain ⟨leaves, -, rfl⟩ := DamlPackagePayload.buildModuleTree_eq_ok.1 hroot
  exact (DamlModule.placed_ofLeaves leaves).1

end DamlBindings.Lf
