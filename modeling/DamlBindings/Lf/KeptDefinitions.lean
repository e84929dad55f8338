import DamlBindings.Lf.NameLookup
import DamlBindings.Lf.TemplateJoin

/-!
# The definitions that the tree keeps

A module that is declared again takes the place of the earlier one, and a data type that is put
where another one lies replaces it.  The tree holds exactly what comes last.
-/

namespace DamlBindings.Lf

open Proto PathTree DamlModuleBody

namespace DamlModule

variable {leaves : List ModuleLeaf} {q : List String} {k : String} {b : DamlModuleBody}

/-- Data in the tree is the last that some module puts there, and no later module touches it. -/
lemma exists_last_of_dataTypeAt (hname : ∀ l ∈ leaves, ∀ d ∈ l.dataTypes, d.data.name = d.key)
    {x : DamlData} (hx : (ofLeaves leaves).dataTypeAt q k = some x) :
    ∃ pre l post, leaves = pre ++ l :: post ∧
      (l.dataTypes.filterMap (l.dataFor q k)).getLast? = some x ∧
      ∀ l' ∈ post, q ≠ l'.path ∧ ∀ d ∈ l'.dataTypes, l'.dataFor q k d = none := by
  change dataIn (valAt (ofLeaves leaves) q) k = some x at hx
  rw [valAt_ofLeaves] at hx
  induction leaves using List.reverseRecOn with
  | nil =>
    have hnone : dataIn (rootAt q) k = none := by
      rw [rootAt]
      split_ifs <;> rfl
    cases hnone.symm.trans hx
  | append_singleton leaves l ih =>
    have hname' : ∀ l ∈ leaves, ∀ d ∈ l.dataTypes, d.data.name = d.key :=
      fun l hl => hname l (List.mem_append_left _ hl)
    rw [leavesStep_concat] at hx
    by_cases hq : q = l.path
    · subst hq
      rw [dataIn_leavesStep_own (hname l (by simp))] at hx
      exact ⟨leaves, l, [], rfl, hx, List.forall_mem_nil _⟩
    rw [dataIn_leavesStep_singleton hq] at hx
    rcases hlast : (l.dataTypes.filterMap (l.dataFor q k)).getLast? with _ | y
    · -- the last module leaves the place alone
      rw [hlast, Option.none_or] at hx
      obtain ⟨pre, l', post, rfl, hx', hpost⟩ := ih hname' hx
      refine ⟨pre, l', post ++ [l], by simp, hx', fun l'' hl'' => ?_⟩
      rcases List.mem_append.1 hl'' with hl'' | hl''
      · exact hpost l'' hl''
      · cases List.mem_singleton.1 hl''
        exact ⟨hq, List.filterMap_eq_nil_iff.1 (List.getLast?_eq_none_iff.1 hlast)⟩
    · rw [hlast] at hx
      exact ⟨leaves, l, [], rfl, hlast.trans hx, List.forall_mem_nil _⟩

/-- A node has what the last module declared there has, or nothing. -/
lemma header_eq_or_exists_last (hb : valAt (ofLeaves leaves) q = some b) :
    b.header = (newEmpty []).header ∨ ∃ pre l post, leaves = pre ++ l :: post ∧ l.path = q ∧
      (∀ l' ∈ post, l'.path ≠ q) ∧ b.header = ((newEmpty []).takeFrom l).header := by
  rw [valAt_ofLeaves] at hb
  induction leaves using List.reverseRecOn generalizing b with
  | nil =>
    exact .inl (forall_rootAt (q := q) (Q := fun b => b.header = (newEmpty []).header) rfl b hb)
  | append_singleton leaves l ih =>
    rw [leavesStep_concat] at hb
    -- the last leaf either is declared at the node or leaves its header alone
    by_cases hq : l.path = q
    · subst hq
      refine .inr ⟨leaves, l, [], rfl, rfl, List.forall_mem_nil _, ?_⟩
      refine forall_leavesStep_of_mem (Q := fun b => b.header = ((newEmpty []).takeFrom l).header)
        (ownTouch_mem (List.mem_singleton_self l)) (fun _ => rfl) ?_
          (fun _ _ _ _ _ _ _ h => h) _ b hb
      intro l' hl' _ _ _
      cases List.mem_singleton.1 hl'
      rfl
    · have hstep : ∀ b ∈ leavesStep [l] q (leavesStep leaves q (rootAt q)),
          b.header = (newEmpty []).header ∨ ∃ pre l' post, leaves ++ [l] = pre ++ l' :: post ∧
            l'.path = q ∧ (∀ l'' ∈ post, l''.path ≠ q) ∧
              b.header = ((newEmpty []).takeFrom l').header := by
        refine forall_leavesStep (fun _ => .inl rfl) (fun _ => .inl rfl) ?_
          (fun _ _ _ _ _ _ _ h => h) ?_
        · intro l' hl' hpath
          cases List.mem_singleton.1 hl'
          exact absurd hpath.symm hq
        · intro b hb
          obtain hempty | ⟨pre, l', post, rfl, hpath, hpost, hheader⟩ := ih hb
          · exact .inl hempty
          refine .inr ⟨pre, l', post ++ [l], by simp, hpath, fun l'' hl'' => ?_, hheader⟩
          rcases List.mem_append.1 hl'' with hl'' | hl''
          · exact hpost l'' hl''
          · cases List.mem_singleton.1 hl''
            exact hq
      exact hstep b hb

/-- The last module declared at a node is there. -/
lemma exists_header_of_last {pre post : List ModuleLeaf} {l : ModuleLeaf}
    (hpost : ∀ l' ∈ post, l'.path ≠ l.path) :
    ∃ b, valAt (ofLeaves (pre ++ l :: post)) l.path = some b ∧
      b.header = ((newEmpty []).takeFrom l).header := by
  have hsome : (valAt (ofLeaves (pre ++ l :: post)) l.path).isSome := by
    rw [valAt_ofLeaves]
    exact isSome_leavesStep.2 (.inr ⟨l, by simp, .inl List.prefix_rfl⟩)
  obtain ⟨b, hb⟩ := Option.isSome_iff_exists.1 hsome
  refine ⟨b, hb, ?_⟩
  have hsplit : leavesStep (pre ++ l :: post) l.path (rootAt l.path) =
      leavesStep post l.path (leavesStep [l] l.path (leavesStep pre l.path (rootAt l.path))) := by
    simp [leavesStep, List.foldl_append]
  rw [valAt_ofLeaves, hsplit] at hb
  obtain ⟨b', hb'⟩ := Option.isSome_iff_exists.1
    (isSome_leavesStep (q := l.path) (o := leavesStep pre l.path (rootAt l.path)).2
      (.inr ⟨l, List.mem_singleton_self l, .inl List.prefix_rfl⟩))
  have hown : b'.header = ((newEmpty []).takeFrom l).header := by
    refine forall_leavesStep_of_mem (Q := fun b => b.header = ((newEmpty []).takeFrom l).header)
      (ownTouch_mem (List.mem_singleton_self l)) (fun _ => rfl) ?_
        (fun _ _ _ _ _ _ _ h => h) _ b' hb'
    intro l' hl' _ _ _
    cases List.mem_singleton.1 hl'
    rfl
  rw [hb'] at hb
  exact forall_leavesStep_some (q := l.path)
    (Q := fun b => b.header = ((newEmpty []).takeFrom l).header)
    (fun l' hl' hpath => absurd hpath.symm (hpost l' hl')) (fun _ _ _ _ _ _ _ h => h) hown b hb

end DamlModule

/-! ### Definitions of a package -/

namespace DamlPackagePayload

open DamlPackageTables

variable (P : DamlPackagePayload)

/-- The module is the last one declared at its path. -/
def IsLastModule (m : DamlModulePayload) : Prop :=
  ∃ pre post path, P.modules = pre ++ m :: post ∧ P.modulePath m = .ok path ∧
    ∀ m' ∈ post, P.modulePath m' ≠ .ok path

/-- The data type is the last one of its module with its dotted name, and no later module is
declared where it lies or puts a data type in its place. -/
def IsLastDataType (m : DamlModulePayload) (d : DefDataType) : Prop :=
  ∃ pre post path extraPath key, P.modules = pre ++ m :: post ∧ P.modulePath m = .ok path ∧
    (P.namedDataTypes m.module (extraPath ++ [key])).getLast? = some d ∧
    ∀ m' ∈ post, P.LeavesPlace m' (path ++ extraPath) key

variable {P} {fuel : Nat} {leaves : List ModuleLeaf}

/-- What the converted modules leave alone, the modules do. -/
lemma leavesPlace_of_untouched {m : DamlModulePayload} {l : ModuleLeaf} {q : List String}
    {k : String} (hconv : P.convertModule fuel m = .ok l)
    (h : q ≠ l.path ∧ ∀ d ∈ l.dataTypes, l.dataFor q k d = none) : P.LeavesPlace m q k := by
  obtain ⟨hpath, hdata⟩ := convertModule_eq_ok hconv
  refine ⟨fun hq => h.1 (Except.ok.inj (hq.symm.trans hpath)), fun d hd hcons hflat => ?_⟩
  obtain ⟨o, ho⟩ := exists_placeDataType hdata hd
  obtain ⟨extraPath, key, hname, ⟨hcons', -⟩ | ⟨-, x, rfl, -⟩⟩ := placeDataType_eq_ok ho
  · exact hcons hcons'
  have hplace := Except.ok.inj (hflat.symm.trans (flatName_eq_ok hpath hname))
  rw [← List.append_assoc] at hplace
  obtain ⟨rfl, hkey⟩ := List.append_inj' hplace rfl
  have hsome : l.dataFor (l.path ++ extraPath) k ⟨extraPath, key, x⟩ = some x :=
    if_pos ⟨rfl, (List.cons.inj hkey).1.symm⟩
  cases hsome.symm.trans (h.2 _ ((mem_buildDataTypes hdata).2 ⟨d, hd, ho⟩))

/-- The data types in the tree are what the last data types convert to. -/
theorem exists_dataTypeAt_iff (hconv : P.Converted fuel P.modules leaves) (x : DamlData) :
    (∃ q k, (DamlModule.ofLeaves leaves).dataTypeAt q k = some x) ↔
      ∃ m d, P.IsLastDataType m d ∧ ∃ path place key, P.modulePath m = .ok path ∧
        P.placeDataType fuel m.module path d = .ok (some ⟨place, key, x⟩) := by
  have htree : P.buildModuleTree fuel = .ok (DamlModule.ofLeaves leaves) :=
    buildModuleTree_eq_ok.2 ⟨leaves, hconv, rfl⟩
  constructor
  · rintro ⟨q, k, hx⟩
    obtain ⟨pre, l, post, rfl, hlast, hpost⟩ :=
      DamlModule.exists_last_of_dataTypeAt (name_of_converted hconv) hx
    obtain ⟨mpre, m, mpost, hmodules, -, hl, hmpost⟩ :=
      (List.Forall₂.flip (R := flip _) hconv).exists_append_cons
    obtain ⟨pd, -, hfor⟩ := List.mem_filterMap.1 (List.mem_of_getLast? hlast)
    obtain ⟨rfl, rfl⟩ : l.path ++ pd.extraPath = q ∧ pd.key = k := by
      by_contra hne
      cases (if_neg hne).symm.trans hfor
    obtain ⟨d, hd, hplace⟩ :=
      (List.Forall₂.flip (R := flip _)
        (forall₂_dataFor hl pd.extraPath pd.key)).exists_getLast? hlast
    have hpath := (convertModule_eq_ok hl).1
    refine ⟨m, d, ⟨mpre, mpost, l.path, pd.extraPath, pd.key, hmodules, hpath, hd,
      fun m' hm' => ?_⟩, l.path, _, _, hpath, hplace⟩
    obtain ⟨l', hl', hconv'⟩ := hmpost.exists_left hm'
    exact leavesPlace_of_untouched hconv' (hpost l' hl')
  · rintro ⟨m, d, ⟨pre, post, path, extraPath, key, hmodules, hpath, hd, hpost⟩, path', place, key',
      hpath', hplace⟩
    cases hpath.symm.trans hpath'
    obtain ⟨x', hplace', hx'⟩ := dataTypeAt_of_namedDataTypes hmodules htree hpath hpost hd
    cases hplace.symm.trans hplace'
    exact ⟨_, _, hx'⟩

end DamlPackagePayload

end DamlBindings.Lf
