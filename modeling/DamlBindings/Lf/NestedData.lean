import DamlBindings.Lf.ModuleOrder
import DamlBindings.Lib.PathWay

/-!
# Nodes that are not declared

A node of the tree that no module is declared at is created by the first module that reaches it.
It is synthetic if that module only puts data types below it, and it holds the data types
that were put there last.
-/

namespace DamlBindings.Lf

open PathTree DamlModuleBody

/-- The insertion of the module goes through the node. -/
def ModuleLeaf.reaches (q : List String) (l : ModuleLeaf) : Bool :=
  decide (q <+: l.path) || l.dataTypes.any fun d => decide (q <+: l.path ++ d.extraPath)

/-- The data that goes to a node under a name. -/
def ModuleLeaf.dataFor (l : ModuleLeaf) (q : List String) (k : String) (d : PlacedData) :
    Option DamlData :=
  if l.path ++ d.extraPath = q ∧ d.key = k then some d.data else none

/-- A module is declared at the node, or the first module that reaches it lies below it. -/
def isRealNode (leaves : List ModuleLeaf) (q : List String) : Bool :=
  q.isEmpty || leaves.any (fun l => decide (l.path = q)) ||
    (leaves.find? fun l => l.reaches q).any fun l => decide (q <+: l.path)

namespace DamlModule

variable {leaves : List ModuleLeaf} {l : ModuleLeaf} {q : List String} {b : DamlModuleBody}

lemma reaches_iff :
    l.reaches q = true ↔ q <+: l.path ∨ ∃ d ∈ l.dataTypes, q <+: l.path ++ d.extraPath := by
  simp [ModuleLeaf.reaches]

/-- The modules that do not reach a node leave it out. -/
lemma leavesStep_of_not_reaches (h : ∀ l ∈ leaves, ¬ l.reaches q = true)
    (o : Option DamlModuleBody) : leavesStep leaves q o = o := by
  induction leaves with
  | nil => rfl
  | cons l leaves ih =>
    rw [List.forall_mem_cons] at h
    have hoff : ¬ (q <+: l.path ∨ ∃ d ∈ l.dataTypes, q <+: l.path ++ d.extraPath) :=
      fun hreaches => h.1 (reaches_iff.2 hreaches)
    push Not at hoff
    rw [leavesStep_cons, leavesStep_singleton_off_path hoff.1 hoff.2, ih h.2]

/-- The first module that reaches an undeclared node decides whether it is synthetic. -/
lemma synthetic_of_find (hroot : q ≠ []) (hdecl : ¬ Declares leaves q)
    (hb : valAt (ofLeaves leaves) q = some b)
    (hl : leaves.find? (fun l => l.reaches q) = some l) :
    b.synthetic = !decide (q <+: l.path) := by
  obtain ⟨hreaches, pre, post, rfl, hpre⟩ := List.find?_eq_some_iff_append.1 hl
  have hfree : ∀ l' ∈ pre ++ l :: post, q ≠ l'.path :=
    fun l' hl' hpath => hdecl ⟨l', hl', hpath.symm⟩
  have hskip : leavesStep (pre ++ l :: post) q none =
      leavesStep post q (leavesStep [l] q none) := by
    rw [← leavesStep_cons]
    show List.foldl _ _ ((pre ++ l :: post).flatMap touches) = _
    rw [List.flatMap_append, List.foldl_append]
    show leavesStep (l :: post) q (leavesStep pre q none) = _
    have hnot : ∀ l' ∈ pre, ¬ l'.reaches q = true := by
      intro l' hl'
      simpa using hpre l' hl'
    rw [leavesStep_of_not_reaches hnot]
  rw [valAt_ofLeaves, rootAt, if_neg hroot, hskip] at hb
  have hsome : (leavesStep [l] q none).isSome :=
    isSome_leavesStep.2 (.inr ⟨l, List.mem_singleton_self l, reaches_iff.1 hreaches⟩)
  obtain ⟨b₁, hb₁⟩ := Option.isSome_iff_exists.1 hsome
  have hfirst : b₁.synthetic = !decide (q <+: l.path) := by
    by_cases hway : q <+: l.path
    · rw [decide_eq_true hway]
      exact forall_leavesStep_singleton_way (Q := fun b => b.synthetic = false) hway rfl
        (fun _ _ _ => rfl) (by simp) b₁ hb₁
    · rw [decide_eq_false hway]
      refine forall_leavesStep (Q := fun b => b.synthetic = true) ?_ (fun _ => rfl) ?_
        (fun _ _ _ _ _ _ _ h => h) (by simp) b₁ hb₁
      · rintro ⟨l', hl', hq⟩
        cases List.mem_singleton.1 hl'
        exact absurd hq hway
      · intro l' hl' hpath
        cases List.mem_singleton.1 hl'
        exact absurd hpath (hfree l (by simp))
  -- nothing is declared at the node later on
  rw [hb₁] at hb
  refine forall_leavesStep_some (Q := fun b => b.synthetic = !decide (q <+: l.path)) ?_
    (fun _ _ _ _ _ _ _ h => h) hfirst b hb
  exact fun l' hl' hpath => absurd hpath (hfree l' (by simp [hl']))

/-- Which nodes are synthetic. -/
theorem synthetic_eq (hb : valAt (ofLeaves leaves) q = some b) :
    b.synthetic = !isRealNode leaves q := by
  rw [valAt_ofLeaves] at hb
  by_cases hroot : q = []
  · subst hroot
    have hfalse : b.synthetic = false := forall_leavesStep_some (Q := fun b => b.synthetic = false)
      (fun _ _ _ _ _ => rfl) (fun _ _ _ _ _ _ _ h => h) rfl b hb
    rw [hfalse]
    rfl
  by_cases hdecl : Declares leaves q
  · obtain ⟨l, hl, rfl⟩ := hdecl
    have hfalse : b.synthetic = false := forall_leavesStep_of_mem
      (Q := fun b => b.synthetic = false) (ownTouch_mem hl) (fun _ => rfl) (fun _ _ _ _ _ => rfl)
      (fun _ _ _ _ _ _ _ h => h) _ b hb
    have hany : (leaves.any fun l' => decide (l'.path = l.path)) = true :=
      List.any_eq_true.2 ⟨l, hl, decide_eq_true rfl⟩
    simp [hfalse, isRealNode, hany]
  · have hany : (leaves.any fun l => decide (l.path = q)) = false := by
      refine List.any_eq_false.2 fun l hl hpath => hdecl ⟨l, hl, ?_⟩
      simpa using hpath
    rcases hfind : leaves.find? (fun l => l.reaches q) with - | l
    · -- then the node is not there
      rw [leavesStep_of_not_reaches (List.find?_eq_none.1 hfind), rootAt, if_neg hroot] at hb
      cases hb
    · rw [← valAt_ofLeaves] at hb
      rw [synthetic_of_find hroot hdecl hb hfind, isRealNode, hany, hfind]
      simp [hroot]

/-! ### Data types -/

/-- The data type under a name in a body that may be there. -/
def dataIn (o : Option DamlModuleBody) (k : String) : Option DamlData :=
  o.bind fun b => b.dataTypes.lookup k

lemma dataIn_nestedTouch_step (d : PlacedData) (k : String) (o : Option DamlModuleBody) :
    dataIn ((nestedTouch l d).step q o) k = (l.dataFor q k d).or (dataIn o k) := by
  have hnew : dataIn (some (o.getD (newSynthetic q))) k = dataIn o k := by
    cases o <;> rfl
  by_cases hq : q = l.path ++ d.extraPath
  · subst hq
    have hstep : (nestedTouch l d).step (l.path ++ d.extraPath) o =
        some ((o.getD (newSynthetic (l.path ++ d.extraPath))).insertDataType d.key d.data) :=
      Touch.step_of_eq rfl o
    rw [hstep, ModuleLeaf.dataFor]
    show (AssocMap.insert d.key d.data _).lookup k = _
    rw [AssocMap.lookup_insert]
    by_cases hk : k = d.key
    · simp [hk]
    · rw [if_neg hk, if_neg (fun h => hk h.2.symm), Option.none_or]
      exact hnew
  · rw [ModuleLeaf.dataFor, if_neg (fun h => hq h.1.symm), Option.none_or]
    by_cases hpre : q <+: l.path ++ d.extraPath
    · rw [Touch.step_of_ne hq hpre]
      exact hnew
    · rw [Touch.step_off_path hpre]

lemma dataIn_ownTouch_step (hq : q ≠ l.path) (k : String) (o : Option DamlModuleBody) :
    dataIn ((ownTouch l).step q o) k = dataIn o k := by
  by_cases hpre : q <+: l.path
  · rw [Touch.step_of_ne hq hpre]
    cases o <;> rfl
  · rw [Touch.step_off_path hpre]

lemma dataIn_foldl_nestedTouch (ds : List PlacedData) (k : String) (o : Option DamlModuleBody) :
    dataIn (ds.foldl (fun o d => (nestedTouch l d).step q o) o) k =
      (ds.filterMap (l.dataFor q k)).getLast?.or (dataIn o k) := by
  induction ds generalizing o with
  | nil => rfl
  | cons d ds ih =>
    rw [List.foldl_cons, ih, dataIn_nestedTouch_step]
    rcases hd : l.dataFor q k d with - | x
    · rw [List.filterMap_cons_none hd, Option.none_or]
    · rw [List.filterMap_cons_some hd, List.getLast?_cons]
      cases (ds.filterMap (l.dataFor q k)).getLast? <;> rfl

lemma leavesStep_singleton_eq (o : Option DamlModuleBody) :
    leavesStep [l] q o =
      (nestedData l).foldl (fun o d => (nestedTouch l d).step q o) ((ownTouch l).step q o) := by
  rw [leavesStep, List.flatMap_singleton, touches, List.foldl_cons, List.foldl_map]

/-- Of the data types that a module puts at a node under a name, the last one stays. -/
lemma dataIn_leavesStep_singleton (hq : q ≠ l.path) (k : String) (o : Option DamlModuleBody) :
    dataIn (leavesStep [l] q o) k =
      (l.dataTypes.filterMap (l.dataFor q k)).getLast?.or (dataIn o k) := by
  -- a data type with a simple name goes to the node of the module
  have hnested : (nestedData l).filterMap (l.dataFor q k) =
      l.dataTypes.filterMap (l.dataFor q k) := by
    rw [nestedData, List.filterMap_filter]
    refine List.filterMap_congr fun d _ => ?_
    by_cases hextra : d.extraPath = []
    · have hnone : l.dataFor q k d = none := by
        rw [ModuleLeaf.dataFor, hextra, List.append_nil, if_neg (fun h => hq h.1.symm)]
      rw [hnone, ite_self]
    · simp [hextra]
  rw [leavesStep_singleton_eq, dataIn_foldl_nestedTouch, hnested, dataIn_ownTouch_step hq]

/-- At its own node, a module leaves nothing of what was there. -/
lemma dataIn_leavesStep_own (hname : ∀ d ∈ l.dataTypes, d.data.name = d.key) (k : String)
    (o : Option DamlModuleBody) : dataIn (leavesStep [l] l.path o) k =
      (l.dataTypes.filterMap (l.dataFor l.path k)).getLast? := by
  have hnested : (nestedData l).filterMap (l.dataFor l.path k) = [] := by
    refine List.filterMap_eq_nil_iff.2 fun d hd => if_neg ?_
    rintro ⟨hpath, -⟩
    have hextra : d.extraPath = [] := by simpa using hpath
    simp [nestedData, hextra] at hd
  have hown : (l.dataTypes.filter (·.extraPath.isEmpty)).filter (fun d => d.data.name = k) =
      l.dataTypes.filter fun d => (l.dataFor l.path k d).isSome := by
    rw [List.filter_filter]
    refine List.filter_congr fun d hd => ?_
    rw [hname d hd, ModuleLeaf.dataFor]
    by_cases hextra : d.extraPath = [] <;> by_cases hkey : d.key = k <;> simp [hextra, hkey]
  have hdata : l.dataTypes.filterMap (l.dataFor l.path k) =
      (l.dataTypes.filter fun d => (l.dataFor l.path k d).isSome).map PlacedData.data := by
    rw [← List.filterMap_eq_map, List.filterMap_filter]
    refine List.filterMap_congr fun d _ => ?_
    rcases hd : l.dataFor l.path k d with - | x
    · rfl
    · have hx : d.data = x := by
        unfold ModuleLeaf.dataFor at hd
        split_ifs at hd
        exact Option.some_inj.1 hd
      exact congrArg some hx.symm
  have hstep : (ownTouch l).step l.path o = some ((o.getD (newEmpty l.path)).takeFrom l) :=
    Touch.step_of_eq rfl o
  rw [leavesStep_singleton_eq, dataIn_foldl_nestedTouch, hnested, hstep]
  show (AssocMap.ofList ((l.dataTypes.filter (·.extraPath.isEmpty)).map
    fun d => (d.data.name, d.data))).lookup k = _
  rw [AssocMap.lookup_ofList_map, hown, hdata, List.getLast?_map]

/-- An undeclared node holds the data types that were put there last. -/
theorem dataTypeAt_of_not_declared (hroot : q ≠ []) (hdecl : ¬ Declares leaves q) (k : String) :
    (ofLeaves leaves).dataTypeAt q k =
      (leaves.flatMap fun l => l.dataTypes.filterMap (l.dataFor q k)).getLast? := by
  have hall : ∀ o, dataIn (leavesStep leaves q o) k =
      (leaves.flatMap fun l => l.dataTypes.filterMap (l.dataFor q k)).getLast?.or (dataIn o k) := by
    have hfree : ∀ l ∈ leaves, q ≠ l.path := fun l hl hpath => hdecl ⟨l, hl, hpath.symm⟩
    clear hdecl
    induction leaves with
    | nil => exact fun _ => rfl
    | cons l leaves ih =>
      intro o
      rw [List.forall_mem_cons] at hfree
      rw [leavesStep_cons, ih hfree.2, dataIn_leavesStep_singleton hfree.1, List.flatMap_cons,
        List.getLast?_append, Option.or_assoc]
  show dataIn (valAt (ofLeaves leaves) q) k = _
  rw [valAt_ofLeaves, hall, rootAt, if_neg hroot]
  exact Option.or_none

/-- A data type is kept once in a node, under its name. -/
lemma mem_dataTypes_iff (hname : ∀ l ∈ leaves, ∀ d ∈ l.dataTypes, d.data.name = d.key)
    (hb : valAt (ofLeaves leaves) q = some b) {x : DamlData} :
    (∃ e ∈ b.dataTypes, e.2 = x) ↔ b.dataTypes.lookup x.name = some x := by
  rw [AssocMap.lookup_eq_some_iff (nodup_keys_dataTypes hb)]
  constructor
  · rintro ⟨e, he, rfl⟩
    obtain ⟨l, hl, d, hd, rfl, -⟩ := exists_leaf_of_dataType hname hb he
    rw [hname l hl d hd]
    exact he
  · exact fun h => ⟨_, h, rfl⟩

end DamlModule

/-! ### Packages -/

namespace DamlPackagePayload

open Proto

variable (P : DamlPackagePayload) (fuel : Nat)

/-- The place below a module where a data type goes: the dotted name without its last segment. -/
def dataPrefix (d : DefDataType) : Option (List String) :=
  match d.dataCons with
  | .interface => none
  | _ => (P.resolveDotted d.nameInternedDname).toOption.map List.dropLast

/-- The insertion of the module goes through the node. -/
def reaches (q : List String) (m : DamlModulePayload) : Bool :=
  (P.modulePath m).toOption.any fun path =>
    decide (q <+: path) ||
      m.module.dataTypes.any fun d => (P.dataPrefix d).any fun r => decide (q <+: path ++ r)

/-- A module is declared at the node, or the first module that reaches it lies below it. -/
def isRealNode (q : List String) : Bool :=
  q.isEmpty || P.modules.any (fun m => decide ((P.modulePath m).toOption = some q)) ||
    (P.modules.find? (P.reaches q)).any fun m =>
      (P.modulePath m).toOption.any fun path => decide (q <+: path)

/-- The nearest real node on the way to a node. -/
def hostPath (q : List String) : List String := ((q.inits.filter P.isRealNode).getLast?).getD []

/-- The data that the definitions give which go to a node under a name, as they are listed. -/
def definedData (q : List String) (k : String) : List DamlData :=
  P.modules.flatMap fun m => m.module.dataTypes.filterMap fun d => do
    let path ← (P.modulePath m).toOption
    let pd ← (P.placeDataType fuel m.module path d).toOption.join
    if path ++ pd.extraPath = q ∧ pd.key = k then some pd.data else none

variable {P fuel} {leaves : List ModuleLeaf} {m : DamlModulePayload} {l : ModuleLeaf}

lemma reaches_eq (h : P.convertModule fuel m = .ok l) (q : List String) :
    P.reaches q m = l.reaches q := by
  obtain ⟨hpath, hdata⟩ := DamlPackageTables.convertModule_eq_ok h
  rw [Bool.eq_iff_iff, DamlModule.reaches_iff, reaches, hpath]
  simp only [Except.toOption_ok, Option.any_some, Bool.or_eq_true, decide_eq_true_eq,
    List.any_eq_true, Option.any_eq_true]
  refine or_congr_right ⟨?_, ?_⟩
  · rintro ⟨d, hd, r, hr, hpre⟩
    obtain ⟨o, ho⟩ := DamlPackageTables.exists_placeDataType hdata hd
    obtain ⟨extraPath, key, hname, ⟨hcons, -⟩ | ⟨hcons, x, rfl, -⟩⟩ :=
      DamlPackageTables.placeDataType_eq_ok ho
    · simp [dataPrefix, hcons] at hr
    · refine ⟨_, (DamlPackageTables.mem_buildDataTypes hdata).2 ⟨d, hd, ho⟩, ?_⟩
      have hprefix : P.dataPrefix d = some extraPath := by
        unfold dataPrefix
        rw [hname]
        rcases hd' : d.dataCons <;> simp_all
      cases hprefix.symm.trans hr
      exact hpre
  · rintro ⟨pd, hpd, hpre⟩
    obtain ⟨d, hd, hplace⟩ := (DamlPackageTables.mem_buildDataTypes hdata).1 hpd
    obtain ⟨hname, hcons, -⟩ := DamlPackageTables.placeDataType_eq_some hplace
    refine ⟨d, hd, pd.extraPath, ?_, hpre⟩
    unfold dataPrefix
    rw [hname]
    rcases hd' : d.dataCons <;> simp_all

lemma isRealNode_eq (h : P.Converted fuel P.modules leaves) (q : List String) :
    P.isRealNode q = Lf.isRealNode leaves q := by
  have hpath : ∀ {m l}, P.convertModule fuel m = .ok l →
      (P.modulePath m).toOption = some l.path := by
    intro m l hconv
    rw [(DamlPackageTables.convertModule_eq_ok hconv).1]
    rfl
  have hdeclared := h.any_eq (f := fun m => decide ((P.modulePath m).toOption = some q))
    (g := fun l => decide (l.path = q)) fun m l hconv => by simp [hpath hconv]
  have hfirst := h.any_find? (f := P.reaches q) (g := fun l => l.reaches q)
    (u := fun m => (P.modulePath m).toOption.any fun path => decide (q <+: path))
    (v := fun l => decide (q <+: l.path)) (fun m l hconv => reaches_eq hconv q)
    fun m l hconv => by simp [hpath hconv]
  rw [isRealNode, Lf.isRealNode, hdeclared, hfirst]

lemma definedData_eq (h : P.Converted fuel P.modules leaves) (q : List String) (k : String) :
    P.definedData fuel q k = leaves.flatMap fun l => l.dataTypes.filterMap (l.dataFor q k) := by
  refine h.flatMap_eq fun m l hconv => ?_
  obtain ⟨hpath, hdata⟩ := DamlPackageTables.convertModule_eq_ok hconv
  obtain ⟨os, hos, hds⟩ := Except.map_eq_ok.1 hdata
  rw [← hds]
  have hall := Except.mapM_eq_ok.1 hos
  clear hos hds hdata
  generalize m.module.dataTypes = ds at hall ⊢
  induction hall with
  | nil => rfl
  | @cons d o ds os hd _ ih =>
    rcases o with - | pd
    · rw [List.reduceOption_cons_of_none, ← ih, List.filterMap_cons_none]
      simp [hpath, hd]
    · have hfor : (do
          let path ← (P.modulePath m).toOption
          let pd ← (P.placeDataType fuel m.module path d).toOption.join
          if path ++ pd.extraPath = q ∧ pd.key = k then some pd.data else none) =
            l.dataFor q k pd := by
        rw [hpath, Except.toOption_ok, Option.bind_eq_bind, Option.bind_some, hd]
        rfl
      rw [List.reduceOption_cons_of_some, List.filterMap_cons, List.filterMap_cons, hfor, ih]

end DamlPackagePayload

end DamlBindings.Lf
