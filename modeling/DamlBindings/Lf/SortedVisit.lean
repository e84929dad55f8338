import DamlBindings.Lf.Validate
import DamlBindings.Lf.VisitTree

/-!
# Sorted visits

Archives that list their hash maps in different orders, and what a visitor that asks for sorted
elements sees of them.  It sees the same if and only if no two different entries of a map have the
same sort key and no module has two different values, which are not sorted.
-/

namespace DamlBindings.Lf

open StableSort

/-! ### Archives with differently ordered maps -/

/-- The same body with its maps in some other order. -/
structure DamlModuleBody.Reordered (b b' : DamlModuleBody) : Prop where
  path : b.path = b'.path
  flags : b.flags = b'.flags
  synonyms : b.synonyms = b'.synonyms
  dataTypes : b.dataTypes.Perm b'.dataTypes
  interfaces : b.interfaces.Perm b'.interfaces
  exceptions : b.exceptions.Perm b'.exceptions
  values : b.values.Perm b'.values
  synthetic : b.synthetic = b'.synthetic

/-- The same module with the maps in it in some other order. -/
inductive DamlModule.Reordered : DamlModule → DamlModule → Prop
  | node {body body' : DamlModuleBody} {cs ds cs' : List (String × DamlModule)} :
      body.Reordered body' → cs.Perm ds → ds.map Prod.fst = cs'.map Prod.fst →
      List.Forall₂ DamlModule.Reordered (ds.map Prod.snd) (cs'.map Prod.snd) →
      DamlModule.Reordered (.node body cs) (.node body' cs')

structure DamlPackage.Reordered (p p' : DamlPackage) : Prop where
  name : p.name = p'.name
  packageId : p.packageId = p'.packageId
  version : p.version = p'.version
  rootModule : p.rootModule.Reordered p'.rootModule

structure DamlArchive.Reordered (a a' : DamlArchive) : Prop where
  name : a.name = a'.name
  mainPackageId : a.mainPackageId = a'.mainPackageId
  packages : ∃ ps, a.packages.Perm ps ∧
    List.Forall₂ (fun p p' => p.1 = p'.1 ∧ p.2.Reordered p'.2) ps a'.packages

namespace DamlModuleBody

lemma Reordered.refl (b : DamlModuleBody) : b.Reordered b :=
  ⟨rfl, rfl, rfl, .refl _, .refl _, .refl _, .refl _, rfl⟩

lemma Reordered.symm {b b' : DamlModuleBody} (h : b.Reordered b') : b'.Reordered b :=
  ⟨h.path.symm, h.flags.symm, h.synonyms.symm, h.dataTypes.symm, h.interfaces.symm,
    h.exceptions.symm, h.values.symm, h.synthetic.symm⟩

lemma Reordered.trans {b b' b'' : DamlModuleBody} (h : b.Reordered b') (h' : b'.Reordered b'') :
    b.Reordered b'' :=
  ⟨h.path.trans h'.path, h.flags.trans h'.flags, h.synonyms.trans h'.synonyms,
    h.dataTypes.trans h'.dataTypes, h.interfaces.trans h'.interfaces,
    h.exceptions.trans h'.exceptions, h.values.trans h'.values, h.synthetic.trans h'.synthetic⟩

end DamlModuleBody

namespace DamlModule

lemma forall₂_entries_iff {R : DamlModule → DamlModule → Prop}
    {cs cs' : List (String × DamlModule)} :
    cs.map Prod.fst = cs'.map Prod.fst ∧ List.Forall₂ R (cs.map Prod.snd) (cs'.map Prod.snd) ↔
      List.Forall₂ (fun c c' => c.1 = c'.1 ∧ R c.2 c'.2) cs cs' := by
  rw [← List.forall₂_eq_eq_eq, List.forall₂_map_left_iff, List.forall₂_map_right_iff,
    List.forall₂_map_left_iff, List.forall₂_map_right_iff]
  constructor
  · rintro ⟨hkeys, h⟩
    induction hkeys with
    | nil => exact .nil
    | cons hk _ ih =>
      obtain _ | ⟨hR, hrest⟩ := h
      exact .cons ⟨hk, hR⟩ (ih hrest)
  · intro h
    exact ⟨h.imp fun _ _ h => h.1, h.imp fun _ _ h => h.2⟩

lemma reordered_node_iff {body body' : DamlModuleBody} {cs cs' : List (String × DamlModule)} :
    DamlModule.Reordered (.node body cs) (.node body' cs') ↔
      body.Reordered body' ∧ ∃ ds, cs.Perm ds ∧
        List.Forall₂ (fun c c' => c.1 = c'.1 ∧ DamlModule.Reordered c.2 c'.2) ds cs' := by
  constructor
  · intro h
    cases h with
    | node hbody hperm hkeys hall =>
      exact ⟨hbody, _, hperm, forall₂_entries_iff.1 ⟨hkeys, hall⟩⟩
  · rintro ⟨hbody, ds, hperm, hall⟩
    obtain ⟨hkeys, hall⟩ := forall₂_entries_iff.2 hall
    exact .node hbody hperm hkeys hall

lemma Reordered.val {m m' : DamlModule} (h : m.Reordered m') :
    (PathTree.val m).Reordered (PathTree.val m') := by
  cases h with
  | node hbody _ _ _ => exact hbody

lemma Reordered.refl (m : DamlModule) : m.Reordered m := by
  induction m using PathTree.induction with
  | node body cs ih =>
    exact reordered_node_iff.2
      ⟨.refl body, cs, .refl cs, List.forall₂_same.2 fun c hc => ⟨rfl, ih c hc⟩⟩

lemma Reordered.symm {m m' : DamlModule} (h : m.Reordered m') : m'.Reordered m := by
  induction m using PathTree.induction generalizing m' with
  | node body cs ih =>
    rcases m' with ⟨body', cs'⟩
    obtain ⟨hbody, ds, hperm, hall⟩ := reordered_node_iff.1 h
    have hback : List.Forall₂ (fun c' c => c'.1 = c.1 ∧ DamlModule.Reordered c'.2 c.2) cs' ds :=
      hall.flip.imp_of_mem fun c' _ c hc h => ⟨h.1.symm, ih c (hperm.mem_iff.2 hc) h.2⟩
    obtain ⟨es, hes, hcs⟩ := hback.exists_perm_left hperm.symm
    exact reordered_node_iff.2 ⟨hbody.symm, es, hes, hcs⟩

lemma Reordered.trans {m m' m'' : DamlModule} (h : m.Reordered m') (h' : m'.Reordered m'') :
    m.Reordered m'' := by
  induction m using PathTree.induction generalizing m' m'' with
  | node body cs ih =>
    rcases m' with ⟨body', cs'⟩
    rcases m'' with ⟨body'', cs''⟩
    obtain ⟨hbody, ds, hperm, hall⟩ := reordered_node_iff.1 h
    obtain ⟨hbody', ds', hperm', hall'⟩ := reordered_node_iff.1 h'
    obtain ⟨es, hes, hall⟩ := hall.exists_perm_left hperm'
    refine reordered_node_iff.2 ⟨hbody.trans hbody', es, hperm.trans hes, ?_⟩
    refine hall.trans_of_mem hall' fun c hc c' c'' h h' => ⟨h.1.trans h'.1, ?_⟩
    exact ih c ((hperm.trans hes).mem_iff.2 hc) h.2 h'.2

end DamlModule

lemma DamlPackage.Reordered.symm {p p' : DamlPackage} (h : p.Reordered p') : p'.Reordered p :=
  ⟨h.name.symm, h.packageId.symm, h.version.symm, h.rootModule.symm⟩

lemma DamlPackage.Reordered.trans {p p' p'' : DamlPackage} (h : p.Reordered p')
    (h' : p'.Reordered p'') : p.Reordered p'' :=
  ⟨h.name.trans h'.name, h.packageId.trans h'.packageId, h.version.trans h'.version,
    h.rootModule.trans h'.rootModule⟩

lemma DamlPackage.Reordered.refl (p : DamlPackage) : p.Reordered p :=
  ⟨rfl, rfl, rfl, .refl _⟩

lemma DamlArchive.Reordered.symm {a a' : DamlArchive} (h : a.Reordered a') : a'.Reordered a := by
  obtain ⟨ps, hperm, hall⟩ := h.packages
  have hback : List.Forall₂ (fun p' p => p'.1 = p.1 ∧ p'.2.Reordered p.2) a'.packages ps :=
    hall.flip.imp fun _ _ h => ⟨h.1.symm, h.2.symm⟩
  obtain ⟨ps', hps', hback⟩ := hback.exists_perm_left hperm.symm
  exact ⟨h.name.symm, h.mainPackageId.symm, ps', hps', hback⟩

lemma DamlArchive.Reordered.trans {a a' a'' : DamlArchive} (h : a.Reordered a')
    (h' : a'.Reordered a'') : a.Reordered a'' := by
  obtain ⟨ps, hperm, hall⟩ := h.packages
  obtain ⟨ps', hperm', hall'⟩ := h'.packages
  obtain ⟨qs, hqs, hall⟩ := hall.exists_perm_left hperm'
  refine ⟨h.name.trans h'.name, h.mainPackageId.trans h'.mainPackageId, qs, hperm.trans hqs, ?_⟩
  exact hall.trans_of_mem hall' fun _ _ _ _ h h' => ⟨h.1.trans h'.1, h.2.trans h'.2⟩

/-- The same element of two archives that differ in the order of their maps. -/
inductive Element.Same : Element → Element → Prop
  | archive {a a' : DamlArchive} : a.Reordered a' → Element.Same (.archive a) (.archive a')
  | package {p p' : DamlPackage} : p.Reordered p' → Element.Same (.package p) (.package p')
  | module {m m' : DamlModule} : m.Reordered m' → Element.Same (.module m) (.module m')
  | refl (e : Element) : Element.Same e e

/-- The same callback on the same element. -/
inductive Callback.Same : Callback → Callback → Prop
  | pre {e e' : Element} : e.Same e' → Callback.Same (.pre e) (.pre e')
  | post {e e' : Element} : e.Same e' → Callback.Same (.post e) (.post e')

/-- The same callbacks in the same order. -/
abbrev SameCallbacks : List Callback → List Callback → Prop := List.Forall₂ Callback.Same

lemma Element.Same.symm {e e' : Element} (h : e.Same e') : e'.Same e := by
  cases h with
  | archive h => exact .archive h.symm
  | package h => exact .package h.symm
  | module h => exact .module h.symm
  | refl => exact .refl e

lemma Element.Same.trans {e e' e'' : Element} (h : e.Same e') (h' : e'.Same e'') : e.Same e'' := by
  cases h with
  | archive h =>
    cases h' with
    | archive h' => exact .archive (h.trans h')
    | refl => exact .archive h
  | package h =>
    cases h' with
    | package h' => exact .package (h.trans h')
    | refl => exact .package h
  | module h =>
    cases h' with
    | module h' => exact .module (h.trans h')
    | refl => exact .module h
  | refl => exact h'

lemma Callback.Same.symm {c c' : Callback} (h : c.Same c') : c'.Same c := by
  cases h with
  | pre h => exact .pre h.symm
  | post h => exact .post h.symm

lemma Callback.Same.trans {c c' c'' : Callback} (h : c.Same c') (h' : c'.Same c'') :
    c.Same c'' := by
  cases h with
  | pre h => cases h' with | pre h' => exact .pre (h.trans h')
  | post h => cases h' with | post h' => exact .post (h.trans h')

lemma Callback.Same.refl (c : Callback) : c.Same c := by
  cases c with
  | pre e => exact .pre (.refl e)
  | post e => exact .post (.refl e)

lemma Element.Same.of_callback {e e' : Element} (h : Callback.Same (.pre e) (.pre e')) :
    e.Same e' := by
  cases h with
  | pre h => exact h

namespace SameCallbacks

lemma refl (cs : List Callback) : SameCallbacks cs cs := List.forall₂_same.2 fun c _ => .refl c

lemma symm {cs cs' : List Callback} (h : SameCallbacks cs cs') : SameCallbacks cs' cs :=
  h.flip.imp fun _ _ h => h.symm

lemma trans {cs cs' cs'' : List Callback} (h : SameCallbacks cs cs')
    (h' : SameCallbacks cs' cs'') : SameCallbacks cs cs'' :=
  h.trans_of_mem h' fun _ _ _ _ h h' => h.trans h'

lemma around {e e' : Element} {cs cs' : List Callback} (he : e.Same e')
    (h : SameCallbacks cs cs') : SameCallbacks (visit e cs) (visit e' cs') :=
  .cons (.pre he) (List.rel_append h (.cons (.post he) .nil))

end SameCallbacks

/-! ### Sorted visits -/

section

variable (visitor : DamlElementVisitor) (hsort : ∀ cs, visitor.sortElements cs = true)

/-- The callbacks inside a module, part by part, once it is known which ones each child makes. -/
def DamlModuleBody.sortedParts (body : DamlModuleBody) (childModules : List (String × DamlModule))
    (childCallbacks : DamlModule → List Callback) : List (List Callback) :=
  [ body.synonyms.flatMap DamlDefTypeSyn.accept,
    (sortedByKey DamlData.name (body.dataTypes.map Prod.snd)).flatMap DamlData.accept,
    (sortedByKey DamlInterface.name (body.interfaces.map Prod.snd)).flatMap DamlInterface.accept,
    (sortedByKey DamlException.name (body.exceptions.map Prod.snd)).flatMap DamlException.accept,
    (sortedByKey (fun m => (PathTree.val m).path) (childModules.map Prod.snd)).flatMap
      childCallbacks,
    (body.values.map Prod.snd).flatMap DamlDefValue.accept ]

lemma Visiting.inOrder_const {fs : List Visiting} (h : ∀ f ∈ fs, ∀ before, f before = f [])
    (before : List Callback) : inOrder fs before = fs.flatMap fun f => f [] := by
  induction fs generalizing before with
  | nil => rfl
  | cons f fs ih =>
    rw [List.forall_mem_cons] at h
    rw [List.flatMap_cons, ← h.1 before, ← ih h.2 (before ++ f before)]
    rfl

include hsort

lemma DamlModule.accept_node {body : DamlModuleBody} {childModules : List (String × DamlModule)}
    (hchild : ∀ c ∈ childModules, ∀ before,
      DamlModule.accept visitor c.2 before = DamlModule.accept visitor c.2 [])
    (before : List Callback) :
    DamlModule.accept visitor (.node body childModules) before =
      visit (.module (.node body childModules))
        (body.sortedParts childModules fun m => DamlModule.accept visitor m []).flatten := by
  have hchildren : ∀ before, Visiting.inOrder
      ((sortedByKey Prod.fst (childVisits visitor childModules)).map Prod.snd) before =
        (sortedByKey (fun m => (PathTree.val m).path) (childModules.map Prod.snd)).flatMap
          fun m => DamlModule.accept visitor m [] := by
    intro before
    have hconst : ∀ f ∈ (sortedByKey Prod.fst (childVisits visitor childModules)).map Prod.snd,
        ∀ before, f before = f [] := by
      intro f hf
      obtain ⟨v, hv, rfl⟩ := List.mem_map.1 hf
      rw [mem_sortedByKey, childVisits_eq] at hv
      obtain ⟨c, hc, rfl⟩ := List.mem_map.1 hv
      exact hchild c hc
    rw [Visiting.inOrder_const hconst, childVisits_eq, sortedByKey_map, sortedByKey_map,
      List.map_map, List.flatMap_map, List.flatMap_map]
    rfl
  show visit _ (Visiting.inOrder _ _) = visit _ _
  simp only [Visiting.inOrder, hsort, if_true, hchildren, List.append_nil, List.append_assoc,
    DamlModuleBody.sortedParts, List.flatten_cons, List.flatten_nil]

/-- What was called before the visit of a module makes no difference to a sorted visit. -/
lemma DamlModule.accept_const (m : DamlModule) (before : List Callback) :
    DamlModule.accept visitor m before = DamlModule.accept visitor m [] := by
  induction m using PathTree.induction generalizing before with
  | node body cs ih =>
    have hchild : ∀ c ∈ cs, ∀ before,
        DamlModule.accept visitor c.2 before = DamlModule.accept visitor c.2 [] :=
      fun c hc before => ih c hc before
    rw [DamlModule.accept_node visitor hsort hchild, DamlModule.accept_node visitor hsort hchild]

/-! ### Without ties the order makes no difference -/

omit hsort

/-- Entries with the same sort key are the same, and all values are. -/
structure DamlModule.TieFree (m : DamlModule) : Prop where
  dataTypes : ∀ d ∈ m.val.dataTypes, ∀ d' ∈ m.val.dataTypes, d.2.name = d'.2.name → d.2 = d'.2
  interfaces : ∀ i ∈ m.val.interfaces, ∀ i' ∈ m.val.interfaces,
    i.2.name = i'.2.name → i.2 = i'.2
  exceptions : ∀ e ∈ m.val.exceptions, ∀ e' ∈ m.val.exceptions,
    e.2.name = e'.2.name → e.2 = e'.2
  childModules : ∀ c ∈ m.childModules, ∀ c' ∈ m.childModules,
    c.2.val.path = c'.2.val.path → c.2.Reordered c'.2
  values : ∀ v ∈ m.val.values, ∀ v' ∈ m.val.values, v.2 = v'.2

/-- A sorted visit of the module sees the same whatever the order of the maps in it. -/
def DamlModule.OrderIndependent (m : DamlModule) : Prop :=
  ∀ m', m.Reordered m' →
    SameCallbacks (DamlModule.accept visitor m []) (DamlModule.accept visitor m' [])

lemma sortedByKey_eq_of_perm {α κ : Type} [Ord κ] [Std.TransOrd κ] [Std.LawfulEqOrd κ]
    {key : α → κ} {m m' : List (String × α)} (hp : m.Perm m')
    (hties : ∀ x ∈ m, ∀ x' ∈ m, key x.2 = key x'.2 → x.2 = x'.2) :
    sortedByKey key (m.map Prod.snd) = sortedByKey key (m'.map Prod.snd) := by
  rw [← List.forall₂_eq_eq_eq]
  refine forall₂_sortedByKey (fun _ _ h => congrArg key h) (fun _ _ _ h h' => h.trans h')
    (hp.map Prod.snd)
    (List.forall₂_same.2 fun _ _ => rfl) ?_
  simpa only [List.forall_mem_map] using hties

include hsort

theorem DamlModule.orderIndependent_of_tieFree (m : DamlModule)
    (h : ∀ n, Worklist.Reaches DamlModule.childList m n → n.TieFree) :
    m.OrderIndependent visitor := by
  induction m using PathTree.induction with
  | node body cs ih =>
    intro m' hm
    rcases m' with ⟨body', cs'⟩
    have hconst : ∀ es : List (String × DamlModule), ∀ c ∈ es, ∀ before,
        DamlModule.accept visitor c.2 before = DamlModule.accept visitor c.2 [] :=
      fun _ c _ => DamlModule.accept_const visitor hsort c.2
    rw [DamlModule.accept_node visitor hsort (hconst cs),
      DamlModule.accept_node visitor hsort (hconst cs')]
    obtain ⟨hties, hbelow⟩ := Worklist.forall_reaches_iff.1 h
    obtain ⟨hbody, ds, hperm, hall⟩ := DamlModule.reordered_node_iff.1 hm
    refine .around (.module hm) ?_
    unfold DamlModuleBody.sortedParts
    rw [hbody.synonyms, sortedByKey_eq_of_perm hbody.dataTypes hties.dataTypes,
      sortedByKey_eq_of_perm hbody.interfaces hties.interfaces,
      sortedByKey_eq_of_perm hbody.exceptions hties.exceptions]
    -- values are visited as they are stored, which no order changes if all of them are the same
    have hvalues : body.values.map Prod.snd = body'.values.map Prod.snd := by
      have hsorted : sortedByKey (fun _ => 0) (body.values.map Prod.snd) =
          sortedByKey (fun _ => 0) (body'.values.map Prod.snd) :=
        sortedByKey_eq_of_perm hbody.values fun v hv v' hv' _ => hties.values v hv v' hv'
      rwa [sortedByKey_const, sortedByKey_const] at hsorted
    rw [hvalues]
    -- the sorted children correspond one to one, and the induction hypothesis is about each pair
    have hchildren : SameCallbacks
        ((sortedByKey (fun m => (PathTree.val m).path) (cs.map Prod.snd)).flatMap
          fun m => DamlModule.accept visitor m [])
        ((sortedByKey (fun m => (PathTree.val m).path) (cs'.map Prod.snd)).flatMap
          fun m => DamlModule.accept visitor m []) := by
      have hrelated : List.Forall₂ DamlModule.Reordered
          (sortedByKey (fun m => (PathTree.val m).path) (cs.map Prod.snd))
          (sortedByKey (fun m => (PathTree.val m).path) (cs'.map Prod.snd)) := by
        refine forall₂_sortedByKey (fun _ _ h => h.val.path) (fun _ _ _ h h' => h.trans h')
          (hperm.map Prod.snd) (DamlModule.forall₂_entries_iff.2 hall).2 ?_
        rw [List.forall_mem_map]
        exact fun c hc => List.forall_mem_map.2 (hties.childModules c hc)
      refine (hrelated.imp_of_mem fun n hn n' _ hnn' => ?_).flatMap
      obtain ⟨c, hc, rfl⟩ := List.mem_map.1 (mem_sortedByKey.1 hn)
      exact ih c hc (hbelow c.2 (List.mem_map_of_mem hc)) n' hnn'
    have hsame : ∀ callbacks : List Callback, SameCallbacks callbacks callbacks :=
      SameCallbacks.refl
    exact List.rel_append (hsame _) (List.rel_append (hsame _) (List.rel_append (hsame _)
      (List.rel_append (hsame _) (List.rel_append hchildren (hsame _)))))

end

/-! ### Ties show in some order -/

section

variable {α κ : Type} [Ord κ] {key : α → κ} {accept : α → List Callback}

variable (key accept) in
/-- Entries that are listed in any order and sorted by a key: two of them with the same key are
visited in either order, at the same place. -/
lemma same_of_key_eq [Std.ReflOrd κ] {entries : List (String × α)} {element : α → Element}
    (hsame : ∀ l l', entries.Perm l → entries.Perm l' →
      SameCallbacks ((sortedByKey key (l.map Prod.snd)).flatMap accept)
        ((sortedByKey key (l'.map Prod.snd)).flatMap accept))
    (haccept : ∀ x, ∃ inside, accept x = visit (element x) inside)
    {e e' : String × α} (he : e ∈ entries) (he' : e' ∈ entries) (hkey : key e.2 = key e'.2) :
    (element e.2).Same (element e'.2) := by
  by_cases hne : e = e'
  · rw [hne]
    exact .refl _
  obtain ⟨rest, hp⟩ := List.exists_perm_pair he he' hne
  have hboth := hsame _ _ hp (hp.trans (.swap _ _ _))
  simp only [List.map_cons, sortedByKey_pair hkey, sortedByKey_pair hkey.symm, ← hkey,
    List.flatMap_append] at hboth
  -- What precedes the two entries is the same list in both orders.
  have hheads := (hboth.of_append rfl).2
  obtain ⟨inside, hinside⟩ := haccept e.2
  obtain ⟨inside', hinside'⟩ := haccept e'.2
  simp only [List.flatMap_cons, hinside, hinside', visit, List.cons_append] at hheads
  obtain _ | ⟨hhead, -⟩ := hheads
  exact .of_callback hhead

/-- Where one entry is replaced, and its key kept, its callbacks are at the place of the old
ones. -/
lemma sameCallbacks_of_replace {l r : List (String × α)} {c c' : String × α}
    (hkey : key c.2 = key c'.2) (h : SameCallbacks
      ((sortedByKey key ((l ++ c :: r).map Prod.snd)).flatMap accept)
      ((sortedByKey key ((l ++ c' :: r).map Prod.snd)).flatMap accept)) :
    SameCallbacks (accept c.2) (accept c'.2) := by
  let pairs : List (α × α) :=
    l.map (fun x => (x.2, x.2)) ++ (c.2, c'.2) :: r.map fun x => (x.2, x.2)
  have hpairs : ∀ P : α × α → Prop, (∀ x, P (x, x)) → P (c.2, c'.2) → ∀ p ∈ pairs, P p := by
    intro P hsame hreplaced
    exact List.forall_mem_append.2 ⟨List.forall_mem_map.2 fun x _ => hsame x.2,
      List.forall_mem_cons.2 ⟨hreplaced, List.forall_mem_map.2 fun x _ => hsame x.2⟩⟩
  have hkeys : ∀ p ∈ pairs, key p.2 = key p.1 :=
    hpairs (fun p => key p.2 = key p.1) (fun _ => rfl) hkey.symm
  have hold : (l ++ c :: r).map Prod.snd = pairs.map Prod.fst := by
    simp [pairs, Function.comp_def]
  have hnew : (l ++ c' :: r).map Prod.snd = pairs.map Prod.snd := by
    simp [pairs, Function.comp_def]
  rw [hold, hnew, sortedByKey_map, sortedByKey_map, sortedByKey_congr hkeys, List.flatMap_map,
    List.flatMap_map] at h
  have htotal := h.length_eq
  rw [length_flatMap_sortedByKey, length_flatMap_sortedByKey] at htotal
  have hreplaced : (accept c.2).length = (accept c'.2).length := by
    simp only [pairs, List.flatMap_append, List.flatMap_cons, List.flatMap_map,
      List.length_append] at htotal
    omega
  have hlen : ∀ p ∈ sortedByKey (fun p => key p.1) pairs,
      (accept p.1).length = (accept p.2).length := fun p hp =>
    hpairs (fun p => (accept p.1).length = (accept p.2).length) (fun _ => rfl) hreplaced p
      (mem_sortedByKey.1 hp)
  refine List.forall₂_of_flatMap hlen h (c.2, c'.2) ?_
  rw [mem_sortedByKey]
  exact List.mem_append_right _ List.mem_cons_self

end

lemma SameCallbacks.of_visit {e e' : Element} {cs cs' : List Callback}
    (h : SameCallbacks (visit e cs) (visit e' cs')) : SameCallbacks cs cs' := by
  obtain _ | ⟨-, hrest⟩ := h
  have hlen := hrest.length_eq
  rw [List.length_append, List.length_append] at hlen
  exact (hrest.of_append (Nat.add_right_cancel hlen)).1

/-- Parts of the same lengths are the same one by one. -/
lemma SameCallbacks.of_flatten {parts parts' : List (List Callback)}
    (hlen : List.Forall₂ (fun cs cs' => cs.length = cs'.length) parts parts')
    (h : SameCallbacks parts.flatten parts'.flatten) : List.Forall₂ SameCallbacks parts parts' := by
  induction hlen with
  | nil => exact .nil
  | cons hcs _ ih =>
    rw [List.flatten_cons, List.flatten_cons] at h
    obtain ⟨hfirst, hrest⟩ := h.of_append hcs
    exact .cons hfirst (ih hrest)

section

variable (visitor : DamlElementVisitor) (hsort : ∀ cs, visitor.sortElements cs = true)

lemma DamlModule.exists_accept_eq (m : DamlModule) :
    ∃ inside, DamlModule.accept visitor m [] = visit (.module m) inside := by
  cases m with
  | node body cs => exact ⟨_, rfl⟩

include hsort

/-- The callbacks of a module when the visitor asks for sorted elements. -/
lemma DamlModule.accept_eq (body : DamlModuleBody) (cs : List (String × DamlModule)) :
    DamlModule.accept visitor (.node body cs) [] =
      visit (.module (.node body cs))
        (body.sortedParts cs fun m => DamlModule.accept visitor m []).flatten :=
  DamlModule.accept_node visitor hsort
    (fun c _ => DamlModule.accept_const visitor hsort c.2) []

variable {body : DamlModuleBody} {cs : List (String × DamlModule)}
  (h : DamlModule.OrderIndependent visitor (.node body cs))

include h

/-- Two orders of the maps of a module: what is visited in one part is the same. -/
lemma DamlModule.sameParts {body₁ body₂ : DamlModuleBody} {cs₁ cs₂ : List (String × DamlModule)}
    (hbody₁ : body.Reordered body₁) (hbody₂ : body.Reordered body₂) (hcs₁ : cs.Perm cs₁)
    (hcs₂ : cs.Perm cs₂) :
    List.Forall₂ SameCallbacks (body₁.sortedParts cs₁ fun m => DamlModule.accept visitor m [])
      (body₂.sortedParts cs₂ fun m => DamlModule.accept visitor m []) := by
  have hsame : ∀ cs' : List (String × DamlModule),
      List.Forall₂ (fun c c' => c.1 = c'.1 ∧ DamlModule.Reordered c.2 c'.2) cs' cs' :=
    fun cs' => List.forall₂_same.2 fun c _ => ⟨rfl, .refl c.2⟩
  have hm₁ : DamlModule.Reordered (.node body cs) (.node body₁ cs₁) :=
    DamlModule.reordered_node_iff.2 ⟨hbody₁, cs₁, hcs₁, hsame cs₁⟩
  have hm₂ : DamlModule.Reordered (.node body cs) (.node body₂ cs₂) :=
    DamlModule.reordered_node_iff.2 ⟨hbody₂, cs₂, hcs₂, hsame cs₂⟩
  have hboth := (h _ hm₁).symm.trans (h _ hm₂)
  rw [DamlModule.accept_eq visitor hsort, DamlModule.accept_eq visitor hsort] at hboth
  have hbody := hbody₁.symm.trans hbody₂
  refine SameCallbacks.of_flatten ?_ hboth.of_visit
  simp only [DamlModuleBody.sortedParts, List.forall₂_cons, length_flatMap_sortedByKey,
    hbody.synonyms, true_and]
  exact ⟨((hbody.dataTypes.map _).flatMap_right _).length_eq,
    ((hbody.interfaces.map _).flatMap_right _).length_eq,
    ((hbody.exceptions.map _).flatMap_right _).length_eq,
    (((hcs₁.symm.trans hcs₂).map _).flatMap_right _).length_eq,
    ((hbody.values.map _).flatMap_right _).length_eq, .nil⟩

theorem DamlModule.tieFree_of_orderIndependent : DamlModule.TieFree (.node body cs) where
  dataTypes := by
    rintro ⟨_, d⟩ hd ⟨_, d'⟩ hd' hname
    have hreordered : ∀ l, body.dataTypes.Perm l →
        body.Reordered { body with dataTypes := l } :=
      fun l hl => ⟨rfl, rfl, rfl, hl, .refl _, .refl _, .refl _, rfl⟩
    have hsame : Element.Same (.data d) (.data d') := by
      refine same_of_key_eq DamlData.name DamlData.accept (fun l l' hl hl' => ?_)
        (fun _ => ⟨_, rfl⟩) hd hd' hname
      have hparts := DamlModule.sameParts visitor hsort h (hreordered l hl) (hreordered l' hl')
        (.refl cs) (.refl cs)
      simp only [DamlModuleBody.sortedParts, List.forall₂_cons] at hparts
      exact hparts.2.1
    cases hsame
    rfl
  interfaces := by
    rintro ⟨_, i⟩ hi ⟨_, i'⟩ hi' hname
    have hreordered : ∀ l, body.interfaces.Perm l →
        body.Reordered { body with interfaces := l } :=
      fun l hl => ⟨rfl, rfl, rfl, .refl _, hl, .refl _, .refl _, rfl⟩
    have hsame : Element.Same (.interface i) (.interface i') := by
      refine same_of_key_eq DamlInterface.name DamlInterface.accept (fun l l' hl hl' => ?_)
        (fun _ => ⟨_, rfl⟩) hi hi' hname
      have hparts := DamlModule.sameParts visitor hsort h (hreordered l hl) (hreordered l' hl')
        (.refl cs) (.refl cs)
      simp only [DamlModuleBody.sortedParts, List.forall₂_cons] at hparts
      exact hparts.2.2.1
    cases hsame
    rfl
  exceptions := by
    rintro ⟨_, e⟩ he ⟨_, e'⟩ he' hname
    have hreordered : ∀ l, body.exceptions.Perm l →
        body.Reordered { body with exceptions := l } :=
      fun l hl => ⟨rfl, rfl, rfl, .refl _, .refl _, hl, .refl _, rfl⟩
    have hsame : Element.Same (.exception e) (.exception e') := by
      refine same_of_key_eq DamlException.name DamlException.accept (fun l l' hl hl' => ?_)
        (fun _ => ⟨_, rfl⟩) he he' hname
      have hparts := DamlModule.sameParts visitor hsort h (hreordered l hl) (hreordered l' hl')
        (.refl cs) (.refl cs)
      simp only [DamlModuleBody.sortedParts, List.forall₂_cons] at hparts
      exact hparts.2.2.2.1
    cases hsame
    rfl
  childModules := by
    rintro ⟨_, m⟩ hm ⟨_, m'⟩ hm' hpath
    have hsame : Element.Same (.module m) (.module m') := by
      refine same_of_key_eq (fun m => (PathTree.val m).path)
        (fun m => DamlModule.accept visitor m []) (fun l l' hl hl' => ?_)
        (fun m => DamlModule.exists_accept_eq visitor m) hm hm' hpath
      have hparts := DamlModule.sameParts visitor hsort h (.refl body) (.refl body) hl hl'
      simp only [DamlModuleBody.sortedParts, List.forall₂_cons] at hparts
      exact hparts.2.2.2.2.1
    cases hsame with
    | module hsame => exact hsame
    | refl => exact .refl m
  values := by
    rintro ⟨_, v⟩ hv ⟨_, v'⟩ hv'
    have hreordered : ∀ l, body.values.Perm l → body.Reordered { body with values := l } :=
      fun l hl => ⟨rfl, rfl, rfl, .refl _, .refl _, .refl _, hl, rfl⟩
    have hsame : Element.Same (.defValue v) (.defValue v') := by
      -- The values are not sorted, which is sorting by a key that they all have.
      refine same_of_key_eq (fun _ => 0) DamlDefValue.accept (fun l l' hl hl' => ?_)
        (fun _ => ⟨_, rfl⟩) hv hv' rfl
      have hparts := DamlModule.sameParts visitor hsort h (hreordered l hl) (hreordered l' hl')
        (.refl cs) (.refl cs)
      simp only [DamlModuleBody.sortedParts, List.forall₂_cons] at hparts
      rw [sortedByKey_const, sortedByKey_const]
      exact hparts.2.2.2.2.2.1
    cases hsame
    rfl

/-- Another order of the maps in one child is another order of the maps in the module. -/
theorem DamlModule.childModules_of_orderIndependent :
    ∀ c ∈ cs, DamlModule.OrderIndependent visitor c.2 := by
  intro c hc m' hm'
  obtain ⟨l, r, rfl⟩ := List.append_of_mem hc
  have hrefl : ∀ cs' : List (String × DamlModule),
      List.Forall₂ (fun c c' => c.1 = c'.1 ∧ DamlModule.Reordered c.2 c'.2) cs' cs' :=
    fun cs' => List.forall₂_same.2 fun c _ => ⟨rfl, .refl c.2⟩
  have hreplaced : DamlModule.Reordered (.node body (l ++ c :: r))
      (.node body (l ++ (c.1, m') :: r)) :=
    DamlModule.reordered_node_iff.2 ⟨.refl body, _, .refl _,
      List.rel_append (hrefl l) (.cons ⟨rfl, hm'⟩ (hrefl r))⟩
  have hvisits := h _ hreplaced
  rw [DamlModule.accept_eq visitor hsort, DamlModule.accept_eq visitor hsort] at hvisits
  have hinside := hvisits.of_visit
  have htotal := hinside.length_eq
  simp only [DamlModuleBody.sortedParts, List.flatten_cons, List.length_append] at htotal
  have hparts := SameCallbacks.of_flatten (by
    simp only [DamlModuleBody.sortedParts, List.forall₂_cons, true_and]
    exact ⟨by omega, .nil⟩) hinside
  simp only [DamlModuleBody.sortedParts, List.forall₂_cons] at hparts
  have hpath : (PathTree.val c.2).path = (PathTree.val (c.1, m').2).path := hm'.val.path
  exact sameCallbacks_of_replace hpath hparts.2.2.2.2.1

omit h

theorem DamlModule.orderIndependent_iff_tieFree (m : DamlModule) :
    m.OrderIndependent visitor ↔
      ∀ n, Worklist.Reaches DamlModule.childList m n → n.TieFree := by
  refine ⟨fun h => ?_, DamlModule.orderIndependent_of_tieFree visitor hsort m⟩
  induction m using PathTree.induction with
  | node body cs ih =>
    refine Worklist.forall_reaches_iff.2
      ⟨DamlModule.tieFree_of_orderIndependent visitor hsort h, fun n hn => ?_⟩
    obtain ⟨c, hc, rfl⟩ := List.mem_map.1 hn
    exact ih c hc (DamlModule.childModules_of_orderIndependent visitor hsort h c hc)

end

/-! ### Archives -/

namespace DamlArchive

/-- A visitor that always asks for sorted elements sees the same whatever the order of the maps
in the archive. -/
def OrderIndependent (a : DamlArchive) : Prop :=
  ∀ visitor : DamlElementVisitor, (∀ cs, visitor.sortElements cs = true) →
    ∀ a', a.Reordered a' → SameCallbacks (a.accept visitor []) (a'.accept visitor [])

section

variable (visitor : DamlElementVisitor) (hsort : ∀ cs, visitor.sortElements cs = true)

include hsort

lemma acceptPackage_eq (p : DamlPackage) (before : List Callback) :
    p.accept visitor before =
      visit (.package p) (DamlModule.accept visitor p.rootModule []) := by
  show visit _ (DamlModule.accept visitor p.rootModule _) = _
  rw [DamlModule.accept_const visitor hsort]

lemma accept_eq (a : DamlArchive) :
    a.accept visitor [] =
      visit (.archive a) ((sortedByKey DamlPackage.name (a.packages.map Prod.snd)).flatMap
        fun p => p.accept visitor []) := by
  have hconst : ∀ f ∈ (sortedByKey DamlPackage.name (a.packages.map Prod.snd)).map
      (DamlPackage.accept visitor), ∀ before, f before = f [] := by
    intro f hf before
    obtain ⟨p, -, rfl⟩ := List.mem_map.1 hf
    rw [acceptPackage_eq visitor hsort, acceptPackage_eq visitor hsort]
  show visit _ (Visiting.inOrder ((if _ then _ else _ : List DamlPackage).map _) _) = _
  rw [if_pos (hsort _), Visiting.inOrder_const hconst, List.flatMap_map]

lemma orderIndependent_of_tieFree {a : DamlArchive}
    (hnames : ∀ p ∈ a.packages, ∀ p' ∈ a.packages, p.2.name = p'.2.name → p.2.Reordered p'.2)
    (hmodules : ∀ p ∈ a.packages, p.2.rootModule.OrderIndependent visitor) {a' : DamlArchive}
    (ha : a.Reordered a') : SameCallbacks (a.accept visitor []) (a'.accept visitor []) := by
  rw [accept_eq visitor hsort, accept_eq visitor hsort]
  refine .around (.archive ha) ?_
  obtain ⟨ps, hperm, hall⟩ := ha.packages
  have hvalues : List.Forall₂ DamlPackage.Reordered (ps.map Prod.snd)
      (a'.packages.map Prod.snd) := by
    rw [List.forall₂_map_left_iff, List.forall₂_map_right_iff]
    exact hall.imp fun _ _ h => h.2
  have hrelated : List.Forall₂ DamlPackage.Reordered
      (sortedByKey DamlPackage.name (a.packages.map Prod.snd))
      (sortedByKey DamlPackage.name (a'.packages.map Prod.snd)) := by
    refine forall₂_sortedByKey (fun _ _ h => h.name) (fun _ _ _ h h' => h.trans h')
      (hperm.map Prod.snd) hvalues ?_
    rw [List.forall_mem_map]
    exact fun p hp => List.forall_mem_map.2 (hnames p hp)
  refine (hrelated.imp_of_mem fun p hp p' _ hpp' => ?_).flatMap
  obtain ⟨e, he, rfl⟩ := List.mem_map.1 (mem_sortedByKey.1 hp)
  rw [acceptPackage_eq visitor hsort, acceptPackage_eq visitor hsort]
  exact SameCallbacks.around (.package hpp') (hmodules e he _ hpp'.rootModule)

variable {a : DamlArchive} (h : a.OrderIndependent)

include h

lemma packages_of_orderIndependent : ∀ p ∈ a.packages, ∀ p' ∈ a.packages,
    p.2.name = p'.2.name → p.2.Reordered p'.2 := by
  rintro ⟨_, p⟩ hp ⟨_, p'⟩ hp' hname
  have hreordered : ∀ l, a.packages.Perm l → a.Reordered { a with packages := l } :=
    fun l hl => ⟨rfl, rfl, l, hl, List.forall₂_same.2 fun p _ => ⟨rfl, .refl p.2⟩⟩
  have hsame : Element.Same (.package p) (.package p') := by
    refine same_of_key_eq DamlPackage.name (fun p => p.accept visitor [])
      (fun l l' hl hl' => ?_) (fun _ => ⟨_, rfl⟩) hp hp' hname
    have hboth := (h visitor hsort _ (hreordered l hl)).symm.trans
      (h visitor hsort _ (hreordered l' hl'))
    rw [accept_eq visitor hsort, accept_eq visitor hsort] at hboth
    exact hboth.of_visit
  cases hsame with
  | package hsame => exact hsame
  | refl => exact .refl p

lemma rootModule_of_orderIndependent :
    ∀ p ∈ a.packages, p.2.rootModule.OrderIndependent visitor := by
  intro p hp m' hm'
  obtain ⟨l, r, hlr⟩ := List.append_of_mem hp
  let replaced : String × DamlPackage := (p.1, { p.2 with rootModule := m' })
  have hreplaced : a.Reordered { a with packages := l ++ replaced :: r } := by
    have hrefl : ∀ ps : List (String × DamlPackage),
        List.Forall₂ (fun p p' => p.1 = p'.1 ∧ p.2.Reordered p'.2) ps ps :=
      fun ps => List.forall₂_same.2 fun p _ => ⟨rfl, .refl p.2⟩
    refine ⟨rfl, rfl, _, .refl _, ?_⟩
    rw [hlr]
    exact List.rel_append (hrefl l) (.cons ⟨rfl, rfl, rfl, rfl, hm'⟩ (hrefl r))
  have hvisits := h visitor hsort _ hreplaced
  rw [accept_eq visitor hsort, accept_eq visitor hsort, hlr] at hvisits
  have hname : p.2.name = replaced.2.name := rfl
  have hpackage := sameCallbacks_of_replace hname hvisits.of_visit
  rw [acceptPackage_eq visitor hsort, acceptPackage_eq visitor hsort] at hpackage
  exact hpackage.of_visit

end

theorem orderIndependent_iff (a : DamlArchive) :
    a.OrderIndependent ↔
      (∀ p ∈ a.packages, ∀ p' ∈ a.packages, p.2.name = p'.2.name → p.2.Reordered p'.2) ∧
        ∀ p ∈ a.packages, ∀ m, Worklist.Reaches DamlModule.childList p.2.rootModule m →
          m.TieFree := by
  constructor
  · intro h
    have hsort : ∀ cs, (⟨fun _ => true⟩ : DamlElementVisitor).sortElements cs = true :=
      fun _ => rfl
    refine ⟨packages_of_orderIndependent _ hsort h, fun p hp => ?_⟩
    exact (DamlModule.orderIndependent_iff_tieFree _ hsort _).1
      (rootModule_of_orderIndependent _ hsort h p hp)
  · rintro ⟨hnames, hmodules⟩ visitor hsort a' ha
    exact orderIndependent_of_tieFree visitor hsort hnames
      (fun p hp => (DamlModule.orderIndependent_iff_tieFree visitor hsort _).2 (hmodules p hp)) ha

/-- A module with the values `f` and `g`. -/
def twoValuesModule : DamlModule :=
  .node
    { path := ["M"]
      flags := ⟨true, true, true⟩
      synonyms := []
      dataTypes := []
      interfaces := []
      exceptions := []
      values := [("f", ⟨"f", .unit, .primCon .unit⟩), ("g", ⟨"g", .unit, .primCon .unit⟩)]
      synthetic := false } []

/-- The archive of a package with that module. -/
def twoValuesArchive : DamlArchive where
  name := "values"
  mainPackageId := "pkg"
  packages := [("pkg",
    { name := "values"
      packageId := "pkg"
      version := none
      rootModule := .node
        { path := []
          flags := ⟨true, true, true⟩
          synonyms := []
          dataTypes := []
          interfaces := []
          exceptions := []
          values := []
          synthetic := false } [("M", twoValuesModule)] })]

/-- A sorted visit sees the two values in the order of the map. -/
theorem not_orderIndependent_values : ¬ twoValuesArchive.OrderIndependent := by
  intro h
  have hroot := rootModule_of_orderIndependent ⟨fun _ => true⟩ (fun _ => rfl) h _
    (List.mem_singleton_self _)
  have hmodule := (DamlModule.orderIndependent_iff_tieFree _ (fun _ => rfl) _).1 hroot
    twoValuesModule (.single (List.mem_singleton_self _))
  have hvalues := hmodule.values _ List.mem_cons_self _ (List.mem_cons_of_mem _ List.mem_cons_self)
  have hname := congrArg DamlDefValue.name hvalues
  revert hname
  decide

end DamlArchive

end DamlBindings.Lf
