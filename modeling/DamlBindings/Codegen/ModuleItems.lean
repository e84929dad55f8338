import DamlBindings.Codegen.ModuleRenderer
import DamlBindings.Lf.PlacedTree
import DamlBindings.Lib.PathWay

/-!
# What is rendered of an archive

Both generators walk the tree of modules.  The data types of a module are in the single file if
the nearest module on the way to it that is not synthetic is matched.  A module has a file of its
own if it or a module below it has data types and is matched.
-/

namespace DamlBindings.Codegen

open Lf PathTree

/-- An item, with the id of its package and the path of its module. -/
abbrev PlacedItem := String × List String × RenderItem

mutual

/-- The items in the tokens of a module, with the paths of the modules they are in. -/
def ModTokens.items : ModTokens → List (List String × RenderItem)
  | .mod path _ items children => items.map (fun i => (path, i)) ++ itemsOf children
termination_by structural t => t

def ModTokens.itemsOf : List ModTokens → List (List String × RenderItem)
  | [] => []
  | t :: ts => t.items ++ itemsOf ts
termination_by structural ts => ts

end

/-- The items of `quote_archive`. -/
def combinedItems (matcher : ModuleMatcher) (renderMethod : RenderMethod) (A : DamlArchive) :
    List PlacedItem :=
  A.packages.flatMap fun e =>
    (ModTokens.itemsOf (quotePackage matcher renderMethod e.2).toList).map fun i => (e.1, i)

/-- The items in the files of a package, with the paths of the modules they are in. -/
def SourceFile.placedItems (file : SourceFile) : List (List String × RenderItem) :=
  file.items.map fun i => (file.path, i)

/-- The items of `generate_archive_separate`. -/
def separateItems (N : Naming) (matcher : ModuleMatcher) (A : DamlArchive) : List PlacedItem :=
  A.packages.flatMap fun e =>
    ((generatePackageSource N matcher e.2).flatMap SourceFile.placedItems).map fun i => (e.1, i)

/-! ### Modules at their places -/

lemma keyed_of_placed {m : DamlModule} (h : Placed m) : Keyed m := by
  induction m using PathTree.induction with
  | node body childModules ih =>
    exact .node h.nodup fun c hc => ih c hc (h.child hc)

/-- The path of a module is the path that leads to it. -/
lemma path_of_placed {m : DamlModule} (h : Placed m) {p : List String} {b : DamlModuleBody}
    (hb : valAt m p = some b) : b.path = m.val.path ++ p := by
  induction p generalizing m with
  | nil =>
    cases hb
    rw [List.append_nil]
  | cons k p ih =>
    obtain ⟨c, hlookup, hb⟩ := valAt_cons_eq_some.1 hb
    have hc := (keyed_of_placed h).lookup_iff.1 hlookup
    rw [ih (h.child hc) hb, h.path_eq hc, List.append_assoc, List.singleton_append]

/-! ### A single file -/

section Combined

variable (matcher : ModuleMatcher) (renderMethod : RenderMethod)

/-- The nearest module on the way to a path that is not synthetic. -/
def nearestReal (m : DamlModule) (p : List String) : Option DamlModuleBody :=
  ((way p m).filter fun b => !b.synthetic).getLast?

/-- The nearest module on the way to a path that is not synthetic is matched. -/
def Included (m : DamlModule) (p : List String) : Prop :=
  ∃ b, nearestReal m p = some b ∧ matcher.matches (toModulePath b.path) = true

/-- What is quoted of a module that is rendered. -/
def quotedItems (body : DamlModuleBody) : List RenderItem :=
  quoteAllData body.dataTypes ++ quoteAllInterfaces body.interfaces renderMethod

variable {matcher renderMethod}

/-- The data types of a module are rendered under the flag that its children get. -/
lemma renderData_eq (ancestorRealIncluded : Bool) (body : DamlModuleBody) :
    renderData matcher ancestorRealIncluded body =
      childAncestorIncluded matcher ancestorRealIncluded body := by
  rw [renderData, childAncestorIncluded, selfRealIncluded]
  cases body.synthetic <;> simp

lemma moduleTokens_eq (ancestorRealIncluded : Bool) (body : DamlModuleBody) :
    moduleTokens matcher renderMethod ancestorRealIncluded body =
      if childAncestorIncluded matcher ancestorRealIncluded body then quotedItems renderMethod body
      else [] := by
  rw [moduleTokens, renderData_eq]
  rfl

@[simp] lemma itemsOf_nil : ModTokens.itemsOf [] = [] := rfl

@[simp] lemma itemsOf_cons (t : ModTokens) (ts : List ModTokens) :
    ModTokens.itemsOf (t :: ts) = t.items ++ ModTokens.itemsOf ts := rfl

lemma itemsOf_append (ts ts' : List ModTokens) :
    ModTokens.itemsOf (ts ++ ts') = ModTokens.itemsOf ts ++ ModTokens.itemsOf ts' := by
  induction ts with
  | nil => rfl
  | cons t ts ih => rw [List.cons_append, itemsOf_cons, itemsOf_cons, ih, List.append_assoc]

/-- A module without tokens has no items, and neither have the modules below it. -/
lemma itemsOf_quoteModuleTreeInner (body : DamlModuleBody)
    (childModules : List (String × DamlModule)) (name : String) (ancestorRealIncluded : Bool) :
    ModTokens.itemsOf (quoteModuleTreeInner matcher renderMethod (.node body childModules) name
        ancestorRealIncluded).toList =
      (moduleTokens matcher renderMethod ancestorRealIncluded body).map (fun i => (body.path, i)) ++
        ModTokens.itemsOf (quoteChildren matcher renderMethod childModules
          (childAncestorIncluded matcher ancestorRealIncluded body)) := by
  show ModTokens.itemsOf (if !renderData matcher ancestorRealIncluded body &&
    (quoteChildren matcher renderMethod childModules
      (childAncestorIncluded matcher ancestorRealIncluded body)).isEmpty then none
    else some (ModTokens.mod body.path name
      (moduleTokens matcher renderMethod ancestorRealIncluded body)
      (quoteChildren matcher renderMethod childModules
        (childAncestorIncluded matcher ancestorRealIncluded body)))).toList = _
  split_ifs with h
  · rw [Bool.and_eq_true, Bool.not_eq_true', List.isEmpty_iff] at h
    rw [h.2, moduleTokens, h.1]
    rfl
  · rw [Option.toList_some, itemsOf_cons, itemsOf_nil, List.append_nil]
    rfl

lemma itemsOf_quoteChildren (childModules : List (String × DamlModule))
    (ancestorRealIncluded : Bool) :
    ModTokens.itemsOf (quoteChildren matcher renderMethod childModules ancestorRealIncluded) =
      childModules.flatMap fun c => ModTokens.itemsOf
        (quoteModuleTreeInner matcher renderMethod c.2 (localName c.2.val)
          ancestorRealIncluded).toList := by
  induction childModules with
  | nil => rfl
  | cons c childModules ih =>
    rw [List.flatMap_cons, ← ih, ← itemsOf_append]
    rfl

/-- The flag that a module gets from the modules on the way to it. -/
lemma foldl_childAncestorIncluded (m : DamlModule) (p : List String) :
    (way p m).foldl (childAncestorIncluded matcher) false = true ↔ Included matcher m p := by
  have hset : childAncestorIncluded matcher = fun inc b =>
      (if !b.synthetic then some (matcher.matches (toModulePath b.path)) else none).getD inc := by
    funext inc b
    rw [childAncestorIncluded, selfRealIncluded]
    cases b.synthetic <;> simp
  have hlast : ((way p m).filterMap fun b =>
      if !b.synthetic then some (matcher.matches (toModulePath b.path)) else none).getLast? =
        (nearestReal m p).map fun b => matcher.matches (toModulePath b.path) := by
    rw [nearestReal, ← List.getLast?_map, ← List.filterMap_eq_map, List.filterMap_filter]
    rfl
  rw [hset, foldl_set_eq, hlast, Included]
  cases nearestReal m p <;> simp

/-- The items of a package in the single file are those of the modules that are included. -/
theorem mem_itemsOf_quotePackage {package : DamlPackage} (h : Placed package.rootModule)
    {x : List String × RenderItem} :
    x ∈ ModTokens.itemsOf (quotePackage matcher renderMethod package).toList ↔
      ∃ p b, valAt package.rootModule p = some b ∧ Included matcher package.rootModule p ∧
        x.1 = b.path ∧ x.2 ∈ quotedItems renderMethod b := by
  -- the name of a module is not in its items
  have hname : ModTokens.itemsOf (quotePackage matcher renderMethod package).toList =
      ModTokens.itemsOf (quoteModuleTreeInner matcher renderMethod package.rootModule
        (localName package.rootModule.val) false).toList := by
    rw [quotePackage, quoteModuleTree]
    cases package.rootModule with
    | node body childModules => rw [itemsOf_quoteModuleTreeInner, itemsOf_quoteModuleTreeInner]
  rw [hname, mem_walk (childAncestorIncluded matcher)
    (fun inc b => (if inc then quotedItems renderMethod b else []).map fun i => (b.path, i))
    (fun m inc => ModTokens.itemsOf
      (quoteModuleTreeInner matcher renderMethod m (localName m.val) inc).toList)
    ?_ (keyed_of_placed h)]
  · refine exists_congr fun p => exists_congr fun b => and_congr_right fun _ => ?_
    rw [← foldl_childAncestorIncluded]
    cases (way p package.rootModule).foldl (childAncestorIncluded matcher) false with
    | false => simp
    | true =>
      obtain ⟨path, i⟩ := x
      simp [eq_comm, and_comm]
  · intro body childModules inc
    rw [itemsOf_quoteModuleTreeInner, itemsOf_quoteChildren, moduleTokens_eq]

end Combined

end DamlBindings.Codegen
