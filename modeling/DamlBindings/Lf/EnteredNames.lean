import DamlBindings.Lf.ExprReferences
import DamlBindings.Lf.PlacedTree
import DamlBindings.Lf.VisitComplete

/-!
# The names that a visit enters

A visit of a package enters the names in the definitions that its tree of modules holds, wherever
they lie.
-/

namespace DamlBindings.Lf

open PathTree TreeVisit Worklist

/-- A visit of the element enters the name. -/
def Element.Shows (e : Element) (x : VisitedName) : Prop :=
  ∃ e', Reaches Element.visitedChildren e e' ∧ e'.name? = some x

lemma mem_visited_iff {β : Type} {f : Element → Option β} {e : Element} {cs : List Callback}
    (h : IsVisit e cs) {x : β} :
    x ∈ visited f cs ↔ ∃ e', Reaches Element.visitedChildren e e' ∧ f e' = some x := by
  have hmem : ∀ e', Callback.pre e' ∈ cs ↔ Reaches Element.visitedChildren e e' := by
    refine fun e' => ⟨fun hpre => ?_, h.enter_mem⟩
    refine h.reaches_of_mem Callback.entered_pre Callback.entered_post ?_
    exact List.mem_filterMap.2 ⟨_, hpre, rfl⟩
  rw [visited, List.mem_filterMap]
  constructor
  · rintro ⟨e' | e', hpre, hx⟩
    · exact ⟨e', (hmem e').1 hpre, hx⟩
    · cases hx
  · rintro ⟨e', hreach, hx⟩
    exact ⟨.pre e', (hmem e').2 hreach, hx⟩

lemma Element.shows_iff_mem {e : Element} {cs : List Callback} (h : IsVisit e cs)
    {x : VisitedName} : e.Shows x ↔ x ∈ visitedNames cs :=
  (mem_visited_iff h).symm

/-- A name is entered at the element itself or inside it. -/
lemma Element.shows_iff {e : Element} {x : VisitedName} :
    e.Shows x ↔ e.name? = some x ∨ ∃ c ∈ e.visitedChildren, c.Shows x := by
  constructor
  · rintro ⟨e', hreach, hx⟩
    obtain rfl | ⟨c, hc, hreach⟩ := reaches_iff.1 hreach
    · exact .inl hx
    · exact .inr ⟨c, hc, e', hreach, hx⟩
  · rintro (hx | ⟨c, hc, e', hreach, hx⟩)
    · exact ⟨e, .refl, hx⟩
    · exact ⟨e', reaches_iff.2 (.inr ⟨c, hc, hreach⟩), hx⟩

/-! ### Modules and packages -/

/-- The definitions in a body. -/
def DamlModuleBody.definitions (body : DamlModuleBody) : List Element :=
  body.synonyms.map .defTypeSyn ++ body.dataTypes.map (fun d => .data d.2) ++
    body.interfaces.map (fun i => .interface i.2) ++
    body.exceptions.map (fun e => .exception e.2) ++ body.values.map fun v => .defValue v.2

lemma mem_visitedChildren_module {m : DamlModule} {c : Element} :
    c ∈ (Element.module m).visitedChildren ↔
      c ∈ m.val.definitions ∨ ∃ e ∈ m.childModules, c = .module e.2 := by
  simp only [Element.visitedChildren, DamlModuleBody.definitions, List.mem_append, List.mem_map,
    eq_comm (b := c)]
  exact or_right_comm

/-- A visit of a module enters the names in the definitions at the nodes below it. -/
lemma shows_module_iff {m : DamlModule} (hm : Placed m) {x : VisitedName} :
    (Element.module m).Shows x ↔
      ∃ q b, valAt m q = some b ∧ ∃ e ∈ b.definitions, e.Shows x := by
  induction m using PathTree.induction with | node body childModules ih => ?_
  rw [Element.shows_iff]
  constructor
  · rintro (hx | ⟨c, hc, hx⟩)
    · cases hx
    obtain hc | ⟨e, he, rfl⟩ := mem_visitedChildren_module.1 hc
    · exact ⟨[], body, rfl, c, hc, hx⟩
    · obtain ⟨q, b, hb, hdef⟩ := (ih e he (hm.child he)).1 hx
      refine ⟨e.1 :: q, b, ?_, hdef⟩
      rw [valAt_cons, (AssocMap.lookup_eq_some_iff hm.nodup).2 he]
      exact hb
  · rintro ⟨q, b, hb, e, he, hx⟩
    refine .inr ?_
    cases q with
    | nil =>
      cases hb
      exact ⟨e, mem_visitedChildren_module.2 (.inl he), hx⟩
    | cons k q =>
      rw [valAt_cons] at hb
      obtain ⟨c, hc, hb⟩ := Option.bind_eq_some_iff.1 hb
      have hmem := AssocMap.mem_of_lookup hc
      refine ⟨.module c, mem_visitedChildren_module.2 (.inr ⟨_, hmem, rfl⟩), ?_⟩
      exact (ih _ hmem (hm.child hmem)).2 ⟨q, b, hb, e, he, hx⟩

/-! ### The packages of the names -/

/-- The package of a name that is not local. -/
def VisitedName.targetPackage? : VisitedName → Option String
  | .tycon (.absolute c) => some c.packageId
  | .tycon (.nonLocal c) => some c.targetPackageId
  | .value (.nonLocal c) => some c.targetPackageId
  | _ => none

/-- The struct inside a name. -/
def VisitedName.inner : VisitedName → Element
  | .tycon (.localTyCon c) => .localTycon c
  | .tycon (.nonLocal c) => .nonLocalTycon c
  | .tycon (.absolute c) => .absoluteTycon c
  | .value (.localValue c) => .localValueName c
  | .value (.nonLocal c) => .nonLocalValueName c

/-- The element is the struct inside a name. -/
def Element.isInner : Element → Bool
  | .localTycon _ => true
  | .nonLocalTycon _ => true
  | .absoluteTycon _ => true
  | .localValueName _ => true
  | .nonLocalValueName _ => true
  | _ => false

lemma DamlType.isInner_elements (t : DamlType) : ∀ c ∈ t.elements, c.isInner = false := by
  cases t <;> simp [DamlType.elements, Element.isInner]

lemma DamlExpr.isInner_elements (e : DamlExpr) : ∀ c ∈ e.elements, c.isInner = false := by
  cases e <;> simp [DamlExpr.elements, Element.isInner]

lemma DamlExpr.isInner_nodeElements (e : DamlExpr) : ∀ c ∈ e.nodeElements, c.isInner = false := by
  cases e <;> simp [DamlExpr.nodeElements, DamlTyCon.element, Element.isInner, or_imp, forall_and]

lemma DamlUpdate.isInner_elements (u : DamlUpdate DamlExpr) :
    ∀ c ∈ u.elements, c.isInner = false := by
  cases u <;> simp [DamlUpdate.elements, Element.isInner]

lemma DamlUpdate.isInner_nodeElements (u : DamlUpdate DamlExpr) :
    ∀ c ∈ u.nodeElements, c.isInner = false := by
  cases u <;> simp [DamlUpdate.nodeElements, Element.isInner, or_imp, forall_and]

lemma DamlCaseAltSum.isInner_elements (s : DamlCaseAltSum) :
    ∀ c ∈ s.elements, c.isInner = false := by
  cases s <;> simp [DamlCaseAltSum.elements, Element.isInner]

lemma DamlCaseAltSum.isInner_nodeElements (s : DamlCaseAltSum) :
    ∀ c ∈ s.nodeElements, c.isInner = false := by
  cases s <;> simp [DamlCaseAltSum.nodeElements, Element.isInner]

lemma DamlInterfaceExpr.isInner_elements (i : DamlInterfaceExpr DamlExpr) :
    ∀ c ∈ i.elements, c.isInner = false := by
  cases i <;> simp [DamlInterfaceExpr.elements, Element.isInner]

/-- Only a name has the struct of a name right inside it. -/
lemma Element.isInner_visitedChildren {e : Element} (he : e.name? = none) :
    ∀ c ∈ e.visitedChildren, c.isInner = false := by
  cases e with
  | tyconName n => cases he
  | valueName n => cases he
  | type t => exact t.isInner_elements
  | expr e => exact e.isInner_elements
  | exprNode e => exact e.isInner_nodeElements
  | update u => exact u.isInner_elements
  | updateNode u => exact u.isInner_nodeElements
  | caseAltSum s => exact s.isInner_elements
  | caseAltNode s => exact s.isInner_nodeElements
  | interfaceExpr i => exact i.isInner_elements
  | data d => cases d <;> simp [visitedChildren, DamlData.element, isInner]
  | kind k => cases k <;> simp [visitedChildren, DamlKind.elements, isInner]
  | archive a => exact List.forall_mem_map.2 fun _ _ => rfl
  | module m =>
    simp only [visitedChildren, List.forall_mem_append, List.forall_mem_map]
    simp [isInner]
  | _ => simp [visitedChildren, isInner, or_imp, forall_and]

lemma Element.visitedChildren_of_name? {e : Element} {x : VisitedName} (h : e.name? = some x) :
    e.visitedChildren = [x.inner] := by
  cases e with
  | tyconName n =>
    cases h
    cases n <;> rfl
  | valueName n =>
    cases h
    cases n <;> rfl
  | _ => cases h

@[simp] lemma VisitedName.isInner_inner (x : VisitedName) : x.inner.isInner = true := by
  obtain n | n := x <;> cases n <;> rfl

lemma VisitedName.inner_injective : Function.Injective VisitedName.inner := by
  intro x y h
  obtain n | n := x <;> obtain n' | n' := y <;> cases n <;> cases n' <;> cases h <;> rfl

/-- The struct inside a name is entered where the name is. -/
lemma Element.reaches_inner_iff {e : Element} (he : e.isInner = false) {x : VisitedName} :
    Reaches visitedChildren e x.inner ↔ e.Shows x := by
  constructor
  · intro hreach
    obtain heq | ⟨c, hreach, hc⟩ := Relation.ReflTransGen.cases_tail hreach
    · rw [← heq, VisitedName.isInner_inner] at he
      cases he
    refine ⟨c, hreach, ?_⟩
    rcases hname : c.name? with _ | y
    · have hfalse := isInner_visitedChildren hname _ hc
      rw [VisitedName.isInner_inner] at hfalse
      cases hfalse
    · rw [visitedChildren_of_name? hname, List.mem_singleton] at hc
      rw [VisitedName.inner_injective hc]
  · rintro ⟨c, hreach, hx⟩
    refine hreach.tail ?_
    rw [visitedChildren_of_name? hx]
    exact List.mem_singleton_self _

end DamlBindings.Lf
