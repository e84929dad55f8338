import DamlBindings.Lib.TreeVisit
import DamlBindings.Lf.VisitTree

/-!
# What a visit reaches

The elements that are stored in an element, and which of them its `accept` method visits.  The
interfaces that a template implements and the rounding mode of a literal are stored and not
visited; everything else is.
-/

namespace DamlBindings.Lf

open StableSort TreeVisit

/-! ### The elements inside an element -/

def DamlTyConName.elements : DamlTyConName → List Element
  | .localTyCon c => [.localTycon c]
  | .nonLocal c => [.nonLocalTycon c]
  | .absolute c => [.absoluteTycon c]

def DamlKind.elements : DamlKind → List Element
  | .arrow params result => [.arrow params result]
  | .star => []
  | .nat => []

def DamlType.elements : DamlType → List Element
  | .contractId inner => inner.toList.map .type
  | .numeric args => args.map .type
  | .list args => args.map .type
  | .textMap args => args.map .type
  | .genMap args => args.map .type
  | .optional args => args.map .type
  | .tyCon tycon args => [.tycon tycon args]
  | .boxedTyCon tycon args => [.tycon tycon args]
  | .var v args => [.var v args]
  | .forAll vars body => [.forAll vars body]
  | .struct fields => [.struct fields]
  | .syn tysyn args => [.syn tysyn args]
  | _ => []

def DamlValueName.elements : DamlValueName → List Element
  | .localValue c => [.localValueName c]
  | .nonLocal c => [.nonLocalValueName c]

def DamlCaseAltSum.elements (s : DamlCaseAltSum) : List Element :=
  match s with
  | .default => []
  | .nil => []
  | .optionalNone => []
  | .primCon c => [.primCon c]
  | s => [.caseAltNode s]

/-- The elements inside the struct of a pattern that boxes one. -/
def DamlCaseAltSum.nodeElements : DamlCaseAltSum → List Element
  | .variant con _ _ => [.tyconName con]
  | .enum con _ => [.tyconName con]
  | _ => []

/-- A type constructor with its arguments. -/
def DamlTyCon.element (c : DamlTyCon) : Element := .tycon c.tycon c.typeArguments

def DamlExpr.elements (e : DamlExpr) : List Element :=
  match e with
  | .var _ => []
  | .val name => [.valueName name]
  | .builtin f => [.builtinFunction f]
  | .primCon c => [.primCon c]
  | .primLit l => [.primLit l]
  | .letIn block => [.block block]
  | .nil ty => [.type ty]
  | .update u => [.update u]
  | .optionalNone ty => [.type ty]
  | .typeRep ty => [.type ty]
  | .interfaceOp i => [.interfaceExpr i]
  | e => [.exprNode e]

/-- The elements inside the struct of an expression that boxes one. -/
def DamlExpr.nodeElements : DamlExpr → List Element
  | .recCon tycon fields => tycon.element :: fields.map .fieldWithExpr
  | .recProj tycon record _ => [tycon.element, .expr record]
  | .recUpd tycon record value _ => [tycon.element, .expr record, .expr value]
  | .variantCon tycon arg _ => [tycon.element, .expr arg]
  | .enumCon tycon _ => [.tyconName tycon]
  | .structCon fields => fields.map .fieldWithExpr
  | .structProj s _ => [.expr s]
  | .structUpd s value _ => [.expr s, .expr value]
  | .app fn args => .expr fn :: args.map .expr
  | .tyApp e types => .expr e :: types.map .type
  | .abs params body => params.map .varWithType ++ [.expr body]
  | .tyAbs params body => params.map .typeVar ++ [.expr body]
  | .case scrut alts => .expr scrut :: alts.map .caseAlt
  | .cons ty front tail => .type ty :: (front.map .expr ++ [.expr tail])
  | .optionalSome ty body => [.type ty, .expr body]
  | .toAny ty e => [.type ty, .expr e]
  | .fromAny ty e => [.type ty, .expr e]
  | .toAnyException ty e => [.type ty, .expr e]
  | .fromAnyException ty e => [.type ty, .expr e]
  | .throw returnType exceptionType e => [.type returnType, .type exceptionType, .expr e]
  | _ => []

def DamlUpdate.elements (u : DamlUpdate DamlExpr) : List Element :=
  match u with
  | .block b => [.block b]
  | .getTime => []
  | .ledgerTimeLt e => [.expr e]
  | u => [.updateNode u]

/-- The elements inside the struct of an update that boxes one. -/
def DamlUpdate.nodeElements : DamlUpdate DamlExpr → List Element
  | .pure ty e => [.type ty, .expr e]
  | .create template e => [.tyconName template, .expr e]
  | .exercise template cid arg _ => [.tyconName template, .expr cid, .expr arg]
  | .exerciseByKey template _ key arg => [.tyconName template, .expr key, .expr arg]
  | .fetch template cid => [.tyconName template, .expr cid]
  | .lookupByKey template key => [.tyconName template, .expr key]
  | .fetchByKey template key => [.tyconName template, .expr key]
  | .queryNByKey template => [.tyconName template]
  | .embedExpr ty body => [.type ty, .expr body]
  | .tryCatch returnType tryExpr _ catchExpr => [.type returnType, .expr tryExpr, .expr catchExpr]
  | .createInterface interface e => [.tyconName interface, .expr e]
  | .exerciseInterface interface _ cid arg guard =>
    [.tyconName interface, .expr cid, .expr arg] ++ guard.toList.map .expr
  | .fetchInterface interface cid => [.tyconName interface, .expr cid]
  | _ => []

def DamlInterfaceExpr.elements : DamlInterfaceExpr DamlExpr → List Element
  | .toInterface interfaceType templateType e =>
    [.tyconName interfaceType, .tyconName templateType, .expr e]
  | .fromInterface interfaceType templateType e =>
    [.tyconName interfaceType, .tyconName templateType, .expr e]
  | .callInterface interfaceType _ e => [.tyconName interfaceType, .expr e]
  | .viewInterface interface e => [.tyconName interface, .expr e]
  | .signatoryInterface interface e => [.tyconName interface, .expr e]
  | .observerInterface interface e => [.tyconName interface, .expr e]
  | .unsafeFromInterface interfaceType templateType cid e =>
    [.tyconName interfaceType, .tyconName templateType, .expr cid, .expr e]
  | .toRequiredInterface required requiring e =>
    [.tyconName required, .tyconName requiring, .expr e]
  | .fromRequiredInterface required requiring e =>
    [.tyconName required, .tyconName requiring, .expr e]
  | .unsafeFromRequiredInterface required requiring cid e =>
    [.tyconName required, .tyconName requiring, .expr cid, .expr e]
  | .interfaceTemplateTypeRep interface e => [.tyconName interface, .expr e]
  | .choiceController template _ contract arg => [.tyconName template, .expr contract, .expr arg]
  | .choiceObserver template _ contract arg => [.tyconName template, .expr contract, .expr arg]

def DamlData.element : DamlData → Element
  | .record r => .record r
  | .template t => .template t
  | .variant v => .variant v
  | .enum e => .enum e

namespace Element

/-- The elements right inside an element that its `accept` method visits. -/
def visitedChildren : Element → List Element
  | .archive a => a.packages.map fun p => .package p.2
  | .package p => [.module p.rootModule]
  | .module m =>
    m.val.synonyms.map .defTypeSyn ++ m.val.dataTypes.map (fun d => .data d.2) ++
      m.val.interfaces.map (fun i => .interface i.2) ++
      m.val.exceptions.map (fun e => .exception e.2) ++
      m.childModules.map (fun c => .module c.2) ++ m.val.values.map (fun v => .defValue v.2)
  | .defTypeSyn s => s.params.map .typeVar ++ [.type s.ty]
  | .data d => [d.element]
  | .template t =>
    t.fields.map .field ++ t.choices.map .choice ++ t.precond.toList.map .expr ++
      [.expr t.signatories, .expr t.agreement, .expr t.observers] ++ t.key.toList.map .defKey
  | .interface i =>
    i.methods.map .interfaceMethod ++ i.choices.map .choice ++ [.type i.view] ++
      i.requires.map .tyconName
  | .interfaceMethod m => [.type m.ty]
  | .exception e => [.expr e.message]
  | .choice c =>
    c.fields.map .field ++ [.type c.returnType, .expr c.update, .expr c.controllers,
      .expr c.observers]
  | .record r => r.fields.map .field ++ r.typeParams.map .typeVar
  | .variant v => v.fields.map .field ++ v.typeParams.map .typeVar
  | .enum e => e.typeParams.map .typeVar
  | .field f => [.type f.ty]
  | .type t => t.elements
  | .typeVar v => [.kind v.kind]
  | .kind k => k.elements
  | .arrow params result => params.map .kind ++ [.kind result]
  | .var _ args => args.map .type
  | .forAll vars body => vars.map .typeVar ++ [.type body]
  | .struct fields => fields.map .field
  | .syn tysyn args => .tyconName tysyn :: args.map .type
  | .tycon name args => .tyconName name :: args.map .type
  | .tyconName n => n.elements
  | .defKey k => [.type k.ty, .expr k.maintainers, .expr k.keyExpr]
  | .defValue v => [.type v.ty, .expr v.expr]
  | .expr e => e.elements
  | .exprNode e => e.nodeElements
  | .valueName n => n.elements
  | .fieldWithExpr f => [.expr f.expr]
  | .varWithType v => [.type v.ty]
  | .block b => b.bindings.map .binding ++ [.expr b.body]
  | .binding b => [.varWithType b.binder, .expr b.bound]
  | .update u => u.elements
  | .updateNode u => u.nodeElements
  | .caseAlt a => [.expr a.body, .caseAltSum a.sum]
  | .caseAltSum s => s.elements
  | .caseAltNode s => s.nodeElements
  | .interfaceExpr i => i.elements
  | _ => []

/-- The elements right inside an element that its `accept` method leaves out. -/
def skippedChildren : Element → List Element
  | .template t => t.implements.map .tyconName
  | .primLit (.roundingMode m) => [.roundingMode m]
  | _ => []

/-- The elements right inside an element. -/
def children (e : Element) : List Element := e.visitedChildren ++ e.skippedChildren

end Element

/-- The callbacks are a visit of what the `accept` methods visit. -/
abbrev IsVisit (e : Element) (cs : List Callback) : Prop :=
  Visit Element.visitedChildren Callback.pre Callback.post e cs

abbrev AreVisits (es : List Element) (cs : List Callback) : Prop :=
  Visits Element.visitedChildren Callback.pre Callback.post es cs

lemma isVisit_visit {e : Element} {cs : List Callback} (h : AreVisits e.visitedChildren cs) :
    IsVisit e (visit e cs) :=
  .of_children h

/-- Where all that is inside an element is a struct, and what is in the struct is visited. -/
lemma isVisit_visit_visit {e e' : Element} {cs : List Callback}
    (he : e.visitedChildren = [e']) (h : AreVisits e'.visitedChildren cs) :
    IsVisit e (visit e (visit e' cs)) := by
  refine isVisit_visit ?_
  rw [he]
  exact .single (isVisit_visit h)

/-! ### Names, kinds and types -/

lemma DamlTyConName.isVisit_accept (n : DamlTyConName) : IsVisit (.tyconName n) n.accept := by
  cases n with
  | localTyCon c => exact isVisit_visit_visit rfl .nil
  | nonLocal c => exact isVisit_visit_visit rfl .nil
  | absolute c => exact isVisit_visit_visit rfl .nil

mutual

lemma DamlKind.isVisit_accept : ∀ k : DamlKind, IsVisit (.kind k) k.accept
  | .star => isVisit_visit .nil
  | .nat => isVisit_visit .nil
  | .arrow params result =>
    isVisit_visit_visit rfl ((areVisits_acceptKinds params).append (.single result.isVisit_accept))

lemma areVisits_acceptKinds : ∀ ks : List DamlKind, AreVisits (ks.map .kind) (acceptKinds ks)
  | [] => .nil
  | k :: ks => .cons k.isVisit_accept (areVisits_acceptKinds ks)

end

lemma DamlTypeVarWithKind.isVisit_accept (v : DamlTypeVarWithKind) :
    IsVisit (.typeVar v) v.accept :=
  isVisit_visit (.single v.kind.isVisit_accept)

mutual

lemma DamlType.isVisit_accept : ∀ t : DamlType, IsVisit (.type t) t.accept
  | .contractId inner => isVisit_visit (areVisits_acceptOption inner)
  | .numeric args => isVisit_visit (areVisits_acceptTypes args)
  | .list args => isVisit_visit (areVisits_acceptTypes args)
  | .textMap args => isVisit_visit (areVisits_acceptTypes args)
  | .genMap args => isVisit_visit (areVisits_acceptTypes args)
  | .optional args => isVisit_visit (areVisits_acceptTypes args)
  | .tyCon tycon args =>
    isVisit_visit_visit rfl (.cons tycon.isVisit_accept (areVisits_acceptTypes args))
  | .boxedTyCon tycon args =>
    isVisit_visit_visit rfl (.cons tycon.isVisit_accept (areVisits_acceptTypes args))
  | .var _ args => isVisit_visit_visit rfl (areVisits_acceptTypes args)
  | .forAll _ body =>
    isVisit_visit_visit rfl
      (Visits.append (.flatMap fun v _ => v.isVisit_accept) (.single body.isVisit_accept))
  | .struct fields => isVisit_visit_visit rfl (areVisits_acceptFields fields)
  | .syn tysyn args =>
    isVisit_visit_visit rfl (.cons tysyn.isVisit_accept (areVisits_acceptTypes args))
  | .int64 => isVisit_visit .nil
  | .text => isVisit_visit .nil
  | .timestamp => isVisit_visit .nil
  | .party => isVisit_visit .nil
  | .bool => isVisit_visit .nil
  | .unit => isVisit_visit .nil
  | .date => isVisit_visit .nil
  | .nat _ => isVisit_visit .nil
  | .arrow => isVisit_visit .nil
  | .any => isVisit_visit .nil
  | .typeRep => isVisit_visit .nil
  | .bignumeric => isVisit_visit .nil
  | .roundingMode => isVisit_visit .nil
  | .anyException => isVisit_visit .nil
  | .update => isVisit_visit .nil
  | .failureCategory => isVisit_visit .nil

lemma areVisits_acceptTypes : ∀ ts : List DamlType, AreVisits (ts.map .type) (acceptTypes ts)
  | [] => .nil
  | t :: ts => .cons t.isVisit_accept (areVisits_acceptTypes ts)

lemma areVisits_acceptOption :
    ∀ o : Option DamlType, AreVisits (o.toList.map .type) (acceptOption o)
  | none => .nil
  | some t => .single t.isVisit_accept

lemma areVisits_acceptFields :
    ∀ fs : List (DamlField DamlType), AreVisits (fs.map .field) (acceptFields fs)
  | [] => .nil
  | ⟨_, ty⟩ :: fs => .cons (isVisit_visit (.single ty.isVisit_accept)) (areVisits_acceptFields fs)

end

lemma DamlField.isVisit_accept (f : DamlField DamlType) : IsVisit (.field f) f.accept :=
  isVisit_visit (.single f.ty.isVisit_accept)

lemma DamlTyCon.isVisit_accept (c : DamlTyCon) : IsVisit c.element c.accept :=
  isVisit_visit (.cons c.tycon.isVisit_accept (.flatMap fun t _ => t.isVisit_accept))

/-! ### Expressions -/

lemma DamlValueName.isVisit_accept (n : DamlValueName) : IsVisit (.valueName n) n.accept := by
  cases n with
  | localValue c => exact isVisit_visit_visit rfl .nil
  | nonLocal c => exact isVisit_visit_visit rfl .nil

lemma DamlVarWithType.isVisit_accept (v : DamlVarWithType) : IsVisit (.varWithType v) v.accept :=
  isVisit_visit (.single v.ty.isVisit_accept)

lemma DamlCaseAltSum.isVisit_accept (s : DamlCaseAltSum) : IsVisit (.caseAltSum s) s.accept := by
  cases s with
  | variant con _ _ => exact isVisit_visit_visit rfl (.single con.isVisit_accept)
  | enum con _ => exact isVisit_visit_visit rfl (.single con.isVisit_accept)
  | primCon c => exact isVisit_visit_visit rfl .nil
  | cons _ _ => exact isVisit_visit_visit rfl .nil
  | optionalSome _ => exact isVisit_visit_visit rfl .nil
  | default => exact isVisit_visit .nil
  | nil => exact isVisit_visit .nil
  | optionalNone => exact isVisit_visit .nil

lemma isVisit_visitExpr {e : DamlExpr} {cs : List Callback} (he : e.elements = [.exprNode e])
    (h : AreVisits e.nodeElements cs) : IsVisit (.expr e) (visitExpr e cs) :=
  isVisit_visit_visit he h

lemma isVisit_visitUpdate {u : DamlUpdate DamlExpr} {cs : List Callback}
    (hu : u.elements = [.updateNode u]) (h : AreVisits u.nodeElements cs) :
    IsVisit (.update u) (visitUpdate u cs) :=
  isVisit_visit_visit hu h

mutual

lemma DamlExpr.isVisit_accept : ∀ e : DamlExpr, IsVisit (.expr e) e.accept
  | .var _ => isVisit_visit .nil
  | .val name => isVisit_visit (.single name.isVisit_accept)
  | .builtin _ => isVisit_visit_visit rfl .nil
  | .primCon _ => isVisit_visit_visit rfl .nil
  | .primLit _ => isVisit_visit_visit rfl .nil
  | .recCon tycon fields =>
    isVisit_visitExpr rfl (.cons tycon.isVisit_accept (areVisits_acceptFieldExprs fields))
  | .recProj tycon record _ =>
    isVisit_visitExpr rfl (.cons tycon.isVisit_accept (.single record.isVisit_accept))
  | .recUpd tycon record value _ =>
    isVisit_visitExpr rfl
      (.snoc (.snoc (.single tycon.isVisit_accept) record.isVisit_accept) value.isVisit_accept)
  | .variantCon tycon arg _ =>
    isVisit_visitExpr rfl (.cons tycon.isVisit_accept (.single arg.isVisit_accept))
  | .enumCon tycon _ => isVisit_visitExpr rfl (.single tycon.isVisit_accept)
  | .structCon fields => isVisit_visitExpr rfl (areVisits_acceptFieldExprs fields)
  | .structProj s _ => isVisit_visitExpr rfl (.single s.isVisit_accept)
  | .structUpd s value _ =>
    isVisit_visitExpr rfl (.cons s.isVisit_accept (.single value.isVisit_accept))
  | .app fn args => isVisit_visitExpr rfl (.cons fn.isVisit_accept (areVisits_acceptExprs args))
  | .tyApp e _ =>
    isVisit_visitExpr rfl (.cons e.isVisit_accept (.flatMap fun t _ => t.isVisit_accept))
  | .abs _ body =>
    isVisit_visitExpr rfl
      (Visits.append (.flatMap fun v _ => v.isVisit_accept) (.single body.isVisit_accept))
  | .tyAbs _ body =>
    isVisit_visitExpr rfl
      (Visits.append (.flatMap fun v _ => v.isVisit_accept) (.single body.isVisit_accept))
  | .case scrut alts =>
    isVisit_visitExpr rfl (.cons scrut.isVisit_accept (areVisits_acceptAlts alts))
  | .letIn block => isVisit_visit (.single (isVisit_acceptBlock block))
  | .nil ty => isVisit_visit (.single ty.isVisit_accept)
  | .cons ty front tail =>
    isVisit_visitExpr rfl
      (.snoc (.append (.single ty.isVisit_accept) (areVisits_acceptExprs front))
        tail.isVisit_accept)
  | .update u => isVisit_visit (.single (isVisit_acceptUpdate u))
  | .optionalNone ty => isVisit_visit (.single ty.isVisit_accept)
  | .optionalSome ty body =>
    isVisit_visitExpr rfl (.cons ty.isVisit_accept (.single body.isVisit_accept))
  | .toAny ty e => isVisit_visitExpr rfl (.cons ty.isVisit_accept (.single e.isVisit_accept))
  | .fromAny ty e => isVisit_visitExpr rfl (.cons ty.isVisit_accept (.single e.isVisit_accept))
  | .typeRep ty => isVisit_visit (.single ty.isVisit_accept)
  | .toAnyException ty e =>
    isVisit_visitExpr rfl (.cons ty.isVisit_accept (.single e.isVisit_accept))
  | .fromAnyException ty e =>
    isVisit_visitExpr rfl (.cons ty.isVisit_accept (.single e.isVisit_accept))
  | .throw returnType exceptionType e =>
    isVisit_visitExpr rfl
      (.snoc (.snoc (.single returnType.isVisit_accept) exceptionType.isVisit_accept)
        e.isVisit_accept)
  | .interfaceOp i => isVisit_visit (.single (isVisit_acceptInterfaceExpr i))

lemma areVisits_acceptExprs : ∀ es : List DamlExpr, AreVisits (es.map .expr) (acceptExprs es)
  | [] => .nil
  | e :: es => .cons e.isVisit_accept (areVisits_acceptExprs es)

lemma areVisits_acceptGuard :
    ∀ o : Option DamlExpr, AreVisits (o.toList.map .expr) (acceptGuard o)
  | none => .nil
  | some e => .single e.isVisit_accept

lemma areVisits_acceptFieldExprs : ∀ fs : List (DamlFieldWithExpr DamlExpr),
    AreVisits (fs.map .fieldWithExpr) (acceptFieldExprs fs)
  | [] => .nil
  | ⟨_, e⟩ :: fs =>
    .cons (isVisit_visit (.single e.isVisit_accept)) (areVisits_acceptFieldExprs fs)

lemma areVisits_acceptBindings : ∀ bs : List (DamlBinding DamlExpr),
    AreVisits (bs.map .binding) (acceptBindings bs)
  | [] => .nil
  | ⟨binder, bound⟩ :: bs =>
    .cons (isVisit_visit (.cons binder.isVisit_accept (.single bound.isVisit_accept)))
      (areVisits_acceptBindings bs)

lemma isVisit_acceptBlock : ∀ b : DamlBlock DamlExpr, IsVisit (.block b) (acceptBlock b)
  | ⟨bindings, body⟩ =>
    isVisit_visit ((areVisits_acceptBindings bindings).append (.single body.isVisit_accept))

lemma areVisits_acceptAlts : ∀ as : List (DamlCaseAlt DamlExpr),
    AreVisits (as.map .caseAlt) (acceptAlts as)
  | [] => .nil
  | ⟨body, sum⟩ :: as =>
    .cons (isVisit_visit (.cons body.isVisit_accept (.single sum.isVisit_accept)))
      (areVisits_acceptAlts as)

lemma isVisit_acceptUpdate : ∀ u : DamlUpdate DamlExpr, IsVisit (.update u) (acceptUpdate u)
  | .pure ty e => isVisit_visitUpdate rfl (.cons ty.isVisit_accept (.single e.isVisit_accept))
  | .block b => isVisit_visit (.single (isVisit_acceptBlock b))
  | .create template e =>
    isVisit_visitUpdate rfl (.cons template.isVisit_accept (.single e.isVisit_accept))
  | .exercise template cid arg _ =>
    isVisit_visitUpdate rfl
      (.snoc (.snoc (.single template.isVisit_accept) cid.isVisit_accept) arg.isVisit_accept)
  | .exerciseByKey template _ key arg =>
    isVisit_visitUpdate rfl
      (.snoc (.snoc (.single template.isVisit_accept) key.isVisit_accept) arg.isVisit_accept)
  | .fetch template cid =>
    isVisit_visitUpdate rfl (.cons template.isVisit_accept (.single cid.isVisit_accept))
  | .getTime => isVisit_visit .nil
  | .lookupByKey template key =>
    isVisit_visitUpdate rfl (.cons template.isVisit_accept (.single key.isVisit_accept))
  | .fetchByKey template key =>
    isVisit_visitUpdate rfl (.cons template.isVisit_accept (.single key.isVisit_accept))
  | .queryNByKey template => isVisit_visitUpdate rfl (.single template.isVisit_accept)
  | .embedExpr ty body =>
    isVisit_visitUpdate rfl (.cons ty.isVisit_accept (.single body.isVisit_accept))
  | .tryCatch returnType tryExpr _ catchExpr =>
    isVisit_visitUpdate rfl
      (.snoc (.snoc (.single returnType.isVisit_accept) tryExpr.isVisit_accept)
        catchExpr.isVisit_accept)
  | .createInterface interface e =>
    isVisit_visitUpdate rfl (.cons interface.isVisit_accept (.single e.isVisit_accept))
  | .exerciseInterface interface _ cid arg guard =>
    isVisit_visitUpdate rfl
      (.append (.snoc (.snoc (.single interface.isVisit_accept) cid.isVisit_accept)
        arg.isVisit_accept) (areVisits_acceptGuard guard))
  | .fetchInterface interface cid =>
    isVisit_visitUpdate rfl (.cons interface.isVisit_accept (.single cid.isVisit_accept))
  | .ledgerTimeLt e => isVisit_visit (.single e.isVisit_accept)

lemma isVisit_acceptInterfaceExpr : ∀ i : DamlInterfaceExpr DamlExpr,
    IsVisit (.interfaceExpr i) (acceptInterfaceExpr i)
  | .toInterface interfaceType templateType e =>
    isVisit_visit
      (.snoc (.snoc (.single interfaceType.isVisit_accept) templateType.isVisit_accept)
        e.isVisit_accept)
  | .fromInterface interfaceType templateType e =>
    isVisit_visit
      (.snoc (.snoc (.single interfaceType.isVisit_accept) templateType.isVisit_accept)
        e.isVisit_accept)
  | .callInterface interfaceType _ e =>
    isVisit_visit (.cons interfaceType.isVisit_accept (.single e.isVisit_accept))
  | .viewInterface interface e =>
    isVisit_visit (.cons interface.isVisit_accept (.single e.isVisit_accept))
  | .signatoryInterface interface e =>
    isVisit_visit (.cons interface.isVisit_accept (.single e.isVisit_accept))
  | .observerInterface interface e =>
    isVisit_visit (.cons interface.isVisit_accept (.single e.isVisit_accept))
  | .unsafeFromInterface interfaceType templateType cid e =>
    isVisit_visit
      (.snoc (.snoc (.snoc (.single interfaceType.isVisit_accept) templateType.isVisit_accept)
        cid.isVisit_accept) e.isVisit_accept)
  | .toRequiredInterface required requiring e =>
    isVisit_visit
      (.snoc (.snoc (.single required.isVisit_accept) requiring.isVisit_accept) e.isVisit_accept)
  | .fromRequiredInterface required requiring e =>
    isVisit_visit
      (.snoc (.snoc (.single required.isVisit_accept) requiring.isVisit_accept) e.isVisit_accept)
  | .unsafeFromRequiredInterface required requiring cid e =>
    isVisit_visit
      (.snoc (.snoc (.snoc (.single required.isVisit_accept) requiring.isVisit_accept)
        cid.isVisit_accept) e.isVisit_accept)
  | .interfaceTemplateTypeRep interface e =>
    isVisit_visit (.cons interface.isVisit_accept (.single e.isVisit_accept))
  | .choiceController template _ contract arg =>
    isVisit_visit
      (.snoc (.snoc (.single template.isVisit_accept) contract.isVisit_accept) arg.isVisit_accept)
  | .choiceObserver template _ contract arg =>
    isVisit_visit
      (.snoc (.snoc (.single template.isVisit_accept) contract.isVisit_accept) arg.isVisit_accept)

end

/-! ### Data types, interfaces and definitions -/

lemma areVisits_acceptOptionExpr (o : Option DamlExpr) :
    AreVisits (o.toList.map .expr) (o.toList.flatMap DamlExpr.accept) :=
  .flatMap fun e _ => e.isVisit_accept

lemma areVisits_fields (fs : List (DamlField DamlType)) :
    AreVisits (fs.map .field) (fs.flatMap DamlField.accept) :=
  .flatMap fun f _ => f.isVisit_accept

lemma areVisits_typeParams (vs : List DamlTypeVarWithKind) :
    AreVisits (vs.map .typeVar) (vs.flatMap DamlTypeVarWithKind.accept) :=
  .flatMap fun v _ => v.isVisit_accept

lemma DamlChoice.isVisit_accept (c : DamlChoice) : IsVisit (.choice c) c.accept := by
  have hbody : AreVisits (c.fields.map .field ++ [.type c.returnType] ++ [.expr c.update] ++
      [.expr c.controllers] ++ [.expr c.observers])
      (c.fields.flatMap DamlField.accept ++ c.returnType.accept ++ c.update.accept ++
        c.controllers.accept ++ c.observers.accept) :=
    .snoc (.snoc (.snoc (.snoc (areVisits_fields c.fields) c.returnType.isVisit_accept)
      c.update.isVisit_accept) c.controllers.isVisit_accept) c.observers.isVisit_accept
  refine isVisit_visit ?_
  simpa only [Element.visitedChildren, List.append_assoc, List.cons_append, List.nil_append]
    using hbody

lemma DamlDefKey.isVisit_accept (k : DamlDefKey) : IsVisit (.defKey k) k.accept :=
  isVisit_visit
    (.snoc (.snoc (.single k.ty.isVisit_accept) k.maintainers.isVisit_accept)
      k.keyExpr.isVisit_accept)

lemma DamlTemplate.isVisit_accept (t : DamlTemplate) : IsVisit (.template t) t.accept := by
  have hfields := (areVisits_fields t.fields).append
    (.flatMap fun c (_ : c ∈ t.choices) => c.isVisit_accept)
  have hexprs := ((hfields.append (areVisits_acceptOptionExpr t.precond)).snoc
    t.signatories.isVisit_accept).snoc t.agreement.isVisit_accept |>.snoc t.observers.isVisit_accept
  have hkey := hexprs.append (.flatMap fun k (_ : k ∈ t.key.toList) => k.isVisit_accept)
  refine isVisit_visit ?_
  simpa only [Element.visitedChildren, List.append_assoc, List.cons_append, List.nil_append]
    using hkey

lemma DamlRecord.isVisit_accept (r : DamlRecord) : IsVisit (.record r) r.accept :=
  isVisit_visit (.append (areVisits_fields r.fields) (areVisits_typeParams r.typeParams))

lemma DamlVariant.isVisit_accept (v : DamlVariant) : IsVisit (.variant v) v.accept :=
  isVisit_visit (.append (areVisits_fields v.fields) (areVisits_typeParams v.typeParams))

lemma DamlEnum.isVisit_accept (e : DamlEnum) : IsVisit (.enum e) e.accept :=
  isVisit_visit (areVisits_typeParams e.typeParams)

lemma DamlData.isVisit_accept (d : DamlData) : IsVisit (.data d) d.accept := by
  cases d with
  | record r => exact isVisit_visit (.single r.isVisit_accept)
  | template t => exact isVisit_visit (.single t.isVisit_accept)
  | variant v => exact isVisit_visit (.single v.isVisit_accept)
  | enum e => exact isVisit_visit (.single e.isVisit_accept)

lemma DamlInterfaceMethod.isVisit_accept (m : DamlInterfaceMethod) :
    IsVisit (.interfaceMethod m) m.accept :=
  isVisit_visit (.single m.ty.isVisit_accept)

lemma DamlInterface.isVisit_accept (i : DamlInterface) : IsVisit (.interface i) i.accept :=
  isVisit_visit
    (.append (.snoc (.append (.flatMap fun m _ => m.isVisit_accept)
      (.flatMap fun c _ => c.isVisit_accept)) i.view.isVisit_accept)
      (.flatMap fun n _ => n.isVisit_accept))

lemma DamlException.isVisit_accept (e : DamlException) : IsVisit (.exception e) e.accept :=
  isVisit_visit (.single e.message.isVisit_accept)

lemma DamlDefTypeSyn.isVisit_accept (s : DamlDefTypeSyn) : IsVisit (.defTypeSyn s) s.accept :=
  isVisit_visit (.snoc (areVisits_typeParams s.params) s.ty.isVisit_accept)

lemma DamlDefValue.isVisit_accept (v : DamlDefValue) : IsVisit (.defValue v) v.accept :=
  isVisit_visit (.cons v.ty.isVisit_accept (.single v.expr.isVisit_accept))

/-! ### Modules, packages and archives -/

namespace Visiting

/-- Whatever was called before, the callbacks are visits of the elements in some order. -/
def VisitsAll (f : Visiting) (es : List Element) : Prop :=
  ∀ before, ∃ as, as.Perm es ∧ AreVisits as (f before)

lemma VisitsAll.isVisit_around {f : Visiting} {e : Element} (h : f.VisitsAll e.visitedChildren)
    (before : List Callback) : IsVisit e (around e f before) := by
  obtain ⟨as, hp, has⟩ := h (before ++ [.pre e])
  exact .node hp has

lemma VisitsAll.of_perm {f : Visiting} {es es' : List Element} (h : f.VisitsAll es)
    (hp : es.Perm es') : f.VisitsAll es' := by
  intro before
  obtain ⟨as, has, hv⟩ := h before
  exact ⟨as, has.trans hp, hv⟩

lemma visitsAll_const {es : List Element} {cs : List Callback} (h : AreVisits es cs) :
    VisitsAll (fun _ => cs) es :=
  fun _ => ⟨es, .refl es, h⟩

lemma visitsAll_nil : (inOrder []).VisitsAll [] := visitsAll_const .nil

lemma VisitsAll.cons {f : Visiting} {fs : List Visiting} {es es' : List Element}
    (h : f.VisitsAll es) (hfs : (inOrder fs).VisitsAll es') :
    (inOrder (f :: fs)).VisitsAll (es ++ es') := by
  intro before
  obtain ⟨as, hp, has⟩ := h before
  obtain ⟨as', hp', has'⟩ := hfs (before ++ f before)
  exact ⟨as ++ as', hp.append hp', has.append has'⟩

/-- Where each part visits one element, the parts may be taken in any order. -/
lemma visitsAll_inOrder {fs fs' : List Visiting} {es : List Element} (hp : fs'.Perm fs)
    (h : List.Forall₂ (fun f e => ∀ before, IsVisit e (f before)) fs es) :
    (inOrder fs').VisitsAll es := by
  obtain ⟨es', hes', hpe⟩ := h.exists_perm_right hp
  refine VisitsAll.of_perm ?_ hpe
  clear h hp hpe
  induction hes' with
  | nil => exact visitsAll_nil
  | cons hf _ ih =>
    have hone : VisitsAll _ [_] := fun before => ⟨_, .refl _, .single (hf before)⟩
    exact hone.cons ih

end Visiting

section

variable (visitor : DamlElementVisitor)

lemma visitsAll_flatMap {α : Type} {accept : α → List Callback} {element : α → Element}
    (h : ∀ x, IsVisit (element x) (accept x)) {xs : List α} {m : List (String × α)}
    (hp : xs.Perm (m.map Prod.snd)) :
    Visiting.VisitsAll (fun _ => xs.flatMap accept) (m.map fun x => element x.2) := by
  have hxs : AreVisits (xs.map element) (xs.flatMap accept) := .flatMap fun x _ => h x
  have hperm := hp.map element
  rw [List.map_map] at hperm
  exact (Visiting.visitsAll_const hxs).of_perm hperm

/-- What a module keeps in the hash maps that it may sort. -/
def DamlModuleBody.partElements (body : DamlModuleBody)
    (childModules : List (String × DamlModule)) : List Element :=
  body.dataTypes.map (fun d => .data d.2) ++ (body.interfaces.map (fun i => .interface i.2) ++
    (body.exceptions.map (fun e => .exception e.2) ++
      (childModules.map (fun c => .module c.2) ++ [])))

lemma visitsAll_parts {body : DamlModuleBody} {childModules : List (String × DamlModule)}
    {dataTypes : List DamlData} {interfaces : List DamlInterface} {exceptions : List DamlException}
    {children : List Visiting} (hdata : dataTypes.Perm (body.dataTypes.map Prod.snd))
    (hinterfaces : interfaces.Perm (body.interfaces.map Prod.snd))
    (hexceptions : exceptions.Perm (body.exceptions.map Prod.snd))
    (hchildren : (Visiting.inOrder children).VisitsAll (childModules.map fun c => .module c.2)) :
    (Visiting.inOrder
      [ fun _ => dataTypes.flatMap DamlData.accept,
        fun _ => interfaces.flatMap DamlInterface.accept,
        fun _ => exceptions.flatMap DamlException.accept, .inOrder children ]).VisitsAll
      (body.partElements childModules) :=
  .cons (visitsAll_flatMap DamlData.isVisit_accept hdata)
    (.cons (visitsAll_flatMap DamlInterface.isVisit_accept hinterfaces)
      (.cons (visitsAll_flatMap DamlException.isVisit_accept hexceptions)
        (.cons hchildren Visiting.visitsAll_nil)))

theorem DamlModule.isVisit_accept (m : DamlModule) (before : List Callback) :
    IsVisit (.module m) (DamlModule.accept visitor m before) := by
  induction m using PathTree.induction generalizing before with | node body childModules ih => ?_
  refine Visiting.VisitsAll.isVisit_around ?_ before
  have hvisits : List.Forall₂ (fun f e => ∀ before, IsVisit e (f before))
      ((childVisits visitor childModules).map Prod.snd)
      (childModules.map fun c => .module c.2) := by
    rw [childVisits_eq, List.map_map, List.forall₂_map_left_iff, List.forall₂_map_right_iff]
    exact List.forall₂_same.2 ih
  have hsyn : Visiting.VisitsAll (fun _ => body.synonyms.flatMap DamlDefTypeSyn.accept)
      (body.synonyms.map .defTypeSyn) :=
    Visiting.visitsAll_const (.flatMap fun s _ => s.isVisit_accept)
  have hvalues : Visiting.VisitsAll
      (fun _ => (body.values.map Prod.snd).flatMap DamlDefValue.accept)
      (body.values.map fun v => .defValue v.2) :=
    visitsAll_flatMap DamlDefValue.isVisit_accept (.refl _)
  have hmiddle : ∀ f : Visiting, f.VisitsAll (body.partElements childModules) →
      (Visiting.inOrder [fun _ => body.synonyms.flatMap DamlDefTypeSyn.accept, f,
        fun _ => (body.values.map Prod.snd).flatMap DamlDefValue.accept]).VisitsAll
        (Element.visitedChildren (.module (.node body childModules))) := by
    intro f hf
    refine (hsyn.cons (hf.cons (hvalues.cons Visiting.visitsAll_nil))).of_perm (.of_eq ?_)
    simp only [Element.visitedChildren, DamlModuleBody.partElements, DamlModule.childModules,
      PathTree.val_node, PathTree.children_node, List.append_nil, List.append_assoc]
  refine hmiddle _ ?_
  intro before
  dsimp only
  split
  · exact visitsAll_parts (perm_sortedByKey _ _) (perm_sortedByKey _ _) (perm_sortedByKey _ _)
      (Visiting.visitsAll_inOrder ((perm_sortedByKey _ _).map Prod.snd) hvisits) before
  · exact visitsAll_parts (.refl _) (.refl _) (.refl _)
      (Visiting.visitsAll_inOrder (.refl _) hvisits) before

theorem DamlPackage.isVisit_accept (p : DamlPackage) (before : List Callback) :
    IsVisit (.package p) (DamlPackage.accept visitor p before) := by
  refine Visiting.VisitsAll.isVisit_around ?_ before
  intro before
  exact ⟨_, .refl _, .single (DamlModule.isVisit_accept visitor p.rootModule before)⟩

/-- An archive is visited without what the `accept` methods leave out. -/
theorem DamlArchive.isVisit_accept (a : DamlArchive) (before : List Callback) :
    IsVisit (.archive a) (DamlArchive.accept visitor a before) := by
  refine Visiting.VisitsAll.isVisit_around ?_ before
  have hall : ∀ ps : List DamlPackage, ps.Perm (a.packages.map Prod.snd) →
      (Visiting.inOrder (ps.map (DamlPackage.accept visitor))).VisitsAll
        (a.packages.map fun p => .package p.2) := by
    intro ps hps
    have hvisits : List.Forall₂ (fun f e => ∀ before, IsVisit e (f before))
        (ps.map (DamlPackage.accept visitor)) (ps.map .package) := by
      rw [List.forall₂_map_left_iff, List.forall₂_map_right_iff]
      exact List.forall₂_same.2 fun p _ => DamlPackage.isVisit_accept visitor p
    have hperm := hps.map Element.package
    rw [List.map_map] at hperm
    exact (Visiting.visitsAll_inOrder (.refl _) hvisits).of_perm hperm
  intro before
  dsimp only
  split
  · exact hall _ (perm_sortedByKey _ _) before
  · exact hall _ (.refl _) before

end

/-! ### Complete visits -/

/-- The element that a callback enters. -/
def Callback.entered : Callback → Option Element
  | .pre e => some e
  | .post _ => none

lemma Callback.entered_pre (e : Element) : Callback.entered (.pre e) = some e := rfl

lemma Callback.entered_post (e : Element) : Callback.entered (.post e) = none := rfl

lemma Element.skippedChildren_eq_nil {e : Element}
    (htemplate : ∀ t, e = .template t → t.implements = [])
    (hlit : ∀ m, e ≠ .primLit (.roundingMode m)) : e.skippedChildren = [] := by
  cases e with
  | template t => exact List.map_eq_nil_iff.2 (htemplate t rfl)
  | primLit l =>
    cases l with
    | roundingMode m => exact absurd rfl (hlit m)
    | _ => rfl
  | _ => rfl

namespace DamlArchive

open Worklist (Reaches)

/-- The element is somewhere in the archive. -/
def Contains (a : DamlArchive) (e : Element) : Prop := Reaches Element.children (.archive a) e

/-- The callbacks enter and leave everything in the archive, each time around what is inside. -/
def VisitedBy (a : DamlArchive) (cs : List Callback) : Prop :=
  Visit Element.children Callback.pre Callback.post (.archive a) cs

variable (a : DamlArchive) (visitor : DamlElementVisitor) (before : List Callback)

lemma skippedChildren_of_visitedBy (h : a.VisitedBy (a.accept visitor before)) {e : Element}
    (he : a.Contains e) : e.skippedChildren = [] := by
  have hle : ∀ e : Element, e.visitedChildren.length ≤ e.children.length := by
    intro e
    rw [Element.children, List.length_append]
    exact Nat.le_add_right _ _
  have hlength := (isVisit_accept visitor a before).length_children_eq Callback.entered_pre
    Callback.entered_post h hle he
  rw [Element.children, List.length_append] at hlength
  exact List.length_eq_zero_iff.1 (by omega)

theorem visitedBy_accept_iff :
    a.VisitedBy (a.accept visitor before) ↔
      (∀ t, a.Contains (.template t) → t.implements = []) ∧
        ∀ m, ¬ a.Contains (.primLit (.roundingMode m)) := by
  constructor
  · intro h
    have hskipped := fun e => a.skippedChildren_of_visitedBy visitor before h (e := e)
    constructor
    · intro t ht
      exact List.map_eq_nil_iff.1 (hskipped _ ht)
    · intro m hm
      exact List.cons_ne_nil _ _ (hskipped _ hm)
  · rintro ⟨htemplate, hlit⟩
    refine (isVisit_accept visitor a before).congr fun e he => ?_
    have hsub : (fun b c => c ∈ Element.visitedChildren b) ≤ fun b c => c ∈ Element.children b :=
      fun _ _ hc => List.mem_append_left _ hc
    have hcontains : a.Contains e := Relation.ReflTransGen.mono hsub _ _ he
    have hskipped : e.skippedChildren = [] :=
      Element.skippedChildren_eq_nil (fun t ht => htemplate t (ht ▸ hcontains))
        fun m hm => hlit m (hm ▸ hcontains)
    rw [Element.children, hskipped, List.append_nil]

/-- The interface `I` of the module `M`. -/
def tokenInterface : DamlTyConName := .localTyCon ⟨"I", "pkg", "token", ["M"]⟩

/-- A template that implements it. -/
def tokenTemplate : DamlTemplate where
  name := "T"
  packageId := "pkg"
  modulePath := ["M"]
  fields := [⟨"owner", .party⟩]
  choices := []
  param := "this"
  implements := [tokenInterface]
  precond := none
  signatories := .nil .party
  agreement := .primLit (.text "")
  observers := .nil .party
  key := none
  serializable := true

/-- The module that declares both. -/
def tokenModule : DamlModule :=
  .node
    { path := ["M"]
      flags := ⟨true, true, true⟩
      synonyms := []
      dataTypes := [("T", .template tokenTemplate)]
      interfaces := [("I",
        { name := "I"
          packageId := "pkg"
          modulePath := ["M"]
          param := "this"
          methods := []
          choices := []
          view := .unit
          requires := [] })]
      exceptions := []
      values := []
      synthetic := false } []

def tokenPackage : DamlPackage where
  name := "token"
  packageId := "pkg"
  version := none
  rootModule := .node
    { path := []
      flags := ⟨true, true, true⟩
      synonyms := []
      dataTypes := []
      interfaces := []
      exceptions := []
      values := []
      synthetic := false } [("M", tokenModule)]

def tokenArchive : DamlArchive where
  name := "token"
  mainPackageId := "pkg"
  packages := [("pkg", tokenPackage)]

/-- The archive contains the interface that the template implements, and no visit enters it. -/
theorem not_visitedBy_accept_token :
    tokenArchive.Contains (.tyconName tokenInterface) ∧
      ∀ visitor, ¬ tokenArchive.VisitedBy (tokenArchive.accept visitor []) := by
  have hpackage : tokenArchive.Contains (.package tokenPackage) :=
    .single (List.mem_singleton_self _)
  have hmodule : tokenArchive.Contains (.module tokenModule) :=
    (hpackage.tail (List.mem_singleton_self _)).tail (List.mem_singleton_self _)
  have htemplate : tokenArchive.Contains (.template tokenTemplate) :=
    (hmodule.tail List.mem_cons_self).tail (List.mem_singleton_self _)
  constructor
  · exact htemplate.tail (List.mem_append_right _ (List.mem_singleton_self _))
  · intro visitor h
    exact List.cons_ne_nil _ _ (tokenArchive.skippedChildren_of_visitedBy visitor [] h htemplate)

end DamlArchive

end DamlBindings.Lf
