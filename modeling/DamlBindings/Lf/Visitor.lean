import DamlBindings.Lf.Element

/-!
# Visiting elements

What the `accept` methods of the element layer report to a visitor, as the list of the callbacks
they make (`element/visitor.rs` and the `accept` of every element).
-/

namespace DamlBindings.Lf

/-- What a callback is called on.  The struct inside a variant of an expression, an update or a
pattern is given as the expression, update or pattern. -/
inductive Element where
  | archive (a : DamlArchive)
  | package (p : DamlPackage)
  | module (m : DamlModule)
  | defTypeSyn (s : DamlDefTypeSyn)
  | data (d : DamlData)
  | template (t : DamlTemplate)
  | interface (i : DamlInterface)
  | interfaceMethod (m : DamlInterfaceMethod)
  | exception (e : DamlException)
  | choice (c : DamlChoice)
  | record (r : DamlRecord)
  | variant (v : DamlVariant)
  | enum (e : DamlEnum)
  | field (f : DamlField DamlType)
  | type (t : DamlType)
  | typeVar (v : DamlTypeVarWithKind)
  | kind (k : DamlKind)
  | arrow (params : List DamlKind) (result : DamlKind)
  | var (var : String) (typeArguments : List DamlType)
  | forAll (vars : List DamlTypeVarWithKind) (body : DamlType)
  | struct (fields : List (DamlField DamlType))
  | syn (tysyn : DamlTypeSynName) (args : List DamlType)
  | tycon (tycon : DamlTyConName) (typeArguments : List DamlType)
  | tyconName (n : DamlTyConName)
  | localTycon (c : DamlLocalTyCon)
  | nonLocalTycon (c : DamlNonLocalTyCon)
  | absoluteTycon (c : DamlAbsoluteTyCon)
  | defKey (k : DamlDefKey)
  | defValue (v : DamlDefValue)
  | expr (e : DamlExpr)
  | exprNode (e : DamlExpr)
  | valueName (n : DamlValueName)
  | localValueName (n : DamlLocalValueName)
  | nonLocalValueName (n : DamlNonLocalValueName)
  | builtinFunction (f : DamlBuiltinFunction)
  | primCon (c : DamlPrimCon)
  | primLit (l : DamlPrimLit)
  | roundingMode (m : RoundingMode)
  | fieldWithExpr (f : DamlFieldWithExpr DamlExpr)
  | varWithType (v : DamlVarWithType)
  | block (b : DamlBlock DamlExpr)
  | binding (b : DamlBinding DamlExpr)
  | update (u : DamlUpdate DamlExpr)
  | updateNode (u : DamlUpdate DamlExpr)
  | caseAlt (a : DamlCaseAlt DamlExpr)
  | caseAltSum (s : DamlCaseAltSum)
  | caseAltNode (s : DamlCaseAltSum)
  | interfaceExpr (i : DamlInterfaceExpr DamlExpr)

inductive Callback where
  | pre (e : Element)
  | post (e : Element)

/-- The callbacks of an element around those made inside it. -/
def visit (e : Element) (inside : List Callback) : List Callback :=
  .pre e :: (inside ++ [.post e])

/-- What a visitor records that looks at the elements with `f` as it enters them. -/
def visited {β : Type} (f : Element → Option β) (cs : List Callback) : List β :=
  cs.filterMap fun
    | .pre e => f e
    | .post _ => none

section Visited

variable {β : Type} (f : Element → Option β)

@[simp] lemma visited_nil : visited f [] = [] := rfl

@[simp] lemma visited_append (cs cs' : List Callback) :
    visited f (cs ++ cs') = visited f cs ++ visited f cs' := by
  simp [visited, List.filterMap_append]

@[simp] lemma visited_visit (e : Element) (cs : List Callback) :
    visited f (visit e cs) = (f e).toList ++ visited f cs := by
  cases h : f e <;> simp [visit, visited, h]

@[simp] lemma visited_flatMap {α : Type} (g : α → List Callback) (as : List α) :
    visited f (as.flatMap g) = as.flatMap fun a => visited f (g a) := by
  simp [visited, List.filterMap_flatMap]

end Visited

/-- The names of type constructors and type synonyms, as `pre_visit_tycon_name` sees them. -/
def Element.tyconName? : Element → Option DamlTyConName
  | .tyconName n => some n
  | _ => none

/-- A name seen by `pre_visit_tycon_name` or by `pre_visit_value_name`. -/
inductive VisitedName where
  | tycon (n : DamlTyConName)
  | value (n : DamlValueName)
deriving DecidableEq, Repr

/-- The names, as `pre_visit_tycon_name` and `pre_visit_value_name` see them. -/
def Element.name? : Element → Option VisitedName
  | .tyconName n => some (.tycon n)
  | .valueName n => some (.value n)
  | _ => none

/-- The callbacks of an expression that boxes a struct. -/
def visitExpr (e : DamlExpr) (inside : List Callback) : List Callback :=
  visit (.expr e) (visit (.exprNode e) inside)

/-- The callbacks of an update that boxes a struct. -/
def visitUpdate (u : DamlUpdate DamlExpr) (inside : List Callback) : List Callback :=
  visit (.update u) (visit (.updateNode u) inside)

/-! ### Names, kinds and types -/

def DamlTyConName.accept (n : DamlTyConName) : List Callback :=
  visit (.tyconName n) <|
    match n with
    | .localTyCon c => visit (.localTycon c) []
    | .nonLocal c => visit (.nonLocalTycon c) []
    | .absolute c => visit (.absoluteTycon c) []

mutual

def DamlKind.accept : DamlKind → List Callback
  | .star => visit (.kind .star) []
  | .nat => visit (.kind .nat) []
  | .arrow params result =>
    visit (.kind (.arrow params result)) <|
      visit (.arrow params result) (acceptKinds params ++ result.accept)
termination_by structural k => k

def acceptKinds : List DamlKind → List Callback
  | [] => []
  | k :: ks => k.accept ++ acceptKinds ks
termination_by structural ks => ks

end

def DamlTypeVarWithKind.accept (v : DamlTypeVarWithKind) : List Callback :=
  visit (.typeVar v) v.kind.accept

mutual

def DamlType.accept : DamlType → List Callback
  | .contractId inner => visit (.type (.contractId inner)) (acceptOption inner)
  | .numeric args => visit (.type (.numeric args)) (acceptTypes args)
  | .list args => visit (.type (.list args)) (acceptTypes args)
  | .textMap args => visit (.type (.textMap args)) (acceptTypes args)
  | .genMap args => visit (.type (.genMap args)) (acceptTypes args)
  | .optional args => visit (.type (.optional args)) (acceptTypes args)
  | .tyCon tycon args =>
    visit (.type (.tyCon tycon args)) (visit (.tycon tycon args) (tycon.accept ++ acceptTypes args))
  | .boxedTyCon tycon args =>
    visit (.type (.boxedTyCon tycon args))
      (visit (.tycon tycon args) (tycon.accept ++ acceptTypes args))
  | .var v args => visit (.type (.var v args)) (visit (.var v args) (acceptTypes args))
  | .forAll vars body =>
    visit (.type (.forAll vars body)) <|
      visit (.forAll vars body) (vars.flatMap DamlTypeVarWithKind.accept ++ body.accept)
  | .struct fields => visit (.type (.struct fields)) (visit (.struct fields) (acceptFields fields))
  | .syn tysyn args =>
    visit (.type (.syn tysyn args)) (visit (.syn tysyn args) (tysyn.accept ++ acceptTypes args))
  | .int64 => visit (.type .int64) []
  | .text => visit (.type .text) []
  | .timestamp => visit (.type .timestamp) []
  | .party => visit (.type .party) []
  | .bool => visit (.type .bool) []
  | .unit => visit (.type .unit) []
  | .date => visit (.type .date) []
  | .nat n => visit (.type (.nat n)) []
  | .arrow => visit (.type .arrow) []
  | .any => visit (.type .any) []
  | .typeRep => visit (.type .typeRep) []
  | .bignumeric => visit (.type .bignumeric) []
  | .roundingMode => visit (.type .roundingMode) []
  | .anyException => visit (.type .anyException) []
  | .update => visit (.type .update) []
  | .failureCategory => visit (.type .failureCategory) []
termination_by structural t => t

def acceptTypes : List DamlType → List Callback
  | [] => []
  | t :: ts => t.accept ++ acceptTypes ts
termination_by structural ts => ts

def acceptOption : Option DamlType → List Callback
  | none => []
  | some t => t.accept
termination_by structural o => o

def acceptFields : List (DamlField DamlType) → List Callback
  | [] => []
  | ⟨name, ty⟩ :: fs => visit (.field ⟨name, ty⟩) ty.accept ++ acceptFields fs
termination_by structural fs => fs

end

def DamlField.accept (f : DamlField DamlType) : List Callback := visit (.field f) f.ty.accept

def DamlTyCon.accept (c : DamlTyCon) : List Callback :=
  visit (.tycon c.tycon c.typeArguments)
    (c.tycon.accept ++ c.typeArguments.flatMap DamlType.accept)

@[simp] lemma acceptTypes_eq (ts : List DamlType) :
    acceptTypes ts = ts.flatMap DamlType.accept := by
  induction ts with
  | nil => rfl
  | cons t ts ih => exact congrArg (t.accept ++ ·) ih

@[simp] lemma acceptFields_eq (fs : List (DamlField DamlType)) :
    acceptFields fs = fs.flatMap DamlField.accept := by
  induction fs with
  | nil => rfl
  | cons f fs ih => exact congrArg (f.accept ++ ·) ih

@[simp] lemma acceptOption_eq (o : Option DamlType) :
    acceptOption o = o.toList.flatMap DamlType.accept := by
  cases o with
  | none => rfl
  | some t => exact (List.append_nil t.accept).symm

/-! ### Expressions -/

def DamlValueName.accept (n : DamlValueName) : List Callback :=
  visit (.valueName n) <|
    match n with
    | .localValue c => visit (.localValueName c) []
    | .nonLocal c => visit (.nonLocalValueName c) []

def DamlVarWithType.accept (v : DamlVarWithType) : List Callback :=
  visit (.varWithType v) v.ty.accept

def DamlCaseAltSum.accept (s : DamlCaseAltSum) : List Callback :=
  visit (.caseAltSum s) <|
    match s with
    | .variant con _ _ => visit (.caseAltNode s) con.accept
    | .primCon c => visit (.primCon c) []
    | .cons _ _ => visit (.caseAltNode s) []
    | .optionalSome _ => visit (.caseAltNode s) []
    | .enum con _ => visit (.caseAltNode s) con.accept
    | .default => []
    | .nil => []
    | .optionalNone => []

mutual

def DamlExpr.accept : DamlExpr → List Callback
  | .var name => visit (.expr (.var name)) []
  | .val name => visit (.expr (.val name)) name.accept
  | .builtin f => visit (.expr (.builtin f)) (visit (.builtinFunction f) [])
  | .primCon c => visit (.expr (.primCon c)) (visit (.primCon c) [])
  | .primLit l => visit (.expr (.primLit l)) (visit (.primLit l) [])
  | .recCon tycon fields =>
    visitExpr (.recCon tycon fields) (tycon.accept ++ acceptFieldExprs fields)
  | .recProj tycon record field =>
    visitExpr (.recProj tycon record field) (tycon.accept ++ record.accept)
  | .recUpd tycon record update field =>
    visitExpr (.recUpd tycon record update field) (tycon.accept ++ record.accept ++ update.accept)
  | .variantCon tycon arg con => visitExpr (.variantCon tycon arg con) (tycon.accept ++ arg.accept)
  | .enumCon tycon con => visitExpr (.enumCon tycon con) tycon.accept
  | .structCon fields => visitExpr (.structCon fields) (acceptFieldExprs fields)
  | .structProj s field => visitExpr (.structProj s field) s.accept
  | .structUpd s update field => visitExpr (.structUpd s update field) (s.accept ++ update.accept)
  | .app fn args => visitExpr (.app fn args) (fn.accept ++ acceptExprs args)
  | .tyApp e types => visitExpr (.tyApp e types) (e.accept ++ types.flatMap DamlType.accept)
  | .abs params body =>
    visitExpr (.abs params body) (params.flatMap DamlVarWithType.accept ++ body.accept)
  | .tyAbs params body =>
    visitExpr (.tyAbs params body) (params.flatMap DamlTypeVarWithKind.accept ++ body.accept)
  | .case scrut alts => visitExpr (.case scrut alts) (scrut.accept ++ acceptAlts alts)
  | .letIn block => visit (.expr (.letIn block)) (acceptBlock block)
  | .nil ty => visit (.expr (.nil ty)) ty.accept
  | .cons ty front tail =>
    visitExpr (.cons ty front tail) (ty.accept ++ acceptExprs front ++ tail.accept)
  | .update u => visit (.expr (.update u)) (acceptUpdate u)
  | .optionalNone ty => visit (.expr (.optionalNone ty)) ty.accept
  | .optionalSome ty body => visitExpr (.optionalSome ty body) (ty.accept ++ body.accept)
  | .toAny ty e => visitExpr (.toAny ty e) (ty.accept ++ e.accept)
  | .fromAny ty e => visitExpr (.fromAny ty e) (ty.accept ++ e.accept)
  | .typeRep ty => visit (.expr (.typeRep ty)) ty.accept
  | .toAnyException ty e => visitExpr (.toAnyException ty e) (ty.accept ++ e.accept)
  | .fromAnyException ty e => visitExpr (.fromAnyException ty e) (ty.accept ++ e.accept)
  | .throw returnType exceptionType e =>
    visitExpr (.throw returnType exceptionType e)
      (returnType.accept ++ exceptionType.accept ++ e.accept)
  | .interfaceOp i => visit (.expr (.interfaceOp i)) (acceptInterfaceExpr i)
termination_by structural e => e

def acceptExprs : List DamlExpr → List Callback
  | [] => []
  | e :: es => e.accept ++ acceptExprs es
termination_by structural es => es

def acceptGuard : Option DamlExpr → List Callback
  | none => []
  | some e => e.accept
termination_by structural o => o

def acceptFieldExprs : List (DamlFieldWithExpr DamlExpr) → List Callback
  | [] => []
  | ⟨field, e⟩ :: fs => visit (.fieldWithExpr ⟨field, e⟩) e.accept ++ acceptFieldExprs fs
termination_by structural fs => fs

def acceptBindings : List (DamlBinding DamlExpr) → List Callback
  | [] => []
  | ⟨binder, bound⟩ :: bs =>
    visit (.binding ⟨binder, bound⟩) (binder.accept ++ bound.accept) ++ acceptBindings bs
termination_by structural bs => bs

def acceptBlock : DamlBlock DamlExpr → List Callback
  | ⟨bindings, body⟩ => visit (.block ⟨bindings, body⟩) (acceptBindings bindings ++ body.accept)
termination_by structural b => b

def acceptAlts : List (DamlCaseAlt DamlExpr) → List Callback
  | [] => []
  | ⟨body, sum⟩ :: as => visit (.caseAlt ⟨body, sum⟩) (body.accept ++ sum.accept) ++ acceptAlts as
termination_by structural as => as

def acceptUpdate : DamlUpdate DamlExpr → List Callback
  | .pure ty e => visitUpdate (.pure ty e) (ty.accept ++ e.accept)
  | .block b => visit (.update (.block b)) (acceptBlock b)
  | .create template e => visitUpdate (.create template e) (template.accept ++ e.accept)
  | .exercise template cid arg choice =>
    visitUpdate (.exercise template cid arg choice) (template.accept ++ cid.accept ++ arg.accept)
  | .exerciseByKey template choice key arg =>
    visitUpdate (.exerciseByKey template choice key arg)
      (template.accept ++ key.accept ++ arg.accept)
  | .fetch template cid => visitUpdate (.fetch template cid) (template.accept ++ cid.accept)
  | .getTime => visit (.update .getTime) []
  | .lookupByKey template key =>
    visitUpdate (.lookupByKey template key) (template.accept ++ key.accept)
  | .fetchByKey template key =>
    visitUpdate (.fetchByKey template key) (template.accept ++ key.accept)
  | .queryNByKey template => visitUpdate (.queryNByKey template) template.accept
  | .embedExpr ty body => visitUpdate (.embedExpr ty body) (ty.accept ++ body.accept)
  | .tryCatch returnType tryExpr var catchExpr =>
    visitUpdate (.tryCatch returnType tryExpr var catchExpr)
      (returnType.accept ++ tryExpr.accept ++ catchExpr.accept)
  | .createInterface interface e =>
    visitUpdate (.createInterface interface e) (interface.accept ++ e.accept)
  | .exerciseInterface interface choice cid arg guard =>
    visitUpdate (.exerciseInterface interface choice cid arg guard)
      (interface.accept ++ cid.accept ++ arg.accept ++ acceptGuard guard)
  | .fetchInterface interface cid =>
    visitUpdate (.fetchInterface interface cid) (interface.accept ++ cid.accept)
  | .ledgerTimeLt e => visit (.update (.ledgerTimeLt e)) e.accept
termination_by structural u => u

def acceptInterfaceExpr : DamlInterfaceExpr DamlExpr → List Callback
  | .toInterface interfaceType templateType e =>
    visit (.interfaceExpr (.toInterface interfaceType templateType e))
      (interfaceType.accept ++ templateType.accept ++ e.accept)
  | .fromInterface interfaceType templateType e =>
    visit (.interfaceExpr (.fromInterface interfaceType templateType e))
      (interfaceType.accept ++ templateType.accept ++ e.accept)
  | .callInterface interfaceType method e =>
    visit (.interfaceExpr (.callInterface interfaceType method e))
      (interfaceType.accept ++ e.accept)
  | .viewInterface interface e =>
    visit (.interfaceExpr (.viewInterface interface e)) (interface.accept ++ e.accept)
  | .signatoryInterface interface e =>
    visit (.interfaceExpr (.signatoryInterface interface e)) (interface.accept ++ e.accept)
  | .observerInterface interface e =>
    visit (.interfaceExpr (.observerInterface interface e)) (interface.accept ++ e.accept)
  | .unsafeFromInterface interfaceType templateType cid e =>
    visit (.interfaceExpr (.unsafeFromInterface interfaceType templateType cid e))
      (interfaceType.accept ++ templateType.accept ++ cid.accept ++ e.accept)
  | .toRequiredInterface required requiring e =>
    visit (.interfaceExpr (.toRequiredInterface required requiring e))
      (required.accept ++ requiring.accept ++ e.accept)
  | .fromRequiredInterface required requiring e =>
    visit (.interfaceExpr (.fromRequiredInterface required requiring e))
      (required.accept ++ requiring.accept ++ e.accept)
  | .unsafeFromRequiredInterface required requiring cid e =>
    visit (.interfaceExpr (.unsafeFromRequiredInterface required requiring cid e))
      (required.accept ++ requiring.accept ++ cid.accept ++ e.accept)
  | .interfaceTemplateTypeRep interface e =>
    visit (.interfaceExpr (.interfaceTemplateTypeRep interface e)) (interface.accept ++ e.accept)
  | .choiceController template choice contract arg =>
    visit (.interfaceExpr (.choiceController template choice contract arg))
      (template.accept ++ contract.accept ++ arg.accept)
  | .choiceObserver template choice contract arg =>
    visit (.interfaceExpr (.choiceObserver template choice contract arg))
      (template.accept ++ contract.accept ++ arg.accept)
termination_by structural i => i

end

def DamlFieldWithExpr.accept (f : DamlFieldWithExpr DamlExpr) : List Callback :=
  visit (.fieldWithExpr f) f.expr.accept

def DamlBinding.accept (b : DamlBinding DamlExpr) : List Callback :=
  visit (.binding b) (b.binder.accept ++ b.bound.accept)

def DamlCaseAlt.accept (a : DamlCaseAlt DamlExpr) : List Callback :=
  visit (.caseAlt a) (a.body.accept ++ a.sum.accept)

@[simp] lemma acceptExprs_eq (es : List DamlExpr) :
    acceptExprs es = es.flatMap DamlExpr.accept := by
  induction es with
  | nil => rfl
  | cons e es ih => exact congrArg (e.accept ++ ·) ih

@[simp] lemma acceptGuard_eq (o : Option DamlExpr) :
    acceptGuard o = o.toList.flatMap DamlExpr.accept := by
  cases o with
  | none => rfl
  | some e => exact (List.append_nil e.accept).symm

@[simp] lemma acceptFieldExprs_eq (fs : List (DamlFieldWithExpr DamlExpr)) :
    acceptFieldExprs fs = fs.flatMap DamlFieldWithExpr.accept := by
  induction fs with
  | nil => rfl
  | cons f fs ih => exact congrArg (f.accept ++ ·) ih

@[simp] lemma acceptBindings_eq (bs : List (DamlBinding DamlExpr)) :
    acceptBindings bs = bs.flatMap DamlBinding.accept := by
  induction bs with
  | nil => rfl
  | cons b bs ih => exact congrArg (b.accept ++ ·) ih

@[simp] lemma acceptAlts_eq (as : List (DamlCaseAlt DamlExpr)) :
    acceptAlts as = as.flatMap DamlCaseAlt.accept := by
  induction as with
  | nil => rfl
  | cons a as ih => exact congrArg (a.accept ++ ·) ih

end DamlBindings.Lf
