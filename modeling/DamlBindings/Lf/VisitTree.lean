import DamlBindings.Lib.StableSort
import DamlBindings.Lf.Visitor

/-!
# Visiting an archive

The `accept` methods of data types, modules, packages and archives (`element/`).  A module and an
archive ask the visitor whether to sort what they list from their hash maps.  The visitor may
answer from what it has seen, so that the callbacks of a part depend on those made before it.
-/

namespace DamlBindings.Lf

open StableSort

/-! ### Data types, interfaces and definitions -/

def DamlChoice.accept (c : DamlChoice) : List Callback :=
  visit (.choice c) <|
    c.fields.flatMap DamlField.accept ++ c.returnType.accept ++ c.update.accept ++
      c.controllers.accept ++ c.observers.accept

def DamlDefKey.accept (k : DamlDefKey) : List Callback :=
  visit (.defKey k) (k.ty.accept ++ k.maintainers.accept ++ k.keyExpr.accept)

def DamlTemplate.accept (t : DamlTemplate) : List Callback :=
  visit (.template t) <|
    t.fields.flatMap DamlField.accept ++ t.choices.flatMap DamlChoice.accept ++
      t.precond.toList.flatMap DamlExpr.accept ++ t.signatories.accept ++ t.agreement.accept ++
      t.observers.accept ++ t.key.toList.flatMap DamlDefKey.accept

def DamlRecord.accept (r : DamlRecord) : List Callback :=
  visit (.record r) <|
    r.fields.flatMap DamlField.accept ++ r.typeParams.flatMap DamlTypeVarWithKind.accept

def DamlVariant.accept (v : DamlVariant) : List Callback :=
  visit (.variant v) <|
    v.fields.flatMap DamlField.accept ++ v.typeParams.flatMap DamlTypeVarWithKind.accept

def DamlEnum.accept (e : DamlEnum) : List Callback :=
  visit (.enum e) (e.typeParams.flatMap DamlTypeVarWithKind.accept)

def DamlData.accept (d : DamlData) : List Callback :=
  visit (.data d) <|
    match d with
    | .record r => r.accept
    | .template t => t.accept
    | .variant v => v.accept
    | .enum e => e.accept

def DamlInterfaceMethod.accept (m : DamlInterfaceMethod) : List Callback :=
  visit (.interfaceMethod m) m.ty.accept

def DamlInterface.accept (i : DamlInterface) : List Callback :=
  visit (.interface i) <|
    i.methods.flatMap DamlInterfaceMethod.accept ++ i.choices.flatMap DamlChoice.accept ++
      i.view.accept ++ i.requires.flatMap DamlTyConName.accept

def DamlException.accept (e : DamlException) : List Callback :=
  visit (.exception e) e.message.accept

def DamlDefTypeSyn.accept (s : DamlDefTypeSyn) : List Callback :=
  visit (.defTypeSyn s) (s.params.flatMap DamlTypeVarWithKind.accept ++ s.ty.accept)

def DamlDefValue.accept (v : DamlDefValue) : List Callback :=
  visit (.defValue v) (v.ty.accept ++ v.expr.accept)

/-! ### Modules, packages and archives -/

/-- What the visit of a part calls, from the callbacks made before it. -/
abbrev Visiting := List Callback → List Callback

namespace Visiting

/-- One part after the other. -/
def inOrder : List Visiting → Visiting
  | [] => fun _ => []
  | f :: fs => fun before => f before ++ inOrder fs (before ++ f before)

/-- The callbacks of an element around those made inside it. -/
def around (e : Element) (inside : Visiting) : Visiting := fun before =>
  visit e (inside (before ++ [.pre e]))

end Visiting

/-- A visitor, as far as the visit depends on it. -/
structure DamlElementVisitor where
  /-- The answer of `sort_elements` after the callbacks made so far. -/
  sortElements : List Callback → Bool

section

variable (visitor : DamlElementVisitor)

mutual

def DamlModule.accept : DamlModule → Visiting
  | .node body childModules =>
    .around (.module (.node body childModules)) <| .inOrder
      [ fun _ => body.synonyms.flatMap DamlDefTypeSyn.accept,
        fun before => Visiting.inOrder
          (if visitor.sortElements before then
            [ fun _ => (sortedByKey DamlData.name (body.dataTypes.map Prod.snd)).flatMap
                DamlData.accept,
              fun _ => (sortedByKey DamlInterface.name (body.interfaces.map Prod.snd)).flatMap
                DamlInterface.accept,
              fun _ => (sortedByKey DamlException.name (body.exceptions.map Prod.snd)).flatMap
                DamlException.accept,
              .inOrder ((sortedByKey Prod.fst (childVisits childModules)).map Prod.snd) ]
          else
            [ fun _ => (body.dataTypes.map Prod.snd).flatMap DamlData.accept,
              fun _ => (body.interfaces.map Prod.snd).flatMap DamlInterface.accept,
              fun _ => (body.exceptions.map Prod.snd).flatMap DamlException.accept,
              .inOrder ((childVisits childModules).map Prod.snd) ])
          before,
        fun _ => (body.values.map Prod.snd).flatMap DamlDefValue.accept ]
termination_by structural m => m

/-- The visits of the child modules, with the paths they are sorted by. -/
def childVisits : List (String × DamlModule) → List (List String × Visiting)
  | [] => []
  | (_, m) :: ms => (m.val.path, m.accept) :: childVisits ms
termination_by structural ms => ms

end

lemma childVisits_eq (cs : List (String × DamlModule)) :
    childVisits visitor cs = cs.map fun c => (c.2.val.path, DamlModule.accept visitor c.2) := by
  induction cs with
  | nil => rfl
  | cons c cs ih => exact congrArg ((c.2.val.path, DamlModule.accept visitor c.2) :: ·) ih

def DamlPackage.accept (p : DamlPackage) : Visiting :=
  .around (.package p) (DamlModule.accept visitor p.rootModule)

def DamlArchive.accept (a : DamlArchive) : Visiting :=
  .around (.archive a) fun before => Visiting.inOrder
    ((if visitor.sortElements before then sortedByKey DamlPackage.name (a.packages.map Prod.snd)
      else a.packages.map Prod.snd).map (DamlPackage.accept visitor))
    before

end

end DamlBindings.Lf
