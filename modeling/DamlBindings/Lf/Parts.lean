import DamlBindings.Lf.ConvertExpr

/-!
# The parts of a message

What a kind, a type or an expression on the wire is made of, in the order in which its
conversion reads it.
-/

namespace DamlBindings.Lf.Proto

/-- A part of a message. -/
inductive Part where
  /-- A field or a `oneof` that is required but absent, or a feature that is not supported. -/
  | missing
  /-- A test on the message itself: a code, a bound, a number of arguments. -/
  | check (ok : Bool)
  | string (i : Int)
  | tycon (id : TypeConId)
  | tysyn (id : TypeSynId)
  | value (id : ValueId)
  | kind (k : Kind)
  | type (t : Ty)
  | expr (e : Expr)
  | internedKind (i : Int)
  | internedType (i : Int)
  | internedExpr (i : Int)

/-- A required field. -/
def field {α : Type} (part : α → Part) : Option α → Part
  | some a => part a
  | none => .missing

@[simp] lemma field_some {α : Type} (part : α → Part) (a : α) : field part (some a) = part a := rfl

@[simp] lemma field_none {α : Type} (part : α → Part) : field part none = .missing := rfl

/-- A required field that holds a message whose parts are read in its place. -/
def fieldParts {α : Type} (parts : α → List Part) : Option α → List Part
  | some a => parts a
  | none => [.missing]

@[simp] lemma fieldParts_some {α : Type} (parts : α → List Part) (a : α) :
    fieldParts parts (some a) = parts a := rfl

@[simp] lemma fieldParts_none {α : Type} (parts : α → List Part) :
    fieldParts parts none = [.missing] := rfl

/-! ### Kinds and types -/

def Kind.parts : Kind → List Part
  | .star => []
  | .nat => []
  | .arrow params result => params.map .kind ++ [field .kind result]
  | .internedKind i => [.internedKind i]
  | .unset => [.missing]

def TypeVarWithKind.parts (v : TypeVarWithKind) : List Part :=
  [.string v.varInternedStr, field .kind v.kind]

def FieldWithType.parts (f : FieldWithType Ty) : List Part :=
  [.string f.fieldInternedStr, field .type f.type]

/-- The arguments of a `ContractId` are at most one. -/
def argumentsOk (b : Int) (args : List Ty) : Bool :=
  BuiltinType.tryFrom b ≠ some .contractId ∨ args.length ≤ 1

def Ty.parts : Ty → List Part
  | .var v args => .string v :: args.map .type
  | .con c args => field .tycon c :: args.map .type
  | .syn s args => field .tysyn s :: args.map .type
  | .builtin b args =>
    .check (BuiltinType.tryFrom b).isSome :: args.map .type ++ [.check (argumentsOk b args)]
  | .forAll vars body => vars.flatMap TypeVarWithKind.parts ++ [field .type body]
  | .struct fields => fields.flatMap FieldWithType.parts
  | .nat n => [.check (decide (0 ≤ n ∧ n ≤ 37))]
  | .internedType i => [.internedType i]
  | .tapp => [.missing]
  | .unset => [.missing]

def TypeCon.parts (c : TypeCon) : List Part := field .tycon c.tycon :: c.args.map .type

def VarWithType.parts (v : VarWithType) : List Part :=
  [.string v.varInternedStr, field .type v.type]

/-! ### Expressions -/

def BuiltinLit.parts : BuiltinLit → List Part
  | .numericInternedStr i => [.string i]
  | .textInternedStr i => [.string i]
  | .roundingMode code => [.check (RoundingMode.codes.lookup code).isSome]
  | .failureCategory code => [.check (FailureCategory.codes.lookup code).isSome]
  | .int64 _ => []
  | .timestamp _ => []
  | .date _ => []
  | .unset => [.missing]

def CaseAltSum.parts : CaseAltSum → List Part
  | .default => []
  | .variant con v b => [field .tycon con, .string v, .string b]
  | .builtinCon code => [.check (convertBuiltinCon code).isOk]
  | .nil => []
  | .cons h t => [.string h, .string t]
  | .optionalNone => []
  | .optionalSome b => [.string b]
  | .enum con c => [field .tycon con, .string c]
  | .unset => [.missing]

def CaseAlt.parts (a : CaseAlt Expr) : List Part := field .expr a.body :: a.sum.parts

def FieldWithExpr.parts (f : FieldWithExpr Expr) : List Part :=
  [.string f.fieldInternedStr, field .expr f.expr]

def Binding.parts (b : Binding Expr) : List Part :=
  fieldParts VarWithType.parts b.binder ++ [field .expr b.bound]

def Block.parts (b : Block Expr) : List Part :=
  b.bindings.flatMap Binding.parts ++ [field .expr b.body]

def Update.parts : Update Expr → List Part
  | .pure ty e => [field .type ty, field .expr e]
  | .block b => b.parts
  | .create template e => [field .tycon template, field .expr e]
  | .createInterface interface e => [field .tycon interface, field .expr e]
  | .exercise template choice cid arg =>
    [field .tycon template, field .expr cid, field .expr arg, .string choice]
  | .exerciseInterface interface choice cid arg guard =>
    [field .tycon interface, field .expr cid, field .expr arg, .string choice] ++
      guard.toList.map .expr
  | .exerciseByKey template choice key arg =>
    [field .tycon template, .string choice, field .expr key, field .expr arg]
  | .fetch template cid => [field .tycon template, field .expr cid]
  | .fetchInterface interface cid => [field .tycon interface, field .expr cid]
  | .getTime => []
  | .lookupByKey template => [field .tycon template]
  | .fetchByKey template => [field .tycon template]
  | .queryNByKey template => [field .tycon template]
  | .embedExpr ty body => [field .type ty, field .expr body]
  | .tryCatch returnType tryExpr var catchExpr =>
    [field .type returnType, field .expr tryExpr, .string var, field .expr catchExpr]
  | .ledgerTimeLt e => [.expr e]
  | .unset => [.missing]

def Expr.parts : Expr → List Part
  | .varInternedStr i => [.string i]
  | .val id => [.value id]
  | .builtin code => [.check (convertBuiltinFunction code).isOk]
  | .builtinCon code => [.check (convertBuiltinCon code).isOk]
  | .builtinLit lit => lit.parts
  | .nil ty => [field .type ty]
  | .optionalNone ty => [field .type ty]
  | .typeRep ty => [.type ty]
  | .recCon tycon fields => fieldParts TypeCon.parts tycon ++ fields.flatMap FieldWithExpr.parts
  | .recProj tycon f record =>
    fieldParts TypeCon.parts tycon ++ [field .expr record] ++ [.string f]
  | .recUpd tycon f record upd =>
    fieldParts TypeCon.parts tycon ++ [field .expr record] ++ [field .expr upd] ++ [.string f]
  | .variantCon tycon con arg =>
    fieldParts TypeCon.parts tycon ++ [field .expr arg] ++ [.string con]
  | .enumCon tycon con => [field .tycon tycon, .string con]
  | .structCon fields => fields.flatMap FieldWithExpr.parts
  | .structProj f struct => [field .expr struct, .string f]
  | .structUpd f struct upd => [field .expr struct, field .expr upd, .string f]
  | .toAny ty e => [field .type ty, field .expr e]
  | .fromAny ty e => [field .type ty, field .expr e]
  | .app fn args => field .expr fn :: args.map .expr
  | .tyApp e types => field .expr e :: types.map .type
  | .abs param body => param.flatMap VarWithType.parts ++ [field .expr body]
  | .tyAbs param body => param.flatMap TypeVarWithKind.parts ++ [field .expr body]
  | .case scrut alts => field .expr scrut :: alts.flatMap CaseAlt.parts
  | .letIn block => block.parts
  | .cons ty front tail => field .type ty :: front.map .expr ++ [field .expr tail]
  | .optionalSome ty value => [field .type ty, field .expr value]
  | .toAnyException ty e => [field .type ty, field .expr e]
  | .fromAnyException ty e => [field .type ty, field .expr e]
  | .throw returnType exceptionType e =>
    [field .type returnType, field .type exceptionType, field .expr e]
  | .toInterface interfaceType templateType e =>
    [field .tycon interfaceType, field .tycon templateType, field .expr e]
  | .fromInterface interfaceType templateType e =>
    [field .tycon interfaceType, field .tycon templateType, field .expr e]
  | .callInterface interfaceType method e =>
    [.string method, field .tycon interfaceType, field .expr e]
  | .viewInterface interface e => [field .tycon interface, field .expr e]
  | .signatoryInterface interface e => [field .tycon interface, field .expr e]
  | .observerInterface interface e => [field .tycon interface, field .expr e]
  | .unsafeFromInterface interfaceType templateType cid e =>
    [field .tycon interfaceType, field .tycon templateType, field .expr cid, field .expr e]
  | .toRequiredInterface required requiring e =>
    [field .tycon required, field .tycon requiring, field .expr e]
  | .fromRequiredInterface required requiring e =>
    [field .tycon required, field .tycon requiring, field .expr e]
  | .unsafeFromRequiredInterface required requiring cid e =>
    [field .tycon required, field .tycon requiring, field .expr cid, field .expr e]
  | .interfaceTemplateTypeRep interface e => [field .tycon interface, field .expr e]
  | .choiceController template choice contract arg =>
    [.string choice, field .tycon template, field .expr contract, field .expr arg]
  | .choiceObserver template choice contract arg =>
    [.string choice, field .tycon template, field .expr contract, field .expr arg]
  | .update u => u.parts
  | .internedExpr i => [.internedExpr i]
  | .experimental => [.missing]
  | .unset => [.missing]

end DamlBindings.Lf.Proto
