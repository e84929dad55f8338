import DamlBindings.Grpc.TotalOrder
import DamlBindings.Grpc.Wire

/-!
# Typed serialisation

The traits `DamlSerializeFrom` and `DamlDeserializeFrom` (`serialize.rs`, with the
implementations in `data/value/values.rs`) pick their implementation by the Rust type.  Here a
Rust type is a type code and a Rust value is untyped data that may have a type code; the
implementations are two functions directed by the code.  The types of the user are the records,
variants and enums the code generator renders (`data_renderer/full`), given by an environment of
definitions, which may refer to each other and to themselves.
-/

namespace DamlBindings.Grpc

/-! ### Types and their definitions -/

/-- The primitive types; `fixedNumeric n` is `DamlFixedNumeric<Nat_n>`. -/
inductive PrimTy where
  | unit
  | bool
  | int64
  | text
  | party
  | contractId
  | fixedNumeric (n : Nat)
  | timestamp
  | date
deriving DecidableEq

/-- The codes of the Rust types that can be serialised; `ι` names the types of the user. -/
inductive RustTy (ι : Type) where
  | prim (p : PrimTy)
  | box (t : RustTy ι)
  | optional (t : RustTy ι)
  | list (t : RustTy ι)
  | textMap (t : RustTy ι)
  | genMap (k t : RustTy ι)
  | user (name : ι) (args : List (RustTy ι))
  | var (i : Nat)

namespace RustTy

variable {ι : Type}

mutual

/-- Replace the type variables by type arguments. -/
def inst (args : List (RustTy ι)) : RustTy ι → RustTy ι
  | .prim p => .prim p
  | .box t => .box (inst args t)
  | .optional t => .optional (inst args t)
  | .list t => .list (inst args t)
  | .textMap t => .textMap (inst args t)
  | .genMap k t => .genMap (inst args k) (inst args t)
  | .user n ts => .user n (instAll args ts)
  | .var i => args.getD i (.var i)
termination_by structural t => t

def instAll (args : List (RustTy ι)) : List (RustTy ι) → List (RustTy ι)
  | [] => []
  | t :: ts => inst args t :: instAll args ts
termination_by structural ts => ts

end

/-- Whether the type is the unit type as it is written (`matches!(ty, DamlType::Unit)`). -/
def isUnit : RustTy ι → Bool
  | .prim .unit => true
  | _ => false

end RustTy

/-- The definition of a type of the user.  Rust rejects a type with two constructors of one
name. -/
inductive TypeDef (ι : Type) where
  | record (fields : List (String × RustTy ι))
  | variant (constructors : List (String × RustTy ι))
      (distinct : (constructors.map Prod.fst).Nodup)
  | enum (constructors : List String) (distinct : constructors.Nodup)

/-- The types of the user by their names. -/
abbrev TypeEnv (ι : Type) := ι → Option (TypeDef ι)

/-! ### Values -/

/-- A value of a primitive type. -/
inductive Prim (N D T : Type) where
  | unit
  | bool (b : Bool)
  | int64 (i : Int64)
  | text (s : String)
  | party (p : DamlParty)
  | contractId (c : DamlContractId)
  | fixedNumeric (n : N)
  | timestamp (t : T)
  | date (d : D)

/-- A Rust value.  The fields of a record stand in the order of their declaration; a variant and
an enum value have the index of their constructor, and a variant constructor has a payload
unless its type is the unit type. -/
inductive RustValue (N D T : Type) where
  | prim (p : Prim N D T)
  | box (v : RustValue N D T)
  | optional (o : Option (RustValue N D T))
  | list (vs : List (RustValue N D T))
  | textMap (m : List (String × RustValue N D T))
  | genMap (m : List (RustValue N D T × RustValue N D T))
  | record (vs : List (RustValue N D T))
  | variant (i : Nat) (payload : Option (RustValue N D T))
  | enum (i : Nat)

variable {N D T ι : Type}

namespace RustValue

section Induction

variable {P : RustValue N D T → Prop} (prim : ∀ p, P (.prim p)) (box : ∀ v, P v → P (.box v))
  (optional : ∀ o : Option (RustValue N D T), (∀ v ∈ o, P v) → P (.optional o))
  (list : ∀ vs, (∀ v ∈ vs, P v) → P (.list vs))
  (textMap : ∀ m : List (String × RustValue N D T), (∀ p ∈ m, P p.2) → P (.textMap m))
  (genMap : ∀ m : List (RustValue N D T × RustValue N D T), (∀ p ∈ m, P p.1 ∧ P p.2) →
    P (.genMap m))
  (record : ∀ vs, (∀ v ∈ vs, P v) → P (.record vs))
  (variant : ∀ i (o : Option (RustValue N D T)), (∀ v ∈ o, P v) → P (.variant i o))
  (enum : ∀ i, P (.enum i))

include prim box optional list textMap genMap record variant enum

/-- Induction on a value, with a hypothesis for every value directly inside it. -/
@[elab_as_elim, induction_eliminator]
theorem induction (v : RustValue N D T) : P v :=
  @RustValue.rec N D T P (fun o => ∀ v ∈ o, P v) (fun vs => ∀ v ∈ vs, P v)
    (fun m => ∀ p ∈ m, P p.2) (fun m => ∀ p ∈ m, P p.1 ∧ P p.2) (fun p => P p.2)
    (fun p => P p.1 ∧ P p.2)
    prim box optional list textMap genMap record variant enum
    (fun _ h => nomatch h) (fun _ h _ hv => Option.mem_some.1 hv ▸ h)
    (List.forall_mem_nil _) (fun _ _ h hs => List.forall_mem_cons.2 ⟨h, hs⟩)
    (List.forall_mem_nil _) (fun _ _ h hs => List.forall_mem_cons.2 ⟨h, hs⟩)
    (List.forall_mem_nil _) (fun _ _ h hs => List.forall_mem_cons.2 ⟨h, hs⟩)
    (fun _ _ h => h) (fun _ _ h₁ h₂ => ⟨h₁, h₂⟩) v

end Induction

def ordinal : RustValue N D T → Nat
  | .prim _ => 0
  | .box _ => 1
  | .optional _ => 2
  | .list _ => 3
  | .textMap _ => 4
  | .genMap _ => 5
  | .record _ => 6
  | .variant _ _ => 7
  | .enum _ => 8

end RustValue

/-- The value a primitive serialises to. -/
def Prim.toDamlValue : Prim N D T → DamlValue N D T
  | .unit => .unit
  | .bool b => .bool b
  | .int64 i => .int64 i
  | .text s => .text s
  | .party p => .party p
  | .contractId c => .contractId c
  | .fixedNumeric n => .numeric n
  | .timestamp t => .timestamp t
  | .date d => .date d

namespace RustValue

/-! ### The order of the values of a type

The standard containers compare element by element and the generated types derive their order:
records by their fields, variants and enums by their constructors, then the payload.  Values of
one primitive type compare as the ledger values they serialise to. -/

section Ord

open PartialCmp (andThen ofOrd)

variable [Ord N] [Ord D] [Ord T]

def primCmp (p q : Prim N D T) : Option Ordering :=
  DamlValue.partialCmp p.toDamlValue q.toDamlValue

mutual

/-- `PartialOrd` of a type, which is also its `Ord` where it has one.  Values that are of no
common type compare by their ordinals. -/
def partialCmp : RustValue N D T → RustValue N D T → Option Ordering
  | .prim p, .prim q => primCmp p q
  | .box v, .box w => partialCmp v w
  | .optional o₁, .optional o₂ => partialCmpOption o₁ o₂
  | .list vs₁, .list vs₂ => partialCmpList vs₁ vs₂
  | .textMap m₁, .textMap m₂ =>
    -- as for ledger values: by the size, then sorted by key
    if m₁.length = m₂.length then
      PartialCmp.list (PartialCmp.pair ofOrd fun c v => c v)
        (AssocMap.sortByKey compare (comparators m₁)) (AssocMap.sortByKey compare m₂)
    else ofOrd m₁.length m₂.length
  | .genMap m₁, .genMap m₂ => partialCmpPairs m₁ m₂
  | .record vs₁, .record vs₂ => partialCmpList vs₁ vs₂
  | .variant i o₁, .variant j o₂ => andThen (ofOrd i j) (partialCmpOption o₁ o₂)
  | .enum i, .enum j => ofOrd i j
  | a, b => ofOrd a.ordinal b.ordinal
termination_by structural v => v

def partialCmpOption : Option (RustValue N D T) → Option (RustValue N D T) → Option Ordering
  | none, none => some .eq
  | none, some _ => some .lt
  | some _, none => some .gt
  | some v, some w => partialCmp v w
termination_by structural o => o

def partialCmpList : List (RustValue N D T) → List (RustValue N D T) → Option Ordering
  | [], [] => some .eq
  | [], _ :: _ => some .lt
  | _ :: _, [] => some .gt
  | v :: vs, w :: ws => andThen (partialCmp v w) (partialCmpList vs ws)
termination_by structural vs => vs

/-- The entries of a text map with each value replaced by the comparison with it. -/
def comparators : List (String × RustValue N D T) →
    List (String × (RustValue N D T → Option Ordering))
  | [] => []
  | (k, v) :: m => (k, partialCmp v) :: comparators m
termination_by structural m => m

def partialCmpPairs : List (RustValue N D T × RustValue N D T) →
    List (RustValue N D T × RustValue N D T) → Option Ordering
  | [], [] => some .eq
  | [], _ :: _ => some .lt
  | _ :: _, [] => some .gt
  | (k₁, v₁) :: m₁, (k₂, v₂) :: m₂ =>
    andThen (andThen (partialCmp k₁ k₂) (partialCmp v₁ v₂)) (partialCmpPairs m₁ m₂)
termination_by structural m => m

end

/-- `Ord::cmp`; the comparison always answers (`orders`). -/
def cmp (a b : RustValue N D T) : Ordering := (partialCmp a b).getD .eq

end Ord

end RustValue

/-! ### Well-typed values -/

def Prim.HasTy : Prim N D T → PrimTy → Prop
  | .unit, .unit => True
  | .bool _, .bool => True
  | .int64 _, .int64 => True
  | .text _, .text => True
  | .party _, .party => True
  | .contractId _, .contractId => True
  | .fixedNumeric _, .fixedNumeric _ => True
  | .timestamp _, .timestamp => True
  | .date _, .date => True
  | _, _ => False

/-- The values of a type: those Rust can build from the declared fields and constructors.  The
keys of a hash map are distinct and those of a `BTreeMap` strictly ascending. -/
inductive HasTy [Ord N] [Ord D] [Ord T] (Γ : TypeEnv ι) : RustValue N D T → RustTy ι → Prop
  | prim {p t} : p.HasTy t → HasTy Γ (.prim p) (.prim t)
  | box {v t} : HasTy Γ v t → HasTy Γ (.box v) (.box t)
  | optional {o t} : (∀ v ∈ o, HasTy Γ v t) → HasTy Γ (.optional o) (.optional t)
  | list {vs t} : (∀ v ∈ vs, HasTy Γ v t) → HasTy Γ (.list vs) (.list t)
  | textMap {m t} : (AssocMap.keys m).Nodup → (∀ p ∈ m, HasTy Γ p.2 t) →
      HasTy Γ (.textMap m) (.textMap t)
  | genMap {m k t} : (AssocMap.keys m).Pairwise (fun a b => RustValue.cmp a b = .lt) →
      (∀ p ∈ m, HasTy Γ p.1 k) → (∀ p ∈ m, HasTy Γ p.2 t) → HasTy Γ (.genMap m) (.genMap k t)
  | record {n args fs vs} : Γ n = some (.record fs) → fs.length = vs.length →
      (∀ p ∈ fs.zip vs, HasTy Γ p.2 (p.1.2.inst args)) → HasTy Γ (.record vs) (.user n args)
  | unitVariant {n args cs h i c t} : Γ n = some (.variant cs h) → cs[i]? = some (c, t) →
      t.isUnit → HasTy Γ (.variant i none) (.user n args)
  | variant {n args cs h i c t v} : Γ n = some (.variant cs h) → cs[i]? = some (c, t) →
      t.isUnit = false → HasTy Γ v (t.inst args) → HasTy Γ (.variant i (some v)) (.user n args)
  | enum {n args cs h i c} : Γ n = some (.enum cs h) → cs[i]? = some c →
      HasTy Γ (.enum i) (.user n args)

/-! ### Serialisation -/

section Serialize

variable [Ord N] [Ord D] [Ord T]

mutual

/-- `DamlSerializeFrom::serialize_from`, by the type of the value; `none` where the value is not
of the type. -/
def serialize (Γ : TypeEnv ι) : RustTy ι → RustValue N D T → Option (DamlValue N D T)
  | .prim _, .prim p => some p.toDamlValue
  | .box t, .box v => serialize Γ t v
  | .optional _, .optional none => some (.optional none)
  | .optional t, .optional (some v) => (serialize Γ t v).map fun w => .optional (some w)
  | .list t, .list vs => (serializeList Γ t vs).map .list
  | .textMap t, .textMap m =>
    (serializeEntries Γ t m).map fun es => .textMap (AssocMap.ofList es)
  | .genMap k t, .genMap m =>
    (serializePairs Γ k t m).map fun es => .genMap (AssocMap.ofListSorted DamlValue.cmp es)
  | .user n args, .record vs =>
    match Γ n with
    | some (.record fs) => (serializeFields Γ args fs vs).map fun gs => .record ⟨none, gs⟩
    | _ => none
  | .user n args, .variant i payload =>
    match Γ n with
    | some (.variant cs _) =>
      match cs[i]?, payload with
      | some (c, t), none => if t.isUnit then some (.variant ⟨none, c, .unit⟩) else none
      | some (c, t), some v =>
        if t.isUnit then none
        else (serialize Γ (t.inst args) v).map fun w => .variant ⟨none, c, w⟩
      | none, _ => none
    | _ => none
  | .user n _, .enum i =>
    match Γ n with
    | some (.enum cs _) => cs[i]?.map fun c => .enum ⟨none, c⟩
    | _ => none
  | _, _ => none
termination_by structural _ v => v

def serializeList (Γ : TypeEnv ι) (t : RustTy ι) :
    List (RustValue N D T) → Option (List (DamlValue N D T))
  | [] => some []
  | v :: vs => do return (← serialize Γ t v) :: (← serializeList Γ t vs)
termination_by structural vs => vs

def serializeEntries (Γ : TypeEnv ι) (t : RustTy ι) :
    List (String × RustValue N D T) → Option (List (String × DamlValue N D T))
  | [] => some []
  | (k, v) :: m => do return (k, ← serialize Γ t v) :: (← serializeEntries Γ t m)
termination_by structural m => m

def serializePairs (Γ : TypeEnv ι) (k t : RustTy ι) :
    List (RustValue N D T × RustValue N D T) → Option (List (DamlValue N D T × DamlValue N D T))
  | [] => some []
  | (a, v) :: m => do
    return (← serialize Γ k a, ← serialize Γ t v) :: (← serializePairs Γ k t m)
termination_by structural m => m

/-- The rendered fields of a record, in the order of their declaration. -/
def serializeFields (Γ : TypeEnv ι) (args : List (RustTy ι)) :
    List (String × RustTy ι) → List (RustValue N D T) →
      Option (List (DamlRecordField (DamlValue N D T)))
  | [], [] => some []
  | (l, t) :: fs, v :: vs => do
    return ⟨some l, ← serialize Γ (t.inst args) v⟩ :: (← serializeFields Γ args fs vs)
  | _, _ => none
termination_by structural _ vs => vs

end

end Serialize

/-! ### Deserialisation -/

namespace DamlValue

/-- `DamlValue::make_unexpected_type_error`. -/
def makeUnexpectedTypeError (v : DamlValue N D T) (expected : String) : DamlError :=
  .unexpectedType expected v.variantName

def tryTakeEnum : DamlValue N D T → DamlResult DamlEnum
  | .enum e => .ok e
  | v => .error (v.makeUnexpectedTypeError "Enum")

end DamlValue

/-- `DamlRecord::take_field`: the value of the first field with the label, and the other
fields. -/
def takeField (label : String) : List (DamlRecordField (DamlValue N D T)) →
    DamlResult (DamlValue N D T × List (DamlRecordField (DamlValue N D T)))
  | [] => .error (.unknownField label)
  | f :: fs =>
    if f.label = some label then .ok (f.value, fs)
    else
      match takeField label fs with
      | .ok (v, rest) => .ok (v, f :: rest)
      | .error e => .error e

/-- `deserialize_from` of the primitive types. -/
def deserializePrim : PrimTy → DamlValue N D T → DamlResult (Prim N D T)
  | .unit, .unit => .ok .unit
  | .bool, .bool b => .ok (.bool b)
  | .int64, .int64 i => .ok (.int64 i)
  | .text, .text s => .ok (.text s)
  | .party, .party p => .ok (.party p)
  | .contractId, .contractId c => .ok (.contractId c)
  | .fixedNumeric _, .numeric n => .ok (.fixedNumeric n)
  | .timestamp, .timestamp t => .ok (.timestamp t)
  | .date, .date d => .ok (.date d)
  | p, v => .error (v.makeUnexpectedTypeError (expectedName p))
where
  expectedName : PrimTy → String
    | .unit => "Unit"
    | .bool => "Bool"
    | .int64 => "Int64"
    | .text => "Text"
    | .party => "Party"
    | .contractId => "ContractId"
    | .fixedNumeric _ => "Numeric"
    | .timestamp => "Timestamp"
    | .date => "Date"

lemma sizeOf_takeField {label : String} {fs rest : List (DamlRecordField (DamlValue N D T))}
    {v : DamlValue N D T} (h : takeField label fs = .ok (v, rest)) :
    sizeOf v < sizeOf fs ∧ sizeOf rest < sizeOf fs := by
  induction fs generalizing v rest with
  | nil => simp [takeField] at h
  | cons f fs ih =>
    rw [takeField] at h
    split at h
    · simp only [Except.ok.injEq, Prod.mk.injEq] at h
      obtain ⟨rfl, rfl⟩ := h
      cases f
      simp only [List.cons.sizeOf_spec, DamlRecordField.mk.sizeOf_spec]
      omega
    · split at h
      next v' rest' hrest =>
        simp only [Except.ok.injEq, Prod.mk.injEq] at h
        obtain ⟨rfl, rfl⟩ := h
        have hlt := ih hrest
        simp only [List.cons.sizeOf_spec]
        omega
      next => cases h

section Deserialize

variable [Ord N] [Ord D] [Ord T]

mutual

/-- `DamlDeserializeFrom::deserialize_from`, by the type asked for. -/
def deserialize (Γ : TypeEnv ι) (t : RustTy ι) (v : DamlValue N D T) :
    DamlResult (RustValue N D T) :=
  match t, v with
  | .prim p, v => do return .prim (← deserializePrim p v)
  | .box t, v => do return .box (← deserialize Γ t v)
  | .optional _, .optional none => .ok (.optional none)
  | .optional t, .optional (some w) => do return .optional (some (← deserialize Γ t w))
  | .optional _, v => .error (v.makeUnexpectedTypeError "Option")
  | .list t, .list vs => do return .list (← deserializeList Γ t vs)
  | .list _, v => .error (v.makeUnexpectedTypeError "List")
  | .textMap t, .textMap m => do
    return .textMap (AssocMap.ofList (← deserializeEntries Γ t m))
  | .textMap _, v => .error (v.makeUnexpectedTypeError "TextMap")
  | .genMap k t, .genMap m => do
    return .genMap (AssocMap.ofListSorted RustValue.cmp (← deserializePairs Γ k t m))
  | .genMap _ _, v => .error (v.makeUnexpectedTypeError "GenMap")
  | .user n args, v =>
    match Γ n with
    | some (.record []) => .ok (.record [])
    | some (.record fs) =>
      match v with
      | .record ⟨_, gs⟩ => do return .record (← deserializeFields Γ args fs gs)
      | v => .error (v.makeUnexpectedTypeError "Record")
    | some (.variant cs _) =>
      match v with
      | .variant ⟨_, c, w⟩ =>
        match cs.findIdx? (·.1 == c) with
        | some i =>
          match cs[i]? with
          | some (_, t) =>
            if t.isUnit then .ok (.variant i none)
            else do return .variant i (some (← deserialize Γ (t.inst args) w))
          | none => .error (.unexpectedVariant (", ".intercalate (cs.map Prod.fst)) c)
        | none => .error (.unexpectedVariant (", ".intercalate (cs.map Prod.fst)) c)
      | v => .error (v.makeUnexpectedTypeError "Variant")
    | some (.enum cs _) => do
      let e ← v.tryTakeEnum
      match cs.findIdx? (· == e.constructor) with
      | some i => .ok (.enum i)
      | none => .error (.unexpectedVariant (", ".intercalate cs) e.constructor)
    | none => .error .missingRequiredField
  | .var _, _ => .error .missingRequiredField
termination_by (sizeOf v, sizeOf t)

def deserializeList (Γ : TypeEnv ι) (t : RustTy ι) (vs : List (DamlValue N D T)) :
    DamlResult (List (RustValue N D T)) :=
  match vs with
  | [] => .ok []
  | v :: vs => do return (← deserialize Γ t v) :: (← deserializeList Γ t vs)
termination_by (sizeOf vs, 0)

def deserializeEntries (Γ : TypeEnv ι) (t : RustTy ι) (m : List (String × DamlValue N D T)) :
    DamlResult (List (String × RustValue N D T)) :=
  match m with
  | [] => .ok []
  | (k, v) :: m => do return (k, ← deserialize Γ t v) :: (← deserializeEntries Γ t m)
termination_by (sizeOf m, 0)

def deserializePairs (Γ : TypeEnv ι) (k t : RustTy ι)
    (m : List (DamlValue N D T × DamlValue N D T)) :
    DamlResult (List (RustValue N D T × RustValue N D T)) :=
  match m with
  | [] => .ok []
  | (a, v) :: m => do
    return (← deserialize Γ k a, ← deserialize Γ t v) :: (← deserializePairs Γ k t m)
termination_by (sizeOf m, 0)

/-- The arguments of the generated `Self::new`: each field is taken out of the record by its
label. -/
def deserializeFields (Γ : TypeEnv ι) (args : List (RustTy ι)) (fs : List (String × RustTy ι))
    (gs : List (DamlRecordField (DamlValue N D T))) : DamlResult (List (RustValue N D T)) :=
  match fs with
  | [] => .ok []
  | (l, t) :: fs =>
    match h : takeField l gs with
    | .error e => .error e
    | .ok (w, rest) =>
      have := sizeOf_takeField h
      do return (← deserialize Γ (t.inst args) w) :: (← deserializeFields Γ args fs rest)
termination_by (sizeOf gs, 0)

end

end Deserialize

end DamlBindings.Grpc
