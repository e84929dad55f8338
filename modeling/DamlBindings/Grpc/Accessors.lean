import DamlBindings.Grpc.RecordFields

/-!
# Reading a ledger value

The `try_*` accessors of a value (`data/value/values.rs`): each reads the values of one variant and
names the variant it expected, and the one it found, for the others.
-/

namespace DamlBindings.Grpc

/-- The codes of `tonic::Code`. -/
inductive Code where
  | ok
  | cancelled
  | unknown
  | invalidArgument
  | deadlineExceeded
  | notFound
  | alreadyExists
  | permissionDenied
  | resourceExhausted
  | failedPrecondition
  | aborted
  | outOfRange
  | unimplemented
  | internal
  | unavailable
  | dataLoss
  | unauthenticated
deriving DecidableEq, Repr

/-- A `tonic::Status`, with which a request fails. -/
structure Status where
  code : Code
  message : String
deriving DecidableEq, Repr

/-- The errors of `DamlError` that arise where a value is read or a command is run, beside those of
its conversion. -/
inductive LedgerError where
  | daml (e : DamlError)
  | listIndexOutOfRange (index : Nat)
  | other (msg : String)
  | insufficientParties
  | grpcStatusError (e : Status)
  | grpcPermissionError (e : Status)
deriving DecidableEq, Repr

/-- `From<tonic::Status> for DamlError` -/
def LedgerError.ofStatus (e : Status) : LedgerError :=
  match e.code with
  | .permissionDenied | .unauthenticated => .grpcPermissionError e
  | _ => .grpcStatusError e

abbrev LedgerResult := Except LedgerError

/-- The results of the conversions among those of the ledger. -/
def DamlResult.lift {α : Type} : DamlResult α → LedgerResult α := Except.mapError .daml

@[simp] lemma DamlResult.lift_ok {α : Type} (a : α) : DamlResult.lift (.ok a) = .ok a := rfl

@[simp] lemma DamlResult.lift_error {α : Type} (e : DamlError) :
    DamlResult.lift (.error e : DamlResult α) = .error (.daml e) := rfl

namespace DamlValue

variable {N D T α : Type}

/-- An accessor: it expects the values that `get` reads. -/
def tryAs (expected : String) (get : DamlValue N D T → Option α) (v : DamlValue N D T) :
    DamlResult α :=
  match get v with
  | some a => .ok a
  | none => .error (v.makeUnexpectedTypeError expected)

def tryUnitRef : DamlValue N D T → DamlResult Unit :=
  tryAs "Unit" fun | .unit => some () | _ => none

def tryDateRef : DamlValue N D T → DamlResult D :=
  tryAs "Date" fun | .date d => some d | _ => none

def tryInt64Ref : DamlValue N D T → DamlResult Int64 :=
  tryAs "Int64" fun | .int64 i => some i | _ => none

def tryNumeric : DamlValue N D T → DamlResult N :=
  tryAs "Numeric" fun | .numeric n => some n | _ => none

def tryBoolRef : DamlValue N D T → DamlResult Bool :=
  tryAs "Bool" fun | .bool b => some b | _ => none

def tryText : DamlValue N D T → DamlResult String :=
  tryAs "Text" fun | .text s => some s | _ => none

def tryTimestampRef : DamlValue N D T → DamlResult T :=
  tryAs "Timestamp" fun | .timestamp t => some t | _ => none

def tryParty : DamlValue N D T → DamlResult DamlParty :=
  tryAs "Party" fun | .party p => some p | _ => none

def tryContractId : DamlValue N D T → DamlResult DamlContractId :=
  tryAs "ContractId" fun | .contractId c => some c | _ => none

def tryRecord : DamlValue N D T → DamlResult (DamlRecord (DamlValue N D T)) :=
  tryAs "Record" fun | .record r => some r | _ => none

def tryList : DamlValue N D T → DamlResult (List (DamlValue N D T)) :=
  tryAs "List" fun | .list l => some l | _ => none

def tryVariant : DamlValue N D T → DamlResult (DamlVariant (DamlValue N D T)) :=
  tryAs "Variant" fun | .variant v => some v | _ => none

def tryOptional : DamlValue N D T → DamlResult (Option (DamlValue N D T)) :=
  tryAs "Optional" fun | .optional o => some o | _ => none

/-- `extract`: apply a function of a record to the record that the value is. -/
def extract (v : DamlValue N D T) (f : DamlRecord (DamlValue N D T) → LedgerResult α) :
    LedgerResult α :=
  v.tryRecord.lift >>= f

end DamlValue

end DamlBindings.Grpc
