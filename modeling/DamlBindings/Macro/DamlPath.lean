import DamlBindings.Grpc.Accessors

/-!
# The rules of `daml_path!`

`daml_path!` (`daml-macro/src/path.rs`) turns the tokens of a path expression into a closure that
reads a value out of a record.  Its private rules are tried in the order they stand in, and an input
that none of them takes is an input of the public rule, which wraps it once more and starts again:
the compiler stops such an expansion at its recursion limit.
-/

namespace DamlBindings.Macro

/-- The tokens of a path expression.  Brackets are given by the value of the index expression in
them, if they hold one. -/
inductive TokenTree where
  | ident (name : String)
  | slash
  | question
  | pathSep
  | fatArrow
  | at
  | other (text : String)
  | braces (inner : List TokenTree)
  | brackets (index : Option Nat)

/-- A `field{=>variant}[index]?` of a path. -/
structure PathElement where
  field : String
  variant : Option String
  index : Option Nat
  optional : Bool
deriving DecidableEq, Repr

/-- The supported `type` specifiers. -/
inductive TypeSpecifier where
  | contractId
  | unit
  | party
  | int64
  | numeric
  | text
  | bool
  | timestamp
  | date
  | record
  | list
  | variant
deriving DecidableEq, Repr

namespace TypeSpecifier

def code : TypeSpecifier → String
  | contractId => "c"
  | unit => "u"
  | party => "p"
  | int64 => "i"
  | numeric => "f"
  | text => "t"
  | bool => "b"
  | timestamp => "s"
  | date => "d"
  | record => "r"
  | list => "l"
  | variant => "v"

/-- The specifiers in the order of the leaf rules. -/
def all : List TypeSpecifier :=
  [contractId, unit, party, int64, numeric, text, bool, timestamp, date, record, list, variant]

def ofCode (name : String) : Option TypeSpecifier := all.find? fun t => t.code = name

lemma ofCode_code (t : TypeSpecifier) : ofCode t.code = some t := by
  cases t <;> rfl

lemma code_of_ofCode {name : String} {t : TypeSpecifier} (h : ofCode name = some t) :
    t.code = name := by
  simpa using List.find?_some h

end TypeSpecifier

/-! ### The fragments of a rule -/

/-- `$( { => $variant:ident } )?` -/
def matchVariant : List TokenTree → Option String × List TokenTree
  | .braces [.fatArrow, .ident variant] :: ts => (some variant, ts)
  | ts => (none, ts)

/-- `[ $index:expr ]` -/
def matchIndex : List TokenTree → Option (Nat × List TokenTree)
  | .brackets (some index) :: ts => some (index, ts)
  | _ => none

/-- `?` -/
def matchQuestion : List TokenTree → Option (List TokenTree)
  | .question :: ts => some ts
  | _ => none

/-- `$( :: $type:ident )?` at the end of a rule. -/
def matchType : List TokenTree → Option (Option String)
  | [] => some none
  | [.pathSep, .ident type] => some (some type)
  | _ => none

/-- The rule that takes an input, with what its fragments matched. -/
inductive Arm where
  | final (e : PathElement) (type : Option String)
  | nonFinal (e : PathElement) (rest : List TokenTree)
  | leaf (type : Option TypeSpecifier)
  | entry (tokens : List TokenTree)

/-! ### Final path elements -/

section Rules

variable (path : String) (ts : List TokenTree)

def finalListOptional : Option Arm := do
  let (variant, ts) := matchVariant ts
  let (index, ts) ← matchIndex ts
  let type ← matchType (← matchQuestion ts)
  return .final ⟨path, variant, some index, true⟩ type

def finalList : Option Arm := do
  let (variant, ts) := matchVariant ts
  let (index, ts) ← matchIndex ts
  return .final ⟨path, variant, some index, false⟩ (← matchType ts)

def finalPlain : Option Arm := do
  let (variant, ts) := matchVariant ts
  return .final ⟨path, variant, none, false⟩ (← matchType ts)

def finalOptional : Option Arm := do
  let (variant, ts) := matchVariant ts
  return .final ⟨path, variant, none, true⟩ (← matchType (← matchQuestion ts))

/-! ### Non-final path elements -/

def nonFinalListOptional : Option Arm := do
  let (variant, ts) := matchVariant ts
  let (index, ts) ← matchIndex ts
  return .nonFinal ⟨path, variant, some index, true⟩ (← matchQuestion ts)

def nonFinalList : Option Arm := do
  let (variant, ts) := matchVariant ts
  let (index, ts) ← matchIndex ts
  return .nonFinal ⟨path, variant, some index, false⟩ ts

def nonFinalOptional : Option Arm := do
  let (variant, ts) := matchVariant ts
  return .nonFinal ⟨path, variant, none, true⟩ (← matchQuestion ts)

/-- The special case for a nested variant. -/
def nonFinalVariant : Option Arm :=
  match ts with
  | .braces [.fatArrow, .ident variant] :: rest =>
    some (.nonFinal ⟨path, some variant, none, false⟩ rest)
  | _ => none

/-- The rest may be any tokens, so that braces in front of it could also open the variant: the
compiler reports the ambiguity. -/
def nonFinalPlain : Option Arm :=
  match ts with
  | .braces _ :: _ => none
  | ts => some (.nonFinal ⟨path, none, none, false⟩ ts)

/-- The rules for `@priv $record / $path`, in their order. -/
def pathArm : Option Arm :=
  finalListOptional path ts <|> finalList path ts <|> finalPlain path ts <|>
    finalOptional path ts <|> nonFinalListOptional path ts <|> nonFinalList path ts <|>
    nonFinalOptional path ts <|> nonFinalVariant path ts <|> nonFinalPlain path ts

end Rules

/-- The rule that takes an input of the macro.  The inputs `@get_record_field`, `@get_list_item` and
`@get_variant_value` of its helper rules are no inputs of a user. -/
def arm : List TokenTree → Option Arm
  | .at :: .ident "priv" :: .ident _ :: .slash :: .ident path :: ts => pathArm path ts
  | [.at, .ident "priv", .ident _] => some (.leaf none)
  | [.at, .ident "priv", .ident type, .ident value] =>
    match TypeSpecifier.ofCode type with
    | some type => some (.leaf (some type))
    | none => some (.entry [.at, .ident "priv", .ident type, .ident value])
  | ts => some (.entry ts)

/-! ### Expansion -/

/-- The code that the macro leaves in place of a call: a closure for the public rule, a block for a
path element and an accessor for a leaf. -/
inductive Expansion where
  | closure (body : Expansion)
  | final (e : PathElement) (leaf : Expansion)
  | nonFinal (e : PathElement) (rest : Expansion)
  | leaf (type : Option TypeSpecifier)

/-- `daml_path!( @priv $($type)? value )` -/
def leafCall (type : Option String) : List TokenTree :=
  [.at, .ident "priv"] ++ type.toList.map .ident ++ [.ident "value"]

/-- `daml_path!( @priv field_as_record $($rest)* )` -/
def restCall (rest : List TokenTree) : List TokenTree :=
  .at :: .ident "priv" :: .ident "field_as_record" :: rest

/-- `daml_path!( @priv rec_ref / $($rest)* )` -/
def entryCall (tokens : List TokenTree) : List TokenTree :=
  .at :: .ident "priv" :: .ident "rec_ref" :: .slash :: tokens

/-- The code that a rule leaves, with the calls of the macro in it expanded. -/
def Arm.transcribe (call : List TokenTree → Option Expansion) : Arm → Option Expansion
  | .final e type => (call (leafCall type)).map (.final e)
  | .nonFinal e rest => (call (restCall rest)).map (.nonFinal e)
  | .leaf type => some (.leaf type)
  | .entry tokens => (call (entryCall tokens)).map .closure

/-- Expand a call of the macro, with at most as many nested calls as the compiler allows. -/
def expand : Nat → List TokenTree → Option Expansion
  | 0, _ => none
  | limit + 1, ts => arm ts >>= Arm.transcribe (expand limit)

end DamlBindings.Macro
