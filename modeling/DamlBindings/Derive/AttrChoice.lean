import DamlBindings.Codegen.RenderSafe
import DamlBindings.Derive.AttrType
import DamlBindings.Grpc.Value

/-!
# The choice macro

`daml-derive/src/convert/attr_choice.rs` reads the methods of an impl block, and the macro hands
them to the renderer of the choices of an archive.  That renderer takes the first field of a choice
for the type of its whole argument, where the macro has put the parameters of the method.
-/

namespace DamlBindings.Derive

open Lf Codegen Grpc

/-! ### The impl block as `syn` parses it -/

/-- A parameter of a function; of its pattern, the identifier that it may be. -/
inductive FnArg
  | receiver
  | typed (pat : Option String) (ty : SynType)

/-- An item of an impl block: a function with the paths of its attributes, each by the segments in
front of the last one and the last one, with its parameters and the type it returns, or an item of
another kind. -/
inductive ImplItem
  | fn (attrs : List (List String × String)) (inputs : List FnArg) (output : Option SynType)
  | other

/-- The impl block that the macro is applied to. -/
structure ItemImpl where
  selfTy : SynType
  items : List ImplItem

/-! ### Conversion -/

/-- `AttrChoice` -/
structure AttrChoice where
  name : String
  arguments : List AttrField
  returnType : AttrType

/-- `simple_method_name_and_type` -/
def simpleMethodNameAndType : FnArg → Option (DeriveResult AttrField)
  | .typed (some ident) (.path front name args) =>
    some (AttrField.mk ident <$> fromType (.path front name args))
  | _ => none

/-- `output_type` -/
def outputType : Option SynType → DeriveResult AttrType
  | none => .ok .unit
  | some ty => fromType ty

/-- `get_single_attr_method` -/
def getSingleAttrMethod : ImplItem → DeriveResult (Option AttrChoice)
  | .fn [(front, ident)] inputs output => do
    let name ← dataTypeStringFromPath front ident []
    let arguments ← (inputs.filterMap simpleMethodNameAndType).mapM id
    let returnType ← outputType output
    pure (some ⟨name, arguments, returnType⟩)
  | _ => pure none

/-- `extract_all_choices` -/
def extractAllChoices (items : List ImplItem) : DeriveResult (List AttrChoice) := do
  let choices ← items.mapM getSingleAttrMethod
  pure choices.reduceOption

/-- `From<&AttrChoice> for DamlChoice`, with the defaults of `DamlChoice::new_with_default`. -/
def AttrChoice.toDamlChoice (c : AttrChoice) : DamlChoice where
  name := c.name
  packageId := ""
  modulePath := []
  fields := c.arguments.map AttrField.toDamlField
  returnType := toDamlType c.returnType
  consuming := false
  selfBinder := ""
  update := .nil (.list [.party])
  controllers := .nil (.list [.party])
  observers := .nil (.list [.party])

/-- `generate_choices` -/
def generateChoices (N : Naming) (input : ItemImpl) :
    DeriveResult (String × List ChoiceTokens) := do
  let structName ← dataTypeStringFromType input.selfTy
  let allChoices ← extractAllChoices input.items
  rendered (quoteChoice N structName (allChoices.map AttrChoice.toDamlChoice))

/-! ### The documented format -/

/-- A parameter of a choice method, whose type is a path. -/
structure Param where
  label : String
  front : List String
  ident : String
  args : List SynType

def Param.ty (p : Param) : SynType := .path p.front p.ident p.args

/-- The method `#[choice] fn name(&self, params) {}`. -/
structure ChoiceMethod where
  choice : String
  params : List Param

def ChoiceMethod.item (m : ChoiceMethod) : ImplItem :=
  .fn [([], m.choice)] (.receiver :: m.params.map fun p => .typed (some p.label) p.ty) none

/-- The impl block of a template with its choice methods. -/
def choicesBlock (template : String) (methods : List ChoiceMethod) : ItemImpl :=
  ⟨.path [] template [], methods.map ChoiceMethod.item⟩

/-- The name of a struct, which none of the Daml types of the prelude has. -/
def IsStructName (s : String) : Prop :=
  IsDamlIdentifier s ∧ fromType (.path [] s []) = .ok (.tyCon s [] [])

/-! ### Commands -/

variable {V B D T : Type}

/-- The choice and the argument of the command that a method makes of what its arguments serialise
to.  The method has one parameter, and sends it as it is. -/
def exercise (c : ChoiceTokens) : List V → Option (String × V)
  | [arg] => some (c.choice, arg)
  | _ => none

/-- The fields of the argument of a choice, given what the parameters serialise to. -/
def ChoiceMethod.fields (m : ChoiceMethod) (values : List V) : List (DamlRecordField V) :=
  List.zipWith (fun p v => ⟨some p.label, v⟩) m.params values

/-- Called with one argument for each parameter, the method exercises the choice with the record of
the parameters. -/
def Encodes (B D T : Type) (m : ChoiceMethod) (c : ChoiceTokens) : Prop :=
  ∀ values : List (DamlValue B D T), values.length = m.params.length →
    ∃ recordId, exercise c values = some (m.choice, .record ⟨recordId, m.fields values⟩)

/-- No argument is the record with that argument in it, whatever the parameters serialise to. -/
lemma exercise_ne_record {m : ChoiceMethod} {c : ChoiceTokens} {values : List (DamlValue B D T)}
    (hlength : values.length = m.params.length) (recordId : Option DamlIdentifier) :
    exercise c values ≠ some (m.choice, .record ⟨recordId, m.fields values⟩) := by
  intro h
  match values, h with
  | [v], h =>
    obtain ⟨p, hp⟩ := List.length_eq_one_iff.1 hlength.symm
    simp only [exercise, ChoiceMethod.fields, hp, List.zipWith_cons_cons, List.zipWith_nil_left,
      Option.some.injEq, Prod.mk.injEq] at h
    have hsize := congrArg sizeOf h.2
    simp only [DamlValue.record.sizeOf_spec, Grpc.DamlRecord.mk.sizeOf_spec, List.cons.sizeOf_spec,
      DamlRecordField.mk.sizeOf_spec] at hsize
    omega

lemma not_encodes (m : ChoiceMethod) (c : ChoiceTokens) : ¬ Encodes B D T m c := by
  intro h
  have hlength := List.length_replicate (n := m.params.length) (a := (.unit : DamlValue B D T))
  obtain ⟨recordId, hrecord⟩ := h _ hlength
  exact exercise_ne_record hlength recordId hrecord

/-! ### What the macro expands to -/

section Expand

variable {N : Naming}

/-- The choice that is read of a method: the one its attribute names, with all its parameters. -/
def ReadsAs (m : ChoiceMethod) (c : AttrChoice) : Prop :=
  c.name = m.choice ∧
    List.Forall₂ (fun p f => f.fieldLabel = p.label ∧ fromType p.ty = .ok f.fieldType)
      m.params c.arguments

/-- The method that is rendered for a choice: its argument has the type of the first parameter. -/
def TakesFirst (N : Naming) (m : ChoiceMethod) (c : ChoiceTokens) : Prop :=
  c.choice = m.choice ∧ ∃ p ty, m.params.head? = some p ∧ fromType p.ty = .ok ty ∧
    quoteType N (toDamlType ty) = .ok c.argTy

lemma readsAs_of_getSingleAttrMethod {m : ChoiceMethod} {o : Option AttrChoice}
    (h : getSingleAttrMethod m.item = .ok o) : ∃ c, o = some c ∧ ReadsAs m c := by
  obtain ⟨name, hname, h⟩ := Except.bind_eq_ok.1 h
  obtain ⟨arguments, harguments, h⟩ := Except.bind_eq_ok.1 h
  obtain ⟨returnType, -, h⟩ := Except.bind_eq_ok.1 h
  cases h
  refine ⟨_, rfl, eq_of_dataTypeStringFromPath hname, ?_⟩
  -- the receiver is dropped, and each parameter is an identifier with a path
  have hparams : (FnArg.receiver :: m.params.map fun p => .typed (some p.label) p.ty).filterMap
      simpleMethodNameAndType =
        m.params.map fun p => AttrField.mk p.label <$> fromType p.ty := by
    rw [List.filterMap_cons_none rfl, List.filterMap_map, ← List.filterMap_eq_map]
    rfl
  rw [hparams] at harguments
  refine (List.forall₂_map_left_iff.1 (Except.mapM_eq_ok.1 harguments)).imp fun p f hf => ?_
  obtain ⟨ty, hty, rfl⟩ := Except.map_eq_ok.1 hf
  exact ⟨rfl, hty⟩

lemma readsAs_of_extractAllChoices {methods : List ChoiceMethod} {choices : List AttrChoice}
    (h : extractAllChoices (methods.map ChoiceMethod.item) = .ok choices) :
    List.Forall₂ ReadsAs methods choices := by
  obtain ⟨os, hos, h⟩ := Except.bind_eq_ok.1 h
  cases h
  have hread : List.Forall₂ (fun m o => ∃ c, o = some c ∧ ReadsAs m c) methods os :=
    (List.forall₂_map_left_iff.1 (Except.mapM_eq_ok.1 hos)).imp fun _ _ =>
      readsAs_of_getSingleAttrMethod
  clear h hos
  induction hread with
  | nil => exact .nil
  | cons hm _ ih =>
    obtain ⟨c, rfl, hc⟩ := hm
    exact .cons hc ih

/-- The renderer looks at the first field alone. -/
lemma takesFirst_of_quoteChoiceMethod {template : String} {m : ChoiceMethod} {a : AttrChoice}
    {c : ChoiceTokens} (ha : ReadsAs m a)
    (h : quoteChoiceMethod N template a.toDamlChoice = .ok c) : TakesFirst N m c := by
  obtain ⟨_, params⟩ := m
  obtain ⟨_, arguments, _⟩ := a
  obtain ⟨rfl, harguments⟩ := ha
  obtain ⟨_, -, h⟩ := Except.bind_eq_ok.1 h
  obtain ⟨_, -, h⟩ := Except.bind_eq_ok.1 h
  obtain _ | ⟨⟨-, hty⟩, -⟩ := harguments
  · cases h
  · obtain ⟨argTy, hargTy, h⟩ := Except.bind_eq_ok.1 h
    cases h
    exact ⟨rfl, _, _, rfl, hty, hargTy⟩

/-- Each method is rendered, and takes its first parameter only. -/
lemma takesFirst_of_generateChoices {template : String} {methods : List ChoiceMethod}
    {tokens : String × List ChoiceTokens}
    (h : generateChoices N (choicesBlock template methods) = .ok tokens) :
    List.Forall₂ (TakesFirst N) methods tokens.2 := by
  obtain ⟨structName, -, h⟩ := Except.bind_eq_ok.1 h
  obtain ⟨choices, hchoices, h⟩ := Except.bind_eq_ok.1 h
  obtain ⟨ms, hms, h⟩ := Except.bind_eq_ok.1 (rendered_eq_ok.1 h)
  obtain ⟨contractIdName, -, h⟩ := Except.bind_eq_ok.1 h
  cases h
  refine (readsAs_of_extractAllChoices hchoices).trans_of_mem
    (List.forall₂_map_left_iff.1 (Except.mapM_eq_ok.1 hms)) fun m _ a c ha hc => ?_
  exact takesFirst_of_quoteChoiceMethod ha hc

/-- A method without parameters makes the macro panic. -/
lemma params_ne_nil_of_generateChoices {template : String} {methods : List ChoiceMethod}
    {tokens : String × List ChoiceTokens}
    (h : generateChoices N (choicesBlock template methods) = .ok tokens) :
    ∀ m ∈ methods, m.params ≠ [] := by
  intro m hm hnil
  obtain ⟨c, -, -, p, ty, hp, -⟩ := (takesFirst_of_generateChoices h).exists_right hm
  rw [hnil] at hp
  cases hp

/-- The block without methods is expanded to an empty one. -/
lemma generateChoices_nil (hN : N.Documented) {template : String} (h : IsStructName template) :
    ∃ name, generateChoices N (choicesBlock template []) = .ok (name, []) := by
  obtain ⟨hidentifier, hread⟩ := h
  have hname : dataTypeStringFromType (.path [] template []) = .ok template := by
    have hty : damlTypeFromSegments [] template (fromTypes []) = _ := hread
    rw [dataTypeStringFromType, dataTypeStringFromPath, hty]
    rfl
  have hsuffix : IsText "ContractId" := List.all_eq_true.1 rfl
  obtain ⟨name, hquotes⟩ := quotes_append hN hidentifier.isText hsuffix (by decide)
  refine ⟨name, Except.bind_eq_ok.2 ⟨template, hname, ?_⟩⟩
  refine Except.bind_eq_ok.2 ⟨[], rfl, rendered_eq_ok.2 ?_⟩
  exact Except.bind_eq_ok.2 ⟨[], rfl, Except.bind_eq_ok.2 ⟨name, hquotes, rfl⟩⟩

/-- The macro expands a block, without a panic and to methods that send the record of their
parameters, only if the block has no methods: it panics at a method without parameters, and whatever
the parameters serialise to, no method that is rendered sends their record. -/
theorem choices_encode_iff (hN : N.Documented) {template : String}
    (htemplate : IsStructName template) (methods : List ChoiceMethod) :
    ((∃ tokens, generateChoices N (choicesBlock template methods) = .ok tokens ∧
        List.Forall₂ (Encodes B D T) methods tokens.2) ↔ methods = []) ∧
      ∀ tokens, generateChoices N (choicesBlock template methods) = .ok tokens →
        (∀ m ∈ methods, m.params ≠ []) ∧
          List.Forall₂ (fun m c => TakesFirst N m c ∧
            ∀ values : List (DamlValue B D T), values.length = m.params.length → ∀ recordId,
              exercise c values ≠ some (m.choice, .record ⟨recordId, m.fields values⟩))
            methods tokens.2 := by
  refine ⟨⟨?_, ?_⟩, fun tokens h => ?_⟩
  · rintro ⟨⟨name, cs⟩, -, hencodes⟩
    cases hencodes with
    | nil => rfl
    | cons h _ => exact absurd h (not_encodes _ _)
  · rintro rfl
    obtain ⟨name, hname⟩ := generateChoices_nil hN htemplate
    exact ⟨_, hname, .nil⟩
  · refine ⟨params_ne_nil_of_generateChoices h, ?_⟩
    exact (takesFirst_of_generateChoices h).imp fun m c hfirst =>
      ⟨hfirst, fun _ hlength => exercise_ne_record hlength⟩

/-- The choice `ResetCount` of the documentation, with the parameter `new_count: DamlInt64`. -/
def resetCount : ChoiceMethod := ⟨"ResetCount", [⟨"new_count", [], "DamlInt64", []⟩]⟩

/-- The template `Ping` is expanded without choices, and with the choice `ResetCount` to a method
that does not send a record. -/
theorem choices_encode_iff_ping :
    (∃ tokens, generateChoices asciiNaming (choicesBlock "Ping" []) = .ok tokens ∧
      List.Forall₂ (Encodes Int Int Int) [] tokens.2) ∧
    ∃ name c, generateChoices asciiNaming (choicesBlock "Ping" [resetCount]) = .ok (name, [c]) ∧
      TakesFirst asciiNaming resetCount c ∧
        ∀ recordId, exercise c [(.int64 7 : DamlValue Int Int Int)] ≠
          some ("ResetCount", .record ⟨recordId, [⟨some "new_count", .int64 7⟩]⟩) := by
  have hname : IsStructName "Ping" := ⟨⟨List.all_eq_true.1 rfl, 'P', rfl, rfl⟩, rfl⟩
  refine ⟨(choices_encode_iff documented_asciiNaming hname []).1.2 rfl, ?_⟩
  refine ⟨_, _, rfl, ?_⟩
  obtain ⟨-, _ | ⟨⟨hfirst, hnot⟩, -⟩⟩ :=
    (choices_encode_iff documented_asciiNaming hname [resetCount]).2 _ rfl
  exact ⟨hfirst, hnot [.int64 7] rfl⟩

/-- The method that the macro makes of `ResetCount` sends the number itself, not the record with
the field `new_count`. -/
theorem resetCount_not_encoded :
    ¬ ∀ methods : List ChoiceMethod, ∃ tokens,
      generateChoices asciiNaming (choicesBlock "Ping" methods) = .ok tokens ∧
        List.Forall₂ (Encodes Int Int Int) methods tokens.2 := by
  intro h
  obtain ⟨⟨name, cs⟩, -, hencodes⟩ := h [resetCount]
  cases hencodes with
  | cons hm _ =>
    obtain ⟨recordId, hrecord⟩ := hm [.int64 7] rfl
    have hargument := congrArg (Option.map Prod.snd) hrecord
    cases hargument

end Expand

end DamlBindings.Derive
