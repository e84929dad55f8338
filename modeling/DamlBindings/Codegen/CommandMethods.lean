import DamlBindings.Codegen.EscapedNames
import DamlBindings.Codegen.RenderSafe

/-!
# Command methods

The methods of the choices of a template, and of the interfaces that it implements, are methods of
one struct.  The name of an interface in front of the name of its choice is meant to keep their
identifiers apart.
-/

namespace DamlBindings.Codegen

open Lf

/-- The identifiers of the methods in the impl blocks of the struct `FooContractId`. -/
def TemplateTokens.methods (t : TemplateTokens) : List String :=
  t.choices.2.map ChoiceTokens.method ++
    t.interfaceChoices.flatMap fun i => i.methods.map ChoiceTokens.method

/-- `to_snake_case` joins words of letters and digits with underscores: it leaves nothing that
`escape_identifier` replaces, and does not begin with an underscore. -/
structure JoinsWords (N : Naming) : Prop where
  sanitized : ∀ s, ∀ c ∈ (N.toSnakeCase s).toList, sanitizeChar c = c
  head : ∀ s, (N.toSnakeCase s).toList.head? ≠ some '_'

/-- The text, with an underscore in front if it begins with a digit. -/
def digitSafe (s : String) : String :=
  if (s.toList.head?.map Char.isDigit).getD false then "_" ++ s else s

/-- What the method of a choice of an interface is named after. -/
def interfaceStem (N : Naming) (i : DamlInterface) (c : DamlChoice) : String :=
  N.toSnakeCase i.name ++ "_" ++ N.toSnakeCase c.name

/-- No two choices of the template have names of one snake case, nor two choices of an interface;
and what the method of a choice of an interface is named after is no name of a choice of the
template in snake case, and not what a method of another interface is named after. -/
structure CommandsApart (N : Naming) (ctx : RenderContext) (t : DamlTemplate) : Prop where
  own : (t.choices.map fun c => N.toSnakeCase c.name).Nodup
  interface : ∀ i ∈ implementedInterfaces ctx t, (i.choices.map fun c => N.toSnakeCase c.name).Nodup
  ownInterface : ∀ c ∈ t.choices, ∀ i ∈ implementedInterfaces ctx t, ∀ d ∈ i.choices,
    digitSafe (N.toSnakeCase c.name) ≠ digitSafe (interfaceStem N i d)
  interfaces : (implementedInterfaces ctx t).Pairwise fun i j => ∀ c ∈ i.choices, ∀ d ∈ j.choices,
    digitSafe (interfaceStem N i c) ≠ digitSafe (interfaceStem N j d)

section Stems

variable {N : Naming} {ctx : RenderContext} {s s' : String}

/-- Only the digit in front of a command method is escaped. -/
lemma escapeIdentifier_command (h : ∀ c ∈ s.toList, sanitizeChar c = c) :
    escapeIdentifier (s ++ "_command") = digitSafe s ++ "_command" := by
  have hmap : (s ++ "_command").toList.map sanitizeChar = (s ++ "_command").toList := by
    refine (List.map_congr_left fun c hc => ?_).trans (List.map_id _)
    rw [String.toList_append, List.mem_append] at hc
    rcases hc with hc | hc
    · exact h c hc
    · have hall : ("_command".toList.all fun c => sanitizeChar c == c) = true := rfl
      exact eq_of_beq (List.all_eq_true.1 hall c hc)
  have hunderscored : underscored (s ++ "_command") = s ++ "_command" := by
    rw [underscored, hmap, String.ofList_toList]
  have hhead : ((s ++ "_command").toList.head?.map Char.isDigit).getD false =
      (s.toList.head?.map Char.isDigit).getD false := by
    rw [String.toList_append]
    rcases s.toList with - | ⟨c, cs⟩ <;> rfl
  by_cases hdigit : (s.toList.head?.map Char.isDigit).getD false = true
  · -- the prefix of a digit goes in front of the whole text
    rw [digitSafe, if_pos hdigit]
    rcases hs : (s ++ "_command").toList with - | ⟨c, cs⟩
    · rw [← hhead, hs] at hdigit
      cases hdigit
    · rw [← hhead, hs] at hdigit
      rw [escapeIdentifier_of_digit hs hdigit]
      rw [hs, List.map_cons, List.cons.injEq] at hmap
      rw [hmap.2, ← hs, show '_' :: (s ++ "_command").toList = ['_'] ++ (s ++ "_command").toList
        from rfl, String.ofList_append, String.ofList_toList, String.append_assoc]
  · -- the suffix has an underscore, so that the text is no keyword
    have hunder : '_' ∈ (s ++ "_command").toList := by
      rw [String.toList_append]
      exact List.mem_append_right _ (by decide)
    rw [Bool.not_eq_true] at hdigit
    rw [escapeIdentifier_eq (hhead.trans hdigit), hunderscored, escapeKeyword,
      if_neg fun hmem => underscore_notMem_keywords _ hmem hunder, digitSafe,
        if_neg (by simp [hdigit])]

/-- Names in snake case are told apart with the underscore in front of a digit. -/
lemma digitSafe_inj (hs : s.toList.head? ≠ some '_') (hs' : s'.toList.head? ≠ some '_') :
    digitSafe s = digitSafe s' ↔ s = s' := by
  have hhead : ∀ u : String, ("_" ++ u).toList.head? = some '_' := by
    intro u
    rw [String.toList_append]
    rfl
  constructor
  · intro h
    unfold digitSafe at h
    split_ifs at h
    · exact (String.append_right_inj "_").1 h
    · exact absurd (h ▸ hhead s) hs'
    · exact absurd (h ▸ hhead s') hs
    · exact h
  · rintro rfl
    rfl

lemma sanitized_interfaceStem (hN : JoinsWords N) (i : DamlInterface) (c : DamlChoice) :
    ∀ d ∈ (interfaceStem N i c).toList, sanitizeChar d = d := by
  intro d hd
  rw [interfaceStem, String.toList_append, String.toList_append, List.mem_append,
    List.mem_append] at hd
  rcases hd with (hd | hd) | hd
  · exact hN.sanitized i.name d hd
  · cases List.mem_singleton.1 hd
    rfl
  · exact hN.sanitized c.name d hd

/-- Within an interface the names of the choices tell the methods apart. -/
lemma digitSafe_interfaceStem_inj {i : DamlInterface} {c d : DamlChoice} :
    digitSafe (interfaceStem N i c) = digitSafe (interfaceStem N i d) ↔
      N.toSnakeCase c.name = N.toSnakeCase d.name := by
  have hhead : ∀ c : DamlChoice, ((interfaceStem N i c).toList.head?.map Char.isDigit).getD false =
      ((N.toSnakeCase i.name).toList.head?.map Char.isDigit).getD false := by
    intro c
    rw [interfaceStem, String.toList_append, String.toList_append]
    rcases (N.toSnakeCase i.name).toList with - | ⟨e, es⟩ <;> rfl
  constructor
  · intro h
    unfold digitSafe at h
    rw [hhead, hhead] at h
    split_ifs at h
    · exact (String.append_right_inj _).1 ((String.append_right_inj "_").1 h)
    · exact (String.append_right_inj _).1 h
  · intro h
    rw [interfaceStem, interfaceStem, h]

end Stems

section Methods

variable {N : Naming} {ctx : RenderContext}

/-- What the command methods of a template are named after. -/
def commandStems (N : Naming) (ctx : RenderContext) (t : DamlTemplate) : List String :=
  t.choices.map (fun c => N.toSnakeCase c.name) ++
    (implementedInterfaces ctx t).flatMap fun i => i.choices.map (interfaceStem N i)

lemma method_of_quoteChoiceWith {method : String} {choice : DamlChoice} {tokens : ChoiceTokens}
    (h : quoteChoiceWith N method choice = .ok tokens) :
    escapeIdentifier method = tokens.method := by
  obtain ⟨ident, hident, h⟩ := Except.bind_eq_ok.1 h
  rcases hf : choice.fields.head? with - | f
  · rw [hf] at h
    cases h
  · rw [hf] at h
    obtain ⟨argTy, -, h⟩ := Except.bind_eq_ok.1 h
    cases Except.pure_eq_ok.1 h
    exact (quoteEscapedIdent_eq_ok.1 hident).2

lemma methods_of_quoteChoiceWith {choices : List DamlChoice} {name : DamlChoice → String}
    {tokens : List ChoiceTokens}
    (h : choices.mapM (fun c => quoteChoiceWith N (name c) c) = .ok tokens) :
    choices.map (fun c => escapeIdentifier (name c)) = tokens.map ChoiceTokens.method :=
  (Except.map_eq_of_mapM h fun _ _ ht => (method_of_quoteChoiceWith ht).symm).symm

/-- The methods of an interface; an impl block that is left out has none. -/
lemma methods_of_quoteInterfaceChoices {templateName : String} {i : DamlInterface}
    {o : Option InterfaceChoicesTokens} (h : quoteInterfaceChoices N ctx templateName i = .ok o) :
    (i.choices.map fun c => escapeIdentifier (interfaceStem N i c ++ "_command")) =
      o.toList.flatMap fun t => t.methods.map ChoiceTokens.method := by
  obtain ⟨_, -, h⟩ := Except.bind_eq_ok.1 h
  obtain ⟨_, -, h⟩ := Except.bind_eq_ok.1 h
  obtain ⟨methods, hmethods, h⟩ := Except.bind_eq_ok.1 h
  cases Except.pure_eq_ok.1 h
  have hnames := methods_of_quoteChoiceWith hmethods
  rw [show (i.choices.map fun c => escapeIdentifier (interfaceStem N i c ++ "_command")) =
    methods.map ChoiceTokens.method from hnames]
  split_ifs with hempty
  · rw [List.isEmpty_iff.1 hempty]
    rfl
  · simp

lemma methods_of_quoteDamlTemplate {t : DamlTemplate} {tokens : TemplateTokens}
    (h : quoteDamlTemplate N ctx t = .ok tokens) :
    tokens.methods = (commandStems N ctx t).map fun s => escapeIdentifier (s ++ "_command") := by
  simp only [quoteDamlTemplate, quoteChoice, Except.bind_eq_ok, Except.pure_eq_ok] at h
  obtain ⟨record, -, _, -, _, -, _, ⟨methods, hmethods, _, -, rfl⟩, id, -, impls, -, os,
    hos, rfl⟩ := h
  have hown : t.choices.map (fun c => escapeIdentifier (N.toSnakeCase c.name ++ "_command")) =
      methods.map ChoiceTokens.method := by
    refine ((Except.mapM_eq_ok.1 hmethods).imp fun c tokens hc => ?_).map_eq
    obtain ⟨_, -, hc⟩ := Except.bind_eq_ok.1 hc
    exact method_of_quoteChoiceWith hc
  have hinterfaces : (implementedInterfaces ctx t).flatMap (fun i => i.choices.map fun c =>
      escapeIdentifier (interfaceStem N i c ++ "_command")) =
      os.flatMap fun o => o.toList.flatMap fun t => t.methods.map ChoiceTokens.method :=
    (Except.mapM_eq_ok.1 hos).flatMap_eq fun _ _ => methods_of_quoteInterfaceChoices
  -- an interface without choices has no impl block, and no methods either
  have hreduce : ∀ os : List (Option InterfaceChoicesTokens),
      os.reduceOption.flatMap (fun t => t.methods.map ChoiceTokens.method) =
        os.flatMap fun o => o.toList.flatMap fun t => t.methods.map ChoiceTokens.method := by
    intro os
    induction os with
    | nil => rfl
    | cons o os ih =>
      rcases o with - | t
      · simpa using ih
      · rw [List.reduceOption_cons_of_some, List.flatMap_cons, ih]
        simp
  rw [TemplateTokens.methods, commandStems, List.map_append, List.map_map, List.map_flatMap,
    hreduce, ← hinterfaces, ← hown]
  simp only [List.map_map]
  rfl

end Methods

/-- The command methods of a template have distinct identifiers if and only if the snake case of the
names of choices keeps them apart: within the template, within each interface, and where the name of
an interface is put in front. -/
theorem methods_nodup_iff {N : Naming} (hN : JoinsWords N) (ctx : RenderContext) (t : DamlTemplate)
    (tokens : TemplateTokens) (h : quoteDamlTemplate N ctx t = .ok tokens) :
    tokens.methods.Nodup ↔ CommandsApart N ctx t := by
  have hsanitized : ∀ s ∈ commandStems N ctx t, ∀ c ∈ s.toList, sanitizeChar c = c := by
    intro s hs
    rw [commandStems, List.mem_append] at hs
    rcases hs with hs | hs
    · obtain ⟨c, -, rfl⟩ := List.mem_map.1 hs
      exact hN.sanitized c.name
    · obtain ⟨i, -, hs⟩ := List.mem_flatMap.1 hs
      obtain ⟨c, -, rfl⟩ := List.mem_map.1 hs
      exact sanitized_interfaceStem hN i c
  have hescaped : (commandStems N ctx t).map (fun s => escapeIdentifier (s ++ "_command")) =
      ((commandStems N ctx t).map digitSafe).map (· ++ "_command") := by
    rw [List.map_map]
    exact List.map_congr_left fun s hs => escapeIdentifier_command (hsanitized s hs)
  -- the suffix is the same for all methods, so that what it is added to decides
  have hsuffix : Function.Injective (· ++ "_command" : String → String) :=
    fun _ _ heq => (String.append_left_inj _).1 heq
  rw [methods_of_quoteDamlTemplate h, hescaped, List.nodup_map_iff hsuffix, commandStems,
    List.map_append, List.map_map, List.map_flatMap, List.nodup_append', List.nodup_flatMap]
  have hown : (t.choices.map (digitSafe ∘ fun c => N.toSnakeCase c.name)).Nodup ↔
      (t.choices.map fun c => N.toSnakeCase c.name).Nodup := by
    unfold List.Nodup
    rw [List.pairwise_map, List.pairwise_map]
    simp only [Function.comp_apply, ne_eq, digitSafe_inj (hN.head _) (hN.head _)]
  have hinterface : ∀ i : DamlInterface, ((i.choices.map (interfaceStem N i)).map digitSafe).Nodup ↔
      (i.choices.map fun c => N.toSnakeCase c.name).Nodup := by
    intro i
    unfold List.Nodup
    rw [List.map_map, List.pairwise_map, List.pairwise_map]
    simp only [Function.comp_apply, ne_eq, digitSafe_interfaceStem_inj]
  simp only [hown, hinterface]
  have hmem : ∀ (i : DamlInterface) (s : String),
      s ∈ (i.choices.map (interfaceStem N i)).map digitSafe ↔
        ∃ d ∈ i.choices, digitSafe (interfaceStem N i d) = s := by
    intro i s
    rw [List.map_map, List.mem_map]
    rfl
  constructor
  · rintro ⟨hown, ⟨hinterface, hpair⟩, hdisjoint⟩
    refine ⟨hown, hinterface, fun c hc i hi d hd heq => ?_,
      hpair.imp fun {i j} hij c hc d hd heq => ?_⟩
    · refine hdisjoint (List.mem_map_of_mem hc) (List.mem_flatMap.2 ⟨i, hi, ?_⟩)
      exact (hmem i _).2 ⟨d, hd, heq.symm⟩
    · exact hij ((hmem i _).2 ⟨c, hc, rfl⟩) ((hmem j _).2 ⟨d, hd, heq.symm⟩)
  · intro hapart
    refine ⟨hapart.own, ⟨hapart.interface, hapart.interfaces.imp fun {i j} hij s hi hj => ?_⟩,
      fun s hs hs' => ?_⟩
    · obtain ⟨c, hc, rfl⟩ := (hmem i s).1 hi
      obtain ⟨d, hd, heq⟩ := (hmem j _).1 hj
      exact hij c hc d hd heq.symm
    · obtain ⟨c, hc, rfl⟩ := List.mem_map.1 hs
      obtain ⟨i, hi, hs'⟩ := List.mem_flatMap.1 hs'
      obtain ⟨d, hd, heq⟩ := (hmem i _).1 hs'
      exact hapart.ownInterface c hc i hi d hd heq.symm

/-! ### A choice that is named like one of an interface -/

/-- The case conversions on words of ASCII that are joined with underscores. -/
def joinNaming : Naming :=
  { asciiNaming with
    toSnakeCase := fun value =>
      String.ofList ((asciiNaming.toSnakeCase value).toList.dropWhile (· == '_')) }

lemma joinsWords_joinNaming : JoinsWords joinNaming where
  sanitized := by
    intro s c hc
    rw [show joinNaming.toSnakeCase s = String.ofList _ from rfl, String.toList_ofList] at hc
    have hc := (List.dropWhile_sublist _).subset hc
    rw [show asciiNaming.toSnakeCase s = String.ofList _ from rfl, String.toList_ofList] at hc
    exact sanitizeChar_of_isWordChar (List.mem_filter.1 hc).2
  head := by
    intro s hs
    rw [show joinNaming.toSnakeCase s = String.ofList _ from rfl, String.toList_ofList] at hs
    generalize (asciiNaming.toSnakeCase s).toList = cs at hs
    have h := List.head?_dropWhile_not (· == '_') cs
    simp [hs] at h

/-- A choice without data. -/
def plainChoice (name : String) : DamlChoice where
  name := name
  packageId := "pkg"
  modulePath := ["Main"]
  fields := [⟨"arg", .unit⟩]
  returnType := .unit
  consuming := true
  selfBinder := "self"
  update := .primLit (.text "")
  controllers := .nil .party
  observers := .nil .party

/-- An interface with the choice `Transfer`. -/
def assetInterface : DamlInterface :=
  ⟨"Asset", "pkg", ["Main"], "this", [], [plainChoice "Transfer"], .unit, []⟩

/-- A template with one choice that implements the interface. -/
def cashTemplate (choice : String) : DamlTemplate where
  name := "Cash"
  packageId := "pkg"
  modulePath := ["Main"]
  fields := []
  choices := [plainChoice choice]
  param := "this"
  implements := [.localTyCon ⟨"Asset", "pkg", "cash", ["Main"]⟩]
  precond := none
  signatories := .nil .party
  agreement := .primLit (.text "")
  observers := .nil .party
  key := none
  serializable := true

/-- An archive with the interface. -/
def assetContext : RenderContext :=
  ⟨⟨"cash", "pkg", [("pkg", ⟨"cash", "pkg", none,
    .node (.newEmpty []) [("Main", .node
      { DamlModuleBody.newEmpty ["Main"] with interfaces := [("Asset", assetInterface)] } [])]⟩)]⟩,
    .higherKindedType⟩

lemma exists_cashTokens : ∀ choice ∈ ["Merge", "Asset_Transfer"],
    ∃ tokens, quoteDamlTemplate joinNaming assetContext (cashTemplate choice) = .ok tokens := by
  have hok : ∀ choice ∈ ["Merge", "Asset_Transfer"],
      (quoteDamlTemplate joinNaming assetContext (cashTemplate choice)).isOk = true := by
    decide +kernel
  intro choice hchoice
  have h := hok choice hchoice
  rcases htokens : quoteDamlTemplate joinNaming assetContext (cashTemplate choice) with e | tokens
  · rw [htokens] at h
    cases h
  · exact ⟨tokens, rfl⟩

theorem methods_nodup_iff_cash : JoinsWords joinNaming ∧
    ∃ tokens, quoteDamlTemplate joinNaming assetContext (cashTemplate "Merge") = .ok tokens ∧
      (tokens.methods.Nodup ↔ CommandsApart joinNaming assetContext (cashTemplate "Merge")) := by
  obtain ⟨tokens, h⟩ := exists_cashTokens "Merge" (by decide)
  exact ⟨joinsWords_joinNaming, tokens, h,
    methods_nodup_iff joinsWords_joinNaming assetContext _ tokens h⟩

/-- The choice `Asset_Transfer` and the choice `Transfer` of the interface `Asset` are both
exercised by `asset_transfer_command`. -/
theorem not_methods_nodup_cash :
    ¬ ∀ (N : Naming) (ctx : RenderContext) (t : DamlTemplate) (tokens : TemplateTokens),
      JoinsWords N → (t.choices.map DamlChoice.name).Nodup → (implementedInterfaces ctx t).Nodup →
      (∀ i ∈ implementedInterfaces ctx t, (i.choices.map DamlChoice.name).Nodup) →
      quoteDamlTemplate N ctx t = .ok tokens → tokens.methods.Nodup := by
  intro hall
  have hinterfaces : implementedInterfaces assetContext (cashTemplate "Asset_Transfer") =
      [assetInterface] := rfl
  obtain ⟨tokens, htokens⟩ := exists_cashTokens "Asset_Transfer" (by decide)
  have h :=
    hall joinNaming assetContext (cashTemplate "Asset_Transfer") tokens joinsWords_joinNaming
    (List.nodup_singleton _) (by rw [hinterfaces]; exact List.nodup_singleton _)
    (by
      rw [hinterfaces]
      exact List.forall_mem_singleton.2 (List.nodup_singleton _))
    htokens
  rw [methods_of_quoteDamlTemplate htokens] at h
  revert h
  decide +kernel

end DamlBindings.Codegen
