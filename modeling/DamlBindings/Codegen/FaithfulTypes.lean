import DamlBindings.Codegen.Renders

/-!
# Faithful types

A Daml type stands for a Rust type: the constructor that the bindings have for it, or the path to
the data type that is generated for it, applied to what its arguments stand for.  The renderer
spells this type unless it drops an argument.
-/

namespace DamlBindings.Codegen

open Lf Worklist

/-! ### The Rust type of a constructor -/

/-- The module that a path leads to from the module `here`; both are paths from the crate. -/
def RustPath.target (here : List String) (p : RustPath) : Option (List String) :=
  match p.start with
  | .here => some (here ++ p.segments)
  | .crate => some p.segments
  | .supers n =>
    if n ≤ here.length then some (here.take (here.length - n) ++ p.segments) else none

/-- The module of the generated code for a module of a package. -/
def rustModule (N : Naming) (packageName : String) (modulePath : List String) : List String :=
  (packageName :: modulePath).map (toRustIdentifier N)

/-- The path leads to the data type with the name, from the module that the name is used in. -/
inductive LeadsTo (N : Naming) : DamlTyConName → RustPath → Prop
  | localTyCon {c : DamlLocalTyCon} :
      LeadsTo N (.localTyCon c) (.name (escapeIdentifier c.dataName))
  | nonLocal {c : DamlNonLocalTyCon} {p : RustPath} (ident : p.ident = escapeIdentifier c.dataName)
      (target : p.target (rustModule N c.sourcePackageName c.sourceModulePath) =
        some (rustModule N c.targetPackageName c.targetModulePath)) : LeadsTo N (.nonLocal c) p
  | absolute {c : DamlAbsoluteTyCon} {p : RustPath} (ident : p.ident = escapeIdentifier c.dataName)
      (start : p.start = .crate) (segments : p.segments = if c.packageName = "" then
        c.modulePath.map (toRustIdentifier N) else rustModule N c.packageName c.modulePath) :
      LeadsTo N (.absolute c) p

/-- The Rust type that a Daml type stands for, besides the arguments. -/
inductive StandsFor (N : Naming) : DamlType → TypeHead → Prop
  | list {args : List DamlType} : StandsFor N (.list args) (.path (.name "DamlList"))
  | optional {args : List DamlType} : StandsFor N (.optional args) (.path (.name "DamlOptional"))
  | numeric {args : List DamlType} : StandsFor N (.numeric args) (.path (.name "DamlFixedNumeric"))
  | textMap {args : List DamlType} : StandsFor N (.textMap args) (.path (.name "DamlTextMap"))
  | genMap {args : List DamlType} : StandsFor N (.genMap args) (.path (.name "DamlGenMap"))
  | contractId {inner : Option DamlType} :
      StandsFor N (.contractId inner) (.path (.name "DamlContractId"))
  | int64 : StandsFor N .int64 (.path (.name "DamlInt64"))
  | text : StandsFor N .text (.path (.name "DamlText"))
  | timestamp : StandsFor N .timestamp (.path (.name "DamlTimestamp"))
  | party : StandsFor N .party (.path (.name "DamlParty"))
  | bool : StandsFor N .bool (.path (.name "DamlBool"))
  | unit : StandsFor N .unit (.path (.name "DamlUnit"))
  | date : StandsFor N .date (.path (.name "DamlDate"))
  | nat {n : Nat} : StandsFor N (.nat n) (.path (.name ("Nat" ++ toString n)))
  | var {v : String} {args : List DamlType} :
      StandsFor N (.var v args) (.var (N.toUppercase (sanitizeVarName v)))
  | tyCon {n : DamlTyConName} {args : List DamlType} {p : RustPath} (path : LeadsTo N n p) :
      StandsFor N (.tyCon n args) (.path p)
  | boxedTyCon {n : DamlTyConName} {args : List DamlType} {p : RustPath} (path : LeadsTo N n p) :
      StandsFor N (.boxedTyCon n args) (.box p)

/-- The tokens spell the Rust type that a Daml type stands for, applied to the tokens of all its
arguments in order. -/
inductive Faithful (N : Naming) : DamlType → TypeTokens → Prop
  | intro {t : DamlType} {head : TypeHead} {args : List TypeTokens} (stands : StandsFor N t head)
      (length_eq : args.length = t.arguments.length)
      (args_eq : ∀ p ∈ t.arguments.zip args, Faithful N p.1 p.2) : Faithful N t (head.apply args)

/-- The names that the constructor of a type is rendered with. -/
def headNames (N : Naming) (t : DamlType) : List String :=
  match t with
  | .tyCon n _ | .boxedTyCon n _ =>
    escapeIdentifier n.dataName :: (tyconSegments N n).map escapeIdentifier
  | .var v _ => [N.toUppercase (sanitizeVarName v)]
  | .nat n => ["Nat" ++ toString n]
  | .list _ => ["DamlList"]
  | .optional _ => ["DamlOptional"]
  | .numeric _ => ["DamlFixedNumeric"]
  | .textMap _ => ["DamlTextMap"]
  | .genMap _ => ["DamlGenMap"]
  | .contractId _ => ["DamlContractId"]
  | .int64 => ["DamlInt64"]
  | .text => ["DamlText"]
  | .timestamp => ["DamlTimestamp"]
  | .party => ["DamlParty"]
  | .bool => ["DamlBool"]
  | .unit => ["DamlUnit"]
  | .date => ["DamlDate"]
  | _ => []

section Head

variable {N : Naming}

/-! ### What the renderer names -/

lemma commonPrefixLength_le (path path' : List String) :
    commonPrefixLength path path' ≤ path.length := by
  refine (List.takeWhile_sublist _).length_le.trans ?_
  rw [List.length_zip]
  exact Nat.min_le_left _ _

/-- Up to the common length, two paths are the same. -/
lemma take_commonPrefixLength (path path' : List String) :
    path.take (commonPrefixLength path path') = path'.take (commonPrefixLength path path') := by
  induction path generalizing path' with
  | nil => simp [commonPrefixLength]
  | cons s path ih =>
    rcases path' with _ | ⟨s', path'⟩
    · simp [commonPrefixLength]
    by_cases heq : s = s'
    · subst heq
      have hlength : commonPrefixLength (s :: path) (s :: path') =
          commonPrefixLength path path' + 1 := by
        simp [commonPrefixLength]
      rw [hlength, List.take_succ_cons, List.take_succ_cons, ih]
    · have hlength : commonPrefixLength (s :: path) (s' :: path') = 0 := by
        simp [commonPrefixLength, heq]
      rw [hlength, List.take_zero, List.take_zero]

lemma rustModule_eq (packageName : String) (modulePath : List String) :
    rustModule N packageName modulePath =
      ((packageName :: modulePath).map N.toSnakeCase).map escapeIdentifier := by
  rw [List.map_map]
  rfl

/-- As many `super` as there are segments behind the common front, and the segments of the target
behind it, lead from the one module to the other. -/
lemma target_supers {here there : List String} {p : RustPath}
    (hstart : p.start = .supers (here.length - commonPrefixLength here there))
    (hsegments : p.segments =
      (there.drop (commonPrefixLength here there)).map escapeIdentifier) :
    p.target (here.map escapeIdentifier) = some (there.map escapeIdentifier) := by
  have hle := commonPrefixLength_le here there
  have hback : here.length - (here.length - commonPrefixLength here there) =
      commonPrefixLength here there := by omega
  rw [RustPath.target, hstart, hsegments]
  simp only [List.length_map, Nat.sub_le, if_true, hback]
  rw [← List.map_take, take_commonPrefixLength, ← List.map_append, List.take_append_drop]

/-- The path that is rendered for a name leads to its data type. -/
lemma leadsTo_of_quoteTyconName {n : DamlTyConName} {p : RustPath}
    (h : quoteTyconName N n = .ok p) : LeadsTo N n p := by
  cases n with
  | localTyCon c =>
    obtain ⟨ident, hident, rfl⟩ := Except.map_eq_ok.1 h
    rw [← (quoteEscapedIdent_eq_ok.1 hident).2]
    exact .localTyCon
  | nonLocal c =>
    obtain ⟨ident, hident, h⟩ := Except.bind_eq_ok.1 h
    obtain ⟨segments, hsegments, h⟩ := Except.bind_eq_ok.1 h
    cases h
    refine .nonLocal (quoteEscapedIdent_eq_ok.1 hident).2.symm ?_
    rw [rustModule_eq, rustModule_eq]
    refine target_supers (by rw [List.length_map]) ?_
    have hids := Except.map_eq_of_mapM (g := id) hsegments fun _ _ hs =>
      (quoteEscapedIdent_eq_ok.1 hs).2.symm
    rwa [List.map_id] at hids
  | absolute c =>
    obtain ⟨ident, hident, h⟩ := Except.bind_eq_ok.1 h
    obtain ⟨segments, hsegments, h⟩ := Except.bind_eq_ok.1 h
    cases h
    refine .absolute (quoteEscapedIdent_eq_ok.1 hident).2.symm rfl ?_
    rw [← (quotePathSegments_eq_ok.1 hsegments).1, cratePath]
    simp only [String.isEmpty_iff]
    split_ifs <;> rfl

/-- The constructor that is rendered for a type is the Rust type that it stands for. -/
lemma standsFor_of_quoteHead {t : DamlType} {head : TypeHead} (h : quoteHead N t = .ok head) :
    StandsFor N t head := by
  have hname : ∀ name : String, escapeIdentifier name = name →
      (fun ident => TypeHead.path (.name ident)) <$> quoteEscapedIdent N name = .ok head →
      head = .path (.name name) := by
    intro name hescape h
    obtain ⟨ident, hident, rfl⟩ := Except.map_eq_ok.1 h
    rw [← (quoteEscapedIdent_eq_ok.1 hident).2, hescape]
  cases t with
  | tyCon n args =>
    obtain ⟨p, hp, rfl⟩ := Except.map_eq_ok.1 h
    exact .tyCon (leadsTo_of_quoteTyconName hp)
  | boxedTyCon n args =>
    obtain ⟨p, hp, rfl⟩ := Except.map_eq_ok.1 h
    exact .boxedTyCon (leadsTo_of_quoteTyconName hp)
  | var v args =>
    obtain ⟨ident, hident, rfl⟩ := Except.map_eq_ok.1 h
    rw [← (quoteIdent_eq_ok.1 hident).2]
    exact .var
  | nat n =>
    obtain ⟨ident, hident, rfl⟩ := Except.map_eq_ok.1 h
    rw [← (quoteIdent_eq_ok.1 hident).2]
    exact .nat
  | list args => exact hname "DamlList" rfl h ▸ .list
  | optional args => exact hname "DamlOptional" rfl h ▸ .optional
  | numeric args => exact hname "DamlFixedNumeric" rfl h ▸ .numeric
  | textMap args => exact hname "DamlTextMap" rfl h ▸ .textMap
  | genMap args => exact hname "DamlGenMap" rfl h ▸ .genMap
  | contractId inner => exact hname "DamlContractId" rfl h ▸ .contractId
  | int64 => exact hname "DamlInt64" rfl h ▸ .int64
  | text => exact hname "DamlText" rfl h ▸ .text
  | timestamp => exact hname "DamlTimestamp" rfl h ▸ .timestamp
  | party => exact hname "DamlParty" rfl h ▸ .party
  | bool => exact hname "DamlBool" rfl h ▸ .bool
  | unit => exact hname "DamlUnit" rfl h ▸ .unit
  | date => exact hname "DamlDate" rfl h ▸ .date
  | _ => cases h

/-- The constructor of a supported type is rendered if all its names are identifiers. -/
lemma renders_quoteHead_iff_headNames {t : DamlType} (ht : t.isSupported = true) :
    Renders (quoteHead N t) ↔ ∀ name ∈ headNames N t, N.isIdent name = true := by
  have hident : ∀ name : String,
      Renders (quoteIdent N name) ↔ ∀ s ∈ [name], N.isIdent s = true := by
    intro name
    rw [renders_quoteIdent, List.forall_mem_singleton]
  have hname : ∀ name : String, escapeIdentifier name = name →
      (Renders ((fun ident => TypeHead.path (.name ident)) <$> quoteEscapedIdent N name) ↔
        ∀ s ∈ [name], N.isIdent s = true) := by
    intro name hescape
    rw [renders_map, quoteEscapedIdent, hescape, hident]
  have htycon : ∀ n : DamlTyConName, Renders (quoteTyconName N n) ↔
      ∀ s ∈ escapeIdentifier n.dataName :: (tyconSegments N n).map escapeIdentifier,
        N.isIdent s = true := by
    intro n
    rw [renders_quoteTyconName, List.forall_mem_cons, List.forall_mem_map]
    simp only [Quotes, quoteEscapedIdent, renders_quoteIdent]
  cases t with
  | tyCon n args => exact renders_map.trans (htycon n)
  | boxedTyCon n args => exact renders_map.trans (htycon n)
  | var v args => exact renders_map.trans (hident _)
  | nat n => exact renders_map.trans (hident _)
  | list args => exact hname "DamlList" rfl
  | optional args => exact hname "DamlOptional" rfl
  | numeric args => exact hname "DamlFixedNumeric" rfl
  | textMap args => exact hname "DamlTextMap" rfl
  | genMap args => exact hname "DamlGenMap" rfl
  | contractId inner => exact hname "DamlContractId" rfl
  | int64 => exact hname "DamlInt64" rfl
  | text => exact hname "DamlText" rfl
  | timestamp => exact hname "DamlTimestamp" rfl
  | party => exact hname "DamlParty" rfl
  | bool => exact hname "DamlBool" rfl
  | unit => exact hname "DamlUnit" rfl
  | date => exact hname "DamlDate" rfl
  | _ => cases ht

/-! ### Faithful tokens -/

/-- The tokens of a type determine those of its arguments. -/
lemma args_eq_of_apply_eq {t : DamlType} {head head' : TypeHead} {args args' : List TypeTokens}
    (h : StandsFor N t head) (h' : StandsFor N t head') (heq : head.apply args = head'.apply args')
    (hargs : args.length ≤ t.arguments.length) (hargs' : args'.length ≤ t.arguments.length) :
    args = args' := by
  cases h with
  | var =>
    -- a type variable has no arguments
    rw [List.length_eq_zero_iff.1 (Nat.le_zero.1 hargs),
      List.length_eq_zero_iff.1 (Nat.le_zero.1 hargs')]
  | boxedTyCon hpath =>
    cases h' with
    | boxedTyCon hpath' =>
      have hinner := (List.cons.inj (TypeTokens.path.inj heq).2).1
      exact (TypeTokens.path.inj hinner).2
  | _ =>
    cases h'
    exact (TypeTokens.path.inj heq).2

lemma faithful_iff {t : DamlType} {tokens : TypeTokens} :
    Faithful N t tokens ↔ ∃ head, StandsFor N t head ∧ ∃ args,
      List.Forall₂ (Faithful N) t.arguments args ∧ head.apply args = tokens := by
  constructor
  · rintro ⟨hhead, hlen, hargs⟩
    exact ⟨_, hhead, _, List.forall₂_iff_zip.2 ⟨hlen.symm, fun h => hargs _ h⟩, rfl⟩
  · rintro ⟨head, hhead, args, hargs, rfl⟩
    exact .intro hhead hargs.length_eq.symm fun p hp => (List.forall₂_iff_zip.1 hargs).2 hp

/-- What `quote_type` emits is faithful if and only if at every node that is not erased the number
of arguments is one that it renders in full. -/
lemma faithful_iff_arityOk {t : DamlType} {tokens : TypeTokens}
    (h : quoteType N t = .ok tokens) :
    Faithful N t tokens ↔ ∀ s, Reaches DamlType.arguments t s → s.ArityOk := by
  induction t using DamlType.arguments_induction generalizing tokens with
  | h t ih =>
    obtain ⟨head, hhead, args, hargs, rfl⟩ := quoteType_eq_ok.1 h
    have hstands := standsFor_of_quoteHead hhead
    have hquoted := Except.mapM_eq_ok.1 hargs
    have hkept := t.keptArguments_sublist
    rw [forall_reaches_iff, faithful_iff]
    constructor
    · rintro ⟨head', hstands', args', hargs', happly⟩
      obtain rfl : args' = args := args_eq_of_apply_eq hstands' hstands happly hargs'.length_eq.ge
        (hquoted.length_eq ▸ hkept.length_le)
      -- as many arguments are rendered as there are
      have harity : t.ArityOk := by
        rw [← DamlType.length_keptArguments_iff, hquoted.length_eq, hargs'.length_eq]
      refine ⟨harity, fun a ha => ?_⟩
      rw [DamlType.keptArguments_eq_iff.2 harity] at hquoted
      obtain ⟨toks, -, hquote, hfaithful⟩ := (hquoted.and hargs').exists_right ha
      exact (ih a ha hquote).1 hfaithful
    · rintro ⟨harity, hall⟩
      rw [DamlType.keptArguments_eq_iff.2 harity] at hquoted
      exact ⟨head, hstands, args,
        hquoted.imp_of_mem fun a ha toks _ hquote => (ih a ha hquote).2 (hall a ha), rfl⟩

/-- Where no argument is dropped, all arguments are rendered. -/
lemma reaches_keptArguments_iff {t s : DamlType}
    (h : ∀ s, Reaches DamlType.arguments t s → s.ArityOk) :
    Reaches DamlType.keptArguments t s ↔ Reaches DamlType.arguments t s := by
  constructor
  · intro hreach
    induction hreach with
    | refl => exact .refl
    | tail _ hmem ih => exact ih.tail (DamlType.keptArguments_sublist _ |>.subset hmem)
  · intro hreach
    induction hreach with
    | refl => exact .refl
    | tail hreach hmem ih =>
      rw [← DamlType.keptArguments_eq_iff.2 (h _ hreach)] at hmem
      exact ih.tail hmem

end Head

/-- On a type that the filter admits, the renderer spells the Rust type that it stands for, with all
arguments in order, if and only if at every node of the type no list, optional or numeric has more
than one argument, every map has two or none, and the names of the constructor are identifiers.  If
it panics, a name is no identifier. -/
theorem quoteType_faithful_iff (N : Naming) {ctx : RenderContext} {t : DamlType}
    (h : checkType ctx t = true) :
    ((∃ tokens, quoteType N t = .ok tokens ∧ Faithful N t tokens) ↔
      ∀ s, Reaches DamlType.arguments t s →
        s.ArityOk ∧ ∀ name ∈ headNames N s, N.isIdent name = true) ∧
    ∀ e, quoteType N t = .error e → ∃ value, e = .invalidIdent value := by
  refine ⟨⟨?_, fun hall => ?_⟩, namesOnly_quoteType N h⟩
  · rintro ⟨tokens, htokens, hfaithful⟩ s hs
    have harity := (faithful_iff_arityOk htokens).1 hfaithful
    have hkept := (reaches_keptArguments_iff harity).2 hs
    refine ⟨harity s hs, ?_⟩
    rw [← renders_quoteHead_iff_headNames (isSupported_of_reaches h hkept)]
    exact renders_quoteType.1 ⟨tokens, htokens⟩ s hkept
  · have harity := fun s hs => (hall s hs).1
    obtain ⟨tokens, htokens⟩ : Renders (quoteType N t) := by
      refine renders_quoteType.2 fun s hs => ?_
      rw [renders_quoteHead_iff_headNames (isSupported_of_reaches h hs)]
      exact (hall s ((reaches_keptArguments_iff harity).1 hs)).2
    exact ⟨tokens, htokens, (faithful_iff_arityOk htokens).2 harity⟩

/-- A map from texts to optional boxed pairs of another package. -/
def pairMap : DamlType :=
  .genMap [.text, .optional [.boxedTyCon (.absolute ⟨"Pair", "pkg", "base", ["Data"]⟩)
    [.var "a" [], .list [.int64]]]]

/-- What is rendered for it,
`DamlGenMap<DamlText, DamlOptional<Box<crate::base::data::Pair<A, DamlList<DamlInt64>>>>>`. -/
theorem quoteType_faithful_iff_pairMap :
    Faithful wordNaming pairMap (.path (.name "DamlGenMap") [.path (.name "DamlText") [],
      .path (.name "DamlOptional") [.path (.name "Box") [.path ⟨.crate, ["base", "data"], "Pair"⟩
        [.var "A", .path (.name "DamlList") [.path (.name "DamlInt64") []]]]]]) := by
  have node : ∀ t : DamlType, t.ArityOk → (headNames wordNaming t).all wordNaming.isIdent = true →
      (∀ a ∈ t.arguments, ∀ s, Reaches DamlType.arguments a s →
        s.ArityOk ∧ ∀ name ∈ headNames wordNaming s, wordNaming.isIdent name = true) →
      ∀ s, Reaches DamlType.arguments t s →
        s.ArityOk ∧ ∀ name ∈ headNames wordNaming s, wordNaming.isIdent name = true :=
    fun t harity hnames hargs => forall_reaches_iff.2 ⟨⟨harity, List.all_eq_true.1 hnames⟩, hargs⟩
  have htext := node .text trivial rfl (List.forall_mem_nil _)
  have hvar := node (.var "a" []) trivial rfl (List.forall_mem_nil _)
  have hlist := node (.list [.int64]) (Nat.le_refl 1) rfl
    (List.forall_mem_singleton.2 (node .int64 trivial rfl (List.forall_mem_nil _)))
  have hpair := node (.boxedTyCon (.absolute ⟨"Pair", "pkg", "base", ["Data"]⟩)
    [.var "a" [], .list [.int64]]) trivial rfl
    (List.forall_mem_cons.2 ⟨hvar, List.forall_mem_singleton.2 hlist⟩)
  have hoptional := node (.optional [_]) (Nat.le_refl 1) rfl (List.forall_mem_singleton.2 hpair)
  have hmap := node pairMap (.inr rfl) rfl
    (List.forall_mem_cons.2 ⟨htext, List.forall_mem_singleton.2 hoptional⟩)
  obtain ⟨tokens, htokens, hfaithful⟩ :=
    (@quoteType_faithful_iff wordNaming emptyContext pairMap rfl).1.2 hmap
  cases htokens.symm.trans rfl
  exact hfaithful

/-- `TextMap Int64` has one argument, and is rendered as `DamlTextMap`. -/
theorem not_faithful_textMap :
    ¬ ∀ (N : Naming) (P : DamlPackageTables) (fuel : Nat) (proto : Proto.Ty) (t : DamlType)
      (ctx : RenderContext), P.convertType fuel proto = .ok t → checkType ctx t = true →
      ∃ tokens, quoteType N t = .ok tokens ∧ Faithful N t tokens := by
  intro hall
  have hconvert : DamlPackageTables.smallTables.convertType 2 (.builtin 19 [.builtin 2 []]) =
      .ok (.textMap [.int64]) := rfl
  obtain ⟨tokens, hquote, h⟩ := hall wordNaming _ _ _ _ emptyContext hconvert rfl
  rw [faithful_iff_arityOk hquote] at h
  have harity : DamlType.ArityOk (.textMap [.int64]) := h _ .refl
  rcases harity with hlen | hlen <;> cases hlen

end DamlBindings.Codegen
