import DamlBindings.Derive.Reread

/-!
# The Daml types that are read back

Which Daml types are rendered to a type that the macros read and render as it is.  The builtin types
are, so that only the names of data types and of type variables decide.
-/

namespace DamlBindings.Derive

open Lf Codegen Worklist

section Node

variable (N : Naming)

/-- The segments in front of the name of a data type in the generated code. -/
def tyconFront : DamlTyConName → List String
  | .localTyCon _ => []
  | .nonLocal c =>
    let currentFullPath := (c.sourcePackageName :: c.sourceModulePath).map N.toSnakeCase
    let targetFullPath := (c.targetPackageName :: c.targetModulePath).map N.toSnakeCase
    let common := commonPrefixLength currentFullPath targetFullPath
    List.replicate (currentFullPath.length - common) "super" ++
      (targetFullPath.drop common).map escapeIdentifier
  | .absolute c => "crate" :: (cratePath c.packageName c.modulePath).map (toRustIdentifier N)

/-- The last segment of the rendered type. -/
def typeIdent : DamlType → String
  | .tyCon n _ => escapeIdentifier n.dataName
  | .boxedTyCon _ _ => "Box"
  | .var v _ => N.toUppercase (sanitizeVarName v)
  | .nat n => "Nat" ++ toString n
  | t => t.name

/-- What the macros take the rendered type for. -/
def typeReading : DamlType → Reading
  | .tyCon n args => readingOf (escapeIdentifier n.dataName) args.length
  | .boxedTyCon _ _ => .box
  | .var v _ => readingOf (N.toUppercase (sanitizeVarName v)) 0
  | t => readingOf t.name t.keptArguments.length

/-- The macros keep the name of a data type or of a type variable.  The data type in a box is taken
for one. -/
def ReadsBack : DamlType → Prop
  | .tyCon n args =>
    KeptHead N (tyconFront N n) (escapeIdentifier n.dataName) (args.map (typeReading N))
  | .boxedTyCon n args =>
    readingOf (escapeIdentifier n.dataName) args.length = .tyCon ∧
      KeptPath N (tyconFront N n) (escapeIdentifier n.dataName)
  | .var v _ => KeptHead N [] (N.toUppercase (sanitizeVarName v)) []
  | _ => True

variable {N}

lemma spelled_of_quoteTyconName {n : DamlTyConName} {p : RustPath}
    (h : quoteTyconName N n = .ok p) :
    p.front = tyconFront N n ∧ p.ident = escapeIdentifier n.dataName ∧ N.isIdent p.ident = true ∧
      AcceptsFront N p.front := by
  cases n with
  | localTyCon c =>
    obtain ⟨ident, hident, rfl⟩ := Except.map_eq_ok.1 h
    obtain ⟨haccept, rfl⟩ := quoteEscapedIdent_eq_ok.1 hident
    dsimp only [RustPath.name, DamlTyConName.dataName]
    exact ⟨rfl, rfl, haccept, List.forall_mem_nil _⟩
  | nonLocal c =>
    obtain ⟨ident, hident, h⟩ := Except.bind_eq_ok.1 h
    obtain ⟨segments, hsegments, h⟩ := Except.bind_eq_ok.1 h
    cases h
    obtain ⟨haccept, rfl⟩ := quoteEscapedIdent_eq_ok.1 hident
    have hall := Except.mapM_eq_ok.1 hsegments
    simp only [quoteEscapedIdent_eq_ok] at hall
    have hescaped := (hall.imp fun _ _ hs => hs.2).map_eq.trans (List.map_id _)
    dsimp only [DamlTyConName.dataName]
    refine ⟨?_, rfl, haccept, fun s hs => ?_⟩
    · rw [← hescaped]
      rfl
    · rcases List.mem_append.1 hs with hs | hs
      · exact .inr (.inl (List.eq_of_mem_replicate hs))
      · obtain ⟨_, _, hident, rfl⟩ := hall.exists_left hs
        exact .inr (.inr hident)
  | absolute c =>
    obtain ⟨ident, hident, h⟩ := Except.bind_eq_ok.1 h
    obtain ⟨segments, hsegments, h⟩ := Except.bind_eq_ok.1 h
    cases h
    obtain ⟨haccept, rfl⟩ := quoteEscapedIdent_eq_ok.1 hident
    obtain ⟨rfl, hall⟩ := quotePathSegments_eq_ok.1 hsegments
    dsimp only [DamlTyConName.dataName]
    refine ⟨rfl, rfl, haccept, List.forall_mem_cons.2 ⟨.inl rfl, fun s hs => ?_⟩⟩
    exact .inr (.inr (hall s hs))

/-! ### Builtin types -/

/-- A builtin type with its arguments is kept. -/
lemma keptHead_builtin {name : String} {rs : List Reading} (hname : escapeIdentifier name = name)
    (h : readingOf name rs.length = .tyCon ∨ readingOf name rs.length = .applied ∨
      readingOf name rs.length = .leaf ∧ rs = []) : KeptHead N [] name rs := by
  unfold KeptHead
  rcases h with h | h | ⟨h, hrs⟩ <;> rw [h]
  · exact ⟨hname, .inl rfl⟩
  · exact ⟨rfl, hrs⟩

/-- The name of the type `Nat n`. -/
lemma natName (n : Nat) : escapeIdentifier ("Nat" ++ toString n) = "Nat" ++ toString n ∧
    readingOf ("Nat" ++ toString n) 0 = .tyCon := by
  have hlist : ("Nat" ++ toString n).toList = 'N' :: 'a' :: 't' :: Nat.toDigits 10 n := by
    rw [String.toList_append, Nat.toString_eq_repr, Nat.toList_repr]
    rfl
  -- none of the names that are looked for begins with `N`
  have hhead : ∀ names : List String, (names.all fun s => s.toList.head? != some 'N') = true →
      "Nat" ++ toString n ∉ names := by
    intro names hall hmem
    have hne := List.all_eq_true.1 hall _ hmem
    rw [hlist] at hne
    cases hne
  constructor
  · refine escapeIdentifier_eq_self ?_ ?_ (hhead _ (by decide))
    · rw [hlist]
      rfl
    · have hdigits : (Nat.toDigits 10 n).map sanitizeChar = Nat.toDigits 10 n := by
        refine (List.map_congr_left fun c hc => sanitizeChar_of_isWordChar ?_).trans (List.map_id _)
        have hdigit := Nat.isDigit_of_mem_toDigits (by decide) (by decide) hc
        rw [isWordChar, Char.isAlphanum, hdigit, Bool.or_true, Bool.true_or]
      have hself : ('N' :: 'a' :: 't' :: Nat.toDigits 10 n).map sanitizeChar =
          'N' :: 'a' :: 't' :: Nat.toDigits 10 n := congrArg ('N' :: 'a' :: 't' :: ·) hdigits
      rw [underscored, hlist, hself, ← hlist, String.ofList_toList]
  · have hnumeric : "Nat" ++ toString n ≠ "DamlNumeric" :=
      fun h => hhead ["DamlNumeric"] (by decide) (List.mem_singleton.2 h)
    rw [readingOf, if_neg (hhead leafNames (by decide)), if_neg hnumeric]
    simp

/-- A rendered path, as far as the macros look at it: it is made of identifiers, and says what the
type is taken for and when it is kept. -/
structure ShowsPath (N : Naming) (t : DamlType) (p : RustPath) : Prop where
  accepted : N.isIdent p.ident = true
  front : AcceptsFront N p.front
  name : p.ident = typeIdent N t
  reading : typeReading N t = readingOf p.ident t.keptArguments.length
  readsBack : ReadsBack N t ↔
    KeptHead N p.front p.ident (t.keptArguments.map (typeReading N))

/-- The same for a data type in a box. -/
structure ShowsBox (N : Naming) (t : DamlType) (p : RustPath) : Prop where
  accepted : N.isIdent p.ident = true
  front : AcceptsFront N p.front
  name : typeIdent N t = "Box"
  reading : typeReading N t = .box
  readsBack : ReadsBack N t ↔
    readingOf p.ident t.keptArguments.length = .tyCon ∧ KeptPath N p.front p.ident

/-- The same for a type variable. -/
structure ShowsVar (N : Naming) (t : DamlType) (ident : String) : Prop where
  accepted : N.isIdent ident = true
  keptArguments : t.keptArguments = []
  name : ident = typeIdent N t
  reading : typeReading N t = readingOf ident 0
  readsBack : ReadsBack N t ↔ KeptHead N [] ident []

/-- What the head of a rendered type shows. -/
def Shows (N : Naming) (t : DamlType) : TypeHead → Prop
  | .path p => ShowsPath N t p
  | .box p => ShowsBox N t p
  | .var ident => ShowsVar N t ident

lemma length_keyValue (args : List DamlType) :
    (DamlType.keyValue args).length = 0 ∨ (DamlType.keyValue args).length = 2 := by
  unfold DamlType.keyValue
  split_ifs with h
  · rw [List.length_take]
    omega
  · exact .inl rfl

lemma length_take_one (args : List DamlType) :
    (args.take 1).length = 0 ∨ (args.take 1).length = 1 := by
  rw [List.length_take]
  omega

/-- A builtin type shows its name. -/
lemma shows_builtin {t : DamlType} {head : TypeHead} {arity : ℕ} (name : String)
    (hname : escapeIdentifier name = name)
    (h : (fun ident => TypeHead.path (.name ident)) <$> quoteEscapedIdent N name = .ok head)
    (hident : typeIdent N t = name)
    (hreading : typeReading N t = readingOf name t.keptArguments.length)
    (hreadsBack : ReadsBack N t) (harity : t.keptArguments.length = arity)
    (hkept : readingOf name arity = .tyCon ∨ readingOf name arity = .applied ∨
      readingOf name arity = .leaf ∧ arity = 0) : Shows N t head := by
  obtain ⟨ident, hquote, rfl⟩ := Except.map_eq_ok.1 h
  obtain ⟨haccept, rfl⟩ := quoteEscapedIdent_eq_ok.1 hquote
  rw [hname] at haccept ⊢
  refine ⟨haccept, List.forall_mem_nil _, hident.symm, hreading, iff_of_true hreadsBack ?_⟩
  refine keptHead_builtin hname ?_
  rw [List.length_map, List.map_eq_nil_iff, harity, ← List.length_eq_zero_iff, harity]
  exact hkept

lemma shows_of_quoteHead {t : DamlType} {head : TypeHead} (h : quoteHead N t = .ok head) :
    Shows N t head := by
  cases t with
  | tyCon n args =>
    obtain ⟨p, hp, rfl⟩ := Except.map_eq_ok.1 h
    obtain ⟨hpfront, hpident, hident, hfront⟩ := spelled_of_quoteTyconName hp
    refine ⟨hident, hfront, hpident, ?_, ?_⟩
    · rw [hpident]
      rfl
    · rw [hpfront, hpident]
      rfl
  | boxedTyCon n args =>
    obtain ⟨p, hp, rfl⟩ := Except.map_eq_ok.1 h
    obtain ⟨hpfront, hpident, hident, hfront⟩ := spelled_of_quoteTyconName hp
    refine ⟨hident, hfront, rfl, rfl, ?_⟩
    rw [hpfront, hpident]
    rfl
  | var v args =>
    obtain ⟨ident, hident, rfl⟩ := Except.map_eq_ok.1 h
    obtain ⟨haccept, rfl⟩ := quoteIdent_eq_ok.1 hident
    exact ⟨haccept, rfl, rfl, rfl, Iff.rfl⟩
  -- a number is a name of digits behind `Nat`, which no reading takes for anything else
  | nat n =>
    obtain ⟨ident, hident, rfl⟩ := Except.map_eq_ok.1 h
    obtain ⟨haccept, rfl⟩ := quoteIdent_eq_ok.1 hident
    obtain ⟨hname, hreading⟩ := natName n
    refine ⟨haccept, List.forall_mem_nil _, rfl, hreading.symm, iff_of_true trivial ?_⟩
    exact keptHead_builtin hname (.inl hreading)
  -- the builtin types: one row of the table of readings each
  | list args =>
    rcases length_take_one args with hlen | hlen <;>
      exact shows_builtin "DamlList" (by decide) h rfl rfl trivial hlen (by decide)
  | optional args =>
    rcases length_take_one args with hlen | hlen <;>
      exact shows_builtin "DamlOptional" (by decide) h rfl rfl trivial hlen (by decide)
  | numeric args =>
    rcases length_take_one args with hlen | hlen <;>
      exact shows_builtin "DamlFixedNumeric" (by decide) h rfl rfl trivial hlen (by decide)
  | textMap args =>
    rcases length_keyValue args with hlen | hlen <;>
      exact shows_builtin "DamlTextMap" (by decide) h rfl rfl trivial hlen (by decide)
  | genMap args =>
    rcases length_keyValue args with hlen | hlen <;>
      exact shows_builtin "DamlGenMap" (by decide) h rfl rfl trivial hlen (by decide)
  | contractId inner =>
    have hlen : (DamlType.contractId inner).keptArguments.length = 0 := rfl
    exact shows_builtin "DamlContractId" (by decide) h rfl rfl trivial hlen (by decide)
  | int64 => exact shows_builtin "DamlInt64" (by decide) h rfl rfl trivial rfl (by decide)
  | text => exact shows_builtin "DamlText" (by decide) h rfl rfl trivial rfl (by decide)
  | timestamp => exact shows_builtin "DamlTimestamp" (by decide) h rfl rfl trivial rfl (by decide)
  | party => exact shows_builtin "DamlParty" (by decide) h rfl rfl trivial rfl (by decide)
  | bool => exact shows_builtin "DamlBool" (by decide) h rfl rfl trivial rfl (by decide)
  | unit => exact shows_builtin "DamlUnit" (by decide) h rfl rfl trivial rfl (by decide)
  | date => exact shows_builtin "DamlDate" (by decide) h rfl rfl trivial rfl (by decide)
  | _ => cases h

/-! ### The whole type -/

lemma readingOf_box : readingOf "Box" 1 = .box := by decide

lemma keptHead_box {r : Reading} : KeptHead N [] "Box" [r] ↔ r = .tyCon := by
  have hreading : readingOf "Box" [r].length = .box := readingOf_box
  rw [KeptHead, hreading]
  simp

lemma keptHead_of_tyCon {front : List String} {ident : String} {rs : List Reading}
    (h : readingOf ident rs.length = .tyCon) :
    KeptHead N front ident rs ↔ KeptPath N front ident := by
  rw [KeptHead, h]

/-- What the macros take a rendered type for. -/
lemma reading_of_quoteType {t : DamlType} {tokens : TypeTokens} (h : quoteType N t = .ok tokens) :
    synReading tokens.spelled = typeReading N t := by
  obtain ⟨head, hhead, toks, htoks, rfl⟩ := quoteType_eq_ok.1 h
  have hlen := (Except.mapM_eq_ok.1 htoks).length_eq
  have hshows := shows_of_quoteHead hhead
  cases head with
  | path p =>
    rw [hshows.reading, hlen]
    show synReading (TypeTokens.path p toks).spelled = _
    rw [spelled_path, synReading, List.length_map]
  | box p =>
    rw [hshows.reading]
    exact readingOf_box
  | var ident =>
    rw [hshows.reading]
    rfl

/-- All names in the type are kept. -/
def KeptType (N : Naming) (t : DamlType) : Prop :=
  ∀ s, Reaches DamlType.keptArguments t s → ReadsBack N s

/-- Reading a rendered type and rendering it again changes nothing if and only if all names in it
are kept. -/
lemma rereads_quoteType_iff {t : DamlType} {tokens : TypeTokens}
    (h : quoteType N t = .ok tokens) : Rereads N tokens.spelled ↔ KeptType N t := by
  unfold KeptType
  induction t using DamlType.arguments_induction generalizing tokens with
  | h t ih =>
    obtain ⟨head, hhead, toks, htoks, rfl⟩ := quoteType_eq_ok.1 h
    have hquoted := Except.mapM_eq_ok.1 htoks
    have hlen := hquoted.length_eq
    have hreadings : (toks.map TypeTokens.spelled).map synReading =
        t.keptArguments.map (typeReading N) := by
      rw [List.map_map]
      exact (hquoted.imp fun _ _ ha => (reading_of_quoteType ha).symm).map_eq.symm
    have hargs : (∀ x ∈ toks.map TypeTokens.spelled, Rereads N x) ↔
        ∀ a ∈ t.keptArguments, ∀ s, Reaches DamlType.keptArguments a s → ReadsBack N s := by
      rw [List.forall_mem_map]
      have harg := fun a ha tokens => @ih a (t.keptArguments_sublist.subset ha) tokens
      constructor
      · intro hall a ha
        obtain ⟨tokens, htokens, hquote⟩ := hquoted.exists_right ha
        exact (harg a ha tokens hquote).1 (hall tokens htokens)
      · intro hall tokens htokens
        obtain ⟨a, ha, hquote⟩ := hquoted.exists_left htokens
        exact (harg a ha tokens hquote).2 (hall a ha)
    have hshows := shows_of_quoteHead hhead
    -- the arguments are kept by induction, so that only the head is left
    rw [forall_reaches_iff, ← hargs]
    cases head with
    | path p =>
      show Rereads N (TypeTokens.path p toks).spelled ↔ _
      rw [spelled_path, rereads_path_iff (.inr hshows.accepted) hshows.front, hreadings,
        hshows.readsBack]
    | box p =>
      show Rereads N (.path [] "Box" [(TypeTokens.path p toks).spelled]) ↔ _
      rw [rereads_path_iff (.inl readingOf_box) (List.forall_mem_nil _), spelled_path,
        List.forall_mem_singleton, rereads_path_iff (.inr hshows.accepted) hshows.front,
        hshows.readsBack, hreadings, List.map_singleton, keptHead_box, synReading, List.length_map,
        hlen, ← and_assoc]
      refine and_congr_left fun _ => and_congr_right fun htycon => ?_
      rw [keptHead_of_tyCon (by rwa [List.length_map, hlen])]
    | var ident =>
      have hnil : toks = [] := by
        rw [← List.length_eq_zero_iff, ← hlen, hshows.keptArguments, List.length_nil]
      show Rereads N (.path [] ident []) ↔ _
      rw [rereads_path_iff (.inr hshows.accepted) (List.forall_mem_nil _), hshows.readsBack, hnil]
      rfl

/-! ### The unit type -/

/-- A type is rendered as a path that ends with its identifier. -/
lemma spelled_typeIdent {t : DamlType} {tokens : TypeTokens} (h : quoteType N t = .ok tokens) :
    ∃ front args, tokens.spelled = .path front (typeIdent N t) args := by
  obtain ⟨head, hhead, toks, -, rfl⟩ := quoteType_eq_ok.1 h
  have hshows := shows_of_quoteHead hhead
  cases head with
  | path p =>
    rw [← hshows.name]
    exact ⟨_, _, rfl⟩
  | box p =>
    rw [hshows.name]
    exact ⟨_, _, rfl⟩
  | var ident =>
    rw [← hshows.name]
    exact ⟨_, _, rfl⟩

lemma keptType_unit : KeptType N .unit :=
  forall_reaches_iff.2 ⟨trivial, List.forall_mem_nil _⟩

lemma isUnit_toDamlType {a : AttrType} :
    isUnit (toDamlType a) = true ↔ a.leafName = some "DamlUnit" := by
  cases a <;> simp [isUnit, toDamlType, AttrType.leafName]

/-- The macros take a type for the unit type if it has that name. -/
lemma isUnit_of_fromType {t : DamlType} {tokens : TypeTokens} (h : quoteType N t = .ok tokens)
    {a : AttrType} (ha : fromType tokens.spelled = .ok a) :
    isUnit (toDamlType a) = true ↔ typeIdent N t = "DamlUnit" := by
  obtain ⟨front, args, hspelled⟩ := spelled_typeIdent h
  rw [hspelled, fromType_path] at ha
  rw [isUnit_toDamlType]
  constructor
  · exact ident_of_leafName ha
  · intro hident
    rw [hident] at ha
    exact leafName_of_mem (by decide) ha

end Node

end DamlBindings.Derive
