import DamlBindings.Codegen.EscapedNames
import DamlBindings.Derive.AttrData

/-!
# Types that are read back

A type that is spelled in the generated code, read by a macro and rendered again.  It comes out as
it was unless a name in it is taken for another type, stands on a path that is not from the crate,
or is changed when it is escaped.
-/

namespace DamlBindings.Derive

open Lf Codegen Worklist

/-! ### What a name is taken for -/

/-- What the last segment of a path is taken for. -/
inductive Reading
  /-- A builtin type; its arguments are dropped. -/
  | leaf
  /-- `DamlNumeric`, which is rendered under another name. -/
  | numeric
  | box
  /-- A builtin type that keeps its arguments. -/
  | applied
  /-- `DamlTextMap` with one argument, which is rendered without. -/
  | textMap
  | tyCon
deriving DecidableEq

/-- The builtin types without arguments. -/
def leafNames : List String :=
  ["DamlInt64", "DamlText", "DamlTimestamp", "DamlParty", "DamlBool", "DamlUnit", "DamlDate",
    "DamlContractId"]

/-- What `daml_type_from_segments` takes an identifier with so many arguments for. -/
def readingOf (ident : String) (arity : Nat) : Reading :=
  if ident ∈ leafNames then .leaf
  else if ident = "DamlNumeric" then .numeric
  else if ident = "Box" ∧ arity = 1 then .box
  else if (ident = "DamlList" ∨ ident = "DamlOptional") ∧ arity = 1 ∨
      ident = "DamlGenMap" ∧ arity = 2 then .applied
  else if ident = "DamlTextMap" ∧ arity = 1 then .textMap
  else .tyCon

/-- The name of a builtin type without arguments. -/
def AttrType.leafName : AttrType → Option String
  | .int64 => some "DamlInt64"
  | .text => some "DamlText"
  | .timestamp => some "DamlTimestamp"
  | .party => some "DamlParty"
  | .bool => some "DamlBool"
  | .unit => some "DamlUnit"
  | .date => some "DamlDate"
  | .contractId _ => some "DamlContractId"
  | _ => none

/-- It is rendered under that name. -/
lemma quoteType_of_leafName {N : Naming} {a : AttrType} {ident : String}
    (h : a.leafName = some ident) : quoteType N (toDamlType a) = quotePrim N ident (.ok []) := by
  cases a <;> cases h <;> rfl

section Segments

variable {front : List String} {ident : String} {ps : List (DeriveResult AttrType)}

lemma damlTypeFromSegments_of_tyCon (h : readingOf ident ps.length = .tyCon) :
    damlTypeFromSegments front ident ps =
      .tyCon ident (modulePathOf front) <$> ps.mapM id := by
  unfold damlTypeFromSegments
  split <;> first
    | rfl
    | simp [readingOf, leafNames] at h

lemma leafName_of_mem (h : ident ∈ leafNames) {a : AttrType}
    (ha : damlTypeFromSegments front ident ps = .ok a) : a.leafName = some ident := by
  have hleaf : ∀ {t : AttrType}, damlTypeFromSegments front ident ps = .ok t →
      t.leafName = some ident → a.leafName = some ident := by
    intro t ht hname
    cases ht.symm.trans ha
    exact hname
  have hcontract : ident = "DamlContractId" → a.leafName = some ident := by
    rintro rfl
    rcases ps with _ | ⟨ty, _ | _⟩
    · exact hleaf rfl rfl
    · obtain ⟨nested, -, rfl⟩ := Except.map_eq_ok.1 ha
      rfl
    · exact hleaf rfl rfl
  simp only [leafNames, List.mem_cons, List.not_mem_nil, or_false] at h
  rcases h with rfl | rfl | rfl | rfl | rfl | rfl | rfl | h
  iterate 7 exact hleaf rfl rfl
  exact hcontract h

/-- Every other name that is not taken for a data type is read as a type with arguments. -/
lemma of_not_tyCon (hleaf : ident ∉ leafNames) (htycon : readingOf ident ps.length ≠ .tyCon)
    {a : AttrType} (h : damlTypeFromSegments front ident ps = .ok a) :
    a.leafName = none ∧ ∀ dataName path args, a ≠ .tyCon dataName path args := by
  -- each reading other than a data type is one arm of the match on the name
  unfold readingOf at htycon
  split_ifs at htycon with hnumeric hbox happlied htextMap
  · subst hnumeric
    cases h
    exact ⟨rfl, fun _ _ _ h => by cases h⟩
  · obtain ⟨rfl, hlen⟩ := hbox
    obtain ⟨ty, rfl⟩ := List.length_eq_one_iff.1 hlen
    obtain ⟨nested, -, hbox⟩ := Except.bind_eq_ok.1 h
    unfold boxOf at hbox
    split at hbox <;> cases hbox
    exact ⟨rfl, fun _ _ _ h => by cases h⟩
  · rcases happlied with ⟨rfl | rfl, hlen⟩ | ⟨rfl, hlen⟩
    · obtain ⟨ty, rfl⟩ := List.length_eq_one_iff.1 hlen
      obtain ⟨_, -, rfl⟩ := Except.map_eq_ok.1 h
      exact ⟨rfl, fun _ _ _ h => by cases h⟩
    · obtain ⟨ty, rfl⟩ := List.length_eq_one_iff.1 hlen
      obtain ⟨_, -, rfl⟩ := Except.map_eq_ok.1 h
      exact ⟨rfl, fun _ _ _ h => by cases h⟩
    · obtain ⟨k, v, rfl⟩ := List.length_eq_two.1 hlen
      obtain ⟨_, -, h⟩ := Except.bind_eq_ok.1 h
      obtain ⟨_, -, h⟩ := Except.bind_eq_ok.1 h
      cases h
      exact ⟨rfl, fun _ _ _ h => by cases h⟩
  · obtain ⟨rfl, hlen⟩ := htextMap
    obtain ⟨ty, rfl⟩ := List.length_eq_one_iff.1 hlen
    obtain ⟨_, -, rfl⟩ := Except.map_eq_ok.1 h
    exact ⟨rfl, fun _ _ _ h => by cases h⟩
  · exact absurd rfl htycon

/-- A name is taken for a data type if that is what it is read as. -/
lemma readingOf_of_tyCon {dataName : String} {path : List String} {args : List AttrType}
    (h : damlTypeFromSegments front ident ps = .ok (.tyCon dataName path args)) :
    readingOf ident ps.length = .tyCon := by
  by_contra htycon
  by_cases hleaf : ident ∈ leafNames
  · cases leafName_of_mem hleaf h
  · exact (of_not_tyCon hleaf htycon h).2 _ _ _ rfl

/-- A builtin type without arguments is read from its name. -/
lemma ident_of_leafName {a : AttrType} {name : String}
    (h : damlTypeFromSegments front ident ps = .ok a) (hname : a.leafName = some name) :
    ident = name := by
  by_cases hleaf : ident ∈ leafNames
  · rw [leafName_of_mem hleaf h] at hname
    exact Option.some.inj hname
  by_cases htycon : readingOf ident ps.length = .tyCon
  · rw [damlTypeFromSegments_of_tyCon htycon] at h
    obtain ⟨_, -, rfl⟩ := Except.map_eq_ok.1 h
    cases hname
  · rw [(of_not_tyCon hleaf htycon h).1] at hname
    cases hname

end Segments

/-! ### One step of reading -/

/-- What a type is taken for. -/
def synReading : SynType → Reading
  | .path _ ident args => readingOf ident args.length
  | .other => .leaf

section Step

variable (N : Naming)

/-- The macros read the type and render it as it is. -/
def Rereads (t : SynType) : Prop :=
  ∃ a tokens, fromType t = .ok a ∧ quoteType N (toDamlType a) = .ok tokens ∧ tokens.spelled = t

/-- The path of a data type is rendered as it is: it is a name in scope, or a path from the crate
into modules that keep their names. -/
def KeptPath (front : List String) (ident : String) : Prop :=
  escapeIdentifier ident = ident ∧
    (front = [] ∨ ∃ rest, front = "crate" :: rest ∧ rest ≠ [] ∧
      ∀ s ∈ rest, toRustIdentifier N s = s)

/-- A path is rendered as it is, given what its arguments are taken for and that they are kept. -/
def KeptHead (front : List String) (ident : String) (args : List Reading) : Prop :=
  match readingOf ident args.length with
  | .leaf => front = [] ∧ args = []
  | .applied => front = []
  | .box => front = [] ∧ ∀ r ∈ args, r = .tyCon
  | .tyCon => KeptPath N front ident
  | .numeric | .textMap => False

variable {N} {front : List String} {ident : String} {args : List SynType}

lemma fromType_path : fromType (.path front ident args) =
    damlTypeFromSegments front ident (args.map fromType) := by
  rw [← fromTypes_eq]
  rfl

lemma spelled_path (p : RustPath) (toks : List TypeTokens) :
    (TypeTokens.path p toks).spelled = .path p.front p.ident (toks.map TypeTokens.spelled) := by
  rw [← spelledArgs_eq]
  rfl

/-- The tokens of a builtin type are its name with its arguments. -/
lemma quotePrim_spelled {name : String} (hname : escapeIdentifier name = name)
    {toks : Render (List TypeTokens)} {tokens : TypeTokens} :
    quotePrim N name toks = .ok tokens ↔ N.isIdent name = true ∧
      ∃ ts, toks = .ok ts ∧ tokens = .path (.name name) ts := by
  rw [quotePrim_eq_ok]
  simp only [quoteEscapedIdent_eq_ok, hname]
  constructor
  · rintro ⟨_, ⟨hident, rfl⟩, ts, hts, rfl⟩
    exact ⟨hident, ts, hts, rfl⟩
  · rintro ⟨hident, ts, hts, rfl⟩
    exact ⟨name, ⟨hident, rfl⟩, ts, hts, rfl⟩

lemma escapeIdentifier_leafName (h : ident ∈ leafNames) : escapeIdentifier ident = ident := by
  simp only [leafNames, List.mem_cons, List.not_mem_nil, or_false] at h
  rcases h with rfl | rfl | rfl | rfl | rfl | rfl | rfl | rfl <;> decide

lemma exists_of_leaf (h : ident ∈ leafNames) : ∃ a, damlTypeFromSegments [] ident [] = .ok a := by
  simp only [leafNames, List.mem_cons, List.not_mem_nil, or_false] at h
  rcases h with rfl | rfl | rfl | rfl | rfl | rfl | rfl | rfl <;> exact ⟨_, rfl⟩

lemma rereads_leaf (h : ident ∈ leafNames) (hident : N.isIdent ident = true) :
    Rereads N (.path front ident args) ↔ front = [] ∧ args = [] := by
  constructor
  · rintro ⟨a, tokens, ha, htokens, hspelled⟩
    rw [fromType_path] at ha
    -- the path and the arguments are dropped when the name is read, so there may be none
    rw [quoteType_of_leafName (leafName_of_mem h ha),
      quotePrim_spelled (escapeIdentifier_leafName h)] at htokens
    obtain ⟨-, ts, hts, rfl⟩ := htokens
    cases hts
    cases hspelled
    exact ⟨rfl, rfl⟩
  · rintro ⟨rfl, rfl⟩
    obtain ⟨a, ha⟩ := exists_of_leaf h
    refine ⟨a, .path (.name ident) [], fromType_path.trans ha, ?_, rfl⟩
    rw [quoteType_of_leafName (leafName_of_mem h ha),
      quotePrim_spelled (escapeIdentifier_leafName h)]
    exact ⟨hident, [], rfl, rfl⟩

/-- `DamlNumeric` becomes `DamlFixedNumeric`. -/
lemma not_rereads_numeric : ¬ Rereads N (.path front "DamlNumeric" args) := by
  rintro ⟨a, tokens, ha, htokens, hspelled⟩
  cases (fromType_path.symm.trans ha : Except.ok AttrType.numeric = .ok a)
  have hname : escapeIdentifier "DamlFixedNumeric" = "DamlFixedNumeric" := by decide
  obtain ⟨-, ts, -, rfl⟩ := (quotePrim_spelled hname).1 htokens
  rw [spelled_path] at hspelled
  injection hspelled with _ hident _
  exact absurd hident (by decide)

/-- The argument of `DamlTextMap` is not rendered. -/
lemma not_rereads_textMap (x : SynType) : ¬ Rereads N (.path front "DamlTextMap" [x]) := by
  rintro ⟨a, tokens, ha, htokens, hspelled⟩
  obtain ⟨nested, -, rfl⟩ := Except.map_eq_ok.1 (fromType_path.symm.trans ha)
  have hname : escapeIdentifier "DamlTextMap" = "DamlTextMap" := by decide
  obtain ⟨-, ts, hts, rfl⟩ := (quotePrim_spelled hname).1 htokens
  -- the renderer asks for the key and the value, and the macro has the value only
  cases (hts : Except.ok [] = .ok ts)
  cases hspelled

/-- A list or an optional is kept with its argument. -/
lemma rereads_unary {f : AttrType → AttrType} {name : String} {x : SynType}
    (hread : ∀ ty, damlTypeFromSegments front name [ty] = f <$> ty)
    (hquote : ∀ a, quoteType N (toDamlType (f a)) =
      quotePrim N name ((fun tokens => [tokens]) <$> quoteType N (toDamlType a)))
    (hname : escapeIdentifier name = name) (hident : N.isIdent name = true) :
    Rereads N (.path front name [x]) ↔ front = [] ∧ Rereads N x := by
  constructor
  · rintro ⟨a, tokens, ha, htokens, hspelled⟩
    rw [fromType_path, List.map_cons, List.map_nil, hread] at ha
    obtain ⟨nested, hnested, rfl⟩ := Except.map_eq_ok.1 ha
    rw [hquote, quotePrim_spelled hname] at htokens
    obtain ⟨-, ts, hts, rfl⟩ := htokens
    obtain ⟨toks, htoks, rfl⟩ := Except.map_eq_ok.1 hts
    rw [spelled_path] at hspelled
    cases hspelled
    exact ⟨rfl, nested, toks, hnested, htoks, rfl⟩
  · rintro ⟨rfl, nested, toks, hnested, htoks, rfl⟩
    refine ⟨f nested, .path (.name name) [toks], ?_, ?_, spelled_path _ _⟩
    · rw [fromType_path, List.map_cons, List.map_nil, hread, hnested]
      rfl
    · rw [hquote, htoks, quotePrim_spelled hname]
      exact ⟨hident, _, rfl, rfl⟩

lemma rereads_genMap {x y : SynType} (hident : N.isIdent "DamlGenMap" = true) :
    Rereads N (.path front "DamlGenMap" [x, y]) ↔ front = [] ∧ Rereads N x ∧ Rereads N y := by
  have hname : escapeIdentifier "DamlGenMap" = "DamlGenMap" := by decide
  have hquote : ∀ k v, quoteType N (toDamlType (.genMap k v)) =
      quotePrim N "DamlGenMap" (do
        let key ← quoteType N (toDamlType k)
        let value ← quoteType N (toDamlType v)
        pure [key, value]) := fun _ _ => rfl
  constructor
  · rintro ⟨a, tokens, ha, htokens, hspelled⟩
    obtain ⟨k, hk, ha⟩ := Except.bind_eq_ok.1 (fromType_path.symm.trans ha)
    obtain ⟨v, hv, ha⟩ := Except.bind_eq_ok.1 ha
    cases ha
    rw [hquote, quotePrim_spelled hname] at htokens
    obtain ⟨-, ts, hts, rfl⟩ := htokens
    obtain ⟨key, hkey, hts⟩ := Except.bind_eq_ok.1 hts
    obtain ⟨value, hvalue, hts⟩ := Except.bind_eq_ok.1 hts
    cases hts
    rw [spelled_path] at hspelled
    cases hspelled
    exact ⟨rfl, ⟨k, key, hk, hkey, rfl⟩, v, value, hv, hvalue, rfl⟩
  · rintro ⟨rfl, ⟨k, key, hk, hkey, rfl⟩, v, value, hv, hvalue, rfl⟩
    refine ⟨.genMap k v, .path (.name "DamlGenMap") [key, value], ?_, ?_, spelled_path _ _⟩
    · refine fromType_path.trans (Except.bind_eq_ok.2 ⟨k, hk, ?_⟩)
      exact Except.bind_eq_ok.2 ⟨v, hv, rfl⟩
    · rw [hquote, hkey, hvalue, quotePrim_spelled hname]
      exact ⟨hident, _, rfl, rfl⟩

/-- A box keeps what is in it, if that is a data type. -/
lemma rereads_box {x : SynType} :
    Rereads N (.path front "Box" [x]) ↔ front = [] ∧ synReading x = .tyCon ∧ Rereads N x := by
  constructor
  · rintro ⟨a, tokens, ha, htokens, hspelled⟩
    obtain ⟨inner, hinner, ha⟩ := Except.bind_eq_ok.1 (fromType_path.symm.trans ha)
    unfold boxOf at ha
    split at ha
    next dataName path as =>
      cases ha
      obtain ⟨toks, htoks, rfl⟩ := Except.map_eq_ok.1 htokens
      rw [spelled_path] at hspelled
      cases hspelled
      refine ⟨rfl, ?_, _, toks, hinner, htoks, rfl⟩
      -- what is in the box was read as a data type, so its name is taken for one
      revert hinner
      generalize toks.spelled = x
      intro hinner
      cases x with
      | path front ident args =>
        rw [fromType_path] at hinner
        have hreading := readingOf_of_tyCon hinner
        rwa [List.length_map] at hreading
      | other => cases hinner
    next => cases ha
  · rintro ⟨rfl, hreading, inner, toks, hinner, htoks, rfl⟩
    have htycon : ∃ dataName path as, inner = .tyCon dataName path as := by
      revert hinner hreading
      generalize toks.spelled = x
      intro hreading hinner
      cases x with
      | path front ident args =>
        rw [fromType_path, damlTypeFromSegments_of_tyCon (by rwa [List.length_map])] at hinner
        obtain ⟨as, -, rfl⟩ := Except.map_eq_ok.1 hinner
        exact ⟨_, _, _, rfl⟩
      | other => cases hinner
    obtain ⟨dataName, path, as, rfl⟩ := htycon
    refine ⟨.box dataName path as, .path (.name "Box") [toks], ?_, ?_, spelled_path _ _⟩
    · exact fromType_path.trans (Except.bind_eq_ok.2 ⟨_, hinner, rfl⟩)
    · exact Except.map_eq_ok.2 ⟨toks, htoks, rfl⟩

/-- The segments of a path are identifiers or begin it. -/
def AcceptsFront (N : Naming) (front : List String) : Prop :=
  ∀ s ∈ front, s = "crate" ∨ s = "super" ∨ N.isIdent s = true

/-- The path that a data type which is read is rendered with. -/
def renderedPath (N : Naming) (ident : String) (path : List String) : RustPath :=
  if path = [] then .name (escapeIdentifier ident)
  else ⟨.crate, path.map (toRustIdentifier N), escapeIdentifier ident⟩

lemma quoteTyconName_tyConName {path : List String} {p : RustPath} :
    quoteTyconName N (tyConName ident path) = .ok p ↔
      N.isIdent (escapeIdentifier ident) = true ∧
        (∀ s ∈ path, N.isIdent (toRustIdentifier N s) = true) ∧
        renderedPath N ident path = p := by
  cases path with
  | nil =>
    show RustPath.name <$> quoteEscapedIdent N ident = .ok p ↔ _
    simp [quoteEscapedIdent_eq_ok, renderedPath, and_assoc]
  | cons head rest =>
    show (quoteEscapedIdent N ident >>= fun ident =>
      quotePathSegments N (head :: rest) >>= fun segments =>
        pure (⟨.crate, segments, ident⟩ : RustPath)) = .ok p ↔ _
    simp only [Except.bind_eq_ok, quoteEscapedIdent_eq_ok, quotePathSegments_eq_ok,
      Except.pure_eq_ok, renderedPath, reduceCtorEq, if_false]
    constructor
    · rintro ⟨_, ⟨hident, rfl⟩, _, ⟨rfl, hall⟩, rfl⟩
      exact ⟨hident, List.forall_mem_map.1 hall, rfl⟩
    · rintro ⟨hident, hall, rfl⟩
      exact ⟨_, ⟨hident, rfl⟩, _, ⟨rfl, List.forall_mem_map.2 hall⟩, rfl⟩

lemma front_renderedPath (ident : String) (path : List String) :
    (renderedPath N ident path).front =
      if path = [] then [] else "crate" :: path.map (toRustIdentifier N) := by
  unfold renderedPath
  split_ifs <;> rfl

lemma ident_renderedPath (ident : String) (path : List String) :
    (renderedPath N ident path).ident = escapeIdentifier ident := by
  unfold renderedPath
  split_ifs <;> rfl

lemma modulePathOf_crate (rest : List String) : modulePathOf ("crate" :: rest) = rest := rfl

/-- The rendered path is the one that was read if and only if it is kept. -/
lemma front_renderedPath_iff :
    (renderedPath N ident (modulePathOf front)).front = front ↔
      front = [] ∨ ∃ rest, front = "crate" :: rest ∧ rest ≠ [] ∧
        ∀ s ∈ rest, toRustIdentifier N s = s := by
  rw [front_renderedPath]
  rcases front with _ | ⟨head, rest⟩
  · simp [modulePathOf]
  by_cases hhead : head = "crate"
  · subst hhead
    have hself : rest.map (toRustIdentifier N) = rest ↔ ∀ s ∈ rest, toRustIdentifier N s = s := by
      have hinj := List.map_inj_left (l := rest) (f := toRustIdentifier N) (g := id)
      simpa using hinj
    rw [modulePathOf_crate]
    split_ifs with hrest
    · simp [hrest]
    · simp [hrest, hself]
  · have hpath : modulePathOf (head :: rest) = head :: rest := if_neg hhead
    rw [hpath, if_neg (List.cons_ne_nil _ _)]
    simp [hhead, Ne.symm hhead]

/-- A path is rendered as it is if and only if it is kept. -/
lemma keptPath_iff (hident : N.isIdent ident = true) (hfront : AcceptsFront N front) :
    (∃ p, quoteTyconName N (tyConName ident (modulePathOf front)) = .ok p ∧ p.front = front ∧
      p.ident = ident) ↔ KeptPath N front ident := by
  simp only [quoteTyconName_tyConName]
  rw [KeptPath, ← @front_renderedPath_iff N front ident]
  constructor
  · rintro ⟨_, ⟨-, -, rfl⟩, hpfront, hpident⟩
    exact ⟨(ident_renderedPath ident _).symm.trans hpident, hpfront⟩
  · rintro ⟨hescape, hpfront⟩
    refine ⟨_, ⟨hescape.symm ▸ hident, fun s hs => ?_, rfl⟩, hpfront,
      (ident_renderedPath ident _).trans hescape⟩
    obtain rfl | ⟨rest, rfl, -, hrest⟩ := front_renderedPath_iff.1 hpfront
    · cases hs
    rw [modulePathOf_crate] at hs
    -- a segment that is escaped to itself is no keyword
    have hkeyword : s ∉ keywords := by
      rw [← hrest s hs]
      exact escapeIdentifier_notMem_keywords _
    rw [hrest s hs]
    rcases hfront s (List.mem_cons_of_mem _ hs) with rfl | rfl | hs
    · exact absurd (by decide) hkeyword
    · exact absurd (by decide) hkeyword
    · exact hs

/-- A list of types is read and rendered type by type. -/
lemma rereads_all_iff :
    (∃ as, List.Forall₂ (fun x a => fromType x = .ok a) args as ∧ ∃ toks,
      List.Forall₂ (fun a tokens => quoteType N (toDamlType a) = .ok tokens) as toks ∧
        toks.map TypeTokens.spelled = args) ↔ ∀ x ∈ args, Rereads N x := by
  constructor
  · rintro ⟨as, has, toks, htoks, hspelled⟩ x hx
    have hsame : List.Forall₂ (fun x tokens => TypeTokens.spelled tokens = x) args toks := by
      rw [← hspelled]
      exact List.forall₂_map_left_iff.2 (List.forall₂_same.2 fun _ _ => rfl)
    have hboth : List.Forall₂ (fun x tokens => ∃ a, fromType x = .ok a ∧
        quoteType N (toDamlType a) = .ok tokens) args toks :=
      has.trans_of_mem htoks fun _ _ a _ ha htokens => ⟨a, ha, htokens⟩
    obtain ⟨tokens, -, ⟨a, ha, htokens⟩, hx⟩ := (hboth.and hsame).exists_right hx
    exact ⟨a, tokens, ha, htokens, hx⟩
  · intro h
    induction args with
    | nil => exact ⟨[], .nil, [], .nil, rfl⟩
    | cons x xs ih =>
      rw [List.forall_mem_cons] at h
      obtain ⟨a, tokens, ha, htokens, hx⟩ := h.1
      obtain ⟨as, has, toks, htoks, hxs⟩ := ih h.2
      exact ⟨a :: as, .cons ha has, tokens :: toks, .cons htokens htoks,
        by rw [List.map_cons, hx, hxs]⟩

/-- A data type is kept with its path and its arguments. -/
lemma rereads_tyCon (hreading : readingOf ident args.length = .tyCon)
    (hident : N.isIdent ident = true) (hfront : AcceptsFront N front) :
    Rereads N (.path front ident args) ↔ KeptPath N front ident ∧ ∀ x ∈ args, Rereads N x := by
  -- reading and quoting both go argument by argument; what is left is the path
  have hread : ∀ a, fromType (.path front ident args) = .ok a ↔
      ∃ as, List.Forall₂ (fun x a => fromType x = .ok a) args as ∧
        .tyCon ident (modulePathOf front) as = a := by
    intro a
    rw [fromType_path, damlTypeFromSegments_of_tyCon (by rwa [List.length_map]), Except.map_eq_ok]
    simp only [Except.mapM_eq_ok, List.forall₂_map_left_iff, id_eq]
  have hquote : ∀ as tokens, quoteType N (toDamlType (.tyCon ident (modulePathOf front) as)) =
      .ok tokens ↔ ∃ p, quoteTyconName N (tyConName ident (modulePathOf front)) = .ok p ∧
        ∃ toks, List.Forall₂ (fun a tokens => quoteType N (toDamlType a) = .ok tokens) as toks ∧
          .path p toks = tokens := by
    intro as tokens
    have htype : quoteType N (toDamlType (.tyCon ident (modulePathOf front) as)) =
      quoteTycon N (tyConName ident (modulePathOf front)) (quoteTypes N (toDamlTypes as)) := rfl
    rw [htype, toDamlTypes_eq, quoteTypes_eq, quoteTycon_eq_head]
    simp only [Except.mapM_eq_ok, List.forall₂_map_left_iff]
  rw [← keptPath_iff hident hfront, ← rereads_all_iff]
  constructor
  · rintro ⟨a, tokens, ha, htokens, hspelled⟩
    obtain ⟨as, has, rfl⟩ := (hread a).1 ha
    obtain ⟨p, hp, toks, htoks, rfl⟩ := (hquote as tokens).1 htokens
    rw [spelled_path] at hspelled
    injection hspelled with hpfront hpident hpargs
    exact ⟨⟨p, hp, hpfront, hpident⟩, as, has, toks, htoks, hpargs⟩
  · rintro ⟨⟨p, hp, hpfront, hpident⟩, as, has, toks, htoks, hpargs⟩
    refine ⟨_, _, (hread _).2 ⟨as, has, rfl⟩, (hquote as _).2 ⟨p, hp, toks, htoks, rfl⟩, ?_⟩
    rw [spelled_path, hpfront, hpident, hpargs]

/-- A type is read and rendered as it is if and only if its head is kept and its arguments are. -/
lemma rereads_path_iff
    (hident : readingOf ident args.length = .box ∨ N.isIdent ident = true)
    (hfront : AcceptsFront N front) :
    Rereads N (.path front ident args) ↔
      KeptHead N front ident (args.map synReading) ∧ ∀ x ∈ args, Rereads N x := by
  have hunary : ∀ x : SynType, (front = [] ∧ Rereads N x) ↔
      front = [] ∧ ∀ y ∈ [x], Rereads N y := by
    intro x
    rw [List.forall_mem_singleton]
  rw [KeptHead, List.length_map]
  -- the readings are told apart by the name and the number of arguments, as in the macro
  generalize hreading : readingOf ident args.length = reading at hident
  have hreading' := hreading
  unfold readingOf at hreading
  split_ifs at hreading with hleaf hnumeric hbox happlied htextMap <;> subst hreading
  · rw [rereads_leaf hleaf (hident.resolve_left (by decide))]
    constructor
    · rintro ⟨rfl, rfl⟩
      exact ⟨⟨rfl, rfl⟩, List.forall_mem_nil _⟩
    · rintro ⟨⟨rfl, hargs⟩, -⟩
      exact ⟨rfl, List.map_eq_nil_iff.1 hargs⟩
  · subst hnumeric
    exact iff_of_false not_rereads_numeric And.left
  · obtain ⟨rfl, hlen⟩ := hbox
    obtain ⟨x, rfl⟩ := List.length_eq_one_iff.1 hlen
    rw [rereads_box]
    simp [and_assoc]
  · have hident := hident.resolve_left (by decide)
    rcases happlied with ⟨rfl | rfl, hlen⟩ | ⟨rfl, hlen⟩
    · obtain ⟨x, rfl⟩ := List.length_eq_one_iff.1 hlen
      rw [← hunary]
      exact rereads_unary (f := .list) (fun _ => rfl) (fun _ => rfl) (by decide) hident
    · obtain ⟨x, rfl⟩ := List.length_eq_one_iff.1 hlen
      rw [← hunary]
      exact rereads_unary (f := .optional) (fun _ => rfl) (fun _ => rfl) (by decide) hident
    · obtain ⟨x, y, rfl⟩ := List.length_eq_two.1 hlen
      rw [rereads_genMap hident]
      simp
  · obtain ⟨rfl, hlen⟩ := htextMap
    obtain ⟨x, rfl⟩ := List.length_eq_one_iff.1 hlen
    exact iff_of_false (not_rereads_textMap x) And.left
  · exact rereads_tyCon hreading' (hident.resolve_left (by decide)) hfront

end Step

end DamlBindings.Derive
