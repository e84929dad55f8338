import DamlBindings.Codegen.ValidNames

/-!
# Escaped names

What `escape_identifier` makes of a name: whether it is an identifier that a definition of Rust can
have, and which names become the same identifier.
-/

namespace DamlBindings.Codegen

open Lf

/-- The strict and the reserved keywords of Rust. -/
def rustKeywords : List String :=
  ["as", "break", "const", "continue", "crate", "else", "enum", "extern", "false", "fn",
    "for", "if", "impl", "in", "let", "loop", "match", "mod", "move", "mut", "pub", "ref",
    "return", "self", "Self", "static", "struct", "super", "trait", "true", "type", "unsafe",
    "use", "where", "while", "async", "await", "dyn", "abstract", "become", "box", "do", "final",
    "macro", "override", "priv", "typeof", "unsized", "virtual", "yield", "try", "gen"]

/-- A name that a field, a type, a constructor or a module of Rust can have. -/
structure IsRustName (s : String) : Prop extends IsWord s where
  ne_underscore : s ≠ "_"
  not_keyword : s ∉ rustKeywords

/-- The letters, digits and underscores of ASCII, and what `escape_identifier` replaces. -/
def IsSourceName (s : String) : Prop :=
  ∀ c ∈ s.toList, (isWordChar c || c == '$' || c == '.' || c == '-') = true

/-- The text with underscores in place of what `escape_identifier` replaces. -/
def underscored (s : String) : String := String.ofList (s.toList.map sanitizeChar)

section Escape

variable {s t : String} {c : Char}

lemma sanitizeChar_eq (h : sanitizeChar c ≠ '_') : sanitizeChar c = c := by
  unfold sanitizeChar at *
  split_ifs at * with hc
  · exact absurd rfl h
  · rfl

lemma isWordChar_sanitizeChar_iff :
    isWordChar (sanitizeChar c) = true ↔
      (isWordChar c || c == '$' || c == '.' || c == '-') = true := by
  unfold sanitizeChar
  split_ifs with hc
  · refine iff_of_true rfl ?_
    rcases hc with rfl | rfl | rfl <;> rfl
  · rw [not_or, not_or] at hc
    simp [hc]

lemma sanitizeChar_of_isWordChar (h : isWordChar c = true) : sanitizeChar c = c := by
  unfold sanitizeChar
  rw [if_neg]
  rintro (rfl | rfl | rfl) <;> exact absurd h (by decide)

/-- Only a text without underscores is escaped to one without. -/
lemma eq_of_underscored (h : underscored s = t) (ht : '_' ∉ t.toList) : s = t := by
  rw [← h, underscored, String.toList_ofList, List.mem_map] at ht
  have hmap : s.toList.map sanitizeChar = s.toList := by
    refine (List.map_congr_left fun c hc => sanitizeChar_eq fun hunder => ?_).trans (List.map_id _)
    exact ht ⟨c, hc, hunder⟩
  rw [← h, underscored, hmap, String.ofList_toList]

lemma underscore_notMem_keywords : ∀ k ∈ keywords, '_' ∉ k.toList := by
  intro k hk
  have h := List.all_eq_true.1 (show (keywords.all fun k => !k.toList.contains '_') = true from rfl)
    k hk
  simpa using h

lemma underscore_mem_append (t : String) : '_' ∈ (t ++ "_").toList := by
  rw [String.toList_append]
  exact List.mem_append_right _ (List.mem_singleton_self _)

/-- No digit comes from a character that is none. -/
lemma isDigit_sanitizeChar (h : c.isDigit = false) : (sanitizeChar c).isDigit = false := by
  unfold sanitizeChar
  split_ifs
  · rfl
  · exact h

/-- Nothing is replaced in a keyword. -/
lemma underscored_of_mem_keywords (h : s ∈ keywords) : underscored s = s := by
  have hword : ∀ c ∈ s.toList, isWordChar c = true := by
    have hall : (keywords.all fun k => k.toList.all isWordChar) = true := rfl
    exact List.all_eq_true.1 (List.all_eq_true.1 hall s h)
  have hmap : s.toList.map sanitizeChar = s.toList :=
    (List.map_congr_left fun c hc => sanitizeChar_of_isWordChar (hword c hc)).trans (List.map_id _)
  rw [underscored, hmap, String.ofList_toList]

/-- Whether a text is a keyword is not changed by the replacements. -/
lemma underscored_mem_keywords : underscored s ∈ keywords ↔ s ∈ keywords := by
  constructor
  · intro h
    have heq := eq_of_underscored rfl (underscore_notMem_keywords _ h)
    rwa [← heq] at h
  · intro h
    rwa [underscored_of_mem_keywords h]

/-- A name that does not begin with a digit is escaped without a prefix. -/
lemma escapeIdentifier_eq (h : (s.toList.head?.map Char.isDigit).getD false = false) :
    escapeIdentifier s = escapeKeyword (underscored s) := by
  have hhead : ((s.toList.map sanitizeChar).head?.map Char.isDigit).getD false = false := by
    rcases hs : s.toList with - | ⟨c, cs⟩
    · rfl
    · rw [hs] at h
      exact isDigit_sanitizeChar h
  unfold escapeIdentifier
  simp only [hhead, Bool.false_eq_true, if_false]
  rfl

/-- A name that begins with a digit gets an underscore in front. -/
lemma escapeIdentifier_of_digit {cs : List Char} (hs : s.toList = c :: cs) (h : c.isDigit = true) :
    escapeIdentifier s = String.ofList ('_' :: c :: cs.map sanitizeChar) := by
  have hc : sanitizeChar c = c := by
    refine sanitizeChar_eq ?_
    unfold sanitizeChar
    split_ifs with hspecial
    · rcases hspecial with rfl | rfl | rfl <;> cases h
    · rintro rfl
      cases h
  have hsanitized : (s.toList.map sanitizeChar) = c :: cs.map sanitizeChar := by
    rw [hs, List.map_cons, hc]
  rw [escapeIdentifier, hsanitized, if_pos (by simpa using h), escapeKeyword, if_neg]
  intro hmem
  exact underscore_notMem_keywords _ hmem (by rw [String.toList_ofList]; exact List.mem_cons_self)

/-- A name in which nothing is replaced, without a digit in front, is escaped to itself unless it is
a keyword. -/
lemma escapeIdentifier_eq_self (h : (s.toList.head?.map Char.isDigit).getD false = false)
    (hs : underscored s = s) (hkey : s ∉ keywords) : escapeIdentifier s = s := by
  rw [escapeIdentifier_eq h, hs, escapeKeyword, if_neg hkey]

lemma sanitizeChar_sanitizeChar : sanitizeChar (sanitizeChar c) = sanitizeChar c := by
  by_cases hc : sanitizeChar c = '_'
  · rw [hc]
    rfl
  · rw [sanitizeChar_eq hc, sanitizeChar_eq hc]

lemma underscored_append (s t : String) :
    underscored (s ++ t) = underscored s ++ underscored t := by
  rw [underscored, String.toList_append, List.map_append, String.ofList_append]
  rfl

lemma underscored_underscored (s : String) : underscored (underscored s) = underscored s := by
  have hmap : (s.toList.map sanitizeChar).map sanitizeChar = s.toList.map sanitizeChar := by
    rw [List.map_map]
    exact List.map_congr_left fun _ _ => sanitizeChar_sanitizeChar
  rw [underscored, underscored, String.toList_ofList, hmap]

/-- Escaping twice is escaping once. -/
lemma escapeIdentifier_escapeIdentifier (s : String) :
    escapeIdentifier (escapeIdentifier s) = escapeIdentifier s := by
  rcases hs : s.toList with - | ⟨c, cs⟩
  · cases String.toList_eq_nil_iff.1 hs
    rfl
  by_cases hdigit : c.isDigit = true
  · -- the underscore in front keeps the name from being a keyword
    rw [escapeIdentifier_of_digit hs hdigit]
    have hlist : (String.ofList ('_' :: c :: cs.map sanitizeChar)).toList =
        '_' :: c :: cs.map sanitizeChar := String.toList_ofList
    refine escapeIdentifier_eq_self ?_ ?_ ?_
    · rw [hlist]
      rfl
    · have hc : sanitizeChar c = c := by
        refine sanitizeChar_of_isWordChar ?_
        rw [isWordChar, Char.isAlphanum, hdigit, Bool.or_true, Bool.true_or]
      rw [underscored, hlist, List.map_cons, List.map_cons, List.map_map, hc]
      have hrest : cs.map (sanitizeChar ∘ sanitizeChar) = cs.map sanitizeChar :=
        List.map_congr_left fun _ _ => sanitizeChar_sanitizeChar
      rw [hrest]
      rfl
    · intro hmem
      refine underscore_notMem_keywords _ hmem ?_
      rw [hlist]
      exact List.mem_cons_self
  · have hhead : (s.toList.head?.map Char.isDigit).getD false = false := by
      rw [hs]
      simpa using hdigit
    have hheadOf : ∀ t,
        ((underscored s ++ t).toList.head?.map Char.isDigit).getD false = false := by
      intro t
      rw [String.toList_append, underscored, String.toList_ofList, hs]
      exact isDigit_sanitizeChar (Bool.eq_false_iff.2 hdigit)
    rw [escapeIdentifier_eq hhead, escapeKeyword]
    split_ifs with hkey
    · -- the underscore behind a keyword keeps it from being one again
      refine escapeIdentifier_eq_self (hheadOf "_") ?_ fun hmem => ?_
      · rw [underscored_append, underscored_underscored]
        rfl
      · exact underscore_notMem_keywords _ hmem (underscore_mem_append _)
    · have hempty : (underscored s ++ "") = underscored s := String.append_empty
      exact escapeIdentifier_eq_self (hempty ▸ hheadOf "") (underscored_underscored s) hkey

/-- No name is escaped to a keyword. -/
lemma escapeIdentifier_notMem_keywords (s : String) : escapeIdentifier s ∉ keywords := by
  have hkeyword : ∀ t, escapeKeyword t ∉ keywords := by
    intro t hmem
    unfold escapeKeyword at hmem
    split_ifs at hmem with hkey
    · exact underscore_notMem_keywords _ hmem (underscore_mem_append _)
    · exact hkey hmem
  exact hkeyword _

end Escape

/-! ### Identifiers that a definition can have -/

section RustName

variable {s : String}

lemma underscore_notMem_rustKeywords : ∀ k ∈ rustKeywords, '_' ∉ k.toList := by
  intro k hk
  have h := List.all_eq_true.1
    (show (rustKeywords.all fun k => !k.toList.contains '_') = true from rfl) k hk
  simpa using h

/-- `escape_keyword` knows all keywords but one. -/
lemma mem_rustKeywords (h : s ∈ rustKeywords) : s ∈ keywords ∨ s = "Self" := by
  have hall : (rustKeywords.all fun k => keywords.contains k || k == "Self") = true := rfl
  simpa using List.all_eq_true.1 hall s h

/-- The names that are escaped to the lone underscore. -/
lemma underscored_eq_underscore : underscored s = "_" ↔ s ∈ ["_", "-", "$", "."] := by
  constructor
  · intro h
    have hlist : s.toList.map sanitizeChar = ['_'] := by
      rw [← String.toList_ofList (l := s.toList.map sanitizeChar)]
      exact congrArg String.toList h
    obtain ⟨c, hc, hunder⟩ := List.map_eq_singleton_iff.1 hlist
    have hs : s = String.ofList [c] := by rw [← hc, String.ofList_toList]
    unfold sanitizeChar at hunder
    rw [hs]
    split_ifs at hunder with hspecial
    · rcases hspecial with rfl | rfl | rfl <;> decide
    · rw [hunder]
      decide
  · intro h
    simp only [List.mem_cons, List.not_mem_nil, or_false] at h
    rcases h with rfl | rfl | rfl | rfl <;> rfl

/-- An escaped name is a word, and fails to be a name of Rust only where it is the underscore or
the keyword that is not looked for. -/
lemma isRustName_iff_of_word (h : IsWord s) (hkeywords : s ∉ keywords) :
    IsRustName s ↔ s ≠ "_" ∧ s ≠ "Self" := by
  constructor
  · intro hname
    refine ⟨hname.ne_underscore, ?_⟩
    rintro rfl
    exact hname.not_keyword (by decide)
  · rintro ⟨hunder, hself⟩
    refine ⟨h, hunder, fun hmem => ?_⟩
    exact (mem_rustKeywords hmem).elim hkeywords hself

end RustName

/-- A name over letters, digits, underscores, dollars, dots and hyphens is escaped to a name of Rust
unless it is a single character that becomes the lone underscore, or `Self`. -/
theorem isRustName_escapeIdentifier_iff (s : String) (hne : s ≠ "") (hs : IsSourceName s) :
    IsRustName (escapeIdentifier s) ↔ s ∉ ["_", "-", "$", ".", "Self"] := by
  have hword : IsWord (escapeIdentifier s) :=
    isWord_escapeIdentifier (fun c hc => isWordChar_sanitizeChar_iff.2 (hs c hc)) hne
  by_cases hdigit : (s.toList.head?.map Char.isDigit).getD false = true
  · -- the prefix keeps the name from being one of the exceptions
    obtain ⟨c, cs, hcs⟩ := List.exists_cons_of_ne_nil (mt String.toList_eq_nil_iff.1 hne)
    have hc : c.isDigit = true := by simpa [hcs] using hdigit
    have heq := escapeIdentifier_of_digit hcs hc
    have hlist : (escapeIdentifier s).toList = '_' :: c :: cs.map sanitizeChar := by
      rw [heq, String.toList_ofList]
    refine iff_of_true ⟨hword, fun hunder => ?_, fun hmem => ?_⟩ fun hmem => ?_
    · rw [hunder] at hlist
      cases hlist
    · exact underscore_notMem_rustKeywords _ hmem (by rw [hlist]; exact List.mem_cons_self)
    · simp only [List.mem_cons, List.not_mem_nil, or_false] at hmem
      rcases hmem with rfl | rfl | rfl | rfl | rfl <;> cases hcs <;> cases hc
  · have heq := escapeIdentifier_eq (Bool.eq_false_iff.2 hdigit)
    by_cases hkeyword : s ∈ keywords
    · -- a keyword gets an underscore, and no keyword of Rust has one
      have hmem := underscored_mem_keywords.2 hkeyword
      have hescaped : escapeIdentifier s = underscored s ++ "_" := by
        rw [heq, escapeKeyword, if_pos hmem]
      have hunder : '_' ∈ (escapeIdentifier s).toList := by
        rw [hescaped]
        exact underscore_mem_append _
      refine iff_of_true ⟨hword, fun hone => ?_, fun hmem' => ?_⟩ fun hmem' => ?_
      · rw [hescaped] at hone
        have hempty : underscored s = "" := by
          have hlen := congrArg String.length hone
          rw [String.length_append] at hlen
          exact String.length_eq_zero_iff.1 (by simpa using hlen)
        rw [hempty] at hmem
        exact absurd hmem (by decide)
      · exact underscore_notMem_rustKeywords _ hmem' hunder
      · simp only [List.mem_cons, List.not_mem_nil, or_false] at hmem'
        rcases hmem' with rfl | rfl | rfl | rfl | rfl <;> exact absurd hkeyword (by decide)
    · -- nothing is added, so that the exceptions are what the replacements give
      have hmem := mt underscored_mem_keywords.1 hkeyword
      have hescaped : escapeIdentifier s = underscored s := by rw [heq, escapeKeyword, if_neg hmem]
      rw [hescaped] at hword ⊢
      rw [isRustName_iff_of_word hword hmem, ne_eq, underscored_eq_underscore]
      have hself : underscored s = "Self" ↔ s = "Self" := by
        constructor
        · exact fun h => eq_of_underscored h (by decide)
        · rintro rfl
          rfl
      show _ ↔ s ∉ ["_", "-", "$", "."] ++ ["Self"]
      rw [ne_eq, hself, List.mem_append, not_or, List.mem_singleton]

theorem isRustName_escapeIdentifier_iff_type :
    "type" ≠ "" ∧ IsSourceName "type" ∧
      (IsRustName (escapeIdentifier "type") ↔ "type" ∉ ["_", "-", "$", ".", "Self"]) := by
  have hs : IsSourceName "type" := List.all_eq_true.1 rfl
  exact ⟨by decide, hs, isRustName_escapeIdentifier_iff "type" (by decide) hs⟩

/-- `Self` is escaped to itself. -/
theorem not_isRustName_self :
    ¬ ∀ s : String, s ≠ "" → IsSourceName s → IsRustName (escapeIdentifier s) := by
  intro hall
  exact (hall "Self" (by decide) (List.all_eq_true.1 rfl)).not_keyword (by decide)

/-! ### Identifiers that are distinct -/

/-- The names differ where neither is a dollar and the other an underscore, and neither is a
keyword that gets the other's name from its underscore. -/
structure NamesApart (s t : String) : Prop where
  underscored_ne : underscored s ≠ underscored t
  left_ne : s ∈ keywords → underscored t ≠ s ++ "_"
  right_ne : t ∈ keywords → underscored s ≠ t ++ "_"

section Apart

variable {N : Naming} {s t : String}

lemma IsDamlIdentifier.escapeIdentifier_eq (h : IsDamlIdentifier s) :
    escapeIdentifier s = if s ∈ keywords then s ++ "_" else underscored s := by
  have hdigit : (s.toList.head?.map Char.isDigit).getD false = false := by
    obtain ⟨c, hc, hdigit⟩ := h.head
    rw [Option.mem_def.1 hc]
    exact hdigit
  rw [Codegen.escapeIdentifier_eq hdigit, escapeKeyword]
  simp only [underscored_mem_keywords]
  split_ifs with hkeyword
  · rw [underscored_of_mem_keywords hkeyword]
  · rfl

lemma ne_append_underscore (h : s ∈ keywords) (t : String) : s ≠ t ++ "_" := by
  rintro rfl
  exact underscore_notMem_keywords _ h (underscore_mem_append t)

/-- Two names are escaped to one identifier exactly if they are not apart. -/
lemma escapeIdentifier_ne_iff (hs : IsDamlIdentifier s) (ht : IsDamlIdentifier t) :
    escapeIdentifier s ≠ escapeIdentifier t ↔ NamesApart s t := by
  rw [hs.escapeIdentifier_eq, ht.escapeIdentifier_eq]
  by_cases hskey : s ∈ keywords <;> by_cases htkey : t ∈ keywords
  · rw [if_pos hskey, if_pos htkey]
    constructor
    · intro hne
      refine ⟨fun heq => hne ?_, fun _ => ?_, fun _ => ?_⟩
      · rw [underscored_of_mem_keywords hskey, underscored_of_mem_keywords htkey] at heq
        rw [heq]
      · rw [underscored_of_mem_keywords htkey]
        exact ne_append_underscore htkey s
      · rw [underscored_of_mem_keywords hskey]
        exact ne_append_underscore hskey t
    · intro h heq
      exact h.underscored_ne (congrArg underscored ((String.append_left_inj "_").1 heq))
  · -- only one of them gets an underscore, and the other may be written with it
    rw [if_pos hskey, if_neg htkey]
    constructor
    · intro hne
      refine ⟨fun heq => ?_, fun _ heq => hne heq.symm, fun h => absurd h htkey⟩
      exact htkey (underscored_mem_keywords.1 (heq ▸ underscored_mem_keywords.2 hskey))
    · exact fun h heq => h.left_ne hskey heq.symm
  · rw [if_neg hskey, if_pos htkey]
    constructor
    · intro hne
      refine ⟨fun heq => ?_, fun h => absurd h hskey, fun _ heq => hne heq⟩
      exact hskey (underscored_mem_keywords.1 (heq ▸ underscored_mem_keywords.2 htkey))
    · exact fun h heq => h.right_ne htkey heq
  · rw [if_neg hskey, if_neg htkey]
    exact ⟨fun hne => ⟨hne, fun h => absurd h hskey, fun h => absurd h htkey⟩,
      fun h => h.underscored_ne⟩

lemma nodup_map_escapeIdentifier {names : List String} (h : ∀ s ∈ names, IsDamlIdentifier s) :
    (names.map escapeIdentifier).Nodup ↔ names.Pairwise NamesApart := by
  rw [List.Nodup, List.pairwise_map]
  constructor
  · exact fun hpair => hpair.imp_of_mem fun hs ht hne =>
      (escapeIdentifier_ne_iff (h _ hs) (h _ ht)).1 hne
  · exact fun hpair => hpair.imp_of_mem fun hs ht hapart =>
      (escapeIdentifier_ne_iff (h _ hs) (h _ ht)).2 hapart

/-- The labels of fields are their escaped names. -/
lemma labels_of_quoteField {fields : List (DamlField DamlType)} {body : List FieldTokens}
    (h : fields.mapM (quoteField N) = .ok body) :
    body.map FieldTokens.label = (fields.map DamlField.name).map escapeIdentifier := by
  rw [List.map_map]
  exact Except.map_eq_of_mapM h fun _ _ ht =>
    (quoteEscapedIdent_eq_ok.1 (quoteField_eq_ok.1 ht).1).2.symm

/-- The names of constructors are their escaped names. -/
lemma names_of_quoteConstructor {fields : List (DamlField DamlType)} {body : List ConstructorTokens}
    (h : fields.mapM (quoteConstructor N) = .ok body) :
    body.map ConstructorTokens.name = (fields.map DamlField.name).map escapeIdentifier := by
  rw [List.map_map]
  exact Except.map_eq_of_mapM h fun _ _ hc =>
    (quoteEscapedIdent_eq_ok.1 (quoteConstructor_eq_ok.1 hc).1).2.symm

end Apart

/-- The fields of a rendered struct, and the constructors of a rendered enum, have distinct
identifiers if and only if their names are apart from each other. -/
theorem labels_nodup_iff (N : Naming) (ctx : RenderContext) :
    (∀ (r : DamlRecord) (s : StructTokens), (∀ f ∈ r.fields, IsDamlIdentifier f.name) →
      quoteStruct N r.name (supportedFields ctx r.fields) r.typeParams = .ok s →
      ((s.body.map FieldTokens.label).Nodup ↔
        ((supportedFields ctx r.fields).map DamlField.name).Pairwise NamesApart)) ∧
    (∀ (v : DamlVariant) (s : EnumTokens), (∀ f ∈ v.fields, IsDamlIdentifier f.name) →
      quoteVariant N v.name (supportedFields ctx v.fields) v.typeParams = .ok s →
      ((s.body.map ConstructorTokens.name).Nodup ↔
        ((supportedFields ctx v.fields).map DamlField.name).Pairwise NamesApart)) ∧
    ∀ (e : DamlEnum) (s : EnumTokens), (∀ c ∈ e.constructors, IsDamlIdentifier c) →
      quoteEnum N e = .ok s →
      ((s.body.map ConstructorTokens.name).Nodup ↔ e.constructors.Pairwise NamesApart) := by
  have hsupported : ∀ fields : List (DamlField DamlType), (∀ f ∈ fields, IsDamlIdentifier f.name) →
      ∀ s ∈ (supportedFields ctx fields).map DamlField.name, IsDamlIdentifier s := by
    intro fields hfields s hs
    obtain ⟨f, hf, rfl⟩ := List.mem_map.1 hs
    exact hfields f (List.mem_of_mem_filter hf)
  refine ⟨fun r s hr h => ?_, fun v s hv h => ?_, fun e s he h => ?_⟩
  · rw [labels_of_quoteField (quotedStruct_of_ok h).body]
    exact nodup_map_escapeIdentifier (hsupported _ hr)
  · rw [names_of_quoteConstructor (quotedEnum_of_ok h).body]
    exact nodup_map_escapeIdentifier (hsupported _ hv)
  · rw [Except.map_eq_of_mapM (quotedConstructors_of_ok h).body fun _ _ hc =>
      (of_quoteConstructorIdent hc).1]
    exact nodup_map_escapeIdentifier he

/-- A record with two fields. -/
def pairRecord (first second : String) : DamlRecord :=
  ⟨"Pair", "pkg", ["Main"], [⟨first, .int64⟩, ⟨second, .int64⟩], [], true⟩

/-- A variant with two constructors. -/
def pairVariant (first second : String) : DamlVariant :=
  ⟨"Pair", "pkg", ["Main"], [⟨first, .int64⟩, ⟨second, .unit⟩], [], true⟩

/-- An enum with two constructors. -/
def pairEnum (first second : String) : DamlEnum :=
  ⟨"Pair", "pkg", ["Main"], [first, second], [], true⟩

/-- `data Pair = Pair with left : Int; right : Int`, and a variant and an enum like it. -/
theorem labels_nodup_iff_pair :
    (∃ s, quoteStruct wordNaming "Pair"
        (supportedFields emptyContext (pairRecord "left" "right").fields) [] = .ok s ∧
      ((s.body.map FieldTokens.label).Nodup ↔
        ((supportedFields emptyContext (pairRecord "left" "right").fields).map
          DamlField.name).Pairwise NamesApart)) ∧
    (∃ s, quoteVariant wordNaming "Pair"
        (supportedFields emptyContext (pairVariant "Left" "Right").fields) [] = .ok s ∧
      ((s.body.map ConstructorTokens.name).Nodup ↔
        ((supportedFields emptyContext (pairVariant "Left" "Right").fields).map
          DamlField.name).Pairwise NamesApart)) ∧
    ∃ s, quoteEnum wordNaming (pairEnum "Left" "Right") = .ok s ∧
      ((s.body.map ConstructorTokens.name).Nodup ↔
        (pairEnum "Left" "Right").constructors.Pairwise NamesApart) := by
  have hleft : IsDamlIdentifier "left" := ⟨List.all_eq_true.1 rfl, 'l', rfl, rfl⟩
  have hright : IsDamlIdentifier "right" := ⟨List.all_eq_true.1 rfl, 'r', rfl, rfl⟩
  have hLeft : IsDamlIdentifier "Left" := ⟨List.all_eq_true.1 rfl, 'L', rfl, rfl⟩
  have hRight : IsDamlIdentifier "Right" := ⟨List.all_eq_true.1 rfl, 'R', rfl, rfl⟩
  obtain ⟨hrecord, hvariant, henum⟩ := labels_nodup_iff wordNaming emptyContext
  refine ⟨⟨_, rfl, hrecord (pairRecord "left" "right") _ ?_ rfl⟩,
    ⟨_, rfl, hvariant (pairVariant "Left" "Right") _ ?_ rfl⟩,
    ⟨_, rfl, henum (pairEnum "Left" "Right") _ ?_ rfl⟩⟩
  · exact List.forall_mem_cons.2 ⟨hleft, List.forall_mem_singleton.2 hright⟩
  · exact List.forall_mem_cons.2 ⟨hLeft, List.forall_mem_singleton.2 hRight⟩
  · exact List.forall_mem_cons.2 ⟨hLeft, List.forall_mem_singleton.2 hRight⟩

/-- The fields `self` and `self_` are both rendered as `self_`. -/
theorem not_labels_nodup_self :
    ¬ ∀ (N : Naming) (ctx : RenderContext) (r : DamlRecord) (s : StructTokens),
      (∀ f ∈ r.fields, IsDamlIdentifier f.name) → (r.fields.map DamlField.name).Nodup →
      quoteStruct N r.name (supportedFields ctx r.fields) r.typeParams = .ok s →
      (s.body.map FieldTokens.label).Nodup := by
  intro hall
  have hself : IsDamlIdentifier "self" := ⟨List.all_eq_true.1 rfl, 's', rfl, rfl⟩
  have hself' : IsDamlIdentifier "self_" := ⟨List.all_eq_true.1 rfl, 's', rfl, rfl⟩
  have h := hall wordNaming emptyContext (pairRecord "self" "self_") _
    (List.forall_mem_cons.2 ⟨hself, List.forall_mem_singleton.2 hself'⟩) (by decide) rfl
  exact absurd h (by decide)

end DamlBindings.Codegen
