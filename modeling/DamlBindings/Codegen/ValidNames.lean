import DamlBindings.Codegen.Renders

/-!
# Valid names

Which texts are names in Daml-LF, and what they become when they are quoted.  A name is quoted
without a panic, and its snake case is unless nothing is left of it.
-/

namespace DamlBindings.Codegen

open Lf Worklist

/-- A letter, digit or underscore, or one of the characters that `escape_identifier` replaces. -/
def isNameChar (c : Char) : Bool := isWordChar c || c == '$' || c == '-'

/-- A text of such characters, which may be empty. -/
def IsText (s : String) : Prop := ∀ c ∈ s.toList, isNameChar c = true

/-- An identifier of Rust in ASCII. -/
structure IsWord (s : String) : Prop where
  chars : ∀ c ∈ s.toList, isWordChar c = true
  head : ∃ c ∈ s.toList.head?, c.isDigit = false

/-- An identifier of Daml-LF. -/
structure IsDamlIdentifier (s : String) : Prop where
  chars : ∀ c ∈ s.toList, (isWordChar c || c == '$') = true
  head : ∃ c ∈ s.toList.head?, c.isDigit = false

/-- The name of a package. -/
structure IsPackageName (s : String) : Prop where
  chars : ∀ c ∈ s.toList, (isWordChar c || c == '-') = true
  nonempty : s ≠ ""

/-- What the crates behind `Naming` document, as far as the names of Daml-LF go: `Ident::new`
accepts the identifiers of Rust, keywords among them, and panics on an empty text; `to_snake_case`
joins words of letters and digits with underscores, and an empty text has no words. -/
structure Naming.Documented (N : Naming) : Prop where
  isIdent_word : ∀ s, IsWord s → N.isIdent s = true
  isIdent_empty : N.isIdent "" = false
  snakeCase_empty : N.toSnakeCase "" = ""
  snakeCase_word : ∀ s, IsText s → ∀ c ∈ (N.toSnakeCase s).toList, isWordChar c = true

lemma IsDamlIdentifier.isText {s : String} (h : IsDamlIdentifier s) : IsText s := by
  intro c hc
  have hchar := h.chars c hc
  rw [isNameChar, hchar, Bool.true_or]

lemma IsDamlIdentifier.ne_empty {s : String} (h : IsDamlIdentifier s) : s ≠ "" := by
  rintro rfl
  obtain ⟨c, hc, -⟩ := h.head
  cases hc

lemma IsPackageName.isText {s : String} (h : IsPackageName s) : IsText s := by
  intro c hc
  have hchar := h.chars c hc
  simp only [Bool.or_eq_true] at hchar
  rcases hchar with hchar | hchar <;> simp [isNameChar, hchar]

lemma isText_append {s s' : String} (h : IsText s) (h' : IsText s') : IsText (s ++ s') := by
  intro c hc
  rw [String.toList_append, List.mem_append] at hc
  exact hc.elim (h c) (h' c)

lemma isText_of_word {s : String} (h : ∀ c ∈ s.toList, isWordChar c = true) : IsText s := by
  intro c hc
  rw [isNameChar, h c hc, Bool.true_or, Bool.true_or]

/-! ### Escaped identifiers -/

lemma isWordChar_sanitizeChar {c : Char} (h : isNameChar c = true) :
    isWordChar (sanitizeChar c) = true := by
  unfold sanitizeChar
  split_ifs with hspecial
  · rfl
  · simp only [isNameChar, Bool.or_eq_true, beq_iff_eq] at h
    tauto

lemma isWord_escapeKeyword {s : String} (h : IsWord s) : IsWord (escapeKeyword s) := by
  unfold escapeKeyword
  split_ifs
  · obtain ⟨c, hc, hdigit⟩ := h.head
    refine ⟨fun c hc => ?_, c, ?_, hdigit⟩
    · rw [String.toList_append, List.mem_append] at hc
      rcases hc with hc | hc
      · exact h.chars c hc
      · cases List.mem_singleton.1 hc
        rfl
    · rw [String.toList_append, List.head?_append, Option.mem_def.1 hc, Option.some_or]
      rfl
  · exact h

lemma isWord_escapeIdentifier {s : String}
    (h : ∀ c ∈ s.toList, isWordChar (sanitizeChar c) = true) (hne : s ≠ "") :
    IsWord (escapeIdentifier s) := by
  refine isWord_escapeKeyword ?_
  obtain ⟨c, cs, hs⟩ := List.exists_cons_of_ne_nil (mt String.toList_eq_nil_iff.1 hne)
  rw [hs] at h
  have hchars : ∀ c' ∈ (c :: cs).map sanitizeChar, isWordChar c' = true := by
    rw [List.forall_mem_map]
    exact h
  rw [hs, List.map_cons] at *
  constructor
  · rw [String.toList_ofList]
    split_ifs
    · exact List.forall_mem_cons.2 ⟨rfl, hchars⟩
    · exact hchars
  · rw [String.toList_ofList]
    split_ifs with hdigit
    · exact ⟨'_', rfl, rfl⟩
    · exact ⟨sanitizeChar c, rfl, by simpa using hdigit⟩

section Documented

variable {N : Naming} (hN : N.Documented)

include hN

/-- A text is quoted unless it is empty. -/
lemma quotes_iff_ne_empty {s : String} (h : IsText s) : Quotes N s ↔ s ≠ "" := by
  constructor
  · rintro hquotes rfl
    have hempty : escapeIdentifier "" = "" := by decide
    rw [Quotes, quoteEscapedIdent, hempty, renders_quoteIdent, hN.isIdent_empty] at hquotes
    cases hquotes
  · intro hne
    have hchars : ∀ c ∈ s.toList, isWordChar (sanitizeChar c) = true :=
      fun c hc => isWordChar_sanitizeChar (h c hc)
    exact renders_quoteIdent.2 (hN.isIdent_word _ (isWord_escapeIdentifier hchars hne))

lemma quotes_identifier {s : String} (h : IsDamlIdentifier s) : Quotes N s :=
  (quotes_iff_ne_empty hN h.isText).2 h.ne_empty

lemma isText_snakeCase {s : String} (h : IsText s) : IsText (N.toSnakeCase s) :=
  isText_of_word (hN.snakeCase_word s h)

lemma quotes_snakeCase {s : String} (h : IsText s) :
    Quotes N (N.toSnakeCase s) ↔ N.toSnakeCase s ≠ "" :=
  quotes_iff_ne_empty hN (isText_snakeCase hN h)

/-- What is put after a text keeps it from being empty. -/
lemma quotes_append {s suffix : String} (h : IsText s) (hsuffix : IsText suffix)
    (hne : suffix ≠ "") : Quotes N (s ++ suffix) := by
  refine (quotes_iff_ne_empty hN (isText_append h hsuffix)).2 fun hempty => hne ?_
  exact (String.append_eq_empty_iff.1 hempty).2

end Documented

end DamlBindings.Codegen
