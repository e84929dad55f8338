import Mathlib.Data.List.DropRight
import Mathlib.Tactic.Lemma

/-!
# The YAML reader

`yaml_rust2` is another crate.  What the manifest uses of it enters as a `YamlLoader`, and what is
relied on is about one kind of document: a block mapping of plain scalars that may go on over
several lines, each of them indented.  Such a scalar is folded, every line break with the blanks
around it to one blank.  At the end of the file stands a reader for these documents alone.
-/

namespace DamlBindings.Lf

/-- `Yaml`. -/
inductive Yaml
  | real (text : String)
  | integer (value : Int)
  | string (text : String)
  | boolean (value : Bool)
  | array (elements : List Yaml)
  | hash (entries : List (Yaml × Yaml))
  | null
  | badValue

namespace Yaml

/-- `Yaml::as_str` -/
def asStr : Yaml → Option String
  | .string text => some text
  | _ => none

/-- `Yaml::is_badvalue` -/
def isBadvalue : Yaml → Bool
  | .badValue => true
  | _ => false

/-- The value at the first key that is the string. -/
def find (key : String) : List (Yaml × Yaml) → Yaml
  | [] => .badValue
  | (.string key', value) :: entries => if key' = key then value else find key entries
  | _ :: entries => find key entries

/-- `doc[key]` -/
def index (doc : Yaml) (key : String) : Yaml :=
  match doc with
  | .hash entries => find key entries
  | _ => .badValue

end Yaml

/-- What the manifest uses of the reader. -/
structure YamlLoader where
  /-- `YamlLoader::load_from_str`, where an error is its text. -/
  loadFromStr : String → Except String (List Yaml)
  /-- The value of a plain scalar. -/
  fromStr : String → Yaml
  /-- A floating point text, as `format!` writes it with one decimal place. -/
  formatFloat : String → Option String

/-! ### Block mappings -/

/-- `char::is_whitespace`, the characters with the Unicode property `White_Space`. -/
def isWhitespace (c : Char) : Bool :=
  (0x09 ≤ c.toNat && c.toNat ≤ 0x0d) || (0x2000 ≤ c.toNat && c.toNat ≤ 0x200a) ||
    [0x20, 0x85, 0xa0, 0x1680, 0x2028, 0x2029, 0x202f, 0x205f, 0x3000].contains c.toNat

/-- The characters of the YAML syntax. -/
def indicators : List Char :=
  ['-', '?', ':', ',', '[', ']', '\x7b', '\x7d', '#', '&', '*', '!', '|', '>', '\'', '"', '%', '@',
    '\x60']

/-- The characters that a YAML text may have, the white ones and the byte order mark apart. -/
def isYamlPrintable (c : Char) : Bool :=
  !isWhitespace c && ((0x21 ≤ c.toNat && c.toNat ≤ 0x7e) ||
    (0xa0 ≤ c.toNat && c.toNat ≤ 0xfffd && c.toNat != 0xfeff) || 0x10000 ≤ c.toNat)

/-- What may stand inside a plain scalar of a block mapping, next to anything else of the kind. -/
def isPlainChar (c : Char) : Bool :=
  isYamlPrintable c && (!indicators.contains c || c == '-' || c == ',')

/-- A key with its plain scalar: the text after the key, and the lines on which it goes on. -/
structure BlockEntry where
  key : List Char
  head : List Char
  tail : List (List Char)

namespace BlockEntry

/-- The lines of an entry. -/
def lines (e : BlockEntry) : List (List Char) :=
  (e.key ++ ':' :: ' ' :: e.head) :: e.tail.map (' ' :: ·)

/-- The scalar begins with what can only begin a plain scalar, and no line of it is blank.  A key
has at most 1024 characters. -/
structure Plain (e : BlockEntry) : Prop where
  key_start : ∃ c ks, e.key = c :: ks ∧ c.isAlpha
  key_chars : ∀ c ∈ e.key, c.isAlpha ∨ c = '-'
  key_length : e.key.length ≤ 1024
  chars : ∀ l ∈ e.head :: e.tail, ∀ c ∈ l, isPlainChar c ∨ c = ' '
  start : ∀ c, e.head.head? = some c → c ∉ indicators ∧ c ≠ ' '
  nonblank : ∀ l ∈ e.tail, ∃ c ∈ l, c ≠ ' '
  tail_eq_nil : e.head = [] → e.tail = []

end BlockEntry

/-- A text without the blanks around it. -/
def trim (cs : List Char) : List Char := (cs.dropWhile (· == ' ')).rdropWhile (· == ' ')

/-- The text that the lines of a plain scalar stand for. -/
def fold (lines : List (List Char)) : List Char := [' '].intercalate (lines.map trim)

/-- The document of a block mapping. -/
def document (es : List BlockEntry) : List Char :=
  ['\n'].intercalate (es.flatMap BlockEntry.lines)

/-- The null and the boolean values, and the numbers that are words. -/
def reservedWords : List String :=
  ["", "~", "null", "Null", "NULL", "true", "True", "TRUE", "false", "False", "FALSE",
    ".inf", ".Inf", ".INF", "+.inf", "+.Inf", "+.INF", "-.inf", "-.Inf", "-.INF",
    ".nan", ".NaN", ".NAN"]

/-- The characters that the other numbers are written with. -/
def numberChars : List Char := "0123456789abcdefABCDEFox+-.".toList

/-- What the manifest relies on about the reader. -/
structure YamlLoader.Lawful (yaml : YamlLoader) : Prop where
  loadFromStr_document (es : List BlockEntry) : es ≠ [] → (∀ e ∈ es, e.Plain) →
    (es.map BlockEntry.key).Nodup →
    yaml.loadFromStr (String.ofList (document es)) =
      .ok [.hash (es.map fun e => (yaml.fromStr (String.ofList e.key),
        yaml.fromStr (String.ofList (fold (e.head :: e.tail)))))]
  fromStr_empty : yaml.fromStr "" = .null
  fromStr_string (s : String) : s ∉ reservedWords → (∃ c ∈ s.toList, c ∉ numberChars) →
    yaml.fromStr s = .string s
  fromStr_one : yaml.fromStr "1.0" = .real "1.0"
  formatFloat_one : yaml.formatFloat "1.0" = some "1.0"

/-! ### A reader for block mappings -/

/-- The text before the first `": "` and the text after it. -/
def splitKey : List Char → List Char × List Char
  | [] => ([], [])
  | ':' :: ' ' :: value => ([], value)
  | c :: cs => (c :: (splitKey cs).1, (splitKey cs).2)

/-- The lines before the first entry, each without its indentation, and the entries. -/
def groupLines : List (List Char) → List (List Char) × List BlockEntry
  | [] => ([], [])
  | (' ' :: l) :: ls => (l :: (groupLines ls).1, (groupLines ls).2)
  | l :: ls =>
    ([], ⟨(splitKey l).1, (splitKey l).2, (groupLines ls).1⟩ :: (groupLines ls).2)

/-- Numbers without sign and exponent, and the other values by their one spelling. -/
def plainScalar (s : String) : Yaml :=
  if s ∈ ["", "~", "null"] then .null
  else if s = "true" then .boolean true
  else if s = "false" then .boolean false
  else if s.toList.all Char.isDigit then .integer (s.toNat?.getD 0)
  else if s.toList.all (fun c => c.isDigit || c == '.') && s.toList.count '.' == 1 then .real s
  else .string s

/-- The reader: a text with an indented line at the beginning is no mapping. -/
def blockLoader : YamlLoader where
  loadFromStr text :=
    match groupLines (text.toList.splitOn '\n') with
    | ([], es) => .ok [.hash (es.map fun e => (plainScalar (String.ofList e.key),
        plainScalar (String.ofList (fold (e.head :: e.tail)))))]
    | _ => .error "expected a block mapping"
  fromStr := plainScalar
  formatFloat text := if text.toList.reverse[1]? = some '.' then some text else none

lemma splitKey_append {key : List Char} (hkey : ':' ∉ key) (value : List Char) :
    splitKey (key ++ ':' :: ' ' :: value) = (key, value) := by
  induction key with
  | nil => rfl
  | cons c key ih =>
    have hc : c ≠ ':' := fun h => hkey (by simp [h])
    have hkey' : ':' ∉ key := fun h => hkey (List.mem_cons_of_mem c h)
    rw [List.cons_append, splitKey, ih hkey']
    rintro _ rfl
    exact absurd rfl hc

lemma groupLines_lines {e : BlockEntry} (he : e.Plain) {ls : List (List Char)}
    {es : List BlockEntry} (hls : groupLines ls = ([], es)) :
    groupLines (e.lines ++ ls) = ([], e :: es) := by
  have htail : ∀ tail : List (List Char), groupLines (tail.map (' ' :: ·) ++ ls) = (tail, es) := by
    intro tail
    induction tail with
    | nil => exact hls
    | cons l tail ih => rw [List.map_cons, List.cons_append, groupLines, ih]
  have hkey : ':' ∉ e.key := by
    intro h
    rcases he.key_chars ':' h with hc | hc
    · exact absurd hc (by decide)
    · exact absurd hc (by decide)
  obtain ⟨c, ks, hks, hc⟩ := he.key_start
  have hblank : c ≠ ' ' := by
    rintro rfl
    exact absurd hc (by decide)
  have hsplit := splitKey_append hkey e.head
  rw [BlockEntry.lines, List.cons_append, groupLines, htail, hsplit]
  intro l hl
  rw [hks, List.cons_append] at hl
  exact hblank (List.cons.inj hl).1

lemma groupLines_flatMap {es : List BlockEntry} (hes : ∀ e ∈ es, e.Plain) :
    groupLines (es.flatMap BlockEntry.lines) = ([], es) := by
  induction es with
  | nil => rfl
  | cons e es ih =>
    rw [List.flatMap_cons]
    exact groupLines_lines (hes e (by simp)) (ih fun e' he' => hes e' (by simp [he']))

lemma newline_not_mem_lines {e : BlockEntry} (he : e.Plain) {l : List Char} (hl : l ∈ e.lines) :
    '\n' ∉ l := by
  have hvalue : ∀ l' ∈ e.head :: e.tail, '\n' ∉ l' := by
    intro l' hl' hmem
    rcases he.chars l' hl' '\n' hmem with h | h
    · exact absurd h (by decide)
    · exact absurd h (by decide)
  have hkey : '\n' ∉ e.key := by
    intro hmem
    rcases he.key_chars '\n' hmem with h | h
    · exact absurd h (by decide)
    · exact absurd h (by decide)
  rw [BlockEntry.lines, List.mem_cons, List.mem_map] at hl
  rcases hl with rfl | ⟨l', hl', rfl⟩
  · simp [hkey, hvalue e.head (by simp)]
  · simp [hvalue l' (by simp [hl'])]

lemma plainScalar_of_not_reserved {s : String} (hs : s ∉ reservedWords)
    (hc : ∃ c ∈ s.toList, c ∉ numberChars) : plainScalar s = .string s := by
  obtain ⟨c, hmem, hc⟩ := hc
  have hdigit : c.isDigit = false ∧ (c == '.') = false := by
    constructor
    · rw [Bool.eq_false_iff]
      intro h
      have hrange : 48 ≤ c.toNat ∧ c.toNat ≤ 57 := by
        simpa [Char.isDigit, UInt32.le_iff_toNat_le] using h
      have hall : ∀ n : Fin 10, Char.ofNat (48 + n) ∈ numberChars := by decide
      have hc' := hall ⟨c.toNat - 48, by omega⟩
      rw [show 48 + (c.toNat - 48) = c.toNat by omega, Char.ofNat_toNat] at hc'
      exact hc hc'
    · rw [beq_eq_false_iff_ne]
      rintro rfl
      exact hc (by decide)
  have hnull : s ∉ ["", "~", "null"] := fun h => hs (List.mem_of_mem_take (i := 3) h)
  have htrue : s ≠ "true" := by
    rintro rfl
    exact hs (by decide)
  have hfalse : s ≠ "false" := by
    rintro rfl
    exact hs (by decide)
  have hint : ¬ s.toList.all Char.isDigit = true := by
    intro h
    have := List.all_eq_true.1 h c hmem
    simp [hdigit.1] at this
  have hreal :
      ¬ (s.toList.all (fun c => c.isDigit || c == '.') && s.toList.count '.' == 1) = true := by
    intro h
    have := List.all_eq_true.1 (Bool.and_eq_true_iff.1 h).1 c hmem
    simp [hdigit] at this
  rw [plainScalar, if_neg hnull, if_neg htrue, if_neg hfalse, if_neg hint, if_neg hreal]

theorem blockLoader_lawful : blockLoader.Lawful where
  loadFromStr_document es hes hplain _ := by
    have hlines : ∀ l ∈ es.flatMap BlockEntry.lines, '\n' ∉ l := by
      intro l hl
      obtain ⟨e, he, hl⟩ := List.mem_flatMap.1 hl
      exact newline_not_mem_lines (hplain e he) hl
    have hne : es.flatMap BlockEntry.lines ≠ [] := by
      obtain ⟨e, es, rfl⟩ := List.exists_cons_of_ne_nil hes
      simp [BlockEntry.lines]
    have hsplit := List.splitOn_intercalate '\n' hlines hne
    simp only [blockLoader, document, String.toList_ofList, hsplit, groupLines_flatMap hplain]
  fromStr_empty := rfl
  fromStr_string _ := plainScalar_of_not_reserved
  fromStr_one := rfl
  formatFloat_one := rfl

end DamlBindings.Lf
