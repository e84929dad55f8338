import DamlBindings.Lf.Manifest
import Mathlib.Data.List.Chain

/-!
# Reading a rendered manifest back

The text of a rendered manifest is the document of a block mapping, where the lines of an entry
are the lines of its text.  What `parse` makes of an entry follows from what the lines have of the
text: nothing is lost in an entry that breaks no character off, up to the blanks that come in where
lines are folded.  The main result says which manifests are read back as they are.
-/

namespace DamlBindings.Lf

open Utf8Lossy

/-! ### Splitting and folding -/

section Lists

variable {α : Type*}

lemma filter_intercalate (q : α → Bool) (sep : List α) (ls : List (List α)) :
    (sep.intercalate ls).filter q = (sep.filter q).intercalate (ls.map (List.filter q)) := by
  induction ls with
  | nil => rfl
  | cons l ls ih =>
    rcases ls with - | ⟨l', ls⟩
    · simp
    · rw [List.intercalate_cons_cons, List.filter_append, List.filter_append, ih]
      simp only [List.map_cons, List.intercalate_cons_cons]

lemma filter_dropWhile {p q : α → Bool} (h : ∀ a, p a = true → q a = false) (l : List α) :
    (l.dropWhile p).filter q = l.filter q := by
  induction l with
  | nil => rfl
  | cons a l ih =>
    rw [List.dropWhile_cons]
    split_ifs with ha
    · rw [ih, List.filter_cons_of_neg (by simp [h a ha])]
    · rfl

lemma intercalate_append {sep : List α} {ls ms : List (List α)} (hls : ls ≠ []) (hms : ms ≠ []) :
    sep.intercalate (ls ++ ms) = sep.intercalate ls ++ (sep ++ sep.intercalate ms) := by
  induction ls with
  | nil => exact absurd rfl hls
  | cons l ls ih =>
    rcases ls with - | ⟨l', ls⟩
    · rw [List.singleton_append, List.intercalate_singleton, List.intercalate_cons_of_ne_nil hms]
      simp
    · rw [List.cons_append, List.intercalate_cons_of_ne_nil (by simp), ih (by simp),
        List.intercalate_cons_cons]
      simp

/-- Joining what is joined already is joining everything. -/
lemma intercalate_map_intercalate {sep : List α} {lss : List (List (List α))}
    (h : ∀ ls ∈ lss, ls ≠ []) :
    sep.intercalate (lss.map sep.intercalate) = sep.intercalate lss.flatten := by
  induction lss with
  | nil => rfl
  | cons ls lss ih =>
    have hls := h ls (by simp)
    have ih' := ih fun ls' hls' => h ls' (by simp [hls'])
    rcases lss with - | ⟨ls', lss⟩
    · simp
    · have hne : (ls' :: lss).flatten ≠ [] := by
        rw [List.flatten_cons]
        exact List.append_ne_nil_of_left_ne_nil (h ls' (by simp)) _
      rw [List.map_cons, List.intercalate_cons_of_ne_nil (by simp), ih',
        show (ls :: ls' :: lss).flatten = ls ++ (ls' :: lss).flatten from rfl,
        intercalate_append hls hne, List.append_assoc]

variable [DecidableEq α] {a : α}

lemma length_splitOn (l : List α) : (l.splitOn a).length = l.count a + 1 := by
  induction l with
  | nil => rfl
  | cons b l ih =>
    rw [List.splitOn_cons_eq_if_modifyHead]
    split_ifs with hb
    · rw [List.length_cons, ih, eq_of_beq hb, List.count_cons_self]
    · rw [List.length_modifyHead, ih, List.count_cons_of_ne]
      rintro rfl
      exact hb (beq_self_eq_true _)

lemma map_filter_splitOn {q : α → Bool} (ha : q a = true) (l : List α) :
    (l.splitOn a).map (List.filter q) = (l.filter q).splitOn a := by
  induction l with
  | nil => rfl
  | cons b l ih =>
    rw [List.splitOn_cons_eq_if_modifyHead]
    by_cases hb : (b == a) = true
    · obtain rfl := eq_of_beq hb
      rw [if_pos hb, List.map_cons, ih, List.filter_cons_of_pos ha,
        List.splitOn_cons_eq_if_modifyHead, if_pos hb, List.filter_nil]
    · rw [if_neg hb]
      obtain ⟨s, ss, hs⟩ := List.exists_cons_of_ne_nil (List.splitOn_ne_nil a l)
      rw [hs] at ih ⊢
      rw [List.modifyHead_cons, List.map_cons, List.filter_cons]
      split_ifs with hq
      · rw [List.filter_cons_of_pos hq, List.splitOn_cons_eq_if_modifyHead, if_neg hb, ← ih]
        rfl
      · rw [List.filter_cons_of_neg hq, ← ih]
        rfl

end Lists

/-- The text without its white characters. -/
def strip (cs : List Char) : List Char := cs.filter fun c => !isWhitespace c

section Fold

variable {cs : List Char} {l : List Char} {ls : List (List Char)}

@[simp] lemma strip_append (cs ds : List Char) : strip (cs ++ ds) = strip cs ++ strip ds :=
  List.filter_append ..

lemma strip_trim (cs : List Char) : strip (trim cs) = strip cs := by
  have hblank : ∀ c : Char, (c == ' ') = true → (!isWhitespace c) = false := by
    intro c hc
    rw [eq_of_beq hc]
    rfl
  rw [strip, trim, List.rdropWhile, List.filter_reverse, filter_dropWhile hblank,
    List.filter_reverse, List.reverse_reverse, filter_dropWhile hblank, strip]

lemma strip_fold (ls : List (List Char)) : strip (fold ls) = strip ls.flatten := by
  have hmap : (ls.map trim).map strip = ls.map strip := by
    rw [List.map_map]
    exact List.map_congr_left fun l _ => strip_trim l
  have hnil : ∀ ms : List (List Char), ([] : List Char).intercalate ms = ms.flatten := by
    intro ms
    induction ms with
    | nil => rfl
    | cons m ms ih =>
      rcases ms with - | ⟨m', ms⟩
      · simp
      · rw [List.intercalate_cons_cons, ih, List.append_nil]
        rfl
  rw [fold, strip, filter_intercalate]
  show ([] : List Char).intercalate ((ls.map trim).map strip) = strip ls.flatten
  rw [hmap, hnil, strip, List.filter_flatten]
  rfl

lemma trim_eq_self (hstart : cs.head? ≠ some ' ') (hlast : cs.getLast? ≠ some ' ') :
    trim cs = cs := by
  have hdrop : ∀ ds : List Char, ds.head? ≠ some ' ' → ds.dropWhile (· == ' ') = ds := by
    intro ds hds
    rcases ds with - | ⟨d, ds⟩
    · rfl
    · refine List.dropWhile_cons_of_neg fun h => hds ?_
      rw [List.head?_cons, eq_of_beq h]
  rw [trim, hdrop cs hstart, List.rdropWhile, hdrop cs.reverse (by rwa [List.head?_reverse]),
    List.reverse_reverse]

/-- Lines that are folded leave a blank where one ended and the next began. -/
lemma blank_mem_fold (l l' : List Char) (ls : List (List Char)) : ' ' ∈ fold (l :: l' :: ls) := by
  rw [fold, List.map_cons, List.map_cons, List.intercalate_cons_cons]
  simp

end Fold

/-! ### The entries of a rendered manifest -/

/-- The keys that a manifest is rendered with. -/
def manifestKeys : List String :=
  [manifestVersionKey, createdByKey, dalfMainKey, dalfsKey, formatKey, encryptionKey]

/-- What a value of a manifest that is rendered can look like. -/
structure PlainText (cs : List Char) : Prop where
  chars : ∀ c ∈ cs, isPlainChar c ∨ c = ' '
  start : ∀ c, cs.head? = some c → c ∉ indicators ∧ c ≠ ' '
  blanks : ¬ [' ', ' '] <:+: cs
  last : cs.getLast? ≠ some ' '

/-- The text of an entry, before it is cut into lines. -/
def entryText (key : String) (cs : List Char) : List Char := key.toList ++ ':' :: ' ' :: cs

/-- The lines of an entry. -/
def entryLines (key : String) (cs : List Char) : List (List Char) :=
  (chunks 71 (bytes (entryText key cs))).map fromUtf8Lossy

/-- An entry as the block mapping has it. -/
def manifestEntry (key : String) (cs : List Char) : BlockEntry where
  key := key.toList
  head := ((entryLines key cs).headD []).drop (key.toList.length + 2)
  tail := (entryLines key cs).tail

/-- The text that the reader makes of an entry. -/
def foldedValue (key : String) (cs : List Char) : List Char :=
  fold ((manifestEntry key cs).head :: (manifestEntry key cs).tail)

section Entries

variable {key : String} {cs : List Char}

lemma lines_entryLines (key : String) (cs : List Char) :
    Lines 71 0 (entryText key cs) (entryLines key cs) :=
  lines_fromUtf8Lossy (by decide) _

lemma manifestKeys_size : ∀ key ∈ manifestKeys, utf8Size key.toList + 2 < 71 := by
  decide

/-- A property of all characters of a text, checked one after the other. -/
lemma forall_of_all {P : Char → Prop} [DecidablePred P] {cs : List Char}
    (h : (cs.all fun c => decide (P c)) = true) : ∀ c ∈ cs, P c := by
  simpa using h

lemma exists_of_any {P : Char → Prop} [DecidablePred P] {cs : List Char}
    (h : (cs.any fun c => decide (P c)) = true) : ∃ c ∈ cs, P c := by
  simpa using h

lemma manifestKeys_plain : ∀ key ∈ manifestKeys,
    (∃ c ks, key.toList = c :: ks ∧ c.isAlpha) ∧ (∀ c ∈ key.toList, c.isAlpha ∨ c = '-') ∧
      key.toList.length ≤ 1024 := by
  intro key hkey
  simp only [manifestKeys, List.mem_cons, List.not_mem_nil, or_false] at hkey
  rcases hkey with rfl | rfl | rfl | rfl | rfl | rfl <;>
    exact ⟨⟨_, _, rfl, by decide⟩, forall_of_all (by decide), by decide⟩

lemma manifestKeys_string {yaml : YamlLoader} (hyaml : yaml.Lawful) :
    ∀ key ∈ manifestKeys, yaml.fromStr key = .string key := by
  have hkeys : ∀ key ∈ manifestKeys, key ∉ reservedWords ∧
      (key.toList.any fun c => decide (c ∉ numberChars)) = true := by decide
  intro key hkey
  exact hyaml.fromStr_string key (hkeys key hkey).1 (exists_of_any (hkeys key hkey).2)

/-- The first line has the key. -/
lemma entryLines_eq (hkey : key ∈ manifestKeys) (cs : List Char) :
    entryLines key cs =
        entryText key (manifestEntry key cs).head :: (manifestEntry key cs).tail ∧
      ((manifestEntry key cs).head.head? = cs.head? ∨
        (manifestEntry key cs).head.head? = some replacement) := by
  have hsize := manifestKeys_size key hkey
  have hlines := lines_entryLines key cs
  have hks : utf8Size (key.toList ++ [':', ' ']) < 71 := by
    rw [utf8Size_append]
    exact hsize
  -- the first line begins with the key, whatever it has of the value
  have hhead : ∃ head tail, entryLines key cs = ((key.toList ++ [':', ' ']) ++ head) :: tail ∧
      (head.head? = cs.head? ∨ head.head? = some replacement) := by
    rcases cs with - | ⟨c, cs⟩
    · refine ⟨[], [], ?_, Or.inl rfl⟩
      rw [List.append_nil]
      exact hlines.eq_singleton (by decide) (by simp) (Nat.le_of_lt hks)
    · have hcons : entryText key (c :: cs) = (key.toList ++ [':', ' ']) ++ c :: cs := by
        simp [entryText]
      rw [hcons] at hlines
      exact hlines.exists_head hks
  obtain ⟨head, tail, heq, hstart⟩ := hhead
  have hdrop : (manifestEntry key cs).head = head := by
    have hlen : (key.toList ++ [':', ' ']).length = key.toList.length + 2 := by simp
    rw [manifestEntry, heq, List.headD_cons, List.drop_left' hlen]
  have htail : (manifestEntry key cs).tail = tail := by
    rw [manifestEntry, heq, List.tail_cons]
  rw [hdrop, htail, heq]
  refine ⟨?_, hstart⟩
  simp [entryText]

lemma isPlainChar_of_isAlpha {c : Char} (hc : c.isAlpha = true) : isPlainChar c = true := by
  have hrange : c.toNat < 128 := by
    have hupper : ('Z' : Char).val.toNat = 90 := rfl
    have hlower : ('z' : Char).val.toNat = 122 := rfl
    rcases Bool.or_eq_true_iff.1 (show (c.isUpper || c.isLower) = true from hc) with hc | hc
    · have hle : c.val ≤ ('Z' : Char).val := (of_decide_eq_true hc).2
      rw [UInt32.le_iff_toNat_le] at hle
      have hval : c.val.toNat = c.toNat := rfl
      omega
    · have hle : c.val ≤ ('z' : Char).val := of_decide_eq_true (Bool.and_eq_true_iff.1 hc).2
      rw [UInt32.le_iff_toNat_le] at hle
      have hval : c.val.toNat = c.toNat := rfl
      omega
  have hall : ∀ n : Fin 128, (Char.ofNat n).isAlpha → isPlainChar (Char.ofNat n) := by decide
  have hc' := hall ⟨c.toNat, hrange⟩
  rw [Char.ofNat_toNat] at hc'
  exact hc' hc

/-- Two blanks in a row begin in front of a text only if it begins with one. -/
lemma not_infix_cons {c : Char} (hcs : ¬ [' ', ' '] <:+: cs)
    (hc : c ≠ ' ' ∨ cs.head? ≠ some ' ') : ¬ [' ', ' '] <:+: c :: cs := by
  rw [List.infix_cons_iff]
  rintro (⟨rest, hrest⟩ | h)
  · obtain ⟨rfl, rfl⟩ := List.cons.inj hrest
    rcases hc with hc | hc
    · exact hc rfl
    · exact hc rfl
  · exact hcs h

lemma not_infix_entryText (hkey : key ∈ manifestKeys) (hcs : PlainText cs) :
    ¬ [' ', ' '] <:+: entryText key cs := by
  obtain ⟨-, hchars, -⟩ := manifestKeys_plain key hkey
  have hstart : cs.head? ≠ some ' ' := fun h => (hcs.start ' ' h).2 rfl
  have htext : ¬ [' ', ' '] <:+: ':' :: ' ' :: cs :=
    not_infix_cons (not_infix_cons hcs.blanks (Or.inr hstart)) (Or.inl (by decide))
  rw [entryText]
  generalize key.toList = ks at hchars
  induction ks with
  | nil => exact htext
  | cons k ks ih =>
    refine not_infix_cons (ih fun c hc => hchars c (by simp [hc])) (Or.inl ?_)
    rintro rfl
    rcases hchars ' ' (by simp) with h | h
    · exact absurd h (by decide)
    · exact absurd h (by decide)

/-- What the lines have after the key is of the value, or stands for a part of it. -/
lemma chars_manifestEntry (hkey : key ∈ manifestKeys) (hcs : PlainText cs) :
    ∀ l ∈ (manifestEntry key cs).head :: (manifestEntry key cs).tail, ∀ c ∈ l,
      isPlainChar c ∨ c = ' ' := by
  obtain ⟨-, hchars, -⟩ := manifestKeys_plain key hkey
  obtain ⟨heq, -⟩ := entryLines_eq hkey cs
  have hlines := lines_entryLines key cs
  -- the only colon is the one after the key
  have hcolon : ∀ l ∈ (manifestEntry key cs).head :: (manifestEntry key cs).tail, ':' ∉ l := by
    have hvalue : cs.count ':' = 0 := by
      rw [List.count_eq_zero]
      intro hmem
      rcases hcs.chars ':' hmem with h | h
      · exact absurd h (by decide)
      · exact absurd h (by decide)
    have hcount := hlines.count_eq (a := ':') (by decide)
    rw [heq, List.flatten_cons, List.count_append, entryText, entryText, List.count_append,
      List.count_append, List.count_cons_self, List.count_cons_self,
      List.count_cons_of_ne (by decide), List.count_cons_of_ne (by decide), hvalue] at hcount
    intro l hl hmem
    have hpos : 0 <
        ((manifestEntry key cs).head :: (manifestEntry key cs).tail).flatten.count ':' :=
      List.count_pos_iff.2 (List.mem_flatten_of_mem hl hmem)
    rw [List.flatten_cons, List.count_append] at hpos
    omega
  intro l hl c hc
  have hmem : ∃ line ∈ entryLines key cs, c ∈ line := by
    rw [heq]
    rcases List.mem_cons.1 hl with rfl | hl
    · exact ⟨_, List.mem_cons_self, by simp [entryText, hc]⟩
    · exact ⟨l, List.mem_cons_of_mem _ hl, hc⟩
  obtain ⟨line, hline, hcline⟩ := hmem
  rcases hlines.mem_or_eq hline hcline with htext | rfl
  · simp only [entryText, List.mem_append, List.mem_cons] at htext
    rcases htext with h | rfl | rfl | h
    · rcases hchars c h with h | rfl
      · exact Or.inl (isPlainChar_of_isAlpha h)
      · exact Or.inl (by decide)
    · exact absurd hc (hcolon l hl)
    · exact Or.inr rfl
    · exact hcs.chars c h
  · exact Or.inl (by decide)

lemma tail_manifestEntry_nil (hkey : key ∈ manifestKeys) : (manifestEntry key []).tail = [] := by
  have hsize := manifestKeys_size key hkey
  have hlines := (lines_entryLines key []).eq_singleton (by decide) (by simp [entryText])
    (by rw [entryText, utf8Size_append]; exact Nat.le_of_lt hsize)
  rw [manifestEntry, hlines, List.tail_cons]

lemma plain_manifestEntry (hkey : key ∈ manifestKeys) (hcs : PlainText cs) :
    (manifestEntry key cs).Plain := by
  obtain ⟨hstart, hchars, hlength⟩ := manifestKeys_plain key hkey
  obtain ⟨heq, hhead⟩ := entryLines_eq hkey cs
  refine ⟨hstart, hchars, hlength, chars_manifestEntry hkey hcs, ?_, ?_, ?_⟩
  · intro c hc
    rcases hhead with h | h
    · exact hcs.start c (h ▸ hc)
    · obtain rfl := Option.some_inj.1 (hc.symm.trans h)
      decide
  · intro l hl
    rcases eq_or_ne cs [] with rfl | hne
    · rw [tail_manifestEntry_nil hkey] at hl
      exact absurd hl (by simp)
    · have hlast : (entryText key cs).getLast? ≠ some ' ' := by
        obtain ⟨c, cs, rfl⟩ := List.exists_cons_of_ne_nil hne
        simpa [entryText, List.getLast?_append] using hcs.last
      refine (lines_entryLines key cs).exists_ne (by decide) (by decide)
        (not_infix_entryText hkey hcs) hlast ?_
      rw [heq]
      exact List.mem_cons_of_mem _ hl
  · intro hnil
    rw [hnil] at hhead
    rcases hhead with h | h
    · obtain rfl : cs = [] := List.head?_eq_none_iff.1 h.symm
      exact tail_manifestEntry_nil hkey
    · exact absurd h (by simp)

end Entries

/-! ### What is read of an entry -/

section Values

variable {key : String} {cs : List Char}

lemma strip_foldedValue (key : String) (cs : List Char) :
    strip (foldedValue key cs) =
      strip ((manifestEntry key cs).head ++ (manifestEntry key cs).tail.flatten) := by
  rw [foldedValue, strip_fold, List.flatten_cons]

/-- An entry on one line is read as it is. -/
lemma foldedValue_of_le (hkey : key ∈ manifestKeys) (hcs : PlainText cs)
    (hle : utf8Size (entryText key cs) ≤ 71) : foldedValue key cs = cs := by
  obtain ⟨heq, -⟩ := entryLines_eq hkey cs
  have hone := (lines_entryLines key cs).eq_singleton (by decide) (by simp [entryText]) hle
  rw [hone] at heq
  obtain ⟨htext, htail⟩ := List.cons.inj heq
  have hhead : (manifestEntry key cs).head = cs := by
    simpa [entryText] using htext.symm
  have hstart : cs.head? ≠ some ' ' := fun h => (hcs.start ' ' h).2 rfl
  rw [foldedValue, hhead, ← htail, fold, List.map_singleton, List.intercalate_singleton,
    trim_eq_self hstart hcs.last]

/-- An entry on more lines is read with a blank in it. -/
lemma blank_mem_foldedValue (hkey : key ∈ manifestKeys) (hlt : 71 < utf8Size (entryText key cs)) :
    ' ' ∈ foldedValue key cs := by
  obtain ⟨heq, -⟩ := entryLines_eq hkey cs
  have htwo := (lines_entryLines key cs).two_le_length hlt
  rw [heq, List.length_cons] at htwo
  obtain ⟨l, ls, hls⟩ := List.exists_cons_of_ne_nil
    (List.ne_nil_of_length_pos (l := (manifestEntry key cs).tail) (by omega))
  rw [foldedValue, hls]
  exact blank_mem_fold _ _ _

/-- The entry breaks no character off. -/
def Unbroken (key : String) (cs : List Char) : Prop := Aligned 71 0 (entryText key cs)

lemma strip_foldedValue_of_unbroken (hkey : key ∈ manifestKeys) (h : Unbroken key cs) :
    strip (foldedValue key cs) = strip cs := by
  obtain ⟨heq, -⟩ := entryLines_eq hkey cs
  have hflatten := (lines_entryLines key cs).flatten_of_aligned h
  rw [heq, List.flatten_cons, List.replicate_zero, List.nil_append] at hflatten
  rw [strip_foldedValue]
  congr 1
  simpa [entryText] using hflatten

lemma length_strip (cs : List Char) :
    (strip cs).length = cs.countP fun c => !isWhitespace c :=
  List.countP_eq_length_filter.symm

/-- A character that is broken off leaves more characters than there were. -/
lemma length_strip_foldedValue_of_broken (hkey : key ∈ manifestKeys) (h : ¬ Unbroken key cs) :
    (strip cs).length < (strip (foldedValue key cs)).length := by
  obtain ⟨heq, -⟩ := entryLines_eq hkey cs
  have hlt := (lines_entryLines key cs).countP_lt_of_not_aligned
    (fun c => !isWhitespace c) (by decide) (by decide) h
  rw [heq, List.flatten_cons] at hlt
  simp only [entryText, List.append_assoc, List.cons_append, List.countP_append,
    List.countP_cons] at hlt
  rw [strip_foldedValue, length_strip, length_strip, List.countP_append]
  omega

/-- No comma is lost. -/
lemma count_comma_foldedValue (hkey : key ∈ manifestKeys) (cs : List Char) :
    (strip (foldedValue key cs)).count ',' = (strip cs).count ',' := by
  obtain ⟨heq, -⟩ := entryLines_eq hkey cs
  have hcount := (lines_entryLines key cs).count_eq (a := ',') (by decide)
  rw [heq, List.flatten_cons] at hcount
  have hstrip : ∀ ds : List Char, (strip ds).count ',' = ds.count ',' :=
    fun ds => List.count_filter (by decide)
  simp only [entryText, List.append_assoc, List.cons_append, List.count_append, List.count_cons]
    at hcount
  rw [strip_foldedValue, hstrip, hstrip, List.count_append]
  omega

/-- A text with a blank in it is a string. -/
lemma fromStr_of_blank {yaml : YamlLoader} (hyaml : yaml.Lawful) (h : ' ' ∈ cs) :
    yaml.fromStr (String.ofList cs) = .string (String.ofList cs) := by
  refine hyaml.fromStr_string _ ?_ ⟨' ', by rwa [String.toList_ofList], by decide⟩
  intro hmem
  have hall : ∀ w ∈ reservedWords, ' ' ∉ w.toList := by decide
  exact hall _ hmem (by rwa [String.toList_ofList])

/-- What is read of a value that is a string is a string. -/
lemma fromStr_foldedValue {yaml : YamlLoader} (hyaml : yaml.Lawful) (hkey : key ∈ manifestKeys)
    (hcs : PlainText cs) (h : yaml.fromStr (String.ofList cs) = .string (String.ofList cs)) :
    yaml.fromStr (String.ofList (foldedValue key cs)) =
      .string (String.ofList (foldedValue key cs)) := by
  rcases Nat.lt_or_ge 71 (utf8Size (entryText key cs)) with hlt | hle
  · exact fromStr_of_blank hyaml (blank_mem_foldedValue hkey hlt)
  · rwa [foldedValue_of_le hkey hcs hle]

end Values

/-! ### The document of a rendered manifest -/

lemma toList_splitManifestString (s : String) {l : List Char} {ls : List (List Char)}
    (h : (chunks 71 (bytes s.toList)).map fromUtf8Lossy = l :: ls) :
    (splitManifestString s).toList = ['\n'].intercalate (l :: ls.map (' ' :: ·)) := by
  have hlines : splitLines s = String.ofList l :: ls.map String.ofList := by
    rw [splitLines, h, List.map_cons]
  rcases ls with - | ⟨l', ls⟩
  · rw [splitManifestString, hlines]
    simp
  · rw [splitManifestString, hlines]
    simp only [List.map_cons, String.toList_append, String.toList_intercalate, List.map_map,
      String.toList_ofList, List.intercalate_cons_cons]
    congr 1
    · congr 1
      refine congrArg (List.cons _) (List.map_congr_left fun l'' _ => ?_)
      simp

lemma toList_makeManifestEntry {key : String} (hkey : key ∈ manifestKeys) (value : String) :
    (makeManifestEntry key value).toList =
      ['\n'].intercalate (manifestEntry key value.toList).lines := by
  obtain ⟨heq, -⟩ := entryLines_eq hkey value.toList
  have htext : (key ++ ": " ++ value).toList = entryText key value.toList := by
    simp [entryText]
  rw [makeManifestEntry, toList_splitManifestString _ (by rw [htext]; exact heq)]
  rfl

namespace DarManifest

/-- The keys of a manifest with their values. -/
def values (m : DarManifest) : List (String × List Char) :=
  [(manifestVersionKey, m.version.toString.toList), (createdByKey, m.createdBy.toList),
    (dalfMainKey, m.dalfMain.toList), (dalfsKey, (", ".intercalate m.dalfDependencies).toList),
    (formatKey, m.format.toString.toList), (encryptionKey, m.encryption.toString.toList)]

/-- The entries of a rendered manifest. -/
def entries (m : DarManifest) : List BlockEntry := m.values.map fun kv => manifestEntry kv.1 kv.2

lemma render_eq (m : DarManifest) : m.render = String.ofList (document m.entries) := by
  have hkeys : ∀ key ∈ manifestKeys, ∀ value : String, (makeManifestEntry key value).toList =
      ['\n'].intercalate (manifestEntry key value.toList).lines :=
    fun key hkey value => toList_makeManifestEntry hkey value
  rw [← String.toList_inj, String.toList_ofList, render, String.toList_intercalate, document,
    List.flatMap_def, ← intercalate_map_intercalate]
  · simp only [List.map_cons, List.map_nil, entries, values]
    rw [hkeys _ (by decide), hkeys _ (by decide), hkeys _ (by decide), hkeys _ (by decide),
      hkeys _ (by decide), hkeys _ (by decide)]
    rfl
  · intro ls hls
    obtain ⟨e, -, rfl⟩ := List.mem_map.1 hls
    simp [BlockEntry.lines]

/-- What the reader makes of a rendered manifest. -/
theorem parse_render {yaml : YamlLoader} (hyaml : yaml.Lawful) (m : DarManifest)
    (hplain : ∀ kv ∈ m.values, PlainText kv.2) :
    parse yaml m.render = ofYaml yaml (.hash (m.values.map fun kv =>
      (.string kv.1, yaml.fromStr (String.ofList (foldedValue kv.1 kv.2))))) := by
  have hkeys : ∀ kv ∈ m.values, kv.1 ∈ manifestKeys := by
    intro kv hkv
    have hmap : m.values.map Prod.fst = manifestKeys := rfl
    rw [← hmap]
    exact List.mem_map_of_mem hkv
  -- the document loads as a block mapping: its entries are plain and no key occurs twice
  have hload := hyaml.loadFromStr_document m.entries (by simp [entries, values])
    (by
      intro e he
      obtain ⟨kv, hkv, rfl⟩ := List.mem_map.1 he
      exact plain_manifestEntry (hkeys kv hkv) (hplain kv hkv))
    (by
      have hmap : m.entries.map BlockEntry.key = manifestKeys.map String.toList := by
        simp [entries, values, manifestEntry, manifestKeys]
      rw [hmap]
      decide)
  have hentries : (m.entries.map fun e => (yaml.fromStr (String.ofList e.key),
      yaml.fromStr (String.ofList (fold (e.head :: e.tail))))) =
      m.values.map fun kv =>
        (Yaml.string kv.1, yaml.fromStr (String.ofList (foldedValue kv.1 kv.2))) := by
    rw [entries, List.map_map]
    refine List.map_congr_left fun kv hkv => ?_
    rw [Function.comp_apply, foldedValue]
    have hkey : (manifestEntry kv.1 kv.2).key = kv.1.toList := rfl
    rw [hkey, String.ofList_toList, manifestKeys_string hyaml kv.1 (hkeys kv hkv)]
  rw [parse, render_eq, hload, hentries]
  rfl

end DarManifest

/-! ### The names of a manifest -/

/-- A name as the manifest has it: not white, no comma and nothing of the YAML syntax but a hyphen
inside of it, and not the spelling of another value than a string. -/
structure PlainName (yaml : YamlLoader) (s : String) : Prop where
  ne_nil : s.toList ≠ []
  chars : ∀ c ∈ s.toList, isYamlPrintable c ∧ (c ∉ indicators ∨ c = '-')
  start : s.toList.head? ≠ some '-'
  isString : yaml.fromStr s = .string s

section Names

variable {yaml : YamlLoader} {s : String}

/-- A name that the reader for block mappings takes for a string. -/
lemma plainName_of_decide {s : String} (h : (s.toList.all fun c => decide (isYamlPrintable c ∧
    (c ∉ indicators ∨ c = '-'))) = true ∧ s.toList.head? ≠ some '-' ∧ s ∉ reservedWords ∧
      (s.toList.any fun c => decide (c ∉ numberChars)) = true) : PlainName blockLoader s where
  ne_nil hnil := by
    obtain ⟨c, hc, -⟩ := exists_of_any h.2.2.2
    rw [hnil] at hc
    exact absurd hc (by simp)
  chars := forall_of_all h.1
  start := h.2.1
  isString := plainScalar_of_not_reserved h.2.2.1 (exists_of_any h.2.2.2)

lemma not_isWhitespace_of_isYamlPrintable {c : Char} (h : isYamlPrintable c = true) :
    isWhitespace c = false := by
  simp only [isYamlPrintable, Bool.and_eq_true, Bool.not_eq_true'] at h
  exact h.1

lemma PlainName.isPlainChar (hs : PlainName yaml s) {c : Char} (hc : c ∈ s.toList) :
    isPlainChar c = true := by
  obtain ⟨hprint, hind⟩ := hs.chars c hc
  rw [DamlBindings.Lf.isPlainChar, hprint]
  rcases hind with hind | rfl
  · simp [hind]
  · rfl

lemma PlainName.ne_of_mem (hs : PlainName yaml s) {c : Char} (hc : c ∈ s.toList) :
    c ≠ ' ' ∧ c ≠ ',' := by
  obtain ⟨hprint, hind⟩ := hs.chars c hc
  constructor
  · rintro rfl
    exact absurd hprint (by decide)
  · rintro rfl
    rcases hind with hind | hind
    · exact hind (by decide)
    · exact absurd hind (by decide)

lemma PlainName.strip_eq (hs : PlainName yaml s) : strip s.toList = s.toList := by
  refine List.filter_eq_self.2 fun c hc => ?_
  rw [not_isWhitespace_of_isYamlPrintable (hs.chars c hc).1]
  rfl

/-- Two blanks in a row are in a text after a name only if they are in the text. -/
lemma PlainName.not_infix_append (hs : PlainName yaml s) {cs : List Char}
    (hcs : ¬ [' ', ' '] <:+: cs) : ¬ [' ', ' '] <:+: s.toList ++ cs := by
  have hne : ∀ c ∈ s.toList, c ≠ ' ' := fun c hc => (hs.ne_of_mem hc).1
  generalize s.toList = ds at hne
  induction ds with
  | nil => exact hcs
  | cons d ds ih =>
    exact not_infix_cons (ih fun c hc => hne c (by simp [hc])) (Or.inl (hne d (by simp)))

lemma PlainName.start_not_mem (hs : PlainName yaml s) (cs : List Char) :
    ∀ c, (s.toList ++ cs).head? = some c → c ∉ indicators ∧ c ≠ ' ' := by
  intro c hc
  obtain ⟨d, ds, hds⟩ := List.exists_cons_of_ne_nil hs.ne_nil
  rw [hds] at hc
  obtain rfl : d = c := Option.some_inj.1 hc
  have hmem : d ∈ s.toList := by rw [hds]; exact List.mem_cons_self
  refine ⟨?_, (hs.ne_of_mem hmem).1⟩
  rcases (hs.chars d hmem).2 with h | rfl
  · exact h
  · exact absurd (by rw [hds]; rfl) hs.start

lemma PlainName.plainText (hs : PlainName yaml s) : PlainText s.toList where
  chars c hc := Or.inl (hs.isPlainChar hc)
  start := by simpa using hs.start_not_mem []
  blanks := by
    have hnil : ¬ [' ', ' '] <:+: ([] : List Char) := by simp
    simpa using hs.not_infix_append hnil
  last h := (hs.ne_of_mem (List.mem_of_getLast? h)).1 rfl

lemma plainText_constant : ∀ s ∈ [version1Value, damlLfValue, nonEncryptedValue],
    PlainText s.toList := by
  have hstart : ∀ s ∈ [version1Value, damlLfValue, nonEncryptedValue],
      ∃ c, s.toList.head? = some c ∧ c ∉ indicators ∧ c ≠ ' ' := by
    intro s hs
    simp only [List.mem_cons, List.not_mem_nil, or_false] at hs
    rcases hs with rfl | rfl | rfl <;> exact ⟨_, rfl, by decide, by decide⟩
  have hrest : ∀ s ∈ [version1Value, damlLfValue, nonEncryptedValue],
      s.toList.all isPlainChar = true ∧ ' ' ∉ s.toList := by decide
  intro s hs
  obtain ⟨c, hc, hc'⟩ := hstart s hs
  obtain ⟨hchars, hblank⟩ := hrest s hs
  refine ⟨fun c hc => Or.inl (List.all_eq_true.1 hchars c hc), ?_, ?_, ?_⟩
  · intro d hd
    obtain rfl := Option.some_inj.1 (hc.symm.trans hd)
    exact hc'
  · intro hin
    exact hblank (hin.subset (by simp))
  · intro hlast
    exact hblank (List.mem_of_getLast? hlast)

lemma plainText_nil : PlainText [] :=
  ⟨by simp, by simp, by simp, by simp⟩

/-- The text of a list of names. -/
lemma toList_join (deps : List String) :
    (", ".intercalate deps).toList = [',', ' '].intercalate (deps.map String.toList) := by
  rw [String.toList_intercalate]
  rfl

lemma plainText_join {deps : List String} (hdeps : ∀ d ∈ deps, PlainName yaml d) :
    PlainText (", ".intercalate deps).toList := by
  rw [toList_join]
  induction deps with
  | nil => exact plainText_nil
  | cons d deps ih =>
    have hd := hdeps d (by simp)
    have hrest := ih fun d' hd' => hdeps d' (by simp [hd'])
    rcases deps with - | ⟨d', deps⟩
    · simpa using hd.plainText
    · have hd' := hdeps d' (by simp)
      -- the rest begins with a name, not with a blank
      obtain ⟨cs, hcs⟩ : ∃ cs, [',', ' '].intercalate ((d' :: deps).map String.toList) =
          d'.toList ++ cs := by
        rcases deps with - | ⟨d'', deps⟩
        · exact ⟨[], by simp⟩
        · exact ⟨_, by rw [List.map_cons, List.map_cons, List.intercalate_cons_cons,
            List.append_assoc]⟩
      rw [List.map_cons, List.intercalate_cons_of_ne_nil (by simp), List.append_assoc]
      refine ⟨?_, hd.start_not_mem _, ?_, ?_⟩
      · intro c hc
        simp only [List.mem_append, List.mem_cons, List.not_mem_nil, or_false] at hc
        rcases hc with hc | (rfl | rfl) | hc
        · exact Or.inl (hd.isPlainChar hc)
        · exact Or.inl (by decide)
        · exact Or.inr rfl
        · exact hrest.chars c hc
      · refine hd.not_infix_append (not_infix_cons (not_infix_cons hrest.blanks (Or.inr ?_))
          (Or.inl (by decide)))
        intro h
        exact (hrest.start ' ' h).2 rfl
      · have hne : [',', ' '].intercalate ((d' :: deps).map String.toList) ≠ [] := by
          rw [hcs]
          exact List.append_ne_nil_of_left_ne_nil hd'.ne_nil cs
        rw [List.getLast?_append_of_ne_nil _ (by simp), List.getLast?_append_of_ne_nil _ hne]
        exact hrest.last

lemma strip_join {deps : List String} (hdeps : ∀ d ∈ deps, PlainName yaml d) :
    strip (", ".intercalate deps).toList = [','].intercalate (deps.map String.toList) := by
  have hmap : (deps.map String.toList).map strip = deps.map String.toList := by
    rw [List.map_map]
    exact List.map_congr_left fun d hd => (hdeps d hd).strip_eq
  rw [toList_join, strip, filter_intercalate]
  show ([','] : List Char).intercalate ((deps.map String.toList).map strip) = _
  rw [hmap]

lemma splitOn_strip_join {deps : List String} (hdeps : ∀ d ∈ deps, PlainName yaml d)
    (hne : deps ≠ []) :
    (strip (", ".intercalate deps).toList).splitOn ',' = deps.map String.toList := by
  rw [strip_join hdeps]
  refine List.splitOn_intercalate ',' ?_ (by simpa using hne)
  intro l hl hmem
  obtain ⟨d, hd, rfl⟩ := List.mem_map.1 hl
  exact ((hdeps d hd).ne_of_mem hmem).2 rfl

lemma map_stripString_splitCommas (cs : List Char) :
    (splitCommas (String.ofList cs)).map stripString =
      ((strip cs).splitOn ',').map String.ofList := by
  have hcomma : (!isWhitespace ',') = true := by decide
  rw [splitCommas, String.toList_ofList, strip,
    ← map_filter_splitOn (q := fun c => !isWhitespace c) hcomma, List.map_map, List.map_map]
  refine List.map_congr_left fun l _ => ?_
  simp [stripString]

end Names

/-! ### The round trip -/

/-- The values stand in a mapping under their keys. -/
lemma find_map {β : Type} {g : String × β → Yaml} {kvs : List (String × β)}
    (hnodup : (kvs.map Prod.fst).Nodup) {kv : String × β} (hkv : kv ∈ kvs) :
    Yaml.find kv.1 (kvs.map fun kv => (.string kv.1, g kv)) = g kv := by
  induction kvs with
  | nil => exact absurd hkv (by simp)
  | cons kv' kvs ih =>
    rw [List.map_cons, List.nodup_cons] at hnodup
    rw [List.map_cons, Yaml.find]
    rcases List.mem_cons.1 hkv with rfl | hmem
    · exact if_pos rfl
    · rw [if_neg, ih hnodup.2 hmem]
      intro heq
      exact hnodup.1 (heq ▸ List.mem_map_of_mem hmem)

namespace DarManifest

/-- The manifests that the round trip is about. -/
structure Plain (yaml : YamlLoader) (m : DarManifest) : Prop where
  version : m.version = .v1
  createdBy : m.createdBy = "" ∨ PlainName yaml m.createdBy
  dalfMain : PlainName yaml m.dalfMain
  dalfDependencies : ∀ d ∈ m.dalfDependencies, PlainName yaml d
  dalfMain_not_mem : m.dalfMain ∉ m.dalfDependencies
  format : m.format = .damlLf
  encryption : m.encryption = .notEncrypted

/-- There are dependencies, what created the manifest is written on one line, and no character of
a name is broken off. -/
structure ReadsBack (m : DarManifest) : Prop where
  dependencies : m.dalfDependencies ≠ []
  createdBy : utf8Size (entryText createdByKey m.createdBy.toList) ≤ 71
  dalfMain : Unbroken dalfMainKey m.dalfMain.toList
  dalfs : Unbroken dalfsKey (", ".intercalate m.dalfDependencies).toList

section RoundTrip

variable {yaml : YamlLoader} {m : DarManifest}

lemma Plain.values (hm : m.Plain yaml) : ∀ kv ∈ m.values, PlainText kv.2 := by
  intro kv hkv
  simp only [DarManifest.values, List.mem_cons, List.not_mem_nil, or_false] at hkv
  rcases hkv with rfl | rfl | rfl | rfl | rfl | rfl
  · rw [hm.version]
    exact plainText_constant _ (by decide)
  · rcases hm.createdBy with h | h
    · rw [h]
      exact plainText_nil
    · exact h.plainText
  · exact hm.dalfMain.plainText
  · exact plainText_join hm.dalfDependencies
  · rw [hm.format]
    exact plainText_constant _ (by decide)
  · rw [hm.encryption]
    exact plainText_constant _ (by decide)

/-- The document that the reader makes of a rendered manifest. -/
def readDocument (yaml : YamlLoader) (m : DarManifest) : Yaml :=
  .hash (m.values.map fun kv =>
    (.string kv.1, yaml.fromStr (String.ofList (foldedValue kv.1 kv.2))))

lemma index_readDocument {key : String} {cs : List Char} (hmem : (key, cs) ∈ m.values) :
    (readDocument yaml m).index key = yaml.fromStr (String.ofList (foldedValue key cs)) := by
  have hkeys : (m.values.map Prod.fst).Nodup := by
    have hmap : m.values.map Prod.fst = manifestKeys := rfl
    rw [hmap]
    decide
  exact find_map (g := fun kv => yaml.fromStr (String.ofList (foldedValue kv.1 kv.2))) hkeys hmem

/-- The values that every such manifest has are read as they are. -/
lemma index_constant {key s : String} (hmem : (key, s.toList) ∈ m.values)
    (hkey : key ∈ manifestKeys) (hs : s ∈ [version1Value, damlLfValue, nonEncryptedValue]) :
    (readDocument yaml m).index key = yaml.fromStr s := by
  have hsize : ∀ s ∈ [version1Value, damlLfValue, nonEncryptedValue], ∀ key ∈ manifestKeys,
      utf8Size (entryText key s.toList) ≤ 71 := by decide
  rw [index_readDocument hmem,
    foldedValue_of_le hkey (plainText_constant s hs) (hsize s hs key hkey), String.ofList_toList]

/-- What is read of the text that says what created the manifest. -/
def readCreatedBy (yaml : YamlLoader) (m : DarManifest) : String :=
  ((readDocument yaml m).index createdByKey).asStr.getD ""

/-- What is read of the name of the main file. -/
def readMain (m : DarManifest) : String :=
  String.ofList (strip (foldedValue dalfMainKey m.dalfMain.toList))

/-- The names that are read from the text of the dependencies. -/
def readDependencies (m : DarManifest) : List String :=
  ((strip (foldedValue dalfsKey (", ".intercalate m.dalfDependencies).toList)).splitOn ',').map
    String.ofList

lemma index_dalfs (hyaml : yaml.Lawful) (hm : m.Plain yaml) :
    (readDocument yaml m).index dalfsKey =
      if m.dalfDependencies = [] then .null
      else .string (String.ofList
        (foldedValue dalfsKey (", ".intercalate m.dalfDependencies).toList)) := by
  have hkey : dalfsKey ∈ manifestKeys := by decide
  have hmem : (dalfsKey, (", ".intercalate m.dalfDependencies).toList) ∈ m.values :=
    List.mem_of_getElem? (i := 3) rfl
  rw [index_readDocument hmem]
  have hplain := plainText_join hm.dalfDependencies
  split_ifs with hdeps
  · -- nothing follows the key, and that is no string
    rw [hdeps, String.intercalate_nil, String.toList_empty,
      foldedValue_of_le hkey plainText_nil (by decide)]
    exact hyaml.fromStr_empty
  · match hlist : m.dalfDependencies, hdeps with
    | [d], _ =>
      refine fromStr_foldedValue hyaml hkey (hlist ▸ hplain) ?_
      rw [String.intercalate_singleton, String.ofList_toList]
      exact (hm.dalfDependencies d (by simp [hlist])).isString
    | d :: d' :: ds, _ =>
      refine fromStr_foldedValue hyaml hkey (hlist ▸ hplain) (fromStr_of_blank hyaml ?_)
      rw [toList_join, List.map_cons, List.map_cons, List.intercalate_cons_cons]
      simp

theorem parse_render_of_plain (hyaml : yaml.Lawful) (hm : m.Plain yaml) :
    parse yaml m.render =
      if m.dalfDependencies = [] then .error (.darParseError "key Dalfs not found")
      else .ok ⟨.v1, readCreatedBy yaml m, readMain m,
        (readDependencies m).filter (· ≠ readMain m), .damlLf, .notEncrypted⟩ := by
  -- the six keys as they are read from the folded text: `Manifest-Version` is a number to YAML,
  -- the names fold at 71 bytes, and the constants are short
  have hversion : (readDocument yaml m).index manifestVersionKey = .real "1.0" := by
    have hmem : (manifestVersionKey, version1Value.toList) ∈ m.values := by
      refine List.mem_of_getElem? (i := 0) ?_
      show some (manifestVersionKey, m.version.toString.toList) = _
      rw [hm.version]
      rfl
    rw [index_constant hmem (by decide) (by decide)]
    exact hyaml.fromStr_one
  have hformat : (readDocument yaml m).index formatKey = .string damlLfValue := by
    have hmem : (formatKey, damlLfValue.toList) ∈ m.values := by
      refine List.mem_of_getElem? (i := 4) ?_
      show some (formatKey, m.format.toString.toList) = _
      rw [hm.format]
      rfl
    rw [index_constant hmem (by decide) (by decide)]
    exact hyaml.fromStr_string _ (by decide) (exists_of_any (by decide))
  have hencryption : (readDocument yaml m).index encryptionKey = .string nonEncryptedValue := by
    have hmem : (encryptionKey, nonEncryptedValue.toList) ∈ m.values := by
      refine List.mem_of_getElem? (i := 5) ?_
      show some (encryptionKey, m.encryption.toString.toList) = _
      rw [hm.encryption]
      rfl
    rw [index_constant hmem (by decide) (by decide)]
    exact hyaml.fromStr_string _ (by decide) (exists_of_any (by decide))
  have hmain : (readDocument yaml m).index dalfMainKey =
      .string (String.ofList (foldedValue dalfMainKey m.dalfMain.toList)) := by
    have hmem : (dalfMainKey, m.dalfMain.toList) ∈ m.values := List.mem_of_getElem? (i := 2) rfl
    rw [index_readDocument hmem]
    refine fromStr_foldedValue hyaml (by decide) hm.dalfMain.plainText ?_
    rw [String.ofList_toList]
    exact hm.dalfMain.isString
  have hdalfs := index_dalfs hyaml hm
  -- the rest is `ofYaml`, one key after the other; only `Dalfs` can be missing
  rw [parse_render hyaml m hm.values]
  show ofYaml yaml (readDocument yaml m) = _
  have hver : versionOfYaml yaml (.real "1.0") = .ok .v1 := by
    simp [versionOfYaml, normalisedFloat, Yaml.asStr, hyaml.formatFloat_one, version1Value]
  have hlower : toLowercase damlLfValue = damlLfValue ∧
      toLowercase nonEncryptedValue = nonEncryptedValue := by decide
  have hformat' : expectedStr (readDocument yaml m) formatKey damlLfValue
      DarManifestFormat.damlLf = .ok .damlLf := by
    rw [expectedStr, requiredStr, hformat]
    simp [Yaml.asStr, bind, Except.bind, hlower.1]
  have hencryption' : expectedStr (readDocument yaml m) encryptionKey nonEncryptedValue
      DarEncryptionType.notEncrypted = .ok .notEncrypted := by
    rw [expectedStr, requiredStr, hencryption]
    simp [Yaml.asStr, bind, Except.bind, hlower.2]
  have hmain' : requiredStr (readDocument yaml m) dalfMainKey =
      .ok (String.ofList (foldedValue dalfMainKey m.dalfMain.toList)) := by
    rw [requiredStr, hmain]
    rfl
  rw [ofYaml, hversion, hver, hmain', hformat', hencryption']
  split_ifs with hdeps
  · have hdalfs' : requiredStr (readDocument yaml m) dalfsKey =
        .error (.darParseError "key Dalfs not found") := by
      rw [requiredStr, hdalfs, if_pos hdeps]
      rfl
    rw [hdalfs']
    rfl
  · have hdalfs' : requiredStr (readDocument yaml m) dalfsKey = .ok (String.ofList
        (foldedValue dalfsKey (", ".intercalate m.dalfDependencies).toList)) := by
      rw [requiredStr, hdalfs, if_neg hdeps]
      rfl
    have hstrip : stripString (String.ofList (foldedValue dalfMainKey m.dalfMain.toList)) =
        readMain m := by
      rw [stripString, String.toList_ofList]
      rfl
    rw [hdalfs']
    simp only [Except.bind, bind, map_stripString_splitCommas, hstrip]
    rfl

/-- The text is read as it is if it is written on one line; else a blank comes in, and the text
has none. -/
lemma readCreatedBy_eq_iff (hyaml : yaml.Lawful) (hm : m.Plain yaml) :
    readCreatedBy yaml m = m.createdBy ↔
      utf8Size (entryText createdByKey m.createdBy.toList) ≤ 71 := by
  have hkey : createdByKey ∈ manifestKeys := by decide
  have hmem : (createdByKey, m.createdBy.toList) ∈ m.values := List.mem_of_getElem? (i := 1) rfl
  have hplain := hm.values _ hmem
  rw [readCreatedBy, index_readDocument hmem]
  constructor
  · intro heq
    by_contra hlt
    have hblank := blank_mem_foldedValue hkey (not_le.1 hlt)
    rw [fromStr_of_blank hyaml hblank] at heq
    have hlist : foldedValue createdByKey m.createdBy.toList = m.createdBy.toList := by
      simpa [Yaml.asStr] using congrArg String.toList heq
    rw [hlist] at hblank
    rcases hm.createdBy with h | h
    · rw [h] at hblank
      exact absurd hblank (by simp)
    · exact (h.ne_of_mem hblank).1 rfl
  · intro hle
    rw [foldedValue_of_le hkey hplain hle, String.ofList_toList]
    rcases hm.createdBy with h | h
    · rw [h, hyaml.fromStr_empty]
      rfl
    · rw [h.isString]
      rfl

lemma readMain_eq_iff (hm : m.Plain yaml) :
    readMain m = m.dalfMain ↔ Unbroken dalfMainKey m.dalfMain.toList := by
  have hkey : dalfMainKey ∈ manifestKeys := by decide
  rw [readMain, ← String.toList_inj, String.toList_ofList]
  constructor
  · intro heq
    by_contra hbroken
    have hlt := length_strip_foldedValue_of_broken hkey hbroken
    rw [heq, hm.dalfMain.strip_eq] at hlt
    omega
  · intro h
    rw [strip_foldedValue_of_unbroken hkey h, hm.dalfMain.strip_eq]

lemma readDependencies_of_unbroken (hm : m.Plain yaml) (hdeps : m.dalfDependencies ≠ [])
    (h : Unbroken dalfsKey (", ".intercalate m.dalfDependencies).toList) :
    readDependencies m = m.dalfDependencies := by
  rw [readDependencies, strip_foldedValue_of_unbroken (by decide) h,
    splitOn_strip_join hm.dalfDependencies hdeps, List.map_map]
  simp

/-- There are as many names as before, so none of them is left out; and together they have more
characters if one is broken off. -/
lemma readDependencies_eq_iff (hm : m.Plain yaml) (hdeps : m.dalfDependencies ≠ []) :
    (readDependencies m).filter (· ≠ m.dalfMain) = m.dalfDependencies ↔
      Unbroken dalfsKey (", ".intercalate m.dalfDependencies).toList := by
  have hkey : dalfsKey ∈ manifestKeys := by decide
  constructor
  · intro heq
    by_contra hbroken
    have hlt := length_strip_foldedValue_of_broken hkey hbroken
    have hcount := count_comma_foldedValue hkey (", ".intercalate m.dalfDependencies).toList
    set read := strip (foldedValue dalfsKey (", ".intercalate m.dalfDependencies).toList) with hread
    have hlen : (readDependencies m).length = m.dalfDependencies.length := by
      have hsplit := splitOn_strip_join hm.dalfDependencies hdeps
      have hlength := congrArg List.length hsplit
      rw [length_splitOn, List.length_map] at hlength
      rw [readDependencies, List.length_map, length_splitOn, ← hread, hcount, hlength]
    have hall : readDependencies m = m.dalfDependencies := by
      rw [← heq] at hlen
      exact (List.filter_eq_self.2 (List.length_filter_eq_length_iff.1 hlen.symm)).symm.trans heq
    have hnames : read.splitOn ',' = m.dalfDependencies.map String.toList := by
      rw [← hall, readDependencies, List.map_map, ← hread]
      simp
    have hjoin : [','].intercalate (read.splitOn ',') = read := List.intercalate_splitOn ','
    rw [hnames, ← strip_join hm.dalfDependencies] at hjoin
    rw [hjoin] at hlt
    omega
  · intro h
    rw [readDependencies_of_unbroken hm hdeps h]
    refine List.filter_eq_self.2 fun d hd => ?_
    rw [decide_eq_true_eq]
    rintro rfl
    exact hm.dalfMain_not_mem hd

/-- A rendered manifest is read back as it is exactly if it has dependencies, what created it is
written on one line, and no character of a name is broken off. -/
theorem parse_render_eq_ok_iff (hyaml : yaml.Lawful) (hm : m.Plain yaml) :
    parse yaml m.render = .ok m ↔ m.ReadsBack := by
  rw [parse_render_of_plain hyaml hm]
  split_ifs with hdeps
  · constructor
    · intro h
      cases h
    · intro h
      exact absurd hdeps h.dependencies
  · constructor
    · intro h
      have hmanifest := Except.ok.inj h
      have hcreated := congrArg DarManifest.createdBy hmanifest
      have hmain : readMain m = m.dalfMain := congrArg DarManifest.dalfMain hmanifest
      have hdalfs := congrArg DarManifest.dalfDependencies hmanifest
      rw [hmain] at hdalfs
      exact ⟨hdeps, (readCreatedBy_eq_iff hyaml hm).1 hcreated, (readMain_eq_iff hm).1 hmain,
        (readDependencies_eq_iff hm hdeps).1 hdalfs⟩
    · rintro ⟨-, hcreated, hmain, hdalfs⟩
      have hmain' := (readMain_eq_iff hm).2 hmain
      have hcreated' := (readCreatedBy_eq_iff hyaml hm).2 hcreated
      have hdalfs' := (readDependencies_eq_iff hm hdeps).2 hdalfs
      obtain ⟨version, createdBy, dalfMain, deps, format, encryption⟩ := m
      obtain ⟨rfl, -, -, -, -, rfl, rfl⟩ := hm
      rw [hcreated', hmain', hdalfs']

/-- The names of two dalf files, of which the second makes the entry longer than a line. -/
theorem parse_render_two_dalfs :
    parse blockLoader (render ⟨.v1, "damlc", "A.dalf", ["B.dalf",
      "daml-prim-6c314cb04bcb26cb62aa6ebf0f8ed4bdc3cbf709847be908c9920df5574daacc.dalf"],
      .damlLf, .notEncrypted⟩) =
    .ok ⟨.v1, "damlc", "A.dalf", ["B.dalf",
      "daml-prim-6c314cb04bcb26cb62aa6ebf0f8ed4bdc3cbf709847be908c9920df5574daacc.dalf"],
      .damlLf, .notEncrypted⟩ :=
  (parse_render_eq_ok_iff blockLoader_lawful
    ⟨rfl, Or.inr (plainName_of_decide (by decide)), plainName_of_decide (by decide),
      fun d hd => plainName_of_decide (by revert d; decide), by decide, rfl, rfl⟩).2
    ⟨by decide, by decide, aligned_of_ascii (forall_of_all (by decide)),
      aligned_of_ascii (forall_of_all (by decide))⟩

/-- Without dependencies the text of a manifest is one that `parse` rejects. -/
theorem not_parse_render_without_dependencies :
    blockLoader.Lawful ∧ Plain blockLoader ⟨.v1, "damlc", "A.dalf", [], .damlLf, .notEncrypted⟩ ∧
      parse blockLoader (render ⟨.v1, "damlc", "A.dalf", [], .damlLf, .notEncrypted⟩) ≠
        .ok ⟨.v1, "damlc", "A.dalf", [], .damlLf, .notEncrypted⟩ := by
  have hm : Plain blockLoader ⟨.v1, "damlc", "A.dalf", [], .damlLf, .notEncrypted⟩ :=
    ⟨rfl, Or.inr (plainName_of_decide (by decide)), plainName_of_decide (by decide), by simp,
      by simp, rfl, rfl⟩
  refine ⟨blockLoader_lawful, hm, ?_⟩
  rw [parse_render_of_plain blockLoader_lawful hm]
  simp

end RoundTrip

end DarManifest

end DamlBindings.Lf
