import DamlBindings.Lf.ManifestRoundTrip

/-!
# The lines of a manifest entry

What `split_manifest_string` does to any text, not only to the entries of a manifest: when its lines
keep to the length that the format of manifests allows, and when the text can be put together again
from them.
-/

namespace DamlBindings.Lf

open Utf8Lossy

/-- The text without its line breaks, each a newline and a space. -/
def unsplit : List Char → List Char
  | '\n' :: ' ' :: cs => unsplit cs
  | c :: cs => c :: unsplit cs
  | [] => []

/-- No line has more than 72 bytes, and the text is what is left without the line breaks. -/
structure SplitsLosslessly (s : String) : Prop where
  bounded : ∀ line ∈ (splitManifestString s).toList.splitOn '\n', utf8Size line ≤ 72
  lossless : unsplit (splitManifestString s).toList = s.toList

section Lines

variable {cs l : List Char} {ls : List (List Char)}

lemma unsplit_cons {c : Char} (hc : c ≠ '\n') : unsplit (c :: cs) = c :: unsplit cs := by
  rw [unsplit]
  rintro _ rfl
  exact absurd rfl hc

lemma unsplit_append (hl : '\n' ∉ l) : unsplit (l ++ cs) = l ++ unsplit cs := by
  induction l with
  | nil => rfl
  | cons c l ih =>
    rw [List.mem_cons, not_or] at hl
    rw [List.cons_append, unsplit_cons (Ne.symm hl.1), ih hl.2, List.cons_append]

/-- Lines that are put below each other, with a space in front of each but the first. -/
lemma unsplit_intercalate (hl : '\n' ∉ l) (hls : ∀ l' ∈ ls, '\n' ∉ l') :
    unsplit (['\n'].intercalate (l :: ls.map (' ' :: ·))) = l ++ ls.flatten := by
  induction ls generalizing l with
  | nil =>
    have hend : unsplit (l ++ []) = l ++ unsplit [] := unsplit_append hl
    rw [List.append_nil, unsplit] at hend
    rw [List.map_nil, List.intercalate_singleton, hend, List.flatten_nil]
  | cons l' ls ih =>
    rw [List.forall_mem_cons] at hls
    rw [List.map_cons, List.intercalate_cons_cons, List.append_assoc, unsplit_append hl,
      List.flatten_cons]
    -- the line break is the newline and the space that the next line begins with
    have hnext : ['\n'] ++ ['\n'].intercalate ((' ' :: l') :: ls.map (' ' :: ·)) =
        '\n' :: ' ' :: ['\n'].intercalate (l' :: ls.map (' ' :: ·)) := by
      rcases ls with - | ⟨l'', ls⟩
      · simp
      · simp [List.intercalate_cons_cons]
    rw [hnext, unsplit, ih hls.1 hls.2]

end Lines

section Split

variable {s : String}

/-- The decoded chunks of the text. -/
lemma lines_split (s : String) :
    Lines 71 0 s.toList ((chunks 71 (bytes s.toList)).map fromUtf8Lossy) :=
  lines_fromUtf8Lossy (by decide) s.toList

lemma newline_not_mem_split (hs : '\n' ∉ s.toList) :
    ∀ l ∈ (chunks 71 (bytes s.toList)).map fromUtf8Lossy, '\n' ∉ l := by
  intro l hl hmem
  rcases (lines_split s).mem_or_eq hl hmem with h | h
  · exact hs h
  · exact absurd h (by decide)

lemma unsplit_splitManifestString (hs : '\n' ∉ s.toList) :
    unsplit (splitManifestString s).toList =
      ((chunks 71 (bytes s.toList)).map fromUtf8Lossy).flatten := by
  have hfree := newline_not_mem_split hs
  rcases hlines : (chunks 71 (bytes s.toList)).map fromUtf8Lossy with - | ⟨l, ls⟩
  · rw [splitManifestString, splitLines, hlines]
    rfl
  · rw [hlines, List.forall_mem_cons] at hfree
    rw [toList_splitManifestString s hlines, unsplit_intercalate hfree.1 hfree.2, List.flatten_cons]

lemma splitOn_splitManifestString (hs : '\n' ∉ s.toList) {l : List Char} {ls : List (List Char)}
    (h : (chunks 71 (bytes s.toList)).map fromUtf8Lossy = l :: ls) :
    (splitManifestString s).toList.splitOn '\n' = l :: ls.map (' ' :: ·) := by
  have hfree := newline_not_mem_split hs
  rw [h, List.forall_mem_cons] at hfree
  rw [toList_splitManifestString s h]
  refine List.splitOn_intercalate '\n' (fun l' hl' => ?_) (List.cons_ne_nil _ _)
  rcases List.mem_cons.1 hl' with rfl | hl'
  · exact hfree.1
  · obtain ⟨l'', hl'', rfl⟩ := List.mem_map.1 hl'
    rw [List.mem_cons, not_or]
    exact ⟨by decide, hfree.2 l'' hl''⟩

/-- Where no character is broken off, a line has the 71 bytes of its chunk and a space. -/
lemma bounded_of_aligned (hs : '\n' ∉ s.toList) (ha : Aligned 71 0 s.toList) :
    ∀ line ∈ (splitManifestString s).toList.splitOn '\n', utf8Size line ≤ 72 := by
  have hsize : ∀ l ∈ (chunks 71 (bytes s.toList)).map fromUtf8Lossy, utf8Size l ≤ 71 :=
    fun l hl => (lines_split s).utf8Size_le_of_aligned ha hl
  rcases hlines : (chunks 71 (bytes s.toList)).map fromUtf8Lossy with - | ⟨l, ls⟩
  · rw [splitManifestString, splitLines, hlines]
    intro line hline
    obtain rfl := List.mem_singleton.1 hline
    exact Nat.zero_le _
  · rw [hlines, List.forall_mem_cons] at hsize
    rw [splitOn_splitManifestString hs hlines]
    intro line hline
    rcases List.mem_cons.1 hline with rfl | hline
    · have hl := hsize.1
      omega
    · obtain ⟨l', hl', rfl⟩ := List.mem_map.1 hline
      have hsize' := hsize.2 l' hl'
      have hspace : ' '.utf8Size = 1 := by decide
      rw [utf8Size_cons]
      omega

end Split

/-- A text without newlines is split into lines of at most 72 bytes that it can be put together from
again, if and only if every multiple of 71 bytes that it reaches falls between two of its
characters. -/
theorem splitsLosslessly_iff (s : String) (hs : '\n' ∉ s.toList) :
    SplitsLosslessly s ↔ Aligned 71 0 s.toList := by
  constructor
  · intro h
    have hflatten := h.lossless
    rw [unsplit_splitManifestString hs] at hflatten
    by_contra hbroken
    have hlt := (lines_split s).countP_lt_of_not_aligned (fun _ => true) rfl (by decide) hbroken
    rw [hflatten] at hlt
    omega
  · intro ha
    refine ⟨bounded_of_aligned hs ha, ?_⟩
    rw [unsplit_splitManifestString hs, (lines_split s).flatten_of_aligned ha]
    rfl

/-- The first of the two lines ends with an `é`, whose two bytes are its last. -/
theorem splitsLosslessly_iff_two_lines :
    SplitsLosslessly (String.ofList (List.replicate 69 'a' ++ ['é'] ++ "b.dalf".toList)) := by
  refine (splitsLosslessly_iff _ (by decide)).2 ?_
  rw [String.toList_ofList]
  exact (aligned_whole (by decide)).2 (aligned_of_lt (by decide))

/-- The 71st byte is the first of the two of the `é`. -/
theorem not_splitsLosslessly_accent :
    ¬ ∀ s : String, '\n' ∉ s.toList → SplitsLosslessly s := by
  intro hall
  have hs : '\n' ∉ (String.ofList (List.replicate 70 'a' ++ ['é'])).toList := by decide
  have hlossless := (hall _ hs).lossless
  rw [unsplit_splitManifestString hs] at hlossless
  exact absurd hlossless (by decide)

end DamlBindings.Lf
