import DamlBindings.Lf.Manifest

/-!
# The name of an archive

`DamlLfArchive::from_bytes_named` takes the hash of an archive off the end of the name that it is
given.  The code searches the name and cuts it by bytes.
-/

namespace DamlBindings.Lf

open Utf8Lossy

/-! ### Texts by bytes -/

/-- `str::rfind`: where the last occurrence of a pattern begins, in bytes. -/
def rfind (pattern : List Char) : List Char → Option Nat
  | [] => if pattern = [] then some 0 else none
  | c :: cs =>
    match rfind pattern cs with
    | some i => some (c.utf8Size + i)
    | none => if pattern <+: c :: cs then some 0 else none

/-- `&text[..bytes]`, which panics unless a character ends there. -/
def sliceTo : List Char → Nat → Option (List Char)
  | _, 0 => some []
  | [], _ + 1 => none
  | c :: cs, bytes =>
    if c.utf8Size ≤ bytes then (c :: ·) <$> sliceTo cs (bytes - c.utf8Size) else none

/-- `usize` subtraction of one, which panics at zero. -/
def checkedPred : Nat → Option Nat
  | 0 => none
  | i + 1 => some i

/-! ### The archive -/

/-- `Archive`, as it is on the wire. -/
structure Proto.Archive where
  hashFunction : Int
  payload : List UInt8
  hash : String

/-- `DamlLfArchive`, over the type of its payload; its hash function is always `Sha256`. -/
structure NamedArchive (Payload : Type) where
  name : String
  payload : Payload
  hash : String

/-- The decoding of an envelope, and of the payload in it, with errors in `E`. -/
structure ArchiveDecoder (E Payload : Type) where
  archive : List UInt8 → Except E Proto.Archive
  payload : List UInt8 → Except E Payload

/-- What goes wrong: the decoding, or the code returns an error of its own or panics. -/
inductive ArchiveFailure (E : Type)
  | decoding (e : E)
  | error (e : DamlLfError)
  | panic

/-- The name without the hash; none if the code panics. -/
def sanitizedName (archiveName hash : List Char) : Option (List Char) :=
  match rfind hash archiveName with
  | none => some archiveName
  | some i => (checkedPred i).bind (sliceTo archiveName)

variable {E Payload : Type} (decoder : ArchiveDecoder E Payload)

/-- `DamlLfArchive::from_bytes_named` -/
def fromBytesNamed (name : String) (bytes : List UInt8) :
    Except (ArchiveFailure E) (NamedArchive Payload) := do
  let archive ← (decoder.archive bytes).mapError .decoding
  if archive.hashFunction = 0 then
    let payload ← (decoder.payload archive.payload).mapError .decoding
    match sanitizedName name.toList archive.hash.toList with
    | some sanitized => .ok ⟨String.ofList sanitized, payload, archive.hash⟩
    | none => .error .panic
  else
    .error (.error (.darParseError
      s!"unknown hash function id {archive.hashFunction} in archive envelope"))

/-! ### The search and the cut -/

section Search

variable {pattern text pre post : List Char} {bytes i : Nat}

/-- A text is cut at the end of its beginnings. -/
lemma sliceTo_eq_some : sliceTo text bytes = some pre ↔ pre <+: text ∧ utf8Size pre = bytes := by
  induction text generalizing bytes pre with
  | nil =>
    rcases bytes with - | bytes
    · simp only [sliceTo, Option.some_inj, List.prefix_nil]
      constructor
      · rintro rfl
        exact ⟨rfl, rfl⟩
      · exact fun h => h.1.symm
    · simp only [sliceTo, List.prefix_nil]
      constructor
      · intro h
        cases h
      · rintro ⟨rfl, h⟩
        cases h
  | cons c text ih =>
    have hpos := c.utf8Size_pos
    rcases bytes with - | bytes
    · simp only [sliceTo, Option.some_inj]
      constructor
      · rintro rfl
        exact ⟨List.nil_prefix, rfl⟩
      -- only the empty text takes no bytes
      · rintro ⟨-, hsize⟩
        have hlen := length_le_utf8Size pre
        exact (List.eq_nil_of_length_eq_zero (by omega)).symm
    · have hstep : sliceTo (c :: text) (bytes + 1) = if c.utf8Size ≤ bytes + 1 then
          (c :: ·) <$> sliceTo text (bytes + 1 - c.utf8Size) else none := rfl
      rw [hstep]
      split_ifs with hle
      · rw [Option.map_eq_map, Option.map_eq_some_iff]
        constructor
        · rintro ⟨pre', h, rfl⟩
          obtain ⟨hpre, hsize⟩ := ih.1 h
          refine ⟨(List.prefix_cons_inj c).2 hpre, ?_⟩
          rw [utf8Size_cons]
          omega
        · rintro ⟨hpre, hsize⟩
          rcases pre with - | ⟨d, pre⟩
          · cases hsize
          · obtain ⟨rfl, hrest⟩ := List.cons_prefix_cons.1 hpre
            rw [utf8Size_cons] at hsize
            exact ⟨pre, ih.2 ⟨hrest, by omega⟩, rfl⟩
      -- the cut falls inside the character: no beginning of the text ends there
      · constructor
        · intro h
          cases h
        · rintro ⟨hpre, hsize⟩
          rcases pre with - | ⟨d, pre⟩
          · cases hsize
          · obtain ⟨rfl, hrest⟩ := List.cons_prefix_cons.1 hpre
            rw [utf8Size_cons] at hsize
            omega

/-- What is searched for is found unless it does not occur. -/
lemma rfind_eq_none_iff : rfind pattern text = none ↔ ¬ pattern <:+: text := by
  induction text with
  | nil =>
    rw [rfind, List.infix_nil]
    split_ifs with h <;> simp [h]
  | cons c text ih =>
    rw [rfind, List.infix_cons_iff, not_or, ← ih]
    rcases rfind pattern text with - | i
    · simp
    · simp

/-- What is found is an occurrence. -/
lemma exists_occurrence (h : rfind pattern text = some i) :
    ∃ pre post, text = pre ++ (pattern ++ post) ∧ utf8Size pre = i := by
  induction text generalizing i with
  | nil =>
    rw [rfind] at h
    split_ifs at h with hpattern
    cases h
    exact ⟨[], [], by rw [hpattern]; rfl, rfl⟩
  | cons c text ih =>
    rw [rfind] at h
    rcases hrest : rfind pattern text with - | j
    · rw [hrest] at h
      split_ifs at h with hprefix
      obtain ⟨post, hpost⟩ := hprefix
      cases h
      exact ⟨[], post, hpost.symm, rfl⟩
    · rw [hrest] at h
      cases h
      obtain ⟨pre, post, rfl, rfl⟩ := ih hrest
      exact ⟨c :: pre, post, rfl, utf8Size_cons c pre⟩

/-- No occurrence begins after the one that is found. -/
lemma utf8Size_le_of_rfind (h : rfind pattern (pre ++ (pattern ++ post)) = some i) :
    utf8Size pre ≤ i := by
  induction pre generalizing i with
  | nil => exact Nat.zero_le i
  | cons c pre ih =>
    rw [List.cons_append, rfind] at h
    rcases hrest : rfind pattern (pre ++ (pattern ++ post)) with - | j
    · exact absurd ⟨pre, post, List.append_assoc pre pattern post⟩ (rfind_eq_none_iff.1 hrest)
    · rw [hrest] at h
      cases h
      have hle := ih hrest
      rw [utf8Size_cons]
      omega

/-- A text that ends with the pattern has its last occurrence there. -/
lemma rfind_of_suffix (text pattern : List Char) :
    rfind pattern (text ++ pattern) = some (utf8Size text) := by
  rcases hfind : rfind pattern (text ++ pattern) with - | i
  · exact absurd (List.suffix_append text pattern).isInfix (rfind_eq_none_iff.1 hfind)
  · obtain ⟨pre, post, htext, rfl⟩ := exists_occurrence hfind
    have hle : utf8Size text ≤ utf8Size pre := by
      have hend : rfind pattern (text ++ (pattern ++ [])) = some (utf8Size pre) := by
        rwa [List.append_nil]
      exact utf8Size_le_of_rfind hend
    have hsize := congrArg utf8Size htext
    simp only [utf8Size_append] at hsize
    congr 1
    omega

end Search

/-! ### The name -/

/-- The name without a `-` and the hash at its end, if there is a hash and the name ends so. -/
def strippedName (name hash : List Char) : List Char :=
  if hash ≠ [] ∧ '-' :: hash <:+ name then name.take (name.length - (hash.length + 1)) else name

section Name

variable {name hash : List Char}

lemma sanitizedName_of_suffix (h : '-' :: hash <:+ name) :
    sanitizedName name hash = some (name.take (name.length - (hash.length + 1))) := by
  obtain ⟨base, rfl⟩ := h
  have hfind : rfind hash (base ++ '-' :: hash) = some (utf8Size base + 1) := by
    have h := rfind_of_suffix (base ++ ['-']) hash
    rwa [List.append_assoc, List.singleton_append, utf8Size_append,
      show utf8Size ['-'] = 1 by decide] at h
  have htake : (base ++ '-' :: hash).take ((base ++ '-' :: hash).length - (hash.length + 1)) =
      base := by
    rw [List.length_append, List.length_cons, Nat.add_sub_cancel, List.take_left]
  rw [sanitizedName, hfind, htake]
  exact sliceTo_eq_some.2 ⟨List.prefix_append _ _, rfl⟩

lemma sanitizedName_of_not_infix (h : ¬ hash <:+: name) : sanitizedName name hash = some name := by
  rw [sanitizedName, rfind_eq_none_iff.2 h]

/-- Where the hash occurs, the code panics or cuts something off. -/
lemma sanitizedName_ne_self (h : hash <:+: name) : sanitizedName name hash ≠ some name := by
  intro heq
  rcases hfind : rfind hash name with - | i
  · exact rfind_eq_none_iff.1 hfind h
  · obtain ⟨pre, post, hname, hsize⟩ := exists_occurrence hfind
    rw [sanitizedName, hfind] at heq
    obtain ⟨j, hj, hslice⟩ := Option.bind_eq_some_iff.1 heq
    obtain ⟨-, hlen⟩ := sliceTo_eq_some.1 hslice
    have hpred : i = j + 1 := by
      rcases i with - | i
      · cases hj
      · cases hj
        rfl
    rw [hname, utf8Size_append] at hlen
    omega

lemma sanitizedName_eq_iff : sanitizedName name hash = some (strippedName name hash) ↔
    (hash ≠ [] ∧ '-' :: hash <:+ name) ∨ ¬ hash <:+: name := by
  constructor
  · intro h
    by_contra hnot
    rw [not_or, not_not] at hnot
    rw [strippedName, if_neg hnot.1] at h
    exact sanitizedName_ne_self hnot.2 h
  · rintro (h | h)
    · rw [strippedName, if_pos h]
      exact sanitizedName_of_suffix h.2
    · have hsuffix : ¬ (hash ≠ [] ∧ '-' :: hash <:+ name) := by
        rintro ⟨-, hsuffix⟩
        exact h ((List.suffix_cons '-' hash).trans hsuffix).isInfix
      rw [strippedName, if_neg hsuffix]
      exact sanitizedName_of_not_infix h

end Name

/-- The envelope and the payload in it can be decoded, and the hash function is known. -/
structure Decodes (bytes : List UInt8) (archive : Proto.Archive) (payload : Payload) : Prop where
  archive_eq : decoder.archive bytes = .ok archive
  hashFunction_eq : archive.hashFunction = 0
  payload_eq : decoder.payload archive.payload = .ok payload

/-- The code does not panic, and the archive gets the name without the hash at its end. -/
structure NamesArchive (name : String) (bytes : List UInt8) (hash : String) : Prop where
  safe : fromBytesNamed decoder name bytes ≠ .error .panic
  name_eq : ∀ archive, fromBytesNamed decoder name bytes = .ok archive →
    archive.name.toList = strippedName name.toList hash.toList

/-- A decodable archive is named safely and rightly if and only if its name ends in a `-` and its
hash, which is not empty, or does not have the hash in it anywhere. -/
theorem namesArchive_iff {bytes : List UInt8} {archive : Proto.Archive} {payload : Payload}
    (h : Decodes decoder bytes archive payload) (name : String) :
    NamesArchive decoder name bytes archive.hash ↔
      (archive.hash.toList ≠ [] ∧ '-' :: archive.hash.toList <:+ name.toList) ∨
        ¬ archive.hash.toList <:+: name.toList := by
  -- the envelope and the payload decode, so the name decides alone
  have hrun : fromBytesNamed decoder name bytes =
      match sanitizedName name.toList archive.hash.toList with
      | some sanitized => .ok ⟨String.ofList sanitized, payload, archive.hash⟩
      | none => .error .panic := by
    rw [fromBytesNamed, h.archive_eq]
    show (if archive.hashFunction = 0 then _ else _) = _
    rw [if_pos h.hashFunction_eq, h.payload_eq]
    rfl
  rw [← sanitizedName_eq_iff]
  constructor
  · intro hnames
    rcases hname : sanitizedName name.toList archive.hash.toList with - | sanitized
    · rw [hname] at hrun
      exact absurd hrun hnames.safe
    · rw [hname] at hrun
      have heq := hnames.name_eq _ hrun
      rw [String.toList_ofList] at heq
      rw [heq]
  · intro hname
    rw [hname] at hrun
    constructor
    · rw [hrun]
      rintro ⟨⟩
    · intro a ha
      cases hrun.symm.trans ha
      exact String.toList_ofList

/-- Envelopes that all have the hash `ab`. -/
def smallDecoder : ArchiveDecoder Unit Unit := ⟨fun _ => .ok ⟨0, [], "ab"⟩, fun _ => .ok ()⟩

theorem namesArchive_iff_small :
    Decodes smallDecoder [] ⟨0, [], "ab"⟩ () ∧
      (NamesArchive smallDecoder "main-1.0.0-ab" [] "ab" ↔
        ("ab".toList ≠ [] ∧ '-' :: "ab".toList <:+ "main-1.0.0-ab".toList) ∨
          ¬ "ab".toList <:+: "main-1.0.0-ab".toList) :=
  have h : Decodes smallDecoder [] ⟨0, [], "ab"⟩ () := ⟨rfl, rfl, rfl⟩
  ⟨h, namesArchive_iff smallDecoder h "main-1.0.0-ab"⟩

/-- The code panics on a name that is the hash. -/
theorem not_namesArchive_hash :
    ¬ ∀ (decoder : ArchiveDecoder Unit Unit) (bytes : List UInt8) (archive : Proto.Archive)
      (name : String), Decodes decoder bytes archive () →
      NamesArchive decoder name bytes archive.hash := by
  intro hall
  exact (hall smallDecoder [] ⟨0, [], "ab"⟩ "ab" ⟨rfl, rfl, rfl⟩).safe rfl

end DamlBindings.Lf
