import Mathlib.Algebra.GroupWithZero.Nat
import Mathlib.Data.List.Basic

/-!
# Lossy decoding of UTF-8

A text is cut into lines of a fixed number of bytes, and each line is decoded on its own.  Where a
cut falls inside a character, neither line has the whole of it, and both show the replacement
character in its place.  `Lines` says what the lines of a text are, and the results are about what
the lines, put together, have of the text.
-/

namespace Utf8Lossy

/-- The replacement character. -/
def replacement : Char := '\uFFFD'

/-- The bytes of a text. -/
def bytes (cs : List Char) : List UInt8 := cs.flatMap String.utf8EncodeChar

/-- The number of bytes of a text. -/
def utf8Size (cs : List Char) : Nat := (cs.map Char.utf8Size).sum

section Bytes

variable (c : Char) (cs ds : List Char)

@[simp] lemma bytes_nil : bytes [] = [] := rfl

@[simp] lemma bytes_cons : bytes (c :: cs) = String.utf8EncodeChar c ++ bytes cs := rfl

@[simp] lemma bytes_append : bytes (cs ++ ds) = bytes cs ++ bytes ds := List.flatMap_append

@[simp] lemma utf8Size_nil : utf8Size [] = 0 := rfl

@[simp] lemma utf8Size_cons : utf8Size (c :: cs) = c.utf8Size + utf8Size cs := by
  simp [utf8Size]

@[simp] lemma utf8Size_append : utf8Size (cs ++ ds) = utf8Size cs + utf8Size ds := by
  simp [utf8Size]

@[simp] lemma length_bytes : (bytes cs).length = utf8Size cs := by
  induction cs with
  | nil => rfl
  | cons c cs ih => simp [ih]

end Bytes

/-! ### Decoding -/

/-- The character that the bytes begin with, if they are well formed there. -/
def firstChar? (bs : List UInt8) : Option Char := bs.toByteArray.utf8DecodeChar? 0

/-- The first two bytes can begin a character of three or four bytes. -/
def acceptsSecond (b c : UInt8) : Bool :=
  if b = 0xe0 then 0xa0 ≤ c && c ≤ 0xbf
  else if b = 0xed then 0x80 ≤ c && c ≤ 0x9f
  else if b = 0xf0 then 0x90 ≤ c && c ≤ 0xbf
  else if b = 0xf4 then 0x80 ≤ c && c ≤ 0x8f
  else 0xe1 ≤ b && b ≤ 0xf3 && 0x80 ≤ c && c ≤ 0xbf

/-- The number of bytes that one replacement character stands for: the longest beginning that some
character has, or else one byte. -/
def invalidLength : List UInt8 → Nat
  | b :: c :: d :: _ =>
    if acceptsSecond b c then (if 0xf0 ≤ b && d &&& 0xc0 == 0x80 then 3 else 2) else 1
  | [b, c] => if acceptsSecond b c then 2 else 1
  | _ => 1

/-- The decoding, for a number of characters. -/
def decode : Nat → List UInt8 → List Char
  | 0, _ => []
  | _, [] => []
  | fuel + 1, bs =>
    match firstChar? bs with
    | some c => c :: decode fuel (bs.drop c.utf8Size)
    | none => replacement :: decode fuel (bs.drop (invalidLength bs))

/-- `String::from_utf8_lossy`: no character has less than one byte. -/
def fromUtf8Lossy (bs : List UInt8) : List Char := decode bs.length bs

section Decode

variable {fuel : Nat} {b : UInt8} {bs : List UInt8}

@[simp] lemma decode_nil : decode fuel [] = [] := by
  cases fuel <;> rfl

lemma decode_of_some {c : Char} (hb : bs ≠ []) (h : firstChar? bs = some c) :
    decode (fuel + 1) bs = c :: decode fuel (bs.drop c.utf8Size) := by
  obtain ⟨b, bs, rfl⟩ := List.exists_cons_of_ne_nil hb
  rw [decode, h]
  simp

lemma decode_of_none (hb : bs ≠ []) (h : firstChar? bs = none) :
    decode (fuel + 1) bs = replacement :: decode fuel (bs.drop (invalidLength bs)) := by
  obtain ⟨b, bs, rfl⟩ := List.exists_cons_of_ne_nil hb
  rw [decode, h]
  simp

lemma firstChar?_encode (c : Char) (bs : List UInt8) :
    firstChar? (String.utf8EncodeChar c ++ bs) = some c := by
  rw [firstChar?, List.toByteArray_append]
  exact ByteArray.utf8DecodeChar?_utf8EncodeChar_append

lemma decode_encode (c : Char) (bs : List UInt8) :
    decode (fuel + 1) (String.utf8EncodeChar c ++ bs) = c :: decode fuel bs := by
  rw [decode_of_some (by simp) (firstChar?_encode c bs)]
  simp

/-- Only the first byte of a character can begin one. -/
lemma firstChar?_eq_none (hb : ¬ b.IsUTF8FirstByte) : firstChar? (b :: bs) = none := by
  rw [firstChar?, Option.eq_none_iff_forall_ne_some]
  intro c hc
  refine hb ?_
  have h := ByteArray.isUTF8FirstByte_of_isSome_utf8DecodeChar? (Option.isSome_of_eq_some hc)
  simpa using h

end Decode

/-! ### A line of a text -/

/-- The bytes only continue a character. -/
def Continues (bs : List UInt8) : Prop := ∀ b ∈ bs, ¬ b.IsUTF8FirstByte

/-- The bytes are a proper part of a character, from its beginning. -/
def Begins (c : Char) (bs : List UInt8) : Prop :=
  ∃ cut, 0 < cut ∧ cut < c.utf8Size ∧ bs = (String.utf8EncodeChar c).take cut

section Line

variable {fuel : Nat} {b c : UInt8} {pre bs : List UInt8}

lemma isUTF8FirstByte_of_acceptsSecond (h : acceptsSecond b c = true) : b.IsUTF8FirstByte := by
  have hrange : 0xe0 ≤ b.toNat ∧ b.toNat ≤ 0xf4 := by
    unfold acceptsSecond at h
    split_ifs at h with h₁ h₂ h₃ h₄
    · subst h₁; decide
    · subst h₂; decide
    · subst h₃; decide
    · subst h₄; decide
    · simp only [Bool.and_eq_true, decide_eq_true_eq, UInt8.le_iff_toNat_le] at h
      have hlow : (225 : UInt8).toNat = 225 := rfl
      have hhigh : (243 : UInt8).toNat = 243 := rfl
      omega
  have hall : ∀ n : Fin 21, (UInt8.ofNat (0xe0 + n)).IsUTF8FirstByte := by decide
  have hb := hall ⟨b.toNat - 0xe0, by omega⟩
  rwa [show 0xe0 + (b.toNat - 0xe0) = b.toNat by omega, UInt8.ofNat_toNat] at hb

lemma invalidLength_of_not_first (hb : ¬ b.IsUTF8FirstByte) : invalidLength (b :: bs) = 1 := by
  match bs with
  | [] => rfl
  | [c] => exact if_neg fun h => hb (isUTF8FirstByte_of_acceptsSecond h)
  | c :: d :: _ => exact if_neg fun h => hb (isUTF8FirstByte_of_acceptsSecond h)

lemma invalidLength_pos : 0 < invalidLength bs := by
  unfold invalidLength
  split <;> (try split_ifs) <;> omega

lemma Continues.drop (h : Continues bs) (n : Nat) : Continues (bs.drop n) :=
  fun b hb => h b (List.mem_of_mem_drop hb)

/-- Every byte that continues a character broken off before becomes one replacement character. -/
lemma decode_continues (h : Continues pre) (fuel : Nat) (bs : List UInt8) :
    decode (pre.length + fuel) (pre ++ bs) =
      List.replicate pre.length replacement ++ decode fuel bs := by
  induction pre with
  | nil => simp
  | cons b pre ih =>
    have hb : ¬ b.IsUTF8FirstByte := h b (by simp)
    rw [List.length_cons, Nat.add_right_comm,
      List.cons_append, decode_of_none (by simp) (firstChar?_eq_none hb),
      invalidLength_of_not_first hb, List.drop_one, List.tail_cons,
      ih fun b' hb' => h b' (by simp [hb'])]
    rfl

lemma decode_text (ds : List Char) (fuel : Nat) (bs : List UInt8) :
    decode (ds.length + fuel) (bytes ds ++ bs) = ds ++ decode fuel bs := by
  induction ds with
  | nil => simp
  | cons d ds ih =>
    rw [List.length_cons, Nat.add_right_comm, bytes_cons, List.append_assoc, decode_encode, ih]
    rfl

/-- After its first byte a character only has bytes that continue it. -/
lemma continues_drop_encode (c : Char) {n : Nat} (hn : 0 < n) :
    Continues ((String.utf8EncodeChar c).drop n) := by
  intro b hb
  obtain ⟨i, hi, rfl⟩ := List.mem_iff_getElem.1 hb
  rw [List.getElem_drop, UInt8.isUTF8FirstByte_getElem_utf8EncodeChar]
  omega

lemma firstChar?_of_begins {c : Char} (h : Begins c bs) : firstChar? bs = none := by
  obtain ⟨cut, -, hcut, rfl⟩ := h
  rw [Option.eq_none_iff_forall_ne_some]
  intro d hd
  -- with the rest of its bytes appended, what is decoded is still `d`, and it is `c`
  have hsize := ByteArray.le_size_of_utf8DecodeChar?_eq_some hd
  have happend := ByteArray.utf8DecodeChar?_append_eq_some hd
    ((String.utf8EncodeChar c).drop cut).toByteArray
  rw [← List.toByteArray_append, List.take_append_drop] at happend
  have hc := firstChar?_encode c []
  rw [List.append_nil, firstChar?, happend, Option.some_inj] at hc
  subst hc
  simp at hsize
  omega

/-- The part of a character that a line ends with becomes replacement characters. -/
lemma decode_begins {c : Char} (h : Begins c bs) (hfuel : bs.length ≤ fuel) :
    ∃ j, 0 < j ∧ decode fuel bs = List.replicate j replacement := by
  have hnone := firstChar?_of_begins h
  obtain ⟨cut, hpos, hcut, rfl⟩ := h
  have hlen : ((String.utf8EncodeChar c).take cut).length = cut := by simp; omega
  obtain ⟨fuel, rfl⟩ : ∃ n, fuel = n + 1 := ⟨fuel - 1, by omega⟩
  have hne : (String.utf8EncodeChar c).take cut ≠ [] := List.ne_nil_of_length_pos (by omega)
  rw [decode_of_none hne hnone]
  set n := invalidLength ((String.utf8EncodeChar c).take cut) with hn
  have hn' : 0 < n := invalidLength_pos
  have hrest : Continues (((String.utf8EncodeChar c).take cut).drop n) := by
    intro b hb
    rw [List.drop_take] at hb
    exact continues_drop_encode c hn' b (List.mem_of_mem_take hb)
  have hlen' : (((String.utf8EncodeChar c).take cut).drop n).length ≤ fuel := by
    rw [List.length_drop]
    omega
  obtain ⟨fuel', rfl⟩ := Nat.exists_eq_add_of_le hlen'
  have hdecode := decode_continues hrest fuel' []
  rw [List.append_nil, decode_nil, List.append_nil] at hdecode
  exact ⟨_, Nat.succ_pos _, by rw [hdecode, List.replicate_succ]⟩

lemma length_le_utf8Size (ds : List Char) : ds.length ≤ utf8Size ds := by
  induction ds with
  | nil => simp
  | cons d ds ih =>
    have hd := d.utf8Size_pos
    simp only [List.length_cons, utf8Size_cons]
    omega

lemma fromUtf8Lossy_whole (h : Continues pre) (ds : List Char) :
    fromUtf8Lossy (pre ++ bytes ds) = List.replicate pre.length replacement ++ ds := by
  have hlen := length_le_utf8Size ds
  obtain ⟨k, hk⟩ := Nat.exists_eq_add_of_le hlen
  have htext := decode_text ds k []
  rw [List.append_nil, decode_nil, List.append_nil] at htext
  rw [fromUtf8Lossy, List.length_append, decode_continues h, length_bytes, hk, htext]

lemma fromUtf8Lossy_broken (h : Continues pre) (ds : List Char) {c : Char} (hc : Begins c bs) :
    ∃ j, 0 < j ∧ fromUtf8Lossy (pre ++ (bytes ds ++ bs)) =
      List.replicate pre.length replacement ++ (ds ++ List.replicate j replacement) := by
  have hlen := length_le_utf8Size ds
  obtain ⟨k, hk⟩ := Nat.exists_eq_add_of_le hlen
  obtain ⟨j, hj, hdecode⟩ := decode_begins hc (show bs.length ≤ k + bs.length by omega)
  refine ⟨j, hj, ?_⟩
  rw [fromUtf8Lossy, List.length_append, decode_continues h, List.length_append, length_bytes, hk,
    Nat.add_assoc, decode_text, hdecode]

end Line

/-! ### The lines of a text -/

/-- `slice::chunks`: the parts of a list of `n` elements each, the last one of what is left. -/
def chunks {α : Type*} (n : Nat) (xs : List α) : List (List α) :=
  (List.range ((xs.length + n - 1) / n)).map fun i => (xs.drop (i * n)).take n

section Chunks

variable {α : Type*} {n : Nat} {xs ys : List α}

lemma chunks_nil (hn : 0 < n) : chunks n ([] : List α) = [] := by
  rw [chunks, List.length_nil, Nat.zero_add, Nat.div_eq_of_lt (by omega)]
  rfl

lemma chunks_of_lt (hxs : xs ≠ []) (hlen : xs.length < n) : chunks n xs = [xs] := by
  have hpos := List.length_pos_iff.2 hxs
  have hcount : (xs.length + n - 1) / n = 1 := by
    rw [show xs.length + n - 1 = (xs.length - 1) + n by omega, Nat.add_div_right _ (by omega),
      Nat.div_eq_of_lt (by omega)]
  rw [chunks, hcount]
  simp [List.take_of_length_le (Nat.le_of_lt hlen)]

lemma chunks_append (hn : 0 < n) (hxs : xs.length = n) :
    chunks n (xs ++ ys) = xs :: chunks n ys := by
  have hcount : ((xs ++ ys).length + n - 1) / n = (ys.length + n - 1) / n + 1 := by
    rw [List.length_append, hxs, show n + ys.length + n - 1 = (ys.length + n - 1) + n by omega,
      Nat.add_div_right _ hn]
  rw [chunks, hcount, List.range_succ_eq_map, List.map_cons, List.map_map, chunks]
  congr 1
  · rw [Nat.zero_mul, List.drop_zero, List.take_left' hxs]
  · refine List.map_congr_left fun i _ => ?_
    have hdrop : (xs ++ ys).drop ((i + 1) * n) = ys.drop (i * n) := by
      rw [Nat.succ_mul, Nat.add_comm, ← List.drop_drop, List.drop_left' hxs]
    rw [Function.comp_apply, hdrop]

end Chunks

/-- The lines of a text, `n` bytes each, where `p` bytes of a character that the line before broke
off come first.  A line shows replacement characters for these, and for what it breaks off. -/
inductive Lines (n : Nat) : Nat → List Char → List (List Char) → Prop
  | nil : Lines n 0 [] []
  | last {p : Nat} {ds : List Char} : 0 < p + utf8Size ds → p + utf8Size ds < n →
      Lines n p ds [List.replicate p replacement ++ ds]
  | whole {p : Nat} {ds cs : List Char} {lines : List (List Char)} : p + utf8Size ds = n →
      Lines n 0 cs lines → Lines n p (ds ++ cs) ((List.replicate p replacement ++ ds) :: lines)
  | broken {p q j : Nat} {c : Char} {ds cs : List Char} {lines : List (List Char)} :
      p + utf8Size ds + q = n → 0 < q → q < c.utf8Size → 0 < j →
      Lines n (c.utf8Size - q) cs lines →
      Lines n p (ds ++ c :: cs)
        ((List.replicate p replacement ++ (ds ++ List.replicate j replacement)) :: lines)

/-- Up to any number of bytes a text has whole characters, and then perhaps a part of one. -/
lemma exists_cut (cs : List Char) {m : Nat} (hm : m ≤ utf8Size cs) :
    (∃ ds rest, cs = ds ++ rest ∧ utf8Size ds = m) ∨
      ∃ ds c rest q, cs = ds ++ c :: rest ∧ utf8Size ds + q = m ∧ 0 < q ∧ q < c.utf8Size := by
  induction cs generalizing m with
  | nil => exact Or.inl ⟨[], [], rfl, (Nat.le_zero.1 hm).symm⟩
  | cons c cs ih =>
    rw [utf8Size_cons] at hm
    rcases Nat.eq_zero_or_pos m with rfl | hpos
    · exact Or.inl ⟨[], c :: cs, rfl, rfl⟩
    · rcases Nat.lt_or_ge m c.utf8Size with hlt | hge
      · exact Or.inr ⟨[], c, cs, m, rfl, by simp, hpos, hlt⟩
      · rcases ih (m := m - c.utf8Size) (by omega) with
        ⟨ds, rest, rfl, hds⟩ | ⟨ds, d, rest, q, rfl, hds, hq⟩
        · exact Or.inl ⟨c :: ds, rest, rfl, by rw [utf8Size_cons]; omega⟩
        · exact Or.inr ⟨c :: ds, d, rest, q, rfl, by rw [utf8Size_cons]; omega, hq⟩

/-- The decoded chunks, where the bytes begin with those that a line before has broken off.  The
induction is on the number of bytes; no character has more than four, so what a line breaks off is
over in the next one. -/
theorem lines_of_continues {n : Nat} (hn : 4 ≤ n) {pre : List UInt8} (hpre : Continues pre)
    (hlen : pre.length < n) (cs : List Char) :
    Lines n pre.length cs ((chunks n (pre ++ bytes cs)).map fromUtf8Lossy) := by
  induction hsize : (pre ++ bytes cs).length using Nat.strongRecOn generalizing pre cs with
  | ind size ih =>
    rw [List.length_append, length_bytes] at hsize
    rcases Nat.lt_or_ge size n with hlt | hge
    · rcases Nat.eq_zero_or_pos size with hzero | hpos
      · obtain rfl : pre = [] := List.eq_nil_of_length_eq_zero (by omega)
        obtain rfl : cs = [] := by
          have h := length_le_utf8Size cs
          exact List.eq_nil_of_length_eq_zero (by omega)
        rw [show [] ++ bytes [] = ([] : List UInt8) from rfl, chunks_nil (by omega)]
        exact .nil
      · have hne : pre ++ bytes cs ≠ [] := by
          refine List.ne_nil_of_length_pos ?_
          rw [List.length_append, length_bytes]
          omega
        rw [chunks_of_lt hne (by rw [List.length_append, length_bytes]; omega), List.map_singleton,
          fromUtf8Lossy_whole hpre]
        exact .last (by omega) (by omega)
    · rcases exists_cut cs (m := n - pre.length) (by omega) with
        ⟨ds, rest, rfl, hds⟩ | ⟨ds, c, rest, q, rfl, hds, hq, hqc⟩
      · have hchunk : (pre ++ bytes ds).length = n := by
          rw [List.length_append, length_bytes]
          omega
        rw [bytes_append, ← List.append_assoc, chunks_append (by omega) hchunk, List.map_cons,
          fromUtf8Lossy_whole hpre]
        rw [utf8Size_append] at hsize
        refine .whole (by omega) ?_
        have hnil : Continues [] := by
          intro b hb
          exact absurd hb (by simp)
        have h := ih (utf8Size rest) (by omega) hnil (by rw [List.length_nil]; omega) rest (by simp)
        rwa [List.nil_append] at h
      · -- the character in the middle is cut after its first `q` bytes
        have hbegins : Begins c ((String.utf8EncodeChar c).take q) := ⟨q, hq, hqc, rfl⟩
        have htake : ((String.utf8EncodeChar c).take q).length = q := by simp; omega
        have hdrop : ((String.utf8EncodeChar c).drop q).length = c.utf8Size - q := by simp
        have hchunk : (pre ++ (bytes ds ++ (String.utf8EncodeChar c).take q)).length = n := by
          rw [List.length_append, List.length_append, length_bytes, htake]
          omega
        have hsplit : pre ++ bytes (ds ++ c :: rest) =
            (pre ++ (bytes ds ++ (String.utf8EncodeChar c).take q)) ++
              ((String.utf8EncodeChar c).drop q ++ bytes rest) := by
          rw [bytes_append, bytes_cons]
          nth_rewrite 1 [← List.take_append_drop q (String.utf8EncodeChar c)]
          simp only [List.append_assoc]
        obtain ⟨j, hj, hline⟩ := fromUtf8Lossy_broken hpre ds hbegins
        rw [hsplit, chunks_append (by omega) hchunk, List.map_cons, hline]
        rw [utf8Size_append, utf8Size_cons] at hsize
        refine .broken (by omega) hq hqc hj ?_
        have hfour := c.utf8Size_le_four
        have h := ih (c.utf8Size - q + utf8Size rest) (by omega)
          (continues_drop_encode c hq) (by omega) rest
          (by rw [List.length_append, hdrop, length_bytes])
        rwa [hdrop] at h

/-- The decoded chunks of a text are its lines. -/
theorem lines_fromUtf8Lossy {n : Nat} (hn : 4 ≤ n) (cs : List Char) :
    Lines n 0 cs ((chunks n (bytes cs)).map fromUtf8Lossy) := by
  have hnil : Continues [] := by
    intro b hb
    exact absurd hb (by simp)
  exact lines_of_continues hn hnil (by rw [List.length_nil]; omega) cs

/-! ### What the lines have of the text -/

/-- A number of bytes of the text ends where a character does. -/
def IsCharBoundary (cs : List Char) (m : Nat) : Prop := ∃ ds, ds <+: cs ∧ utf8Size ds = m

/-- No line breaks a character off, where the first one has `p` bytes of another. -/
def Aligned (n p : Nat) (cs : List Char) : Prop :=
  ∀ k, n * (k + 1) ≤ p + utf8Size cs → IsCharBoundary cs (n * (k + 1) - p)

section Aligned

variable {n p q m : Nat} {c : Char} {cs ds : List Char} {lines : List (List Char)}

lemma utf8Size_le_of_prefix (h : ds <+: cs) : utf8Size ds ≤ utf8Size cs := by
  obtain ⟨rest, rfl⟩ := h
  rw [utf8Size_append]
  omega

lemma isCharBoundary_append (ds : List Char) (m : Nat) :
    IsCharBoundary (ds ++ cs) (utf8Size ds + m) ↔ IsCharBoundary cs m := by
  constructor
  · rintro ⟨es, hes, hsize⟩
    rcases List.prefix_or_prefix_of_prefix hes (List.prefix_append ds cs) with h | ⟨es', rfl⟩
    · have hle := utf8Size_le_of_prefix h
      exact ⟨[], List.nil_prefix, by rw [utf8Size_nil]; omega⟩
    · rw [utf8Size_append] at hsize
      exact ⟨es', (List.prefix_append_right_inj ds).1 hes, by omega⟩
  · rintro ⟨es, hes, rfl⟩
    exact ⟨ds ++ es, (List.prefix_append_right_inj ds).2 hes, utf8Size_append ds es⟩

lemma not_isCharBoundary_of_inside (hq : 0 < q) (hqc : q < c.utf8Size) :
    ¬ IsCharBoundary (c :: cs) q := by
  rintro ⟨es, hes, rfl⟩
  rcases es with - | ⟨e, es⟩
  · exact absurd hq (by simp)
  · obtain ⟨rfl, -⟩ := List.cons_prefix_cons.1 hes
    rw [utf8Size_cons] at hqc
    omega

lemma aligned_of_lt (h : p + utf8Size cs < n) : Aligned n p cs := by
  intro k hk
  have hle : n ≤ n * (k + 1) := Nat.le_mul_of_pos_right n (Nat.succ_pos k)
  omega

/-- A text of one-byte characters is not broken anywhere. -/
lemma aligned_of_ascii (hcs : ∀ c ∈ cs, c.utf8Size = 1) : Aligned n 0 cs := by
  have hsize : ∀ ds : List Char, (∀ c ∈ ds, c.utf8Size = 1) → utf8Size ds = ds.length := by
    intro ds hds
    induction ds with
    | nil => rfl
    | cons d ds ih =>
      rw [utf8Size_cons, hds d (by simp), ih fun c hc => hds c (by simp [hc]), List.length_cons,
        Nat.add_comm]
  intro k hk
  rw [hsize cs hcs, Nat.zero_add] at hk
  refine ⟨cs.take (n * (k + 1)), List.take_prefix _ _, ?_⟩
  rw [hsize _ fun c hc => hcs c (List.mem_of_mem_take hc), List.length_take, Nat.sub_zero,
    Nat.min_eq_left hk]

lemma aligned_whole (hds : p + utf8Size ds = n) :
    Aligned n p (ds ++ cs) ↔ Aligned n 0 cs := by
  constructor
  · intro h k hk
    have hmul : n * (k + 1 + 1) = n * (k + 1) + n := Nat.mul_succ n (k + 1)
    have hk' := h (k + 1) (by rw [utf8Size_append]; omega)
    rw [show n * (k + 1 + 1) - p = utf8Size ds + n * (k + 1) by omega] at hk'
    simpa using (isCharBoundary_append ds _).1 hk'
  · intro h k hk
    rw [utf8Size_append] at hk
    rcases k with - | k
    · exact ⟨ds, List.prefix_append ds cs, by omega⟩
    · have hmul : n * (k + 1 + 1) = n * (k + 1) + n := Nat.mul_succ n (k + 1)
      rw [show n * (k + 1 + 1) - p = utf8Size ds + n * (k + 1) by omega]
      exact (isCharBoundary_append ds _).2 (h k (by omega))

lemma not_aligned_broken (hds : p + utf8Size ds + q = n) (hq : 0 < q) (hqc : q < c.utf8Size) :
    ¬ Aligned n p (ds ++ c :: cs) := by
  intro h
  have h₀ := h 0 (by rw [utf8Size_append, utf8Size_cons]; omega)
  rw [show n * (0 + 1) - p = utf8Size ds + q by omega, isCharBoundary_append] at h₀
  exact not_isCharBoundary_of_inside hq hqc h₀

end Aligned

namespace Lines

variable {n p : Nat} {cs : List Char} {lines : List (List Char)}

/-- Where no character is broken off, the lines together are the text. -/
theorem flatten_of_aligned (h : Lines n p cs lines) (ha : Aligned n p cs) :
    lines.flatten = List.replicate p replacement ++ cs := by
  induction h with
  | nil => rfl
  | last => simp
  | whole hds _ ih =>
    rw [List.flatten_cons, ih ((aligned_whole hds).1 ha)]
    simp
  | broken hds hq hqc => exact absurd ha (not_aligned_broken hds hq hqc)

/-- Where no character is broken off, no line has more bytes than were cut off for it. -/
theorem utf8Size_le_of_aligned (h : Lines n 0 cs lines) (ha : Aligned n 0 cs) {line : List Char}
    (hline : line ∈ lines) : utf8Size line ≤ n := by
  generalize hp : 0 = p at h ha
  induction h with
  | nil => cases hline
  | last _ hlt =>
    subst hp
    obtain rfl := List.mem_singleton.1 hline
    omega
  | whole hds _ ih =>
    subst hp
    rcases List.mem_cons.1 hline with rfl | hline
    · omega
    · exact ih hline rfl ((aligned_whole hds).1 ha)
  | broken hds hq hqc => exact absurd ha (not_aligned_broken hds hq hqc)

/-- The lines have no fewer characters of a kind than the text, if the replacement character is of
that kind. -/
lemma countP_le {kind : Char → Bool} (hkind : kind replacement = true) (h : Lines n p cs lines) :
    p + cs.countP kind ≤ lines.flatten.countP kind := by
  induction h with
  | nil => simp
  | last => simp [List.countP_replicate, hkind]
  | whole _ _ ih =>
    simp only [List.flatten_cons, List.countP_append, List.countP_replicate, hkind, if_true]
    omega
  | @broken p q j c ds cs lines _ _ hqc hj _ ih =>
    have hc : [c].countP kind ≤ 1 := List.countP_le_length
    rw [show ds ++ c :: cs = ds ++ ([c] ++ cs) from rfl]
    simp only [List.flatten_cons, List.countP_append, List.countP_replicate, hkind, if_true]
    omega

/-- A character that is broken off is shown as two or more. -/
theorem countP_lt_of_not_aligned (kind : Char → Bool) (hkind : kind replacement = true) (hn : 0 < n)
    (h : Lines n p cs lines) (ha : ¬ Aligned n p cs) :
    p + cs.countP kind < lines.flatten.countP kind := by
  induction h with
  | nil => exact absurd (aligned_of_lt (by simpa using hn)) ha
  | last _ hlt => exact absurd (aligned_of_lt hlt) ha
  | whole hds _ ih =>
    have hrest := ih (mt (aligned_whole hds).2 ha)
    simp only [List.flatten_cons, List.countP_append, List.countP_replicate, hkind, if_true]
    omega
  | @broken p q j c ds cs lines _ _ hqc hj hrest _ =>
    have hc : [c].countP kind ≤ 1 := List.countP_le_length
    have hle := hrest.countP_le hkind
    rw [show ds ++ c :: cs = ds ++ ([c] ++ cs) from rfl]
    simp only [List.flatten_cons, List.countP_append, List.countP_replicate, hkind, if_true]
    omega

/-- What is of one byte is neither broken off nor added. -/
theorem count_eq {a : Char} (ha : a.utf8Size = 1) (h : Lines n p cs lines) :
    lines.flatten.count a = cs.count a := by
  have hrep : ∀ k, (List.replicate k replacement).count a = 0 := by
    intro k
    rw [List.count_replicate, if_neg]
    rintro heq
    rw [← eq_of_beq heq] at ha
    exact absurd ha (by decide)
  induction h with
  | nil => rfl
  | last => simp [hrep]
  | whole _ _ ih => simp [hrep, ih]
  | @broken p q j c ds cs lines _ _ hqc _ _ ih =>
    have hc : (c == a) = false := by
      rw [beq_eq_false_iff_ne]
      rintro rfl
      omega
    simp [hrep, ih, List.count_cons, hc]

lemma mem_or_eq (h : Lines n p cs lines) {line : List Char} (hline : line ∈ lines) {c : Char}
    (hc : c ∈ line) : c ∈ cs ∨ c = replacement := by
  induction h with
  | nil => simp at hline
  | last =>
    obtain rfl := List.mem_singleton.1 hline
    simp only [List.mem_append, List.mem_replicate] at hc
    tauto
  | whole _ _ ih =>
    rcases List.mem_cons.1 hline with rfl | hline
    · simp only [List.mem_append, List.mem_replicate] at hc ⊢
      tauto
    · have hmem := ih hline
      simp only [List.mem_append]
      tauto
  | broken _ _ _ _ _ ih =>
    rcases List.mem_cons.1 hline with rfl | hline
    · simp only [List.mem_append, List.mem_replicate] at hc ⊢
      tauto
    · have hmem := ih hline
      simp only [List.mem_append, List.mem_cons]
      tauto

/-- A text of `n` or more characters, all of them the same, has two of them in a row. -/
lemma exists_ne_of_length {a : Char} {ds cs : List Char} (hcs : ¬ [a, a] <:+: cs)
    (hds : ds <:+: cs) (hlen : 2 ≤ ds.length) : ∃ c ∈ ds, c ≠ a := by
  by_contra hall
  push Not at hall
  match ds, hlen, hall, hds with
  | d :: d' :: rest, _, hall, hds =>
    obtain rfl : d = a := hall d (by simp)
    obtain rfl : d' = d := hall d' (by simp)
    exact hcs ((List.prefix_append [d', d'] rest).isInfix.trans hds)

lemma length_eq_utf8Size {a : Char} (ha : a.utf8Size = 1) {ds : List Char} (h : ∀ c ∈ ds, c = a) :
    ds.length = utf8Size ds := by
  induction ds with
  | nil => rfl
  | cons d ds ih =>
    rw [List.length_cons, utf8Size_cons, h d (by simp), ha, ih fun c hc => h c (by simp [hc]),
      Nat.add_comm]

/-- Where the text neither ends in a blank nor has two of them in a row, no line is all blanks. -/
theorem exists_ne {a : Char} (ha : a.utf8Size = 1) (hn : 2 ≤ n) (h : Lines n p cs lines)
    (hcs : ¬ [a, a] <:+: cs) (hlast : cs.getLast? ≠ some a) {line : List Char}
    (hline : line ∈ lines) : ∃ c ∈ line, c ≠ a := by
  have hrep : replacement ≠ a := by
    rintro rfl
    exact absurd ha (by decide)
  -- a line that begins or ends inside a character shows a replacement, which is no blank
  induction h with
  | nil => simp at hline
  | @last p ds hpos hlt =>
    obtain rfl := List.mem_singleton.1 hline
    rcases Nat.eq_zero_or_pos p with rfl | hp
    · have hne : ds ≠ [] := by
        rintro rfl
        simp at hpos
      rw [List.getLast?_eq_some_getLast hne] at hlast
      exact ⟨ds.getLast hne, by simp, fun heq => hlast (congrArg some heq)⟩
    · exact ⟨replacement, by simp [Nat.ne_of_gt hp], hrep⟩
  | @whole p ds cs lines hds hrest ih =>
    rcases List.mem_cons.1 hline with rfl | hline
    · rcases Nat.eq_zero_or_pos p with rfl | hp
      -- a whole line of blanks has at least two of them in a row
      · by_contra hall
        push Not at hall
        have hall' : ∀ c ∈ ds, c = a := by simpa using hall
        have hlen := length_eq_utf8Size ha hall'
        obtain ⟨c, hc, hca⟩ := exists_ne_of_length hcs
          (List.prefix_append ds cs).isInfix (by omega)
        exact hca (hall' c hc)
      · exact ⟨replacement, by simp [Nat.ne_of_gt hp], hrep⟩
    · refine ih (fun hin => hcs (hin.trans (List.suffix_append ds cs).isInfix)) ?_ hline
      intro hlast'
      rw [List.getLast?_append, hlast'] at hlast
      exact hlast rfl
  | @broken p q j c ds cs lines _ _ hqc hj hrest ih =>
    rcases List.mem_cons.1 hline with rfl | hline
    · exact ⟨replacement, by simp [Nat.ne_of_gt hj], hrep⟩
    · refine ih (fun hin => hcs (hin.trans ?_)) ?_ hline
      · exact ((List.suffix_cons c cs).trans (List.suffix_append ds (c :: cs))).isInfix
      · intro hlast'
        rw [List.getLast?_append, List.getLast?_cons, hlast'] at hlast
        exact hlast rfl

lemma eq_nil (h : Lines n p cs []) : p = 0 ∧ cs = [] := by
  cases h
  exact ⟨rfl, rfl⟩

lemma of_nil (hn : 0 < n) (h : Lines n 0 [] lines) : lines = [] := by
  generalize hcs : ([] : List Char) = cs at h
  cases h with
  | nil => rfl
  | last hpos =>
    subst hcs
    simp at hpos
  | whole hds =>
    obtain ⟨rfl, rfl⟩ := List.append_eq_nil_iff.1 hcs.symm
    rw [utf8Size_nil] at hds
    omega
  | broken => simp at hcs

/-- A text that fits on one line is that line. -/
theorem eq_singleton (hn : 0 < n) (h : Lines n 0 cs lines) (hcs : cs ≠ []) (hle : utf8Size cs ≤ n) :
    lines = [cs] := by
  generalize hp : 0 = p at h
  cases h with
  | nil => exact absurd rfl hcs
  | last =>
    subst hp
    rfl
  | @whole _ ds cs lines hds hrest =>
    subst hp
    rw [utf8Size_append] at hle
    have hlen := length_le_utf8Size cs
    obtain rfl : cs = [] := List.eq_nil_of_length_eq_zero (by omega)
    rw [of_nil hn hrest]
    simp
  | broken hds hq hqc =>
    rw [utf8Size_append, utf8Size_cons] at hle
    omega

/-- A longer one has two lines at the least. -/
theorem two_le_length (h : Lines n 0 cs lines) (hlt : n < utf8Size cs) : 2 ≤ lines.length := by
  generalize hp : 0 = p at h
  cases h with
  | nil => simp at hlt
  | last => omega
  | @whole _ ds cs lines hds hrest =>
    rcases lines with - | ⟨l, lines⟩
    · obtain ⟨-, rfl⟩ := hrest.eq_nil
      rw [List.append_nil] at hlt
      omega
    · simp
  | @broken _ q _ c ds cs lines hds hq hqc hj hrest =>
    rcases lines with - | ⟨l, lines⟩
    · obtain ⟨hzero, -⟩ := hrest.eq_nil
      omega
    · simp

/-- The first line has what the text begins with, if there is room for it and for a byte more, and
goes on with the next character of the text or with the replacement character. -/
theorem exists_head {ks : List Char} {v : Char} {vs : List Char} (hks : utf8Size ks < n)
    (h : Lines n 0 (ks ++ v :: vs) lines) :
    ∃ head tail, lines = (ks ++ head) :: tail ∧
      (head.head? = some v ∨ head.head? = some replacement) := by
  -- whole characters of the text that reach over `ks` have the next one
  have hover : ∀ ds rest, ks ++ v :: vs = ds ++ rest → utf8Size ks < utf8Size ds →
      ∃ ds', ds = ks ++ v :: ds' := by
    intro ds rest heq hlt
    have hds : ds <+: ks ++ v :: vs := ⟨rest, heq.symm⟩
    rcases List.prefix_or_prefix_of_prefix hds (List.prefix_append ks (v :: vs)) with
      hle | ⟨es, rfl⟩
    · have hsize := utf8Size_le_of_prefix hle
      omega
    · rcases es with - | ⟨e, es⟩
      · rw [List.append_nil] at hlt
        omega
      · obtain ⟨rfl, -⟩ := List.cons_prefix_cons.1 ((List.prefix_append_right_inj ks).1 hds)
        exact ⟨es, rfl⟩
  generalize hcs : ks ++ v :: vs = cs at h
  generalize hp : 0 = p at h
  cases h with
  | nil => simp at hcs
  | last =>
    subst hp hcs
    exact ⟨v :: vs, [], rfl, Or.inl rfl⟩
  | @whole _ ds cs lines hds hrest =>
    subst hp
    obtain ⟨ds', rfl⟩ := hover ds cs hcs (by omega)
    exact ⟨v :: ds', lines, rfl, Or.inl rfl⟩
  | @broken _ q j c ds cs lines hds hq hqc hj hrest =>
    subst hp
    rcases Nat.lt_or_ge (utf8Size ks) (utf8Size ds) with hlt | hge
    · obtain ⟨ds', rfl⟩ := hover ds (c :: cs) hcs hlt
      exact ⟨v :: (ds' ++ List.replicate j replacement), lines, by simp, Or.inl rfl⟩
    · -- the broken character is the next one
      obtain ⟨ds', hds'⟩ := hover (ds ++ [c]) cs (by simpa using hcs) (by simp; omega)
      obtain ⟨ds'', hds''⟩ : ∃ es, ds = ks ++ es := by
        rcases List.eq_nil_or_concat ds' with rfl | ⟨es, e, rfl⟩
        · exact ⟨[], by simpa using (List.append_inj_left' hds' rfl)⟩
        · refine ⟨v :: es, ?_⟩
          rw [List.concat_eq_append, ← List.cons_append, ← List.append_assoc] at hds'
          exact List.append_inj_left' hds' rfl
      obtain ⟨j, rfl⟩ : ∃ i, j = i + 1 := ⟨j - 1, by omega⟩
      subst hds''
      have hnil : ds'' = [] := by
        have hlen := length_le_utf8Size ds''
        rw [utf8Size_append] at hge
        exact List.eq_nil_of_length_eq_zero (by omega)
      subst hnil
      exact ⟨List.replicate (j + 1) replacement, lines, by simp, Or.inr rfl⟩

end Lines

end Utf8Lossy
