/-
Encoding.

`Codec.encode` writes a text in the octets of a codec, rune by rune, and `Charset.encode` puts
the mark of a marked character set before them. What has been written is read as it was.

* **`Codec.readsRune_encodeRune`** — the octets of a rune are read as this rune, whatever follows;
* **`Codec.decodes_encode`** — the octets of a text stand for the text;
* **`Charset.exists_encode`** — the Unicode encodings have octets for every text.
-/
import SourceNotes.Proofs.Charset.Split
import SourceNotes.Charset.Decoder

namespace SourceNotes.Charset

/-! ### Writing -/

/-- The octets of a 16-bit unit. -/
def octets16 (order : ByteOrder) (u : Nat) : Octets :=
  match order with
  | .little => [UInt8.ofNat (u % 0x100), UInt8.ofNat (u / 0x100)]
  | .big => [UInt8.ofNat (u / 0x100), UInt8.ofNat (u % 0x100)]

def octets32 (order : ByteOrder) (u : Nat) : Octets :=
  match order with
  | .little => octets16 .little (u % 0x10000) ++ octets16 .little (u / 0x10000)
  | .big => octets16 .big (u / 0x10000) ++ octets16 .big (u % 0x10000)

/-- The octets of a rune in UTF-16: one unit, or two surrogates above U+FFFF. -/
def utf16Encode (order : ByteOrder) (c : Char) : Octets :=
  if c.toNat < 0x10000 then octets16 order c.toNat
  else
    octets16 order (0xD800 + (c.toNat - 0x10000) / 0x400) ++
      octets16 order (0xDC00 + (c.toNat - 0x10000) % 0x400)

/-- The octet of a rune in ISO 8859-15. -/
def latin9Encode (c : Char) : Option Octets :=
  match latin9Changes.find? (·.2 = c.toNat) with
  | some (b, _) => some [UInt8.ofNat b]
  | none =>
    if c.toNat < 0x100 ∧ latin9Changes.lookup c.toNat = none then some [UInt8.ofNat c.toNat]
    else none

def windows1252Encode (c : Char) : Option Octets :=
  if c.toNat < 0x80 ∨ 0xA0 ≤ c.toNat ∧ c.toNat < 0x100 then some [UInt8.ofNat c.toNat]
  else (windows1252High.idxOf? c.toNat).map fun i => [UInt8.ofNat (0x80 + i)]

/-- The codes of a row, those to which it assigns nothing among them. -/
def Row.codes (row : Row) : List Octets :=
  (List.range row.cells.length).map fun i => row.lead ++ [row.first + UInt8.ofNat i]

/-- The octets of a rune in a table: the first code that stands for it alone. -/
def Table.encodeRune (t : Table) (c : Char) : Option Octets :=
  (t.rows.flatMap Row.codes).find? fun s => t.readOn [] s = .rune c []

namespace Codec

/-- The octets of a rune, if the codec has any for it. -/
def encodeRune : Codec → Char → Option Octets
  | .utf8, c => some (String.utf8EncodeChar c)
  | .utf16 order, c => some (utf16Encode order c)
  | .utf32 order, c => some (octets32 order c.toNat)
  | .ascii, c => if c.toNat < 0x80 then some [UInt8.ofNat c.toNat] else none
  | .latin1, c => if c.toNat < 0x100 then some [UInt8.ofNat c.toNat] else none
  | .latin9, c => latin9Encode c
  | .windows1252, c => windows1252Encode c
  | .table t, c => t.encodeRune c

/-- The octets of a text, if the codec has some for all of its runes. -/
def encode (k : Codec) : Text → Option Octets
  | [] => some []
  | c :: x =>
    match k.encodeRune c, k.encode x with
    | some s, some t => some (s ++ t)
    | _, _ => none

end Codec

/-- The octets of a text, a mark in front of them where the character set has one; `order` is the
byte order of a character set that has both. -/
def encode (order : ByteOrder) : Charset → Text → Option Octets
  | .plain k, x => k.encode x
  | .utf8Marked, x => (Codec.utf8.encode x).map (utf8Mark ++ ·)
  | .wideMarked w, x => ((w.codec order).encode x).map (w.mark order ++ ·)

/-! ### UTF-8 -/

theorem toNat_ofNat_of_lt {n : Nat} (h : n < 0x100) : (UInt8.ofNat n).toNat = n :=
  UInt8.toNat_ofNat_of_lt' h

/-- No rune is a surrogate or beyond the last code point. -/
theorem toNat_valid (c : Char) : c.toNat < 0xD800 ∨ 0xDFFF < c.toNat ∧ c.toNat < 0x110000 :=
  c.valid

theorem ofNat_bne {n m : Nat} (hn : n < 0x100) (hm : m < 0x100) :
    (UInt8.ofNat n != UInt8.ofNat m) = decide (n ≠ m) := by
  rw [bne, Bool.eq_iff_iff]
  simp only [Bool.not_eq_true', beq_eq_false_iff_ne, decide_eq_true_eq]
  rw [ne_eq, ← UInt8.toNat_inj, toNat_ofNat_of_lt hn, toNat_ofNat_of_lt hm]

theorem isTail_ofNat {n : Nat} (h : n < 0x40) : isTail (UInt8.ofNat (n + 0x80)) = true := by
  rw [isTail, toNat_ofNat_of_lt (by omega)]
  simp only [Bool.and_eq_true, decide_eq_true_eq]
  omega

theorem tailBits_ofNat {n : Nat} (h : n < 0x40) : tailBits (UInt8.ofNat (n + 0x80)) = n := by
  have hb : (UInt8.ofNat (n + 0x80)).toNat = n + 0x80 := toNat_ofNat_of_lt (by omega)
  exact Nat.sub_eq_of_eq_add hb

theorem utf8Step_ofNat {n : Nat} (h : n < 0x100) (s : Octets) :
    utf8Step (UInt8.ofNat n) s =
      if n < 0x80 then .rune (Char.ofNat n) s
      else if n < 0xC2 then .bad .startByte
      else if n < 0xE0 then utf8Two (UInt8.ofNat n) s
      else if n < 0xF0 then utf8Three (UInt8.ofNat n) s
      else if n < 0xF5 then utf8Four (UInt8.ofNat n) s
      else .bad .startByte := by
  simp only [utf8Step, UInt8.lt_iff_toNat_lt, toNat_ofNat_of_lt h]
  rfl

theorem utf8Step_two {n m : Nat} (hn : 2 ≤ n ∧ n < 0x20) (hm : m < 0x40) (u : Octets) :
    utf8Step (UInt8.ofNat (n + 0xC0)) (UInt8.ofNat (m + 0x80) :: u) =
      .rune (Char.ofNat (n * 0x40 + m)) u := by
  have hb : (UInt8.ofNat (n + 0xC0)).toNat = n + 0xC0 := toNat_ofNat_of_lt (by omega)
  rw [utf8Step_ofNat (by omega), if_neg (by omega), if_neg (by omega), if_pos (by omega), utf8Two,
    if_pos (isTail_ofNat hm), hb, tailBits_ofNat hm, Nat.add_sub_cancel]

theorem utf8Step_three {n m l : Nat} (hn : n < 0x10) (hm : m < 0x40) (hl : l < 0x40)
    (hlong : n = 0 → 0x20 ≤ m) (hsurrogate : n = 0xD → m < 0x20) (u : Octets) :
    utf8Step (UInt8.ofNat (n + 0xE0)) (UInt8.ofNat (m + 0x80) :: UInt8.ofNat (l + 0x80) :: u) =
      .rune (Char.ofNat (n * 0x1000 + m * 0x40 + l)) u := by
  have hb : (UInt8.ofNat (n + 0xE0)).toNat = n + 0xE0 := toNat_ofNat_of_lt (by omega)
  have hc : (UInt8.ofNat (m + 0x80)).toNat = m + 0x80 := toNat_ofNat_of_lt (by omega)
  have hsecond : isSecondOfThree (UInt8.ofNat (n + 0xE0)) (UInt8.ofNat (m + 0x80)) = true := by
    have hfirst : (UInt8.ofNat (n + 0xE0) != 0xE0) = decide (n + 0xE0 ≠ 0xE0) :=
      ofNat_bne (m := 0xE0) (by omega) (by decide)
    have hlast : (UInt8.ofNat (n + 0xE0) != 0xED) = decide (n + 0xE0 ≠ 0xED) :=
      ofNat_bne (m := 0xED) (by omega) (by decide)
    rw [isSecondOfThree, isTail_ofNat hm, hc, hfirst, hlast]
    simp only [Bool.true_and, Bool.and_eq_true, Bool.or_eq_true, decide_eq_true_eq]
    constructor <;> omega
  rw [utf8Step_ofNat (by omega), if_neg (by omega), if_neg (by omega), if_neg (by omega),
    if_pos (by omega), utf8Three, hsecond, isTail_ofNat hl, Bool.and_self, if_pos rfl, hb,
    tailBits_ofNat hm, tailBits_ofNat hl, Nat.add_sub_cancel]

theorem utf8Step_four {n m l j : Nat} (hn : n < 5) (hm : m < 0x40) (hl : l < 0x40) (hj : j < 0x40)
    (hlong : n = 0 → 0x10 ≤ m) (hbeyond : n = 4 → m < 0x10) (u : Octets) :
    utf8Step (UInt8.ofNat (n + 0xF0))
        (UInt8.ofNat (m + 0x80) :: UInt8.ofNat (l + 0x80) :: UInt8.ofNat (j + 0x80) :: u) =
      .rune (Char.ofNat (n * 0x40000 + m * 0x1000 + l * 0x40 + j)) u := by
  have hb : (UInt8.ofNat (n + 0xF0)).toNat = n + 0xF0 := toNat_ofNat_of_lt (by omega)
  have hc : (UInt8.ofNat (m + 0x80)).toNat = m + 0x80 := toNat_ofNat_of_lt (by omega)
  have hsecond : isSecondOfFour (UInt8.ofNat (n + 0xF0)) (UInt8.ofNat (m + 0x80)) = true := by
    have hfirst : (UInt8.ofNat (n + 0xF0) != 0xF0) = decide (n + 0xF0 ≠ 0xF0) :=
      ofNat_bne (m := 0xF0) (by omega) (by decide)
    have hlast : (UInt8.ofNat (n + 0xF0) != 0xF4) = decide (n + 0xF0 ≠ 0xF4) :=
      ofNat_bne (m := 0xF4) (by omega) (by decide)
    rw [isSecondOfFour, isTail_ofNat hm, hc, hfirst, hlast]
    simp only [Bool.true_and, Bool.and_eq_true, Bool.or_eq_true, decide_eq_true_eq]
    constructor <;> omega
  rw [utf8Step_ofNat (by omega), if_neg (by omega), if_neg (by omega), if_neg (by omega),
    if_neg (by omega), if_pos (by omega), utf8Four, hsecond, isTail_ofNat hl, isTail_ofNat hj,
    Bool.and_self, Bool.and_self, if_pos rfl, hb, tailBits_ofNat hm, tailBits_ofNat hl,
    tailBits_ofNat hj, Nat.add_sub_cancel]

/-- Octets that are read as a rune, whatever follows them. -/
def Codec.ReadsRune (k : Codec) (s : Octets) (c : Char) : Prop :=
  ∃ b t, s = b :: t ∧ ∀ u, k.step b (t ++ u) = .rune c u

/-- The octets of a rune in UTF-8, by the bits of its code. -/
theorem utf8EncodeChar_eq (c : Char) :
    String.utf8EncodeChar c =
      if c.toNat ≤ 0x7F then [UInt8.ofNat c.toNat]
      else if c.toNat ≤ 0x7FF then
        [UInt8.ofNat (c.toNat / 0x40 % 0x20 + 0xC0), UInt8.ofNat (c.toNat % 0x40 + 0x80)]
      else if c.toNat ≤ 0xFFFF then
        [UInt8.ofNat (c.toNat / 0x1000 % 0x10 + 0xE0), UInt8.ofNat (c.toNat / 0x40 % 0x40 + 0x80),
          UInt8.ofNat (c.toNat % 0x40 + 0x80)]
      else
        [UInt8.ofNat (c.toNat / 0x40000 % 8 + 0xF0), UInt8.ofNat (c.toNat / 0x1000 % 0x40 + 0x80),
          UInt8.ofNat (c.toNat / 0x40 % 0x40 + 0x80), UInt8.ofNat (c.toNat % 0x40 + 0x80)] := rfl

theorem readsRune_utf8 (c : Char) : Codec.utf8.ReadsRune (String.utf8EncodeChar c) c := by
  have hvalid := toNat_valid c
  have hrune {v : Nat} (hv : v = c.toNat) : Char.ofNat v = c := by rw [hv, Char.ofNat_toNat]
  rw [utf8EncodeChar_eq]
  -- The bits of the rune, put together again, are the rune.
  by_cases hone : c.toNat ≤ 0x7F
  · refine ⟨_, _, if_pos hone, fun u => ?_⟩
    exact (utf8Step_ofNat (by omega) u).trans (by rw [if_pos (by omega), hrune rfl])
  rw [if_neg hone]
  by_cases htwo : c.toNat ≤ 0x7FF
  · refine ⟨_, _, if_pos htwo, fun u => (utf8Step_two ?_ ?_ u).trans ?_⟩
    · omega
    · omega
    · rw [hrune (by omega)]
  rw [if_neg htwo]
  by_cases hthree : c.toNat ≤ 0xFFFF
  · refine ⟨_, _, if_pos hthree, fun u => (utf8Step_three ?_ ?_ ?_ ?_ ?_ u).trans ?_⟩
    iterate 5 omega
    rw [hrune (by omega)]
  · refine ⟨_, _, if_neg hthree, fun u => (utf8Step_four ?_ ?_ ?_ ?_ ?_ ?_ u).trans ?_⟩
    iterate 6 omega
    rw [hrune (by omega)]

/-! ### UTF-16 and UTF-32 -/

theorem exists_octets16 (order : ByteOrder) {u : Nat} (h : u < 0x10000) :
    ∃ a b, octets16 order u = [a, b] ∧ unit16 order a b = u := by
  cases order with
  | little =>
    refine ⟨_, _, rfl, ?_⟩
    rw [unit16, toNat_ofNat_of_lt (by omega), toNat_ofNat_of_lt (by omega)]
    omega
  | big =>
    refine ⟨_, _, rfl, ?_⟩
    rw [unit16, toNat_ofNat_of_lt (by omega), toNat_ofNat_of_lt (by omega)]
    omega

theorem exists_octets32 (order : ByteOrder) {u : Nat} (h : u < 0x100000000) :
    ∃ a b c d, octets32 order u = [a, b, c, d] ∧ unit32 order a b c d = u := by
  cases order with
  | little =>
    obtain ⟨a, b, hab, hlow⟩ := exists_octets16 .little (u := u % 0x10000) (by omega)
    obtain ⟨c, d, hcd, hhigh⟩ := exists_octets16 .little (u := u / 0x10000) (by omega)
    refine ⟨a, b, c, d, by rw [octets32, hab, hcd]; rfl, ?_⟩
    rw [unit32, hlow, hhigh]
    omega
  | big =>
    obtain ⟨a, b, hab, hhigh⟩ := exists_octets16 .big (u := u / 0x10000) (by omega)
    obtain ⟨c, d, hcd, hlow⟩ := exists_octets16 .big (u := u % 0x10000) (by omega)
    refine ⟨a, b, c, d, by rw [octets32, hab, hcd]; rfl, ?_⟩
    rw [unit32, hhigh, hlow]
    omega

theorem readsRune_utf16 (order : ByteOrder) (c : Char) :
    (Codec.utf16 order).ReadsRune (utf16Encode order c) c := by
  have hvalid := toNat_valid c
  unfold utf16Encode
  by_cases hone : c.toNat < 0x10000
  · obtain ⟨a, b, hab, hu⟩ := exists_octets16 order hone
    rw [if_pos hone]
    refine ⟨a, [b], hab, fun u => ?_⟩
    have htrailer : isTrailer c.toNat = false := by
      rw [isTrailer, Bool.and_eq_false_iff, decide_eq_false_iff_not, decide_eq_false_iff_not]
      omega
    have hleader : isLeader c.toNat = false := by
      rw [isLeader, Bool.and_eq_false_iff, decide_eq_false_iff_not, decide_eq_false_iff_not]
      omega
    simp only [Codec.step, List.cons_append, List.nil_append, utf16Step, hu, htrailer, hleader,
      Bool.false_eq_true, if_false, Char.ofNat_toNat]
  · generalize hhigh : 0xD800 + (c.toNat - 0x10000) / 0x400 = v
    generalize hlow : 0xDC00 + (c.toNat - 0x10000) % 0x400 = w
    obtain ⟨a, b, hab, hv⟩ := exists_octets16 order (u := v) (by omega)
    obtain ⟨d, e, hde, hw⟩ := exists_octets16 order (u := w) (by omega)
    rw [if_neg hone]
    refine ⟨a, [b, d, e], by rw [hab, hde]; rfl, fun u => ?_⟩
    have htrailer : isTrailer v = false := by
      rw [isTrailer, Bool.and_eq_false_iff, decide_eq_false_iff_not, decide_eq_false_iff_not]
      omega
    have hleader : isLeader v = true := by
      rw [isLeader, Bool.and_eq_true, decide_eq_true_eq, decide_eq_true_eq]
      omega
    have htrailer' : isTrailer w = true := by
      rw [isTrailer, Bool.and_eq_true, decide_eq_true_eq, decide_eq_true_eq]
      omega
    have hpair : 0x10000 + (v - 0xD800) * 0x400 + (w - 0xDC00) = c.toNat := by omega
    simp only [Codec.step, List.cons_append, List.nil_append, utf16Step, hv, hw, htrailer, hleader,
      htrailer', Bool.false_eq_true, if_false, if_true, hpair, Char.ofNat_toNat]

theorem readsRune_utf32 (order : ByteOrder) (c : Char) :
    (Codec.utf32 order).ReadsRune (octets32 order c.toNat) c := by
  have hvalid := toNat_valid c
  obtain ⟨a, b, d, e, hoctets, hu⟩ := exists_octets32 order (u := c.toNat) (by omega)
  refine ⟨a, [b, d, e], hoctets, fun u => ?_⟩
  have hsurrogate : ¬ (decide (0xD800 ≤ c.toNat) && decide (c.toNat < 0xE000)) = true := by
    rw [Bool.and_eq_true, decide_eq_true_eq, decide_eq_true_eq]
    omega
  have hbeyond : ¬ 0x110000 ≤ c.toNat := by omega
  simp only [Codec.step, List.cons_append, List.nil_append, utf32Step, hu]
  rw [if_neg hsurrogate, if_neg hbeyond, Char.ofNat_toNat]

/-! ### One octet for a rune -/

theorem readsRune_ascii {c : Char} (h : c.toNat < 0x80) :
    Codec.ascii.ReadsRune [UInt8.ofNat c.toNat] c := by
  have hb : (UInt8.ofNat c.toNat).toNat = c.toNat := toNat_ofNat_of_lt (by omega)
  have hlt : UInt8.ofNat c.toNat < 0x80 := by
    rw [UInt8.lt_iff_toNat_lt, hb]
    exact h
  refine ⟨_, _, rfl, fun u => ?_⟩
  rw [Codec.step, if_pos hlt, hb, Char.ofNat_toNat]
  rfl

theorem readsRune_latin1 {c : Char} (h : c.toNat < 0x100) :
    Codec.latin1.ReadsRune [UInt8.ofNat c.toNat] c := by
  refine ⟨_, _, rfl, fun u => ?_⟩
  rw [Codec.step, toNat_ofNat_of_lt h, Char.ofNat_toNat]
  rfl

theorem readsRune_latin9 {c : Char} {s : Octets} (h : latin9Encode c = some s) :
    Codec.latin9.ReadsRune s c := by
  have hchanges : ∀ p ∈ latin9Changes, p.1 < 0x100 ∧ latin9Changes.lookup p.1 = some p.2 := by
    decide
  unfold latin9Encode at h
  split at h
  · next b n hfind =>
    cases h
    obtain ⟨hlt, hlookup⟩ := hchanges _ (List.mem_of_find?_eq_some hfind)
    have hn : n = c.toNat := by simpa using List.find?_some hfind
    refine ⟨_, _, rfl, fun u => ?_⟩
    rw [Codec.step, toNat_ofNat_of_lt hlt, hlookup, Option.getD_some, hn, Char.ofNat_toNat]
    rfl
  · split at h
    · next hc =>
      cases h
      refine ⟨_, _, rfl, fun u => ?_⟩
      rw [Codec.step, toNat_ofNat_of_lt hc.1, hc.2, Option.getD_none, Char.ofNat_toNat]
      rfl
    · cases h

theorem readsRune_windows1252 {c : Char} {s : Octets} (h : windows1252Encode c = some s) :
    Codec.windows1252.ReadsRune s c := by
  unfold windows1252Encode at h
  split at h
  · next hc =>
    cases h
    have hb : (UInt8.ofNat c.toNat).toNat = c.toNat := toNat_ofNat_of_lt (by omega)
    refine ⟨_, _, rfl, fun u => ?_⟩
    have hplain : (UInt8.ofNat c.toNat < 0x80 || 0xA0 ≤ UInt8.ofNat c.toNat) = true := by
      rw [Bool.or_eq_true, decide_eq_true_eq, decide_eq_true_eq, UInt8.lt_iff_toNat_lt,
        UInt8.le_iff_toNat_le, hb]
      exact hc.imp id And.left
    rw [Codec.step, windows1252Step, if_pos hplain, hb, Char.ofNat_toNat]
    rfl
  · next hc =>
    obtain ⟨i, hi, rfl⟩ := Option.map_eq_some_iff.1 h
    obtain ⟨hlt, hget, -⟩ := List.idxOf?_eq_some_iff.1 hi
    have hlen : i < 32 := hlt
    have hb : (UInt8.ofNat (0x80 + i)).toNat = 0x80 + i := toNat_ofNat_of_lt (by omega)
    refine ⟨_, _, rfl, fun u => ?_⟩
    have hhigh : ¬ (UInt8.ofNat (0x80 + i) < 0x80 || 0xA0 ≤ UInt8.ofNat (0x80 + i)) = true := by
      rw [Bool.or_eq_true, decide_eq_true_eq, decide_eq_true_eq, UInt8.lt_iff_toNat_lt,
        UInt8.le_iff_toNat_le, hb]
      show ¬ (0x80 + i < 0x80 ∨ 0xA0 ≤ 0x80 + i)
      omega
    obtain ⟨n, hn⟩ : ∃ n, c.toNat = n + 1 := ⟨c.toNat - 1, by omega⟩
    rw [Codec.step, windows1252Step, if_neg hhigh, hb, Nat.add_sub_cancel_left,
      List.getElem?_eq_getElem hlt, hget, hn]
    simp only [← hn, Char.ofNat_toNat]
    rfl

theorem readsRune_table {t : Table} {c : Char} {s : Octets} (h : t.encodeRune c = some s) :
    (Codec.table t).ReadsRune s c := by
  have hread : t.readOn [] s = .rune c [] := by simpa using List.find?_some h
  cases s with
  | nil => cases hread
  | cons b s =>
    refine ⟨b, s, rfl, fun u => ?_⟩
    have hnext := Table.readOn_append (by rw [hread]; exact not_waits_rune c []) u
    rw [hread] at hnext
    exact hnext

/-! ### Texts -/

namespace Codec

theorem readsRune_encodeRune {k : Codec} {c : Char} {s : Octets} (h : k.encodeRune c = some s) :
    k.ReadsRune s c := by
  cases k with
  | utf8 => cases h; exact readsRune_utf8 c
  | utf16 order => cases h; exact readsRune_utf16 order c
  | utf32 order => cases h; exact readsRune_utf32 order c
  | ascii =>
    obtain ⟨hc, hs⟩ := Option.ite_none_right_eq_some.1 h
    cases hs
    exact readsRune_ascii hc
  | latin1 =>
    obtain ⟨hc, hs⟩ := Option.ite_none_right_eq_some.1 h
    cases hs
    exact readsRune_latin1 hc
  | latin9 => exact readsRune_latin9 h
  | windows1252 => exact readsRune_windows1252 h
  | table t => exact readsRune_table h

theorem pass_encode {k : Codec} {x : Text} {octets : Octets} (h : k.encode x = some octets) :
    k.pass true octets = ⟨x, [], none⟩ := by
  induction x generalizing octets with
  | nil =>
    cases h
    rw [pass]
  | cons c x ih =>
    unfold encode at h
    split at h
    · next s t hs ht =>
      cases h
      obtain ⟨b, s, rfl, hstep⟩ := readsRune_encodeRune hs
      rw [List.cons_append, pass_of_rune true (hstep t), ih ht]
    · cases h

theorem decodes_encode {k : Codec} {x : Text} {octets : Octets} (h : k.encode x = some octets) :
    k.Decodes octets x := by
  rw [Decodes, pass_encode h]
  exact ⟨rfl, rfl⟩

theorem exists_encode {k : Codec} (h : ∀ c, ∃ s, k.encodeRune c = some s) (x : Text) :
    ∃ octets, k.encode x = some octets := by
  induction x with
  | nil => exact ⟨[], rfl⟩
  | cons c x ih =>
    obtain ⟨s, hs⟩ := h c
    obtain ⟨t, ht⟩ := ih
    exact ⟨s ++ t, by rw [encode, hs, ht]⟩

end Codec

/-- The character sets that have octets for every text. -/
def Unicode : Charset → Prop
  | .plain .utf8 => True
  | .plain (.utf16 _) => True
  | .plain (.utf32 _) => True
  | .utf8Marked => True
  | .wideMarked _ => True
  | _ => False

theorem exists_encode {charset : Charset} (h : charset.Unicode) (order : ByteOrder) (x : Text) :
    ∃ octets, charset.encode order x = some octets := by
  have hmarked (mark : Octets) {k : Codec} (hk : ∀ c, ∃ s, k.encodeRune c = some s) :
      ∃ octets, (k.encode x).map (mark ++ ·) = some octets := by
    obtain ⟨octets, hoctets⟩ := Codec.exists_encode hk x
    exact ⟨mark ++ octets, by rw [hoctets]; rfl⟩
  cases charset with
  | plain k =>
    cases k with
    | utf8 => exact Codec.exists_encode (fun _ => ⟨_, rfl⟩) x
    | utf16 order => exact Codec.exists_encode (fun _ => ⟨_, rfl⟩) x
    | utf32 order => exact Codec.exists_encode (fun _ => ⟨_, rfl⟩) x
    | ascii => exact h.elim
    | latin1 => exact h.elim
    | latin9 => exact h.elim
    | windows1252 => exact h.elim
    | table t => exact h.elim
  | utf8Marked => exact hmarked utf8Mark fun _ => ⟨_, rfl⟩
  | wideMarked w =>
    cases w with
    | utf16 => exact hmarked _ fun _ => ⟨_, rfl⟩
    | utf32 => exact hmarked _ fun _ => ⟨_, rfl⟩

end SourceNotes.Charset
