/-
Codecs: reading runes one at a time.

A codec reads each rune without regard to what came before it. `Codec.step`
reads the first rune of some octets that begin with a given one. Here and in the
tables is the only place where the encodings are described.

* **`Codec.step_rune_length`**, **`Codec.step_pair_length`** — reading a rune uses up
  at least one octet, and reading two with one code at least two;
* **`Codec.pass`** — reads runes for as long as they last, with an equation for
  each outcome of a step, and **`Codec.pass_length`** — it never yields more runes
  than it used octets;
* **`Codec.readInduction`** — induction on octets code by code.
-/
import SourceNotes.Charset.Table

namespace SourceNotes.Charset

/-- The order of the octets in a code unit. -/
inductive ByteOrder where
  | little
  | big
  deriving DecidableEq, Repr

/-- The encodings that are read rune by rune. -/
inductive Codec where
  | utf8
  | utf16 (order : ByteOrder)
  | utf32 (order : ByteOrder)
  | ascii
  /-- ISO 8859-1. -/
  | latin1
  /-- ISO 8859-15. -/
  | latin9
  /-- Windows code page 1252. -/
  | windows1252
  /-- Any other character set without states. -/
  | table (t : Table)
  deriving DecidableEq, Repr

/-- An octet that may continue a UTF-8 sequence. -/
def isTail (b : UInt8) : Bool := 0x80 ≤ b.toNat && b.toNat ≤ 0xBF

/-- The six bits that a continuation octet carries. -/
def tailBits (b : UInt8) : Nat := b.toNat - 0x80

/-- Whether `c` may come second in a three-octet sequence that `b` starts: no
overlong form and no surrogate. -/
def isSecondOfThree (b c : UInt8) : Bool :=
  isTail c && (b != 0xE0 || 0xA0 ≤ c.toNat) && (b != 0xED || c.toNat < 0xA0)

/-- Whether `c` may come second in a four-octet sequence that `b` starts: no
overlong form and nothing above the last code point. -/
def isSecondOfFour (b c : UInt8) : Bool :=
  isTail c && (b != 0xF0 || 0x90 ≤ c.toNat) && (b != 0xF4 || c.toNat < 0x90)

/-- The rest of a two-octet sequence that `b` starts. -/
def utf8Two (b : UInt8) : Octets → Step
  | [] => .short .unexpectedEnd
  | c :: s =>
    if isTail c then .rune (Char.ofNat ((b.toNat - 0xC0) * 0x40 + tailBits c)) s
    else .bad .continuationByte

/-- The rest of a three-octet sequence that `b` starts. An encoded surrogate is
told apart only when its third octet is at hand or cannot come. -/
def utf8Three (b : UInt8) : Octets → Step
  | [] => .short .unexpectedEnd
  | [c] =>
    if isSecondOfThree b c then .short .unexpectedEnd
    else if b == 0xED && isTail c then .short .continuationByte
    else .bad .continuationByte
  | c :: d :: s =>
    if isSecondOfThree b c && isTail d then
      .rune (Char.ofNat ((b.toNat - 0xE0) * 0x1000 + tailBits c * 0x40 + tailBits d)) s
    else .bad .continuationByte

/-- The rest of a four-octet sequence that `b` starts. -/
def utf8Four (b : UInt8) : Octets → Step
  | [] => .short .unexpectedEnd
  | [c] => if isSecondOfFour b c then .short .unexpectedEnd else .bad .continuationByte
  | [c, d] =>
    if isSecondOfFour b c && isTail d then .short .unexpectedEnd else .bad .continuationByte
  | c :: d :: e :: s =>
    if isSecondOfFour b c && isTail d && isTail e then
      .rune (Char.ofNat ((b.toNat - 0xF0) * 0x40000 + tailBits c * 0x1000 +
        tailBits d * 0x40 + tailBits e)) s
    else .bad .continuationByte

/-- The first rune of the UTF-8 octets `b :: s`. -/
def utf8Step (b : UInt8) (s : Octets) : Step :=
  if b < 0x80 then .rune (Char.ofNat b.toNat) s
  else if b < 0xC2 then .bad .startByte
  else if b < 0xE0 then utf8Two b s
  else if b < 0xF0 then utf8Three b s
  else if b < 0xF5 then utf8Four b s
  else .bad .startByte

/-- The 16-bit unit of two octets. -/
def unit16 : ByteOrder → UInt8 → UInt8 → Nat
  | .little, a, b => a.toNat + b.toNat * 0x100
  | .big, a, b => a.toNat * 0x100 + b.toNat

/-- A unit that is the first half of a pair. -/
def isLeader (u : Nat) : Bool := 0xD800 ≤ u && u < 0xDC00

/-- A unit that is the second half of a pair. -/
def isTrailer (u : Nat) : Bool := 0xDC00 ≤ u && u < 0xE000

/-- The first rune of the UTF-16 octets `a :: s`. -/
def utf16Step (order : ByteOrder) (a : UInt8) : Octets → Step
  | [] => .short .truncated
  | b :: s =>
    let u := unit16 order a b
    if isTrailer u then .bad .strayTrailer
    else if isLeader u then
      match s with
      | c :: d :: s =>
        let v := unit16 order c d
        if isTrailer v then
          .rune (Char.ofNat (0x10000 + (u - 0xD800) * 0x400 + (v - 0xDC00))) s
        else .bad .unpairedSurrogate
      | _ => .short .unexpectedEnd
    else .rune (Char.ofNat u) s

/-- The 32-bit unit of four octets. -/
def unit32 (order : ByteOrder) (a b c d : UInt8) : Nat :=
  match order with
  | .little => unit16 .little a b + unit16 .little c d * 0x10000
  | .big => unit16 .big a b * 0x10000 + unit16 .big c d

/-- The first rune of the UTF-32 octets `a :: s`. -/
def utf32Step (order : ByteOrder) (a : UInt8) : Octets → Step
  | b :: c :: d :: s =>
    let u := unit32 order a b c d
    if 0xD800 ≤ u && u < 0xE000 then .bad .surrogateUnit
    else if 0x110000 ≤ u then .bad .beyondLastRune
    else .rune (Char.ofNat u) s
  | _ => .short .truncated

/-- The code points that code page 1252 puts at the octets 80 to 9F; 0 where it
puts none. -/
def windows1252High : List Nat :=
  [0x20AC, 0, 0x201A, 0x0192, 0x201E, 0x2026, 0x2020, 0x2021,
   0x02C6, 0x2030, 0x0160, 0x2039, 0x0152, 0, 0x017D, 0,
   0, 0x2018, 0x2019, 0x201C, 0x201D, 0x2022, 0x2013, 0x2014,
   0x02DC, 0x2122, 0x0161, 0x203A, 0x0153, 0, 0x017E, 0x0178]

/-- The code points in which ISO 8859-15 departs from ISO 8859-1. -/
def latin9Changes : List (Nat × Nat) :=
  [(0xA4, 0x20AC), (0xA6, 0x0160), (0xA8, 0x0161), (0xB4, 0x017D), (0xB8, 0x017E),
   (0xBC, 0x0152), (0xBD, 0x0153), (0xBE, 0x0178)]

/-- The first rune of the code page 1252 octets `b :: s`. -/
def windows1252Step (b : UInt8) (s : Octets) : Step :=
  if b < 0x80 || 0xA0 ≤ b then .rune (Char.ofNat b.toNat) s
  else
    match windows1252High[b.toNat - 0x80]? with
    | some (n + 1) => .rune (Char.ofNat (n + 1)) s
    | _ => .bad .unassigned

/-- The first rune of the octets `b :: s`. -/
def Codec.step : Codec → UInt8 → Octets → Step
  | .utf8, b, s => utf8Step b s
  | .utf16 order, b, s => utf16Step order b s
  | .utf32 order, b, s => utf32Step order b s
  | .ascii, b, s => if b < 0x80 then .rune (Char.ofNat b.toNat) s else .bad .notAscii
  | .latin1, b, s => .rune (Char.ofNat b.toNat) s
  | .latin9, b, s => .rune (Char.ofNat ((latin9Changes.lookup b.toNat).getD b.toNat)) s
  | .windows1252, b, s => windows1252Step b s
  | .table t, b, s => t.step b s

theorem utf8Step_length {b : UInt8} {s t : Octets} {c : Char} (h : utf8Step b s = .rune c t) :
    t.length ≤ s.length := by
  unfold utf8Step at h
  repeat' split at h
  · grind
  · grind
  · unfold utf8Two at h; grind
  · unfold utf8Three at h; grind
  · unfold utf8Four at h; grind
  · grind

/-- Reading a rune uses up the first octet at least. -/
theorem Codec.step_rune_length {k : Codec} {b : UInt8} {s t : Octets} {c : Char}
    (h : k.step b s = .rune c t) : t.length ≤ s.length := by
  cases k <;> simp only [Codec.step] at h
  case utf8 => exact utf8Step_length h
  case utf16 order => unfold utf16Step at h; grind
  case utf32 order => unfold utf32Step at h; grind
  case ascii => grind
  case latin1 => grind
  case latin9 => grind
  case windows1252 => unfold windows1252Step at h; grind
  case table t => exact Table.length_of_step h

theorem utf8Step_ne_pair (b : UInt8) (s t : Octets) (c d : Char) : utf8Step b s ≠ .pair c d t := by
  intro h
  unfold utf8Step at h
  repeat' split at h
  · cases h
  · cases h
  · unfold utf8Two at h; grind
  · unfold utf8Three at h; grind
  · unfold utf8Four at h; grind
  · cases h

/-- No codec but a table has codes for two runes. -/
theorem Codec.exists_table {k : Codec} {b : UInt8} {s t : Octets} {c d : Char}
    (h : k.step b s = .pair c d t) : ∃ table, k = .table table := by
  cases k <;> simp only [Codec.step] at h
  case utf8 => exact absurd h (utf8Step_ne_pair b s t c d)
  case utf16 order => unfold utf16Step at h; grind
  case utf32 order => unfold utf32Step at h; grind
  case ascii => grind
  case latin1 => cases h
  case latin9 => cases h
  case windows1252 => unfold windows1252Step at h; grind
  case table t => exact ⟨t, rfl⟩

/-- Reading two runes with one code uses up another octet at least. -/
theorem Codec.step_pair_length {k : Codec} {b : UInt8} {s t : Octets} {c d : Char}
    (h : k.step b s = .pair c d t) : t.length < s.length := by
  obtain ⟨table, rfl⟩ := Codec.exists_table h
  exact Table.length_of_step_pair h

/-- What reading runes to the end of some octets gives: the runes, the octets
left over, and the fault that ended the reading, if one did. -/
structure Pass where
  runes : Text
  rest : Octets
  fault : Option Fault
  deriving DecidableEq, Repr

/-- Reads runes while there are any. Octets that may yet become a rune are left
over, and are at fault only if the input is complete (`final`). -/
def Codec.pass (k : Codec) (final : Bool) : Octets → Pass
  | [] => ⟨[], [], none⟩
  | b :: s =>
    match h : k.step b s with
    | .rune c t =>
      have : t.length < s.length + 1 := Nat.lt_succ_of_le (Codec.step_rune_length h)
      let p := k.pass final t
      { p with runes := c :: p.runes }
    | .short f => ⟨[], b :: s, if final then some f else none⟩
    | .bad f => ⟨[], b :: s, some f⟩
    | .pair c d t =>
      have : t.length < s.length + 1 := Nat.lt_succ_of_lt (Codec.step_pair_length h)
      let p := k.pass final t
      { p with runes := c :: d :: p.runes }
termination_by s => s.length

theorem Codec.pass_of_rune {k : Codec} {b : UInt8} {s t : Octets} {c : Char} (final : Bool)
    (h : k.step b s = .rune c t) :
    k.pass final (b :: s) = { k.pass final t with runes := c :: (k.pass final t).runes } := by
  rw [Codec.pass]
  split <;> simp_all

theorem Codec.pass_of_short {k : Codec} {b : UInt8} {s : Octets} {f : Fault} (final : Bool)
    (h : k.step b s = .short f) :
    k.pass final (b :: s) = ⟨[], b :: s, if final then some f else none⟩ := by
  rw [Codec.pass]
  split <;> simp_all

theorem Codec.pass_of_bad {k : Codec} {b : UInt8} {s : Octets} {f : Fault} (final : Bool)
    (h : k.step b s = .bad f) : k.pass final (b :: s) = ⟨[], b :: s, some f⟩ := by
  rw [Codec.pass]
  split <;> simp_all

theorem Codec.pass_of_pair {k : Codec} {b : UInt8} {s t : Octets} {c d : Char} (final : Bool)
    (h : k.step b s = .pair c d t) :
    k.pass final (b :: s) =
      { k.pass final t with runes := c :: d :: (k.pass final t).runes } := by
  rw [Codec.pass]
  split <;> simp_all

theorem Codec.pass_of_read {k : Codec} {b : UInt8} {s t : Octets} {x : Text} (final : Bool)
    (h : (k.step b s).read? = some (x, t)) :
    k.pass final (b :: s) = { k.pass final t with runes := x ++ (k.pass final t).runes } := by
  cases hstep : k.step b s with
  | rune c rest =>
    rw [hstep] at h
    cases h
    exact Codec.pass_of_rune final hstep
  | pair c d rest =>
    rw [hstep] at h
    cases h
    exact Codec.pass_of_pair final hstep
  | short f =>
    rw [hstep] at h
    cases h
  | bad f =>
    rw [hstep] at h
    cases h

/-- Octets are codes, one after another, up to where one is not finished or none begins. -/
theorem Codec.readInduction (k : Codec) {motive : Octets → Prop} (nil : motive [])
    (read : ∀ b s x t, (k.step b s).read? = some (x, t) → motive t → motive (b :: s))
    (short : ∀ b s f, k.step b s = .short f → motive (b :: s))
    (bad : ∀ b s f, k.step b s = .bad f → motive (b :: s)) (s : Octets) : motive s := by
  fun_induction Codec.pass k false s with
  | case1 => exact nil
  | case2 b s c t hstep _ _ ih => exact read b s [c] t (congrArg Step.read? hstep) ih
  | case3 b s f hstep => exact short b s f hstep
  | case4 b s f hstep => exact bad b s f hstep
  | case5 b s c d t hstep _ _ ih => exact read b s [c, d] t (congrArg Step.read? hstep) ih

/-- Octets of ASCII stand for one rune each. -/
theorem Codec.pass_utf8_of_ascii (final : Bool) {s : Octets} (h : ∀ b ∈ s, b < 0x80) :
    Codec.utf8.pass final s = ⟨s.map fun b => Char.ofNat b.toNat, [], none⟩ := by
  induction s with
  | nil => rw [Codec.pass]; rfl
  | cons b s ih =>
    have hstep : Codec.utf8.step b s = .rune (Char.ofNat b.toNat) s := by
      rw [Codec.step, utf8Step, if_pos (h b (List.mem_cons_self ..))]
    rw [Codec.pass_of_rune final hstep, ih fun c hc => h c (List.mem_cons_of_mem _ hc)]
    rfl

/-- Each rune takes at least one octet. -/
theorem Codec.pass_length (k : Codec) (final : Bool) (s : Octets) :
    (k.pass final s).runes.length + (k.pass final s).rest.length ≤ s.length := by
  fun_induction Codec.pass k final s with
  | case1 => simp
  | case2 b s c t h _ p ih =>
    have := Codec.step_rune_length h
    simp only [List.length_cons, p] at ih ⊢
    omega
  | case3 => simp
  | case4 => simp
  | case5 b s c d t h _ p ih =>
    have := Codec.step_pair_length h
    simp only [List.length_cons, p] at ih ⊢
    omega

end SourceNotes.Charset
