/-
Notes printed as JSON can be read back.

What a note is printed as is one line, and a reader of JSON finds in it the object with the fields
of the note, whatever characters they hold: all controls in strings are escaped, so that laying the
line out leaves it as it is, and every escape stands for the character that it was written for.

* **`Json.character?_encodeChar`** — a character is read back as it was written;
* **`Json.number?_digits`** — a number is;
* **`Json.read?_encodeObject`** — an object is, with its members in order;
* **`Format.print_json`** — the line of a note.
-/
import Mathlib.Algebra.Group.Nat.Defs
import SourceNotes.Proofs.Report.JsonReader
import SourceNotes.Proofs.Report.Lines

namespace SourceNotes

variable {s t rest : Text} {c : Char} {n : Nat}

/-! ### Digits -/

/-- A number is written with a sign or a digit in front. -/
theorem Format.exists_cons_digits (i : Int) :
    ∃ c t, digits i = c :: t ∧ (c = '-' ∨ c.isDigit = true) := by
  cases hdigits : digits i with
  | nil =>
    cases i with
    | ofNat m => exact absurd (digits_ofNat m ▸ hdigits) Nat.toDigits_ne_nil
    | negSucc m => exact absurd (digits_negSucc m ▸ hdigits) (List.cons_ne_nil _ _)
  | cons c t => exact ⟨c, t, rfl, mem_digits (hdigits ▸ List.mem_cons_self)⟩

namespace Yaml

theorem hexValue?_hexDigit : ∀ d < 16, hexValue? (Text.hexDigit d) = some d := by decide

/-- Digits are read one after another. -/
theorem hexNumber?_append {value m k : Nat} (h : hexNumber? value k s = some (m, [])) (j : Nat) :
    hexNumber? value (k + j) (s ++ t) = hexNumber? m j t := by
  induction k generalizing value s with
  | zero =>
    cases h
    rw [Nat.zero_add, List.nil_append]
  | succ k ih =>
    cases s with
    | nil => cases h
    | cons c s =>
      rw [hexNumber?, Option.bind_eq_bind, Option.bind_eq_some_iff] at h
      obtain ⟨d, hd, h⟩ := h
      rw [Nat.add_right_comm, List.cons_append, hexNumber?, hd]
      exact ih h

/-- Hexadecimal digits are read as the number that they were written for. -/
theorem hexNumber?_hex (value width m : Nat) (rest : Text) :
    hexNumber? value width (Text.hex width m ++ rest) =
      some (value * 16 ^ width + m % 16 ^ width, rest) := by
  -- By the digits from the last one, as they are written.
  induction width generalizing m rest with
  | zero =>
    rw [Nat.pow_zero, Nat.mod_one, Nat.mul_one]
    rfl
  | succ width ih =>
    have hfront := ih (m / 16) []
    rw [List.append_nil] at hfront
    rw [Text.hex, List.append_assoc, hexNumber?_append hfront 1, List.singleton_append, hexNumber?,
      hexValue?_hexDigit _ (Nat.mod_lt _ (by decide))]
    have hvalue : (value * 16 ^ width + m / 16 % 16 ^ width) * 16 + m % 16 =
        value * 16 ^ (width + 1) + m % 16 ^ (width + 1) := by
      rw [Nat.pow_succ', Nat.mod_mul, Nat.add_mul, Nat.mul_assoc, Nat.mul_comm 16 (16 ^ width),
        Nat.mul_comm (m / 16 % 16 ^ width) 16]
      omega
    show some ((value * 16 ^ width + m / 16 % 16 ^ width) * 16 + m % 16, rest) = _
    rw [hvalue]

end Yaml

namespace Json

/-! ### Strings -/

/-- A character is read as it was written. -/
theorem character?_encodeChar (c : Char) (rest : Text) :
    character? (encodeChar c ++ rest) = some (c, rest) := by
  unfold encodeChar
  split
  case h_8 hquote hbackslash _ _ _ _ _ =>
    split
    · next hlow =>
      have hcode : c.toNat % 16 ^ 4 = c.toNat := Nat.mod_eq_of_lt (by omega)
      have hchar : Codes.isCharacter c.toNat = true := Codes.isCharacter_toNat c
      show codeEscape? (Text.hex 4 c.toNat ++ rest) = _
      rw [codeEscape?, Yaml.hexNumber?_hex, Nat.zero_mul, Nat.zero_add, hcode]
      simp [hchar]
    · next hge =>
      have hplain : ¬ (c = '"' ∨ c.toNat < 0x20) := fun h => h.elim hquote hge
      rw [List.singleton_append, character?, if_neg hbackslash, if_neg hplain]
  all_goals rfl

/-- What is written for a character does not begin with a quote. -/
theorem exists_cons_encodeChar (c : Char) : ∃ d t, encodeChar c = d :: t ∧ d ≠ '"' := by
  unfold encodeChar
  split
  case h_8 hquote _ _ _ _ _ _ =>
    split
    · exact ⟨_, _, rfl, by decide⟩
    · exact ⟨c, [], rfl, hquote⟩
  all_goals exact ⟨_, _, rfl, by decide⟩

theorem characters?_encode (h : s.length < n) :
    characters? n (s.flatMap encodeChar ++ '"' :: rest) = some (s, rest) := by
  induction s generalizing n with
  | nil =>
    obtain ⟨n, rfl⟩ := Nat.exists_eq_succ_of_ne_zero (Nat.ne_of_gt h)
    rfl
  | cons c s ih =>
    obtain ⟨n, rfl⟩ := Nat.exists_eq_succ_of_ne_zero (Nat.ne_zero_of_lt h)
    obtain ⟨d, t, hcons, hd⟩ := exists_cons_encodeChar c
    have hopen : ¬ (encodeChar c ++ (s.flatMap encodeChar ++ '"' :: rest)).head? = some '"' := by
      rw [hcons]
      exact fun h => hd (Option.some.inj h)
    rw [List.flatMap_cons, List.append_assoc, characters?, if_neg hopen, character?_encodeChar]
    simp [ih (Nat.lt_of_succ_lt_succ h)]

/-- A string is read as it was written, from behind its opening quote. -/
theorem string?_encode (s rest : Text) :
    string? (s.flatMap encodeChar ++ '"' :: rest) = some (s, rest) := by
  have hlen : s.length ≤ (s.flatMap encodeChar).length := by
    induction s with
    | nil => exact Nat.zero_le _
    | cons c s ih =>
      obtain ⟨d, t, hcons, -⟩ := exists_cons_encodeChar c
      rw [List.flatMap_cons, List.length_append, List.length_cons, hcons, List.length_cons]
      omega
  refine characters?_encode ?_
  rw [List.length_append, List.length_cons]
  omega

/-! ### Numbers -/

/-- What follows a value in an object. -/
def EndsValue (rest : Text) : Prop := ∃ t, rest = ',' :: t ∨ rest = '\x7d' :: t

/-- A number that is written with a nought in front is nought. -/
theorem toDigits_of_head? {m : Nat} (h : (Nat.toDigits 10 m).head? = some '0') :
    Nat.toDigits 10 m = ['0'] := by
  induction m using Nat.strongRecOn with
  | ind m ih =>
    rw [Nat.toDigits_eq_if (by decide)] at h ⊢
    split at h
    · next hlow =>
      rw [if_pos hlow]
      exact congrArg (fun c => [c]) (Option.some.inj h)
    · next hhigh =>
      -- The front digits would be those of nought, and there would be none.
      have hfront : (Nat.toDigits 10 (m / 10)).head? = some '0' := by
        obtain ⟨c, t, hcons⟩ := List.exists_cons_of_ne_nil (Nat.toDigits_ne_nil (n := m / 10) (b := 10))
        rw [hcons] at h ⊢
        exact h
      have hzero := ih (m / 10) (by omega) hfront
      have hvalue := Nat.ofDigitChars_ten_toDigits (n := m / 10)
      rw [hzero] at hvalue
      have : m / 10 = 0 := hvalue.symm
      omega

/-- Digits are read as the number that they were written for, up to what is no digit. -/
theorem number?_of_minus {negative : Bool} {m : Nat} (hends : EndsValue rest)
    (h : minus s = (negative, Nat.toDigits 10 m ++ rest)) :
    number? s = some (.number (signed negative (Nat.toDigits 10 m)) 0, rest) := by
  have hdigit (c : Char) (hc : c ∈ Nat.toDigits 10 m) : c.isDigit = true :=
    Nat.isDigit_of_mem_toDigits (by decide) (by decide) hc
  have htake : (Nat.toDigits 10 m ++ rest).takeWhile Char.isDigit = Nat.toDigits 10 m := by
    rw [List.takeWhile_append_of_pos hdigit]
    obtain ⟨t, rfl | rfl⟩ := hends <;> exact List.append_nil _
  have hdrop : (Nat.toDigits 10 m ++ rest).dropWhile Char.isDigit = rest := by
    rw [List.dropWhile_append_of_pos hdigit]
    obtain ⟨t, rfl | rfl⟩ := hends <;> rfl
  have hlegal : ¬ (Nat.toDigits 10 m = [] ∨
      (Nat.toDigits 10 m).head? = some '0' ∧ Nat.toDigits 10 m ≠ ['0']) := by
    rintro (hnil | ⟨hhead, hne⟩)
    · exact Nat.toDigits_ne_nil hnil
    · exact hne (toDigits_of_head? hhead)
  have hfraction : fraction? rest = some ([], rest) := by
    obtain ⟨t, rfl | rfl⟩ := hends <;> rfl
  have hexponent : exponent? rest = some (0, rest) := by
    obtain ⟨t, rfl | rfl⟩ := hends <;> rfl
  rw [number?, h]
  simp only [htake, hdrop, hlegal, hfraction, if_false]
  simp [hexponent]

/-- A number is read as it was written. -/
theorem number?_digits (i : Int) (hends : EndsValue rest) :
    number? (Format.digits i ++ rest) = some (.number i 0, rest) := by
  cases i with
  | ofNat m =>
    have hminus : minus (Nat.toDigits 10 m ++ rest) = (false, Nat.toDigits 10 m ++ rest) := by
      obtain ⟨c, t, hcons⟩ := List.exists_cons_of_ne_nil (Nat.toDigits_ne_nil (n := m) (b := 10))
      have hc : c.isDigit = true :=
        Nat.isDigit_of_mem_toDigits (by decide) (by decide) (hcons ▸ List.mem_cons_self)
      have hne : ¬ some c = some '-' := by
        rintro hsign
        rw [Option.some.inj hsign] at hc
        cases hc
      rw [hcons, minus, List.cons_append, List.head?_cons, if_neg hne]
    rw [Format.digits_ofNat, number?_of_minus hends hminus, signed, Nat.ofDigitChars_ten_toDigits]
    rfl
  | negSucc m =>
    have hminus : minus ('-' :: Nat.toDigits 10 (m + 1) ++ rest) =
        (true, Nat.toDigits 10 (m + 1) ++ rest) := rfl
    rw [Format.digits_negSucc, number?_of_minus hends hminus, signed, Nat.ofDigitChars_ten_toDigits]
    rfl

/-! ### Objects -/

/-- A value as it is read. -/
def Value.tree : Value → Tree
  | .string s => .string s
  | .int i => .number i 0

/-- A value is written with a first character that is no blank. -/
theorem exists_cons_encode (v : Value) : ∃ c t, v.encode = c :: t ∧ isBlank c = false := by
  cases v with
  | string s => exact ⟨'"', s.flatMap encodeChar ++ ['"'], rfl, rfl⟩
  | int i =>
    obtain ⟨c, t, hcons, hc⟩ := Format.exists_cons_digits i
    refine ⟨c, t, hcons, ?_⟩
    rcases hc with rfl | hdigit
    · rfl
    · have hne {d : Char} (hd : d.isDigit = false) : c ≠ d := by
        rintro rfl
        rw [hd] at hdigit
        cases hdigit
      simp [isBlank, hne]

theorem skipBlanks_of_not_blank (h : isBlank c = false) : skipBlanks (c :: s) = c :: s := by
  rw [skipBlanks, List.dropWhile_cons, h]
  rfl

/-- The blank in front of a value is skipped. -/
theorem skipBlanks_encode (v : Value) (s : Text) :
    skipBlanks (' ' :: (v.encode ++ s)) = v.encode ++ s := by
  obtain ⟨c, t, hcons, hc⟩ := exists_cons_encode v
  rw [hcons]
  exact skipBlanks_of_not_blank hc

/-- A value is read as it was written. -/
theorem value?_encode (v : Value) (n : Nat) (hends : EndsValue rest) :
    value? (n + 1) (v.encode ++ rest) = some (v.tree, rest) := by
  cases v with
  | string s =>
    have hencode : (Value.string s).encode ++ rest =
        '"' :: (s.flatMap encodeChar ++ '"' :: rest) := by
      simp [Value.encode, encodeString]
    rw [hencode, value?, if_neg (by decide), if_pos rfl, string?_encode]
    rfl
  | int i =>
    obtain ⟨c, t, hcons, hc⟩ := Format.exists_cons_digits i
    have hnumber := number?_digits i hends
    show value? (n + 1) (Format.digits i ++ rest) = _
    rw [hcons] at hnumber ⊢
    rw [List.cons_append, value?, if_pos hc]
    exact hnumber

/-- A field as it is written, in front of more. -/
theorem encodeField_append (f : Text × Value) (s : Text) :
    encodeField f ++ s =
      '"' :: (f.1.flatMap encodeChar ++ '"' :: ':' :: ' ' :: (f.2.encode ++ s)) := by
  simp [encodeField, encodeString]

/-- The last member of an object is read as it was written. -/
theorem members?_encodeField_last (f : Text × Value) (n : Nat) (s : Text) :
    members? (n + 2) (encodeField f ++ '\x7d' :: s) = some ([(f.1, f.2.tree)], s) := by
  have hvalue := value?_encode f.2 n ⟨s, .inr rfl⟩
  rw [encodeField_append, members?, if_pos List.head?_cons, List.tail_cons, string?_encode]
  simp [skipBlanks_of_not_blank, isBlank, skipBlanks_encode, hvalue]

/-- So is another member, if those after it are. -/
theorem members?_encodeField_more (f g : Text × Value) (n : Nat) {members : List (Text × Tree)}
    (hmore : members? (n + 1) (encodeField g ++ s) = some (members, rest)) :
    members? (n + 2) (encodeField f ++ ',' :: ' ' :: (encodeField g ++ s)) =
      some ((f.1, f.2.tree) :: members, rest) := by
  have hvalue := value?_encode f.2 n ⟨' ' :: (encodeField g ++ s), .inl rfl⟩
  have hblank : skipBlanks (' ' :: (encodeField g ++ s)) = encodeField g ++ s := by
    rw [encodeField_append]
    rfl
  rw [encodeField_append, members?, if_pos List.head?_cons, List.tail_cons, string?_encode]
  simp [skipBlanks_of_not_blank, isBlank, skipBlanks_encode, hvalue, hblank, hmore]

/-- Fields are written with the first of them in front. -/
theorem exists_encodeFields_cons (f : Text × Value) (fs : List (Text × Value)) :
    ∃ s, encodeFields (f :: fs) = encodeField f ++ s := by
  cases fs with
  | nil => exact ⟨[], (List.append_nil _).symm⟩
  | cons g fs => exact ⟨',' :: ' ' :: encodeFields (g :: fs), rfl⟩

theorem length_le_encodeFields (fs : List (Text × Value)) :
    fs.length ≤ (encodeFields fs).length := by
  have hpos (f : Text × Value) : 0 < (encodeField f).length := Nat.succ_pos _
  induction fs with
  | nil => exact Nat.zero_le _
  | cons f fs ih =>
    have hf := hpos f
    cases fs with
    | nil => exact hf
    | cons g fs =>
      simp only [encodeFields, List.length_append, List.length_cons] at ih ⊢
      omega

/-- The members of an object are read as they were written. -/
theorem members?_encodeFields (f : Text × Value) (fs : List (Text × Value)) (rest : Text)
    (h : fs.length + 1 < n) :
    members? n (encodeFields (f :: fs) ++ '\x7d' :: rest) =
      some ((f :: fs).map fun f => (f.1, f.2.tree), rest) := by
  induction fs generalizing f n with
  | nil =>
    obtain ⟨n, rfl⟩ : ∃ m, n = m + 2 := ⟨n - 2, by omega⟩
    exact members?_encodeField_last f n rest
  | cons g fs ih =>
    rw [List.length_cons] at h
    obtain ⟨n, rfl⟩ : ∃ m, n = m + 2 := ⟨n - 2, by omega⟩
    have hmore := ih g (n := n + 1) (by omega)
    obtain ⟨s, hs⟩ := exists_encodeFields_cons g fs
    rw [hs, List.append_assoc] at hmore
    rw [encodeFields, hs, List.append_assoc, List.cons_append, List.cons_append, List.append_assoc]
    exact members?_encodeField_more f g n hmore

theorem value?_of_members? {members : List (Text × Tree)}
    (h : members? n ('"' :: s) = some (members, rest)) :
    value? (n + 1) ('\x7b' :: '"' :: s) = some (.object members, rest) := by
  have hopen : skipBlanks ('"' :: s) = '"' :: s := rfl
  rw [value?, if_neg (by decide), if_neg (by decide), if_pos rfl, hopen, List.head?_cons,
    if_neg (by decide), h]
  rfl

/-- An object is read as it was written: the same members in the same order. -/
theorem read?_encodeObject (fs : List (Text × Value)) :
    read? (encodeObject fs) = some (.object (fs.map fun f => (f.1, f.2.tree))) := by
  have hopen : skipBlanks (encodeObject fs) = encodeObject fs := rfl
  have hvalue : value? ((encodeObject fs).length + 1) (encodeObject fs) =
      some (.object (fs.map fun f => (f.1, f.2.tree)), []) := by
    cases fs with
    | nil => rfl
    | cons f fs =>
      -- Every member takes a character at least, so that the reader does not give up.
      have hlen : fs.length + 1 < (encodeObject (f :: fs)).length := by
        have hle := length_le_encodeFields (f :: fs)
        rw [List.length_cons] at hle
        rw [encodeObject, List.cons_append, List.length_cons, List.length_append,
          List.length_singleton]
        omega
      have hmembers := members?_encodeFields f fs [] hlen
      obtain ⟨s, hs⟩ := exists_encodeFields_cons f fs
      have hfields : encodeFields (f :: fs) ++ ['\x7d'] = encodeField f ++ (s ++ ['\x7d']) := by
        rw [hs, List.append_assoc]
      rw [hfields, encodeField_append] at hmembers
      have hobject := value?_of_members? hmembers
      rwa [← encodeField_append, ← hfields] at hobject
  rw [read?, hopen, hvalue]
  rfl

end Json

/-- A note printed as JSON is one line, and what a reader of JSON finds in it is the object with the
path and the fields of the note, in this order and with these values. -/
theorem Format.print_json (path : Text) (n : Note) :
    ∃ line, Format.json.print path n = line ++ ['\n'] ∧ '\n' ∉ line ∧
      Json.read? line = some (.object
        [("path".toList, .string path), ("type".toList, .string n.kind),
          ("text".toList, .string n.text), ("label".toList, .string n.label),
          ("message".toList, .string n.message), ("line".toList, .number n.line 0),
          ("comment_line".toList, .number n.commentLine 0)]) := by
  have hcontrols := Json.noControls_encodeObject (Json.fields path n)
  have hnewline := Json.newline_not_mem_of_noControls hcontrols
  refine ⟨Json.encodeObject (Json.fields path n), ?_, hnewline, Json.read?_encodeObject _⟩
  show Screen.layout (Json.encodeObject (Json.fields path n)) = _
  rw [Screen.layout_eq hnewline, Screen.line_of_plain (Json.isPlain_of_noControls hcontrols)]

end SourceNotes
