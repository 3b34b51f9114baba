/-
Faults of a text and where they come from.

Reading goes through many hands, and each of them passes on what goes wrong before it. So what can
go wrong is said once for all of them: a text may be no YAML, what lies behind it may come to light,
an escape may be beyond the last character, and a version may have too many digits. A part that
seems to end too early is not settled yet; it is when the end of the text is known.

* **`Spotted`**, **`Raw`** — the faults that can be found in a text, settled and unsettled;
* **`Raw.settled`** — a fault that is settled is one of those that can be found.
-/
import Mathlib.Algebra.Group.Nat.Defs
import SourceNotes.Proofs.Yaml.Ends
import SourceNotes.Yaml.Scalar.Block
import SourceNotes.Yaml.Token.Tag

namespace SourceNotes.Yaml

/-! ### What can be found in a text -/

/-- The faults that can be found in a text, where `behind` comes to light after it. -/
inductive Spotted (s : Text) (behind : Option Fault) : Fault → Prop
  | invalid : Spotted s behind .invalid
  | behind {f : Fault} (h : behind = some f) : Spotted s behind f
  /-- Eight digits after a backslash and a capital U are beyond the last character. -/
  | character {code : Nat} {t rest : Text} (hplace : '\\' :: 'U' :: t <:+ s)
      (hcode : hexNumber? 0 8 t = some (code, rest)) (hbeyond : 0x10FFFF < code) :
      Spotted s behind (.character code)
  /-- A number in the line of the version has too many digits. -/
  | digits {u t : Text} (hplace : "%YAML".toList ++ u <:+ s) (hin : t <:+ u)
      (hmany : maxDigits < (t.takeWhile Char.isDigit).length) :
      Spotted s behind (.digits (t.takeWhile Char.isDigit).length)

/-- The same as long as the end of the text is not known. -/
inductive Raw (s : Text) (behind : Option Fault) : Fault → Prop
  | spotted {f : Fault} (h : Spotted s behind f) : Raw s behind f
  | unfinished {f : Fault} (h : Raw s behind f) : Raw s behind (.unfinished f)

variable {s t u : Text} {behind : Option Fault} {f : Fault}

theorem Spotted.of_suffix (h : Spotted t behind f) (hsuffix : t <:+ s) : Spotted s behind f := by
  cases h with
  | invalid => exact .invalid
  | behind h => exact .behind h
  | character hplace hcode hbeyond => exact .character (hplace.trans hsuffix) hcode hbeyond
  | digits hplace hin hmany => exact .digits (hplace.trans hsuffix) hin hmany

theorem Raw.of_suffix (h : Raw t behind f) (hsuffix : t <:+ s) : Raw s behind f := by
  induction h with
  | spotted h => exact .spotted (h.of_suffix hsuffix)
  | unfinished h ih => exact .unfinished ih

theorem Raw.invalid : Raw s behind .invalid := .spotted .invalid

theorem Raw.unfinished_invalid : Raw s behind (.unfinished .invalid) := .unfinished .invalid

theorem Spotted.settled (h : Spotted s behind f) : Spotted s behind (f.settled behind) := by
  cases h with
  | invalid => exact .invalid
  | behind h =>
    -- What comes to light may itself be unfinished; then it is settled as what it is.
    subst h
    cases f <;> exact .behind rfl
  | character hplace hcode hbeyond => exact .character hplace hcode hbeyond
  | digits hplace hin hmany => exact .digits hplace hin hmany

/-- Once the end of the text is known, a fault is one of those that can be found. -/
theorem Raw.settled (h : Raw s behind f) : Spotted s behind (f.settled behind) := by
  induction h with
  | spotted h => exact h.settled
  | unfinished h ih =>
    rw [Fault.settled]
    cases behind with
    | none => exact ih
    | some f => exact .behind rfl

theorem EndsIn.of_invalid {α : Type} {P : α → Prop} {x : Except Fault α}
    (h : EndsIn P (· = .invalid) x) : EndsIn P (Spotted s behind) x :=
  h.imp (fun _ h => h) fun _ h => h ▸ .invalid

theorem EndsIn.raw {α : Type} {P : α → Prop} {x : Except Fault α}
    (h : EndsIn P (Spotted s behind) x) : EndsIn P (Raw s behind) x :=
  h.imp (fun _ h => h) fun _ h => .spotted h

theorem EndsIn.of_suffix {α : Type} {P : α → Prop} {x : Except Fault α}
    (h : EndsIn P (Raw t behind) x) (hsuffix : t <:+ s) : EndsIn P (Raw s behind) x :=
  h.imp (fun _ h => h) fun _ h => h.of_suffix hsuffix

/-! ### Quoted scalars -/

theorem hexNumber?_suffix {value n m : Nat} {s rest : Text}
    (h : hexNumber? value n s = some (m, rest)) : rest <:+ s := by
  induction n generalizing value s with
  | zero =>
    cases h
    exact List.suffix_rfl
  | succ n ih =>
    cases s with
    | nil => cases h
    | cons c s =>
      obtain ⟨d, _, h⟩ := Option.bind_eq_some_iff.1 h
      exact (ih h).trans (List.suffix_cons c s)

theorem toNat_le_of_le {c d : Char} (h : c ≤ d) : c.toNat ≤ d.toNat :=
  UInt32.le_iff_toNat_le.1 h

theorem hexValue?_lt {c : Char} {d : Nat} (h : hexValue? c = some d) : d < 16 := by
  unfold hexValue? at h
  split at h
  · next hdigit =>
    have hle : c.toNat ≤ '9'.toNat := by
      rw [Char.isDigit, Bool.and_eq_true, decide_eq_true_iff, decide_eq_true_iff] at hdigit
      exact UInt32.le_iff_toNat_le.1 hdigit.2
    cases h
    exact Nat.lt_of_le_of_lt (Nat.sub_le_sub_right hle _) (by decide)
  split at h
  · next hsmall =>
    cases h
    have hle := toNat_le_of_le hsmall.2
    exact Nat.lt_of_le_of_lt (Nat.add_le_add_right (Nat.sub_le_sub_right hle _) _) (by decide)
  split at h
  · next hlarge =>
    cases h
    have hle := toNat_le_of_le hlarge.2
    exact Nat.lt_of_le_of_lt (Nat.add_le_add_right (Nat.sub_le_sub_right hle _) _) (by decide)
  · cases h

theorem hexNumber?_lt {value n m : Nat} {s rest : Text}
    (h : hexNumber? value n s = some (m, rest)) : m < (value + 1) * 16 ^ n := by
  induction n generalizing value s with
  | zero =>
    cases h
    omega
  | succ n ih =>
    cases s with
    | nil => cases h
    | cons c s =>
      obtain ⟨d, hd, h⟩ := Option.bind_eq_some_iff.1 h
      have hlt := hexValue?_lt hd
      calc m < (value * 16 + d + 1) * 16 ^ n := ih h
        _ ≤ ((value + 1) * 16) * 16 ^ n := Nat.mul_le_mul_right _ (by omega)
        _ = (value + 1) * 16 ^ (n + 1) := by rw [Nat.mul_assoc, ← Nat.pow_succ']

namespace Quoted

theorem breaks_ends (s : Text) :
    EndsIn (fun found => found.2.1 <:+ s) (Raw s behind) (breaks s) := by
  fun_induction breaks s with
  | case1 s hmark =>
    split
    · exact .unfinished_invalid
    · exact .invalid
  | case2 => exact List.nil_suffix
  | case3 s hmark h c t hr hbreak hlt f hmore ih =>
    rw [hmore] at ih
    exact Raw.of_suffix ih ((List.suffix_cons c t).trans (hr ▸ List.dropWhile_suffix isInline))
  | case4 s hmark h c t hr hbreak hlt more rest hrest hmore ih =>
    rw [hmore] at ih
    exact List.IsSuffix.trans ih
      ((List.suffix_cons c t).trans (hr ▸ List.dropWhile_suffix isInline))
  | case5 s hmark h c t hr hbreak =>
    show c :: t <:+ s
    rw [← hr]
    exact List.dropWhile_suffix isInline

theorem gap_ends (c : Char) (s : Text) :
    EndsIn (fun found => found.2.1 <:+ s) (Raw s behind) (gap c s) := by
  unfold gap
  extract_lets h folded
  have hfolded : ∀ b t ht, t <:+ s → EndsIn (fun found => found.2.1 <:+ s) (Raw s behind)
      (folded b t ht) := by
    intro b t ht hsuffix
    have hbreaks := @breaks_ends behind t
    unfold folded
    split
    · next f hf =>
      rw [hf] at hbreaks
      exact Raw.of_suffix hbreaks hsuffix
    · next more rest hrest hmore =>
      rw [hmore] at hbreaks
      exact List.IsSuffix.trans hbreaks hsuffix
  split
  · exact hfolded c s (Nat.le_refl _) List.suffix_rfl
  · split
    · exact .unfinished_invalid
    · next b t hr =>
      have hsuffix : b :: t <:+ s := hr ▸ List.dropWhile_suffix isInline
      split
      · have hnext := (List.suffix_cons b t).trans hsuffix
        exact hfolded b t hnext.length_le hnext
      · exact hsuffix

theorem escapeWidth?_cases {c : Char} {width : Nat} (h : escapeWidth? c = some width) :
    width ≤ 4 ∨ (c = 'U' ∧ width = 8) := by
  unfold escapeWidth? at h
  split at h <;> cases h <;> simp

/-- An escape whose code is beyond the last character has eight digits. -/
theorem escape_ends (c : Char) (s : Text) :
    EndsIn (fun found => found.2.1 <:+ s) (Raw ('\\' :: c :: s) behind) (escape c s) := by
  unfold escape
  split
  · exact List.suffix_rfl
  · split
    · next width hwidth =>
      split
      · split
        · exact .unfinished_invalid
        · exact .invalid
      · next code rest hcode =>
        dsimp only
        split
        · next hbeyond =>
          -- Four digits at most make no code beyond the last character.
          obtain hshort | ⟨rfl, rfl⟩ := escapeWidth?_cases hwidth
          · have hlt : code < 16 ^ 4 :=
              calc code < (0 + 1) * 16 ^ width := hexNumber?_lt hcode
                _ ≤ 16 ^ 4 := by
                  rw [Nat.one_mul]
                  exact Nat.pow_le_pow_right (by decide) hshort
            omega
          · exact .spotted (.character List.suffix_rfl hcode hbeyond)
        · exact hexNumber?_suffix hcode
    · split
      · have hbreaks := @breaks_ends behind s
        exact (hbreaks.of_suffix ((List.suffix_cons c s).trans (List.suffix_cons _ _))).map
          fun _ h => h
      · exact .invalid

theorem read_ends (style : Style) (s : Text) :
    EndsIn (fun _ => True) (Raw s behind) (read style s) := by
  fun_induction read style s with
  | case1 => exact .unfinished_invalid
  | case2 u hsingle ih =>
    exact (ih.of_suffix ((List.suffix_cons _ u).trans (List.suffix_cons _ _))).map fun _ h => h
  | case3 => trivial
  | case4 c t hmark hgap f hf =>
    have hends := @gap_ends behind c t
    rw [hf] at hends
    exact Raw.of_suffix hends (List.suffix_cons c t)
  | case5 c t hmark hgap text u hu hfound ih =>
    have hends := @gap_ends behind c t
    rw [hfound] at hends
    exact (ih.of_suffix (List.IsSuffix.trans hends (List.suffix_cons c t))).map fun _ h => h
  | case6 => exact .unfinished_invalid
  | case7 c hmark hgap hescape d u f hf =>
    have hends := @escape_ends behind d u
    rw [hf] at hends
    rw [hescape.2]
    exact hends
  | case8 c hmark hgap hescape d u codes v hv hfound ih =>
    have hends := @escape_ends behind d u
    rw [hfound] at hends
    have hsuffix : v <:+ c :: d :: u :=
      List.IsSuffix.trans hends ((List.suffix_cons d u).trans (List.suffix_cons c _))
    exact (ih.of_suffix hsuffix).map fun _ h => h
  | case9 c t hmark hgap hescape ih =>
    exact (ih.of_suffix (List.suffix_cons c t)).map fun _ h => h

end Quoted

/-! ### Block scalars -/

namespace Block

theorem header_ends (t : Text) : EndsIn (fun _ => True) (Raw s behind) (header t) := by
  unfold header
  split
  split
  · exact Raw.invalid
  · extract_lets
    split
    · trivial
    · exact Raw.invalid

theorem read_ends (folded : Bool) (least : Nat) (t : Text) :
    EndsIn (fun _ => True) (Raw s behind) (read folded least t) := by
  unfold read
  refine (header_ends t).bind fun found _ => ?_
  split
  split
  split
  · trivial
  · trivial

end Block

/-! ### Tags -/

namespace Tag

theorem raw_unexpected (t : Text) : Raw s behind (unexpected t) := by
  unfold unexpected
  split
  · exact .unfinished_invalid
  · exact .invalid

theorem unescaped_ends (octets : Octets) :
    EndsIn (fun _ => True) (Raw s behind) (unescaped octets) := by
  unfold unescaped
  split
  · trivial
  · exact .invalid

theorem addressFrom_ends (escaped : Octets) (t : Text) :
    EndsIn (fun _ => True) (Raw s behind) (addressFrom escaped t) := by
  fun_induction addressFrom escaped t with
  | case1 =>
    split
    · exact .unfinished_invalid
    · exact .invalid
  | case2 escaped t n u hn hlt ih => exact ih
  | case3 escaped c t hc haddress ih =>
    exact (unescaped_ends escaped).bind fun _ _ => ih.bind fun _ _ => trivial
  | case4 escaped => exact (unescaped_ends escaped).bind fun _ _ => trivial
  | case5 escaped =>
    exact ((unescaped_ends escaped).mapError fun _ h => .unfinished h).map fun _ h => h

theorem address_ends (t : Text) : EndsIn (fun _ => True) (Raw s behind) (address t) := by
  unfold address
  split
  · exact addressFrom_ends [] t
  · exact raw_unexpected t

theorem handle_ends (t : Text) : EndsIn (fun _ => True) (Raw s behind) (handle t) := by
  unfold handle
  split
  · split
    · trivial
    · split
      · trivial
      · exact raw_unexpected _
  · exact raw_unexpected _

theorem parts_ends (t : Text) : EndsIn (fun _ => True) (Raw s behind) (parts t) := by
  unfold parts
  split
  · refine (address_ends _).bind ?_
    rintro ⟨suffix, rest⟩ -
    dsimp only
    split
    · trivial
    · exact raw_unexpected _
  · split
    · trivial
    · extract_lets jp
      have hjp : ∀ found, True → EndsIn (fun _ => True) (Raw s behind) (jp found) :=
        fun found _ => (address_ends found.2).bind fun _ _ => trivial
      split
      · exact (handle_ends _).bind hjp
      · exact hjp (['!'], t) trivial

theorem read_ends (t : Text) :
    EndsIn (fun found => ∃ handle suffix, found.1 = .tag handle suffix) (Raw s behind)
      (read t) := by
  unfold read
  extract_lets made
  have hmade : EndsIn (fun found => ∃ handle suffix, found.1 = .tag handle suffix) (Raw s behind)
      made := by
    refine (parts_ends t).bind ?_
    rintro ⟨handle, suffix, rest⟩ -
    dsimp only
    split
    · exact ⟨handle, suffix, rfl⟩
    · exact Raw.invalid
  split
  · exact hmade.mapError fun _ h => h.unfinished
  · exact hmade

end Tag

/-! ### Directives -/

namespace Directive

theorem number_ends {t : Text} (hplace : "%YAML".toList ++ u <:+ s) (hin : t <:+ u) :
    EndsIn (fun found => found.2 <:+ u) (Raw s behind) (number t) := by
  unfold number
  split
  · exact Tag.raw_unexpected _
  · dsimp only
    split
    · next hmany =>
      have hdigits : Spotted s behind (.digits (t.takeWhile Char.isDigit).length) :=
        .digits hplace hin hmany
      split
      · exact .unfinished (.spotted hdigits)
      · exact .spotted hdigits
    · exact (List.dropWhile_suffix _).trans hin

theorem readVersion_ends (hplace : "%YAML".toList ++ u <:+ s) :
    EndsIn (fun _ => True) (Raw s behind) (readVersion u) := by
  unfold readVersion
  refine (number_ends hplace (List.dropWhile_suffix _)).bind ?_
  rintro ⟨major, rest⟩ hmajor
  dsimp only
  split
  · next rest' =>
    refine (number_ends hplace ((List.suffix_cons '.' rest').trans hmajor)).bind ?_
    rintro ⟨minor, rest⟩ -
    dsimp only
    split
    · trivial
    · exact Raw.invalid
  · exact Tag.raw_unexpected _

theorem readTag_ends (t : Text) : EndsIn (fun _ => True) (Raw s behind) (readTag t) := by
  unfold readTag
  refine (Tag.handle_ends _).bind ?_
  rintro ⟨handle, rest⟩ -
  dsimp only
  split
  · exact Tag.raw_unexpected _
  · refine (Tag.address_ends _).bind ?_
    rintro ⟨stem, rest⟩ -
    dsimp only
    split
    · trivial
    · exact Raw.invalid

/-- Of all directives only the version can have a fault of its own. -/
theorem read_ends (t : Text) : EndsIn (fun _ => True) (Raw ('%' :: t) behind) (read t) := by
  unfold read
  extract_lets name rest finish go
  have hfinish : ∀ found, True → EndsIn (fun _ => True) (Raw ('%' :: t) behind) (finish found) := by
    intro found _
    unfold finish
    split
    extract_lets
    split
    · trivial
    · exact Raw.invalid
  split
  · exact Tag.raw_unexpected _
  · show EndsIn _ _ (go ())
    unfold go
    split
    · next hname =>
      refine (readVersion_ends ?_).bind hfinish
      -- The name of the directive is what stands in front of its parts.
      have htext : "%YAML".toList ++ rest = '%' :: t := by
        show '%' :: ("YAML".toList ++ rest) = '%' :: t
        rw [← hname, List.takeWhile_append_dropWhile]
      exact htext ▸ List.suffix_rfl
    split
    · exact (readTag_ends rest).bind hfinish
    · exact hfinish (.other, rest.dropWhile fun c => !isBreak c) trivial

end Directive

end SourceNotes.Yaml
