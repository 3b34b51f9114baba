/-
What comes to light behind a text.

Octets are decoded piece by piece, so what is wrong with them is found late or never. But a text
that is said to be no text is none: its octets as a whole are not UTF-8. Otherwise nothing comes to
light behind what can be read, or a character that may not be in a YAML text.

* **`Source.ending_ofOctets`** — what can come to light behind the text of some octets.
-/
import SourceNotes.Proofs.Charset.Split
import SourceNotes.Yaml.Source

namespace SourceNotes.Yaml

open Charset

namespace Arrival

variable {octets : Octets} {a a' : Arrival}

/-- Whether what is left of some octets is at fault exactly if the octets are. -/
def Rests (octets : Octets) (a : Arrival) : Prop :=
  a.ended = true ∨
    (Codec.utf8.pass true (a.held ++ a.unread)).fault = (Codec.utf8.pass true octets).fault

theorem fault_takePiece (hopen : a.ended = false) (h : a.Rests octets)
    (hnone : a.takePiece = none) : (Codec.utf8.pass true octets).fault ≠ none := by
  obtain hended | hfault := h
  · rw [hopen] at hended
    cases hended
  rw [← hfault]
  have hp : (Codec.utf8.pass (a.unread.take a.pieceSize).isEmpty
      (a.held ++ a.unread.take a.pieceSize)).fault ≠ none := by
    unfold takePiece at hnone
    dsimp only at hnone
    split at hnone
    · next hsome => exact Option.isSome_iff_ne_none.1 hsome
    · cases hnone
  by_cases hlast : a.unread.take a.pieceSize = []
  · -- Only the end of the octets leaves a piece empty, so it is all of them that are at fault.
    rw [hlast] at hp
    have hpos : a.pieceSize ≠ 0 := Nat.ne_of_gt
      (Nat.lt_of_lt_of_le (by decide) (Nat.le_max_left _ _))
    rwa [(List.take_eq_nil_iff.1 hlast).resolve_left hpos]
  · -- A fault of a piece that is not the last stays one, whatever comes behind.
    rw [List.isEmpty_eq_false_iff.2 hlast] at hp
    obtain ⟨f, hf⟩ := Option.ne_none_iff_exists'.1 hp
    have hpass : Codec.utf8.pass false (a.held ++ a.unread.take a.pieceSize) =
        ⟨(Codec.utf8.pass false (a.held ++ a.unread.take a.pieceSize)).runes,
          (Codec.utf8.pass false (a.held ++ a.unread.take a.pieceSize)).rest, some f⟩ := by
      rw [← hf]
    have hall := Codec.pass_append_of_fault Codec.utf8 true hpass (a.unread.drop a.pieceSize)
    rw [List.append_assoc, List.take_append_drop] at hall
    rw [hall]
    simp

theorem Rests.takePiece (hopen : a.ended = false) (h : a.Rests octets)
    (hsome : a.takePiece = some a') : a'.Rests octets := by
  obtain hended | hfault := h
  · rw [hopen] at hended
    cases hended
  unfold Arrival.takePiece at hsome
  dsimp only at hsome
  split at hsome
  · cases hsome
  next hok =>
  cases hsome
  by_cases hlast : a.unread.take a.pieceSize = []
  · exact .inl (List.isEmpty_iff.2 hlast)
  · refine .inr ?_
    rw [List.isEmpty_eq_false_iff.2 hlast] at hok
    have hpass : Codec.utf8.pass false (a.held ++ a.unread.take a.pieceSize) =
        ⟨(Codec.utf8.pass false (a.held ++ a.unread.take a.pieceSize)).runes,
          (Codec.utf8.pass false (a.held ++ a.unread.take a.pieceSize)).rest, none⟩ := by
      rw [← Option.not_isSome_iff_eq_none.1 hok]
    have hall := Codec.pass_append Codec.utf8 true hpass (a.unread.drop a.pieceSize)
    rw [List.append_assoc, List.take_append_drop] at hall
    rw [← hfault, hall, List.isEmpty_eq_false_iff.2 hlast]

theorem fill_eq (a : Arrival) :
    a.fill =
      if a.ended = true ∨ blockSize ≤ a.ahead.length then some a else a.takePiece.bind fill := by
  rw [fill]
  split
  · next hended => rw [if_pos (.inl hended)]
  · next hopen =>
    split
    · next hlong => rw [if_pos (.inr hlong)]
    · next hshort =>
      rw [if_neg (not_or.2 ⟨ne_true_of_eq_false hopen, hshort⟩)]
      split
      · next hnone => rw [hnone, Option.bind_none]
      · next hsome => exact (congrArg (·.bind fill) hsome).symm

theorem Rests.fill (h : a.Rests octets) :
    (a.fill = none → (Codec.utf8.pass true octets).fault ≠ none) ∧
      ∀ a', a.fill = some a' → a'.Rests octets := by
  induction hn : a.distance using Nat.strongRecOn generalizing a with
  | _ n ih =>
    rw [fill_eq]
    split
    · refine ⟨fun hnone => absurd hnone (by simp), fun a' hsome => ?_⟩
      cases hsome
      exact h
    · next hshort =>
      rw [not_or, Bool.not_eq_true] at hshort
      cases htake : a.takePiece with
      | none => exact ⟨fun _ => fault_takePiece hshort.1 h htake, fun a' hsome => by cases hsome⟩
      | some a₁ =>
        have hlt := distance_takePiece hshort.1 htake
        exact ih _ (hn ▸ hlt) (h.takePiece hshort.1 htake) rfl

theorem Rests.block? (h : a.Rests octets) :
    (a.block? = none → (Codec.utf8.pass true octets).fault ≠ none) ∧
      ∀ block a', a.block? = some (block, a') → a'.Rests octets := by
  obtain ⟨hnone, hsome⟩ := h.fill
  unfold Arrival.block?
  refine ⟨fun hblock => hnone (Option.map_eq_none_iff.1 hblock), fun block a' hblock => ?_⟩
  obtain ⟨a₁, hfill, heq⟩ := Option.map_eq_some_iff.1 hblock
  cases heq
  exact hsome a₁ hfill

end Arrival

/-- What can come to light behind the text of some octets. -/
inductive Behind (octets : Octets) : Option Fault → Prop
  /-- Nothing. -/
  | nothing : Behind octets none
  /-- A character that may not be in a YAML text. -/
  | character : Behind octets (some .invalid)
  /-- Octets that are no text. -/
  | octets (h : decodeStrict octets = none) : Behind octets (some .notText)

theorem Arrival.Rests.further {octets : Octets} {a : Arrival} (h : a.Rests octets) (fuel : Nat) :
    Behind octets (a.further fuel).ending := by
  induction fuel generalizing a with
  | zero => exact .nothing
  | succ fuel ih =>
    unfold Arrival.further
    split
    · next hnone => exact .octets (by rw [decodeStrict, if_neg (h.block?.1 hnone)])
    · exact .nothing
    · next hsome =>
      split
      · exact ih (h.block?.2 _ _ hsome)
      · exact .character

/-- Nothing comes to light behind a text, or what is no character of YAML, or octets of which it is
true that they are no text. -/
theorem Source.ending_ofOctets (octets : Octets) :
    Behind octets (Source.ofOctets octets).ending := by
  have hstart : Arrival.Rests octets { unread := octets } := .inr rfl
  unfold Source.ofOctets
  dsimp only
  cases hfirst : Arrival.block? { unread := octets } with
  | none =>
    exact .octets (by rw [decodeStrict, if_neg (hstart.block?.1 hfirst)])
  | some first =>
    have hrest := hstart.block?.2 _ _ hfirst
    dsimp only [Option.bind_eq_bind, Option.bind_some]
    cases hsecond : first.2.block? with
    | none => exact .octets (by rw [decodeStrict, if_neg (hrest.block?.1 hsecond)])
    | some second =>
      dsimp only [Option.bind_some, pure]
      split
      · exact (hrest.block?.2 _ _ hsecond).further _
      · exact .character

end SourceNotes.Yaml
