/-
What can go wrong with a YAML text.

Octets that are not loaded are mostly just no YAML. All other faults have their own causes, which
can be told from the octets, the text or the nodes of the document. That more of the text has to be
known is none of them: it is settled before.

* **`Slip`** — the causes of faults other than that a text is no YAML;
* **`load_ends`** — octets are loaded, or are no YAML, or there is such a cause.
-/
import SourceNotes.Proofs.Yaml.Arrival
import SourceNotes.Proofs.Yaml.Values

namespace SourceNotes.Yaml

/-- The faults of octets other than that they are no YAML, by their causes. -/
inductive Slip (octets : Octets) : Fault → Prop
  /-- The octets are not UTF-8. -/
  | notText (h : Charset.decodeStrict octets = none) : Slip octets .notText
  /-- Eight digits after a backslash and a capital U are beyond the last character. -/
  | character {code : Nat} {t rest : Text}
      (hplace : '\\' :: 'U' :: t <:+ (Source.ofOctets octets).text)
      (hcode : hexNumber? 0 8 t = some (code, rest)) (hbeyond : 0x10FFFF < code) :
      Slip octets (.character code)
  /-- A number in the line of the version has too many digits. -/
  | digits {u t : Text} (hplace : "%YAML".toList ++ u <:+ (Source.ofOctets octets).text)
      (hin : t <:+ u) (hmany : maxDigits < (t.takeWhile Char.isDigit).length) :
      Slip octets (.digits (t.takeWhile Char.isDigit).length)
  /-- So many characters can begin a collection that these may be within one another too often. -/
  | depth (h : Build.maxDepth < (Source.ofOctets octets).text.countP isOpening) :
      Slip octets .depth
  /-- A node has no value. -/
  | value {d : Document} {f : Fault} (hd : Document.ofSource (.ofOctets octets) = .ok (some d))
      (h : Unmade d.nodes f) (hf : f ≠ .invalid) : Slip octets f

variable {octets : Octets} {f : Fault}

theorem Slip.ne_invalid (h : Slip octets f) : f ≠ .invalid := by
  cases h with
  | value _ _ hf => exact hf
  | _ => exact fun hinvalid => nomatch hinvalid

/-- A fault that is found while the nodes are put together is that of a text that is no YAML, or has
its cause in the text. -/
theorem Slip.of_unbuilt
    (h : Unbuilt (Source.ofOctets octets).text (Source.ofOctets octets).ending f) :
    f = .invalid ∨ Slip octets f := by
  cases h with
  | depth h => exact .inr (.depth h)
  | spotted h =>
    cases h with
    | invalid => exact .inl rfl
    | character hplace hcode hbeyond => exact .inr (.character hplace hcode hbeyond)
    | digits hplace hin hmany => exact .inr (.digits hplace hin hmany)
    | behind h =>
      have hbehind := Source.ending_ofOctets octets
      rw [h] at hbehind
      cases hbehind with
      | character => exact .inl rfl
      | octets hbroken => exact .inr (.notText hbroken)

/-- Octets are loaded, or they are no YAML, or there is a cause for another fault. -/
theorem load_ends (octets : Octets) :
    EndsIn (fun _ => True) (fun f => f = .invalid ∨ Slip octets f) (load octets) := by
  unfold load
  have hnodes := (Document.ofSource_ends (.ofOctets octets)).imp (fun _ _ => trivial)
    fun _ => Slip.of_unbuilt
  cases hdocument : Document.ofSource (.ofOctets octets) with
  | error f =>
    rw [hdocument] at hnodes
    exact hnodes
  | ok document =>
    cases document with
    | none => trivial
    | some d =>
      refine d.contents_ends.imp (fun _ _ => trivial) fun f hf => ?_
      by_cases hinvalid : f = .invalid
      · exact .inl hinvalid
      · exact .inr (.value hdocument hf hinvalid)

end SourceNotes.Yaml
