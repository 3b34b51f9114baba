/-
Tokens of YAML.

Tokens show the structure of a text: where collections begin and end, be they marked
by indentation or by brackets, and which nodes are keys. What is left to do is to
put nodes together from them.
-/
import SourceNotes.Yaml.Scalar.Quoted

namespace SourceNotes.Yaml

/-- A line before a document that says how to read it. -/
inductive Directive where
  /-- The version of YAML that the document is in. -/
  | version (major : Nat)
  /-- The text that a handle of tags stands for. -/
  | tag (handle stem : Text)
  /-- A line that means nothing. -/
  | other
  deriving DecidableEq, Repr

/-- A token. -/
inductive Token where
  | directive (d : Directive)
  | documentStart
  | documentEnd
  | blockSequence
  | blockMapping
  /-- The end of a collection that is marked by indentation. -/
  | blockEnd
  | flowSequence
  | flowSequenceEnd
  | flowMapping
  | flowMappingEnd
  /-- The mark of an item in a block sequence. -/
  | item
  /-- The mark between the entries of a flow collection. -/
  | comma
  | key
  | value
  | alias (name : Text)
  | anchor (name : Text)
  /-- A tag; one without a handle is written in full. -/
  | tag (handle : Option Text) (suffix : Text)
  | scalar (content : Codes) (plain : Bool)
  deriving DecidableEq, Repr

end SourceNotes.Yaml
