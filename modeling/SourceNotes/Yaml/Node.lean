/-
Nodes of YAML.

A document is a node: a scalar, a sequence of nodes or a mapping from nodes to nodes.
Each has a tag, which says how its value is made. Nodes refer to one another by their
places, for an alias stands for a node that is known already, even one that it is
within.
-/
import SourceNotes.Yaml.Kind
import SourceNotes.Yaml.Token

namespace SourceNotes.Yaml

/-- The tags that are known, and those that are not. -/
inductive Tag where
  | scalar (kind : Kind)
  | binary
  | sequence
  | mapping
  | set
  /-- A sequence of mappings of one entry each. -/
  | pairs
  | unknown
  deriving DecidableEq, Repr

namespace Tag

/-- What the names of known tags begin with. -/
def stem : Text := "tag:yaml.org,2002:".toList

/-- The known tags by their names. -/
def table : List (String × Tag) :=
  [("null", .scalar .null), ("bool", .scalar .boolean), ("int", .scalar .integer),
    ("float", .scalar .fraction), ("timestamp", .scalar .time), ("str", .scalar .text),
    ("merge", .scalar .merge), ("value", .scalar .default), ("binary", .binary),
    ("seq", .sequence), ("map", .mapping), ("set", .set), ("omap", .pairs), ("pairs", .pairs)]

/-- The tag with a full name. -/
def ofName (name : Text) : Tag :=
  ((table.find? fun t => stem ++ t.1.toList == name).map (·.2)).getD .unknown

/-- The tag of a scalar that is judged by its text. -/
def ofText (content : Codes) : Tag := .scalar ((content.text?.map Kind.ofText).getD .text)

end Tag

/-- The place of a node among those of its document. -/
abbrev Ref := Nat

/-- What a node holds. -/
inductive Node.Shape where
  | scalar (content : Codes)
  | sequence (items : List Ref)
  | mapping (entries : List (Ref × Ref))
  deriving DecidableEq, Repr

/-- A node. -/
structure Node where
  tag : Tag
  shape : Node.Shape
  deriving DecidableEq, Repr

/-- The nodes of a document, and which of them is the document itself. -/
structure Document where
  nodes : Array Node
  root : Ref

end SourceNotes.Yaml
