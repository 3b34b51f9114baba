/-
Putting nodes together.

The tokens of a text are put together to the nodes of a single document. Nodes with an
anchor are remembered, so that aliases can stand for them. Tokens are asked for one
after another, so that of several things that are wrong the first one comes to light.

* **`Document.ofSource`** — the document that a text is, if it is any.
-/
import SourceNotes.Yaml.Node
import SourceNotes.Yaml.Token.Lexer

namespace SourceNotes.Yaml

/-- The tokens that are left, the nodes so far and those with anchors. -/
structure Builder where
  lexer : Lexer
  nodes : Array Node := #[]
  anchors : List (Text × Ref) := []

/-- Building with tokens, which may fail. -/
abbrev Build := StateT Builder (Except Fault)

/-- What handles of tags stand for. -/
abbrev Handles := List (Text × Text)

namespace Build

/-- The next token. -/
def next : Build (Option Token) := do
  let lexer ← (← get).lexer.ready
  modify fun b => { b with lexer }
  return lexer.next?

/-- Leaves the next token behind. -/
def skip : Build Unit := modify fun b => { b with lexer := b.lexer.skip }

/-- Leaves the next token behind if it is `t`, and tells whether it was. -/
def skipIf (t : Token) : Build Bool := do
  let found := (← next) = some t
  if found then skip
  return found

/-- Leaves the next token behind, which has to be `t`. -/
def expect (t : Token) : Build Unit := do
  if !(← skipIf t) then throw .invalid

/-- Whether the next token is one of `ts`. -/
def isNext (ts : List Token) : Build Bool := do return (← next).any ts.contains

/-- Adds a node. -/
def add (tag : Tag) (shape : Node.Shape) : Build Ref := do
  let ref := (← get).nodes.size
  modify fun b => { b with nodes := b.nodes.push { tag, shape } }
  return ref

/-- Adds a node of which nothing is written. -/
def addEmpty : Build Ref := add (.scalar .null) (.scalar [])

/-- Gives a node its contents, which were not known when it was added. -/
def fill (ref : Ref) (shape : Node.Shape) : Build Unit :=
  modify fun b => { b with nodes := b.nodes.modify ref fun n => { n with shape } }

/-- The node that an alias stands for. -/
def named (name : Text) : Build Ref := do
  match (← get).anchors.lookup name with
  | some ref => return ref
  | none => throw .invalid

/-- Remembers a node under its anchor. -/
def remember (anchor : Option Text) (ref : Ref) : Build Unit :=
  match anchor with
  | none => pure ()
  | some name => modify fun b => { b with anchors := (name, ref) :: b.anchors }

/-- The anchor that comes next, if one does. -/
def anchor? : Build (Option Text) := do
  match ← next with
  | some (.anchor name) =>
    skip
    return some name
  | _ => return none

/-- The tag that comes next, if one does: its handle and its suffix. -/
def tag? : Build (Option (Option Text × Text)) := do
  match ← next with
  | some (.tag handle suffix) =>
    skip
    return some (handle, suffix)
  | _ => return none

/-- The name of a tag. -/
def tagName (handles : Handles) : Option Text × Text → Build Text
  | (none, suffix) => pure suffix
  | (some handle, suffix) =>
    match handles.lookup handle with
    | some stem => pure (stem ++ suffix)
    | none => throw .invalid

/-- The anchor and the name of the tag before a node, in either order. -/
def properties (handles : Handles) : Build (Option Text × Option Text) := do
  let first ← anchor?
  let tag ← tag?
  let anchor ← if first.isNone && tag.isSome then anchor? else pure first
  return (anchor, ← tag.mapM (tagName handles))

/-- The tag of a collection, from its name. -/
def collectionTag (dflt : Tag) (name : Option Text) : Tag :=
  match name with
  | none => dflt
  | some name => if name = ['!'] then dflt else .ofName name

/-- The tag of a scalar, from its name. One that is plain, or has the tag `!`, is what
it looks like. -/
def scalarTag (name : Option Text) (content : Codes) (plain : Bool) : Tag :=
  match name with
  | none => if plain then .ofText content else .scalar .text
  | some name => if name = ['!'] then .ofText content else .ofName name

/-- The collections that can begin a node. -/
inductive Opening where
  /-- A sequence in the column of the mapping around it, whose end has no token. -/
  | unindentedSequence
  | blockSequence
  | blockMapping
  | flowSequence
  | flowMapping

/-- Which collection a token begins. One of block form needs `inBlock`, and a sequence
that is not indented `unindented`. -/
def opening? (inBlock unindented : Bool) : Option Token → Option Opening
  | some .item => if unindented then some .unindentedSequence else none
  | some .flowSequence => some .flowSequence
  | some .flowMapping => some .flowMapping
  | some .blockSequence => if inBlock then some .blockSequence else none
  | some .blockMapping => if inBlock then some .blockMapping else none
  | _ => none

/-- The tag of a collection without one. -/
def Opening.tag : Opening → Tag
  | .unindentedSequence | .blockSequence | .flowSequence => .sequence
  | .blockMapping | .flowMapping => .mapping

/-- A collection without contents. -/
def Opening.shape : Opening → Node.Shape
  | .unindentedSequence | .blockSequence | .flowSequence => .sequence []
  | .blockMapping | .flowMapping => .mapping []

/-- How many collections can be within one another. -/
def maxDepth : Nat := 487

mutual

/-- The next node, within `depth` collections. Each token takes two steps at most. -/
def node (handles : Handles) (inBlock unindented : Bool) (depth : Nat) : Nat → Build Ref
  | 0 => throw .invalid
  | fuel + 1 => do
    if maxDepth < depth then throw .depth
    if let some (.alias name) ← next then
      skip
      return ← named name
    let (anchor, tag) ← properties handles
    let begins ← next
    let opening := opening? inBlock unindented begins
    let isMissing := opening.isNone && !(begins matches some (.scalar ..))
    if isMissing && anchor.isNone && tag.isNone then throw .invalid
    if let some (.scalar ..) := begins then skip
    let anchors := (← get).anchors
    if anchor.any fun name => (anchors.lookup name).isSome then throw .invalid
    match opening, begins with
    | some opening, _ =>
      if !(opening matches .unindentedSequence) then skip
      let ref ← add (collectionTag opening.tag tag) opening.shape
      remember anchor ref
      fill ref (← contents handles opening depth fuel)
      return ref
    | none, some (.scalar content plain) =>
      let ref ← add (scalarTag tag content plain) (.scalar content)
      remember anchor ref
      return ref
    | none, _ =>
      let ref ← add (scalarTag tag [] true) (.scalar [])
      remember anchor ref
      return ref
termination_by structural fuel => fuel

/-- The contents of a collection that has begun. -/
def contents (handles : Handles) (opening : Opening) (depth : Nat) : Nat → Build Node.Shape
  | 0 => throw .invalid
  | fuel + 1 =>
    match opening with
    | .unindentedSequence => .sequence <$> items handles true (depth + 1) fuel
    | .blockSequence => .sequence <$> items handles false (depth + 1) fuel
    | .blockMapping => .mapping <$> entries handles (depth + 1) fuel
    | .flowSequence => .sequence <$> flowItems handles true (depth + 1) fuel
    | .flowMapping => .mapping <$> flowEntries handles true (depth + 1) fuel
termination_by structural fuel => fuel

/-- The items of a block sequence. -/
def items (handles : Handles) (unindented : Bool) (depth : Nat) : Nat → Build (List Ref)
  | 0 => throw .invalid
  | fuel + 1 => do
    if ← skipIf .item then
      let stops := if unindented then [.item, .key, .value, .blockEnd] else [.item, .blockEnd]
      let item ← if ← isNext stops then addEmpty else node handles true false depth fuel
      return item :: (← items handles unindented depth fuel)
    else
      if !unindented then expect .blockEnd
      return []
termination_by structural fuel => fuel

/-- The entries of a block mapping. -/
def entries (handles : Handles) (depth : Nat) : Nat → Build (List (Ref × Ref))
  | 0 => throw .invalid
  | fuel + 1 => do
    let part : Build Ref := do
      if ← isNext [.key, .value, .blockEnd] then addEmpty
      else node handles true true depth fuel
    if ← skipIf .key then
      let key ← part
      let value ← if ← skipIf .value then part else addEmpty
      return (key, value) :: (← entries handles depth fuel)
    else
      expect .blockEnd
      return []
termination_by structural fuel => fuel

/-- The items of a flow sequence; no comma comes before the `first`. A key makes a
mapping of one entry. -/
def flowItems (handles : Handles) (first : Bool) (depth : Nat) : Nat → Build (List Ref)
  | 0 => throw .invalid
  | fuel + 1 => do
    if ← skipIf .flowSequenceEnd then return []
    if !first then expect .comma
    if ← skipIf .flowSequenceEnd then return []
    let part (stops : List Token) : Build Ref := do
      if ← isNext stops then addEmpty else node handles false false (depth + 1) fuel
    let item ← if ← skipIf .key then do
        let ref ← add .mapping (.mapping [])
        let key ← part [.value, .comma, .flowSequenceEnd]
        let value ← if ← skipIf .value then part [.comma, .flowSequenceEnd] else addEmpty
        fill ref (.mapping [(key, value)])
        pure ref
      else node handles false false depth fuel
    return item :: (← flowItems handles false depth fuel)
termination_by structural fuel => fuel

/-- The entries of a flow mapping; no comma comes before the `first`. -/
def flowEntries (handles : Handles) (first : Bool) (depth : Nat) :
    Nat → Build (List (Ref × Ref))
  | 0 => throw .invalid
  | fuel + 1 => do
    if ← skipIf .flowMappingEnd then return []
    if !first then expect .comma
    if ← skipIf .flowMappingEnd then return []
    let part (stops : List Token) : Build Ref := do
      if ← isNext stops then addEmpty else node handles false false depth fuel
    let entry ← if ← skipIf .key then do
        let key ← part [.value, .comma, .flowMappingEnd]
        let value ← if ← skipIf .value then part [.comma, .flowMappingEnd] else addEmpty
        pure (key, value)
      else pure (← node handles false false depth fuel, ← addEmpty)
    return entry :: (← flowEntries handles false depth fuel)
termination_by structural fuel => fuel

end

/-- The handles that stand for something without being declared. -/
def knownHandles : Handles := [(['!'], ['!']), (['!', '!'], Tag.stem)]

/-- Reads the directives before a document: at most one version, which has to be the
first major one, and each handle once. -/
def directives (versionSeen : Bool) (handles : Handles) : Nat → Build Handles
  | 0 => throw .invalid
  | fuel + 1 => do
    match ← next with
    | some (.directive d) =>
      skip
      match d with
      | .version major =>
        if versionSeen || major ≠ 1 then throw .invalid
        directives true handles fuel
      | .tag handle stem =>
        if (handles.lookup handle).isSome then throw .invalid
        directives versionSeen ((handle, stem) :: handles) fuel
      | .other => directives versionSeen handles fuel
    | _ => return handles ++ knownHandles

/-- Leaves the marks of a document's end behind. -/
def skipEnds : Nat → Build Unit
  | 0 => throw .invalid
  | fuel + 1 => do
    if ← skipIf .documentEnd then skipEnds fuel

/-- Reads what follows a document, where only marks of its end can. -/
def finish (fuel : Nat) : Build Unit := do
  skipEnds fuel
  if (← next).isSome then
    let _ ← directives false [] fuel
    throw .invalid

/-- Reads a whole text of at most one document. A document with a mark at its start may
be empty. -/
def whole (fuel : Nat) : Build (Option Ref) := do
  match ← next with
  | none => return none
  | some .documentStart | some (.directive _) =>
    let handles ← directives false [] fuel
    expect .documentStart
    let isEmpty := match ← next with
      | none | some .documentStart | some .documentEnd | some (.directive _) => true
      | _ => false
    let root ← if isEmpty then addEmpty else node handles true false 0 fuel
    finish fuel
    return some root
  | some _ =>
    let root ← node knownHandles true false 0 fuel
    finish fuel
    return some root

/-- The most tokens that a character can make: itself, its mark as a key, and the two
ends of a collection around it. -/
def tokensEach : Nat := 4

end Build

/-- The document that a text is, if there is one. -/
def Document.ofSource (s : Source) : Except Fault (Option Document) := do
  let fuel := 3 * Build.tokensEach * (s.text.length + 2)
  let (root, b) ← (Build.whole fuel).run { lexer := .ofSource s }
  return root.map fun root => { nodes := b.nodes, root }

end SourceNotes.Yaml
