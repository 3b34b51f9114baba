/-
Values of YAML.

The value of a node is made as its tag says. A mapping may take over the entries of
others; its own come last, and of entries with the same key the last one counts.

Collections are begun when they are met and filled one after another in that order, for
one of them may be within itself. So if several things are wrong, what is nearest to
the top of the document is found first, and then what comes first.

* **`Yaml.load`** — the values of a text.
-/
import SourceNotes.Yaml.Atom
import SourceNotes.Yaml.Node.OfSource

namespace SourceNotes.Yaml

/-- A value. The parts of a collection are told by the places of their nodes. -/
inductive Value where
  | atom (a : Atom)
  | list (items : List Ref)
  | pairs (items : List (Ref × Ref))
  | set (keys : List Atom)
  | map (entries : List (Atom × Ref))
  deriving DecidableEq, Repr

/-- The values of a document. -/
structure Contents where
  /-- The value of the document as a whole. -/
  whole : Value := .atom .null
  /-- The values of the nodes that have one. -/
  values : Array (Option Value) := #[]

/-- The value at a place. -/
def Contents.get (c : Contents) (ref : Ref) : Value :=
  (c.values[ref]?.getD none).getD (.atom .null)

/-- What has been made of the nodes of a document so far. -/
structure Maker where
  nodes : Array Node
  values : Array (Option Value)
  /-- The collections that have been begun, in this order. -/
  begun : Array Ref := #[]
  /-- A bound on the number of merges that are left. -/
  merges : Nat

/-- Making values, which may fail. -/
abbrev Make := StateT Maker (Except Fault)

namespace Make

/-- The node at a place. -/
def nodeAt (ref : Ref) : Make Node := do
  match (← get).nodes[ref]? with
  | some n => return n
  | none => throw .invalid

/-- Changes the node at a place. -/
def changeNode (ref : Ref) (f : Node → Node) : Make Unit :=
  modify fun m => { m with nodes := m.nodes.modify ref f }

/-- Sets the value at a place. -/
def setValue (ref : Ref) (v : Value) : Make Unit :=
  modify fun m => { m with values := m.values.setIfInBounds ref (some v) }

/-- Begins a collection, which is filled later. -/
def begin (ref : Ref) (empty : Value) : Make Unit := do
  setValue ref empty
  modify fun m => { m with begun := m.begun.push ref }

/-- Whether a node has a tag. -/
def hasTag (nodes : Array Node) (tag : Tag) (ref : Ref) : Bool :=
  nodes[ref]?.any (·.tag == tag)

/-- The text of a node that is tagged as a scalar: its own, or for a mapping that of its
default value. A chain that is longer than there are nodes leads back to itself. -/
def content (nodes : Array Node) : Nat → Ref → Except Fault Codes
  | 0, _ => .error .depth
  | fuel + 1, ref =>
    match nodes[ref]? with
    | some ⟨_, .scalar c⟩ => .ok c
    | some ⟨_, .mapping entries⟩ =>
      match entries.find? fun e => hasTag nodes (.scalar .default) e.1 with
      | some (_, value) => content nodes fuel value
      | none => .error .invalid
    | _ => .error .invalid

/-- Makes the value of a node that is tagged as a scalar. -/
def makeAtom (ref : Ref) : Make Unit := do
  let node ← nodeAt ref
  let nodes := (← get).nodes
  let c ← content nodes (nodes.size + 1) ref
  if node.tag = .scalar .time && !(node.shape matches .scalar _) then throw .timeOfMapping
  setValue ref (.atom (← Atom.ofText node.tag c))

/-- Makes the value of a node, unless there is one; a collection is only begun. -/
def make (ref : Ref) : Make Unit := do
  if ((← get).values[ref]?.getD none).isSome then return
  match (← nodeAt ref).tag with
  | .sequence => begin ref (.list [])
  | .mapping => begin ref (.map [])
  | .set => begin ref (.set [])
  | .pairs => begin ref (.pairs [])
  | .unknown | .scalar .merge | .scalar .default | .scalar .mark => throw .invalid
  | .scalar _ | .binary => makeAtom ref

/-- Makes the value of a key, which has no parts. -/
def makeKey (ref : Ref) : Make Atom := do
  make ref
  match (← get).values[ref]? with
  | some (some (.atom a)) => return a
  | _ => throw .invalid

/-- The entries of a mapping. -/
def entriesOf (ref : Ref) : Make (List (Ref × Ref)) := do
  match (← nodeAt ref).shape with
  | .mapping entries => return entries
  | _ => throw .invalid

/-- Sets the entries of a mapping. -/
def setEntries (ref : Ref) (entries : List (Ref × Ref)) : Make Unit :=
  changeNode ref fun n => { n with shape := .mapping entries }

/-- Puts the entries that a mapping takes over in the place of its merges, before its own.
A key that marks a default value is a text from then on. Each merge is left out before
what it takes over is looked at, and none comes back. -/
def takeOver : Nat → Ref → Make Unit
  | 0, _ => throw .depth
  | fuel + 1, ref => do
    let entries ← entriesOf ref
    let nodes := (← get).nodes
    let isOwn (e : Ref × Ref) : Bool := !hasTag nodes (.scalar .merge) e.1
    match entries.dropWhile isOwn with
    | [] =>
      for (key, _) in entries do
        changeNode key fun n =>
          { n with tag := if n.tag = .scalar .default then .scalar .text else n.tag }
    | (_, source) :: others =>
      setEntries ref (entries.takeWhile isOwn ++ others)
      let takenFrom (source : Ref) : Make (List (Ref × Ref)) := do
        takeOver fuel source
        entriesOf source
      let taken ← match (← nodeAt source).shape with
        | .mapping _ => takenFrom source
        | .sequence sources => do
          let parts ← sources.mapM takenFrom
          pure parts.reverse.flatten
        | .scalar _ => throw .invalid
      takeOver fuel ref
      setEntries ref (taken ++ (← entriesOf ref))

/-- The keys and the places of the values of a mapping with all it takes over. -/
def makeEntries (ref : Ref) : Make (List (Ref × Atom × Ref)) := do
  let _ ← entriesOf ref
  takeOver ((← get).merges + 1) ref
  (← entriesOf ref).mapM fun (key, value) => do
    let k ← makeKey key
    make value
    return (key, k, value)

/-- The items of a sequence. -/
def itemsOf (ref : Ref) : Make (List Ref) := do
  match (← nodeAt ref).shape with
  | .sequence items => return items
  | _ => throw .invalid

/-- The only entry of a mapping, its key and its value made. -/
def makePair (ref : Ref) : Make (Ref × Ref) := do
  match ← entriesOf ref with
  | [(key, value)] =>
    make key
    make value
    return (key, value)
  | _ => throw .invalid

/-- Members of a set that are not the same, each with the place it comes from. -/
def distinct (keys : List (Ref × Atom)) : List (Ref × Atom) :=
  keys.foldl (fun sofar k =>
    if sofar.any fun k' => k'.1 == k.1 || k'.2.isSame k.2 then sofar else sofar ++ [k]) []

/-- Fills a collection that has been begun. -/
def fill (ref : Ref) : Make Unit := do
  match (← nodeAt ref).tag with
  | .sequence =>
    let items ← itemsOf ref
    items.forM make
    setValue ref (.list items)
  | .pairs => setValue ref (.pairs (← (← itemsOf ref).mapM makePair))
  | .mapping => setValue ref (.map ((← makeEntries ref).map fun (_, k, value) => (k, value)))
  | .set =>
    let keys := (← makeEntries ref).map fun (key, k, _) => (key, k)
    setValue ref (.set ((distinct keys).map (·.2)))
  | _ => throw .invalid

/-- Fills the collections that have been begun, the first `done` of them being filled.
No node is begun twice. -/
def fillAll : Nat → Nat → Make Unit
  | 0, _ => pure ()
  | fuel + 1, done => do
    match (← get).begun[done]? with
    | none => return
    | some ref =>
      fill ref
      fillAll fuel (done + 1)

end Make

/-- The number of merges in a mapping. -/
def Node.merges (nodes : Array Node) (n : Node) : Nat :=
  match n.shape with
  | .mapping entries => (entries.filter fun e => Make.hasTag nodes (.scalar .merge) e.1).length
  | _ => 0

/-- The values of a document. -/
def Document.contents (d : Document) : Except Fault Contents := do
  let start : Maker := {
    nodes := d.nodes
    values := Array.replicate d.nodes.size none
    merges := d.nodes.foldl (fun n node => n + node.merges d.nodes) 0 }
  let making : Make Unit := do
    Make.make d.root
    Make.fillAll d.nodes.size 0
  let ((), m) ← making.run start
  let made : Contents := { values := m.values }
  return { made with whole := made.get d.root }

/-- The values of a text of a single document in UTF-8. -/
def load (octets : Octets) : Except Fault Contents := do
  match ← Document.ofSource (.ofOctets octets) with
  | none => return {}
  | some d => d.contents

end SourceNotes.Yaml
