/-
Reading tokens.

Tokens are read from left to right. A node is known to be a key only when the colon
after it comes, which has to be soon: on the same line, at most 1024 characters on.
So the number of each token that could begin a key is kept, and a mark is put before
it if it turns out to be one. Indentation opens and closes collections except within
brackets.

Tokens are read only as they are asked for. Those from a node on that may yet turn out
to be a key are not handed out before that is known.

* **`Lexer.ofSource`** — the lexer at the start of a text;
* **`Lexer.ready`** — reads on until the next token is known;
* **`Lexer.next?`**, **`Lexer.skip`** — the next token, and the lexer after it.
-/
import SourceNotes.Yaml.Scalar.Block
import SourceNotes.Yaml.Scalar.Plain
import SourceNotes.Yaml.Source
import SourceNotes.Yaml.Token.Tag

namespace SourceNotes.Yaml

/-- A node that may turn out to be a key. -/
structure Candidate where
  /-- The number of its first token. -/
  number : Nat
  /-- Whether nothing but a key can stand there. -/
  required : Bool
  index : Nat
  line : Nat
  column : Nat

/-- How far reading has come. -/
structure Lexer where
  rest : Text
  /-- The number of characters in the rest. -/
  left : Nat
  /-- What comes to light after the rest, if that is not all of the text. -/
  ending : Option Fault := none
  index : Nat := 0
  line : Nat := 0
  column : Nat := 0
  /-- The tokens that have been read and not taken. -/
  pending : List Token := []
  /-- The number of tokens that have been taken. -/
  taken : Nat := 0
  /-- Whether the end of the text has been read. -/
  ended : Bool := false
  /-- The number of open brackets. -/
  depth : Nat := 0
  /-- The columns of the open block collections, innermost first. -/
  indents : List Nat := []
  /-- Whether a key may begin here. -/
  keyAllowed : Bool := true
  /-- The candidates by the number of brackets around them. -/
  candidates : List (Nat × Candidate) := []

namespace Lexer

/-- How far after its start a key can end. -/
def keyRange : Nat := 1024

/-- Goes past `n` characters. -/
def advance (n : Nat) (l : Lexer) : Lexer :=
  (l.rest.take n).foldl (fun l c =>
    { l with
      index := l.index + 1
      line := if isBreak c then l.line + 1 else l.line
      column := if isBreak c then 0 else if c = '\uFEFF' then l.column else l.column + 1 })
    { l with rest := l.rest.drop n, left := l.left - n }

/-- Goes on to `rest`. -/
def goTo (rest : Text) (l : Lexer) : Lexer := l.advance (l.left - rest.length)

/-- Checks that nothing else comes to light after the rest, which has to be known. -/
def checkWhole (l : Lexer) : Except Fault Unit :=
  match l.ending with
  | none => .ok ()
  | some fault => .error fault

/-- Adds a token. -/
def emit (t : Token) (l : Lexer) : Lexer := { l with pending := l.pending ++ [t] }

/-- Adds tokens before the one with the given number. -/
def insert (number : Nat) (ts : List Token) (l : Lexer) : Lexer :=
  let place := number - l.taken
  { l with pending := l.pending.take place ++ ts ++ l.pending.drop place }

/-- Says whether a key may begin here. -/
def allowKey (allowed : Bool) (l : Lexer) : Lexer := { l with keyAllowed := allowed }

/-- Whether no block collection is open at `column` or beyond. -/
def isDeeper (column : Nat) (l : Lexer) : Bool := l.indents.head?.all (· < column)

/-- Closes the block collections beyond `column`; all of them where it is `none`. -/
def close (column : Option Nat) (l : Lexer) : Lexer :=
  if l.depth ≠ 0 then l
  else
    let beyond (n : Nat) : Bool := column.all (· < n)
    let closed := l.indents.takeWhile beyond
    { l with
      indents := l.indents.dropWhile beyond
      pending := l.pending ++ closed.map fun _ => .blockEnd }

/-- Forgets the candidate among the same brackets; a required one cannot be. -/
def dropCandidate (l : Lexer) : Except Fault Lexer :=
  match l.candidates.lookup l.depth with
  | none => .ok l
  | some c =>
    if c.required then .error .invalid
    else .ok { l with candidates := l.candidates.filter (·.1 ≠ l.depth) }

/-- Forgets the candidates that are too far away by now. -/
def dropStale (l : Lexer) : Except Fault Lexer :=
  let isStale (c : Candidate) : Bool := c.line ≠ l.line || keyRange < l.index - c.index
  if l.candidates.any fun c => isStale c.2 && c.2.required then .error .invalid
  else .ok { l with candidates := l.candidates.filter fun c => !isStale c.2 }

/-- Notes that a key may begin here, if it may. -/
def addCandidate (l : Lexer) : Except Fault Lexer := do
  if l.keyAllowed then
    let l ← l.dropCandidate
    let candidate : Candidate := {
      number := l.taken + l.pending.length
      required := l.depth = 0 && l.indents.head? = some l.column
      index := l.index, line := l.line, column := l.column }
    return { l with candidates := (l.depth, candidate) :: l.candidates }
  else return l

/-- Ends the document before a directive or document mark. -/
def endDocument (l : Lexer) : Except Fault Lexer := do
  return (← (l.close none).dropCandidate).allowKey false

/-- Opens the block collection that a mark at this place belongs to. -/
def openBlock (start : Token) (l : Lexer) : Except Fault Lexer :=
  if l.depth ≠ 0 then .ok l
  else if !l.keyAllowed then .error .invalid
  else if l.isDeeper l.column then
    .ok { l.emit start with indents := l.column :: l.indents }
  else .ok l

/-- Takes a mark that ends a node: the hyphen of an item, a question mark or the
colon after a long key. -/
def mark (start mark : Token) (l : Lexer) : Except Fault Lexer := do
  let l ← l.openBlock start
  let l ← (l.allowKey (mark = .item || l.depth = 0)).dropCandidate
  return (l.advance 1).emit mark

/-- Takes the colon after a key. -/
def colon (l : Lexer) : Except Fault Lexer :=
  match l.candidates.lookup l.depth with
  | none => l.mark .blockMapping .value
  | some c =>
    let opens := l.depth = 0 && l.isDeeper c.column
    let l := { l with
      candidates := l.candidates.filter (·.1 ≠ l.depth)
      indents := if opens then c.column :: l.indents else l.indents
      keyAllowed := false }
    let l := l.insert c.number (if opens then [.blockMapping, .key] else [.key])
    .ok ((l.advance 1).emit .value)

/-- Takes an opening bracket. -/
def openFlow (start : Token) (l : Lexer) : Except Fault Lexer := do
  let l ← l.addCandidate
  return ({ l with depth := l.depth + 1, keyAllowed := true }.advance 1).emit start

/-- Takes a closing bracket. -/
def closeFlow (stop : Token) (l : Lexer) : Except Fault Lexer := do
  let l ← l.dropCandidate
  if l.depth = 0 then throw (Tag.unexpected l.rest.tail)
  return ({ l with depth := l.depth - 1, keyAllowed := false }.advance 1).emit stop

/-- Takes what can stand at the start of a node. -/
def nodePart (t : Token) (rest : Text) (l : Lexer) : Except Fault Lexer := do
  return (((← l.addCandidate).allowKey false).goTo rest).emit t

/-- The name of an anchor, and what follows it. -/
def name (s : Text) : Except Fault (Text × Text) :=
  let rest := s.dropWhile isNameChar
  if s.takeWhile isNameChar ≠ [] ∧ endsOr (fun c => isGap c || isOneOf "?:,]\x7d%@\x60" c) rest then
    .ok (s.takeWhile isNameChar, rest)
  else .error (Tag.unexpected rest)

/-- Whether a scalar that `rest` follows goes over several lines, the last of which is
not known so far that it can be told from a document mark. -/
def endsNearMark (rest : Text) (l : Lexer) : Bool :=
  let passed := l.rest.take (l.left - rest.length)
  let lastLine := (passed.reverse.takeWhile fun c => !isBreak c).reverse
  passed.any isBreak && mayBeDocumentMark (lastLine ++ rest)

/-- Takes a scalar that may go over several lines. -/
def contentPart (t : Token) (rest : Text) (l : Lexer) : Except Fault Lexer := do
  if l.ending.isSome && l.endsNearMark rest then l.checkWhole
  l.nodePart t rest

/-- The column at which the lines of a scalar have to stand. -/
def contentColumn (l : Lexer) : Nat := l.indents.head?.elim 0 (· + 1)

/-- Takes a block scalar. -/
def blockScalar (folded : Bool) (s : Text) (l : Lexer) : Except Fault Lexer := do
  let l ← (l.allowKey true).dropCandidate
  let (text, rest) ← Block.read folded (max 1 l.contentColumn) s
  return (l.goTo rest).emit (.scalar (Codes.ofText text) false)

/-- Takes a scalar in quotes. -/
def quotedScalar (style : Quoted.Style) (s : Text) (l : Lexer) : Except Fault Lexer := do
  let (content, rest) ← Quoted.read style s
  l.contentPart (.scalar content false) rest

/-- Whether a plain scalar can begin with `c` where `s` follows. -/
def beginsPlain (c : Char) (s : Text) (l : Lexer) : Bool :=
  !isOneOf "-?:,[]\x7b\x7d#&*!|>'\"%@\x60" c && !isGap c
    || (!endsOr isGap s && (c == '-' || (l.depth == 0 && isOneOf "?:" c)))

/-- Takes a plain scalar, if one begins here. What follows a colon has to be known. -/
def plainScalar (c : Char) (s : Text) (l : Lexer) : Except Fault Lexer := do
  if s = [] then l.checkWhole
  if l.beginsPlain c s then
    let (text, rest, broken) := Plain.read l.contentColumn (l.depth ≠ 0) (c :: s)
    if rest = [':'] then l.checkWhole
    return (← l.contentPart (.scalar (Codes.ofText text) true) rest).allowKey broken
  else throw .invalid

/-- Takes the token that begins with the character `c`, which `s` follows. -/
def token (c : Char) (s : Text) (l : Lexer) : Except Fault Lexer := do
  if c = '%' ∧ l.column = 0 then
    let l ← l.endDocument
    let (directive, rest) ← Directive.read s
    return (l.goTo rest).emit (.directive directive)
  if (c = '-' ∨ c = '.') ∧ l.column = 0 ∧ mayBeDocumentMark (c :: s) then l.checkWhole
  if (c = '-' ∨ (l.depth = 0 ∧ (c = '?' ∨ c = ':'))) ∧ s = [] then l.checkWhole
  if l.column = 0 ∧ isDocumentMark (c :: s) then
    return ((← l.endDocument).advance markLength).emit
      (if c = '-' then .documentStart else .documentEnd)
  else if c = '[' then l.openFlow .flowSequence
  else if c = '\x7b' then l.openFlow .flowMapping
  else if c = ']' then l.closeFlow .flowSequenceEnd
  else if c = '\x7d' then l.closeFlow .flowMappingEnd
  else if c = ',' then return ((← (l.allowKey true).dropCandidate).advance 1).emit .comma
  else if c = '-' ∧ endsOr isGap s then l.mark .blockSequence .item
  else if c = '?' ∧ (l.depth ≠ 0 ∨ endsOr isGap s) then l.mark .blockMapping .key
  else if c = ':' ∧ (l.depth ≠ 0 ∨ endsOr isGap s) then l.colon
  else if c = '*' then
    let (name, rest) ← name s
    l.nodePart (.alias name) rest
  else if c = '&' then
    let (name, rest) ← name s
    l.nodePart (.anchor name) rest
  else if c = '!' then
    let (tag, rest) ← Tag.read s
    l.nodePart tag rest
  else if c = '|' ∧ l.depth = 0 then l.blockScalar false s
  else if c = '>' ∧ l.depth = 0 then l.blockScalar true s
  else if c = '\'' then l.quotedScalar .single s
  else if c = '"' then l.quotedScalar .double s
  else l.plainScalar c s

/-- The number of spaces, line breaks and characters of comments at the start of a text,
beyond those that are counted already, and whether there are line breaks among them. -/
def gapLength (counted : Nat) (inComment : Bool) : Text → Nat × Bool
  | [] => (counted, false)
  | c :: s =>
    if isBreak c then ((gapLength (counted + 1) false s).1, true)
    else if inComment || c = '#' then gapLength (counted + 1) true s
    else if c = ' ' then gapLength (counted + 1) false s
    else (counted, false)

/-- Goes on to the next token. A byte-order mark may come before the first one. -/
def goToToken (l : Lexer) : Except Fault Lexer := do
  let l := if l.index = 0 ∧ l.rest.head? = some '\uFEFF' then l.advance 1 else l
  let (length, broken) := gapLength 0 false l.rest
  let l := (l.advance length).allowKey (l.keyAllowed || (broken && l.depth = 0))
  if l.rest = [] then l.checkWhole
  let l ← l.dropStale
  return l.close (some l.column)

/-- Reads one more token, or the end of the text. -/
def fetch (l : Lexer) : Except Fault Lexer := do
  let l ← l.goToToken
  match l.rest with
  | [] => return { (← l.endDocument) with ended := true }
  | c :: s =>
    let l' ← (l.token c s).mapError (Fault.settled l.ending)
    if l'.rest = [] then l'.checkWhole
    return l'

/-- Tells whether more has to be read to know the next token: there is none, or it may
yet turn out to begin a key. Candidates that are too far away by now are forgotten. -/
def needsMore (l : Lexer) : Except Fault (Bool × Lexer) := do
  if l.ended then return (false, l)
  else if l.pending = [] then return (true, l)
  else
    let l ← l.dropStale
    return (l.candidates.any fun c => c.2.number == l.taken, l)

/-- Reads on until the next token is known. Each reading takes a character at least, or
comes to the end. -/
def readOn : Nat → Lexer → Except Fault Lexer
  | 0, _ => .error .invalid
  | fuel + 1, l => do
    let (needed, l) ← l.needsMore
    if needed then readOn fuel (← l.fetch) else return l

/-- The lexer at the start of a text. -/
def ofSource (s : Source) : Lexer :=
  { rest := s.text, left := s.text.length, ending := s.ending }

/-- The lexer when its next token is known. -/
def ready (l : Lexer) : Except Fault Lexer := do
  let (needed, l) ← l.needsMore
  if needed then l.readOn (l.left + 2) else return l

/-- The next token of a lexer that is ready; none at the end of the text. -/
def next? (l : Lexer) : Option Token := l.pending.head?

/-- The lexer after its next token. -/
def skip (l : Lexer) : Lexer := { l with pending := l.pending.tail, taken := l.taken + 1 }

end Lexer

end SourceNotes.Yaml
