/-
The segments of a source text.

Seen from its comments, a source text is a sequence of segments: stretches of
code, string literals and comments. Each kind of segment is read by repeating
one decision about the place of the head.

* **`opening`** — what begins at a place in code. Of several beginnings the
  longest wins; among equally long ones a block comment wins, and a line comment
  together with a string is decided by what follows;
* **`codeStep`**, **`lineStep`**, **`stringStep`**, **`blockStep`**,
  **`lineOrStringStep`** — the decision inside each kind of segment.
-/
import SourceNotes.Comment.Basic
import SourceNotes.Comment.Head

namespace SourceNotes

/-- The runes that are skipped together in a string with the end `stop`, or none
if nothing is escaped here. -/
def Escape.unit (e : Escape) (stop : Text) : Reading Text :=
  match e with
  | .none => pure []
  | .char c => do
    let s ← Reader.look (c :: stop).length
    if s = c :: stop then return s
    -- An escaped escape character must not hide the end of the string.
    else if stop.head? = some c then return []
    else
      let s ← Reader.look 2
      return if s = [c, c] then s else []
  | .double => do
    let s ← Reader.look (stop ++ stop).length
    return if s = stop ++ stop then s else []

/-- What begins at a place in code. -/
inductive Opening where
  | line (rule : LineRule)
  | string (rule : StringRule)
  | block (rule : BlockRule)
  /-- A line comment, unless the string that begins here too ends on the line. -/
  | lineOrString (line : LineRule) (string : StringRule)
  deriving DecidableEq, Repr

namespace Opening

/-- The delimiter that stands at the place. -/
def start : Opening → Text
  | .line rule => rule.start
  | .string rule => rule.start
  | .block rule => rule.start
  | .lineOrString rule _ => rule.start

/-- The length of the longest beginning found so far. -/
def size : Option Opening → Nat
  | none => 0
  | some o => o.start.length

end Opening

open Head

/-- Whether the delimiters of a block comment count at this place. -/
def BlockRule.gateOpen (rule : BlockRule) (h : Head) : Bool :=
  (!rule.atFirstColumn || h.reader.position.column == 0) && (!rule.atLineStart || h.atLineStart)

/-- Looks whether a line comment begins here, longer than what was found. -/
def tryLine (found : Option Opening) (rule : LineRule) : Scan (Option Opening) :=
  if rule.start.length ≤ Opening.size found then pure found
  else do return if ← sees rule.start then some (.line rule) else found

/-- Looks whether a string begins here, longer than what was found or the same
as a line comment that was. -/
def tryString (found : Option Opening) (rule : StringRule) : Scan (Option Opening) :=
  if rule.start.length < Opening.size found then pure found
  else do
    if ← sees rule.start then
      if Opening.size found < rule.start.length then return some (.string rule)
      else
        match found with
        | some (.line line) => return some (.lineOrString line rule)
        | _ => return found
    else return found

/-- Whether a block comment cannot win against what was found: an equally long
beginning stands only if it is a block comment itself. -/
def BlockRule.beatenBy (rule : BlockRule) : Option Opening → Bool
  | some (.block other) => rule.start.length ≤ other.start.length
  | found => rule.start.length < Opening.size found

/-- Looks whether a block comment begins here and wins against what was found. -/
def tryBlock (found : Option Opening) (rule : BlockRule) : Scan (Option Opening) := do
  if rule.beatenBy found then return found
  else if rule.gateOpen (← get) then
    return if ← sees rule.start then some (.block rule) else found
  else return found

/-- What begins at the place of the head. -/
def opening (rules : Rules) : Scan (Option Opening) := do
  let found ← rules.lines.foldlM tryLine none
  let found ← rules.strings.foldlM tryString found
  rules.blocks.foldlM tryBlock found

/-- In code: skip a rune, or move over the start of what begins here. The answer
has the line on which it begins. -/
def codeStep (rules : Rules) (_ : Unit) : Scan (Decision Unit (Opening × Nat)) := do
  match ← opening rules with
  | none => return .more 1 ()
  | some o => return .last o.start.length (o, (← get).reader.position.line)

/-- Whether the line ends at the head. -/
def atLineEnd : Scan Bool := do
  let s ← look 2
  return s.head? = none ∨ s.head? = some '\n' ∨ s = ['\r', '\n']

/-- In a line comment: go on to the end of the line. -/
def lineStep (_ : Unit) : Scan (Decision Unit Unit) := do
  if ← atLineEnd then return .stop () else return .more 1 ()

/-- In a block comment, `depth + 1` starts of which are open. -/
def blockStep (rule : BlockRule) (depth : Nat) : Scan (Decision Nat Unit) := do
  if rule.gateOpen (← get) then
    if ← sees rule.stop then
      match depth with
      | 0 => return .last rule.stop.length ()
      | depth + 1 => return .more rule.stop.length depth
    else if rule.nested then
      if ← sees rule.start then return .more rule.start.length (depth + 1)
      else return .more 1 depth
    else return .more 1 depth
  else return .more 1 depth

/-- In a string: skip an escaped unit, end at the end delimiter, or go on. -/
def stringStep (rule : StringRule) (_ : Unit) : Scan (Decision Unit Unit) := do
  let skipped ← ask (rule.escape.unit rule.stop)
  if skipped ≠ [] then return .more skipped.length ()
  else if ← sees rule.stop then return .last rule.stop.length ()
  else return .more 1 ()

/-- After a delimiter that opens a line comment and a string: the string wins if
it ends on the line. The answer tells whether it was a comment. -/
def lineOrStringStep (rule : StringRule) (_ : Unit) : Scan (Decision Unit Bool) := do
  if ← atLineEnd then return .stop true
  else
    let skipped ← ask (rule.escape.unit rule.stop)
    if skipped ≠ [] then return .more skipped.length ()
    else if ← sees rule.stop then return .last rule.stop.length false
    else return .more 1 ()

/-! ### Deciding moves nothing -/

theorem remaining_unit_le (e : Escape) (stop : Text) (r : Reader) :
    (stateOf (e.unit stop r)).remaining ≤ r.remaining := by
  have bind_le {α β : Type} {m : Reading α} {f : α → Reading β}
      (hm : ∀ r, (stateOf (m r)).remaining ≤ r.remaining)
      (hf : ∀ a r, (stateOf (f a r)).remaining ≤ r.remaining) (r : Reader) :
      (stateOf ((m >>= f) r)).remaining ≤ r.remaining := by
    have h₁ := hm r
    show (stateOf (EStateM.bind m f r)).remaining ≤ r.remaining
    unfold EStateM.bind
    split
    · next a r' heq => rw [heq] at h₁; exact Nat.le_trans (hf a r') h₁
    · next e r' heq => rw [heq] at h₁; exact h₁
  cases e with
  | none => exact Nat.le_refl _
  | char c =>
    refine bind_le (Reader.remaining_look_le _) (fun s r => ?_) r
    split
    · exact Nat.le_refl _
    · split
      · exact Nat.le_refl _
      · exact bind_le (Reader.remaining_look_le _) (fun s r => Nat.le_refl _) r
  | double => exact bind_le (Reader.remaining_look_le _) (fun s r => Nat.le_refl _) r

theorem peeks_unit (e : Escape) (stop : Text) : Peeks (ask (e.unit stop)) :=
  peeks_ask (remaining_unit_le e stop)

theorem peeks_tryLine (found : Option Opening) (rule : LineRule) : Peeks (tryLine found rule) := by
  unfold tryLine
  split
  · exact peeks_pure _
  · exact peeks_bind (peeks_sees _) fun _ => peeks_pure _

theorem peeks_tryString (found : Option Opening) (rule : StringRule) :
    Peeks (tryString found rule) := by
  unfold tryString
  split
  · exact peeks_pure _
  · refine peeks_bind (peeks_sees _) fun seen => ?_
    split
    · split
      · exact peeks_pure _
      · split <;> exact peeks_pure _
    · exact peeks_pure _

theorem peeks_tryBlock (found : Option Opening) (rule : BlockRule) :
    Peeks (tryBlock found rule) := by
  unfold tryBlock
  split
  · exact peeks_pure _
  · refine peeks_bind peeks_get fun h => ?_
    split
    · exact peeks_bind (peeks_sees _) fun _ => peeks_pure _
    · exact peeks_pure _

theorem peeks_opening (rules : Rules) : Peeks (opening rules) :=
  peeks_bind (peeks_foldlM peeks_tryLine _ _) fun _ =>
    peeks_bind (peeks_foldlM peeks_tryString _ _) fun _ => peeks_foldlM peeks_tryBlock _ _

theorem peeks_codeStep (rules : Rules) (u : Unit) : Peeks (codeStep rules u) := by
  refine peeks_bind (peeks_opening rules) fun found => ?_
  split
  · exact peeks_pure _
  · exact peeks_bind peeks_get fun _ => peeks_pure _

theorem peeks_atLineEnd : Peeks atLineEnd := peeks_bind (peeks_look _) fun _ => peeks_pure _

theorem peeks_lineStep (u : Unit) : Peeks (lineStep u) := by
  refine peeks_bind peeks_atLineEnd fun ends => ?_
  split <;> exact peeks_pure _

theorem peeks_blockStep (rule : BlockRule) (depth : Nat) : Peeks (blockStep rule depth) := by
  refine peeks_bind peeks_get fun h => ?_
  split
  · refine peeks_bind (peeks_sees _) fun stops => ?_
    split
    · split <;> exact peeks_pure _
    · split
      · refine peeks_bind (peeks_sees _) fun starts => ?_
        split <;> exact peeks_pure _
      · exact peeks_pure _
  · exact peeks_pure _

theorem peeks_stringStep (rule : StringRule) (u : Unit) : Peeks (stringStep rule u) := by
  refine peeks_bind (peeks_unit _ _) fun skipped => ?_
  split
  · exact peeks_pure _
  · refine peeks_bind (peeks_sees _) fun stops => ?_
    split <;> exact peeks_pure _

theorem peeks_lineOrStringStep (rule : StringRule) (u : Unit) :
    Peeks (lineOrStringStep rule u) := by
  refine peeks_bind peeks_atLineEnd fun ends => ?_
  split
  · exact peeks_pure _
  · refine peeks_bind (peeks_unit _ _) fun skipped => ?_
    split
    · exact peeks_pure _
    · refine peeks_bind (peeks_sees _) fun stops => ?_
      split <;> exact peeks_pure _

end SourceNotes
