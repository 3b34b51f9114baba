/-
Putting nodes together does no harm.

What goes wrong while nodes are put together is a fault of the text, or else its collections are
within one another too often. That takes many characters that can begin one: each level is paid for
with a character of its own.

* **`Build.Given`** — the states of a builder that has paid for a number of levels;
* **`Build.node_leads`** — a node comes of it, or a fault that can be found;
* **`Document.ofSource_ends`** — what can go wrong with a text as a whole.
-/
import SourceNotes.Proofs.Yaml.Tokens
import SourceNotes.Yaml.Node.OfSource

namespace SourceNotes.Yaml

/-- The faults that can come up while nodes are put together. -/
inductive Unbuilt (s : Text) (behind : Option Fault) : Fault → Prop
  | spotted {f : Fault} (h : Spotted s behind f) : Unbuilt s behind f
  /-- There are as many characters that can begin a collection. -/
  | depth (h : Build.maxDepth < s.countP isOpening) : Unbuilt s behind .depth

theorem Unbuilt.invalid {s : Text} {behind : Option Fault} : Unbuilt s behind .invalid :=
  .spotted .invalid

namespace Build

/-- The states of a builder that has paid for `k` levels of the text `s`. -/
def Given (s : Text) (behind : Option Fault) (k : Nat) (b : Builder) : Prop :=
  Lexer.At s behind k b.lexer

/-- A step of a builder that has paid for `k` levels before and for `n` of them after it. -/
abbrev Goes {α : Type} (s : Text) (behind : Option Fault) (k n : Nat) (x : Build α) : Prop :=
  Leads (Unbuilt s behind) (Given s behind k) x fun _ => Given s behind n

variable {α : Type} {s : Text} {behind : Option Fault} {k n depth fuel : Nat} {handles : Handles}
  {tok : Token}

theorem pure_goes (a : α) : Goes s behind k k (pure a) := Leads.pure fun _ h => h

theorem pure_mono (a : α) (hle : n ≤ k) : Goes s behind k n (pure a) :=
  Leads.pure fun _ h => h.mono hle

/-! ### Tokens -/

/-- The next token is known and not taken. -/
theorem next_leads : Leads (Unbuilt s behind) (Given s behind k) next fun tok? b =>
    Given s behind k b ∧ b.lexer.next? = tok? := by
  refine Leads.get.bind fun b₀ => ?_
  have hready : Leads (Unbuilt s behind) (fun b => Given s behind k b ∧ b₀ = b)
      (liftM b₀.lexer.ready) fun lexer _ => lexer.At s behind k :=
    .lift fun b hb => (Lexer.ready_ends (hb.2 ▸ hb.1)).imp (fun _ h => h) fun _ h => .spotted h
  refine hready.bind fun lexer => ?_
  refine (Leads.modify (P := fun b => b.lexer = lexer ∧ lexer.At s behind k)
    fun b h => ⟨rfl, h⟩).bind fun _ => ?_
  refine Leads.pure fun b h => ⟨?_, congrArg Lexer.next? h.1⟩
  show Lexer.At s behind k b.lexer
  exact h.1 ▸ h.2

theorem next_goes : Goes s behind k k next := next_leads.imp (fun _ h => h) fun _ _ h => h.1

theorem skip_leads : Leads (Unbuilt s behind)
    (fun b => Given s behind k b ∧ b.lexer.next? = some tok) skip
    fun _ => Given s behind (k + if tok.opens then 1 else 0) :=
  fun _ hb => hb.1.skip hb.2

theorem skip_goes : Goes s behind k k skip := by
  intro b hb
  show Lexer.At s behind k b.lexer.skip
  cases hnext : b.lexer.next? with
  | some tok => exact (hb.skip hnext).mono (Nat.le_add_right k _)
  | none =>
    have hempty : b.lexer.pending = [] := List.head?_eq_none_iff.1 hnext
    refine ⟨hb.suffix, hb.ending, ?_⟩
    have hpaid := hb.paid
    rw [hempty] at hpaid
    show k + b.lexer.pending.tail.countP Token.opens + _ ≤ _
    rw [hempty]
    exact hpaid

/-- A token that is left behind if it comes is paid for. -/
theorem skipIf_leads (tok : Token) : Leads (Unbuilt s behind) (Given s behind k) (skipIf tok)
    fun found => Given s behind (k + if found && tok.opens then 1 else 0) := by
  unfold skipIf
  refine next_leads.bind fun tok? => ?_
  by_cases hfound : tok? = some tok
  · subst hfound
    simp only [decide_true, if_true]
    exact skip_leads.bind fun _ => .pure fun b h => h
  · simp only [hfound, if_false]
    exact .pure fun b h => h.1

theorem skipIf_goes (tok : Token) : Goes s behind k k (skipIf tok) :=
  (skipIf_leads tok).imp (fun _ h => h) fun _ _ h => h.mono (Nat.le_add_right k _)

theorem expect_goes (tok : Token) : Goes s behind k k (expect tok) :=
  (skipIf_goes tok).bind fun _ => .ite (fun _ => .throw .invalid) fun _ => pure_goes _

theorem isNext_goes (ts : List Token) : Goes s behind k k (isNext ts) :=
  next_goes.bind fun _ => pure_goes _

/-! ### Nodes and anchors -/

/-- A step that leaves the tokens alone. -/
theorem Goes.modify {g : Builder → Builder} (hg : ∀ b, (g b).lexer = b.lexer) :
    Goes s behind k k (modify g) :=
  Leads.modify fun b hb => by
    rw [Given, hg]
    exact hb

theorem add_goes (tag : Tag) (shape : Node.Shape) : Goes s behind k k (add tag shape) :=
  Leads.get.bind fun _ => (Leads.modify (P := Given s behind k) fun _ h => h.1).bind
    fun _ => pure_goes _

theorem fill_goes (ref : Ref) (shape : Node.Shape) : Goes s behind k k (fill ref shape) :=
  .modify fun _ => rfl

theorem named_goes (name : Text) : Goes s behind k k (named name) := by
  refine Leads.get.bind fun b₀ => ?_
  split
  · exact .pure fun _ h => h.1
  · exact .throw .invalid

theorem remember_goes (anchor : Option Text) (ref : Ref) :
    Goes s behind k k (remember anchor ref) := by
  unfold remember
  split
  · exact pure_goes _
  · exact .modify fun _ => rfl

theorem anchor?_goes : Goes s behind k k anchor? := by
  refine next_goes.bind fun tok? => ?_
  split
  · exact skip_goes.bind fun _ => pure_goes _
  · exact pure_goes _

theorem tag?_goes : Goes s behind k k tag? := by
  refine next_goes.bind fun tok? => ?_
  split
  · exact skip_goes.bind fun _ => pure_goes _
  · exact pure_goes _

theorem tagName_goes (tag : Option Text × Text) : Goes s behind k k (tagName handles tag) := by
  unfold tagName
  split
  · exact pure_goes _
  split
  · exact pure_goes _
  · exact .throw .invalid

theorem properties_goes : Goes s behind k k (properties handles) := by
  refine anchor?_goes.bind fun first => ?_
  refine tag?_goes.bind fun tag => ?_
  have hname : Goes s behind k k (tag.mapM (tagName handles)) := by
    cases tag with
    | none => exact pure_goes none
    | some tag => exact (tagName_goes tag).map fun _ _ h => h
  extract_lets found
  have hfound : ∀ anchor, Goes s behind k k (found anchor) := fun anchor =>
    hname.bind fun _ => pure_goes _
  exact .ite (fun _ => anchor?_goes.bind hfound) fun _ => (pure_goes first).bind hfound

/-! ### Collections -/

/-- What has been paid for when a collection has begun. -/
def Opening.cost : Opening → Nat
  | .flowSequence | .flowMapping => 1
  | _ => 0

theorem Goes.mono {m : Nat} {x : Build α} (h : Goes s behind k n x) (hle : m ≤ n) :
    Goes s behind k m x :=
  h.imp (fun _ h => h) fun _ _ h => h.mono hle

/-- A node without parts. -/
theorem leaf_goes (anchor : Option Text) (tag : Tag) (shape : Node.Shape) :
    Goes s behind k k (do let ref ← add tag shape; remember anchor ref; return ref) :=
  (add_goes tag shape).bind fun ref => (remember_goes anchor ref).bind fun _ => pure_goes ref

/-- The token that begins a collection is paid for, if that costs something. -/
theorem open_leads {inBlock unindented : Bool} {begins : Option Token} {opening : Opening}
    (h : opening? inBlock unindented begins = some opening) :
    Leads (Unbuilt s behind) (fun b => Given s behind k b ∧ b.lexer.next? = begins) skip
      fun _ => Given s behind (k + opening.cost) := by
  have hfree : opening.cost = 0 → Leads (Unbuilt s behind)
      (fun b => Given s behind k b ∧ b.lexer.next? = begins) skip
      fun _ => Given s behind (k + opening.cost) := fun hcost => by
    rw [hcost]
    exact skip_goes.imp (fun _ h => h.1) fun _ _ h => h
  unfold opening? at h
  split at h
  · refine hfree ?_
    split at h <;> cases h
    rfl
  · cases h
    exact skip_leads
  · cases h
    exact skip_leads
  · refine hfree ?_
    split at h <;> cases h
    rfl
  · refine hfree ?_
    split at h <;> cases h
    rfl
  · cases h

/-- A node that is left out in some cases. -/
theorem part_goes {x : Build Ref} (stops : List Token) (h : Goes s behind k k x) :
    Goes s behind k k (do if ← isNext stops then addEmpty else x) :=
  (isNext_goes stops).bind fun _ => .ite (fun _ => add_goes _ _) fun _ => h

/-- All that reads nodes goes well with some fuel. The items of a block collection are paid for by
their marks, so its own level need not be. -/
structure Builds (s : Text) (behind : Option Fault) (handles : Handles) (fuel : Nat) : Prop where
  node {k depth : Nat} (inBlock unindented : Bool) (h : depth ≤ k) :
    Goes s behind k k (node handles inBlock unindented depth fuel)
  contents {k depth : Nat} (opening : Opening) (h : depth ≤ k) :
    Goes s behind (k + opening.cost) k (contents handles opening depth fuel)
  items {k depth : Nat} (unindented : Bool) (h : depth ≤ k + 1) :
    Goes s behind k k (items handles unindented depth fuel)
  entries {k depth : Nat} (h : depth ≤ k + 1) : Goes s behind k k (entries handles depth fuel)
  flowItems {k depth : Nat} (first : Bool) (h : depth ≤ k) :
    Goes s behind k k (flowItems handles first depth fuel)
  flowEntries {k depth : Nat} (first : Bool) (h : depth ≤ k) :
    Goes s behind k k (flowEntries handles first depth fuel)

namespace Builds

theorem contents_succ (ih : Builds s behind handles fuel) (opening : Opening) (h : depth ≤ k) :
    Goes s behind (k + opening.cost) k (Build.contents handles opening depth (fuel + 1)) := by
  unfold Build.contents
  cases opening with
  | unindentedSequence => exact (ih.items true (Nat.succ_le_succ h)).map fun _ _ h => h
  | blockSequence => exact (ih.items false (Nat.succ_le_succ h)).map fun _ _ h => h
  | blockMapping => exact (ih.entries (Nat.succ_le_succ h)).map fun _ _ h => h
  | flowSequence =>
    exact ((ih.flowItems true (Nat.succ_le_succ h)).mono (Nat.le_succ k)).map fun _ _ h => h
  | flowMapping =>
    exact ((ih.flowEntries true (Nat.succ_le_succ h)).mono (Nat.le_succ k)).map fun _ _ h => h

theorem items_succ (ih : Builds s behind handles fuel) (unindented : Bool) (h : depth ≤ k + 1) :
    Goes s behind k k (Build.items handles unindented depth (fuel + 1)) := by
  unfold Build.items
  refine (skipIf_leads .item).bind fun found => ?_
  cases found with
  | true =>
    -- The hyphen pays for the level of the item.
    have hrest : ∀ item : Ref, Goes s behind (k + 1) k
        (do return item :: (← Build.items handles unindented depth fuel)) := fun item =>
      (ih.items unindented (Nat.le_succ_of_le h)).bind fun _ => pure_mono _ (Nat.le_succ k)
    exact (isNext_goes _).bind fun _ => .ite (fun _ => (add_goes _ _).bind hrest)
      fun _ => (ih.node true false h).bind hrest
  | false =>
    have hlast : Goes s behind k k (pure [] : Build (List Ref)) := pure_goes []
    refine .ite (fun hfalse => nomatch hfalse) fun _ => ?_
    exact .ite (fun _ => (expect_goes .blockEnd).bind fun _ => hlast) fun _ => hlast

theorem entries_succ (ih : Builds s behind handles fuel) (h : depth ≤ k + 1) :
    Goes s behind k k (Build.entries handles depth (fuel + 1)) := by
  unfold Build.entries
  extract_lets part
  have hpart : Goes s behind (k + 1) (k + 1) part := part_goes _ (ih.node true true h)
  refine (skipIf_leads .key).bind fun found => ?_
  cases found with
  | true =>
    refine hpart.bind fun key => ?_
    have hrest : ∀ value : Ref, Goes s behind (k + 1) k
        (do return (key, value) :: (← Build.entries handles depth fuel)) := fun value =>
      (ih.entries (Nat.le_succ_of_le h)).bind fun _ => pure_mono _ (Nat.le_succ k)
    exact (skipIf_goes .value).bind fun _ => .ite (fun _ => hpart.bind hrest)
      fun _ => (add_goes _ _).bind hrest
  | false => exact (expect_goes .blockEnd).bind fun _ => pure_goes _

theorem flowItems_succ (ih : Builds s behind handles fuel) (first : Bool) (h : depth ≤ k) :
    Goes s behind k k (Build.flowItems handles first depth (fuel + 1)) := by
  unfold Build.flowItems
  have hrest : ∀ item : Ref, Goes s behind k k
      (do return item :: (← Build.flowItems handles false depth fuel)) := fun item =>
    (ih.flowItems false h).bind fun _ => pure_goes _
  refine (skipIf_goes .flowSequenceEnd).bind fun _ => .ite (fun _ => pure_goes _) fun _ => ?_
  extract_lets part rest next
  have hnext : Goes s behind k k (next ()) := by
    refine (skipIf_goes .flowSequenceEnd).bind fun _ => .ite (fun _ => pure_goes _) fun _ => ?_
    -- The key pays for the mapping of one entry.
    have hpart : ∀ stops, Goes s behind (k + 1) (k + 1) (part stops) := fun stops =>
      part_goes stops (ih.node false false (Nat.succ_le_succ h))
    refine (skipIf_leads .key).bind fun found => ?_
    cases found with
    | true =>
      refine (add_goes _ _).bind fun ref => ?_
      refine (hpart _).bind fun key => ?_
      have hvalue : ∀ value : Ref, Goes s behind (k + 1) k
          (do fill ref (.mapping [(key, value)]); rest (← pure ref)) := fun value =>
        ((fill_goes _ _).mono (Nat.le_succ k)).bind fun _ => hrest ref
      exact (skipIf_goes .value).bind fun _ => .ite (fun _ => (hpart _).bind hvalue)
        fun _ => (add_goes _ _).bind hvalue
    | false => exact (ih.node false false h).bind hrest
  exact .ite (fun _ => (expect_goes .comma).bind fun _ => hnext) fun _ => hnext

theorem flowEntries_succ (ih : Builds s behind handles fuel) (first : Bool) (h : depth ≤ k) :
    Goes s behind k k (Build.flowEntries handles first depth (fuel + 1)) := by
  unfold Build.flowEntries
  have hrest : ∀ entry : Ref × Ref, Goes s behind k k
      (do return entry :: (← Build.flowEntries handles false depth fuel)) := fun entry =>
    (ih.flowEntries false h).bind fun _ => pure_goes _
  refine (skipIf_goes .flowMappingEnd).bind fun _ => .ite (fun _ => pure_goes _) fun _ => ?_
  extract_lets part rest next
  have hnext : Goes s behind k k (next ()) := by
    refine (skipIf_goes .flowMappingEnd).bind fun _ => .ite (fun _ => pure_goes _) fun _ => ?_
    have hpart : ∀ stops, Goes s behind k k (part stops) := fun stops =>
      part_goes stops (ih.node false false h)
    refine (skipIf_goes .key).bind fun _ => .ite (fun _ => ?_) fun _ => ?_
    · refine (hpart _).bind fun key => ?_
      exact (skipIf_goes .value).bind fun _ =>
        .ite (fun _ => (hpart _).bind fun value => hrest (key, value))
          fun _ => (add_goes _ _).bind fun value => hrest (key, value)
    · exact (ih.node false false h).bind fun key => (add_goes _ _).bind fun value =>
        hrest (key, value)
  exact .ite (fun _ => (expect_goes .comma).bind fun _ => hnext) fun _ => hnext

/-- A collection is made from its contents, which have paid for its beginning. -/
theorem collection_goes (ih : Builds s behind handles fuel) (opening : Opening) (h : depth ≤ k)
    (anchor : Option Text) (tag : Tag) (shape : Node.Shape) :
    Goes s behind (k + opening.cost) k (do
      let ref ← add tag shape
      remember anchor ref
      fill ref (← Build.contents handles opening depth fuel)
      return ref) :=
  (add_goes tag shape).bind fun ref => (remember_goes anchor ref).bind fun _ =>
    (ih.contents opening h).bind fun contents => (fill_goes ref contents).bind fun _ =>
      pure_goes ref

theorem node_succ (ih : Builds s behind handles fuel) (inBlock unindented : Bool) (h : depth ≤ k) :
    Goes s behind k k (Build.node handles inBlock unindented depth (fuel + 1)) := by
  unfold Build.node
  extract_lets start
  refine .ite (fun hdeep b hb => .depth ?_) fun _ => ?_
  · have hpaid := hb.paid
    omega
  show Goes s behind k k (start ())
  unfold start
  refine next_goes.bind fun tok? => ?_
  split
  · exact skip_goes.bind fun _ => named_goes _
  refine properties_goes.bind fun found => ?_
  split
  next anchor tag =>
  refine next_leads.bind fun begins => ?_
  extract_lets opening isMissing go make begin
  have hopening : opening? inBlock unindented begins = opening := rfl
  clear_value opening
  -- A scalar is left behind before its node is made, a collection is not.
  have hgo : Leads (Unbuilt s behind)
      (fun b => Given s behind k b ∧ (opening ≠ none → b.lexer.next? = begins)) (go ())
      fun _ => Given s behind k := by
    unfold go
    split
    · next opening =>
      extract_lets collect
      have hcollect : Goes s behind (k + opening.cost) k (collect ()) :=
        ih.collection_goes opening h anchor _ _
      refine .ite (fun _ => ?_) fun hlone => ?_
      · refine ((open_leads hopening).imp (fun _ h => ?_) fun _ _ h => h).bind fun _ => hcollect
        exact ⟨h.1, h.2 (Option.some_ne_none opening)⟩
      · have hcost : opening.cost = 0 := by
          cases opening with
          | unindentedSequence => rfl
          | _ => exact absurd rfl hlone
        rw [hcost] at hcollect
        exact hcollect.imp (fun _ h => h.1) fun _ _ h => h
    · exact (leaf_goes anchor _ _).imp (fun _ h => h.1) fun _ _ h => h
    · exact (leaf_goes anchor _ _).imp (fun _ h => h.1) fun _ _ h => h
  have hmake : Leads (Unbuilt s behind)
      (fun b => Given s behind k b ∧ (opening ≠ none → b.lexer.next? = begins)) (make ())
      fun _ => Given s behind k := by
    refine Leads.get.bind fun b₀ => .refuse (fun _ => .invalid) fun _ => ?_
    exact hgo.imp (fun _ h => h.1) fun _ _ h => h
  refine .refuse (fun _ => .invalid) fun _ => ?_
  show Leads _ _ (begin ()) _
  unfold begin
  split
  · have hnone : opening = none := hopening.symm
    refine (skip_goes.imp (fun _ h => h.1) fun _ _ h => ?_).bind fun _ => hmake
    exact ⟨h, fun hsome => absurd hnone hsome⟩
  · exact hmake.imp (fun _ h => ⟨h.1, fun _ => h.2⟩) fun _ _ h => h

end Builds

/-- With any fuel all goes well; without any the text is no YAML. -/
theorem builds (s : Text) (behind : Option Fault) (handles : Handles) (fuel : Nat) :
    Builds s behind handles fuel := by
  induction fuel with
  | zero => constructor <;> intros <;> exact Leads.throw .invalid
  | succ fuel ih =>
    exact ⟨ih.node_succ, ih.contents_succ, ih.items_succ, ih.entries_succ, ih.flowItems_succ,
      ih.flowEntries_succ⟩

theorem node_goes (inBlock unindented : Bool) (fuel : Nat) :
    Goes s behind k k (node handles inBlock unindented 0 fuel) :=
  (builds s behind handles fuel).node inBlock unindented (Nat.zero_le k)

/-! ### The whole text -/

theorem directives_goes (versionSeen : Bool) (handles : Handles) (fuel : Nat) :
    Goes s behind k k (directives versionSeen handles fuel) := by
  induction fuel generalizing versionSeen handles with
  | zero => exact .throw .invalid
  | succ fuel ih =>
    refine next_goes.bind fun tok? => ?_
    split
    · refine skip_goes.bind fun _ => ?_
      split
      · exact .refuse (fun _ => .invalid) fun _ => ih true handles
      · exact .refuse (fun _ => .invalid) fun _ => ih versionSeen _
      · exact ih versionSeen handles
    · exact pure_goes _

theorem skipEnds_goes (fuel : Nat) : Goes s behind k k (skipEnds fuel) := by
  induction fuel with
  | zero => exact .throw .invalid
  | succ fuel ih =>
    exact (skipIf_goes .documentEnd).bind fun _ => .ite (fun _ => ih) fun _ => pure_goes ()

theorem finish_goes (fuel : Nat) : Goes s behind k k (finish fuel) := by
  refine (skipEnds_goes fuel).bind fun _ => ?_
  refine next_goes.bind fun tok? => ?_
  refine .ite (fun _ => ?_) fun _ => pure_goes ()
  exact (directives_goes false [] fuel).bind fun _ => .throw .invalid

theorem whole_goes (fuel : Nat) : Goes s behind k k (whole fuel) := by
  have hfinish : ∀ root : Ref, Goes s behind k k (do finish fuel; return some root) := fun root =>
    (finish_goes fuel).bind fun _ => pure_goes (some root)
  have hmarked (isEmpty : Option Token → Bool) : Goes s behind k k (do
      let handles ← directives false [] fuel
      expect .documentStart
      let root ← if isEmpty (← next) then addEmpty else node handles true false 0 fuel
      finish fuel
      return some root) := by
    refine (directives_goes false [] fuel).bind fun handles => ?_
    refine (expect_goes .documentStart).bind fun _ => ?_
    refine next_goes.bind fun tok? => ?_
    exact .ite (fun _ => (add_goes _ _).bind hfinish)
      fun _ => (node_goes true false fuel).bind hfinish
  refine next_goes.bind fun tok? => ?_
  split
  · exact pure_goes none
  · exact hmarked _
  · exact hmarked _
  · exact (node_goes true false fuel).bind hfinish

end Build

/-- A text of nodes is put together, or a fault comes up that can be found in it. -/
theorem Document.ofSource_ends (source : Source) :
    EndsIn (fun _ => True) (Unbuilt source.text source.ending) (Document.ofSource source) := by
  unfold Document.ofSource
  have hstart : Build.Given source.text source.ending 0 { lexer := .ofSource source } :=
    Lexer.at_ofSource source
  exact (Build.whole_goes _ _ hstart).bind fun _ _ => trivial

end SourceNotes.Yaml
