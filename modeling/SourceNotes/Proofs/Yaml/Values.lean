/-
Making values comes to an end.

The value of a node is made as its tag says, and what can go wrong is that its text has no value
under its tag. Mappings take over the entries of others before they are made. Each merge is left out
before what it takes over is looked at and none comes back, so that also mappings that take over one
another are done with.

* **`Make.Of`** — what becomes of a document while its values are made;
* **`Make.takeOver_leads`** — taking over entries comes to an end;
* **`Document.contents_ends`** — what can go wrong with the values of a document.
-/
import Mathlib.Algebra.Ring.Nat
import Mathlib.Data.List.TakeWhile
import SourceNotes.Proofs.Yaml.Nodes
import SourceNotes.Yaml.Value

namespace SourceNotes.Yaml

/-- What can go wrong with the values of the nodes of a document. -/
inductive Unmade (d : Array Node) : Fault → Prop
  | invalid : Unmade d .invalid
  /-- A text has no value under the tag of its node, or of a mapping that it is the default value
  of. -/
  | text {n n' : Node} {c : Codes} {f : Fault} (hn : n ∈ d) (hn' : n' ∈ d)
      (hshape : n'.shape = .scalar c) (hwhose : n' = n ∨ ∃ entries, n.shape = .mapping entries)
      (hfault : Atom.ofText n.tag c = .error f) : Unmade d f
  /-- A mapping is tagged as a time. -/
  | timeOfMapping {n : Node} {entries : List (Ref × Ref)} (hn : n ∈ d)
      (htag : n.tag = .scalar .time) (hshape : n.shape = .mapping entries) : Unmade d .timeOfMapping
  /-- A mapping is tagged as what has no parts, and there is the mark of a default value. -/
  | depth {n n' : Node} {entries : List (Ref × Ref)} (hn : n ∈ d) (hn' : n' ∈ d)
      (hshape : n.shape = .mapping entries) (htag : n.tag = .binary ∨ ∃ kind, n.tag = .scalar kind)
      (hmark : n'.tag = .scalar .default) : Unmade d .depth

namespace Make

/-! ### What becomes of a document -/

/-- Whether a node can have become another one: the entries of a mapping may have changed, and the
mark of a default value may have become a text. -/
structure Becomes (n₀ n : Node) : Prop where
  tag : n.tag = n₀.tag ∨ (n₀.tag = .scalar .default ∧ n.tag = .scalar .text)
  shape : n.shape = n₀.shape ∨
    ∃ entries₀ entries, n₀.shape = .mapping entries₀ ∧ n.shape = .mapping entries

/-- The number of merges in all nodes, which are told by their tags in the document `d`. -/
def weight (d nodes : Array Node) : Nat := (nodes.toList.map (Node.merges d)).sum

/-- What can have become of the nodes of a document `d`, with at most `w` merges left. -/
structure Of (d : Array Node) (bound w : Nat) (m : Maker) : Prop where
  size : m.nodes.size = d.size
  becomes {ref : Ref} {n : Node} (h : m.nodes[ref]? = some n) :
    ∃ n₀, d[ref]? = some n₀ ∧ Becomes n₀ n
  weight_le : weight d m.nodes ≤ w
  merges : m.merges = bound

variable {d : Array Node} {bound w v : Nat} {m : Maker} {ref : Ref} {n n₀ : Node}
  {entries : List (Ref × Ref)} {key : Ref}

theorem Becomes.refl (n : Node) : Becomes n n := ⟨.inl rfl, .inl rfl⟩

/-- Merges are told in the same way as at first. -/
theorem Of.hasTag_merge (h : Of d bound w m) (ref : Ref) :
    hasTag m.nodes (.scalar .merge) ref = hasTag d (.scalar .merge) ref := by
  unfold hasTag
  cases hn : m.nodes[ref]? with
  | none =>
    have hout : d[ref]? = none := by
      rw [Array.getElem?_eq_none_iff, ← h.size]
      exact Array.getElem?_eq_none_iff.1 hn
    rw [hout]
  | some n =>
    obtain ⟨n₀, hn₀, hbecomes⟩ := h.becomes hn
    rw [hn₀]
    obtain htag | ⟨hdefault, htext⟩ := hbecomes.tag
    · rw [Option.any_some, Option.any_some, htag]
    · rw [Option.any_some, Option.any_some, htext, hdefault]
      rfl

/-- A default value is told by a mark that was one at first. -/
theorem Of.exists_default (h : Of d bound w m)
    (hkey : hasTag m.nodes (.scalar .default) key = true) : ∃ n ∈ d, n.tag = .scalar .default := by
  unfold hasTag at hkey
  obtain ⟨n, hn, htag⟩ := (Option.any_eq_true _ _).1 hkey
  obtain ⟨n₀, hn₀, hbecomes⟩ := h.becomes hn
  rw [beq_iff_eq] at htag
  refine ⟨n₀, Array.mem_of_getElem? hn₀, ?_⟩
  obtain hsame | ⟨hdefault, -⟩ := hbecomes.tag
  · exact hsame.symm.trans htag
  · exact hdefault

theorem sum_map_modify {α : Type} (g : α → Nat) (f : α → α) {l : List α} {i : Nat} {a : α}
    (h : l[i]? = some a) : ((l.modify i f).map g).sum + g a = (l.map g).sum + g (f a) := by
  induction l generalizing i with
  | nil => cases h
  | cons b l ih =>
    cases i with
    | zero =>
      cases h
      simp
      omega
    | succ i =>
      have := ih h
      simp
      omega

theorem weight_modify (f : Node → Node) {nodes : Array Node} (h : nodes[ref]? = some n) :
    weight d (nodes.modify ref f) + n.merges d = weight d nodes + (f n).merges d := by
  unfold weight
  rw [Array.toList_modify]
  exact sum_map_modify _ f (by rwa [Array.getElem?_toList])

theorem modify_of_none (f : Node → Node) {nodes : Array Node} (h : nodes[ref]? = none) :
    nodes.modify ref f = nodes := by
  refine Array.ext_getElem? fun i => ?_
  rw [Array.getElem?_modify]
  split
  · next heq => rw [← heq, h, Option.map_none]
  · rfl

/-- A node becomes another one. -/
theorem Of.changeNode (h : Of d bound w m) (f : Node → Node) (hn : m.nodes[ref]? = some n)
    (hbecomes : ∀ n₀, Becomes n₀ n → Becomes n₀ (f n))
    (hle : weight d m.nodes + (f n).merges d ≤ v + n.merges d) :
    Of d bound v { m with nodes := m.nodes.modify ref f } where
  size := by rw [Array.size_modify, h.size]
  becomes {i n'} hn' := by
    dsimp only at hn'
    rw [Array.getElem?_modify] at hn'
    split at hn'
    · next heq =>
      subst heq
      rw [hn, Option.map_some, Option.some.injEq] at hn'
      subst hn'
      obtain ⟨n₀, hn₀, hbecomes₀⟩ := h.becomes hn
      exact ⟨n₀, hn₀, hbecomes n₀ hbecomes₀⟩
    · exact h.becomes hn'
  weight_le := by
    have hweight := weight_modify (d := d) f hn
    dsimp only
    omega
  merges := h.merges

/-! ### Taking over entries -/

/-- Whether no entry is a merge. -/
def Own (d : Array Node) (entries : List (Ref × Ref)) : Prop :=
  ∀ e ∈ entries, hasTag d (.scalar .merge) e.1 = false

/-- Whether a mapping has no merges. -/
def Owns (d : Array Node) (ref : Ref) (m : Maker) : Prop :=
  ∃ n entries, m.nodes[ref]? = some n ∧ n.shape = .mapping entries ∧ Own d entries

/-- The number of merges among entries. -/
def mergesIn (d : Array Node) (entries : List (Ref × Ref)) : Nat :=
  entries.countP fun e => hasTag d (.scalar .merge) e.1

theorem merges_eq (hshape : n.shape = .mapping entries) : n.merges d = mergesIn d entries := by
  unfold Node.merges mergesIn
  rw [hshape, List.countP_eq_length_filter]

theorem mergesIn_append (entries others : List (Ref × Ref)) :
    mergesIn d (entries ++ others) = mergesIn d entries + mergesIn d others :=
  List.countP_append

theorem Own.mergesIn_eq (h : Own d entries) : mergesIn d entries = 0 := by
  refine List.countP_eq_zero.2 fun e he => ?_
  rw [h e he]
  exact Bool.false_ne_true

/-- Leaving the first merge out makes one less. -/
theorem mergesIn_of_dropWhile {isOwn : Ref × Ref → Bool} {e : Ref × Ref}
    {others : List (Ref × Ref)} (hown : ∀ e, isOwn e = !hasTag d (.scalar .merge) e.1)
    (h : entries.dropWhile isOwn = e :: others) :
    mergesIn d (entries.takeWhile isOwn ++ others) + 1 = mergesIn d entries := by
  have he : hasTag d (.scalar .merge) e.1 = true := by
    have hhead := List.head?_dropWhile_not isOwn entries
    rw [h, List.head?_cons] at hhead
    simpa [hown] using hhead
  have hone : mergesIn d (e :: others) = mergesIn d others + 1 := by
    unfold mergesIn
    rw [List.countP_cons, if_pos he]
  have hparts := congrArg (mergesIn d)
    (List.takeWhile_append_dropWhile (p := isOwn) (l := entries))
  rw [h, mergesIn_append, hone] at hparts
  rw [mergesIn_append]
  omega

theorem nodeAt_leads {pre : Maker → Prop} (ref : Ref) :
    Leads (Unmade d) pre (nodeAt ref) fun n m => pre m ∧ m.nodes[ref]? = some n := by
  refine Leads.get.bind fun m₀ => ?_
  split
  · next n hn => exact .pure fun m hm => ⟨hm.1, hm.2 ▸ hn⟩
  · exact .throw .invalid

theorem entriesOf_leads {pre : Maker → Prop} (ref : Ref) :
    Leads (Unmade d) pre (entriesOf ref) fun entries m =>
      pre m ∧ ∃ n, m.nodes[ref]? = some n ∧ n.shape = .mapping entries := by
  refine (nodeAt_leads ref).bind fun n => ?_
  split
  · next entries hshape => exact .pure fun m hm => ⟨hm.1, n, hm.2, hshape⟩
  · exact .throw .invalid

/-- The entries of a mapping are replaced, and the number of merges changes accordingly. -/
theorem setEntries_leads {old : List (Ref × Ref)} (entries : List (Ref × Ref))
    (hle : w + mergesIn d entries ≤ v + mergesIn d old) :
    Leads (Unmade d)
      (fun m => Of d bound w m ∧ ∃ n, m.nodes[ref]? = some n ∧ n.shape = .mapping old)
      (setEntries ref entries)
      fun _ m => Of d bound v m ∧ ∃ n, m.nodes[ref]? = some n ∧ n.shape = .mapping entries := by
  refine Leads.modify fun m hm => ?_
  obtain ⟨h, n, hn, hshape⟩ := hm
  have hnew := merges_eq (d := d) (n := { n with shape := .mapping entries }) rfl
  have hold := merges_eq (d := d) hshape
  have hweight := h.weight_le
  refine ⟨h.changeNode _ hn (fun n₀ hbecomes => ⟨hbecomes.tag, .inr ?_⟩) ?_,
    { n with shape := .mapping entries }, ?_, rfl⟩
  · obtain hsame | ⟨entries₀, _, hmapping, -⟩ := hbecomes.shape
    · exact ⟨old, entries, hsame.symm.trans hshape, rfl⟩
    · exact ⟨entries₀, entries, hmapping, rfl⟩
  · rw [hnew, hold]
    omega
  · dsimp only
    rw [Array.getElem?_modify, if_pos rfl, hn, Option.map_some]

/-- The mark of a default value becomes a text, and no shape changes. -/
theorem changeMark_leads (key : Ref) :
    Leads (Unmade d)
      (fun m => Of d bound w m ∧ ∃ n, m.nodes[ref]? = some n ∧ n.shape = .mapping entries)
      (changeNode key fun n =>
        { n with tag := if n.tag = .scalar .default then .scalar .text else n.tag })
      fun _ m => Of d bound w m ∧ ∃ n, m.nodes[ref]? = some n ∧ n.shape = .mapping entries := by
  refine Leads.modify fun m hm => ?_
  obtain ⟨h, n, hn, hshape⟩ := hm
  constructor
  · cases hkey : m.nodes[key]? with
    | none =>
      rw [modify_of_none _ hkey]
      exact h
    | some n' =>
      refine h.changeNode _ hkey (fun n₀ hbecomes => ⟨?_, hbecomes.shape⟩) ?_
      · dsimp only
        split
        · next hdefault =>
          obtain hsame | ⟨-, htext⟩ := hbecomes.tag
          · exact .inr ⟨hsame.symm.trans hdefault, rfl⟩
          · exact absurd (hdefault.symm.trans htext) (by decide)
        · exact hbecomes.tag
      · exact Nat.add_le_add_right h.weight_le _
  · dsimp only
    rw [Array.getElem?_modify, hn]
    split
    · exact ⟨_, rfl, hshape⟩
    · exact ⟨n, rfl, hshape⟩

theorem Of.merges_le (h : Of d bound w m) (hn : m.nodes[ref]? = some n) : n.merges d ≤ w := by
  have hweight := weight_modify (d := d) (fun n => { n with shape := .mapping [] }) hn
  have hle := h.weight_le
  have hnone := merges_eq (d := d) (n := { n with shape := .mapping [] }) rfl
  have hzero : mergesIn d [] = 0 := rfl
  omega

theorem Owns.own (h : Owns d ref m)
    (hshape : ∃ n, m.nodes[ref]? = some n ∧ n.shape = .mapping entries) : Own d entries := by
  obtain ⟨n, entries', hn, hn', hown⟩ := h
  obtain ⟨n', hn₁, hshape⟩ := hshape
  rw [hn, Option.some.injEq] at hn₁
  subst hn₁
  rw [hn', Node.Shape.mapping.injEq] at hshape
  exact hshape ▸ hown

theorem changeMarks_leads (keys : List (Ref × Ref)) :
    Leads (Unmade d)
      (fun m => Of d bound w m ∧ ∃ n, m.nodes[ref]? = some n ∧ n.shape = .mapping entries)
      (do
        for (key, _) in keys do
          changeNode key fun n =>
            { n with tag := if n.tag = .scalar .default then .scalar .text else n.tag })
      fun _ m => Of d bound w m ∧ ∃ n, m.nodes[ref]? = some n ∧ n.shape = .mapping entries := by
  refine Leads.bind (Leads.forIn fun e _ => ?_) fun _ => .pure fun _ hm => hm
  exact (changeMark_leads e.1).bind fun _ => .pure fun _ hm => ⟨hm, rfl⟩

/-- Whether taking over entries with some fuel comes to an end if there are `w` merges at most. -/
def TakesOver (d : Array Node) (bound w fuel : Nat) : Prop :=
  ∀ ref, Leads (Unmade d) (Of d bound w) (takeOver fuel ref)
    fun _ m => Of d bound w m ∧ Owns d ref m

/-- What is taken over from a mapping are entries of its own. -/
theorem TakesOver.taken_leads {fuel : Nat} (h : TakesOver d bound w fuel) (source : Ref) :
    Leads (Unmade d) (Of d bound w) (do takeOver fuel source; entriesOf source)
      fun taken m => Of d bound w m ∧ Own d taken :=
  (h source).bind fun _ => (entriesOf_leads source).imp (fun _ hm => hm)
    fun _ _ hm => ⟨hm.1.1, hm.1.2.own hm.2⟩

/-- Entries that are no merges stand in front of those that a mapping comes to have. -/
theorem TakesOver.finish_leads {fuel : Nat} (h : TakesOver d bound w fuel)
    {taken : List (Ref × Ref)} (htaken : Own d taken) (hle : w ≤ v) (ref : Ref) :
    Leads (Unmade d) (Of d bound w)
      (do takeOver fuel ref; setEntries ref (taken ++ (← entriesOf ref)))
      fun _ m => Of d bound v m ∧ Owns d ref m := by
  refine (h ref).bind fun _ => (entriesOf_leads ref).bind fun entries m hm => ?_
  have hentries := hm.1.2.own hm.2
  refine (setEntries_leads (v := v) (taken ++ entries) ?_ m ⟨hm.1.1, hm.2⟩).imp
    (fun found hfound => ?_) fun _ hf => hf
  · rw [mergesIn_append, htaken.mergesIn_eq]
    omega
  · obtain ⟨hof, n, hn, hshape⟩ := hfound
    exact ⟨hof, n, _, hn, hshape, List.forall_mem_append.2 ⟨htaken, hentries⟩⟩

/-- Taking over entries comes to an end, as long as there is more fuel than merges. -/
theorem takeOver_leads (fuel : Nat) (ref : Ref) (hw : w < fuel) :
    Leads (Unmade d) (Of d bound w) (takeOver fuel ref)
      fun _ m => Of d bound w m ∧ Owns d ref m := by
  induction fuel generalizing ref w with
  | zero => cases hw
  | succ fuel ih =>
    refine (entriesOf_leads ref).bind fun entries => ?_
    refine Leads.get.bind fun m₀ m hm => ?_
    obtain ⟨⟨h, n, hn, hshape⟩, rfl⟩ := hm
    extract_lets nodes isOwn takenFrom finish
    have hown : ∀ e, isOwn e = !hasTag d (.scalar .merge) e.1 := fun e =>
      congrArg not (h.hasTag_merge e.1)
    clear_value isOwn
    refine (?_ : Leads (Unmade d)
      (fun m => Of d bound w m ∧ ∃ n, m.nodes[ref]? = some n ∧ n.shape = .mapping entries) _
      fun _ m => Of d bound w m ∧ Owns d ref m) m₀ ⟨h, n, hn, hshape⟩
    split
    · next hall =>
      refine (changeMarks_leads entries).imp (fun _ hm => hm) fun _ m hm => ?_
      obtain ⟨h, n, hn, hshape⟩ := hm
      refine ⟨h, n, entries, hn, hshape, fun e he => ?_⟩
      have he' := List.dropWhile_eq_nil_iff.1 hall e he
      rwa [hown, Bool.not_eq_true'] at he'
    · next key source others hmerge =>
      have hless := mergesIn_of_dropWhile hown hmerge
      have hpos : 0 < w := by
        have hle := h.merges_le hn
        rw [merges_eq hshape] at hle
        omega
      -- The merge is left out first, so that what follows has one merge less to go through.
      obtain ⟨v, rfl⟩ := Nat.exists_eq_succ_of_ne_zero (Nat.ne_of_gt hpos)
      have hv : v < fuel := Nat.lt_of_succ_lt_succ hw
      refine (setEntries_leads (v := v) _ (by omega)).bind fun _ => ?_
      have hover : TakesOver d bound v fuel := fun ref => ih ref hv
      have htaken : ∀ source, Leads (Unmade d) (Of d bound v) (takenFrom source)
          fun taken m => Of d bound v m ∧ Own d taken := hover.taken_leads
      have hfinish : ∀ taken, Own d taken → Leads (Unmade d) (Of d bound v) (finish taken)
          fun _ m => Of d bound (v + 1) m ∧ Owns d ref m := fun taken hown =>
        hover.finish_leads hown (Nat.le_succ v) ref
      refine ((nodeAt_leads source).imp (fun _ hm => hm.1) fun _ _ hm => hm.1).bind fun node => ?_
      split
      · refine (htaken source).bind fun taken m hm => ?_
        exact hfinish taken hm.2 m hm.1
      · refine (Leads.mapM fun source _ => htaken source).bind fun parts m hm => ?_
        refine hfinish _ (fun e he => ?_) m hm.1
        obtain ⟨part, hpart, he⟩ := List.mem_flatten.1 he
        exact hm.2 part (List.mem_reverse.1 hpart) e he
      · exact .throw .invalid

/-! ### Making values -/

theorem content_ends (nodes : Array Node) (fuel : Nat) (ref : Ref) :
    EndsIn (fun c => ∃ n ∈ nodes, n.shape = .scalar c) (fun f => f = .invalid ∨ f = .depth)
      (content nodes fuel ref) := by
  induction fuel generalizing ref with
  | zero => exact .inr rfl
  | succ fuel ih =>
    unfold content
    split
    · next tag c hn => exact ⟨_, Array.mem_of_getElem? hn, rfl⟩
    · split
      · exact ih _
      · exact .inl rfl
    · exact .inl rfl

theorem Of.exists_mem (h : Of d bound w m) (hn : n ∈ m.nodes) : ∃ n₀ ∈ d, Becomes n₀ n := by
  obtain ⟨i, hi⟩ := Array.getElem?_of_mem hn
  obtain ⟨n₀, hn₀, hbecomes⟩ := h.becomes hi
  exact ⟨n₀, Array.mem_of_getElem? hn₀, hbecomes⟩

/-- A step that leaves the nodes alone. -/
theorem modify_leads {g : Maker → Maker}
    (hg : ∀ m, (g m).nodes = m.nodes ∧ (g m).merges = m.merges) :
    Leads (Unmade d) (Of d bound w) (modify g) fun _ => Of d bound w :=
  Leads.modify fun m h => by
    obtain ⟨hnodes, hmerges⟩ := hg m
    exact ⟨hnodes ▸ h.size, fun hn => h.becomes (hnodes ▸ hn), hnodes ▸ h.weight_le,
      hmerges.trans h.merges⟩

theorem setValue_leads (ref : Ref) (v : Value) :
    Leads (Unmade d) (Of d bound w) (setValue ref v) fun _ => Of d bound w :=
  modify_leads fun _ => ⟨rfl, rfl⟩

theorem begin_leads (ref : Ref) (empty : Value) :
    Leads (Unmade d) (Of d bound w) (begin ref empty) fun _ => Of d bound w :=
  (setValue_leads ref empty).bind fun _ => modify_leads fun _ => ⟨rfl, rfl⟩

/-- A text has a value, or it has none under the tag that its node had at first. -/
theorem ofText_ends {n' : Node} {c : Codes} (hn₀ : n₀ ∈ d) (hbecomes : Becomes n₀ n) (hn' : n' ∈ d)
    (hshape : n'.shape = .scalar c) (hwhose : n' = n₀ ∨ ∃ entries, n₀.shape = .mapping entries) :
    EndsIn (fun _ => True) (Unmade d) (Atom.ofText n.tag c) := by
  cases hvalue : Atom.ofText n.tag c with
  | ok a => trivial
  | error f =>
    obtain htag | ⟨-, htext⟩ := hbecomes.tag
    · exact .text hn₀ hn' hshape hwhose (htag ▸ hvalue)
    · rw [htext] at hvalue
      cases hvalue

/-- The text of a node is its own, or the node is a mapping with a default value. -/
theorem Of.content_ends (h : Of d bound w m) (hn : m.nodes[ref]? = some n) (hn₀ : n₀ ∈ d)
    (hbecomes : Becomes n₀ n) (htag : n.tag = .binary ∨ ∃ kind, n.tag = .scalar kind) (fuel : Nat) :
    EndsIn
      (fun c => ∃ n' ∈ d, n'.shape = .scalar c ∧ (n' = n₀ ∨ ∃ entries, n₀.shape = .mapping entries))
      (Unmade d) (content m.nodes (fuel + 1) ref) := by
  -- Shapes stay of their kind, so each of them is that of a node of the document.
  unfold content
  rw [hn]
  obtain ⟨tag, shape⟩ := n
  cases shape with
  | scalar c =>
    obtain hsame | ⟨_, _, _, hmapping⟩ := hbecomes.shape
    · exact ⟨n₀, hn₀, hsame.symm, .inl rfl⟩
    · cases hmapping
  | sequence items => exact .invalid
  | mapping entries =>
    have hmapping : ∃ entries₀, n₀.shape = .mapping entries₀ := by
      obtain hsame | ⟨entries₀, _, hentries₀, _⟩ := hbecomes.shape
      · exact ⟨entries, hsame.symm⟩
      · exact ⟨entries₀, hentries₀⟩
    have htag₀ : n₀.tag = .binary ∨ ∃ kind, n₀.tag = .scalar kind := by
      obtain hsame | ⟨hdefault, _⟩ := hbecomes.tag
      · exact hsame ▸ htag
      · exact .inr ⟨_, hdefault⟩
    dsimp only
    split
    · next key value hfind =>
      have hkey := List.find?_some
        (p := fun e : Ref × Ref => hasTag m.nodes (.scalar .default) e.1) hfind
      obtain ⟨n', hn', hmark⟩ := h.exists_default hkey
      obtain ⟨entries₀, hentries₀⟩ := hmapping
      refine (Make.content_ends m.nodes fuel value).imp (fun c hc => ?_) fun f hf => ?_
      · obtain ⟨n₁, hn₁, hshape⟩ := hc
        obtain ⟨n₂, hn₂, hbecomes₂⟩ := h.exists_mem hn₁
        obtain hsame | ⟨_, _, _, hother⟩ := hbecomes₂.shape
        · exact ⟨n₂, hn₂, hsame.symm.trans hshape, .inr ⟨entries₀, hentries₀⟩⟩
        · cases hshape.symm.trans hother
      · obtain rfl | rfl := hf
        · exact .invalid
        · exact .depth hn₀ hn' hentries₀ htag₀ hmark
    · exact .invalid

theorem makeAtom_leads (ref : Ref) :
    Leads (Unmade d) (fun m => Of d bound w m ∧ ∃ n, m.nodes[ref]? = some n ∧
        (n.tag = .binary ∨ ∃ kind, n.tag = .scalar kind)) (makeAtom ref)
      fun _ => Of d bound w := by
  refine (nodeAt_leads ref).bind fun n => ?_
  refine .read fun m hm => ?_
  obtain ⟨⟨h, n', hn', htag⟩, hn⟩ := hm
  rw [hn, Option.some.injEq] at hn'
  subst hn'
  obtain ⟨n₀, hn₀, hbecomes⟩ := h.exists_mem (Array.mem_of_getElem? hn)
  have hcontent : Leads (Unmade d) (fun m' => m' = m)
      (liftM (content m.nodes (m.nodes.size + 1) ref)) fun c m => Of d bound w m ∧
        ∃ n' ∈ d, n'.shape = .scalar c ∧ (n' = n₀ ∨ ∃ entries, n₀.shape = .mapping entries) :=
    .lift fun _ hm => (h.content_ends hn hn₀ hbecomes htag _).imp (fun _ hc => ⟨hm ▸ h, hc⟩)
      fun _ hf => hf
  refine hcontent.bind fun c => .given fun hc => ?_
  obtain ⟨n', hn', hshape, hwhose⟩ := hc
  refine .refuse (fun htime => ?_) fun _ => ?_
  · rw [Bool.and_eq_true, decide_eq_true_iff] at htime
    obtain rfl | ⟨entries, hentries⟩ := hwhose
    · obtain hsame | ⟨_, _, hmapping, _⟩ := hbecomes.shape
      · rw [hsame, hshape] at htime
        cases htime.2
      · cases hshape.symm.trans hmapping
    · obtain hsame | ⟨_, htext⟩ := hbecomes.tag
      · exact .timeOfMapping hn₀ (hsame.symm.trans htime.1) hentries
      · cases htext.symm.trans htime.1
  · have hvalue := ofText_ends hn₀ hbecomes hn' hshape hwhose
    have hread : Leads (Unmade d) (Of d bound w) (liftM (Atom.ofText n.tag c))
        fun _ => Of d bound w :=
      .lift fun _ hm => hvalue.imp (fun _ _ => hm) fun _ hf => hf
    exact hread.bind fun a => setValue_leads ref (.atom a)

theorem make_leads (ref : Ref) :
    Leads (Unmade d) (Of d bound w) (make ref) fun _ => Of d bound w := by
  refine Leads.get.bind fun m₀ => ?_
  refine .ite (fun _ => .pure fun _ hm => hm.1) fun _ => ?_
  refine ((nodeAt_leads ref).imp (fun _ hm => hm.1) fun _ _ hm => hm).bind fun n => ?_
  have hatom : n.tag = .binary ∨ (∃ kind, n.tag = .scalar kind) →
      Leads (Unmade d) (fun m => Of d bound w m ∧ m.nodes[ref]? = some n) (makeAtom ref)
        fun _ => Of d bound w := fun htag =>
    (makeAtom_leads ref).imp (fun _ hm => ⟨hm.1, n, hm.2, htag⟩) fun _ _ hm => hm
  have hbegin : ∀ empty, Leads (Unmade d)
      (fun m => Of d bound w m ∧ m.nodes[ref]? = some n) (begin ref empty)
        fun _ => Of d bound w := fun empty =>
    (begin_leads ref empty).imp (fun _ hm => hm.1) fun _ _ hm => hm
  split
  · exact hbegin _
  · exact hbegin _
  · exact hbegin _
  · exact hbegin _
  · exact .throw .invalid
  · exact .throw .invalid
  · exact .throw .invalid
  · exact .throw .invalid
  · next kind _ _ _ htag => exact hatom (.inr ⟨kind, htag⟩)
  · next htag => exact hatom (.inl htag)

theorem makeKey_leads (ref : Ref) :
    Leads (Unmade d) (Of d bound w) (makeKey ref) fun _ => Of d bound w := by
  refine (make_leads ref).bind fun _ => Leads.get.bind fun m₀ => ?_
  split
  · exact .pure fun _ hm => hm.1
  · exact .throw .invalid

theorem makeEntries_leads (hw : w ≤ bound) (ref : Ref) :
    Leads (Unmade d) (Of d bound w) (makeEntries ref) fun _ => Of d bound w := by
  refine (entriesOf_leads ref).bind fun _ => .read fun m hm => ?_
  have hfuel : w < m.merges + 1 := by
    have := hm.1.merges
    omega
  refine ((takeOver_leads _ ref hfuel).imp (fun _ hm' => hm' ▸ hm.1) fun _ _ hm => hm.1).bind
    fun _ => ?_
  refine ((entriesOf_leads ref).imp (fun _ hm => hm) fun _ _ hm => hm.1).bind fun entries => ?_
  refine Leads.imp (Leads.mapM (P := fun _ => True) fun e _ => ?_) (fun _ hm => hm)
    fun _ _ hm => hm.1
  exact (makeKey_leads e.1).bind fun k => (make_leads e.2).bind fun _ =>
    .pure fun _ hm => ⟨hm, trivial⟩

theorem itemsOf_leads (ref : Ref) :
    Leads (Unmade d) (Of d bound w) (itemsOf ref) fun _ => Of d bound w := by
  refine (nodeAt_leads ref).bind fun n => ?_
  split
  · exact .pure fun _ hm => hm.1
  · exact .throw .invalid

theorem makePair_leads (ref : Ref) :
    Leads (Unmade d) (Of d bound w) (makePair ref) fun _ => Of d bound w := by
  refine ((entriesOf_leads ref).imp (fun _ hm => hm) fun _ _ hm => hm.1).bind fun entries => ?_
  split
  · exact (make_leads _).bind fun _ => (make_leads _).bind fun _ => .pure fun _ hm => hm
  · exact .throw .invalid

theorem fill_leads (hw : w ≤ bound) (ref : Ref) :
    Leads (Unmade d) (Of d bound w) (fill ref) fun _ => Of d bound w := by
  refine ((nodeAt_leads ref).imp (fun _ hm => hm) fun _ _ hm => hm.1).bind fun n => ?_
  split
  · refine (itemsOf_leads ref).bind fun items => ?_
    exact (Leads.forM fun item _ => make_leads item).bind fun _ => setValue_leads ref _
  · refine (itemsOf_leads ref).bind fun items => ?_
    refine (Leads.imp (Leads.mapM (P := fun _ => True) fun item _ => ?_) (fun _ hm => hm)
      fun _ _ hm => hm.1).bind fun pairs => setValue_leads ref _
    exact (makePair_leads item).imp (fun _ hm => hm) fun _ _ hm => ⟨hm, trivial⟩
  · exact (makeEntries_leads hw ref).bind fun _ => setValue_leads ref _
  · exact (makeEntries_leads hw ref).bind fun _ => setValue_leads ref _
  · exact .throw .invalid

theorem fillAll_leads (hw : w ≤ bound) (fuel done : Nat) :
    Leads (Unmade d) (Of d bound w) (fillAll fuel done) fun _ => Of d bound w := by
  induction fuel generalizing done with
  | zero => exact .pure fun _ hm => hm
  | succ fuel ih =>
    refine Leads.get.bind fun m₀ => ?_
    split
    · exact .pure fun _ hm => hm.1
    · next ref _ =>
      refine ((fill_leads hw ref).imp (fun _ hm => hm.1) fun _ _ hm => hm).bind fun _ => ih _

theorem weight_eq_foldl (nodes : Array Node) :
    weight nodes nodes = nodes.foldl (fun n node => n + node.merges nodes) 0 := by
  unfold weight
  rw [← Array.foldl_toList, List.sum_eq_foldl, List.foldl_map]

end Make

/-- The values of a document are made, or a fault comes up that lies in its nodes. -/
theorem Document.contents_ends (d : Document) :
    EndsIn (fun _ => True) (Unmade d.nodes) d.contents := by
  unfold Document.contents
  extract_lets start making
  have hstart : Make.Of d.nodes start.merges start.merges start :=
    ⟨rfl, fun hn => ⟨_, hn, Make.Becomes.refl _⟩, Nat.le_of_eq (Make.weight_eq_foldl d.nodes), rfl⟩
  have hmaking : Leads (Unmade d.nodes) (Make.Of d.nodes start.merges start.merges) making
      fun _ => Make.Of d.nodes start.merges start.merges :=
    (Make.make_leads d.root).bind fun _ => Make.fillAll_leads (Nat.le_refl _) _ _
  exact (hmaking start hstart).bind fun _ _ => trivial

end SourceNotes.Yaml
