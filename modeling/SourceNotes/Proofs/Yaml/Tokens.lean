/-
Reading tokens does no harm.

The lexer goes through its text from left to right. Whatever it takes, it stays in the text, and the
faults it comes upon are those that can be found there. It also pays for what it hands out: a token
that begins a collection, or an entry of one, costs a character that can begin one.

* **`Lexer.At`** — where a lexer can be in a text;
* **`Lexer.token_ends`** — one token is read, or a fault is found;
* **`Lexer.ready_ends`** — reading on until the next token is known.
-/
import SourceNotes.Proofs.Yaml.Faults
import SourceNotes.Yaml.Token.Lexer

namespace SourceNotes.Yaml

/-- The characters that can begin a collection or an entry of one. -/
def isOpening (c : Char) : Bool := isOneOf "-?:[\x7b" c

/-- The tokens that are paid for with such a character. -/
def Token.opens : Token → Bool
  | .item | .key | .flowSequence | .flowMapping => true
  | _ => false

namespace Lexer

/-- Where a lexer can be in the text `s`, if it has handed out `k` tokens that open something. -/
structure At (s : Text) (behind : Option Fault) (k : Nat) (l : Lexer) : Prop where
  suffix : l.rest <:+ s
  ending : l.ending = behind
  /-- There are as many opening characters as have been paid for. -/
  paid : k + l.pending.countP Token.opens + l.rest.countP isOpening ≤ s.countP isOpening

/-- Two lexers at the same place with tokens that cost the same. -/
structure Same (l l' : Lexer) : Prop where
  rest : l'.rest = l.rest
  ending : l'.ending = l.ending
  cost : l'.pending.countP Token.opens = l.pending.countP Token.opens

variable {s t : Text} {behind : Option Fault} {k n : Nat} {l l' l'' : Lexer} {c : Char}
  {tok : Token}

theorem Same.refl (l : Lexer) : Same l l := ⟨rfl, rfl, rfl⟩

theorem Same.trans (h : Same l l') (h' : Same l' l'') : Same l l'' :=
  ⟨h'.rest.trans h.rest, h'.ending.trans h.ending, h'.cost.trans h.cost⟩

theorem At.of_same (h : At s behind k l) (hsame : Same l l') : At s behind k l' where
  suffix := hsame.rest ▸ h.suffix
  ending := hsame.ending.trans h.ending
  paid := by
    rw [hsame.rest, hsame.cost]
    exact h.paid

theorem At.mono (h : At s behind k l) (hle : n ≤ k) : At s behind n l :=
  ⟨h.suffix, h.ending, by have := h.paid; omega⟩

/-! ### Without taking anything -/

theorem same_allowKey (allowed : Bool) (l : Lexer) : Same l (l.allowKey allowed) := ⟨rfl, rfl, rfl⟩

theorem same_emit (hcheap : tok.opens = false) (l : Lexer) : Same l (l.emit tok) :=
  ⟨rfl, rfl, by rw [emit, List.countP_append, List.countP_singleton, hcheap]; simp⟩

theorem same_close (column : Option Nat) (l : Lexer) : Same l (l.close column) := by
  unfold close
  split
  · exact .refl l
  · refine ⟨rfl, rfl, ?_⟩
    have hfree : ∀ closed : List Nat,
        (closed.map fun _ => Token.blockEnd).countP Token.opens = 0 := by
      intro closed
      simp [Token.opens]
    dsimp only
    rw [List.countP_append, hfree, Nat.add_zero]

theorem dropCandidate_ends (l : Lexer) : EndsIn (Same l) (· = .invalid) l.dropCandidate := by
  unfold dropCandidate
  split
  · exact .refl l
  · split
    · rfl
    · exact ⟨rfl, rfl, rfl⟩

theorem dropStale_ends (l : Lexer) : EndsIn (Same l) (· = .invalid) l.dropStale := by
  unfold dropStale
  extract_lets
  split
  · rfl
  · exact ⟨rfl, rfl, rfl⟩

theorem addCandidate_ends (l : Lexer) : EndsIn (Same l) (· = .invalid) l.addCandidate := by
  unfold addCandidate
  split
  · exact l.dropCandidate_ends.bind fun _ h => h.trans ⟨rfl, rfl, rfl⟩
  · exact .refl l

theorem endDocument_ends (l : Lexer) : EndsIn (Same l) (· = .invalid) l.endDocument :=
  (dropCandidate_ends (l.close none)).bind fun l' h =>
    ((same_close none l).trans h).trans (same_allowKey false l')

theorem openBlock_ends (hcheap : tok.opens = false) (l : Lexer) :
    EndsIn (Same l) (· = .invalid) (l.openBlock tok) := by
  unfold openBlock
  split
  · exact .refl l
  split
  · rfl
  split
  · exact (same_emit hcheap l).trans ⟨rfl, rfl, rfl⟩
  · exact .refl l

/-! ### Taking characters -/

theorem advance_eq (n : Nat) (l : Lexer) :
    (l.advance n).rest = l.rest.drop n ∧ (l.advance n).ending = l.ending ∧
      (l.advance n).pending = l.pending := by
  unfold advance
  generalize hstart : ({ l with rest := l.rest.drop n, left := l.left - n } : Lexer) = start
  have hfields : start.rest = l.rest.drop n ∧ start.ending = l.ending ∧
      start.pending = l.pending := by
    subst hstart
    exact ⟨rfl, rfl, rfl⟩
  clear hstart
  induction l.rest.take n generalizing start with
  | nil => exact hfields
  | cons c passed ih => exact ih _ hfields

theorem At.advance (h : At s behind k l) (n : Nat) : At s behind k (l.advance n) := by
  obtain ⟨hrest, hending, hpending⟩ := l.advance_eq n
  have hsuffix := List.drop_suffix n l.rest
  refine ⟨hrest ▸ hsuffix.trans h.suffix, hending.trans h.ending, ?_⟩
  rw [hrest, hpending]
  have hle := hsuffix.sublist.countP_le (p := isOpening)
  have := h.paid
  omega

theorem At.goTo (h : At s behind k l) (rest : Text) : At s behind k (l.goTo rest) := h.advance _

theorem At.emit (h : At s behind k l) (hcheap : tok.opens = false) : At s behind k (l.emit tok) :=
  h.of_same (same_emit hcheap l)

/-- A character that can open something is paid for one token that does. -/
theorem At.advance_one (h : At s behind k l) (hrest : l.rest = c :: t) (hc : isOpening c = true) :
    At s behind (k + 1) (l.advance 1) := by
  obtain ⟨hrest', hending, hpending⟩ := l.advance_eq 1
  rw [hrest, List.drop_one, List.tail_cons] at hrest'
  have hpaid := h.paid
  rw [hrest, List.countP_cons_of_pos hc] at hpaid
  refine ⟨?_, hending.trans h.ending, ?_⟩
  · rw [hrest']
    exact (List.suffix_cons c t).trans (hrest ▸ h.suffix)
  · rw [hrest', hpending]
    omega

theorem At.emit_paid (h : At s behind (k + 1) l) (tok : Token) : At s behind k (l.emit tok) := by
  refine ⟨h.suffix, h.ending, ?_⟩
  have hpaid := h.paid
  show k + (l.pending ++ [tok]).countP Token.opens + l.rest.countP isOpening ≤ _
  have hone : [tok].countP Token.opens ≤ 1 := List.countP_le_length
  rw [List.countP_append]
  omega

/-- What comes to light after the rest is a fault that can be found. -/
theorem At.checkWhole (h : At s behind k l) :
    EndsIn (fun _ => True) (Spotted s behind) l.checkWhole := by
  unfold Lexer.checkWhole
  split
  · trivial
  · next f hf => exact .behind (h.ending ▸ hf)

/-! ### Taking a token -/

theorem mark_ends {start : Token} (h : At s behind k l) (hrest : l.rest = c :: t)
    (hc : isOpening c = true) (hcheap : start.opens = false) (tok : Token) :
    EndsIn (At s behind k) (· = .invalid) (l.mark start tok) := by
  unfold mark
  refine (openBlock_ends hcheap l).bind fun l₁ h₁ => ?_
  refine (dropCandidate_ends _).bind fun l₂ h₂ => ?_
  have hsame := (h₁.trans (same_allowKey _ l₁)).trans h₂
  exact ((h.of_same hsame).advance_one (hsame.rest.trans hrest) hc).emit_paid tok

theorem countP_insert (number : Nat) (ts : List Token) (l : Lexer) :
    (l.insert number ts).pending.countP Token.opens =
      l.pending.countP Token.opens + ts.countP Token.opens := by
  have hparts := congrArg (List.countP Token.opens)
    (List.take_append_drop (number - l.taken) l.pending)
  rw [List.countP_append] at hparts
  unfold insert
  dsimp only
  rw [List.countP_append, List.countP_append]
  omega

/-- A character can also be paid for a token that comes before others. -/
theorem At.advance_insert (h : At s behind k l) (hrest : l.rest = c :: t) (hc : isOpening c = true)
    {ts : List Token} (hts : ts.countP Token.opens ≤ 1) (number : Nat) :
    At s behind k ((l.insert number ts).advance 1) := by
  obtain ⟨hrest₁, hending₁, hpending₁⟩ := l.advance_eq 1
  obtain ⟨hrest₂, hending₂, hpending₂⟩ := (l.insert number ts).advance_eq 1
  have hone := h.advance_one hrest hc
  have hpaid := hone.paid
  rw [hrest₁, hpending₁] at hpaid
  refine ⟨?_, hending₂.trans h.ending, ?_⟩
  · rw [hrest₂]
    exact hrest₁ ▸ hone.suffix
  · rw [hrest₂, hpending₂, countP_insert]
    show k + (l.pending.countP Token.opens + _) + (l.rest.drop 1).countP isOpening ≤ _
    omega

/-- A colon pays for the key that is known by it. -/
theorem colon_ends (h : At s behind k l) (hrest : l.rest = ':' :: t) :
    EndsIn (At s behind k) (· = .invalid) l.colon := by
  unfold colon
  split
  · exact mark_ends h hrest (by decide) rfl .value
  · next candidate _ =>
    extract_lets opens l₁ l₂
    have h₁ : At s behind k l₁ := h.of_same ⟨rfl, rfl, rfl⟩
    have hone : (if opens then [.blockMapping, .key] else [.key] : List Token).countP Token.opens ≤
        1 := by
      split <;> decide
    exact (h₁.advance_insert hrest (by decide) hone candidate.number).emit rfl

theorem openFlow_ends (h : At s behind k l) (hrest : l.rest = c :: t) (hc : isOpening c = true) :
    EndsIn (At s behind k) (· = .invalid) (l.openFlow tok) := by
  unfold openFlow
  refine l.addCandidate_ends.bind fun l₁ h₁ => ?_
  have hsame : Same l { l₁ with depth := l₁.depth + 1, keyAllowed := true } :=
    h₁.trans ⟨rfl, rfl, rfl⟩
  exact ((h.of_same hsame).advance_one (hsame.rest.trans hrest) hc).emit_paid tok

theorem closeFlow_ends (h : At s behind k l) (hcheap : tok.opens = false) :
    EndsIn (At s behind k) (Raw s behind) (l.closeFlow tok) := by
  unfold closeFlow
  refine l.dropCandidate_ends.of_invalid.raw.bind fun l₁ h₁ => ?_
  extract_lets jp
  split
  · exact Tag.raw_unexpected _
  · have hsame : Same l { l₁ with depth := l₁.depth - 1, keyAllowed := false } :=
      h₁.trans ⟨rfl, rfl, rfl⟩
    exact ((h.of_same hsame).advance 1).emit hcheap

theorem nodePart_ends (h : At s behind k l) (hcheap : tok.opens = false) (rest : Text) :
    EndsIn (At s behind k) (· = .invalid) (l.nodePart tok rest) :=
  l.addCandidate_ends.bind fun l₁ h₁ =>
    ((h.of_same (h₁.trans (same_allowKey false l₁))).goTo rest).emit hcheap

theorem contentPart_ends (h : At s behind k l) (hcheap : tok.opens = false) (rest : Text) :
    EndsIn (At s behind k) (Spotted s behind) (l.contentPart tok rest) := by
  unfold contentPart
  exact .guard h.checkWhole (nodePart_ends h hcheap rest).of_invalid

theorem blockScalar_ends (h : At s behind k l) (folded : Bool) (t : Text) :
    EndsIn (At s behind k) (Raw s behind) (l.blockScalar folded t) := by
  unfold blockScalar
  refine (dropCandidate_ends _).of_invalid.raw.bind fun l₁ h₁ => ?_
  refine (Block.read_ends folded _ t).bind fun found _ => ?_
  exact ((h.of_same ((same_allowKey true l).trans h₁)).goTo found.2).emit rfl

theorem quotedScalar_ends (h : At s behind k l) (style : Quoted.Style) (ht : t <:+ s) :
    EndsIn (At s behind k) (Raw s behind) (l.quotedScalar style t) :=
  ((Quoted.read_ends style t).of_suffix ht).bind fun found _ =>
    (contentPart_ends h rfl found.2).raw

theorem plainScalar_ends (h : At s behind k l) (c : Char) (t : Text) :
    EndsIn (At s behind k) (Spotted s behind) (l.plainScalar c t) := by
  unfold plainScalar
  extract_lets found
  refine .guard h.checkWhole ?_
  show EndsIn _ _ (found ())
  unfold found
  split
  · split
    next text rest broken _ =>
    extract_lets jp
    refine .guard h.checkWhole ?_
    exact (contentPart_ends h rfl rest).bind fun l₁ h₁ => h₁.of_same (same_allowKey broken l₁)
  · exact .invalid

theorem name_ends (t : Text) : EndsIn (fun _ => True) (Raw s behind) (name t) := by
  unfold name
  extract_lets rest
  split
  · trivial
  · exact Tag.raw_unexpected _

/-- The token that begins with the next character is read, or a fault is found in the text. -/
theorem token_ends (h : At s behind k l) (hrest : l.rest = c :: t) :
    EndsIn (At s behind k) (Raw s behind) (l.token c t) := by
  have ht : t <:+ s := (List.suffix_cons c t).trans (hrest ▸ h.suffix)
  unfold token
  extract_lets other known
  -- The tokens other than directives, in the order in which their first characters are tried.
  have hother : EndsIn (At s behind k) (Raw s behind) (other ()) := by
    refine .ite (fun _ => ?_) fun _ => ?_
    · refine l.endDocument_ends.of_invalid.raw.bind fun l₁ h₁ => ?_
      exact ((h.of_same h₁).advance markLength).emit (by split <;> rfl)
    refine .ite (fun hc => (openFlow_ends h hrest (hc ▸ by decide)).of_invalid.raw) fun _ => ?_
    refine .ite (fun hc => (openFlow_ends h hrest (hc ▸ by decide)).of_invalid.raw) fun _ => ?_
    refine .ite (fun _ => closeFlow_ends h rfl) fun _ => ?_
    refine .ite (fun _ => closeFlow_ends h rfl) fun _ => ?_
    refine .ite (fun _ => ?_) fun _ => ?_
    · refine (dropCandidate_ends _).of_invalid.raw.bind fun l₁ h₁ => ?_
      exact ((h.of_same ((same_allowKey true l).trans h₁)).advance 1).emit rfl
    refine .ite (fun hc => (mark_ends h hrest (hc.1 ▸ by decide) rfl .item).of_invalid.raw)
      fun _ => ?_
    refine .ite (fun hc => (mark_ends h hrest (hc.1 ▸ by decide) rfl .key).of_invalid.raw)
      fun _ => ?_
    refine .ite (fun hc => (colon_ends h (hc.1 ▸ hrest)).of_invalid.raw) fun _ => ?_
    refine .ite (fun _ => ?_) fun _ => ?_
    · exact (name_ends t).bind fun found _ => (nodePart_ends h rfl found.2).of_invalid.raw
    refine .ite (fun _ => ?_) fun _ => ?_
    · exact (name_ends t).bind fun found _ => (nodePart_ends h rfl found.2).of_invalid.raw
    refine .ite (fun _ => ?_) fun _ => ?_
    · refine (Tag.read_ends t).bind fun found hfound => ?_
      obtain ⟨handle, suffix, htag⟩ := hfound
      exact (nodePart_ends h (by rw [htag]; rfl) found.2).of_invalid.raw
    refine .ite (fun _ => blockScalar_ends h false t) fun _ => ?_
    refine .ite (fun _ => blockScalar_ends h true t) fun _ => ?_
    refine .ite (fun _ => quotedScalar_ends h .single ht) fun _ => ?_
    refine .ite (fun _ => quotedScalar_ends h .double ht) fun _ => ?_
    exact (plainScalar_ends h c t).raw
  refine .ite (fun hc => ?_) fun _ => .guard h.checkWhole.raw (.guard h.checkWhole.raw hother)
  refine l.endDocument_ends.of_invalid.raw.bind fun l₁ h₁ => ?_
  have hplace : '%' :: t <:+ s := hc.1 ▸ hrest ▸ h.suffix
  refine ((Directive.read_ends t).of_suffix hplace).bind fun found _ => ?_
  exact ((h.of_same h₁).goTo found.2).emit rfl

/-! ### Reading on -/

theorem goToToken_ends (h : At s behind k l) :
    EndsIn (At s behind k) (Spotted s behind) l.goToToken := by
  unfold goToToken
  extract_lets l₁
  have h₁ : At s behind k l₁ := by
    unfold l₁
    split
    · exact h.advance 1
    · exact h
  split
  next length broken _ =>
  extract_lets l₂ jp
  have h₂ : At s behind k l₂ := (h₁.advance length).of_same (same_allowKey _ _)
  refine .guard h₂.checkWhole ?_
  exact (dropStale_ends l₂).of_invalid.bind fun l₃ h₃ =>
    h₂.of_same (h₃.trans (same_close (some l₃.column) l₃))

/-- One more token is read, and all that can go wrong is settled. -/
theorem fetch_ends (h : At s behind k l) : EndsIn (At s behind k) (Spotted s behind) l.fetch := by
  unfold fetch
  refine (goToToken_ends h).bind fun l₁ h₁ => ?_
  split
  · exact l₁.endDocument_ends.of_invalid.bind fun l₂ h₂ => h₁.of_same (h₂.trans ⟨rfl, rfl, rfl⟩)
  · next c t hrest =>
    refine ((token_ends h₁ hrest).mapError fun f hf => ?_).bind fun l₂ h₂ => ?_
    · exact h₁.ending ▸ hf.settled
    · exact .guard h₂.checkWhole h₂

theorem needsMore_ends (h : At s behind k l) :
    EndsIn (fun found => At s behind k found.2) (Spotted s behind) l.needsMore := by
  unfold needsMore
  split
  · exact h
  split
  · exact h
  · exact l.dropStale_ends.of_invalid.bind fun l₁ h₁ => h.of_same h₁

theorem readOn_ends (h : At s behind k l) (fuel : Nat) :
    EndsIn (At s behind k) (Spotted s behind) (readOn fuel l) := by
  induction fuel generalizing l with
  | zero => exact .invalid
  | succ fuel ih =>
    refine (needsMore_ends h).bind fun found h₁ => ?_
    refine .ite (fun _ => ?_) fun _ => h₁
    exact (fetch_ends h₁).bind fun l₂ h₂ => ih h₂

/-- The next token is found out, or a fault in the text. -/
theorem ready_ends (h : At s behind k l) : EndsIn (At s behind k) (Spotted s behind) l.ready := by
  unfold ready
  refine (needsMore_ends h).bind fun found h₁ => ?_
  exact .ite (fun _ => readOn_ends h₁ _) fun _ => h₁

theorem at_ofSource (source : Source) :
    At source.text source.ending 0 (.ofSource source) :=
  ⟨List.suffix_rfl, rfl, by simp [ofSource]⟩

/-- A token that is taken has been paid for. -/
theorem At.skip (h : At s behind k l) (hnext : l.next? = some tok) :
    At s behind (k + if tok.opens then 1 else 0) l.skip := by
  refine ⟨h.suffix, h.ending, ?_⟩
  have hpaid := h.paid
  unfold next? at hnext
  show _ + l.pending.tail.countP Token.opens + l.rest.countP isOpening ≤ _
  cases hpending : l.pending with
  | nil =>
    rw [hpending] at hnext
    cases hnext
  | cons first others =>
    rw [hpending] at hnext hpaid
    cases hnext
    rw [List.countP_cons] at hpaid
    rw [List.tail_cons]
    omega

end Lexer

end SourceNotes.Yaml
