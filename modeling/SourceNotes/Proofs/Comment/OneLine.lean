/-
Line comments stay on their line, whatever is read.

What a decision has looked at comes next: the runes have been decoded, and nothing that is read
later changes them. So a line comment is moved over rune by rune only where no newline comes next,
in any state of any reader.

* **`Head.AvoidsNewlines`** — a decision that moves over no newline;
* **`Head.newline_not_mem_of_run`** — a run whose decisions move over no newline moves over none;
* **`SearchInvariant.opening`** — what a search for the next opening keeps holds of what it finds;
* **`Scanner.newline_not_mem`** — the line comments that a scan delivers hold no newline.
-/
import SourceNotes.Comment.Scanner
import SourceNotes.Proofs.Comment.Lines
import SourceNotes.Proofs.Reader.Consumed

namespace SourceNotes

open Head Text

namespace Reader

variable {n : Nat} {r r' : Reader} {s p : Text}

/-- Looking shows what comes next, and leaves it where it is. -/
theorem ahead_look (h : look n r = .ok s r') : r.ahead <+: r'.ahead ∧ s <+: r'.ahead := by
  refine ⟨?_, ?_⟩
  · unfold look at h
    split at h
    · cases h
    · split at h
      · next hfill =>
        cases h
        exact (Fetched.of_fill_ok hfill).ahead_le
      · cases h
  · rw [ahead_of_look h]
    exact List.take_prefix n r'.ahead

/-- What has been decoded is shown as it is. -/
theorem look_of_ahead ( hprefix : p <+: r.ahead) (h : look p.length r = .ok s r') :
    s = p ∧ r' = r := by
  have henough : hasAtLeast p.length r.ahead = true := hasAtLeast_iff.2 hprefix.length_le
  unfold look fill at h
  rw [if_pos henough] at h
  split at h
  · cases h
  · cases h
    exact ⟨(List.prefix_iff_eq_take.1 hprefix).symm, rfl⟩

end Reader

/-- A computation that answers has gone through its parts. -/
theorem exists_of_bind {ε σ α β : Type} {m : EStateM ε σ α} {f : α → EStateM ε σ β} {x y : σ}
    {b : β} (h : (m >>= f) x = .ok b y) : ∃ a z, m x = .ok a z ∧ f a z = .ok b y := by
  change EStateM.bind m f x = _ at h
  unfold EStateM.bind at h
  split at h
  · next a z heq => exact ⟨a, z, heq, h⟩
  · cases h

theorem Head.of_ask {α : Type} {m : Reading α} {h h' : Head} {a : α} (hask : ask m h = .ok a h') :
    m h.reader = .ok a h'.reader := by
  unfold ask at hask
  split at hask
  · next heq =>
    cases hask
    exact heq
  · cases hask

/-! ### Decisions -/

/-- What is skipped together in a string comes next, and is made of the end of the string and the
escape. -/
theorem Escape.unit_spec {e : Escape} {stop s : Text} {r r' : Reader} (hstop : '\n' ∉ stop)
    (he : e ≠ .char '\n') (h : e.unit stop r = .ok s r') :
    r.ahead <+: r'.ahead ∧ s <+: r'.ahead ∧ '\n' ∉ s := by
  cases e with
  | none =>
    cases h
    exact ⟨List.prefix_refl _, List.nil_prefix, List.not_mem_nil⟩
  | char c =>
    have hc : '\n' ≠ c := fun h => he (by rw [h])
    obtain ⟨t, r₁, hlook, hrest⟩ := exists_of_bind h
    obtain ⟨hkept, ht⟩ := Reader.ahead_look hlook
    split at hrest
    · next heq =>
      cases hrest
      rw [heq] at ht ⊢
      exact ⟨hkept, ht, by simp [hc, hstop]⟩
    · split at hrest
      · cases hrest
        exact ⟨hkept, List.nil_prefix, List.not_mem_nil⟩
      · obtain ⟨u, r₂, hlook', hrest'⟩ := exists_of_bind hrest
        obtain ⟨hkept', hu⟩ := Reader.ahead_look hlook'
        cases hrest'
        refine ⟨hkept.trans hkept', ?_⟩
        split
        · next heq =>
          rw [heq] at hu ⊢
          exact ⟨hu, by simp [hc]⟩
        · exact ⟨List.nil_prefix, List.not_mem_nil⟩
  | double =>
    obtain ⟨t, r₁, hlook, hrest⟩ := exists_of_bind h
    obtain ⟨hkept, ht⟩ := Reader.ahead_look hlook
    cases hrest
    refine ⟨hkept, ?_⟩
    split
    · next heq =>
      rw [heq] at ht ⊢
      exact ⟨ht, by simp [hstop]⟩
    · exact ⟨List.nil_prefix, List.not_mem_nil⟩

namespace Head

variable {h h' : Head} {n : Nat} {s p : Text}

theorem ahead_sees {b : Bool} (hsees : sees s h = .ok b h') :
    h.reader.ahead <+: h'.reader.ahead := by
  obtain ⟨t, h₁, hlook, hrest⟩ := exists_of_bind hsees
  cases hrest
  exact (Reader.ahead_look (of_ask hlook)).1

/-- What is seen comes next. -/
theorem ahead_of_sees (hsees : sees s h = .ok true h') : s <+: h'.reader.ahead := by
  obtain ⟨t, h₁, hlook, hrest⟩ := exists_of_bind hsees
  obtain ⟨hsame, rfl⟩ := EStateM.Result.ok.inj hrest
  have ht : t = s := by simpa using hsame
  rw [← ht]
  exact (Reader.ahead_look (of_ask hlook)).2

/-- Where the line does not end, something else than a newline comes next. -/
theorem ahead_atLineEnd (hends : atLineEnd h = .ok false h') :
    ∃ c, c ≠ '\n' ∧ [c] <+: h'.reader.ahead := by
  obtain ⟨s, h₁, hlook, hrest⟩ := exists_of_bind hends
  obtain ⟨hfalse, rfl⟩ := EStateM.Result.ok.inj hrest
  obtain ⟨t, ht⟩ := (Reader.ahead_look (of_ask hlook)).2
  have hnot := of_decide_eq_false hfalse
  rw [not_or, not_or] at hnot
  cases s with
  | nil => exact absurd rfl hnot.1
  | cons c s => exact ⟨c, fun hc => hnot.2.1 (congrArg some hc), ⟨s ++ t, ht⟩⟩

/-- What has been decoded is moved over as it is. -/
theorem take_of_ahead ( hprefix : p <+: h.reader.ahead) (htake : take p.length h = .ok s h') :
    s = p := by
  unfold take at htake
  split at htake
  · cases htake
  · next heq =>
    cases htake
    exact (Reader.look_of_ahead hprefix (of_ask heq)).1
  · cases htake

section

variable {α β : Type} {choose : α → Scan (Decision α β)} {hc : ∀ a, Peeks (choose a)}

/-- A decision that moves over no newline. -/
def AvoidsNewlines (choose : α → Scan (Decision α β)) : Prop :=
  ∀ a h n a' h', choose a h = .ok (.more n a') h' →
    ∃ p, p <+: h'.reader.ahead ∧ p.length = n ∧ '\n' ∉ p

/-- What such decisions move over holds no newline, if the answer is not one that comes with a last
stretch. -/
theorem newline_not_mem_of_run (havoids : AvoidsNewlines choose) {a : α} {b : β} {taken : Text}
    (hlast : ∀ a h n h', choose a h ≠ .ok (.last n b) h') (htaken : '\n' ∉ taken)
    (hrun : run choose hc a taken h = .ok (s, b) h') : '\n' ∉ s := by
  fun_induction run choose hc a taken h with
  | case1 => cases hrun
  | case2 =>
    cases hrun
    rwa [List.mem_reverse]
  | case3 => cases hrun
  | case4 a taken h n b' h₁ hd =>
    cases hrun
    exact absurd hd (hlast a h n h₁)
  | case5 => cases hrun
  | case6 a taken h n a' h₁ hd u h₂ ht hlt ih =>
    obtain ⟨p, hp, rfl, hmem⟩ := havoids a h n a' h₁ hd
    obtain rfl := take_of_ahead hp ht
    refine ih ?_ hrun
    rw [List.mem_append, List.mem_reverse, not_or]
    exact ⟨hmem, htaken⟩

/-- What a run comes to is what its last decision comes to, after a last stretch if it moves over
one. -/
theorem exists_of_run {a : α} {b : β} {taken : Text}
    (hrun : run choose hc a taken h = .ok (s, b) h') :
    ∃ a h h₁, choose a h = .ok (.stop b) h₁ ∨
      ∃ n u h₂, choose a h = .ok (.last n b) h₁ ∧ take n h₁ = .ok u h₂ ∧ u <:+ s := by
  fun_induction run choose hc a taken h with
  | case1 => cases hrun
  | case2 a taken h b h₁ hd =>
    cases hrun
    exact ⟨a, h, _, .inl hd⟩
  | case3 => cases hrun
  | case4 a taken h n b h₁ hd u h₂ ht =>
    cases hrun
    refine ⟨a, h, h₁, .inr ⟨n, u, _, hd, ht, ?_⟩⟩
    rw [List.reverse_append, List.reverse_reverse]
    exact List.suffix_append _ _
  | case5 => cases hrun
  | case6 a taken h n a' h₁ hd u h₂ ht hlt ih => exact ih hrun

end

/-- A single rune that is no newline. -/
theorem exists_of_singleton {c : Char} (hc : c ≠ '\n') (h : [c] <+: s) :
    ∃ p, p <+: s ∧ p.length = 1 ∧ '\n' ∉ p :=
  ⟨[c], h, rfl, fun hmem => hc (List.mem_singleton.1 hmem).symm⟩

theorem avoidsNewlines_lineStep : AvoidsNewlines lineStep := by
  intro a h n a' h' hstep
  obtain ⟨ends, h₁, hends, hrest⟩ := exists_of_bind hstep
  cases ends with
  | true => cases hrest
  | false =>
    cases hrest
    obtain ⟨c, hc, hahead⟩ := ahead_atLineEnd hends
    exact exists_of_singleton hc hahead

theorem lineStep_ne_last (u : Unit) (h : Head) (n : Nat) (h' : Head) :
    lineStep u h ≠ .ok (.last n ()) h' := by
  intro hstep
  obtain ⟨ends, h₁, -, hrest⟩ := exists_of_bind hstep
  cases ends <;> cases hrest

/-- A string that ends on the line is no comment. -/
theorem lineOrStringStep_ne_last (rule : StringRule) (u : Unit) (h : Head) (n : Nat) (h' : Head) :
    lineOrStringStep rule u h ≠ .ok (.last n true) h' := by
  intro hstep
  obtain ⟨ends, h₁, -, hrest⟩ := exists_of_bind hstep
  cases ends with
  | true => cases hrest
  | false =>
    obtain ⟨skipped, h₂, -, hrest⟩ := exists_of_bind hrest
    split at hrest
    · cases hrest
    · obtain ⟨stops, h₃, -, hrest⟩ := exists_of_bind hrest
      cases stops <;> cases hrest

theorem avoidsNewlines_lineOrStringStep {rule : StringRule} (hstop : '\n' ∉ rule.stop)
    (he : rule.escape ≠ .char '\n') : AvoidsNewlines (lineOrStringStep rule) := by
  intro a h n a' h' hstep
  obtain ⟨ends, h₁, hends, hrest⟩ := exists_of_bind hstep
  cases ends with
  | true => cases hrest
  | false =>
    obtain ⟨c, hc, hahead⟩ := ahead_atLineEnd hends
    obtain ⟨skipped, h₂, hunit, hrest⟩ := exists_of_bind hrest
    obtain ⟨hkept, hskipped, hmem⟩ := rule.escape.unit_spec hstop he (of_ask hunit)
    split at hrest
    · cases hrest
      exact ⟨skipped, hskipped, rfl, hmem⟩
    · obtain ⟨stops, h₃, hsees, hrest⟩ := exists_of_bind hrest
      cases stops with
      | true => cases hrest
      | false =>
        cases hrest
        exact exists_of_singleton hc ((hahead.trans hkept).trans (ahead_sees hsees))

end Head

/-! ### Openings -/

variable {rules : Rules} {h h' : Head}

/-- What has been found is made of these rules. -/
def FoundIn (rules : Rules) (found : Option Opening) : Prop := ∀ o ∈ found, o.IsOf rules

/-- A property of what has been found at a head, true of what is found there and kept while the
search goes on. -/
structure SearchInvariant (rules : Rules) (P : Option Opening → Head → Prop) : Prop where
  kept : ∀ {found h s b h'}, P found h → sees s h = .ok b h' → P found h'
  line : ∀ {rule h h'}, rule ∈ rules.lines → sees rule.start h = .ok true h' →
    P (some (.line rule)) h'
  string : ∀ {rule h h'}, rule ∈ rules.strings → sees rule.start h = .ok true h' →
    P (some (.string rule)) h'
  block : ∀ {rule h h'}, rule ∈ rules.blocks → sees rule.start h = .ok true h' →
    P (some (.block rule)) h'
  lineOrString : ∀ {line rule h h'}, P (some (.line line)) h → rule ∈ rules.strings →
    sees rule.start h = .ok true h' → P (some (.lineOrString line rule)) h'

/-- What each member of a list keeps, going through the list keeps. -/
theorem of_foldlM {ε σ β γ : Type} {f : β → γ → EStateM ε σ β} {l : List γ} {P : β → σ → Prop}
    (hf : ∀ a ∈ l, ∀ b x b' y, P b x → f b a x = .ok b' y → P b' y) {b b' : β} {x y : σ}
    (hb : P b x) (hfold : l.foldlM f b x = .ok b' y) : P b' y := by
  induction l generalizing b x with
  | nil =>
    cases hfold
    exact hb
  | cons a l ih =>
    rw [List.foldlM_cons] at hfold
    obtain ⟨next, z, hfirst, hrest⟩ := exists_of_bind hfold
    have hnext := hf a List.mem_cons_self b x next z hb hfirst
    exact ih (fun a' ha' => hf a' (List.mem_cons_of_mem _ ha')) hnext hrest

namespace SearchInvariant

variable {P : Option Opening → Head → Prop} {found found' : Option Opening}

theorem tryLine (hP : SearchInvariant rules P) {rule : LineRule} (hrule : rule ∈ rules.lines)
    (hfound : P found h) (htry : tryLine found rule h = .ok found' h') : P found' h' := by
  unfold SourceNotes.tryLine at htry
  split at htry
  · cases htry
    exact hfound
  · obtain ⟨seen, h₁, hsees, hrest⟩ := exists_of_bind htry
    cases seen with
    | true =>
      cases hrest
      exact hP.line hrule hsees
    | false =>
      cases hrest
      exact hP.kept hfound hsees

theorem tryString (hP : SearchInvariant rules P) {rule : StringRule}
    (hrule : rule ∈ rules.strings) (hfound : P found h)
    (htry : tryString found rule h = .ok found' h') : P found' h' := by
  unfold SourceNotes.tryString at htry
  split at htry
  · cases htry
    exact hfound
  · obtain ⟨seen, h₁, hsees, hrest⟩ := exists_of_bind htry
    cases seen with
    | true =>
      rw [if_pos rfl] at hrest
      split at hrest
      · cases hrest
        exact hP.string hrule hsees
      · split at hrest
        · cases hrest
          exact hP.lineOrString hfound hrule hsees
        · cases hrest
          exact hP.kept hfound hsees
    | false =>
      cases hrest
      exact hP.kept hfound hsees

theorem tryBlock (hP : SearchInvariant rules P) {rule : BlockRule} (hrule : rule ∈ rules.blocks)
    (hfound : P found h) (htry : tryBlock found rule h = .ok found' h') : P found' h' := by
  unfold SourceNotes.tryBlock at htry
  split at htry
  · cases htry
    exact hfound
  · obtain ⟨here, h₁, hget, hrest⟩ := exists_of_bind htry
    cases hget
    split at hrest
    · obtain ⟨seen, h₂, hsees, hrest⟩ := exists_of_bind hrest
      cases seen with
      | true =>
        cases hrest
        exact hP.block hrule hsees
      | false =>
        cases hrest
        exact hP.kept hfound hsees
    · cases hrest
      exact hfound

/-- What a search keeps holds of what it finds. -/
theorem opening (hP : SearchInvariant rules P) (hnone : P none h)
    (hopen : opening rules h = .ok found h') : P found h' := by
  obtain ⟨lines, h₁, hlines, hrest⟩ := exists_of_bind hopen
  obtain ⟨strings, h₂, hstrings, hblocks⟩ := exists_of_bind hrest
  have hfirst : P lines h₁ := of_foldlM (fun _ hrule _ _ _ _ => hP.tryLine hrule) hnone hlines
  have hsecond : P strings h₂ :=
    of_foldlM (fun _ hrule _ _ _ _ => hP.tryString hrule) hfirst hstrings
  exact of_foldlM (fun _ hrule _ _ _ _ => hP.tryBlock hrule) hsecond hblocks

end SearchInvariant

theorem forall_mem_some {α : Type} {P : α → Prop} {a : α} (h : P a) : ∀ b ∈ some a, P b := by
  intro b hb
  cases hb
  exact h

/-- What is found to begin at a place is made of these rules. -/
theorem foundIn_opening {found : Option Opening} (hopen : opening rules h = .ok found h') :
    FoundIn rules found := by
  have hP : SearchInvariant rules fun found _ => FoundIn rules found := {
    kept := fun hfound _ => hfound
    line := fun hrule _ => forall_mem_some hrule
    string := fun hrule _ => forall_mem_some hrule
    block := fun hrule _ => forall_mem_some hrule
    lineOrString := fun hfound hrule _ => forall_mem_some ⟨hfound _ rfl, hrule⟩ }
  exact hP.opening (fun o ho => nomatch ho) hopen

/-- The start of what is found to begin at a place comes next. -/
theorem start_of_opening {o : Opening} (hopen : opening rules h = .ok (some o) h') :
    o.start <+: h'.reader.ahead := by
  have hP : SearchInvariant rules fun found h => ∀ o ∈ found, o.start <+: h.reader.ahead := {
    kept := fun hfound hsees o ho => (hfound o ho).trans (ahead_sees hsees)
    line := fun _ hsees => forall_mem_some (ahead_of_sees hsees)
    string := fun _ hsees => forall_mem_some (ahead_of_sees hsees)
    block := fun _ hsees => forall_mem_some (ahead_of_sees hsees)
    lineOrString := fun hfound _ hsees =>
      forall_mem_some ((hfound _ rfl).trans (ahead_sees hsees)) }
  exact hP.opening (fun o ho => nomatch ho) hopen o rfl

/-- An opening that code leads to is made of these rules, and its start is what was moved over
last. -/
theorem of_run_code {a : Unit} {taken s : Text} {o : Opening} {line : Nat}
    (hrun : run (codeStep rules) (peeks_codeStep rules) a taken h = .ok (s, o, line) h') :
    o.IsOf rules ∧ o.start <:+ s := by
  obtain ⟨u, h₁, h₂, hstop | ⟨n, t, h₃, hlast, htake, hsuffix⟩⟩ := exists_of_run hrun
  · exact absurd hstop (codeStep_ne_stop rules u h₁ (o, line) h₂)
  · obtain ⟨found, h₃, hopen, hrest⟩ := exists_of_bind hlast
    cases found with
    | none => cases hrest
    | some o' =>
      cases hrest
      obtain rfl := take_of_ahead (start_of_opening hopen) htake
      exact ⟨foundIn_opening hopen _ rfl, hsuffix⟩

/-! ### Comments -/

/-- A line comment that an opening leads to holds no newline. -/
theorem Opening.newline_not_mem_body (hkeeps : rules.KeepsLines) {o : Opening} (ho : o.IsOf rules)
    {line : Nat} {c : Comment} {rule : Option LineRule}
    (hbody : o.body line h = .ok (some c) h') (hform : c.form = .line rule) : '\n' ∉ c.text := by
  unfold Opening.body at hbody
  cases o with
  | line rule =>
    dsimp only at hbody
    split at hbody
    · next s h₁ hrun =>
      cases hbody
      have hs := newline_not_mem_of_run avoidsNewlines_lineStep lineStep_ne_last List.not_mem_nil
        hrun
      rw [List.mem_append, not_or]
      exact ⟨hkeeps.1 _ ho, hs⟩
    · cases hbody
  | block rule =>
    dsimp only at hbody
    split at hbody
    · cases hbody
      cases hform
    · cases hbody
  | string rule =>
    dsimp only at hbody
    split at hbody <;> cases hbody
  | lineOrString rule literal =>
    dsimp only at hbody
    split at hbody
    · next s h₁ hrun =>
      cases hbody
      have hliteral := hkeeps.2 _ ho.2
      have hs := newline_not_mem_of_run
        (avoidsNewlines_lineOrStringStep hliteral.1 hliteral.2) (lineOrStringStep_ne_last literal)
        List.not_mem_nil hrun
      rw [List.mem_append, not_or]
      exact ⟨hkeeps.1 _ ho.1, hs⟩
    · cases hbody
    · cases hbody

theorem newline_not_mem_of_nextComment (hkeeps : rules.KeepsLines) {c : Comment}
    {rule : Option LineRule} (hnext : nextComment rules h = .ok c h')
    (hform : c.form = .line rule) :
    '\n' ∉ c.text := by
  fun_induction nextComment rules h with
  | case1 => cases hnext
  | case2 => cases hnext
  | case3 h taken o line h₁ hc c h₂ hb =>
    cases hnext
    exact Opening.newline_not_mem_body hkeeps (of_run_code hc).1 hb hform
  | case4 h taken o line h₁ hc h₂ hb hlt ih => exact ih hnext

namespace Scanner

theorem of_next {s s' : Scanner} {c : Comment} (h : s.next = (.ok (some c), s')) :
    nextComment s.rules s.head = .ok c s'.head ∧ s'.rules = s.rules := by
  unfold next at h
  split at h
  · cases h
  · split at h
    · next hn =>
      cases h
      exact ⟨hn, rfl⟩
    · cases h
    · split at h <;> cases h

/-- **Line comments stay on their line**: in whatever state a scan is, none that it delivers holds a
newline. -/
theorem newline_not_mem {s : Scanner} (hkeeps : s.rules.KeepsLines) {c : Comment}
    (hc : c ∈ s.drain.1) {rule : Option LineRule} (hform : c.form = .line rule) :
    '\n' ∉ c.text := by
  induction hn : s.head.remaining using Nat.strongRecOn generalizing s with
  | ind n ih =>
    cases hnext : s.next with
    | mk answer s' =>
      rcases answer with e | _ | c'
      · rw [drain_of_error hnext] at hc
        cases hc
      · rw [drain_of_none hnext] at hc
        cases hc
      · obtain ⟨hcomment, hrules⟩ := of_next hnext
        rw [drain_of_comment hnext] at hc
        rcases List.mem_cons.1 hc with rfl | hc
        · exact newline_not_mem_of_nextComment hkeeps hcomment hform
        · refine ih _ ?_ (by rwa [hrules]) hc rfl
          rw [← hn]
          exact remaining_next_lt hnext

end Scanner

end SourceNotes
