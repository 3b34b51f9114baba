/-
How many runes a reader has ahead.

A reader takes chunks only as long as runes are missing, and a chunk yields no more runes than it
has octets: what was held back before it is no code yet, so that the chunk has to add an octet to
it at least. Only where that code stands for two runes there is one more. So there are never more
runes ahead than one less than a look may ask for and one chunk together, and that one, whatever
has been asked and whether it was answered.

* **`Codec.length_runes_pass_append`** — octets that are no code yet add no more than one rune to
  those behind them;
* **`Decoder.sparing_feed`** — how many runes a chunk yields;
* **`Reader.Sparing.fill`** — filling stops with the chunk that brings what was missing, and leaves
  nothing ahead where it fails;
* **`Reader.buffered_after_le`** — the bound on the runes ahead after any calls.
-/
import SourceNotes.Proofs.Reader.Consumed

namespace SourceNotes

open Charset

namespace Charset

/-! ### Octets held back -/

variable {b : UInt8} {s u t : Octets} {c d : Char} {x : Text} {k : Codec}

theorem utf8Step_length_of_waits (hwaits : (utf8Step b s).Waits)
    (h : utf8Step b (s ++ u) = .rune c t) : t.length < u.length := by
  obtain ⟨f, hshort⟩ := hwaits
  unfold utf8Step at h hshort
  by_cases h1 : b < 0x80
  · simp only [h1, if_true] at hshort
    cases hshort
  by_cases h2 : b < 0xC2
  · simp only [h1, h2, if_true, if_false] at hshort
    cases hshort
  by_cases h3 : b < 0xE0
  · simp only [h1, h2, h3, if_true, if_false] at h hshort
    unfold utf8Two at h hshort
    grind
  by_cases h4 : b < 0xF0
  · simp only [h1, h2, h3, h4, if_true, if_false] at h hshort
    unfold utf8Three at h hshort
    grind
  by_cases h5 : b < 0xF5
  · simp only [h1, h2, h3, h4, h5, if_true, if_false] at h hshort
    unfold utf8Four at h hshort
    grind
  · simp only [h1, h2, h3, h4, h5, if_false] at hshort
    cases hshort

theorem utf16Step_length_of_waits {order : ByteOrder} (hwaits : (utf16Step order b s).Waits)
    (h : utf16Step order b (s ++ u) = .rune c t) : t.length < u.length := by
  obtain ⟨f, hshort⟩ := hwaits
  rcases s with _ | ⟨x, _ | ⟨y, _ | ⟨z, s⟩⟩⟩
  · unfold utf16Step at h
    grind
  · simp only [List.cons_append, List.nil_append, utf16Step] at h hshort
    grind
  · simp only [List.cons_append, List.nil_append, utf16Step] at h hshort
    grind
  · -- Two units are always enough.
    simp only [utf16Step] at hshort
    grind

theorem utf32Step_length_of_waits {order : ByteOrder} (hwaits : (utf32Step order b s).Waits)
    (h : utf32Step order b (s ++ u) = .rune c t) : t.length < u.length := by
  have hshort : s.length < 3 := by
    obtain ⟨f, hshort⟩ := hwaits
    rcases s with _ | ⟨x, _ | ⟨y, _ | ⟨z, s⟩⟩⟩
    · simp
    · simp
    · simp
    · simp only [utf32Step] at hshort
      grind
  have hlong : (s ++ u).length = t.length + 3 := by
    unfold utf32Step at h
    grind
  rw [List.length_append] at hlong
  omega

/-- A longer code ends in the octets that were waited for. -/
theorem Table.length_of_waits {table : Table} {lead : Octets}
    (hwaits : (table.readOn lead s).Waits)
    (h : (table.readOn lead (s ++ u)).read? = some (x, t)) : t.length < u.length := by
  induction s generalizing lead with
  | nil =>
    obtain ⟨v, b, -, -, rfl, -⟩ := Table.exists_code_of_readOn h
    rw [List.length_append, List.length_cons]
    omega
  | cons b s ih =>
    rw [List.cons_append] at h
    unfold Table.readOn at h hwaits
    cases hcode : table.code? lead b with
    | some code =>
      rw [hcode] at hwaits
      obtain ⟨c, _ | d⟩ := code
      · exact absurd hwaits (not_waits_rune c s)
      · exact absurd hwaits (not_waits_pair c d s)
    | none =>
      rw [hcode] at h hwaits
      dsimp only at h hwaits
      split at h
      · next hlead =>
        rw [if_pos hlead] at hwaits
        exact ih hwaits h
      · cases h

/-- A rune that its first octets were not enough for takes one of the others at least. -/
theorem Codec.step_length_of_waits (hwaits : (k.step b s).Waits)
    (h : k.step b (s ++ u) = .rune c t) : t.length < u.length := by
  cases k with
  | utf8 => exact utf8Step_length_of_waits hwaits h
  | utf16 order => exact utf16Step_length_of_waits hwaits h
  | utf32 order => exact utf32Step_length_of_waits hwaits h
  | ascii =>
    obtain ⟨f, hshort⟩ := hwaits
    simp only [Codec.step] at hshort
    grind
  | latin1 =>
    obtain ⟨f, hshort⟩ := hwaits
    cases hshort
  | latin9 =>
    obtain ⟨f, hshort⟩ := hwaits
    cases hshort
  | windows1252 =>
    obtain ⟨f, hshort⟩ := hwaits
    simp only [Codec.step, windows1252Step] at hshort
    grind
  | table table => exact Table.length_of_waits hwaits (congrArg Step.read? h)

/-- How many more runes than octets there can be: one where a code stands for two runes. -/
def Codec.excess : Codec → Nat
  | .table t => if t.hasPairs then 1 else 0
  | _ => 0

theorem Codec.step_pair_of_waits (hwaits : (k.step b s).Waits)
    (h : k.step b (s ++ u) = .pair c d t) : k.excess = 1 ∧ t.length < u.length := by
  obtain ⟨table, rfl⟩ := Codec.exists_table h
  exact ⟨if_pos (Table.hasPairs_of_step h), Table.length_of_waits hwaits (congrArg Step.read? h)⟩

/-- Octets that are no code yet: none at all, or some that wait for more. -/
def Codec.Unfinished (k : Codec) : Octets → Prop
  | [] => True
  | b :: s => (k.step b s).Waits

/-- What a codec leaves over without a fault is no code yet. -/
theorem Codec.unfinished_rest {final : Bool} (h : (k.pass final s).fault = none) :
    k.Unfinished (k.pass final s).rest := by
  fun_induction Codec.pass k final s with
  | case1 => exact trivial
  | case2 b s c t hstep hlt p =>
    rename_i ih
    exact ih h
  | case3 b s f hstep => exact ⟨f, hstep⟩
  | case4 b s f hstep => cases h
  | case5 b s c d t hstep hlt p =>
    rename_i ih
    exact ih h

/-- Octets that are no code yet add no rune to those that the octets behind them can stand for, or
one if together they stand for two. -/
theorem Codec.length_runes_pass_append (hs : k.Unfinished s) (final : Bool) (u : Octets) :
    (k.pass final (s ++ u)).runes.length ≤ u.length + k.excess := by
  rcases s with _ | ⟨b, s⟩
  · have hlen := k.pass_length final u
    rw [List.nil_append]
    omega
  · rw [List.cons_append]
    cases hstep : k.step b (s ++ u) with
    | rune c t =>
      have hlt := Codec.step_length_of_waits hs hstep
      have hlen := k.pass_length final t
      rw [Codec.pass_of_rune final hstep, List.length_cons]
      omega
    | short f =>
      rw [Codec.pass_of_short final hstep]
      exact Nat.zero_le _
    | bad f =>
      rw [Codec.pass_of_bad final hstep]
      exact Nat.zero_le _
    | pair c d t =>
      obtain ⟨hexcess, hlt⟩ := Codec.step_pair_of_waits hs hstep
      have hlen := k.pass_length final t
      rw [Codec.pass_of_pair final hstep, List.length_cons, List.length_cons, hexcess]
      omega

theorem unfinished_of_awaitsUtf8Mark (h : awaitsUtf8Mark s = true) :
    Codec.utf8.Unfinished s := by
  simp only [awaitsUtf8Mark, Bool.and_eq_true, decide_eq_true_eq, List.isPrefixOf_iff_prefix] at h
  obtain ⟨hshort, hfront⟩ := h
  have htake := List.prefix_iff_eq_take.1 hfront
  rcases s with _ | ⟨a, _ | ⟨b, _ | ⟨c, s⟩⟩⟩
  · exact trivial
  · rw [htake]
    exact ⟨.unexpectedEnd, rfl⟩
  · rw [htake]
    exact ⟨.unexpectedEnd, rfl⟩
  · simp only [List.length_cons] at hshort
    omega

/-! ### Feeding -/

/-- How many more runes than octets a chunk can yield. -/
def Phase.excess : Phase → Nat
  | .settled k => k.excess
  | _ => 0

theorem Phase.excess_eq_zero {phase : Phase} (h : ∀ k, phase ≠ .settled k) : phase.excess = 0 := by
  cases phase with
  | settled k => exact absurd rfl (h k)
  | beforeUtf8Mark => rfl
  | beforeOrderMark w => rfl

/-- What a decoder holds back is no code yet. -/
def Decoder.Unfinished (d : Decoder) : Prop :=
  match d.phase with
  | .settled k => k.Unfinished d.held
  | .beforeUtf8Mark => awaitsUtf8Mark d.held = true
  | .beforeOrderMark w => w.orderOf d.held = none

/-- How many more runes than octets a chunk can yield in a character set. -/
def excess : Charset → Nat
  | .plain k => k.excess
  | _ => 0

theorem unfinished_of_held_nil {d : Decoder} (h : d.held = []) : d.Unfinished := by
  unfold Decoder.Unfinished
  rw [h]
  cases d.phase with
  | settled k => exact trivial
  | beforeUtf8Mark => exact rfl
  | beforeOrderMark w => exact w.orderOf_of_short (by cases w <;> exact Nat.succ_pos _)

/-- What may come of feeding `n` octets to the decoder `d`. -/
inductive Fed.Sparing (n : Nat) (d : Decoder) : Fed → Prop
  /-- There are no more runes than octets and the excess, and a codec for those that follow. -/
  | settled {k : Codec} {runes : Text} {rest : Octets} (hle : runes.length ≤ n + d.phase.excess)
      (hk : k.excess = d.phase.excess) (hrest : k.Unfinished rest) :
    Sparing n d (.decoded runes ⟨.settled k, rest⟩)
  /-- The mark may yet come. -/
  | waiting {next : Decoder} (hphase : next.phase = d.phase) (hwaits : ∀ k, d.phase ≠ .settled k)
      (hnext : next.Unfinished) : Sparing n d (.decoded [] next)
  | broken {runes : Text} {f : Fault} (hle : runes.length ≤ n + d.phase.excess) :
    Sparing n d (.broken runes f)
  | unmarked {w : Wide} {next : Decoder} (hphase : next.phase = d.phase)
      (hwaits : ∀ k, d.phase ≠ .settled k) (hnext : next.Unfinished) :
    Sparing n d (.unmarked w next)

variable {d : Decoder} {n : Nat} {chunk content : Octets} {final : Bool}

theorem sparing_feedSettled (hk : k.excess = d.phase.excess)
    (hle : (k.pass final content).runes.length ≤ n + d.phase.excess) :
    (Decoder.feedSettled k final content).Sparing n d := by
  unfold Decoder.feedSettled
  cases hfault : (k.pass final content).fault with
  | none =>
    simp only [hfault]
    exact .settled hle hk (Codec.unfinished_rest hfault)
  | some f =>
    simp only [hfault]
    exact .broken hle

/-- The octets behind a mark are all from the chunk that completes the mark. -/
theorem length_runes_behindUtf8Mark (h : awaitsUtf8Mark s = true) (final : Bool) (u : Octets) :
    (Codec.utf8.pass final (behindUtf8Mark (s ++ u))).runes.length ≤ u.length := by
  unfold behindUtf8Mark
  split
  · have hlen := Codec.utf8.pass_length final ((s ++ u).drop 3)
    simp only [awaitsUtf8Mark, Bool.and_eq_true, decide_eq_true_eq] at h
    rw [List.length_drop, List.length_append] at hlen
    omega
  · exact Codec.length_runes_pass_append (unfinished_of_awaitsUtf8Mark h) final u

theorem sparing_feedUtf8Mark (hphase : d.phase = .beforeUtf8Mark)
    (h : awaitsUtf8Mark d.held = true) :
    (Decoder.feedUtf8Mark final (d.held ++ chunk)).Sparing chunk.length d := by
  have hunsettled (k : Codec) : d.phase ≠ .settled k := by
    rw [hphase]
    exact Phase.noConfusion
  have hnone : d.phase.excess = 0 := Phase.excess_eq_zero hunsettled
  cases hawaits : awaitsUtf8Mark (d.held ++ chunk) with
  | true =>
    rw [feedUtf8Mark_of_awaits hawaits]
    exact .waiting hphase.symm hunsettled hawaits
  | false =>
    rw [feedUtf8Mark_of_not_awaits hawaits]
    have hfed : (Decoder.feedSettled .utf8 final (behindUtf8Mark (d.held ++ chunk))).Sparing
        chunk.length d :=
      sparing_feedSettled hnone.symm
        (Nat.le_add_right_of_le (length_runes_behindUtf8Mark h final chunk))
    generalize Decoder.feedSettled .utf8 final (behindUtf8Mark (d.held ++ chunk)) = fed at hfed ⊢
    cases hfed with
    | settled hle hk hrest => exact .settled hle hk hrest
    | waiting hphase hwaits hnext => exact .waiting hphase hwaits hnext
    | unmarked hphase hwaits hnext => exact .unmarked hphase hwaits hnext
    | broken hle =>
      -- A second mark may go with the first one.
      refine .broken (Nat.le_trans ?_ hle)
      split
      · rw [List.length_tail]
        exact Nat.sub_le _ _
      · exact Nat.le_refl _

theorem sparing_feedOrderMark {w : Wide} (hphase : d.phase = .beforeOrderMark w)
    (h : w.orderOf d.held = none) :
    (Decoder.feedOrderMark w d.held chunk final).Sparing chunk.length d := by
  have hunsettled (k : Codec) : d.phase ≠ .settled k := by
    rw [hphase]
    exact Phase.noConfusion
  unfold Decoder.feedOrderMark
  cases horder : w.orderOf (d.held ++ chunk) with
  | some order =>
    have hshort : d.held.length < w.size := by
      refine Nat.lt_of_not_le fun hlong => ?_
      rw [Wide.orderOf_append hlong, h] at horder
      cases horder
    have hlen := (w.codec order).pass_length final ((d.held ++ chunk).drop w.size)
    rw [List.length_drop, List.length_append] at hlen
    have hk : (w.codec order).excess = d.phase.excess := by
      rw [Phase.excess_eq_zero hunsettled]
      cases w <;> rfl
    simp only [horder]
    exact sparing_feedSettled hk (by omega)
  | none =>
    simp only [horder]
    split
    · exact .waiting hphase.symm hunsettled horder
    · exact .broken (Nat.zero_le _)
    · exact .unmarked hphase.symm hunsettled h
    · exact .unmarked hphase.symm hunsettled (unfinished_of_held_nil rfl)

/-- A chunk yields no more runes than it has octets, and the excess, and what is held back after it
is no code yet. -/
theorem Decoder.sparing_feed (h : d.Unfinished) (chunk : Octets) (final : Bool) :
    (d.feed chunk final).Sparing chunk.length d := by
  unfold Decoder.Unfinished at h
  unfold Decoder.feed
  cases hphase : d.phase with
  | settled k =>
    have hexcess : d.phase.excess = k.excess := congrArg Phase.excess hphase
    rw [hphase] at h
    refine sparing_feedSettled hexcess.symm ?_
    rw [hexcess]
    exact Codec.length_runes_pass_append h final chunk
  | beforeUtf8Mark =>
    rw [hphase] at h
    exact sparing_feedUtf8Mark hphase h
  | beforeOrderMark w =>
    rw [hphase] at h
    exact sparing_feedOrderMark hphase h

end Charset

namespace Reader

/-! ### Taking chunks -/

variable {r r' : Reader}

/-- A reader that holds back nothing but unfinished codes, and has no rune ahead where it lacks a
codec or cannot take a chunk. -/
structure Sparing (r : Reader) : Prop where
  unfinished : r.decoder.Unfinished
  ahead_of_unsettled : r.breakage = none → (∀ k, r.decoder.phase ≠ .settled k) → r.ahead = []
  ahead_of_huge : maxChunk < r.chunkSize → r.ahead = []

/-- The most runes that one chunk can add. -/
def yield (r : Reader) : Nat := r.chunkSize + r.decoder.phase.excess

/-- A chunk that is taken adds no more runes than it can. Where none can be taken, nothing is
ahead. -/
theorem Sparing.takeChunk (h : r.Sparing) (hb : r.breakage = none) :
    (∃ r', takeChunk r = .ok () r' ∧ r'.Sparing ∧
      r'.ahead.length ≤ r.ahead.length + r.yield ∧ r'.yield = r.yield) ∨
    ∃ e r', takeChunk r = .error e r' ∧ r'.Sparing ∧ r'.ahead = [] ∧ r'.yield = r.yield := by
  have hchunk : (r.unread.take r.chunkSize).length ≤ r.chunkSize := by
    rw [List.length_take]
    exact Nat.min_le_left _ _
  have hfed := Decoder.sparing_feed h.unfinished (r.unread.take r.chunkSize)
    (r.unread.take r.chunkSize).isEmpty
  unfold Reader.takeChunk
  by_cases hsize : maxChunk < r.chunkSize
  · simp only [if_pos hsize]
    exact .inr ⟨_, _, rfl, h, h.ahead_of_huge hsize, rfl⟩
  simp only [if_neg hsize]
  generalize r.decoder.feed (r.unread.take r.chunkSize) (r.unread.take r.chunkSize).isEmpty =
    fed at hfed
  cases hfed with
  | settled hle hk hrest =>
    refine .inl ⟨_, rfl, ⟨hrest, fun _ hne => absurd rfl (hne _), fun hhuge => absurd hhuge hsize⟩,
      ?_, congrArg (r.chunkSize + ·) hk⟩
    rw [List.length_append, yield]
    omega
  | waiting hphase hwaits hnext =>
    simp only [h.ahead_of_unsettled hb hwaits, List.append_nil]
    exact .inl ⟨_, rfl, ⟨hnext, fun _ _ => rfl, fun _ => rfl⟩, Nat.zero_le _,
      congrArg (r.chunkSize + Phase.excess ·) hphase⟩
  | broken hle =>
    refine .inl ⟨_, rfl, ⟨unfinished_of_held_nil rfl, fun hnone => ?_,
      fun hhuge => absurd hhuge hsize⟩, ?_, rfl⟩
    · cases hnone
    · rw [List.length_append, yield]
      omega
  | unmarked hphase hwaits hnext =>
    have hnil := h.ahead_of_unsettled hb hwaits
    exact .inr ⟨_, _, rfl, ⟨hnext, fun _ _ => hnil, fun _ => hnil⟩, hnil,
      congrArg (r.chunkSize + Phase.excess ·) hphase⟩

/-- Filling up to `n` runes adds none, or stops with the chunk that brings what was missing. Where
it fails nothing is ahead. -/
theorem Sparing.fill (h : r.Sparing) (n : Nat) :
    (∃ r', r.fill n = .ok () r' ∧ r'.Sparing ∧ r'.yield = r.yield ∧
      (r'.ahead.length ≤ r.ahead.length ∨ r'.ahead.length < n + r.yield)) ∨
    ∃ e r', r.fill n = .error e r' ∧ r'.Sparing ∧ r'.yield = r.yield ∧ r'.ahead = [] := by
  fun_induction Reader.fill n r with
  | case1 r _ => exact .inl ⟨r, rfl, h, rfl, .inl (Nat.le_refl _)⟩
  | case2 r _ b _ hempty => exact .inr ⟨_, r, rfl, h, rfl, List.isEmpty_iff.1 hempty⟩
  | case3 r _ b _ _ => exact .inl ⟨r, rfl, h, rfl, .inl (Nat.le_refl _)⟩
  | case4 r _ _ _ => exact .inl ⟨r, rfl, h, rfl, .inl (Nat.le_refl _)⟩
  | case5 r hmore hb _ r₁ htake _ ih =>
    rw [hasAtLeast_iff] at hmore
    obtain ⟨r₂, htake', hsparing, hlen, hyield⟩ | ⟨e, r₂, htake', -⟩ := h.takeChunk hb
    · obtain rfl : r₁ = r₂ := by
        rw [htake] at htake'
        cases htake'
        rfl
      -- A chunk was taken because fewer than `n` runes were ahead.
      obtain ⟨r', hr', hsparing', hyield', hle⟩ | ⟨e, r', hr', hsparing', hyield', hnil⟩ :=
        ih hsparing
      · refine .inl ⟨r', hr', hsparing', hyield'.trans hyield, .inr ?_⟩
        omega
      · exact .inr ⟨e, r', hr', hsparing', hyield'.trans hyield, hnil⟩
    · rw [htake] at htake'
      cases htake'
  | case6 r _ hb _ e r₁ htake =>
    obtain ⟨r₂, htake', -⟩ | ⟨e', r₂, htake', hsparing, hnil, hyield⟩ := h.takeChunk hb
    · rw [htake] at htake'
      cases htake'
    · rw [htake] at htake'
      cases htake'
      exact .inr ⟨e, r₁, rfl, hsparing, hyield, hnil⟩

theorem Sparing.consume (h : r.Sparing) (n : Nat) : (r.consume n).Sparing := by
  have hdrop (hnil : r.ahead = []) : (r.consume n).ahead = [] := by
    show r.ahead.drop n = []
    rw [hnil, List.drop_nil]
  exact ⟨h.unfinished, fun hb hphase => hdrop (h.ahead_of_unsettled hb hphase),
    fun hhuge => hdrop (h.ahead_of_huge hhuge)⟩

/-! ### Calls -/

/-- A sparing reader with a given limit of lookahead and yield of a chunk, and with fewer runes
ahead than both together. -/
structure Bounded (limit size : Nat) (r : Reader) : Prop where
  sparing : r.Sparing
  maxPeek_eq : r.maxPeek = limit
  yield_eq : r.yield = size
  ahead_lt : r.ahead.length < limit + size

variable {limit size : Nat}

/-- Filling keeps the bound if it is for a look, and fails with nothing ahead. -/
theorem Bounded.fill (h : r.Bounded limit size) (n : Nat) :
    (∃ r', r.fill n = .ok () r' ∧ (n ≤ limit → r'.Bounded limit size) ∧
      (r'.consume n).Bounded limit size) ∨
    ∃ e r', r.fill n = .error e r' ∧ r'.Bounded limit size ∧ r'.ahead = [] := by
  have hlt := h.ahead_lt
  have hsize := h.yield_eq
  have hpos : 0 < r.yield := Nat.add_pos_left r.chunkSize_pos _
  obtain ⟨r', hfill, hsparing, hyield, hle⟩ | ⟨e, r', hfill, hsparing, hyield, hnil⟩ :=
    h.sparing.fill n
  · have hlimit := (Fetched.of_fill_ok hfill).place.maxPeek_eq.trans h.maxPeek_eq
    refine .inl ⟨r', hfill, fun hn => ⟨hsparing, hlimit, hyield.trans hsize, by omega⟩,
      hsparing.consume n, hlimit, hyield.trans hsize, ?_⟩
    -- Of what was fetched no more is left than the last chunk has brought.
    show (r'.ahead.drop n).length < limit + size
    rw [List.length_drop]
    omega
  · have hlimit := (Fetched.of_fill_error hfill).place.maxPeek_eq.trans h.maxPeek_eq
    refine .inr ⟨e, r', hfill, ⟨hsparing, hlimit, hyield.trans hsize, ?_⟩, hnil⟩
    rw [hnil, List.length_nil]
    omega

/-- A call keeps the bound. Where it fails it was refused, or nothing is ahead. -/
theorem Bounded.answer (h : r.Bounded limit size) (c : Call) :
    (r.answer c).2.Bounded limit size ∧
      ∀ e, (r.answer c).1 = .error e → c.Refused limit ∨ (r.answer c).2.ahead = [] := by
  cases c with
  | peek n =>
    rw [answer_peek, h.maxPeek_eq]
    by_cases hneg : n < 0
    · rw [if_pos hneg]
      exact ⟨h, fun _ _ => .inl (.inl hneg)⟩
    by_cases hlimit : limit < n.toNat
    · rw [if_neg hneg, if_pos hlimit]
      exact ⟨h, fun _ _ => .inl (.inr (by omega))⟩
    rw [if_neg hneg, if_neg hlimit]
    obtain ⟨r', hfill, hbounded, -⟩ | ⟨e, r', hfill, hbounded, hnil⟩ := h.fill n.toNat
    · rw [hfill]
      refine ⟨hbounded (Nat.not_lt.1 hlimit), fun e he => ?_⟩
      cases he
    · rw [hfill]
      exact ⟨hbounded, fun _ _ => .inr hnil⟩
  | advance n =>
    rw [answer_advance]
    by_cases hneg : n < 0
    · rw [if_pos hneg]
      exact ⟨h, fun _ _ => .inl hneg⟩
    rw [if_neg hneg]
    obtain ⟨r', hfill, -, hbounded⟩ | ⟨e, r', hfill, hbounded, hnil⟩ := h.fill n.toNat
    · rw [hfill]
      refine ⟨hbounded, fun e he => ?_⟩
      cases he
    · rw [hfill]
      exact ⟨hbounded, fun _ _ => .inr hnil⟩

theorem Bounded.after (h : r.Bounded limit size) (calls : List Call) :
    (r.after calls).Bounded limit size := by
  induction calls generalizing r with
  | nil => exact h
  | cons c calls ih => exact ih (h.answer c).1

theorem bounded_ofOctets {charset : Charset} (octets : Octets) {name : Text}
    {tables : List Table} {maxPeek : Int} (chunkSize : Int)
    (hname : Charset.ofName name tables = .ok charset) (hpeek : 1 ≤ maxPeek) :
    ∃ r, ofOctets octets name maxPeek chunkSize tables = .ok r ∧
      r.Bounded maxPeek.toNat ((max chunkSize 1).toNat + charset.excess) := by
  unfold ofOctets
  rw [if_neg (by omega), hname]
  have hheld : (Decoder.ofCharset charset).held = [] := by cases charset <;> rfl
  have hexcess : (Decoder.ofCharset charset).phase.excess = charset.excess := by
    cases charset <;> rfl
  refine ⟨_, rfl, ⟨unfinished_of_held_nil hheld, fun _ _ => rfl, fun _ => rfl⟩, rfl,
    congrArg ((max chunkSize 1).toNat + ·) hexcess, ?_⟩
  show 0 < maxPeek.toNat + ((max chunkSize 1).toNat + charset.excess)
  omega

/-- **A reader has no more runes ahead than one less than a look may ask for and one chunk**, and
one more if its character set has codes for two runes. That is so after any calls, however many
runes were to be consumed, and also after calls that failed. A call that fails without being refused
leaves no rune ahead. With a limit of no rune there is no reader. -/
theorem buffered_after_le {charset : Charset} (octets : Octets) {name : Text}
    {tables : List Table} (maxPeek chunkSize : Int)
    (hname : Charset.ofName name tables = .ok charset) :
    (maxPeek < 1 → ofOctets octets name maxPeek chunkSize tables = .error (.maxPeek maxPeek)) ∧
      (1 ≤ maxPeek → ∃ r, ofOctets octets name maxPeek chunkSize tables = .ok r ∧
        ∀ calls, ((r.after calls).buffered : Int) ≤
            maxPeek - 1 + max chunkSize 1 + charset.excess ∧
          ∀ c e, ((r.after calls).answer c).1 = .error e → ¬ c.Refused maxPeek.toNat →
            ((r.after calls).answer c).2.buffered = 0) := by
  refine ⟨fun hlow => by rw [ofOctets, if_pos hlow], fun hpeek => ?_⟩
  obtain ⟨r, hr, hbounded⟩ := bounded_ofOctets octets chunkSize hname hpeek
  refine ⟨r, hr, fun calls => ?_⟩
  have hafter := hbounded.after calls
  constructor
  · have hlt := hafter.ahead_lt
    unfold buffered
    omega
  · intro c e he hasked
    have hnil := ((hafter.answer c).2 e he).resolve_left hasked
    rw [buffered, hnil]
    rfl

/-- A rune that is cut by the chunks: the second one completes it, and there are as many runes ahead
as there can be. -/
theorem buffered_after_le_cutRune :
    Charset.ofName "utf-8".toList = .ok (.plain .utf8) ∧
      ∃ r, ofOctets [0x61, 0xC3, 0xA9, 0x62] "utf-8".toList 2 2 = .ok r ∧
        (r.after [.peek 2]).buffered = 3 ∧ ∀ calls, (r.after calls).buffered ≤ 3 := by
  have hname : Charset.ofName "utf-8".toList = .ok (.plain .utf8) := rfl
  let r : Reader :=
    { charsetName := "utf-8".toList, maxPeek := 2, chunkSize := 2
      decoder := .ofCharset (.plain .utf8), unread := [0x61, 0xC3, 0xA9, 0x62] }
  have hfull : (r.after [.peek 2]).buffered = 3 := by decide +kernel
  obtain ⟨r', hr', hbound⟩ :=
    (buffered_after_le [0x61, 0xC3, 0xA9, 0x62] 2 2 hname).2 (by decide)
  obtain rfl : r = r' := Except.ok.inj hr'
  refine ⟨hname, r, rfl, hfull, fun calls => ?_⟩
  have hle := (hbound calls).1
  simp only [Charset.excess, Codec.excess] at hle
  omega

/-- A code for two runes that is cut by the chunks: the octet that completes it brings both, and
there is a rune more ahead than a look may ask for. -/
theorem buffered_pair_cut :
    Charset.ofName "shift_jis_2004".toList = .ok (.plain (.table shiftJis2004)) ∧
      ∃ r, ofOctets [0x82, 0xF5] "shift_jis_2004".toList 1 1 = .ok r ∧
        (r.after [.peek 1]).buffered = 2 ∧
          ¬ ((r.after [.peek 1]).buffered : Int) ≤ 1 - 1 + max 1 1 := by
  have hname : Charset.ofName "shift_jis_2004".toList = .ok (.plain (.table shiftJis2004)) := by
    rfl
  let r : Reader :=
    { charsetName := "shift_jis_2004".toList, maxPeek := 1, chunkSize := 1
      decoder := .ofCharset (.plain (.table shiftJis2004)), unread := [0x82, 0xF5] }
  have hfull : (r.after [.peek 1]).buffered = 2 := by decide +kernel
  refine ⟨hname, r, ?_, hfull, ?_⟩
  · rw [ofOctets, hname]
    rfl
  · rw [hfull]
    decide

end Reader

end SourceNotes
