/-
Texts with a common beginning.

No decision of a scan looks further ahead than `Rules.horizon`. So what has come to its end
that far before the end of a common beginning is the same in two texts, whatever they go on
with and whether they end in a fault.

* **`placedComments`** — the comments among some segments with the places where they end;
* **`Segmentation.filter_placedComments`** — those that end early enough are the same for
  both texts;
* **`Scanner.drain_common`** — so they are for two scans.
-/
import SourceNotes.Proofs.Comment.Lookahead
import SourceNotes.Proofs.Comment.Scan

namespace SourceNotes

open Head Text Charset

/-! ### The horizon -/

/-- How far a scan by the rules looks ahead at most. -/
def Rules.horizon (rules : Rules) : Nat := Rules.greatest id rules.lookaheads

variable {rules : Rules} {cut cut' : Bool} {before common rest rest' s text : Text} {o : Opening}
  {form : Option Comment.Form} {segments segments' : List Segment}

theorem Rules.le_horizon {n : Nat} (h : n ∈ rules.lookaheads) : n ≤ rules.horizon :=
  Rules.le_greatest id h

theorem Rules.two_le_horizon (rules : Rules) : 2 ≤ rules.horizon :=
  Rules.le_horizon (List.mem_cons_self ..)

theorem Rules.fits_of_horizon_le {maxPeek : Int} (h : (rules.horizon : Int) ≤ maxPeek) :
    rules.Fits maxPeek.toNat := by
  intro n hn
  have := Rules.le_horizon hn
  omega

/-- A scan sees no mark as a whole from further away. -/
theorem Rules.length_le_horizon : ∀ p ∈ rules.marks, p.length ≤ rules.horizon := by
  intro p hp
  have hmem {n : Nat} (hn : n ∈ rules.lookaheads.tail) : n ≤ rules.horizon :=
    Rules.le_horizon (List.mem_of_mem_tail hn)
  rcases List.mem_append.1 hp with hp | hp
  · rcases List.mem_append.1 hp with hp | hp
    · obtain ⟨r, hr, rfl⟩ := List.mem_map.1 hp
      exact hmem (List.mem_append_left _ (List.mem_append_left _ (List.mem_map_of_mem hr)))
    · obtain ⟨r, hr, hp⟩ := List.mem_flatMap.1 hp
      refine hmem (List.mem_append_left _ (List.mem_append_right _ (List.mem_flatMap_of_mem hr ?_)))
      exact List.mem_map_of_mem hp
  · obtain ⟨r, hr, hp⟩ := List.mem_flatMap.1 hp
    have hlook {n : Nat} (hn : n ∈ r.lookaheads) : n ≤ rules.horizon :=
      hmem (List.mem_append_right _ (List.mem_flatMap_of_mem hr hn))
    rcases List.mem_cons.1 hp with rfl | hp
    · exact hlook (List.mem_cons_self ..)
    rcases List.mem_cons.1 hp with rfl | hp
    · exact hlook (List.mem_cons_of_mem _ (List.mem_cons_self ..))
    have hreach : r.escape.reach r.stop ≤ rules.horizon := hlook (by simp [StringRule.lookaheads])
    have htwo := rules.two_le_horizon
    cases he : r.escape with
    | none => rw [he] at hp; cases hp
    | char c =>
      rw [he] at hp hreach
      simp only [Escape.reach] at hreach
      simp only [Escape.marks, List.mem_cons, List.not_mem_nil, or_false] at hp
      rcases hp with rfl | rfl
      · rw [List.length_cons]
        omega
      · exact htwo
    | double =>
      rw [he] at hp hreach
      rw [List.mem_singleton.1 hp, List.length_append]
      exact hreach

theorem looksSame_of_horizon_le (h : rules.horizon ≤ common.length) (rest rest' : Text) :
    rules.LooksSame (common ++ rest) (common ++ rest') := by
  have hsame (t : Text) : rules.LooksSame (common ++ t) common :=
    looksSame_of_length (Nat.le_trans rules.two_le_horizon h)
      (fun p hp => Nat.le_trans (Rules.length_le_horizon p hp) h) t
  exact (hsame rest).trans (hsame rest').symm

/-! ### Places -/

/-- The comments among some segments that begin at the place `n`, each with the place where it
ends. -/
def placedComments : Nat → List Segment → List (Comment × Nat)
  | _, [] => []
  | n, x :: segments =>
    x.comment?.toList.map (·, n + x.text.length) ++ placedComments (n + x.text.length) segments

theorem map_fst_placedComments (n : Nat) (segments : List Segment) :
    (placedComments n segments).map Prod.fst = commentsOf segments := by
  induction segments generalizing n with
  | nil => rfl
  | cons x segments ih =>
    rw [placedComments, List.map_append, ih, List.map_map]
    cases x <;> rfl

theorem le_of_mem_placedComments {n : Nat} {c : Comment × Nat}
    (h : c ∈ placedComments n segments) : n ≤ c.2 := by
  induction segments generalizing n with
  | nil => cases h
  | cons x segments ih =>
    rcases List.mem_append.1 h with h | h
    · obtain ⟨d, -, rfl⟩ := List.mem_map.1 h
      exact Nat.le_add_right ..
    · have := ih h
      omega

theorem filter_placedComments_of_lt {n bound horizon : Nat} (h : bound < n + horizon)
    (segments : List Segment) :
    (placedComments n segments).filter (fun c => c.2 + horizon ≤ bound) = [] := by
  refine List.filter_eq_nil_iff.2 fun c hc => ?_
  have := le_of_mem_placedComments hc
  simp only [decide_eq_true_eq]
  omega

/-! ### A common beginning -/

/-- What opens in a common beginning and ends before the horizon does so in both texts. -/
theorem Opening.Closes.of_common (hrules : o.IsOf rules)
    (h : o.Closes cut before s (common ++ rest) form) (hfar : rules.horizon ≤ common.length)
    (cut' : Bool) (rest' : Text) : o.Closes cut' before s (common ++ rest') form := by
  have htwo := rules.two_le_horizon
  refine h.congr hrules (fun u v _ => ?_) (fun _ _ _ => rfl) fun _ _ hnil => ?_
  · rw [← List.append_assoc, ← List.append_assoc]
    refine looksSame_of_horizon_le ?_ rest rest'
    rw [List.length_append]
    omega
  · rw [(List.append_eq_nil_iff.1 hnil).1, List.length_nil] at hfar
    omega

/-- If what opens does not end before the horizon, then no comment does. -/
theorem Segmentation.filter_placedComments_of_far (hwin : rules.winnerAt before
      (o.start ++ (common ++ rest)) = some o)
    (h : Segmentation rules cut before (o.start ++ (common ++ rest)) segments)
    (hfar : ∀ s w form, common = s ++ w → o.Closes cut (before ++ o.start) s (w ++ rest) form →
      w.length < rules.horizon) (n : Nat) :
    (placedComments n segments).filter
      (fun c => c.2 + rules.horizon ≤ n + (o.start ++ common).length) = [] := by
  rcases h.inv_opening hwin with ⟨s, rest₁, form, more, heq, hclose, rfl, -⟩ | ⟨-, rfl⟩
  · -- The first segment already ends too late.
    have hlate : n + (o.start ++ common).length <
        n + (o.segment before s form).text.length + rules.horizon := by
      rw [Opening.text_segment, List.length_append, List.length_append]
      rcases List.append_eq_append_iff.1 heq with ⟨w, rfl, -⟩ | ⟨w, rfl, rfl⟩
      · have := rules.two_le_horizon
        rw [List.length_append]
        omega
      · have := hfar s w form rfl hclose
        rw [List.length_append]
        omega
    rw [placedComments, List.filter_append, filter_placedComments_of_lt hlate, List.append_nil]
    refine List.filter_eq_nil_iff.2 fun c hc => ?_
    obtain ⟨d, -, rfl⟩ := List.mem_map.1 hc
    simp only [decide_eq_true_eq]
    omega
  · rfl

/-- The comments that end before the horizon of a common beginning are the same in both texts. -/
theorem Segmentation.filter_placedComments
    (h : Segmentation rules cut before (common ++ rest) segments)
    (h' : Segmentation rules cut' before (common ++ rest') segments') (n : Nat) :
    (placedComments n segments).filter (fun c => c.2 + rules.horizon ≤ n + common.length) =
      (placedComments n segments').filter (fun c => c.2 + rules.horizon ≤ n + common.length) := by
  -- By the length of the common beginning that is still to come.
  induction hlen : common.length using Nat.strongRecOn
    generalizing before common segments segments' n with
  | ind m ih =>
    subst hlen
    by_cases hnear : common.length < rules.horizon
    · have hlt : n + common.length < n + rules.horizon := by omega
      rw [filter_placedComments_of_lt hlt, filter_placedComments_of_lt hlt]
    · have htwo := rules.two_le_horizon
      have hsame := (looksSame_of_horizon_le (Nat.not_lt.1 hnear) rest rest').winnerAt_eq before
      cases hwin : rules.winnerAt before (common ++ rest) with
      | none =>
        rcases common with _ | ⟨c, common⟩
        · rw [List.length_nil] at hnear
          omega
        · obtain ⟨more, rfl, hmore⟩ := h.inv_code hwin
          obtain ⟨more', rfl, hmore'⟩ := h'.inv_code (hsame.symm.trans hwin)
          have := ih common.length (Nat.lt_succ_self _) hmore hmore' (n + 1) rfl
          rw [List.length_cons, Nat.add_comm common.length 1, ← Nat.add_assoc]
          exact this
      | some o =>
        have hwin' := hsame.symm.trans hwin
        have hrules := Opening.isOf_of_winnerAt hwin
        -- The start of what opens is within the common beginning.
        obtain ⟨w, rfl⟩ : ∃ w, common = o.start ++ w := by
          have hstands := Rules.startsWith_of_winnerAt hwin
          have hlen : o.start.length ≤ common.length := by
            exact Nat.le_trans (Rules.length_le_horizon _ hrules.start_mem_marks)
              (Nat.not_lt.1 hnear)
          rw [startsWith_append_of_length hlen] at hstands
          obtain ⟨w, hw⟩ := List.isPrefixOf_iff_prefix.1 hstands
          exact ⟨w, hw.symm⟩
        rw [List.append_assoc] at h h' hwin hwin'
        by_cases hearly : ∃ s v form, w = s ++ v ∧ rules.horizon ≤ v.length ∧
            o.Closes cut (before ++ o.start) s (v ++ rest) form
        · obtain ⟨s, v, form, rfl, hfar, hclose⟩ := hearly
          have hclose' := hclose.of_common hrules hfar cut' rest'
          rw [List.append_assoc] at h h' hwin hwin'
          obtain ⟨more, rfl, hmore⟩ := h.inv_closed hwin hclose
          obtain ⟨more', rfl, hmore'⟩ := h'.inv_closed hwin' hclose'
          have hstart := List.length_pos_iff.2 (Opening.start_ne_nil o)
          have hrest := ih v.length (by simp only [List.length_append]; omega) hmore hmore'
            (n + (o.start ++ s).length) rfl
          have hbound :
              n + (o.start ++ (s ++ v)).length = n + (o.start ++ s).length + v.length := by
            simp only [List.length_append]
            omega
          rw [placedComments, placedComments, List.filter_append, List.filter_append,
            Opening.text_segment, hbound, hrest]
        · have hfar {cut : Bool} {rest : Text} (hno : ¬ ∃ s v form, w = s ++ v ∧
                rules.horizon ≤ v.length ∧ o.Closes cut (before ++ o.start) s (v ++ rest) form) :
              ∀ s v form, w = s ++ v → o.Closes cut (before ++ o.start) s (v ++ rest) form →
                v.length < rules.horizon :=
            fun s v form hw hclose =>
              Nat.lt_of_not_le fun hle => hno ⟨s, v, form, hw, hle, hclose⟩
          rw [h.filter_placedComments_of_far hwin (hfar hearly),
            h'.filter_placedComments_of_far hwin' (hfar ?_)]
          rintro ⟨s, v, form, hw, hle, hclose⟩
          exact hearly ⟨s, v, form, hw, hle, hclose.of_common hrules hle cut rest⟩

/-! ### Two scans -/

namespace Scanner

/-- Two scans of texts with a common beginning, which may go on differently, end or break off
where the octets cannot be decoded, deliver the same comments of those that end before the
horizon. -/
theorem drain_common {octets octets' : Octets} {k k' : Codec}
    (hcommon : common <+: (k.pass true octets).runes)
    (hcommon' : common <+: (k'.pass true octets').runes) {charsetName charsetName' : Text}
    {maxPeek maxPeek' : Int} (chunkSize : Int)
    (hname : Charset.ofName charsetName = .ok (.plain k))
    (hname' : Charset.ofName charsetName' = .ok (.plain k'))
    (hpeek : (rules.horizon : Int) ≤ maxPeek) (hpeek' : (rules.horizon : Int) ≤ maxPeek') :
    ∃ r r' segments segments',
      Reader.ofOctets octets charsetName maxPeek chunkSize = .ok r ∧
      Reader.ofOctets octets' charsetName' maxPeek' chunkSize = .ok r' ∧
      Segmentation rules (k.pass true octets).fault.isSome [] (k.pass true octets).runes segments ∧
      Segmentation rules (k'.pass true octets').fault.isSome [] (k'.pass true octets').runes
        segments' ∧
      (ofReader rules r).drain.1 =
        (if chunkSize ≤ Reader.maxChunk then (placedComments 0 segments).map Prod.fst else []) ∧
      (ofReader rules r').drain.1 =
        (if chunkSize ≤ Reader.maxChunk then (placedComments 0 segments').map Prod.fst else []) ∧
      (placedComments 0 segments).filter (fun c => c.2 + rules.horizon ≤ common.length) =
        (placedComments 0 segments').filter (fun c => c.2 + rules.horizon ≤ common.length) := by
  obtain ⟨segments, hseg⟩ := exists_segmentation rules (k.pass true octets).fault.isSome []
    (k.pass true octets).runes
  obtain ⟨segments', hseg'⟩ := exists_segmentation rules (k'.pass true octets').fault.isSome []
    (k'.pass true octets').runes
  obtain ⟨r, hr, hdrain⟩ := exists_drain chunkSize hname (Rules.fits_of_horizon_le hpeek) hseg
  obtain ⟨r', hr', hdrain'⟩ := exists_drain chunkSize hname' (Rules.fits_of_horizon_le hpeek') hseg'
  rw [← map_fst_placedComments 0] at hdrain hdrain'
  refine ⟨r, r', segments, segments', hr, hr', hseg, hseg', hdrain, hdrain', ?_⟩
  obtain ⟨rest, hrest⟩ := hcommon
  obtain ⟨rest', hrest'⟩ := hcommon'
  rw [← hrest] at hseg
  rw [← hrest'] at hseg'
  have := hseg.filter_placedComments hseg' 0
  rwa [Nat.zero_add] at this

/-- A comment in front of a text that ends in one input and has undecodable octets behind it in
the other. -/
theorem drain_common_cut :
    "/**/ab".toList <+: (Codec.utf8.pass true [0x2F, 0x2A, 0x2A, 0x2F, 0x61, 0x62]).runes ∧
      "/**/ab".toList <+:
        (Codec.utf8.pass true ([0x2F, 0x2A, 0x2A, 0x2F, 0x61, 0x62] ++ [0xFF])).runes ∧
      Charset.ofName "utf-8".toList = .ok (.plain .utf8) ∧
      (Language.slashStyle.horizon : Int) ≤ 1024 ∧
      ∃ r r' segments segments',
        Reader.ofOctets [0x2F, 0x2A, 0x2A, 0x2F, 0x61, 0x62] "utf-8".toList 1024 4096 = .ok r ∧
        Reader.ofOctets ([0x2F, 0x2A, 0x2A, 0x2F, 0x61, 0x62] ++ [0xFF]) "utf-8".toList 1024 4096 =
          .ok r' ∧
        (ofReader Language.slashStyle r).drain.1 = (placedComments 0 segments).map Prod.fst ∧
        (ofReader Language.slashStyle r').drain.1 = (placedComments 0 segments').map Prod.fst ∧
        (placedComments 0 segments).filter (fun c => c.2 + 2 ≤ 6) =
          [(⟨"/**/".toList, 1, .block (some Language.slashBlock)⟩, 4)] ∧
        (placedComments 0 segments').filter (fun c => c.2 + 2 ≤ 6) =
          [(⟨"/**/".toList, 1, .block (some Language.slashBlock)⟩, 4)] := by
  have hpass (final : Bool) : Codec.utf8.pass final [0x2F, 0x2A, 0x2A, 0x2F, 0x61, 0x62] =
      ⟨"/**/ab".toList, [], none⟩ := Codec.pass_utf8_of_ascii final (by simp)
  have hpass' : Codec.utf8.pass true ([0x2F, 0x2A, 0x2A, 0x2F, 0x61, 0x62] ++ [0xFF]) =
      ⟨"/**/ab".toList, [0xFF], some .startByte⟩ := by
    rw [Codec.pass_append .utf8 true (hpass false), List.nil_append,
      Codec.pass_of_bad (f := .startByte) true rfl, List.append_nil]
  have hcommon : "/**/ab".toList <+:
      (Codec.utf8.pass true [0x2F, 0x2A, 0x2A, 0x2F, 0x61, 0x62]).runes := by
    simp only [hpass true, List.prefix_refl]
  have hcommon' : "/**/ab".toList <+:
      (Codec.utf8.pass true ([0x2F, 0x2A, 0x2A, 0x2F, 0x61, 0x62] ++ [0xFF])).runes := by
    simp only [hpass', List.prefix_refl]
  have hname : Charset.ofName "utf-8".toList = .ok (.plain .utf8) := rfl
  have hpeek : (Language.slashStyle.horizon : Int) ≤ 1024 := by decide
  obtain ⟨r, r', segments, segments', hr, hr', hseg, -, hdrain, hdrain', hsame⟩ :=
    drain_common hcommon hcommon' 4096 hname hname hpeek hpeek
  -- The segments of the text that ends.
  rw [hpass true] at hseg
  have hblock : Reads (decideBlock Language.slashBlock) false 0 ['/', '*'] ['*', '/'] ['a', 'b']
      () := .last rfl (by decide)
  have hseg' : Segmentation Language.slashStyle false [] "/**/ab".toList
      [.comment ⟨"/**/".toList, 1, .block (some Language.slashBlock)⟩, .code 'a', .code 'b'] :=
    @Segmentation.closed _ _ [] "*/".toList "ab".toList (.block Language.slashBlock) _ _ rfl
      (.block hblock) (.code rfl (.code rfl .done))
  obtain rfl := hseg.unique hseg'
  exact ⟨hcommon, hcommon', hname, hpeek, r, r', _, segments', hr, hr', hdrain, hdrain', rfl,
    hsame.symm⟩

end Scanner

end SourceNotes
