/-
  DocAudit.Proofs.Comment.Breaks
  ──────────────────────────────
  **WHERE A LINE IS BROKEN, AND WHAT IS KEPT.**

  A line is `LaidOut` on pieces when they hold it stretch by stretch, the first as it is
  and the others behind `pad` spaces each, with nothing but blanks left out between them.
  What stands between two pieces is a `Break`, and there are three kinds of it:

      between   two words, where the second does not fit behind the first
      within    a word, which is the first one of its piece and does not fit
      before    the first word, in blanks that fill the piece

  The pieces of a line are laid out in this way (`laidOut_wrapLine`).  So they hold all
  of its characters but the blanks (`LaidOut.solid_eq`), and all of its words, whole and
  in order, if every word fits (`LaidOut.words_eq`).
-/
import DocAudit.Proofs.Comment.Width

namespace DocAudit.Wrap

open Text

variable {width pad : Nat}

/-! ## §1. Breaks. -/

/-- Where a piece ends and another one follows: the piece, the blanks that are left out,
and the rest of the line, which begins with a word. -/
inductive Break (width : Nat) : Text → Text → Text → Prop
  /-- The piece ends in a word, and with the blanks before it the next word `word` does
  not fit. -/
  | between {piece gap word more : Text} : EndsSolid piece → gap ≠ [] →
      (∀ c ∈ gap, isBlank c = true) → IsWord word → BeginsBlank more →
      width < piece.length + gap.length + word.length → Break width piece gap (word ++ more)
  /-- The word `front ++ back` is cut.  Only blanks stand before it, it does not fit behind
  them, and it is cut where the piece is full. -/
  | within {lead front back more : Text} : (∀ c ∈ lead, isBlank c = true) → IsWord front →
      IsWord back → BeginsBlank more → width < lead.length + (front ++ back).length →
      (lead ++ front).length = width → Break width (lead ++ front) [] (back ++ more)
  /-- The piece is full of blanks, and the first word is still to come. -/
  | before {piece gap word more : Text} : (∀ c ∈ piece, isBlank c = true) →
      piece.length = width → (∀ c ∈ gap, isBlank c = true) → IsWord word →
      BeginsBlank more → Break width piece gap (word ++ more)

variable {piece gap rest : Text}

theorem Break.gap_blank (h : Break width piece gap rest) : ∀ c ∈ gap, isBlank c = true := by
  cases h with
  | between _ _ hgap _ _ _ => exact hgap
  | within => exact List.forall_mem_nil _
  | before _ _ hgap _ _ => exact hgap

/-- The rest begins with a word. -/
theorem Break.exists_word (h : Break width piece gap rest) :
    ∃ word more, rest = word ++ more ∧ IsWord word ∧ BeginsBlank more := by
  cases h with
  | between _ _ _ hword hmore _ => exact ⟨_, _, rfl, hword, hmore⟩
  | within _ _ hback hmore _ _ => exact ⟨_, _, rfl, hback, hmore⟩
  | before _ _ _ hword hmore => exact ⟨_, _, rfl, hword, hmore⟩

/-- A piece that is followed by another one ends in a solid character, or it is full of
blanks. -/
theorem Break.ends (h : Break width piece gap rest) :
    EndsSolid piece ∨ (∀ c ∈ piece, isBlank c = true) ∧ piece.length = width := by
  cases h with
  | between hsolid _ _ _ _ _ => exact .inl hsolid
  | within _ hfront _ _ _ _ => exact .inl (endsSolid_append hfront.1 hfront.2)
  | before hblank hfull _ _ _ => exact .inr ⟨hblank, hfull⟩

theorem not_endsSolid_of_blank {t : Text} (h : ∀ c ∈ t, isBlank c = true) : ¬EndsSolid t := by
  rintro ⟨c, hlast, hsolid⟩
  rw [h c (List.mem_of_getLast? hlast)] at hsolid
  cases hsolid

/-! ## §2. Where a long line is broken. -/

/-- A line that is too long is broken at the end of a word; or no word ends within the
width, and the line is broken there. -/
theorem endsWord_breakAt_or (width : Nat) (t : Text) :
    endsWord t (breakAt width t) = true
      ∨ breakAt width t = width ∧ ∀ i, 0 < i → i ≤ width → endsWord t i = false := by
  unfold breakAt
  cases hfind : (List.range' 1 width).reverse.find? (endsWord t) with
  | some i => exact .inl (List.find?_some hfind)
  | none =>
    refine .inr ⟨rfl, fun i hpos hi => ?_⟩
    have hmem : i ∈ (List.range' 1 width).reverse := by
      rw [List.mem_reverse, List.mem_range'_1]
      omega
    exact Bool.eq_false_iff.2 (List.find?_eq_none.1 hfind i hmem)

/-- In a line that is too long, a word that fits ends before a blank. -/
theorem endsWord_of_fits {head more : Text} (hlong : width < (head ++ more).length)
    (hfits : head.length ≤ width) (hhead : EndsSolid head) (hmore : BeginsBlank more) :
    endsWord (head ++ more) head.length = true := by
  refine endsWord_append hhead hmore ?_
  rintro rfl
  rw [List.append_nil] at hlong
  omega

/-- A text is broken at position `n`: the piece, the blanks behind it, and what is left. -/
def BrokenAt (width n : Nat) (t : Text) : Prop :=
  ∃ gap, t.drop n = gap ++ trimStart (t.drop n)
    ∧ Break width (t.take n) gap (trimStart (t.drop n))

/-- **A break at the end of a word.**  The next word does not fit, for the line would have
been broken behind it. -/
theorem brokenAt_of_endsWord {t : Text} (hlong : width < t.length)
    (hend : endsWord t (breakAt width t) = true) (hne : restAfter width t ≠ []) :
    BrokenAt width (breakAt width t) t := by
  obtain ⟨cut, hcut⟩ : ∃ cut, breakAt width t = cut := ⟨_, rfl⟩
  have hle : cut ≤ width := hcut ▸ breakAt_le width t
  rw [restAfter, hcut] at hne
  rw [hcut] at hend ⊢
  obtain ⟨gap, hdrop, hgap⟩ := exists_trimStart (t.drop cut)
  have hword := isWord_splitWord hne
  have hrest := append_splitWord (t.drop cut)
  have hpos : 0 < (splitWord (t.drop cut)).1.length := List.length_pos_iff.2 hword.1
  have htake : (t.take cut).length = cut := by
    rw [List.length_take]
    omega
  have hgapne : gap ≠ [] := by
    rintro rfl
    -- without blanks in between, the next word would begin with one
    obtain ⟨c, r, hcons⟩ := List.exists_cons_of_ne_nil hne
    have hblank := (beginsBlank_drop hend).1 c (by rw [hdrop, hcons]; rfl)
    rw [head?_trimStart (t.drop cut) c (by rw [hcons]; rfl)] at hblank
    cases hblank
  refine ⟨gap, hdrop, ?_⟩
  rw [← hrest]
  refine .between (endsSolid_take hend) hgapne hgap hword (beginsBlank_splitWord _)
    (Nat.lt_of_not_le fun hfits => ?_)
  have hsplit : t
      = t.take cut ++ gap ++ (splitWord (t.drop cut)).1 ++ (splitWord (t.drop cut)).2 := by
    rw [List.append_assoc, List.append_assoc, hrest, ← hdrop, List.take_append_drop]
  have hends := endsWord_of_fits (hsplit ▸ hlong)
    (by rwa [List.length_append, List.length_append])
    (endsSolid_append hword.1 hword.2) (beginsBlank_splitWord _)
  rw [← hsplit, List.length_append, List.length_append, htake] at hends
  have hearlier : cut + gap.length + (splitWord (t.drop cut)).1.length ≤ breakAt width t :=
    le_breakAt (by omega) (by omega) hends
  omega

variable {lead word more : Text}

/-- A break in the blanks in front, which fill the piece. -/
theorem brokenAt_before (hlead : ∀ c ∈ lead, isBlank c = true) (hword : IsWord word)
    (hmore : BeginsBlank more) (hfull : width ≤ lead.length) :
    BrokenAt width width (lead ++ (word ++ more)) := by
  have hgap : ∀ c ∈ lead.drop width, isBlank c = true :=
    fun c hc => hlead c (List.mem_of_mem_drop hc)
  have hpiece : ∀ c ∈ lead.take width, isBlank c = true :=
    fun c hc => hlead c (List.mem_of_mem_take hc)
  have hlength : (lead.take width).length = width := by
    rw [List.length_take]
    omega
  refine ⟨lead.drop width, ?_⟩
  rw [List.take_append_of_le_length hfull, List.drop_append_of_le_length hfull,
    trimStart_blanks_append hgap, trimStart_of_isWord hword]
  exact ⟨rfl, .before hpiece hlength hgap hword hmore⟩

/-- A break in the first word, which does not fit. -/
theorem brokenAt_within (hlead : ∀ c ∈ lead, isBlank c = true) (hword : IsWord word)
    (hmore : BeginsBlank more) (hroom : lead.length < width)
    (hover : width < lead.length + word.length) : BrokenAt width width (lead ++ (word ++ more)) := by
  obtain ⟨k, rfl⟩ : ∃ k, width = lead.length + k := ⟨width - lead.length, by omega⟩
  have hfront : IsWord (word.take k) := by
    refine ⟨?_, fun c hc => hword.2 c (List.mem_of_mem_take hc)⟩
    rw [Ne, List.take_eq_nil_iff, not_or]
    exact ⟨by omega, hword.1⟩
  have hback : IsWord (word.drop k) := by
    refine ⟨?_, fun c hc => hword.2 c (List.mem_of_mem_drop hc)⟩
    rw [Ne, List.drop_eq_nil_iff]
    omega
  have hfull : (lead ++ word.take k).length = lead.length + k := by
    rw [List.length_append, List.length_take]
    omega
  refine ⟨[], ?_⟩
  rw [List.take_length_add_append, List.drop_length_add_append,
    List.take_append_of_le_length (by omega), List.drop_append_of_le_length (by omega),
    trimStart_of_isWord hback]
  refine ⟨rfl, .within hlead hfront hback hmore ?_ hfull⟩
  rw [List.take_append_drop]
  exact hover

/-- **A break where no word ends within the width**: in the first word, or before it. -/
theorem brokenAt_of_no_end {t : Text} (hlong : width < t.length)
    (hnone : ∀ i, 0 < i → i ≤ width → endsWord t i = false)
    (hne : trimStart (t.drop width) ≠ []) : BrokenAt width width t := by
  obtain ⟨lead, ht, hlead⟩ := exists_trimStart t
  have hstart : trimStart t ≠ [] := by
    intro hnil
    rw [hnil, List.append_nil] at ht
    refine hne (List.dropWhile_eq_nil_iff.2 fun c hc => ?_)
    exact hlead c (ht ▸ List.mem_of_mem_drop hc)
  have hword := isWord_splitWord hstart
  have hmore := beginsBlank_splitWord t
  have hpos : 0 < (splitWord t).1.length := List.length_pos_iff.2 hword.1
  rw [← append_splitWord t] at ht
  -- the first word does not fit, for it would end within the width
  have hover : width < lead.length + (splitWord t).1.length := by
    refine Nat.lt_of_not_le fun hfits => ?_
    rw [← List.length_append] at hfits
    rw [← List.append_assoc] at ht
    have hends := endsWord_of_fits (ht ▸ hlong) hfits (endsSolid_append hword.1 hword.2) hmore
    rw [← ht, hnone _ (by rw [List.length_append]; omega) hfits] at hends
    cases hends
  rw [ht]
  by_cases hfull : width ≤ lead.length
  · exact brokenAt_before hlead hword hmore hfull
  · exact brokenAt_within hlead hword hmore (Nat.lt_of_not_le hfull) hover

/-- **A line that is too long is broken**, if more than blanks is left of it. -/
theorem brokenAt_breakAt {t : Text} (hlong : width < t.length) (hne : restAfter width t ≠ []) :
    BrokenAt width (breakAt width t) t := by
  rcases endsWord_breakAt_or width t with hend | ⟨hcut, hnone⟩
  · exact brokenAt_of_endsWord hlong hend hne
  · rw [restAfter, hcut] at hne
    rw [hcut]
    exact brokenAt_of_no_end hlong hnone hne

/-! ## §3. Pieces. -/

/-- A text laid out on pieces.  The first piece is `indent` and the beginning of the text,
every further one is `pad` spaces and what comes next; only blanks are left out. -/
inductive LaidOut (width pad : Nat) : Text → Text → List Text → Prop
  /-- The last piece, and blanks behind it. -/
  | last {indent body gap : Text} : (indent ++ body).length ≤ width →
      (∀ c ∈ gap, isBlank c = true) → LaidOut width pad indent (body ++ gap) [indent ++ body]
  /-- A piece, and the rest of the text behind a break. -/
  | next {indent body gap rest : Text} {ps : List Text} : (indent ++ body).length ≤ width →
      Break width (indent ++ body) gap rest → LaidOut width pad (spaces pad) rest ps →
      LaidOut width pad indent (body ++ (gap ++ rest)) ((indent ++ body) :: ps)

theorem LaidOut.of_fits {indent body : Text} (h : (indent ++ body).length ≤ width) :
    LaidOut width pad indent body [indent ++ body] := by
  have hlast : LaidOut width pad indent (body ++ []) [indent ++ body] :=
    .last h (List.forall_mem_nil _)
  rwa [List.append_nil] at hlast

/-- A break behind the indentation is a break of the text. -/
theorem take_breakAt_append {indent body : Text}
    (h : indent.length ≤ breakAt width (indent ++ body)) :
    ∃ k, (indent ++ body).take (breakAt width (indent ++ body)) = indent ++ body.take k
      ∧ (indent ++ body).drop (breakAt width (indent ++ body)) = body.drop k := by
  obtain ⟨k, hk⟩ : ∃ k, breakAt width (indent ++ body) = indent.length + k :=
    ⟨breakAt width (indent ++ body) - indent.length, by omega⟩
  refine ⟨k, ?_, ?_⟩
  · rw [hk, List.take_length_add_append]
  · rw [hk, List.drop_length_add_append]

/-- **One round**: what is left of a line that is too long, if it is more than blanks, is
laid out behind the piece that is broken off. -/
theorem LaidOut.of_long {indent body : Text} (hlong : width < (indent ++ body).length)
    (hindent : indent.length ≤ breakAt width (indent ++ body)) {ps : List Text}
    (hps : restAfter width (indent ++ body) = [] ∧ ps = []
      ∨ restAfter width (indent ++ body) ≠ []
        ∧ LaidOut width pad (spaces pad) (restAfter width (indent ++ body)) ps) :
    LaidOut width pad indent body
      ((indent ++ body).take (breakAt width (indent ++ body)) :: ps) := by
  have hlen : ((indent ++ body).take (breakAt width (indent ++ body))).length ≤ width := by
    have hle := breakAt_le width (indent ++ body)
    rw [List.length_take]
    omega
  obtain ⟨k, htake, hdrop⟩ := take_breakAt_append hindent
  rcases hps with ⟨hnil, rfl⟩ | ⟨hne, hps⟩
  · have hblank : ∀ c ∈ body.drop k, isBlank c = true := by
      obtain ⟨gap, hsplit, hgap⟩ :=
        exists_trimStart ((indent ++ body).drop (breakAt width (indent ++ body)))
      rw [show trimStart _ = [] from hnil, List.append_nil, hdrop] at hsplit
      rwa [hsplit]
    rw [htake] at hlen ⊢
    have hlast : LaidOut width pad indent (body.take k ++ body.drop k) [indent ++ body.take k] :=
      .last hlen hblank
    rwa [List.take_append_drop] at hlast
  · obtain ⟨gap, hsplit, hbreak⟩ := brokenAt_breakAt hlong hne
    rw [htake] at hlen hbreak ⊢
    have hnext := LaidOut.next hlen hbreak hps
    rwa [← hsplit, hdrop, List.take_append_drop] at hnext

theorem laidOut_continued (hpad : pad < width) (body : Text) :
    LaidOut width pad (spaces pad) body (continued width pad hpad body) := by
  have hspaces := length_spaces pad
  induction body using continued.induct width pad hpad with
  | case1 body t hlen =>
    rw [continued, dif_pos hlen]
    exact .of_fits hlen
  | case2 body t hlen cut rest hrest =>
    have hcut := pad_lt_breakAt body hpad
    rw [continued, dif_neg hlen, if_pos hrest]
    exact .of_long (Nat.lt_of_not_le hlen) (by omega) (.inl ⟨hrest, rfl⟩)
  | case3 body t hlen cut rest hrest ih =>
    have hcut := pad_lt_breakAt body hpad
    rw [continued, dif_neg hlen, if_neg hrest]
    exact .of_long (Nat.lt_of_not_le hlen) (by omega) (.inr ⟨hrest, ih⟩)

/-- **The pieces of a line** are laid out with the same indentation from the second on. -/
theorem laidOut_wrapLine (line : Text) (width indent : Nat) (indented : Bool) :
    LaidOut (max width 1) (padding (max width 1) indent indented line) [] line
      (wrapLine line width indent indented) := by
  unfold wrapLine
  dsimp only
  split
  · exact .of_fits ‹_›
  have hlong : max width 1 < line.length := Nat.lt_of_not_le ‹_›
  split
  · next hrest => exact LaidOut.of_long hlong (Nat.zero_le _) (.inl ⟨hrest, rfl⟩)
  · next hrest =>
    exact LaidOut.of_long hlong (Nat.zero_le _)
      (.inr ⟨hrest, laidOut_continued (padding_lt width indent indented line) _⟩)

/-- Every piece that is followed by another one ends at a break. -/
theorem LaidOut.ends {indent t : Text} {ps : List Text} (h : LaidOut width pad indent t ps) :
    ∀ piece ∈ ps.dropLast, EndsSolid piece ∨ ∀ c ∈ piece, isBlank c = true := by
  induction h with
  | last => exact List.forall_mem_nil _
  | next _ hbreak hmore ih =>
    intro piece hmem
    rw [List.dropLast_cons_of_ne_nil (by cases hmore <;> exact List.cons_ne_nil _ _)] at hmem
    rcases List.mem_cons.1 hmem with rfl | hmem
    · exact hbreak.ends.imp_right And.left
    · exact ih piece hmem

/-- A beginning of a text that begins with a word begins with a solid character. -/
theorem exists_solid_cons {body tail word more : Text} (h : body ++ tail = word ++ more)
    (hne : body ≠ []) (hword : IsWord word) : ∃ c r, body = c :: r ∧ isBlank c = false := by
  obtain ⟨hwordne, hsolid⟩ := hword
  obtain ⟨c, r, rfl⟩ := List.exists_cons_of_ne_nil hne
  obtain ⟨d, w, rfl⟩ := List.exists_cons_of_ne_nil hwordne
  obtain ⟨rfl, _⟩ := List.cons.inj h
  exact ⟨c, r, rfl, hsolid c List.mem_cons_self⟩

/-- **Pieces that go on begin with the indentation and a solid character**, if the text
begins with a word. -/
theorem LaidOut.begins {indent t : Text} {ps : List Text} (h : LaidOut width pad indent t ps)
    (hpad : pad < width) (hindent : indent = spaces pad)
    (ht : ∃ word more, t = word ++ more ∧ IsWord word ∧ BeginsBlank more) :
    ∀ piece ∈ ps, ∃ c more, piece = spaces pad ++ c :: more ∧ isBlank c = false := by
  induction h with
  | @last indent body gap hlen hgap =>
    obtain ⟨word, more, hsplit, hword, _⟩ := ht
    have hbody : body ≠ [] := by
      rintro rfl
      obtain ⟨c, r, rfl⟩ := List.exists_cons_of_ne_nil hword.1
      have hblank := hgap c (by rw [← List.nil_append gap, hsplit]; exact List.mem_cons_self)
      rw [hword.2 c List.mem_cons_self] at hblank
      cases hblank
    obtain ⟨c, r, rfl, hc⟩ := exists_solid_cons hsplit hbody hword
    intro piece hpiece
    rw [List.mem_singleton.1 hpiece, hindent]
    exact ⟨c, r, rfl, hc⟩
  | @next indent body gap rest ps hlen hbreak hmore ih =>
    obtain ⟨word, more, hsplit, hword, _⟩ := ht
    have hbody : body ≠ [] := by
      rintro rfl
      -- spaces alone end in no word, and they do not fill the piece
      rw [hindent, List.append_nil] at hbreak
      rcases hbreak.ends with hsolid | ⟨_, hfull⟩
      · exact not_endsSolid_of_blank (blank_spaces pad) hsolid
      · rw [length_spaces] at hfull
        omega
    obtain ⟨c, r, rfl, hc⟩ := exists_solid_cons hsplit hbody hword
    intro piece hpiece
    rcases List.mem_cons.1 hpiece with rfl | hpiece
    · rw [hindent]
      exact ⟨c, r, rfl, hc⟩
    · exact ih rfl hbreak.exists_word piece hpiece

theorem LaidOut.begins_tail {indent t : Text} {ps : List Text}
    (h : LaidOut width pad indent t ps) (hpad : pad < width) :
    ∀ piece ∈ ps.tail, ∃ c more, piece = spaces pad ++ c :: more ∧ isBlank c = false := by
  cases h with
  | last => exact List.forall_mem_nil _
  | next _ hbreak hmore => exact hmore.begins hpad rfl hbreak.exists_word

/-- **Lines are broken greedily and indented once.**  The pieces of a line are those of the
loop, which tells the indentation anew in every round; and they are laid out with one
indentation, that of the line at its beginning.  So every piece after the first is exactly
`pad` spaces and then a solid character and more; a piece that is followed by another one
ends in no blank, unless it is all blank; and what stands between two pieces is a `Break`:
the next word did not fit, and a word is cut only if it is the first one and does not fit.

The sum in `pad` is one of machine words.  Where it is not too large for one, it is the sum
itself, and the loop is the same under checked arithmetic. -/
theorem breaks_are_greedy (line : Text) (width indent : Nat) (indented : Bool) :
    let w := max width 1
    let leading := (line.takeWhile isBlank).length
    let pad := min (if indented then leading else (leading + indent) % wordSize) (w - 1)
    let ps := wrapLine line width indent indented
    (¬Overflows indent indented line →
        pad = min (leading + if indented then 0 else indent) (w - 1)
          ∧ Rounds true w indent indented line (some ps))
      ∧ Rounds false w indent indented line (some ps)
      ∧ LaidOut w pad [] line ps
      ∧ (∀ piece ∈ ps.tail, ∃ c more, piece = spaces pad ++ c :: more ∧ isBlank c = false)
      ∧ ∀ piece ∈ ps.dropLast, EndsSolid piece ∨ ∀ c ∈ piece, isBlank c = true := by
  intro w leading pad ps
  have hlaid : LaidOut w pad [] line ps := laidOut_wrapLine line width indent indented
  have hless : pad < w := padding_lt width indent indented line
  refine ⟨fun hsum => ⟨padding_eq hsum w, ?_⟩, ?_, hlaid, hlaid.begins_tail hless, hlaid.ends⟩
  · have hloop := rounds_outcome true line width indent indented
    rwa [outcome_of_fits fun _ => hsum] at hloop
  · exact rounds_outcome false line width indent indented

/-- An indent with which the sum is too large: its remainder is a single space. -/
example : wrapLine "  ab".toList 3 (wordSize - 1) false = ["  a".toList, " b".toList] := by
  decide +kernel

/-- A line that is broken between two words, and then twice in a word that does not fit. -/
theorem breaks_are_greedy_twice :
    let line := "  stir scrambled".toList
    let ps := wrapLine line 7 1 false
    ps = ["  stir".toList, "   scra".toList, "   mble".toList, "   d".toList]
      ∧ "   mble".toList ∈ ps.tail
      ∧ (∃ c more, "   mble".toList = spaces 3 ++ c :: more ∧ isBlank c = false)
      ∧ "  stir".toList ∈ ps.dropLast
      ∧ (EndsSolid "  stir".toList ∨ ∀ c ∈ "  stir".toList, isBlank c = true)
      ∧ LaidOut 7 3 [] line ps
      ∧ ¬Overflows 1 false line
      ∧ Rounds true 7 1 false line (some ps) := by
  intro line ps
  obtain ⟨hexact, _, hlaid, hbegins, hends⟩ := breaks_are_greedy line 7 1 false
  have hsum : ¬Overflows 1 false line := by decide
  have hps : ps = ["  stir".toList, "   scra".toList, "   mble".toList, "   d".toList] := by
    decide +kernel
  have htail : "   mble".toList ∈ ps.tail := by
    rw [hps]
    decide
  have hinit : "  stir".toList ∈ ps.dropLast := by
    rw [hps]
    decide
  exact ⟨hps, htail, hbegins _ htail, hinit, hends _ hinit, hlaid, hsum, (hexact hsum).2⟩

/-! ## §4. What is kept. -/

/-- **Nothing but blanks is lost.** -/
theorem LaidOut.solid_eq {indent t : Text} {ps : List Text} (h : LaidOut width pad indent t ps)
    (hindent : ∀ c ∈ indent, isBlank c = true) :
    ps.flatten.filter (!isBlank ·) = t.filter (!isBlank ·) := by
  have hnone : ∀ {b : Text}, (∀ c ∈ b, isBlank c = true) → b.filter (!isBlank ·) = [] := by
    intro b hb
    rw [List.filter_eq_nil_iff]
    intro c hc
    rw [hb c hc]
    decide
  induction h with
  | last _ hgap =>
    rw [List.flatten_singleton, List.filter_append, List.filter_append, hnone hindent, hnone hgap,
      List.append_nil]
    rfl
  | next _ hbreak _ ih =>
    have hrest := ih (blank_spaces pad)
    rw [List.flatten_cons, List.filter_append, hrest, List.filter_append, List.filter_append,
      List.filter_append, hnone hindent, hnone hbreak.gap_blank]
    rfl

/-- **A break keeps the words**, or else the first word of the text does not fit. -/
theorem Break.words_eq_or (h : Break width piece gap rest) :
    words (piece ++ (gap ++ rest)) = words piece ++ words rest
      ∨ ∃ lead word more, piece ++ (gap ++ rest) = lead ++ (word ++ more)
        ∧ (∀ c ∈ lead, isBlank c = true) ∧ IsWord word ∧ BeginsBlank more
        ∧ width < lead.length + word.length := by
  cases h with
  | @between _ _ word more _ hgapne hgap _ _ _ =>
    refine .inl ?_
    obtain ⟨c, r, rfl⟩ := List.exists_cons_of_ne_nil hgapne
    have hbegins : BeginsBlank (c :: r ++ (word ++ more)) :=
      beginsBlank_cons (hgap c List.mem_cons_self) (r ++ (word ++ more))
    rw [words_append_of_beginsBlank piece hbegins, words_blanks_append hgap]
  | @within lead front back more hlead hfront hback hmore hover _ =>
    refine .inr ⟨lead, front ++ back, more, by simp, hlead, ⟨?_, ?_⟩, hmore, hover⟩
    · exact List.append_ne_nil_of_left_ne_nil hfront.1 back
    · intro c hc
      rcases List.mem_append.1 hc with hc | hc
      · exact hfront.2 c hc
      · exact hback.2 c hc
  | before hpiece _ hgap _ _ =>
    rw [words_blanks_append hpiece, words_blanks_append hgap, words_of_blanks hpiece]
    exact .inl rfl

/-- The first word of a text, and the blanks in front of it. -/
theorem first_word {lead word : Text} (hlead : ∀ c ∈ lead, isBlank c = true) (hword : IsWord word)
    {more : Text} (hmore : BeginsBlank more) :
    (words (lead ++ (word ++ more))).head? = some word
      ∧ (lead ++ (word ++ more)).takeWhile isBlank = lead := by
  constructor
  · rw [words_blanks_append hlead, words_append_of_isWord hword hmore]
    rfl
  · refine (takeWhile_append_of_stop hlead ?_).1
    intro c hc
    obtain ⟨d, w, rfl⟩ := List.exists_cons_of_ne_nil hword.1
    cases hc
    exact hword.2 c List.mem_cons_self

/-- Whether the first word of a text fits behind the blanks in front of it. -/
def FirstFits (width : Nat) (t : Text) : Prop :=
  ∀ word ∈ (words t).head?, (t.takeWhile isBlank).length + word.length ≤ width

/-- **No word is lost, cut or merged**, if the first word fits behind the blanks in front
of it and every word fits behind the indentation. -/
theorem LaidOut.words_eq {indent t : Text} {ps : List Text} (h : LaidOut width pad indent t ps)
    (hindent : ∀ c ∈ indent, isBlank c = true) (hfirst : FirstFits width (indent ++ t))
    (hall : ∀ word ∈ words t, pad + word.length ≤ width) : ps.flatMap words = words t := by
  induction h with
  | @last indent body gap hlen hgap =>
    rw [List.flatMap_singleton, words_blanks_append hindent, words_append_blanks body hgap]
  | @next indent body gap rest ps hlen hbreak hmore ih =>
    have ht : words (body ++ (gap ++ rest)) = words (indent ++ body ++ (gap ++ rest)) := by
      rw [List.append_assoc, words_blanks_append hindent]
    rw [← List.append_assoc] at hfirst
    rcases hbreak.words_eq_or with hwords | ⟨lead, word, more, hsplit, hlead, hword, hmore, hover⟩
    · rw [ht, hwords] at hall ⊢
      have hrest : ∀ word ∈ words rest, pad + word.length ≤ width := fun word hmem =>
        hall word (List.mem_append_right _ hmem)
      have hnext : FirstFits width (spaces pad ++ rest) := by
        -- the next word stands right behind the indentation
        obtain ⟨word, more, rfl, hword, hmore⟩ := hbreak.exists_word
        obtain ⟨hhead, hlead⟩ := first_word (blank_spaces pad) hword hmore
        intro w hw
        rw [hhead] at hw
        cases hw
        rw [hlead, length_spaces]
        apply hrest
        rw [words_append_of_isWord hword hmore]
        exact List.mem_cons_self
      rw [List.flatMap_cons, ih (blank_spaces pad) hnext hrest]
    · -- a word that is cut is the first one, and it would have fitted
      obtain ⟨hhead, hleading⟩ := first_word hlead hword hmore
      rw [hsplit] at hfirst
      have hfits := hfirst word hhead
      rw [hleading] at hfits
      omega

/-- **Wrapping loses no text.**  The pieces of a line, which the loop yields unless checked
arithmetic stops it, hold its characters in order, blanks apart; and they hold its words in
order, none of them cut or merged, if the first word fits behind the blanks in front of the
line and every word fits behind the indentation that the line asks for.  Where the sum of
that indentation is too large for a machine word, the words have more room, not less. -/
theorem wrapping_keeps_text (line : Text) (width indent : Nat) (indented : Bool) :
    let w := max width 1
    let leading := (line.takeWhile isBlank).length
    let pad := min (leading + if indented then 0 else indent) (w - 1)
    let ps := wrapLine line width indent indented
    (∀ checked, (checked = true → ¬Overflows indent indented line) →
        Rounds checked w indent indented line (some ps))
      ∧ ps.flatten.filter (!isBlank ·) = line.filter (!isBlank ·)
      ∧ ((∀ word ∈ (words line).head?, leading + word.length ≤ w) →
          (∀ word ∈ words line, pad + word.length ≤ w) → ps.flatMap words = words line) := by
  intro w leading pad ps
  have hlaid := laidOut_wrapLine line width indent indented
  have hnone : ∀ c ∈ ([] : Text), isBlank c = true := List.forall_mem_nil _
  refine ⟨fun checked hsum => ?_, hlaid.solid_eq hnone, fun hfirst hall => ?_⟩
  · have hloop := rounds_outcome checked line width indent indented
    rwa [outcome_of_fits hsum] at hloop
  · have hroom : ∀ word ∈ words line,
        padding w indent indented line + word.length ≤ w := by
      intro word hword
      have hle : padding w indent indented line ≤ pad := padding_le w indent indented line
      have hfits := hall word hword
      omega
    exact hlaid.words_eq hnone hfirst hroom

/-- A line whose words fill the pieces to the brim. -/
theorem wrapping_keeps_text_brimful :
    let line := "  whisk the eggs, then  season".toList
    (∀ word ∈ (words line).head?, 2 + word.length ≤ 9)
      ∧ (∀ word ∈ words line, 3 + word.length ≤ 9)
      ∧ wrapLine line 9 1 false
          = ["  whisk".toList, "   the".toList, "   eggs,".toList, "   then".toList,
              "   season".toList]
      ∧ (wrapLine line 9 1 false).flatMap words = words line
      ∧ Rounds true 9 1 false line (some (wrapLine line 9 1 false)) := by
  intro line
  have hfirst : ∀ word ∈ (words line).head?, 2 + word.length ≤ 9 := by decide +kernel
  have hall : ∀ word ∈ words line, 3 + word.length ≤ 9 := by decide +kernel
  have hsum : ¬Overflows 1 false line := by decide
  obtain ⟨hloop, _, hwords⟩ := wrapping_keeps_text line 9 1 false
  exact ⟨hfirst, hall, by decide +kernel, hwords hfirst hall, hloop true fun _ => hsum⟩

end DocAudit.Wrap
