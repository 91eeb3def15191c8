/-
  DocAudit.Proofs.Comment.Located
  ───────────────────────────────
  **WHAT A LOCATED COMMENT LOOKS LIKE.**

  Every comment that is found is a block of the source (`blockIn_of_mem`): an opening
  line, lines that neither open nor close, and a closing line.  So it is never empty, it
  begins and ends as its dialect wants, and it is known from its interior
  (`eq_ofInner_interior`).  The blocks follow one another without touching
  (`pairwise_apart`), so two of them end two lines apart at least (`pairwise_endLine`).

  Nothing else hides a block, so the comments that are found are the blocks of the source
  (`mem_locate_iff`).  Told by line numbers, a block is a pair of lines that `Encloses`
  neither an opening nor a closing.
-/
import DocAudit.Proofs.Comment.Locate

namespace DocAudit.Comment

variable {d : Dialect} {n : Nat} {ls : List Text} {c : Comment}

/-! ## §1. Blocks of the source. -/

/-- A comment is a block among lines, the first of which has number `n`. -/
inductive BlockIn (d : Dialect) (n : Nat) : List Text → Comment → Prop where
  /-- The block stands between the lines above and the lines below. -/
  | intro (above : List Text) (opening : Text) (inner : List Text) (closing : Text)
      (below : List Text) :
      Text.trimEnd opening = d.opening →
      (∀ l ∈ inner, Text.trimEnd l ≠ d.opening ∧ Text.trimEnd l ≠ closingLine) →
      Text.trimEnd closing = closingLine →
      BlockIn d n (above ++ opening :: (inner ++ closing :: below))
        (ofInner d (n + above.length) inner)

/-- A comment is what an open block becomes on lines, the first of which has number `n`. -/
inductive Finishes (d : Dialect) (n : Nat) (o : Open) : List Text → Comment → Prop where
  /-- The block goes on until a closing line. -/
  | intro (inner : List Text) (closing : Text) (below : List Text) :
      (∀ l ∈ inner, Text.trimEnd l ≠ d.opening ∧ Text.trimEnd l ≠ closingLine) →
      Text.trimEnd closing = closingLine →
      Finishes d n o (inner ++ closing :: below)
        ⟨o.startLine, n + inner.length, o.lines ++ (inner ++ [closing]).map Text.trimEnd⟩

theorem BlockIn.cons (h : BlockIn d (n + 1) ls c) (raw : Text) : BlockIn d n (raw :: ls) c := by
  obtain ⟨above, opening, inner, closing, below, hopen, hinner, hclose⟩ := h
  have hline : n + 1 + above.length = n + (raw :: above).length := by
    simp
    omega
  rw [hline]
  exact BlockIn.intro (raw :: above) opening inner closing below hopen hinner hclose

/-- What the opening line begins is a block. -/
theorem Finishes.blockIn {raw : Text} (hopen : Text.trimEnd raw = d.opening)
    (h : Finishes d (n + 1) ⟨n, [Text.trimEnd raw]⟩ ls c) : BlockIn d n (raw :: ls) c := by
  obtain ⟨inner, closing, below, hinner, hclose⟩ := h
  have hcomment : Comment.mk n (n + 1 + inner.length)
      ([Text.trimEnd raw] ++ (inner ++ [closing]).map Text.trimEnd) = ofInner d (n + 0) inner := by
    have hlines : [Text.trimEnd raw] ++ (inner ++ [closing]).map Text.trimEnd
        = (d.opening :: inner ++ [closingLine]).map Text.trimEnd := by
      simp [hopen, hclose, trimEnd_opening, trimEnd_closingLine]
    have hend : n + 1 + inner.length = n + inner.length + 1 := by omega
    rw [hlines, hend]
    rfl
  rw [hcomment]
  exact BlockIn.intro [] raw inner closing below hopen hinner hclose

theorem Finishes.cons {o : Open} {raw : Text}
    (hraw : Text.trimEnd raw ≠ d.opening ∧ Text.trimEnd raw ≠ closingLine)
    (h : Finishes d (n + 1) (o.add (Text.trimEnd raw)) ls c) : Finishes d n o (raw :: ls) c := by
  obtain ⟨inner, closing, below, hinner, hclose⟩ := h
  have hcomment : Comment.mk o.startLine (n + 1 + inner.length)
        (o.lines ++ [Text.trimEnd raw] ++ (inner ++ [closing]).map Text.trimEnd)
      = ⟨o.startLine, n + (raw :: inner).length,
          o.lines ++ (raw :: inner ++ [closing]).map Text.trimEnd⟩ := by
    simp
    omega
  have hall : ∀ l ∈ raw :: inner, Text.trimEnd l ≠ d.opening ∧ Text.trimEnd l ≠ closingLine := by
    intro l hl
    rcases List.mem_cons.1 hl with rfl | hl
    · exact hraw
    · exact hinner l hl
  show Finishes d n o _ (Comment.mk o.startLine (n + 1 + inner.length)
    (o.lines ++ [Text.trimEnd raw] ++ (inner ++ [closing]).map Text.trimEnd))
  rw [hcomment]
  exact Finishes.intro (raw :: inner) closing below hall hclose

/-- **What is located is a block**, or the rest of the one that was open. -/
theorem blockIn_of_mem_locateFrom {state : Option Open} (h : c ∈ locateFrom d n state ls) :
    BlockIn d n ls c ∨ ∃ o, state = some o ∧ Finishes d n o ls c := by
  induction ls generalizing n state with
  | nil => exact absurd h List.not_mem_nil
  | cons raw rest ih =>
    by_cases hopen : Text.trimEnd raw = d.opening
    · rw [locateFrom_opening hopen] at h
      rcases ih h with hblock | ⟨o, ho, hfinishes⟩
      · exact .inl (hblock.cons raw)
      · cases ho
        exact .inl (hfinishes.blockIn hopen)
    by_cases hclose : Text.trimEnd raw = closingLine
    · rw [locateFrom_closing hopen hclose] at h
      rcases List.mem_append.1 h with h | h
      · obtain ⟨o, rfl, rfl⟩ := Option.map_eq_some_iff.1 (Option.mem_toList.1 h)
        refine .inr ⟨o, rfl, ?_⟩
        exact Finishes.intro [] raw rest (fun _ hl => absurd hl List.not_mem_nil) hclose
      · rcases ih h with hblock | ⟨_, ho, _⟩
        · exact .inl (hblock.cons raw)
        · cases ho
    · rw [locateFrom_inside hopen hclose] at h
      rcases ih h with hblock | ⟨_, ho, hfinishes⟩
      · exact .inl (hblock.cons raw)
      · obtain ⟨o, rfl, rfl⟩ := Option.map_eq_some_iff.1 ho
        exact .inr ⟨o, rfl, hfinishes.cons ⟨hopen, hclose⟩⟩

/-- **Every located comment is a block of the source.** -/
theorem blockIn_of_mem (h : c ∈ locate d ls) : BlockIn d 1 ls c := by
  rcases blockIn_of_mem_locateFrom h with hblock | ⟨_, ho, _⟩
  · exact hblock
  · cases ho

/-- Where no line opens a block, nothing is located. -/
theorem locate_eq_nil (h : ∀ l ∈ ls, Text.trimEnd l ≠ d.opening) : locate d ls = [] := by
  apply List.eq_nil_iff_forall_not_mem.2
  intro c hc
  obtain ⟨above, opening, inner, closing, below, hopen, _, _⟩ := blockIn_of_mem hc
  have hmem : opening ∈ above ++ opening :: (inner ++ closing :: below) :=
    List.mem_append_right above List.mem_cons_self
  exact h opening hmem hopen

theorem BlockIn.le_startLine (h : BlockIn d n ls c) : n ≤ c.startLine := by
  obtain ⟨above, _, inner, _, _, _, _, _⟩ := h
  show n ≤ n + above.length
  omega

/-- A comment takes two lines at least. -/
theorem BlockIn.startLine_lt_endLine (h : BlockIn d n ls c) : c.startLine < c.endLine := by
  obtain ⟨above, _, inner, _, _, _, _, _⟩ := h
  show n + above.length < n + above.length + inner.length + 1
  omega

/-- **Comments do not touch**: each begins below the end of the one before. -/
theorem pairwise_locateFrom (n : Nat) (state : Option Open) (ls : List Text) :
    (locateFrom d n state ls).Pairwise fun c e => c.endLine < e.startLine := by
  induction ls generalizing n state with
  | nil => exact List.Pairwise.nil
  | cons raw rest ih =>
    by_cases hopen : Text.trimEnd raw = d.opening
    · rw [locateFrom_opening hopen]
      exact ih _ _
    by_cases hclose : Text.trimEnd raw = closingLine
    · rw [locateFrom_closing hopen hclose]
      cases state with
      | none => exact ih _ _
      | some o =>
        refine List.pairwise_cons.2 ⟨fun e he => ?_, ih _ _⟩
        rcases blockIn_of_mem_locateFrom he with hblock | ⟨_, ho, _⟩
        · exact hblock.le_startLine
        · cases ho
    · rw [locateFrom_inside hopen hclose]
      exact ih _ _

theorem pairwise_apart (d : Dialect) (ls : List Text) :
    (locate d ls).Pairwise fun c e =>
      c ∈ locate d ls ∧ e ∈ locate d ls ∧ c.endLine < e.startLine :=
  List.Pairwise.and_mem.1 (pairwise_locateFrom 1 none ls)

/-- **Comments end two lines apart at least.** -/
theorem pairwise_endLine (d : Dialect) (ls : List Text) :
    (locate d ls).Pairwise fun c e => c.endLine + 2 ≤ e.endLine := by
  refine (pairwise_apart d ls).imp ?_
  rintro c e ⟨_, he, hbelow⟩
  have hlines := (blockIn_of_mem he).startLine_lt_endLine
  omega

/-! ## §2. Inner lines. -/

/-- The source lines strictly between the first and the last line of a comment. -/
def interior (ls : List Text) (c : Comment) : List Text :=
  (ls.drop c.startLine).take (c.endLine - c.startLine - 1)

/-- A located comment is known from its interior. -/
theorem eq_ofInner_interior (h : c ∈ locate d ls) : c = ofInner d c.startLine (interior ls c) := by
  obtain ⟨above, opening, inner, closing, below, _, _, _⟩ := blockIn_of_mem h
  have hdrop : (above ++ opening :: (inner ++ closing :: below)).drop (1 + above.length)
      = inner ++ closing :: below := by
    rw [Nat.add_comm, ← List.drop_drop, List.drop_left]
    rfl
  have hcount : 1 + above.length + inner.length + 1 - (1 + above.length) - 1 = inner.length := by
    omega
  have hinterior : interior (above ++ opening :: (inner ++ closing :: below))
      (ofInner d (1 + above.length) inner) = inner := by
    show ((above ++ opening :: (inner ++ closing :: below)).drop (1 + above.length)).take
      (1 + above.length + inner.length + 1 - (1 + above.length) - 1) = inner
    rw [hdrop, hcount, List.take_left]
  rw [hinterior]
  rfl

/-! ## §3. Every block is located. -/

/-- **Every block of the source is located**, whatever was open above it. -/
theorem mem_locateFrom_of_blockIn (h : BlockIn d n ls c) (state : Option Open) :
    c ∈ locateFrom d n state ls := by
  obtain ⟨above, opening, inner, closing, below, hopen, hinner, hclose⟩ := h
  rw [locateFrom_append, locateFrom_block hopen hinner hclose]
  exact List.mem_append_right _ List.mem_cons_self

/-- **The comments that are located are the blocks of the source.** -/
theorem mem_locate_iff : c ∈ locate d ls ↔ BlockIn d 1 ls c :=
  ⟨blockIn_of_mem, fun h => mem_locateFrom_of_blockIn h none⟩

/-- Line `n` of the source, counted from one, without its trailing blanks. -/
def trimmedLine? (ls : List Text) : Nat → Option Text
  | 0 => none
  | i + 1 => ls[i]?.map Text.trimEnd

/-- Lines `s` and `e` are an opening and a closing, and no line between them is one. -/
structure Encloses (d : Dialect) (ls : List Text) (s e : Nat) : Prop where
  /-- The opening stands above the closing. -/
  lt : s < e
  /-- Line `s` opens. -/
  opens : trimmedLine? ls s = some d.opening
  /-- Line `e` closes. -/
  closes : trimmedLine? ls e = some closingLine
  /-- No line between them opens or closes. -/
  inside : ∀ k, s < k → k < e →
    trimmedLine? ls k ≠ some d.opening ∧ trimmedLine? ls k ≠ some closingLine

/-- Lines `s` to `e` of the source without their trailing blanks. -/
def excerpt (ls : List Text) (s e : Nat) : List Text :=
  ((ls.drop (s - 1)).take (e - s + 1)).map Text.trimEnd

/-- A line below others, counted from the first below them. -/
theorem trimmedLine?_append (above ls : List Text) (i : Nat) :
    trimmedLine? (above ++ ls) (1 + above.length + i) = ls[i]?.map Text.trimEnd := by
  have hline : 1 + above.length + i = above.length + i + 1 := by omega
  rw [hline, trimmedLine?, List.getElem?_append_right (Nat.le_add_right _ i),
    Nat.add_sub_cancel_left]

/-- A line stands between the lines above and the lines below. -/
theorem exists_of_getElem? {l : Text} {i : Nat} (h : ls[i]? = some l) :
    ∃ above below, ls = above ++ l :: below ∧ above.length = i := by
  obtain ⟨hi, rfl⟩ := List.getElem?_eq_some_iff.1 h
  refine ⟨ls.take i, ls.drop (i + 1), ?_, ?_⟩
  · rw [← List.drop_eq_getElem_cons hi, List.take_append_drop]
  · rw [List.length_take]
    omega

theorem exists_of_trimmedLine? {s : Nat} {t : Text} (h : trimmedLine? ls s = some t) :
    ∃ above l below, ls = above ++ l :: below ∧ 1 + above.length = s ∧ Text.trimEnd l = t := by
  cases s with
  | zero => cases h
  | succ i =>
    obtain ⟨l, hl, ht⟩ := Option.map_eq_some_iff.1 h
    obtain ⟨above, below, hsplit, hlength⟩ := exists_of_getElem? hl
    exact ⟨above, l, below, hsplit, by omega, ht⟩

/-- The first and the last line of a block enclose no other opening or closing. -/
theorem BlockIn.encloses (h : BlockIn d 1 ls c) : Encloses d ls c.startLine c.endLine := by
  obtain ⟨above, opening, inner, closing, below, hopen, hinner, hclose⟩ := h
  refine ⟨?_, ?_, ?_, ?_⟩
  · show 1 + above.length < 1 + above.length + inner.length + 1
    omega
  · show trimmedLine? _ (1 + above.length + 0) = _
    rw [trimmedLine?_append]
    simp [hopen]
  · show trimmedLine? _ (1 + above.length + (inner.length + 1)) = _
    rw [trimmedLine?_append]
    simp [hclose]
  · intro k hlow hhigh
    change 1 + above.length < k at hlow
    change k < 1 + above.length + (inner.length + 1) at hhigh
    -- line `k` of the source is an inner line
    obtain ⟨i, rfl⟩ : ∃ i, k = 1 + above.length + (i + 1) := ⟨k - above.length - 2, by omega⟩
    have hi : i < inner.length := by omega
    have hline : (opening :: (inner ++ closing :: below))[i + 1]? = some inner[i] := by
      rw [List.getElem?_cons_succ, List.getElem?_append_left hi, List.getElem?_eq_getElem hi]
    rw [trimmedLine?_append, hline]
    simpa using hinner inner[i] (List.getElem_mem hi)

/-- A block consists of the lines from its first to its last. -/
theorem BlockIn.lines_eq (h : BlockIn d 1 ls c) : c.lines = excerpt ls c.startLine c.endLine := by
  obtain ⟨above, opening, inner, closing, below, hopen, _, hclose⟩ := h
  have hdrop : (above ++ opening :: (inner ++ closing :: below)).drop (1 + above.length - 1)
      = opening :: (inner ++ closing :: below) := by
    rw [Nat.add_sub_cancel_left, List.drop_left]
  have hcount : 1 + above.length + inner.length + 1 - (1 + above.length) + 1
      = (opening :: (inner ++ [closing])).length := by
    simp
    omega
  have hsplit : opening :: (inner ++ closing :: below)
      = opening :: (inner ++ [closing]) ++ below := by simp
  show (d.opening :: inner ++ [closingLine]).map Text.trimEnd
    = (((above ++ opening :: (inner ++ closing :: below)).drop (1 + above.length - 1)).take
        (1 + above.length + inner.length + 1 - (1 + above.length) + 1)).map Text.trimEnd
  rw [hdrop, hcount, hsplit, List.take_left]
  simp [hopen, hclose, trimEnd_opening, trimEnd_closingLine]

/-- **Two lines that enclose neither an opening nor a closing are those of a block.** -/
theorem Encloses.blockIn {s e : Nat} (h : Encloses d ls s e) :
    BlockIn d 1 ls ⟨s, e, excerpt ls s e⟩ := by
  obtain ⟨hlt, hopens, hcloses, hinside⟩ := h
  obtain ⟨above, opening, rest, rfl, rfl, hopen⟩ := exists_of_trimmedLine? hopens
  obtain ⟨i, rfl⟩ : ∃ i, e = 1 + above.length + (i + 1) := ⟨e - above.length - 2, by omega⟩
  rw [trimmedLine?_append, List.getElem?_cons_succ] at hcloses
  obtain ⟨closing, hat, hclose⟩ := Option.map_eq_some_iff.1 hcloses
  obtain ⟨inner, below, rfl, rfl⟩ := exists_of_getElem? hat
  have hinner : ∀ l ∈ inner, Text.trimEnd l ≠ d.opening ∧ Text.trimEnd l ≠ closingLine := by
    intro l hl
    obtain ⟨j, hj, rfl⟩ := List.getElem_of_mem hl
    have hnot := hinside (1 + above.length + (j + 1)) (by omega) (by omega)
    rw [trimmedLine?_append, List.getElem?_cons_succ, List.getElem?_append_left hj,
      List.getElem?_eq_getElem hj] at hnot
    simpa using hnot
  have hblock : BlockIn d 1 (above ++ opening :: (inner ++ closing :: below))
      (ofInner d (1 + above.length) inner) :=
    BlockIn.intro above opening inner closing below hopen hinner hclose
  have hcomment : Comment.mk (1 + above.length) (1 + above.length + (inner.length + 1))
        (excerpt (above ++ opening :: (inner ++ closing :: below)) (1 + above.length)
          (1 + above.length + (inner.length + 1)))
      = ofInner d (1 + above.length) inner :=
    congrArg (Comment.mk _ _) hblock.lines_eq.symm
  rw [hcomment]
  exact hblock

/-- A block has as many lines as the numbers from its first to its last. -/
theorem BlockIn.length_lines (h : BlockIn d 1 ls c) :
    c.lines.length = c.endLine - c.startLine + 1 := by
  obtain ⟨above, _, inner, _, _, _, _, _⟩ := h
  show ((d.opening :: inner ++ [closingLine]).map Text.trimEnd).length
    = 1 + above.length + inner.length + 1 - (1 + above.length) + 1
  simp
  omega

/-- **The comments that are located are exactly the blocks of the source.**  Each pair of an
opening and a closing line with neither between them makes one comment, which consists of the
lines from the one to the other without their trailing blanks; there are no other comments,
and they stand in order, each above the next. -/
theorem located_exactly_blocks (d : Dialect) (ls : List Text) :
    (∀ c : Comment, c ∈ locate d ls ↔
      Encloses d ls c.startLine c.endLine ∧ c.lines = excerpt ls c.startLine c.endLine
        ∧ c.lines.length = c.endLine - c.startLine + 1)
    ∧ (locate d ls).Pairwise fun c e => c.endLine < e.startLine := by
  refine ⟨fun c => ?_, pairwise_locateFrom 1 none ls⟩
  constructor
  · intro h
    have hblock := blockIn_of_mem h
    exact ⟨hblock.encloses, hblock.lines_eq, hblock.length_lines⟩
  · rintro ⟨hencloses, hlines, _⟩
    apply mem_locate_iff.2
    have hblock := hencloses.blockIn
    rwa [← hlines] at hblock

/-- An opening begins the block anew, a closing without one is no line of a block, and a
block that is not closed is none. -/
example : locate .doxygen (["/**", " * lost", "/**", " * kept", " */", " */", "/**"].map String.toList)
    = [⟨3, 5, ["/**", " * kept", " */"].map String.toList⟩] := by decide

end DocAudit.Comment
