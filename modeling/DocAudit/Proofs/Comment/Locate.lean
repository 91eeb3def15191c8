/-
  DocAudit.Proofs.Comment.Locate
  ──────────────────────────────
  **WHERE COMMENTS END, AND WHAT A BLOCK ADDS TO THEM.**

  The locator keeps one open block at most, so it may read lines in two halves
  (`locateFrom_append`), and a comment ends on one of the lines that were read
  (`endLine_mem`).  A comment block among the lines is

      in its own dialect       a comment of its own, whatever was open before it
      in the other dialect     no comment, unless a block was open: then its closing
                               line closes that one

  and in both cases nothing is open behind it.
-/
import DocAudit.Comment.Locate
import DocAudit.Proofs.Skeleton.Block
import DocAudit.Proofs.Text.Trim

namespace DocAudit

/-! ## §1. One line. -/

namespace Comment

/-- An open block with one more line. -/
def Open.add (o : Open) (line : Text) : Open := ⟨o.startLine, o.lines ++ [line]⟩

/-- The comment that an open block becomes when line `n` closes it. -/
def Open.close (o : Open) (n : Nat) (line : Text) : Comment :=
  ⟨o.startLine, n, o.lines ++ [line]⟩

variable {d : Dialect} {raw : Text}

theorem locateFrom_opening (h : Text.trimEnd raw = d.opening) (n : Nat) (state : Option Open)
    (rest : List Text) :
    locateFrom d n state (raw :: rest)
      = locateFrom d (n + 1) (some ⟨n, [Text.trimEnd raw]⟩) rest := by
  cases state <;> exact if_pos h

theorem locateFrom_closing (hopen : Text.trimEnd raw ≠ d.opening)
    (hclose : Text.trimEnd raw = closingLine) (n : Nat) (state : Option Open)
    (rest : List Text) :
    locateFrom d n state (raw :: rest)
      = (state.map fun o => o.close n (Text.trimEnd raw)).toList
        ++ locateFrom d (n + 1) none rest := by
  cases state with
  | none => exact if_neg hopen
  | some o => exact (if_neg hopen).trans (if_pos hclose)

theorem locateFrom_inside (hopen : Text.trimEnd raw ≠ d.opening)
    (hclose : Text.trimEnd raw ≠ closingLine) (n : Nat) (state : Option Open)
    (rest : List Text) :
    locateFrom d n state (raw :: rest)
      = locateFrom d (n + 1) (state.map fun o => o.add (Text.trimEnd raw)) rest := by
  cases state with
  | none => exact if_neg hopen
  | some o => exact (if_neg hopen).trans (if_neg hclose)

/-! ## §2. Lines in two halves. -/

/-- The open block behind a run of lines, of which the first has number `n`. -/
def openAfter (d : Dialect) : Nat → Option Open → List Text → Option Open
  | _, state, [] => state
  | n, state, raw :: rest =>
    let line := Text.trimEnd raw
    if line = d.opening then openAfter d (n + 1) (some ⟨n, [line]⟩) rest
    else if line = closingLine then openAfter d (n + 1) none rest
    else openAfter d (n + 1) (state.map fun o => o.add line) rest

/-- **The locator reads lines in two halves**, and remembers the open block only. -/
theorem locateFrom_append (d : Dialect) (n : Nat) (state : Option Open) (as bs : List Text) :
    locateFrom d n state (as ++ bs)
      = locateFrom d n state as
        ++ locateFrom d (n + as.length) (openAfter d n state as) bs := by
  induction as generalizing n state with
  | nil => rfl
  | cons a as ih =>
    have hlen : n + (a :: as).length = n + 1 + as.length := by
      rw [List.length_cons]
      omega
    -- the state after the first line is the same on both sides, whichever line it is
    rw [List.cons_append, hlen, openAfter]
    by_cases hopen : Text.trimEnd a = d.opening
    · rw [if_pos hopen, locateFrom_opening hopen, locateFrom_opening hopen, ih]
    rw [if_neg hopen]
    by_cases hclose : Text.trimEnd a = closingLine
    · rw [if_pos hclose, locateFrom_closing hopen hclose, locateFrom_closing hopen hclose, ih,
        List.append_assoc]
    · rw [if_neg hclose, locateFrom_inside hopen hclose, locateFrom_inside hopen hclose, ih]

/-- **A comment ends on a line that was read.** -/
theorem endLine_mem {n : Nat} {state : Option Open} {ls : List Text} {c : Comment}
    (h : c ∈ locateFrom d n state ls) : n ≤ c.endLine ∧ c.endLine < n + ls.length := by
  induction ls generalizing n state with
  | nil => exact absurd h List.not_mem_nil
  | cons raw rest ih =>
    have hrest : ∀ s, c ∈ locateFrom d (n + 1) s rest →
        n ≤ c.endLine ∧ c.endLine < n + (raw :: rest).length := by
      intro s hs
      obtain ⟨hlow, hhigh⟩ := ih hs
      rw [List.length_cons]
      omega
    by_cases hopen : Text.trimEnd raw = d.opening
    · rw [locateFrom_opening hopen] at h
      exact hrest _ h
    by_cases hclose : Text.trimEnd raw = closingLine
    · rw [locateFrom_closing hopen hclose] at h
      rcases List.mem_append.1 h with h | h
      · obtain ⟨o, _, rfl⟩ := Option.map_eq_some_iff.1 (Option.mem_toList.1 h)
        show n ≤ n ∧ n < n + (rest.length + 1)
        omega
      · exact hrest _ h
    · rw [locateFrom_inside hopen hclose] at h
      exact hrest _ h

/-! ## §3. The lines of a block. -/

theorem trimEnd_opening (d : Dialect) : Text.trimEnd d.opening = d.opening := by
  cases d <;> decide

theorem trimEnd_closingLine : Text.trimEnd closingLine = closingLine := by decide

theorem opening_ne_closingLine (d : Dialect) : d.opening ≠ closingLine := by
  cases d <;> decide

/-- Lines that neither open nor close go to the open block. -/
theorem locateFrom_inner {ls : List Text}
    (h : ∀ l ∈ ls, Text.trimEnd l ≠ d.opening ∧ Text.trimEnd l ≠ closingLine) (n : Nat)
    (state : Option Open) (rest : List Text) :
    locateFrom d n state (ls ++ rest)
      = locateFrom d (n + ls.length)
          (state.map fun o => ⟨o.startLine, o.lines ++ ls.map Text.trimEnd⟩) rest := by
  induction ls generalizing n state with
  | nil =>
    have hsame : (state.map fun o => (⟨o.startLine, o.lines ++ []⟩ : Open)) = state := by
      cases state with
      | none => rfl
      | some o => rw [Option.map_some, List.append_nil]
    rw [List.map_nil, hsame]
    rfl
  | cons l ls ih =>
    obtain ⟨hopen, hclose⟩ := h l List.mem_cons_self
    have hlen : n + (l :: ls).length = n + 1 + ls.length := by
      rw [List.length_cons]
      omega
    rw [List.cons_append, locateFrom_inside hopen hclose,
      ih fun k hk => h k (List.mem_cons_of_mem l hk), hlen, Option.map_map]
    congr 2
    funext o
    show Open.mk o.startLine ((o.lines ++ [Text.trimEnd l]) ++ ls.map Text.trimEnd) = _
    rw [List.append_assoc]
    rfl

/-- The comment that an opening, inner lines and a closing make, if the opening has
number `n`. -/
def ofInner (d : Dialect) (n : Nat) (inner : List Text) : Comment :=
  ⟨n, n + inner.length + 1, (d.opening :: inner ++ [closingLine]).map Text.trimEnd⟩

/-- **An opening, lines that neither open nor close, and a closing** are a comment,
whatever was open before. -/
theorem locateFrom_block {opening closing : Text} {inner : List Text}
    (hopen : Text.trimEnd opening = d.opening)
    (h : ∀ l ∈ inner, Text.trimEnd l ≠ d.opening ∧ Text.trimEnd l ≠ closingLine)
    (hclose : Text.trimEnd closing = closingLine) (n : Nat) (state : Option Open)
    (rest : List Text) :
    locateFrom d n state (opening :: (inner ++ closing :: rest))
      = ofInner d n inner :: locateFrom d (n + inner.length + 2) none rest := by
  have hend : n + inner.length + 2 = n + 1 + inner.length + 1 := by omega
  have hother : Text.trimEnd closing ≠ d.opening := by
    rw [hclose]
    exact Ne.symm (opening_ne_closingLine d)
  rw [locateFrom_opening hopen, locateFrom_inner h, locateFrom_closing hother hclose, hend]
  show Open.close _ (n + 1 + inner.length) _ :: _ = _
  congr 1
  unfold ofInner Open.close
  rw [List.map_append, List.map_cons, Nat.add_right_comm, hopen, hclose, trimEnd_opening]
  rfl

end Comment

namespace CommentBlock

open Comment

/-- The comment that a block is, if its opening has number `n`. -/
def comment (b : CommentBlock) (n : Nat) : Comment :=
  ⟨n, n + b.inner.length + 1, b.lines.map Text.trimEnd⟩

theorem length_lines (b : CommentBlock) : b.lines.length = b.inner.length + 2 := by
  unfold lines
  rw [List.length_append, List.length_cons]
  rfl

/-- An inner line keeps its star and does not close the block. -/
theorem trimEnd_inner (b : CommentBlock) {l : Text} (h : l ∈ b.inner) (d : Dialect) :
    Text.trimEnd l ≠ d.opening ∧ Text.trimEnd l ≠ closingLine := by
  obtain ⟨r, rfl⟩ := b.starred l h
  have htrim : Text.trimEnd ([' ', '*'] ++ r) = ' ' :: '*' :: Text.trimEnd r :=
    Text.trimEnd_append_cons (by decide) [' '] r
  rw [htrim]
  constructor
  · intro heq
    cases d <;> cases (List.cons.inj heq).1
  · intro heq
    obtain ⟨a, ha⟩ := Text.trimEnd_begins r
    have hclosed : Text.trimEnd r = ['/'] := (List.cons.inj (List.cons.inj heq).2).2
    -- trimmed to the closing line, the line would hold `*/` right after its blank
    refine b.unclosed _ h ⟨[' '], a, ?_⟩
    rw [← ha, hclosed]
    rfl

/-- **In its own dialect a block is a comment.** -/
theorem locateFrom_lines (b : CommentBlock) (n : Nat) (state : Option Open) (rest : List Text) :
    locateFrom b.dialect n state (b.lines ++ rest)
      = b.comment n :: locateFrom b.dialect (n + b.lines.length) none rest := by
  have hsplit : b.lines ++ rest = b.dialect.opening :: (b.inner ++ closingLine :: rest) := by
    unfold lines
    rw [List.append_assoc]
    rfl
  rw [hsplit, locateFrom_block (trimEnd_opening _) (fun l hl => b.trimEnd_inner hl b.dialect)
    trimEnd_closingLine, length_lines, Nat.add_assoc]
  rfl

/-- **In the other dialect a block only closes what was open.** -/
theorem locateFrom_lines_other (b : CommentBlock) {d : Dialect} (hd : d ≠ b.dialect) (n : Nat)
    (state : Option Open) (rest : List Text) :
    locateFrom d n state (b.lines ++ rest)
      = (state.map fun o => Comment.mk o.startLine (n + b.inner.length + 1)
            (o.lines ++ b.lines.map Text.trimEnd)).toList
        ++ locateFrom d (n + b.lines.length) none rest := by
  -- to the other dialect the opening of the block is a line like any other
  have hopen : ∀ l ∈ b.dialect.opening :: b.inner,
      Text.trimEnd l ≠ d.opening ∧ Text.trimEnd l ≠ closingLine := by
    intro l hl
    rcases List.mem_cons.1 hl with rfl | hl
    · rw [trimEnd_opening]
      refine ⟨?_, opening_ne_closingLine _⟩
      revert hd
      cases d <;> cases b.dialect <;> decide
    · exact b.trimEnd_inner hl d
  have hsplit : b.lines ++ rest = (b.dialect.opening :: b.inner) ++ closingLine :: rest := by
    unfold lines
    rw [List.append_assoc]
    rfl
  have hend : n + b.lines.length = n + (b.dialect.opening :: b.inner).length + 1 := by
    rw [length_lines, List.length_cons]
    omega
  have hclose : Text.trimEnd closingLine ≠ d.opening := by
    rw [trimEnd_closingLine]
    exact Ne.symm (opening_ne_closingLine d)
  rw [hsplit, locateFrom_inner hopen, locateFrom_closing hclose trimEnd_closingLine, hend,
    Option.map_map]
  congr 3
  funext o
  show Comment.mk o.startLine (n + (b.inner.length + 1))
    ((o.lines ++ (b.dialect.opening :: b.inner).map Text.trimEnd) ++ [Text.trimEnd closingLine]) = _
  unfold lines
  rw [List.map_append, List.append_assoc]
  rfl

end CommentBlock
end DocAudit
