/-
  DocAudit.Proofs.Skeleton.Block
  ──────────────────────────────
  **A COMMENT BLOCK SHOWS NOTHING IN A SKELETON.**

  A `CommentBlock` is an opening line, inner lines that begin with ` *`, and a closing
  line; no inner line holds a brace or closes the comment.  Whatever the depth where
  it stands, the depth behind it is the same, and the lexer finds no token in it:

      depth 0    its lines are kept, and make one comment
      depth > 0  its lines are blanked
-/
import DocAudit.Comment.Basic
import DocAudit.Proofs.Declaration.Lexeme
import DocAudit.Proofs.Skeleton.Stub

namespace DocAudit

/-! ## §1. Closing a comment. -/

namespace Piece

/-- A comment ends at its first closing mark. -/
theorem splitBlock_append_closing {u : Text} (h : ¬ ['*', '/'] <:+: u) (b : Text) :
    splitBlock (u ++ '*' :: '/' :: b) = (u ++ ['*', '/'], b) := by
  induction u with
  | nil => rfl
  | cons c u ih =>
    have hu : ¬ ['*', '/'] <:+: u := fun hin => h (List.infix_cons hin)
    rw [List.cons_append, splitBlock.eq_3 _ _ ?_, ih hu]
    · rfl
    -- a star at the end of `u` would close the comment there
    · rintro r rfl hr
      cases u with
      | nil => cases hr
      | cons d u =>
        rw [List.cons_append, List.cons.injEq] at hr
        exact h ⟨[], u, by rw [hr.1]; rfl⟩

/-- A text that is skipped as a whole: the lexer starts afresh behind it. -/
def Skipped (a : Text) : Prop :=
  Seam a ∧ Token.ofText a = []

theorem ofText_skipped {a : Text} (h : Skipped a) (b : Text) :
    Token.ofText (a ++ b) = (Token.ofText b).map (Token.onLine (· + Text.newlines a)) := by
  rw [ofText_append h.1, h.2, List.nil_append]

theorem tokensFrom_gaps (n : Nat) (gaps : List Text) : tokensFrom n (gaps.map gap) = [] := by
  induction gaps generalizing n with
  | nil => rfl
  | cons t gaps ih => exact ih _

/-- A text that is cut into gaps, whatever follows it, is skipped. -/
theorem skipped_of_pieces {a : Text} (gaps : List Text)
    (h : ∀ b, pieces (a ++ b) = gaps.map gap ++ pieces b) : Skipped a := by
  have hown : pieces a = gaps.map gap := by
    have hnil := h []
    rwa [List.append_nil, pieces_nil, List.append_nil] at hnil
  refine ⟨fun b => by rw [h b, hown], ?_⟩
  unfold Token.ofText
  rw [hown, tokensFrom_gaps]

theorem skipped_of_blanks {a : Text} (h : ∀ c ∈ a, Text.isBlank c = true) : Skipped a := by
  refine skipped_of_pieces (a.map fun c => [c]) fun b => ?_
  rw [pieces_blanks h b, List.map_map]
  rfl

/-- A comment and the line feed behind it are skipped. -/
theorem skipped_of_comment {u : Text} (h : ¬ ['*', '/'] <:+: u) :
    Skipped ('/' :: '*' :: (u ++ "*/\n".toList)) := by
  refine skipped_of_pieces ['/' :: '*' :: (u ++ ['*', '/']), ['\n']] fun b => ?_
  have htext : '/' :: '*' :: (u ++ "*/\n".toList) ++ b
      = '/' :: '*' :: (u ++ '*' :: '/' :: '\n' :: b) := by
    rw [List.cons_append, List.cons_append, List.append_assoc]
    rfl
  have hfirst : first '/' ('*' :: (u ++ '*' :: '/' :: '\n' :: b))
      = (gap ('/' :: '*' :: (u ++ ['*', '/'])), '\n' :: b) := by
    unfold first
    rw [if_neg (by decide), if_neg (by decide), if_pos rfl]
    show (gap ('/' :: '*' :: (splitBlock _).1), (splitBlock _).2) = _
    rw [splitBlock_append_closing h]
  rw [htext, pieces_cons, hfirst, pieces_blank (by decide)]
  rfl

end Piece

/-! ## §2. Lines that keep the depth. -/

namespace Skeleton

open Text

/-- A line that is neither directive nor type definition and holds no brace. -/
structure Quiet (l : Text) : Prop where
  /-- It begins with a slash or a blank. -/
  begins : ∃ r, l = '/' :: r ∨ l = ' ' :: r
  /-- It is one line. -/
  oneLine : '\n' ∉ l
  /-- It opens nothing. -/
  noOpening : '\x7b' ∉ l
  /-- It closes nothing. -/
  noClosing : '\x7d' ∉ l

theorem depthAfter_of_ne {c : Char} (depth : Nat) (hopen : '\x7b' ≠ c) (hclose : '\x7d' ≠ c) :
    depthAfter depth c = depth := by
  unfold depthAfter
  rw [if_neg (Ne.symm hopen), if_neg (Ne.symm hclose)]

theorem depthOver_of_quiet {l : Text} (h : Quiet l) (depth : Nat) : depthOver depth l = depth := by
  have hopen := h.noOpening
  have hclose := h.noClosing
  clear h
  induction l with
  | nil => rfl
  | cons c l ih =>
    rw [List.mem_cons, not_or] at hopen hclose
    show depthOver (depthAfter depth c) l = depth
    rw [depthAfter_of_ne depth hopen.1 hclose.1]
    exact ih hopen.2 hclose.2

/-- Inside braces a line without braces becomes as many spaces. -/
theorem blankLine_succ {l : Text} (depth : Nat) (hfeed : '\n' ∉ l) (hopen : '\x7b' ∉ l)
    (hclose : '\x7d' ∉ l) : blankLine (depth + 1) l = spaces l.length := by
  induction l with
  | nil => rfl
  | cons c l ih =>
    rw [List.mem_cons, not_or] at hfeed hopen hclose
    have hblank : blanked (depth + 1) c = ' ' := blanked_inside (Nat.succ_pos depth) hfeed.1
    show blanked (depth + 1) c :: blankLine (depthAfter (depth + 1) c) l = _
    rw [depthAfter_of_ne _ hopen.1 hclose.1, hblank, ih hfeed.2 hopen.2 hclose.2]
    rfl

/-- A quiet line as it stands in a skeleton. -/
def quieted (depth : Nat) (l : Text) : Text := if depth = 0 then l else spaces l.length

theorem stubLine_of_quiet {l : Text} (h : Quiet l) (depth : Nat) :
    stubLine depth l = quieted depth l := by
  have hinclude : isInclude l = false := by
    obtain ⟨r, rfl | rfl⟩ := h.begins <;> rfl
  -- a line that begins with a slash or a blank begins no directive, and blanked no definition
  unfold stubLine quieted
  rw [if_neg (by rw [hinclude]; decide)]
  cases depth with
  | zero =>
    have htypedef : isTypedef l = false := by
      obtain ⟨r, rfl | rfl⟩ := h.begins <;> rfl
    rw [blankLine_zero h.noOpening]
    dsimp only
    rw [if_neg (by rw [htypedef]; decide), if_pos rfl]
  | succ depth =>
    have htypedef : isTypedef (spaces l.length) = false := by
      obtain ⟨r, rfl | rfl⟩ := h.begins <;> rfl
    rw [blankLine_succ depth h.oneLine h.noOpening h.noClosing]
    dsimp only
    rw [if_neg (by rw [htypedef]; decide), if_neg (Nat.succ_ne_zero depth)]

theorem depthAfterLine_of_quiet {l : Text} (h : Quiet l) (depth : Nat) :
    depthAfterLine depth l = depth := by
  unfold depthAfterLine
  rw [depthOver_of_quiet h, ite_self]

/-- **Quiet lines keep the depth**, and each is kept or blanked as a whole. -/
theorem stubFrom_of_quiet {ls : List Text} (h : ∀ l ∈ ls, Quiet l) (depth : Nat) :
    stubFrom depth ls = ls.map (quieted depth) ∧ depthAfterLines depth ls = depth := by
  induction ls with
  | nil => exact ⟨rfl, rfl⟩
  | cons l ls ih =>
    have hl := h l List.mem_cons_self
    obtain ⟨hstub, hdepth⟩ := ih fun k hk => h k (List.mem_cons_of_mem l hk)
    constructor
    · rw [stubFrom, depthAfterLine_of_quiet hl, hstub, stubLine_of_quiet hl]
      rfl
    · show depthAfterLines (depthAfterLine depth l) ls = depth
      rw [depthAfterLine_of_quiet hl, hdepth]

end Skeleton

/-! ## §3. Comment blocks. -/

/-- The lines of a comment that hides nothing but itself. -/
structure CommentBlock where
  /-- How it is opened. -/
  dialect : Dialect
  /-- The lines between the opening and the closing. -/
  inner : List Text
  /-- Inner lines have a star. -/
  starred : ∀ l ∈ inner, [' ', '*'] <+: l
  /-- Inner lines are lines. -/
  oneLine : ∀ l ∈ inner, '\n' ∉ l
  /-- Inner lines hold no brace. -/
  flat : ∀ l ∈ inner, '\x7b' ∉ l ∧ '\x7d' ∉ l
  /-- Inner lines do not close the comment. -/
  unclosed : ∀ l ∈ inner, ¬ ['*', '/'] <:+: l

namespace CommentBlock

/-- All its lines. -/
def lines (b : CommentBlock) : List Text := b.dialect.opening :: b.inner ++ [closingLine]

theorem quiet_of_mem (b : CommentBlock) {l : Text} (h : l ∈ b.lines) : Skeleton.Quiet l := by
  rcases List.mem_append.1 h with h | h
  · rcases List.mem_cons.1 h with rfl | h
    · cases b.dialect with
      | doxygen => exact ⟨⟨_, .inl rfl⟩, by decide, by decide, by decide⟩
      | edt => exact ⟨⟨_, .inl rfl⟩, by decide, by decide, by decide⟩
    · obtain ⟨r, hr⟩ := b.starred l h
      exact ⟨⟨'*' :: r, .inr hr.symm⟩, b.oneLine l h, (b.flat l h).1, (b.flat l h).2⟩
  · cases List.mem_singleton.1 h
    exact ⟨⟨_, .inr rfl⟩, by decide, by decide, by decide⟩

/-- The characters between the opening and the closing mark. -/
def content (b : CommentBlock) : Text :=
  (b.dialect.opening.drop 2 :: b.inner).flatMap Text.line ++ [' ']

theorem text_eq (b : CommentBlock) :
    b.lines.flatMap Text.line = '/' :: '*' :: (b.content ++ "*/\n".toList) := by
  have hopening : b.dialect.opening = '/' :: '*' :: b.dialect.opening.drop 2 := by
    cases b.dialect <;> rfl
  have hline : Text.line b.dialect.opening
      = '/' :: '*' :: Text.line (b.dialect.opening.drop 2) := by
    conv => lhs; rw [hopening]
    rfl
  unfold lines content
  rw [List.flatMap_append, List.flatMap_cons, hline, List.flatMap_singleton, List.flatMap_cons]
  simp only [List.cons_append, List.append_assoc]
  rfl

theorem not_closed_content (b : CommentBlock) : ¬ ['*', '/'] <:+: b.content := by
  rintro ⟨before, after, hsplit⟩
  have hfeeds : ∀ l ∈ b.dialect.opening.drop 2 :: b.inner ++ [[' ']], '\n' ∉ l := by
    intro l hl
    rcases List.mem_append.1 hl with hl | hl
    · rcases List.mem_cons.1 hl with rfl | hl
      · cases b.dialect <;> decide
      · exact b.oneLine l hl
    · cases List.mem_singleton.1 hl
      decide
  have htext : (b.dialect.opening.drop 2 :: b.inner ++ [[' ']]).flatMap Text.line
      = before ++ ['*', '/'] ++ (after ++ ['\n']) := by
    rw [List.flatMap_append, ← List.append_assoc, hsplit, content, List.flatMap_singleton,
      List.append_assoc]
    rfl
  -- the mark lies within one line, which is too short for it or does not close
  obtain ⟨l, x, y, hget, hl⟩ := Text.exists_line_of_split hfeeds htext (by decide) (by decide)
  have hin : ['*', '/'] <:+: l := ⟨x, y, hl.symm⟩
  have hlong : 2 ≤ l.length := hin.length_le
  rcases List.mem_append.1 (List.mem_of_getElem? hget) with hmem | hmem
  · rcases List.mem_cons.1 hmem with rfl | hmem
    · have hshort : (b.dialect.opening.drop 2).length ≤ 1 := by cases b.dialect <;> decide
      omega
    · exact b.unclosed l hmem hin
  · cases List.mem_singleton.1 hmem
    exact absurd hlong (by decide)

/-- **A comment block shows nothing in a skeleton**, at any depth. -/
theorem skipped (b : CommentBlock) (depth : Nat) :
    Piece.Skipped ((Skeleton.stubFrom depth b.lines).flatMap Text.line) := by
  rw [(Skeleton.stubFrom_of_quiet (fun _ hl => b.quiet_of_mem hl) depth).1]
  -- at depth zero the block is a comment, inside braces it is blank
  cases depth with
  | zero =>
    have hkeep : b.lines.map (Skeleton.quieted 0) = b.lines := List.map_id _
    rw [hkeep, text_eq]
    exact Piece.skipped_of_comment b.not_closed_content
  | succ depth =>
    refine Piece.skipped_of_blanks fun c hc => ?_
    obtain ⟨l, hl, hcl⟩ := List.mem_flatMap.1 hc
    obtain ⟨k, _, rfl⟩ := List.mem_map.1 hl
    rcases List.mem_append.1 hcl with hcl | hcl
    · rw [List.eq_of_mem_replicate (show c ∈ List.replicate k.length ' ' from hcl)]
      decide
    · cases List.mem_singleton.1 hcl
      decide

theorem depthAfterLines_lines (b : CommentBlock) (depth : Nat) :
    Skeleton.depthAfterLines depth b.lines = depth :=
  (Skeleton.stubFrom_of_quiet (fun _ hl => b.quiet_of_mem hl) depth).2

end CommentBlock
end DocAudit
