/-
  DocAudit.Proofs.Comment.Render
  ──────────────────────────────
  **A WRITTEN BLOCK IS ONE COMMENT, WHATEVER IT SAYS.**

  No line that is written between the opening and the closing can be taken for one of
  them, and each has its star.  So the block of any text is located as one comment, and
  its body consists of the pieces into which the text is wrapped, each trimmed
  (`locate_render`, `body_rendered`).  The other dialect finds nothing in it
  (`locate_render_other`), so a block is read back as it was written
  (`written_block_reads_back`).

  The text is written row by row, and a row may hold line feeds.  What is read where a
  row was written are stretches of the row (`infix_of_mem_texts`), and together they have
  its words, if no word is cut (`words_texts`).
-/
import DocAudit.Comment.Reference
import DocAudit.Proofs.Comment.Block
import DocAudit.Proofs.Comment.Located
import DocAudit.Proofs.Text.Words

namespace DocAudit

open Text

/-! ## §1. Locating a written block. -/

namespace Text

theorem trimEnd_endLine (l : Text) : trimEnd (endLine l) = trimEnd l := by
  unfold endLine
  split
  · next hlast =>
    obtain ⟨v, rfl⟩ := List.getLast?_eq_some_iff.1 hlast
    rw [List.dropLast_concat, trimEnd_append_blanks v (b := ['\r']) (by decide)]
  · rfl

/-- Lines joined, of which the last is not empty, are the lines of the text. -/
theorem lines_join_concat {ls : List Text} (h : ∀ l ∈ ls, '\n' ∉ l) {last : Text}
    (hlast : '\n' ∉ last) (hne : last ≠ []) :
    lines (join ['\n'] (ls ++ [last])) = ls.map endLine ++ [last] := by
  rw [join_append_cons, join_singleton, lines_flatMap_line_append h, lines_of_not_mem hlast,
    if_neg hne]

end Text

namespace Comment

/-- The locator does not look at the end of a line. -/
theorem locateFrom_map_endLine (d : Dialect) (n : Nat) (state : Option Open) (ls : List Text) :
    locateFrom d n state (ls.map Text.endLine) = locateFrom d n state ls := by
  induction ls generalizing n state with
  | nil => rfl
  | cons l ls ih =>
    have hend := trimEnd_endLine l
    rw [List.map_cons]
    by_cases hopen : trimEnd l = d.opening
    · rw [locateFrom_opening hopen, locateFrom_opening (hend.trans hopen), ih, hend]
    have hopen' : trimEnd (Text.endLine l) ≠ d.opening := by rwa [hend]
    by_cases hclose : trimEnd l = closingLine
    · rw [locateFrom_closing hopen hclose, locateFrom_closing hopen' (hend.trans hclose), ih, hend]
    · have hclose' : trimEnd (Text.endLine l) ≠ closingLine := by rwa [hend]
      rw [locateFrom_inside hopen hclose, locateFrom_inside hopen' hclose', ih, hend]

/-- Lines none of which points elsewhere. -/
theorem isReference_numbered {extra ts : List Text}
    (h : ∀ t ∈ ts, Reference.isReferenceLine extra t = false) (n : Nat) :
    Reference.isReference extra ((numbered n ts).map (·.text)) = false := by
  rw [map_text_numbered]
  exact List.any_eq_false.2 fun t ht => Bool.eq_false_iff.1 (h t ht)

end Comment

namespace Block

theorem not_mem_blockLine {piece : Text} {c : Char} (hc : c ∉ piece) (hmark : c ∉ " * ".toList) :
    c ∉ blockLine piece := by
  unfold blockLine
  split
  · exact fun hin => hmark (List.mem_append_left [' '] hin)
  · rw [List.mem_append, not_or]
    exact ⟨hmark, hc⟩

/-- Pieces hold no line feed. -/
theorem not_mem_of_mem_pieces {t : Text} {o : WrapOptions} {piece : Text}
    (h : piece ∈ pieces t o) : '\n' ∉ piece := by
  obtain ⟨l, hl, hpiece⟩ := List.mem_flatMap.1 h
  intro hin
  rcases (Wrap.stretch_of_mem_wrapLine hpiece).mem hin with hmem | hspace
  · exact not_mem_of_mem_splitOn hl hmem
  · exact absurd hspace (by decide)

/-- The lines of a block are the lines of its text. -/
theorem lines_render (t : Text) (d : Dialect) (o : WrapOptions) :
    lines (render t d.opening o) = (blockLines t d.opening o).map endLine := by
  have hopening : '\n' ∉ d.opening := by cases d <;> decide
  have hinner : ∀ l ∈ d.opening :: (pieces t o).map blockLine, '\n' ∉ l := by
    intro l hl
    rcases List.mem_cons.1 hl with rfl | hl
    · exact hopening
    · obtain ⟨piece, hpiece, rfl⟩ := List.mem_map.1 hl
      exact not_mem_blockLine (not_mem_of_mem_pieces hpiece) (by decide)
  unfold render blockLines
  rw [lines_join_concat hinner (by decide) (by decide), List.map_append]
  rfl

/-- A line of a block neither opens nor closes one. -/
theorem trimEnd_blockLine (d : Dialect) (piece : Text) :
    trimEnd (blockLine piece) ≠ d.opening ∧ trimEnd (blockLine piece) ≠ closingLine := by
  have hstar : ∀ r, trimEnd (" *".toList ++ r) = ' ' :: '*' :: trimEnd r := fun r =>
    trimEnd_append_cons (by decide) [' '] r
  -- behind the star a blank is kept or nothing is left, so there is no slash
  have hbehind : ∃ r, trimEnd (blockLine piece) = ' ' :: '*' :: r ∧ r ≠ ['/'] := by
    unfold blockLine
    split
    · exact ⟨[], hstar [], by decide⟩
    · refine ⟨trimEnd (' ' :: piece), hstar (' ' :: piece), fun heq => ?_⟩
      obtain ⟨b, hb⟩ := trimEnd_begins (' ' :: piece)
      rw [heq] at hb
      exact absurd (List.cons.inj hb).1 (by decide)
  obtain ⟨r, hr, hslash⟩ := hbehind
  rw [hr]
  constructor
  · intro heq
    cases d <;> cases (List.cons.inj heq).1
  · intro heq
    exact hslash (List.cons.inj (List.cons.inj heq).2).2

/-- The comment that a written block is. -/
def rendered (t : Text) (d : Dialect) (o : WrapOptions) : Comment :=
  Comment.ofInner d 1 ((pieces t o).map blockLine)

/-- **A written block is one comment.** -/
theorem locate_render (t : Text) (d : Dialect) (o : WrapOptions) :
    Comment.locate d (lines (render t d.opening o)) = [rendered t d o] := by
  have hinner : ∀ l ∈ (pieces t o).map blockLine,
      trimEnd l ≠ d.opening ∧ trimEnd l ≠ closingLine := by
    intro l hl
    obtain ⟨piece, _, rfl⟩ := List.mem_map.1 hl
    exact trimEnd_blockLine d piece
  unfold Comment.locate
  rw [lines_render, Comment.locateFrom_map_endLine]
  exact Comment.locateFrom_block (Comment.trimEnd_opening d) hinner Comment.trimEnd_closingLine 1
    none []

/-- The texts of the body lines of the block that holds a text. -/
def bodyTexts (t : Text) (o : WrapOptions) : List Text := (pieces t o).map trim

/-- **The body of a written block** consists of the pieces of its text, trimmed. -/
theorem body_rendered (t : Text) (d : Dialect) (o : WrapOptions) :
    (rendered t d o).body d.opening = .ok (Comment.numbered 2 (bodyTexts t o)) := by
  have hstar : ∀ l ∈ (pieces t o).map blockLine, [' ', '*'] <+: l := by
    intro l hl
    obtain ⟨piece, _, rfl⟩ := List.mem_map.1 hl
    exact star_prefix_blockLine piece
  have htexts : ((pieces t o).map blockLine).map Comment.innerText = bodyTexts t o := by
    rw [List.map_map]
    exact List.map_congr_left fun piece _ => innerText_blockLine piece
  rw [← htexts]
  exact Comment.body_ofInner d hstar 1

/-- **The other dialect finds no comment in a written block.** -/
theorem locate_render_other {d e : Dialect} (h : e ≠ d) (t : Text) (o : WrapOptions) :
    Comment.locate e (lines (render t d.opening o)) = [] := by
  have hopening : trimEnd d.opening ≠ e.opening := by
    rw [Comment.trimEnd_opening]
    revert h
    cases d <;> cases e <;> decide
  have hclosing : trimEnd closingLine ≠ e.opening := by
    rw [Comment.trimEnd_closingLine]
    exact Ne.symm (Comment.opening_ne_closingLine e)
  unfold Comment.locate
  rw [lines_render, Comment.locateFrom_map_endLine]
  apply Comment.locate_eq_nil
  intro l hl
  rcases List.mem_append.1 hl with hl | hl
  · rcases List.mem_cons.1 hl with rfl | hl
    · exact hopening
    · obtain ⟨piece, _, rfl⟩ := List.mem_map.1 hl
      exact (trimEnd_blockLine e piece).1
  · cases List.mem_singleton.1 hl
    exact hclosing

/-- **A written block is read back**, whatever its text and its width.  Let `ps` be the
pieces into which the lines of the text are wrapped, three characters short of the width.
The lines of the block are one comment, which ends two lines below as many lines as there
are pieces; the body of the comment is these pieces, trimmed, on the lines from the second
on; and in the other dialect there is no comment. -/
theorem written_block_reads_back (t : Text) (d : Dialect) (o : WrapOptions) :
    let ps := (splitOn '\n' (dropFinalNewline t)).flatMap fun line =>
      Wrap.wrapLine line (o.width - 3) o.indent false
    ∃ c : Comment,
      (∀ e, Comment.locate e (lines (render t d.opening o)) = if e = d then [c] else [])
      ∧ c.startLine = 1 ∧ c.endLine = ps.length + 2
      ∧ ∃ ls, c.body d.opening = .ok ls ∧ ls.map (·.text) = ps.map trim
        ∧ ls.map (·.line) = List.range' 2 ps.length := by
  intro ps
  have hps : pieces t o = ps := rfl
  refine ⟨rendered t d o, ?_, rfl, ?_, Comment.numbered 2 (bodyTexts t o), body_rendered t d o,
    ?_, ?_⟩
  · intro e
    by_cases he : e = d
    · rw [if_pos he, he]
      exact locate_render t d o
    · rw [if_neg he]
      exact locate_render_other he t o
  · show 1 + ((pieces t o).map blockLine).length + 1 = _
    rw [List.length_map, hps]
    omega
  · rw [Comment.map_text_numbered, bodyTexts, hps]
  · rw [Comment.map_line_numbered, bodyTexts, List.length_map, hps]

/-! ## §2. Rows that may hold line feeds. -/

/-- Cutting joined texts at line feeds cuts each of them. -/
theorem splitOn_join_flatMap {rows : List Text} (hne : rows ≠ []) :
    splitOn '\n' (join ['\n'] rows) = rows.flatMap (splitOn '\n') := by
  induction rows with
  | nil => exact absurd rfl hne
  | cons row rows ih =>
    cases rows with
    | nil => rw [join_singleton, List.flatMap_singleton]
    | cons next rows =>
      have hmark : ('\n' == '\n') = true := by decide
      rw [join_cons_cons, List.append_assoc, List.singleton_append, List.flatMap_cons,
        ← ih (List.cons_ne_nil next rows)]
      exact splitWhere_append_marked (p := (· == '\n')) hmark row _

/-- The texts that are read where a row was written. -/
def texts (o : WrapOptions) (row : Text) : List Text := (splitOn '\n' row).flatMap (rowTexts o)

/-- **What is read of a text of rows** is read row by row. -/
theorem bodyTexts_flatMap_line {rows : List Text} (hne : rows ≠ []) (o : WrapOptions) :
    bodyTexts (rows.flatMap line) o = rows.flatMap (texts o) := by
  unfold bodyTexts pieces
  rw [dropFinalNewline_flatMap_line hne, splitOn_join_flatMap hne, List.map_flatMap,
    List.flatMap_assoc]
  rfl

/-- A row of one line. -/
theorem texts_of_line {o : WrapOptions} {row : Text} (h : '\n' ∉ row) :
    texts o row = rowTexts o row := by
  unfold texts
  rw [splitOn_of_not_mem h, List.flatMap_singleton]

/-- An empty row is one empty text. -/
theorem texts_nil (o : WrapOptions) : texts o [] = [[]] := by
  rw [texts_of_line List.not_mem_nil, rowTexts_of_length (Nat.zero_le _)]
  rfl

theorem infix_of_mem_texts {o : WrapOptions} {row t : Text} (h : t ∈ texts o row) : t <:+: row := by
  obtain ⟨l, hl, ht⟩ := List.mem_flatMap.1 h
  exact (infix_of_mem_rowTexts ht).trans (infix_of_mem_splitOn hl)

/-! ## §3. Words. -/

/-- Whether no word of a row is cut. -/
def rowKeepsWords (o : WrapOptions) (row : Text) : Bool :=
  (splitOn '\n' row).all fun l => Wrap.keepsWords l (o.width - markWidth) o.indent false

/-- Whether no word of a text is cut when its block is written. -/
def keepsWords (t : Text) (o : WrapOptions) : Bool := rowKeepsWords o (dropFinalNewline t)

theorem rowKeepsWords_of_keepsWords {rows : List Text} {o : WrapOptions}
    (h : keepsWords (rows.flatMap line) o = true) {row : Text} (hrow : row ∈ rows) :
    rowKeepsWords o row = true := by
  have hne : rows ≠ [] := List.ne_nil_of_mem hrow
  unfold keepsWords rowKeepsWords at h
  rw [dropFinalNewline_flatMap_line hne, splitOn_join_flatMap hne, List.all_flatMap,
    List.all_eq_true] at h
  exact h row hrow

/-- **If no word of a row is cut, its words are read.** -/
theorem words_texts {o : WrapOptions} {row : Text} (h : rowKeepsWords o row = true) :
    (texts o row).flatMap words = words row := by
  have hline : ∀ l ∈ splitOn '\n' row, (rowTexts o l).flatMap words = words l := by
    intro l hl
    unfold rowTexts
    rw [List.flatMap_map, ← Wrap.words_wrapLine (List.all_eq_true.1 h l hl)]
    exact List.flatMap_congr fun piece _ => words_trim piece
  unfold texts
  rw [List.flatMap_assoc, List.flatMap_congr hline]
  exact words_splitOn (by decide) row

/-- **A word that fits begins the first text of its row**, behind the blanks in front of
it, and the other texts come from behind it, on the same line or below.  If no word is
cut, the words behind it are those of the rest. -/
theorem texts_of_indented {o : WrapOptions} {lead head tail : Text}
    (hlead : ∀ c ∈ lead, isBlank c = true) (hline : '\n' ∉ lead ++ head)
    (hlen : (lead ++ head).length ≤ o.width - markWidth)
    (hbegin : ∀ c ∈ head.head?, isBlank c = false) (hend : EndsSolid head)
    (htail : BeginsBlank tail) :
    ∃ more others, texts o (lead ++ head ++ tail) = (head ++ more) :: others
      ∧ BeginsBlank more ∧ (∀ t ∈ more :: others, t <:+: tail)
      ∧ (rowKeepsWords o (lead ++ head ++ tail) = true →
          (more :: others).flatMap words = words tail) := by
  obtain ⟨first, below, htailsplit, hsplit⟩ := splitOn_append hline tail
  have hfirst : first <+: tail := prefix_of_splitOn htailsplit
  obtain ⟨more, others, hrow, hmore, hbegins, hothers⟩ :=
    rowTexts_of_indented hlead hlen hbegin hend (htail.of_begins hfirst)
  have htexts : texts o (lead ++ head ++ tail)
      = (head ++ more) :: (others ++ below.flatMap (rowTexts o)) := by
    unfold texts
    rw [hsplit, List.flatMap_cons, hrow]
    rfl
  refine ⟨more, _, htexts, hmore, fun t ht => ?_, fun hkeeps => ?_⟩
  · rcases List.mem_cons.1 ht with rfl | ht
    · exact (hbegins.trans hfirst).isInfix
    rcases List.mem_append.1 ht with ht | ht
    · exact (hothers t ht).trans hfirst.isInfix
    · obtain ⟨l, hl, ht⟩ := List.mem_flatMap.1 ht
      have hmem : l ∈ splitOn '\n' tail := by
        rw [htailsplit]
        exact List.mem_cons_of_mem first hl
      exact (infix_of_mem_rowTexts ht).trans (infix_of_mem_splitOn hmem)
  · -- the words of the head stand before both
    have hwords := words_texts hkeeps
    rw [htexts, List.flatMap_cons, words_append_of_beginsBlank head hmore, List.append_assoc lead,
      words_blanks_append hlead, words_append_of_beginsBlank head htail, List.append_assoc] at hwords
    exact List.append_cancel_left hwords

/-- The same without blanks in front. -/
theorem texts_of_word {o : WrapOptions} {head tail : Text} (hline : '\n' ∉ head)
    (hlen : head.length ≤ o.width - markWidth)
    (hbegin : ∀ c ∈ head.head?, isBlank c = false) (hend : EndsSolid head)
    (htail : BeginsBlank tail) :
    ∃ more others, texts o (head ++ tail) = (head ++ more) :: others
      ∧ BeginsBlank more ∧ (∀ t ∈ more :: others, t <:+: tail)
      ∧ (rowKeepsWords o (head ++ tail) = true →
          (more :: others).flatMap words = words tail) := by
  have hlead : ∀ c ∈ ([] : Text), isBlank c = true := fun _ hc => absurd hc List.not_mem_nil
  exact texts_of_indented hlead hline hlen hbegin hend htail

end Block
end DocAudit
