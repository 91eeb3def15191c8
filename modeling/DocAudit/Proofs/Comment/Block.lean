/-
  DocAudit.Proofs.Comment.Block
  ─────────────────────────────
  **A WRITTEN BLOCK IS A COMMENT BLOCK, AND IS READ BACK PIECE BY PIECE.**

  The free text of a record is written row by row.  If no row holds a brace, a slash
  or the end of a line, the lines that are written from them are those of a
  `CommentBlock` (`lines_ofRows`), and its body consists of the pieces into which the
  rows are wrapped, each trimmed (`body_ofRows`).
-/
import DocAudit.Comment.Block
import DocAudit.Proofs.Comment.Body
import DocAudit.Proofs.Comment.Wrap

namespace DocAudit.Block

open Text

/-! ## §1. Rows of free text. -/

/-- A character that can stand anywhere in a block: no end of a line, no brace and no
slash. -/
def isTame (c : Char) : Bool :=
  c != '\n' && c != '\r' && c != '\x7b' && c != '\x7d' && c != '/'

/-- A text of such characters. -/
def Tame (t : Text) : Prop := ∀ c ∈ t, isTame c = true

theorem Tame.of_all {t : Text} (h : t.all isTame = true) : Tame t := List.all_eq_true.1 h

theorem Tame.append {a b : Text} (ha : Tame a) (hb : Tame b) : Tame (a ++ b) :=
  fun c hc => (List.mem_append.1 hc).elim (ha c) (hb c)

/-- A tame text behind a mark and a space. -/
theorem Tame.marked {mark t : Text} (hmark : Tame mark) (ht : Tame t) : Tame (mark ++ ' ' :: t) :=
  hmark.append (Tame.append (a := [' ']) (.of_all rfl) ht)

theorem Tame.not_mem {t : Text} (h : Tame t) {c : Char} (hc : isTame c = false) : c ∉ t := by
  intro hmem
  rw [h c hmem] at hc
  cases hc

/-- The pieces into which rows are wrapped. -/
def wrapRows (o : WrapOptions) (rows : List Text) : List Text :=
  rows.flatMap fun row => Wrap.wrapLine row (o.width - markWidth) o.indent false

theorem tame_of_mem_wrapRows {o : WrapOptions} {rows : List Text} (h : ∀ row ∈ rows, Tame row)
    {piece : Text} (hp : piece ∈ wrapRows o rows) : Tame piece := by
  obtain ⟨row, hrow, hpiece⟩ := List.mem_flatMap.1 hp
  intro c hc
  rcases (Wrap.stretch_of_mem_wrapLine hpiece).mem hc with hin | rfl
  · exact h row hrow c hin
  · decide

theorem dropFinalNewline_flatMap_line {rows : List Text} (hne : rows ≠ []) :
    dropFinalNewline (rows.flatMap line) = join ['\n'] rows := by
  rw [← line_join hne]
  unfold dropFinalNewline line
  rw [List.getLast?_concat, if_pos rfl, List.dropLast_concat]

/-- A text of whole rows is wrapped row by row. -/
theorem pieces_flatMap_line {rows : List Text} (hne : rows ≠ []) (h : ∀ row ∈ rows, '\n' ∉ row)
    (o : WrapOptions) : pieces (rows.flatMap line) o = wrapRows o rows := by
  unfold pieces wrapRows
  rw [dropFinalNewline_flatMap_line hne, splitOn_join hne h]

/-! ## §2. The block of rows. -/

theorem tame_blockLine {piece : Text} (h : Tame piece) : Tame (blockLine piece) := by
  unfold blockLine
  split
  · exact .of_all rfl
  · exact Tame.append (a := " * ".toList) (.of_all rfl) h

theorem star_prefix_blockLine (piece : Text) : [' ', '*'] <+: blockLine piece := by
  unfold blockLine
  split
  · exact ⟨[], rfl⟩
  · exact ⟨' ' :: piece, rfl⟩

/-- The text behind the star is the piece, trimmed. -/
theorem innerText_blockLine (piece : Text) : Comment.innerText (blockLine piece) = trim piece := by
  unfold blockLine
  split
  · next hnil =>
    rw [hnil]
    rfl
  · exact trim_blanks_append (a := [' ']) (by decide) piece

/-- The comment block of tame rows. -/
def ofRows (d : Dialect) (o : WrapOptions) (rows : List Text) (h : ∀ row ∈ rows, Tame row) :
    CommentBlock where
  dialect := d
  inner := (wrapRows o rows).map blockLine
  starred := by
    intro l hl
    obtain ⟨piece, _, rfl⟩ := List.mem_map.1 hl
    exact star_prefix_blockLine piece
  oneLine := by
    intro l hl
    obtain ⟨piece, hp, rfl⟩ := List.mem_map.1 hl
    exact (tame_blockLine (tame_of_mem_wrapRows h hp)).not_mem (by decide)
  flat := by
    intro l hl
    obtain ⟨piece, hp, rfl⟩ := List.mem_map.1 hl
    have htame := tame_blockLine (tame_of_mem_wrapRows h hp)
    exact ⟨htame.not_mem (by decide), htame.not_mem (by decide)⟩
  unclosed := by
    intro l hl hin
    obtain ⟨piece, hp, rfl⟩ := List.mem_map.1 hl
    have htame := tame_blockLine (tame_of_mem_wrapRows h hp)
    -- a closing mark needs a slash
    exact htame.not_mem (by decide) (hin.subset (List.mem_cons_of_mem '*' List.mem_cons_self))

variable {d : Dialect} {o : WrapOptions} {rows : List Text} (htame : ∀ row ∈ rows, Tame row)

/-- **The lines that are written** are those of a comment block. -/
theorem lines_ofRows (hne : rows ≠ []) :
    blockLines (rows.flatMap line) d.opening o = (ofRows d o rows htame).lines := by
  unfold blockLines
  rw [pieces_flatMap_line hne fun row hrow => (htame row hrow).not_mem (by decide)]
  rfl

/-- No line of such a block ends in a carriage return. -/
theorem endLine_ofRows :
    (ofRows d o rows htame).lines.map endLine = (ofRows d o rows htame).lines := by
  refine (List.map_congr_left fun l hl => ?_).trans (List.map_id _)
  refine endLine_of_ne fun hlast => ?_
  have hmem := List.mem_of_getLast? hlast
  rcases List.mem_append.1 hl with hl | hl
  · rcases List.mem_cons.1 hl with rfl | hl
    · have hopening : '\r' ∉ d.opening := by cases d <;> decide
      exact hopening hmem
    · obtain ⟨piece, hp, rfl⟩ := List.mem_map.1 hl
      exact (tame_blockLine (tame_of_mem_wrapRows htame hp)).not_mem (by decide) hmem
  · cases List.mem_singleton.1 hl
    revert hmem
    decide

/-- **The body of a written block** consists of the pieces of its rows, trimmed. -/
theorem body_ofRows (n : Nat) :
    ((ofRows d o rows htame).comment n).body d.opening
      = .ok (Comment.numbered (n + 1) ((wrapRows o rows).map trim)) := by
  refine ((ofRows d o rows htame).body_comment n).trans ?_
  have htexts : (ofRows d o rows htame).inner.map Comment.innerText
      = (wrapRows o rows).map trim := by
    show ((wrapRows o rows).map blockLine).map Comment.innerText = _
    rw [List.map_map]
    exact List.map_congr_left fun piece _ => innerText_blockLine piece
  rw [htexts]

/-! ## §3. The texts of one row. -/

/-- The texts that are read where a row was written. -/
def rowTexts (o : WrapOptions) (row : Text) : List Text :=
  (Wrap.wrapLine row (o.width - markWidth) o.indent false).map trim

theorem map_trim_wrapRows (o : WrapOptions) (rows : List Text) :
    (wrapRows o rows).map trim = rows.flatMap (rowTexts o) := List.map_flatMap

/-- The texts of a row are stretches of it. -/
theorem infix_of_mem_rowTexts {o : WrapOptions} {row t : Text} (h : t ∈ rowTexts o row) :
    t <:+: row := by
  obtain ⟨piece, hpiece, rfl⟩ := List.mem_map.1 h
  exact (Wrap.stretch_of_mem_wrapLine hpiece).trim_infix_line

/-- A row that fits is read as one text. -/
theorem rowTexts_of_length {o : WrapOptions} {row : Text}
    (hlen : row.length ≤ o.width - markWidth) : rowTexts o row = [trim row] := by
  unfold rowTexts Wrap.wrapLine
  dsimp only
  rw [if_pos (Nat.le_trans hlen (Nat.le_max_left _ 1)), List.map_singleton]

/-- A row that fits and has nothing to trim is read as it is. -/
theorem rowTexts_of_fits {o : WrapOptions} {row : Text}
    (hlen : row.length ≤ o.width - markWidth)
    (hbegin : ∀ c ∈ row.head?, isBlank c = false) (hend : EndsSolid row) :
    rowTexts o row = [row] := by
  have htrim : trim row = row := by
    have happ := trim_append_of_solid hbegin hend []
    rwa [List.append_nil, show trimEnd [] = [] from rfl, List.append_nil] at happ
  rw [rowTexts_of_length hlen, htrim]

/-- Behind spaces, fewer than fit, the first text of a row begins as the rest does. -/
theorem rowTexts_of_spaces {o : WrapOptions} {n : Nat} (hn : n < o.width - markWidth)
    {c : Char} (hc : isBlank c = false) (body : Text) :
    ∃ more others, rowTexts o (spaces n ++ c :: body) = (c :: more) :: others
      ∧ more <+: body := by
  obtain ⟨k, others, hwrap, hk, _⟩ :=
    Wrap.exists_wrapLine (spaces n ++ c :: body) (o.width - markWidth) o.indent false
  have hlength := length_spaces n
  -- the first break lies behind the spaces
  obtain ⟨j, hj⟩ : ∃ j, k - n = j + 1 := by
    have hbehind : n < k := by
      rcases hk with hk | ⟨_, rfl⟩
      · rw [List.length_append, hlength, List.length_cons] at hk
        omega
      · exact Wrap.pad_lt_breakAt _ (Nat.lt_of_lt_of_le hn (Nat.le_max_left _ 1))
    exact ⟨k - n - 1, by omega⟩
  refine ⟨trimEnd (body.take j), others.map trim, ?_, ?_⟩
  · have hlead : ∀ d ∈ (spaces n).take k, isBlank d = true := fun d hd =>
      blank_spaces n d (List.mem_of_mem_take hd)
    unfold rowTexts
    rw [hwrap, List.map_cons, List.take_append, hlength, hj, List.take_succ_cons,
      trim_blanks_append hlead, trim_cons hc]
  · exact (trimEnd_begins _).trans (List.take_prefix j body)

/-- **A word that fits begins the first text of its row**, behind the blanks in front of
it, and the other texts come from behind it. -/
theorem rowTexts_of_indented {o : WrapOptions} {lead head tail : Text}
    (hlead : ∀ c ∈ lead, isBlank c = true)
    (hlen : (lead ++ head).length ≤ o.width - markWidth)
    (hbegin : ∀ c ∈ head.head?, isBlank c = false) (hend : EndsSolid head)
    (htail : BeginsBlank tail) :
    ∃ more others, rowTexts o (lead ++ head ++ tail) = (head ++ more) :: others
      ∧ BeginsBlank more ∧ more <+: tail ∧ ∀ t ∈ others, t <:+: tail := by
  have hsolid : EndsSolid (lead ++ head) := by
    obtain ⟨c, hlast, hc⟩ := hend
    exact ⟨c, by rw [List.getLast?_append, hlast]; rfl, hc⟩
  obtain ⟨more, others, hwrap, hmore, hothers⟩ := Wrap.wrapLine_of_word
    (Nat.le_trans hlen (Nat.le_max_left _ 1)) hsolid htail o.indent false
  have hbegins : trimEnd more <+: tail := (trimEnd_begins more).trans hmore
  refine ⟨trimEnd more, others.map trim, ?_, htail.of_begins hbegins, hbegins, ?_⟩
  · unfold rowTexts
    rw [hwrap, List.map_cons, List.append_assoc, trim_blanks_append hlead,
      trim_append_of_solid hbegin hend]
  · intro t ht
    obtain ⟨piece, hpiece, rfl⟩ := List.mem_map.1 ht
    exact (hothers piece hpiece).trim_infix_line

/-- The same without blanks in front. -/
theorem rowTexts_of_word {o : WrapOptions} {head tail : Text}
    (hlen : head.length ≤ o.width - markWidth)
    (hbegin : ∀ c ∈ head.head?, isBlank c = false) (hend : EndsSolid head)
    (htail : BeginsBlank tail) :
    ∃ more others, rowTexts o (head ++ tail) = (head ++ more) :: others
      ∧ BeginsBlank more ∧ ∀ t ∈ others, t <:+: tail := by
  have hlead : ∀ c ∈ ([] : Text), isBlank c = true := fun _ hc => absurd hc List.not_mem_nil
  obtain ⟨more, others, htexts, hmore, _, hothers⟩ :=
    rowTexts_of_indented hlead hlen hbegin hend htail
  exact ⟨more, others, htexts, hmore, hothers⟩

end DocAudit.Block
