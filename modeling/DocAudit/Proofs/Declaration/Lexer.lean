/-
  DocAudit.Proofs.Declaration.Lexer
  ─────────────────────────────────
  **THE LEXER WITH AN INDEX AND A COUNTER.**

  `Token.ofText` cuts pieces off a text and counts the line feeds of what it has cut
  off.  A lexer that runs over the characters by their index does neither.  It keeps
  the index at which it stands and the line it has counted, and each of its loops moves
  both on its own:

      skipDirective     counts the line feeds behind a backslash, and jumps over both
      skipLineEnd       counts nothing: it stops at the line feed
      skipBlock         counts every line feed
      skipLiteral       counts the line feeds behind a backslash, and jumps over two
                        characters there, even if the text has only one
      step              counts the line feeds between the pieces

  What is left of the text at an index is what the splitters are given
  (`skipDirective_eq` and the lemmas like it).  So one round takes one piece
  (`step_eq`), moves on (`lt_step`) and does not leave the text (`step_le`), and the
  tokens of all rounds are those of `Token.ofText` (`tokenize_eq`).
-/
import DocAudit.Proofs.Declaration.Lexeme

namespace DocAudit.Lexer

open Piece

/-! ## §1. Skipping. -/

/-- Where the lexer stands. -/
structure Cursor where
  /-- The index of the next character. -/
  pos : Nat
  /-- The line, as far as it has been counted. -/
  line : Nat
  deriving DecidableEq, Repr

/-- The index behind the characters from `i` on that satisfy `p`. -/
def scanWhile (p : Char → Bool) (t : Text) (i : Nat) : Nat :=
  if _h : i < t.length then
    if p t[i] then scanWhile p t (i + 1) else i
  else i
termination_by t.length - i

/-- Skip a directive.  It stops on the line feed, for which the next round counts. -/
def skipDirective (t : Text) (i line : Nat) : Cursor :=
  if _h : i < t.length then
    if t[i] = '\\' ∧ t[i + 1]? = some '\n' then skipDirective t (i + 2) (line + 1)
    else if t[i] = '\n' then ⟨i, line⟩
    else skipDirective t (i + 1) line
  else ⟨i, line⟩
termination_by t.length - i

def skipLineEnd (t : Text) (i : Nat) : Nat := scanWhile (· != '\n') t i

/-- Skip a block comment, from behind its opening. -/
def skipBlock (t : Text) (i line : Nat) : Cursor :=
  if _h : i < t.length then
    if t[i] = '*' ∧ t[i + 1]? = some '/' then ⟨i + 2, line⟩
    else if t[i] = '\n' then skipBlock t (i + 1) (line + 1)
    else skipBlock t (i + 1) line
  else ⟨i, line⟩
termination_by t.length - i

/-- Skip a literal, from behind its opening quote. -/
def skipLiteral (quote : Char) (t : Text) (i line : Nat) : Cursor :=
  if _h : i < t.length then
    if t[i] = '\\' then
      if t[i + 1]? = some '\n' then skipLiteral quote t (i + 2) (line + 1)
      else skipLiteral quote t (i + 2) line
    else if t[i] = '\n' then ⟨i, line⟩
    else if t[i] = quote then ⟨i + 1, line⟩
    else skipLiteral quote t (i + 1) line
  -- the index may have jumped beyond the end
  else ⟨t.length, line⟩
termination_by t.length - i

/-! ## §2. One round. -/

/-- The characters from `i` up to `j`. -/
def slice (t : Text) (i j : Nat) : Text := (t.drop i).take (j - i)

/-- One round at the index `i`, where `c` stands: the token that is read, if any, and
where the lexer stands then. -/
def step (t : Text) (i line : Nat) (c : Char) : Option Token × Cursor :=
  let next := t[i + 1]?
  if c = '\n' then (none, ⟨i + 1, line + 1⟩)
  else if Text.isBlank c then (none, ⟨i + 1, line⟩)
  else if c = '#' then (none, skipDirective t i line)
  else if c = '/' ∧ next = some '/' then (none, ⟨skipLineEnd t i, line⟩)
  else if c = '/' ∧ next = some '*' then (none, skipBlock t (i + 2) line)
  else if c = '"' ∨ c = '\'' then
    let stop := skipLiteral c t (i + 1) line
    (some ⟨.literal, slice t i stop.pos, line⟩, stop)
  else if Text.isNameStart c then
    let stop := scanWhile Text.isNameChar t i
    (some ⟨.word, slice t i stop, line⟩, ⟨stop, line⟩)
  else if c.isDigit then
    let stop := scanWhile isNumberChar t i
    (some ⟨.number, slice t i stop, line⟩, ⟨stop, line⟩)
  else if c = '.' ∧ next = some '.' ∧ t[i + 2]? = some '.' then
    (some ⟨.mark, ['.', '.', '.'], line⟩, ⟨i + 3, line⟩)
  else (some ⟨.mark, [c], line⟩, ⟨i + 1, line⟩)

/-! ## §3. What is left at an index. -/

namespace Cursor

/-- The cursor behind a passed text. -/
def past (i line : Nat) (passed : Text) : Cursor :=
  ⟨i + passed.length, line + Text.newlines passed⟩

variable {i line : Nat} {passed : Text}

theorem past_nil : past i line [] = ⟨i, line⟩ := rfl

theorem past_feed : past i line ('\n' :: passed) = past (i + 1) (line + 1) passed := by
  unfold past Text.newlines
  rw [List.length_cons, List.count_cons_self, Cursor.mk.injEq]
  omega

theorem past_cons {c : Char} (h : c ≠ '\n') :
    past i line (c :: passed) = past (i + 1) line passed := by
  unfold past Text.newlines
  rw [List.length_cons, List.count_cons_of_ne h, Cursor.mk.injEq]
  omega

end Cursor

open Cursor

variable {t : Text} {i : Nat}

/-- The character behind an index is the first one that is left there. -/
theorem getElem?_succ_eq_some_iff {d : Char} :
    t[i + 1]? = some d ↔ ∃ rest, t.drop (i + 1) = d :: rest := by
  rw [← List.head?_drop, List.head?_eq_some_iff]

theorem drop_eq_cons_cons (h : i < t.length) {d : Char} (hd : t[i + 1]? = some d) :
    t.drop i = t[i] :: d :: t.drop (i + 2) := by
  obtain ⟨hlt, hget⟩ := List.getElem?_eq_some_iff.1 hd
  rw [List.drop_eq_getElem_cons h, List.drop_eq_getElem_cons hlt, hget]

theorem lt_of_drop {c : Char} {rest : Text} (h : t.drop i = c :: rest) : i < t.length := by
  have hlen := congrArg List.length h
  rw [List.length_drop, List.length_cons] at hlen
  omega

theorem drop_succ {c : Char} {rest : Text} (h : t.drop i = c :: rest) : t.drop (i + 1) = rest := by
  rw [← List.tail_drop, h, List.tail_cons]

theorem getElem?_succ {c : Char} {rest : Text} (h : t.drop i = c :: rest) :
    t[i + 1]? = rest.head? := by
  rw [← List.head?_drop, drop_succ h]

theorem scanWhile_eq (p : Char → Bool) (t : Text) (i : Nat) :
    scanWhile p t i = i + ((t.drop i).takeWhile p).length := by
  fun_induction scanWhile p t i with
  | case1 i h hp ih =>
    rw [ih, List.drop_eq_getElem_cons h, List.takeWhile_cons_of_pos hp, List.length_cons]
    omega
  | case2 i h hp =>
    rw [List.drop_eq_getElem_cons h, List.takeWhile_cons_of_neg hp]
    rfl
  | case3 i h =>
    rw [List.drop_eq_nil_of_le (Nat.le_of_not_lt h)]
    rfl

theorem skipDirective_eq (t : Text) (i line : Nat) :
    skipDirective t i line = past i line (splitDirective (t.drop i)).1 := by
  fun_induction skipDirective t i line with
  | case1 i line h hfeed ih =>
    rw [ih, drop_eq_cons_cons h hfeed.2, hfeed.1, splitDirective]
    dsimp only
    rw [past_cons (by decide), past_feed]
  | case2 i line h _ hfeed =>
    rw [List.drop_eq_getElem_cons h, hfeed, splitDirective_feed]
    rfl
  | case3 i line h hgo hfeed ih =>
    have hcase : ∀ rest, t[i] = '\\' → t.drop (i + 1) = '\n' :: rest → False :=
      fun rest hc hrest => hgo ⟨hc, getElem?_succ_eq_some_iff.2 ⟨rest, hrest⟩⟩
    rw [ih, List.drop_eq_getElem_cons h, splitDirective.eq_3 _ _ hcase, if_neg hfeed]
    exact (past_cons hfeed).symm
  | case4 i line h =>
    rw [List.drop_eq_nil_of_le (Nat.le_of_not_lt h)]
    rfl

theorem skipBlock_eq (t : Text) (i line : Nat) :
    skipBlock t i line = past i line (splitBlock (t.drop i)).1 := by
  fun_induction skipBlock t i line with
  | case1 i line h hclose =>
    rw [drop_eq_cons_cons h hclose.2, hclose.1, splitBlock]
    rfl
  | case2 i line h hgo hfeed ih =>
    rw [ih, List.drop_eq_getElem_cons h, hfeed,
      splitBlock.eq_3 _ _ fun _ hc => absurd hc (by decide)]
    exact past_feed.symm
  | case3 i line h hgo hfeed ih =>
    have hcase : ∀ rest, t[i] = '*' → t.drop (i + 1) = '/' :: rest → False :=
      fun rest hc hrest => hgo ⟨hc, getElem?_succ_eq_some_iff.2 ⟨rest, hrest⟩⟩
    rw [ih, List.drop_eq_getElem_cons h, splitBlock.eq_3 _ _ hcase]
    exact (past_cons hfeed).symm
  | case4 i line h =>
    rw [List.drop_eq_nil_of_le (Nat.le_of_not_lt h)]
    rfl

/-- A jump from the last character of a text leads behind its end, and the lexer comes
back to the end. -/
theorem skipLiteral_eq {quote : Char} (hquote : quote ≠ '\\') (t : Text) (i line : Nat)
    (hi : i ≤ t.length) :
    skipLiteral quote t i line = past i line (splitLiteral quote (t.drop i)).1 := by
  fun_induction skipLiteral quote t i line with
  | case1 i line h hback hfeed ih =>
    obtain ⟨hlt, _⟩ := List.getElem?_eq_some_iff.1 hfeed
    rw [ih (by omega), drop_eq_cons_cons h hfeed, hback, splitLiteral]
    dsimp only
    rw [past_cons (by decide), past_feed]
  | case2 i line h hback hfeed ih =>
    cases hnext : t[i + 1]? with
    | some d =>
      obtain ⟨hlt, _⟩ := List.getElem?_eq_some_iff.1 hnext
      have hd : d ≠ '\n' := fun heq => hfeed (by rw [hnext, heq])
      rw [ih (by omega), drop_eq_cons_cons h hnext, hback, splitLiteral]
      dsimp only
      rw [past_cons (by decide), past_cons hd]
    | none =>
      have hlast : t.length = i + 1 := by
        have hle := List.getElem?_eq_none_iff.1 hnext
        omega
      have hend : ¬i + 2 < t.length := by omega
      rw [skipLiteral, dif_neg hend, List.drop_eq_getElem_cons h, hback,
        List.drop_eq_nil_of_le (by omega), hlast]
      simp [splitLiteral, hquote.symm, past, Text.newlines]
  | case3 i line h hback hfeed =>
    rw [List.drop_eq_getElem_cons h, hfeed, splitLiteral_feed]
    rfl
  | case4 i line h hback hfeed hclose =>
    have hcase : ∀ d rest, t[i] = '\\' → t.drop (i + 1) = d :: rest → False :=
      fun _ _ hc _ => hback hc
    rw [List.drop_eq_getElem_cons h, splitLiteral.eq_3 _ _ _ hcase, if_neg hfeed, if_pos hclose,
      past_cons hfeed, past_nil]
  | case5 i line h hback hfeed hclose ih =>
    have hcase : ∀ d rest, t[i] = '\\' → t.drop (i + 1) = d :: rest → False :=
      fun _ _ hc _ => hback hc
    rw [ih h, List.drop_eq_getElem_cons h, splitLiteral.eq_3 _ _ _ hcase, if_neg hfeed,
      if_neg hclose]
    exact (past_cons hfeed).symm
  | case6 i line h =>
    have hend : i = t.length := by omega
    rw [List.drop_eq_nil_of_le (Nat.le_of_not_lt h), hend]
    rfl

/-! ## §4. A round takes a piece. -/

/-- A text without a line feed moves the index only. -/
theorem Cursor.past_of_not_mem {passed : Text} (h : '\n' ∉ passed) (i line : Nat) :
    past i line passed = ⟨i + passed.length, line⟩ := by
  unfold past Text.newlines
  rw [List.count_eq_zero.2 h, Nat.add_zero]

theorem slice_past {w left : Text} (h : t.drop i = w ++ left) (line : Nat) :
    slice t i (past i line w).pos = w := by
  unfold slice past
  rw [h, Nat.add_sub_cancel_left, List.take_left]

/-- A scan from a character that satisfies `p`, where no line feed does. -/
theorem scanWhile_cons {p : Char → Bool} {c : Char} {rest : Text} (h : t.drop i = c :: rest)
    (hc : p c = true) (hfeed : p '\n' = false) (line : Nat) :
    (⟨scanWhile p t i, line⟩ : Cursor) = past i line (c :: rest.takeWhile p) := by
  have hnone : '\n' ∉ c :: rest.takeWhile p := by
    intro hin
    rw [← List.takeWhile_cons_of_pos hc] at hin
    rw [List.mem_takeWhile_imp hin] at hfeed
    cases hfeed
  rw [past_of_not_mem hnone, scanWhile_eq, h, List.takeWhile_cons_of_pos hc]

/-- The token that a piece is, on the given line. -/
def tokenOn? (line : Nat) : Piece → Option Token
  | .token kind w => some ⟨kind, w, line⟩
  | .gap _ => none

/-- A round at `i` takes the piece `p`: it reads the token that `p` is, moves the index
behind `p`, and counts its line feeds. -/
def Takes (t : Text) (i line : Nat) (c : Char) (p : Piece) : Prop :=
  step t i line c = (tokenOn? line p, past i line p.text)

theorem takes_hash {rest : Text} (h : t.drop i = '#' :: rest) (line : Nat) :
    Takes t i line '#' (first '#' rest).1 := by
  show ((none : Option Token), skipDirective t i line)
    = (none, past i line ('#' :: (splitDirective rest).1))
  rw [skipDirective_eq, h, splitDirective.eq_3 _ _ fun _ hc => absurd hc (by decide),
    if_neg (by decide)]

/-- A slash opens a comment, or it is a mark. -/
theorem takes_slash {rest : Text} (h : t.drop i = '/' :: rest) (line : Nat) :
    Takes t i line '/' (first '/' rest).1 := by
  have hnext := getElem?_succ h
  by_cases hline : rest.head? = some '/'
  · obtain ⟨r, rfl⟩ := List.head?_eq_some_iff.1 hline
    have hscan := scanWhile_cons (p := (· != '\n')) h (by decide) (by decide) line
    unfold Takes step
    rw [hnext]
    show ((none : Option Token), (⟨skipLineEnd t i, line⟩ : Cursor))
      = (none, past i line ('/' :: '/' :: r.takeWhile (· != '\n')))
    rw [skipLineEnd, hscan, List.takeWhile_cons_of_pos (by decide)]
  by_cases hopen : rest.head? = some '*'
  · obtain ⟨r, rfl⟩ := List.head?_eq_some_iff.1 hopen
    unfold Takes step
    rw [hnext]
    show ((none : Option Token), skipBlock t (i + 2) line)
      = (none, past i line ('/' :: '*' :: (splitBlock r).1))
    rw [skipBlock_eq, drop_succ (drop_succ h), past_cons (by decide), past_cons (by decide)]
  · have hlone : ∀ c ∈ rest.head?, c ≠ '/' ∧ c ≠ '*' := by
      intro c hc
      exact ⟨fun heq => hline (heq ▸ hc), fun heq => hopen (heq ▸ hc)⟩
    unfold Takes step
    rw [first_slash hlone, hnext, if_neg (by decide), if_neg (by decide), if_neg (by decide),
      if_neg fun hd => hline hd.2, if_neg fun hd => hopen hd.2]
    rfl

theorem takes_quote {quote : Char} (hquote : quote = '"' ∨ quote = '\'') {rest : Text}
    (h : t.drop i = quote :: rest) (line : Nat) :
    Takes t i line quote (first quote rest).1 := by
  have hback : quote ≠ '\\' := by rcases hquote with rfl | rfl <;> decide
  have hfeed : quote ≠ '\n' := by rcases hquote with rfl | rfl <;> decide
  have hstop : skipLiteral quote t (i + 1) line
      = past i line (quote :: (splitLiteral quote rest).1) := by
    rw [skipLiteral_eq hback t (i + 1) line (lt_of_drop h), drop_succ h, past_cons hfeed]
  have hsplit : t.drop i
      = quote :: (splitLiteral quote rest).1 ++ (splitLiteral quote rest).2 := by
    rw [h, List.cons_append, splitLiteral_append]
  have hslice := slice_past hsplit line
  rw [← hstop] at hslice
  have hstep : step t i line quote
      = (some ⟨.literal, slice t i (skipLiteral quote t (i + 1) line).pos, line⟩,
          skipLiteral quote t (i + 1) line) := by
    rcases hquote with rfl | rfl <;> rfl
  unfold Takes
  rw [hstep, hslice, hstop, first_quote hquote]
  rfl

/-- Three points are one mark, any other point is one alone. -/
theorem takes_point {rest : Text} (h : t.drop i = '.' :: rest) (line : Nat) :
    Takes t i line '.' (first '.' rest).1 := by
  have hnext := getElem?_succ h
  by_cases hthree : ['.', '.'] <+: rest
  · obtain ⟨r, rfl⟩ := hthree
    have hthird : t[i + 2]? = some '.' := getElem?_succ (drop_succ h)
    unfold Takes step
    rw [hnext, hthird]
    rfl
  · have hlone : ¬('.' = '.' ∧ rest.head? = some '.' ∧ t[i + 2]? = some '.') := by
      intro ⟨_, hsecond, hthird⟩
      obtain ⟨r, rfl⟩ := List.head?_eq_some_iff.1 hsecond
      rw [getElem?_succ (drop_succ h)] at hthird
      obtain ⟨r, rfl⟩ := List.head?_eq_some_iff.1 hthird
      exact hthree ⟨r, rfl⟩
    unfold Takes step
    rw [first_point hthree, hnext, if_neg (by decide), if_neg (by decide), if_neg (by decide),
      if_neg fun hd => absurd hd.1 (by decide), if_neg fun hd => absurd hd.1 (by decide),
      if_neg (by decide), if_neg (by decide), if_neg (by decide), if_neg hlone]
    rfl

/-- Names and numbers are scanned from a character that they may go on with. -/
theorem scan_eq {p : Char → Bool} {c : Char} {rest : Text} (h : t.drop i = c :: rest)
    (hc : p c = true) (hfeed : p '\n' = false) (kind : TokenKind) (line : Nat) :
    (some (⟨kind, slice t i (scanWhile p t i), line⟩ : Token),
        (⟨scanWhile p t i, line⟩ : Cursor))
      = (tokenOn? line (token kind (c :: rest.takeWhile p)),
          past i line (c :: rest.takeWhile p)) := by
  have hstop := scanWhile_cons h hc hfeed line
  have hsplit : t.drop i = c :: rest.takeWhile p ++ rest.dropWhile p := by
    rw [h, List.cons_append, List.takeWhile_append_dropWhile]
  have hslice := slice_past hsplit line
  rw [← hstop] at hslice
  rw [← hstop, hslice]
  rfl

/-- **One round takes one piece.** -/
theorem takes_first {c : Char} {rest : Text} (h : t.drop i = c :: rest) (line : Nat) :
    Takes t i line c (first c rest).1 := by
  -- the characters that a loop or a look ahead follows first, then the order of the lexer
  by_cases hhash : c = '#'
  · exact hhash ▸ takes_hash (hhash ▸ h) line
  by_cases hslash : c = '/'
  · exact hslash ▸ takes_slash (hslash ▸ h) line
  by_cases hquote : c = '"' ∨ c = '\''
  · exact takes_quote hquote h line
  by_cases hpoint : c = '.'
  · exact hpoint ▸ takes_point (hpoint ▸ h) line
  unfold Takes step first
  dsimp only
  by_cases hfeed : c = '\n'
  · subst hfeed
    rfl
  have hone : past i line [c] = ⟨i + 1, line⟩ := by rw [past_cons hfeed, past_nil]
  rw [if_neg hfeed]
  by_cases hblank : Text.isBlank c = true
  · rw [if_pos hblank, if_pos hblank, ← hone]
    rfl
  rw [if_neg hblank, if_neg hblank, if_neg hhash, if_neg hhash, if_neg fun hd => hslash hd.1,
    if_neg fun hd => hslash hd.1, if_neg hslash, if_neg hquote, if_neg hquote]
  by_cases hname : Text.isNameStart c = true
  · rw [if_pos hname, if_pos hname]
    exact scan_eq h (Text.isNameChar_of_isNameStart hname) (by decide) .word line
  rw [if_neg hname, if_neg hname]
  by_cases hdigit : c.isDigit = true
  · have hnumber : isNumberChar c = true := by simp [isNumberChar, Char.isAlphanum, hdigit]
    rw [if_pos hdigit, if_pos hdigit]
    exact scan_eq h hnumber (by decide) .number line
  rw [if_neg hdigit, if_neg hdigit, if_neg fun hd => hpoint hd.1, if_neg hpoint, ← hone]
  rfl

/-! ## §5. The loop. -/

theorem step_eq (h : i < t.length) (line : Nat) :
    step t i line t[i]
      = (tokenOn? line (first t[i] (t.drop (i + 1))).1,
          past i line (first t[i] (t.drop (i + 1))).1.text) :=
  takes_first (List.drop_eq_getElem_cons h) line

/-- **A round moves on.** -/
theorem lt_step (h : i < t.length) (line : Nat) : i < (step t i line t[i]).2.pos := by
  have hpiece := List.length_pos_iff.2 (text_first_ne_nil t[i] (t.drop (i + 1)))
  rw [step_eq h line]
  exact Nat.lt_add_of_pos_right hpiece

/-- **A round does not leave the text.** -/
theorem step_le (h : i < t.length) (line : Nat) : (step t i line t[i]).2.pos ≤ t.length := by
  have hlen := congrArg List.length (first_append t[i] (t.drop (i + 1)))
  rw [← List.drop_eq_getElem_cons h, List.length_append, List.length_drop] at hlen
  rw [step_eq h line]
  show i + (first t[i] (t.drop (i + 1))).1.text.length ≤ t.length
  omega

/-- One round of the loop. -/
structure Round where
  /-- Where the lexer stands. -/
  start : Cursor
  /-- The token that it reads. -/
  token : Option Token
  /-- Where it stands then. -/
  stop : Cursor
  deriving DecidableEq, Repr

/-- The rounds from the index `i` on, to the end of the text. -/
def roundsFrom (t : Text) (i line : Nat) : List Round :=
  if h : i < t.length then
    ⟨⟨i, line⟩, (step t i line t[i]).1, (step t i line t[i]).2⟩
      :: roundsFrom t (step t i line t[i]).2.pos (step t i line t[i]).2.line
  else []
termination_by t.length - i
decreasing_by
  have hlt := lt_step h line
  omega

/-- The rounds in which a text is read. -/
def rounds (t : Text) : List Round := roundsFrom t 0 1

/-- The tokens that are read. -/
def tokenize (t : Text) : List Token := (rounds t).filterMap Round.token

/-- Where the lexer stands, from the beginning to the end. -/
def stops (t : Text) : List Cursor := ⟨0, 1⟩ :: (rounds t).map Round.stop

/-- The rounds in which consecutive pieces are taken. -/
def takings (i line : Nat) : List Piece → List Round
  | [] => []
  | p :: ps =>
    ⟨⟨i, line⟩, tokenOn? line p, past i line p.text⟩
      :: takings (i + p.text.length) (line + Text.newlines p.text) ps

/-- **The rounds take the pieces of the text**, one after another. -/
theorem roundsFrom_eq (t : Text) (i line : Nat) :
    roundsFrom t i line = takings i line (pieces (t.drop i)) := by
  fun_induction roundsFrom t i line with
  | case1 i line h ih =>
    have hleft : t.drop (past i line (first t[i] (t.drop (i + 1))).1.text).pos
        = (first t[i] (t.drop (i + 1))).2 := by
      show t.drop (i + (first t[i] (t.drop (i + 1))).1.text.length) = _
      rw [← List.drop_drop, List.drop_eq_getElem_cons h, ← first_append, List.drop_left]
    rw [ih, step_eq h line, hleft, List.drop_eq_getElem_cons h, pieces_cons]
    rfl
  | case2 i line h =>
    rw [List.drop_eq_nil_of_le (Nat.le_of_not_lt h), pieces_nil]
    rfl

theorem filterMap_token_takings (i line : Nat) (ps : List Piece) :
    (takings i line ps).filterMap Round.token = tokensFrom line ps := by
  induction ps generalizing i line with
  | nil => rfl
  | cons p ps ih =>
    cases p with
    | token kind w => exact congrArg (_ :: ·) (ih _ _)
    | gap w => exact ih _ _

/-- **Both lexers read the same tokens.** -/
theorem tokenize_eq (t : Text) : tokenize t = Token.ofText t := by
  unfold tokenize rounds Token.ofText
  rw [roundsFrom_eq, List.drop_zero, filterMap_token_takings]

/-! ## §6. Where the lexer stands. -/

/-- The line is that of the index. -/
def Cursor.Exact (t : Text) (c : Cursor) : Prop := c.line = 1 + Text.newlines (t.take c.pos)

/-- **A round keeps the line exact.** -/
theorem exact_step (h : i < t.length) {line : Nat} (hline : Cursor.Exact t ⟨i, line⟩) :
    (step t i line t[i]).2.Exact t := by
  have hsplit := first_append t[i] (t.drop (i + 1))
  rw [← List.drop_eq_getElem_cons h] at hsplit
  have htake : t.take (i + (first t[i] (t.drop (i + 1))).1.text.length)
      = t.take i ++ (first t[i] (t.drop (i + 1))).1.text := by
    rw [List.take_add, ← hsplit, List.take_left]
  rw [step_eq h line]
  show line + Text.newlines (first t[i] (t.drop (i + 1))).1.text
    = 1 + Text.newlines (t.take (i + (first t[i] (t.drop (i + 1))).1.text.length))
  rw [htake, Text.newlines_append, ← Nat.add_assoc]
  exact congrArg (· + _) hline

/-- So every round ends on an exact line. -/
theorem exact_of_mem {line : Nat} (hline : Cursor.Exact t ⟨i, line⟩) {r : Round}
    (hr : r ∈ roundsFrom t i line) : r.stop.Exact t := by
  fun_induction roundsFrom t i line with
  | case1 i line h ih =>
    rcases List.mem_cons.1 hr with rfl | hr
    · exact exact_step h hline
    · exact ih (exact_step h hline) hr
  | case2 => cases hr

theorem lt_of_mem {line : Nat} {r : Round} (hr : r ∈ roundsFrom t i line) : i < r.stop.pos := by
  fun_induction roundsFrom t i line with
  | case1 i line h ih =>
    have hlt := lt_step h line
    rcases List.mem_cons.1 hr with rfl | hr
    · exact hlt
    · exact Nat.lt_trans hlt (ih hr)
  | case2 => cases hr

/-- **The index grows from round to round.** -/
theorem pairwise_pos (t : Text) (i line : Nat) :
    (i :: (roundsFrom t i line).map (·.stop.pos)).Pairwise (· < ·) := by
  fun_induction roundsFrom t i line with
  | case1 i line h ih =>
    refine List.Pairwise.cons (fun j hj => ?_) ih
    have hlt := lt_step h line
    rcases List.mem_cons.1 hj with rfl | hj
    · exact hlt
    · obtain ⟨r, hr, rfl⟩ := List.mem_map.1 hj
      exact Nat.lt_trans hlt (lt_of_mem hr)
  | case2 => exact List.pairwise_singleton _ _

/-- **The loop ends at the end of the text.** -/
theorem getLast?_pos (hi : i ≤ t.length) (line : Nat) :
    (i :: (roundsFrom t i line).map (·.stop.pos)).getLast? = some t.length := by
  fun_induction roundsFrom t i line with
  | case1 i line h ih =>
    rw [List.map_cons, List.getLast?_cons_cons]
    exact ih (step_le h line)
  | case2 i line h =>
    have hend : i = t.length := by omega
    rw [hend]
    rfl

end DocAudit.Lexer
