/-
  DocAudit.Proofs.Declaration.Lexeme
  ──────────────────────────────────
  **WHAT A TOKEN IS, AND WHERE IT STANDS.**

  A token is a stretch of the text, its line is one more than the number of line
  feeds before that stretch, and the tokens come in the order of their lines:

      mem_tokensFrom        the stretch and the line
      pairwise_line         the order
      isIdentifier_of_mem   a word is an identifier

  Lines are counted from the line on which the first piece begins, so the tokens of
  a text that stands further down are those of the text, moved (`tokensFrom_add`).
-/
import DocAudit.Proofs.Declaration.Seam
import DocAudit.Proofs.Text.Split

namespace DocAudit

/-! ## §1. Moving tokens. -/

/-- The token on another line. -/
def Token.onLine (g : Nat → Nat) (t : Token) : Token := { t with line := g t.line }

namespace Token

@[simp] theorem onLine_kind (g : Nat → Nat) (t : Token) : (t.onLine g).kind = t.kind := rfl

@[simp] theorem onLine_text (g : Nat → Nat) (t : Token) : (t.onLine g).text = t.text := rfl

@[simp] theorem onLine_line (g : Nat → Nat) (t : Token) : (t.onLine g).line = g t.line := rfl

end Token

namespace Piece

/-- The tokens of pieces that begin `k` lines further down. -/
theorem tokensFrom_add (n k : Nat) (ps : List Piece) :
    tokensFrom (n + k) ps = (tokensFrom n ps).map (Token.onLine (· + k)) := by
  induction ps generalizing n with
  | nil => rfl
  | cons p ps ih =>
    cases p with
    | token kind t =>
      show ⟨kind, t, n + k⟩ :: tokensFrom (n + k + Text.newlines t) ps = _
      rw [Nat.add_right_comm, ih]
      rfl
    | gap t =>
      show tokensFrom (n + k + Text.newlines t) ps = _
      rw [Nat.add_right_comm, ih]
      rfl

theorem tokensFrom_append (n : Nat) (ps qs : List Piece) :
    tokensFrom n (ps ++ qs)
      = tokensFrom n ps ++ tokensFrom (n + Text.newlines (ps.flatMap text)) qs := by
  -- the line feeds of a gap count as well, so gaps move the line on and yield nothing
  induction ps generalizing n with
  | nil => rfl
  | cons p ps ih =>
    cases p with
    | token kind t =>
      show ⟨kind, t, n⟩ :: tokensFrom (n + Text.newlines t) (ps ++ qs) = _
      rw [ih, List.flatMap_cons, Text.newlines_append, ← Nat.add_assoc]
      rfl
    | gap t =>
      show tokensFrom (n + Text.newlines t) (ps ++ qs) = _
      rw [ih, List.flatMap_cons, Text.newlines_append, ← Nat.add_assoc]
      rfl

/-- **Tokens of a text in two halves**: behind a seam they are those of the second
half, moved down by the line feeds of the first. -/
theorem ofText_append {a : Text} (ha : Seam a) (b : Text) :
    Token.ofText (a ++ b)
      = Token.ofText a ++ (Token.ofText b).map (Token.onLine (· + Text.newlines a)) := by
  unfold Token.ofText
  rw [ha, tokensFrom_append, pieces_text, tokensFrom_add]

/-! ## §2. Where tokens stand. -/

/-- A token is a stretch of the text, on the line that the line feeds before it say. -/
theorem mem_tokensFrom {n : Nat} {ps : List Piece} {t : Token} (h : t ∈ tokensFrom n ps) :
    ∃ before after, ps.flatMap text = before ++ t.text ++ after
      ∧ t.line = n + Text.newlines before := by
  -- what stands before a token grows by each piece that is passed
  induction ps generalizing n with
  | nil => exact absurd h List.not_mem_nil
  | cons p ps ih =>
    cases p with
    | token kind w =>
      rcases List.mem_cons.1 h with rfl | h
      · exact ⟨[], ps.flatMap text, rfl, rfl⟩
      · obtain ⟨before, after, hps, hline⟩ := ih h
        refine ⟨w ++ before, after, ?_, ?_⟩
        · rw [List.flatMap_cons, hps]
          simp only [text, List.append_assoc]
        · rw [hline, Text.newlines_append, Nat.add_assoc]
    | gap w =>
      obtain ⟨before, after, hps, hline⟩ := ih h
      refine ⟨w ++ before, after, ?_, ?_⟩
      · rw [List.flatMap_cons, hps]
        simp only [text, List.append_assoc]
      · rw [hline, Text.newlines_append, Nat.add_assoc]

theorem le_line_of_mem {n : Nat} {ps : List Piece} {t : Token} (h : t ∈ tokensFrom n ps) :
    n ≤ t.line := by
  obtain ⟨before, _, _, hline⟩ := mem_tokensFrom h
  rw [hline]
  exact Nat.le_add_right n _

/-- **Tokens come in the order of their lines.** -/
theorem pairwise_line (n : Nat) (ps : List Piece) :
    (tokensFrom n ps).Pairwise fun t u => t.line ≤ u.line := by
  induction ps generalizing n with
  | nil => exact List.Pairwise.nil
  | cons p ps ih =>
    cases p with
    | token kind w =>
      -- the later tokens are counted from the end of this one
      refine List.Pairwise.cons ?_ (ih _)
      intro u hu
      exact Nat.le_trans (Nat.le_add_right n _) (le_line_of_mem hu)
    | gap w => exact ih _

/-! ## §3. Words. -/

theorem first_name {c : Char} (h : Text.isNameStart c = true) (rest : Text) :
    first c rest
      = (token .word (c :: rest.takeWhile Text.isNameChar), rest.dropWhile Text.isNameChar) := by
  have hne : ∀ x : Char, Text.isNameStart x = false → c ≠ x := by
    rintro x hx rfl
    exact absurd (hx.symm.trans h) (by decide)
  have hblank : Text.isBlank c = false :=
    Text.isBlank_of_isNameChar (Text.isNameChar_of_isNameStart h)
  have hquote : ¬(c = '"' ∨ c = '\'') :=
    fun hq => hq.elim (hne '"' (by decide)) (hne '\'' (by decide))
  -- a letter or underscore is none of the characters that are asked for before it
  unfold first
  rw [if_neg (by rw [hblank]; decide), if_neg (hne '#' (by decide)), if_neg (hne '/' (by decide)),
    if_neg hquote, if_pos h]

theorem first_quote {quote : Char} (h : quote = '"' ∨ quote = '\'') (rest : Text) :
    first quote rest
      = (token .literal (quote :: (splitLiteral quote rest).1), (splitLiteral quote rest).2) := by
  rcases h with rfl | rfl <;> rfl

theorem first_point {rest : Text} (h : ¬['.', '.'] <+: rest) :
    first '.' rest = (token .mark ['.'], rest) := by
  unfold first
  rw [if_neg (by decide), if_neg (by decide), if_neg (by decide), if_neg (by decide),
    if_neg (by decide), if_neg (by decide), if_pos rfl]
  split
  · next r => exact absurd ⟨r, rfl⟩ h
  · rfl

theorem first_slash {rest : Text} (h : ∀ c ∈ rest.head?, c ≠ '/' ∧ c ≠ '*') :
    first '/' rest = (token .mark ['/'], rest) := by
  unfold first
  rw [if_neg (by decide), if_neg (by decide), if_pos rfl]
  split
  · exact absurd rfl (h '/' rfl).1
  · exact absurd rfl (h '*' rfl).2
  · rfl

/-- An identifier that does not go on is a word. -/
theorem pieces_identifier {w : Text} (h : Text.isIdentifier w = true) {b : Text}
    (hb : ∀ c ∈ b.head?, Text.isNameChar c = false) :
    pieces (w ++ b) = token .word w :: pieces b := by
  cases w with
  | nil => exact absurd rfl (Text.ne_nil_of_isIdentifier h)
  | cons c w =>
    rw [Text.isIdentifier, Bool.and_eq_true, List.all_eq_true] at h
    obtain ⟨htake, hdrop⟩ := Text.takeWhile_append_of_stop h.2 hb
    rw [List.cons_append, pieces_cons, first_name h.1, htake, hdrop]

/-- An identifier in front of a character that cannot continue it is a word. -/
theorem pieces_word {w : Text} (h : Text.isIdentifier w = true) {x : Char}
    (hx : Text.isNameChar x = false) (b : Text) :
    pieces (w ++ x :: b) = token .word w :: pieces (x :: b) := by
  apply pieces_identifier h
  intro c hc
  cases hc
  exact hx

/-- A digit, then letters, digits and points. -/
def isNumeral : Text → Bool
  | [] => false
  | c :: rest => c.isDigit && rest.all isNumberChar

/-- A first piece that is a word is an identifier, and one that is a number is a numeral. -/
theorem text_of_first {c : Char} {rest w : Text} {kind : TokenKind}
    (h : (first c rest).1 = token kind w) :
    (kind = .word → Text.isIdentifier w = true) ∧ (kind = .number → isNumeral w = true) := by
  -- only the branch of names yields a word, and only the next one a number
  unfold first at h
  split at h
  · cases h
  split at h
  · cases h
  split at h
  · split at h <;> cases h
    simp
  split at h
  · cases h
    simp
  split at h
  · next hname =>
    cases h
    refine ⟨fun _ => ?_, by simp⟩
    show (Text.isNameStart c && (rest.takeWhile Text.isNameChar).all Text.isNameChar) = true
    rw [hname, Bool.true_and, List.all_eq_true]
    intro d hd
    exact List.mem_takeWhile_imp hd
  split at h
  · next hdigit =>
    cases h
    refine ⟨by simp, fun _ => ?_⟩
    show (c.isDigit && (rest.takeWhile isNumberChar).all isNumberChar) = true
    rw [hdigit, Bool.true_and, List.all_eq_true]
    intro d hd
    exact List.mem_takeWhile_imp hd
  split at h
  · split at h <;> cases h <;> simp
  · cases h
    simp

/-- Every piece is the first piece of what is left when it is reached. -/
theorem exists_first_of_mem {s : Text} {p : Piece} (h : p ∈ pieces s) :
    ∃ c rest, p = (first c rest).1 := by
  induction s using pieces.induct with
  | case1 =>
    rw [pieces_nil] at h
    exact absurd h List.not_mem_nil
  | case2 c rest ih =>
    rw [pieces_cons] at h
    rcases List.mem_cons.1 h with h | h
    · exact ⟨c, rest, h⟩
    · exact ih h

theorem mem_pieces_of_mem {n : Nat} {ps : List Piece} {t : Token} (h : t ∈ tokensFrom n ps) :
    token t.kind t.text ∈ ps := by
  induction ps generalizing n with
  | nil => exact absurd h List.not_mem_nil
  | cons p ps ih =>
    cases p with
    | token kind w =>
      rcases List.mem_cons.1 h with rfl | h
      · exact List.mem_cons_self
      · exact List.mem_cons_of_mem _ (ih h)
    | gap w => exact List.mem_cons_of_mem _ (ih h)

/-- What kind a token is of says what its text looks like. -/
theorem text_of_mem {s : Text} {t : Token} (h : t ∈ Token.ofText s) :
    (t.kind = .word → Text.isIdentifier t.text = true)
      ∧ (t.kind = .number → isNumeral t.text = true) := by
  obtain ⟨c, rest, hfirst⟩ := exists_first_of_mem (mem_pieces_of_mem h)
  exact text_of_first hfirst.symm

/-- **Words are identifiers.** -/
theorem isIdentifier_of_mem {s : Text} {t : Token} (h : t ∈ Token.ofText s)
    (hw : t.kind = .word) : Text.isIdentifier t.text = true := (text_of_mem h).1 hw

/-- **Numbers are numerals.** -/
theorem isNumeral_of_mem {s : Text} {t : Token} (h : t ∈ Token.ofText s)
    (hn : t.kind = .number) : isNumeral t.text = true := (text_of_mem h).2 hn

/-- **Names are identifiers** and no keywords. -/
theorem isIdentifier_of_isName {s : Text} {t : Token} (h : t ∈ Token.ofText s)
    (hname : t.isName = true) :
    Text.isIdentifier t.text = true ∧ Token.isKeyword t.text = false := by
  unfold Token.isName at hname
  rw [Bool.and_eq_true, beq_iff_eq, Bool.not_eq_true'] at hname
  exact ⟨isIdentifier_of_mem h hname.1, hname.2⟩

end Piece
end DocAudit
