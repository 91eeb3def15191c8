/-
  DocAudit.Proofs.Declaration.Spelling
  ────────────────────────────────────
  **TOKENS THAT ARE WRITTEN DOWN ARE READ BACK.**

  A text writes a run of tokens down when it consists of their texts, with blanks
  between them wherever two of them would run together, and elsewhere at will
  (`Written`).  The lexer reads such a text as these tokens:

      tokens of (a ++ b)  =  those that `a` writes down, then the tokens of b
                                                       (`Written.tokensFrom_append`)

  The spelling of a type is one such text (`written_spell`): it puts a space where two
  words meet, and of all other pairs none runs together.
-/
import DocAudit.Proofs.Declaration.Moved
import DocAudit.Proofs.Text.Split
import DocAudit.Proofs.Text.Trim

namespace DocAudit

/-! ## §1. Lexemes. -/

namespace Token

/-- A character that is a mark of its own, whatever follows. -/
def isLoneMark (c : Char) : Bool :=
  !Text.isBlank c && !Text.isNameStart c && !c.isDigit
    && !(c == '#' || c == '/' || c == '"' || c == '\'' || c == '.')

/-- Whether the text of a token says what token it is: an identifier, a numeral or a
single mark. -/
def isLexeme (t : Token) : Bool :=
  match t.kind with
  | .word => Text.isIdentifier t.text
  | .number => Piece.isNumeral t.text
  | .mark => t.text.length == 1 && t.text.all isLoneMark
  | .literal => false

/-- The marks that occur in types. -/
def typeMarks : List Char := ['*', '(', ')', '[', ']', ',']

/-- Whether a token may be part of a type. -/
def isTypePart (t : Token) : Bool :=
  t.kind == .word || t.kind == .number || typeMarks.any t.isMark

/-- Parts of types, as the lexer yields them, are lexemes. -/
theorem isLexeme_of_mem {s : Text} {t : Token} (h : t ∈ ofText s) (hpart : t.isTypePart = true) :
    t.isLexeme = true := by
  simp only [isTypePart, Bool.or_eq_true, beq_iff_eq, List.any_eq_true] at hpart
  unfold isLexeme
  rcases hpart with (hword | hnumber) | ⟨c, hc, hmark⟩
  · rw [hword]
    exact Piece.isIdentifier_of_mem h hword
  · rw [hnumber]
    exact Piece.isNumeral_of_mem h hnumber
  · simp only [isMark, Bool.and_eq_true, beq_iff_eq] at hmark
    have hlone : ∀ c ∈ typeMarks, isLoneMark c = true := by decide
    rw [hmark.1, hmark.2]
    simp [hlone c hc]

/-- A text that does not go on with a character of a name or of a number. -/
def Stops (b : Text) : Prop :=
  ∀ c ∈ b.head?, Text.isNameChar c = false ∧ Piece.isNumberChar c = false

theorem stops_nil : Stops [] := by
  intro c hc
  cases hc

theorem stops_cons {c : Char} (h : Text.isNameChar c = false ∧ Piece.isNumberChar c = false)
    (b : Text) : Stops (c :: b) := by
  intro d hd
  cases hd
  exact h

/-- What stands in front decides, unless it is empty. -/
theorem Stops.append {a b : Text} (ha : Stops a) (hb : Stops b) : Stops (a ++ b) := by
  cases a with
  | nil => exact hb
  | cons c a => exact stops_cons (ha c rfl) (a ++ b)

theorem Stops.of_begins {a b : Text} (h : Stops b) (hp : a <+: b) : Stops a := by
  cases a with
  | nil => exact stops_nil
  | cons c a =>
    obtain ⟨r, rfl⟩ := hp
    exact stops_cons (h c rfl) a

/-- Letters and digits are what names and numbers have in common. -/
theorem stops_of_not_alphanum {c : Char} (halnum : c.isAlphanum = false)
    (hne : c ≠ '_' ∧ c ≠ '.') (b : Text) : Stops (c :: b) := by
  refine stops_cons ?_ b
  simp [Text.isNameChar, Piece.isNumberChar, halnum, hne]

theorem stops_of_isBlank {c : Char} (h : Text.isBlank c = true) (b : Text) : Stops (c :: b) := by
  have hname : Text.isNameChar c = false := by
    rw [Bool.eq_false_iff]
    intro hc
    rw [Text.isBlank_of_isNameChar hc] at h
    exact absurd h (by decide)
  have hpoint : c ≠ '.' := by
    rintro rfl
    exact absurd h (by decide)
  have halnum : c.isAlphanum = false ∧ c ≠ '_' := by
    simpa [Text.isNameChar] using hname
  exact stops_of_not_alphanum halnum.1 ⟨halnum.2, hpoint⟩ b

theorem stops_of_isLoneMark {c : Char} (h : isLoneMark c = true) (b : Text) : Stops (c :: b) := by
  have hparts : (c.isAlpha = false ∧ c ≠ '_') ∧ c.isDigit = false ∧ c ≠ '.' := by
    simp [isLoneMark, Text.isNameStart] at h
    grind
  obtain ⟨⟨halpha, hunder⟩, hdigit, hpoint⟩ := hparts
  refine stops_of_not_alphanum ?_ ⟨hunder, hpoint⟩ b
  simp [Char.isAlphanum, halpha, hdigit]

end Token

namespace Piece

theorem isBlank_of_isNumberChar {c : Char} (h : isNumberChar c = true) : Text.isBlank c = false := by
  unfold isNumberChar at h
  rw [Bool.or_eq_true, beq_iff_eq] at h
  rcases h with h | rfl
  · exact Text.isBlank_of_isNameChar (by simp [Text.isNameChar, h])
  · decide

theorem isNumberChar_of_mem {w : Text} (h : isNumeral w = true) {c : Char} (hc : c ∈ w) :
    isNumberChar c = true := by
  cases w with
  | nil => exact absurd hc List.not_mem_nil
  | cons d w =>
    rw [isNumeral, Bool.and_eq_true, List.all_eq_true] at h
    rcases List.mem_cons.1 hc with rfl | hc
    · simp [isNumberChar, Char.isAlphanum, h.1]
    · exact h.2 c hc

/-- Digits and letters lie apart. -/
theorem isAlpha_of_isDigit {c : Char} (h : c.isDigit = true) : c.isAlpha = false := by
  -- the ASCII classes, opened by hand: a digit, no capital and no small letter
  have hdigit : (decide (48 ≤ c.val) && decide (c.val ≤ 57)) = true := h
  show (decide (65 ≤ c.val ∧ c.val ≤ 90)
    || (decide (97 ≤ c.val) && decide (c.val ≤ 122))) = false
  simp [UInt32.le_iff_toNat_le] at hdigit ⊢
  omega

theorem first_digit {c : Char} (h : c.isDigit = true) (rest : Text) :
    first c rest
      = (token .number (c :: rest.takeWhile isNumberChar), rest.dropWhile isNumberChar) := by
  have hne : ∀ x : Char, x.isDigit = false → c ≠ x := by
    rintro x hx rfl
    exact absurd (hx.symm.trans h) (by decide)
  have hblank : Text.isBlank c = false :=
    isBlank_of_isNumberChar (by simp [isNumberChar, Char.isAlphanum, h])
  have hquote : ¬(c = '"' ∨ c = '\'') :=
    fun hq => hq.elim (hne '"' (by decide)) (hne '\'' (by decide))
  have hstart : Text.isNameStart c = false := by
    simp [Text.isNameStart, isAlpha_of_isDigit h, hne '_' (by decide)]
  unfold first
  rw [if_neg (by rw [hblank]; decide), if_neg (hne '#' (by decide)), if_neg (hne '/' (by decide)),
    if_neg hquote, if_neg (by rw [hstart]; decide), if_pos h]

/-- A numeral that does not go on is a number. -/
theorem pieces_numeral {w : Text} (h : isNumeral w = true) {b : Text}
    (hb : ∀ c ∈ b.head?, isNumberChar c = false) :
    pieces (w ++ b) = token .number w :: pieces b := by
  cases w with
  | nil => cases h
  | cons c w =>
    rw [isNumeral, Bool.and_eq_true, List.all_eq_true] at h
    obtain ⟨htake, hdrop⟩ := Text.takeWhile_append_of_stop h.2 hb
    rw [List.cons_append, pieces_cons, first_digit h.1, htake, hdrop]

theorem first_mark {c : Char} (h : Token.isLoneMark c = true) (rest : Text) :
    first c rest = (token .mark [c], rest) := by
  simp [Token.isLoneMark] at h
  unfold first
  simp [h]

end Piece

namespace Token

/-- The three sorts of lexeme. -/
theorem cases_of_isLexeme {t : Token} (h : t.isLexeme = true) :
    t.kind = .word ∧ Text.isIdentifier t.text = true
      ∨ t.kind = .number ∧ Piece.isNumeral t.text = true
      ∨ t.kind = .mark ∧ ∃ c, t.text = [c] ∧ isLoneMark c = true := by
  unfold isLexeme at h
  split at h
  · next hkind => exact .inl ⟨hkind, h⟩
  · next hkind => exact .inr (.inl ⟨hkind, h⟩)
  · next hkind =>
    rw [Bool.and_eq_true, beq_iff_eq] at h
    obtain ⟨c, hc⟩ := List.length_eq_one_iff.1 h.1
    exact .inr (.inr ⟨hkind, c, hc, by simpa [hc] using h.2⟩)
  · cases h

theorem exists_mark_of_isLexeme {t : Token} (h : t.isLexeme = true) (hkind : t.kind = .mark) :
    ∃ c, t.text = [c] ∧ isLoneMark c = true := by
  rcases cases_of_isLexeme h with ⟨hword, _⟩ | ⟨hnumber, _⟩ | ⟨_, hmark⟩
  · exact absurd (hkind.symm.trans hword) (by decide)
  · exact absurd (hkind.symm.trans hnumber) (by decide)
  · exact hmark

/-- Lexemes are not empty and hold no blank. -/
theorem solid_of_isLexeme {t : Token} (h : t.isLexeme = true) :
    t.text ≠ [] ∧ ∀ c ∈ t.text, Text.isBlank c = false := by
  rcases cases_of_isLexeme h with ⟨_, hword⟩ | ⟨_, hnumber⟩ | ⟨_, c, htext, hmark⟩
  · exact ⟨Text.ne_nil_of_isIdentifier hword,
      fun c hc => Text.isBlank_of_isNameChar (Text.isNameChar_of_mem hword hc)⟩
  · refine ⟨?_, fun c hc => Piece.isBlank_of_isNumberChar (Piece.isNumberChar_of_mem hnumber hc)⟩
    intro hnil
    rw [hnil] at hnumber
    cases hnumber
  · rw [htext]
    refine ⟨List.cons_ne_nil c [], fun d hd => ?_⟩
    cases List.mem_singleton.1 hd
    simp [isLoneMark] at hmark
    exact hmark.1.1.1

/-- A mark stands in a lexeme only if the lexeme is that mark. -/
theorem not_mem_text {t : Token} (h : t.isLexeme = true) {c : Char} (hc : isLoneMark c = true)
    (ht : t.isMark c = false) : c ∉ t.text := by
  obtain ⟨hname, hnumber⟩ := stops_of_isLoneMark hc [] c rfl
  intro hmem
  rcases cases_of_isLexeme h with ⟨_, hword⟩ | ⟨_, hnumeral⟩ | ⟨hkind, d, htext, _⟩
  · exact absurd hmem (Text.not_mem_of_isIdentifier hword hname)
  · rw [Piece.isNumberChar_of_mem hnumeral hmem] at hnumber
    cases hnumber
  · rw [htext, List.mem_singleton] at hmem
    simp [isMark, hkind, htext, hmem] at ht

/-- **A lexeme is read as the token that it is**, if nothing continues it. -/
theorem pieces_lexeme {t : Token} (h : t.isLexeme = true) {b : Text}
    (hb : t.kind = .mark ∨ Stops b) :
    Piece.pieces (t.text ++ b) = .token t.kind t.text :: Piece.pieces b := by
  -- marks end by themselves, words and numbers where the text behind them stops
  rcases cases_of_isLexeme h with ⟨hkind, hword⟩ | ⟨hkind, hnumeral⟩ | ⟨hkind, c, htext, hmark⟩
  · have hstop := hb.resolve_left (by rw [hkind]; decide)
    rw [hkind]
    exact Piece.pieces_identifier hword fun c hc => (hstop c hc).1
  · have hstop := hb.resolve_left (by rw [hkind]; decide)
    rw [hkind]
    exact Piece.pieces_numeral hnumeral fun c hc => (hstop c hc).2
  · rw [hkind, htext, List.singleton_append, Piece.pieces_cons, Piece.first_mark hmark]

/-! ## §2. Texts that write tokens down. -/

/-- The token without its line. -/
def bare (t : Token) : Token := t.onLine fun _ => 0

/-- A mark, as a token. -/
def mark (c : Char) : Token := ⟨.mark, [c], 0⟩

/-- A text that consists of the texts of these tokens and of blanks, where a token is
not continued by what follows it. -/
inductive Written : List Token → Text → Prop where
  /-- The end. -/
  | nil : Written [] []
  /-- A blank. -/
  | blank {c : Char} {ts : List Token} {b : Text} :
      Text.isBlank c = true → Written ts b → Written ts (c :: b)
  /-- A token; a word or number must come to an end. -/
  | token {t : Token} {ts : List Token} {b : Text} :
      t.isLexeme = true → t.kind = .mark ∨ Stops b → Written ts b → Written (t :: ts) (t.text ++ b)

namespace Written

variable {ts us : List Token} {a b : Text}

theorem blanks (ha : ∀ c ∈ a, Text.isBlank c = true) (h : Written ts b) : Written ts (a ++ b) := by
  induction a with
  | nil => exact h
  | cons c a ih =>
    exact .blank (ha c List.mem_cons_self) (ih fun d hd => ha d (List.mem_cons_of_mem c hd))

theorem spaces (n : Nat) (h : Written ts b) : Written ts (Text.spaces n ++ b) :=
  blanks (Text.blank_spaces n) h

/-- Two texts, one after the other. -/
theorem append (ha : Written ts a) (hb : Written us b) (hstops : Stops b) :
    Written (ts ++ us) (a ++ b) := by
  induction ha with
  | nil => exact hb
  | blank hc _ ih => exact .blank hc ih
  | token ht hnext _ ih =>
    rw [List.append_assoc]
    exact .token ht (hnext.imp_right fun h => h.append hstops) ih

/-- What begins with a mark ends what stands before it. -/
theorem stops_of_mark {t : Token} (h : Written (t :: ts) a) (ht : t.kind = .mark) : Stops a := by
  cases h with
  | blank hc _ => exact stops_of_isBlank hc _
  | token hlex _ _ =>
    obtain ⟨c, htext, hc⟩ := exists_mark_of_isLexeme hlex ht
    rw [htext]
    exact stops_of_isLoneMark hc _

/-- A text of marks needs nothing behind it. -/
theorem append_of_marks (ha : Written ts a) (hts : ∀ t ∈ ts, t.kind = .mark) (hb : Written us b) :
    Written (ts ++ us) (a ++ b) := by
  induction ha with
  | nil => exact hb
  | blank hc _ ih => exact .blank hc (ih hts)
  | token ht _ _ ih =>
    rw [List.append_assoc]
    exact .token ht (.inl (hts _ List.mem_cons_self))
      (ih fun t hmem => hts t (List.mem_cons_of_mem _ hmem))

/-- Blanks at the end may be left out. -/
theorem trimEnd (h : Written ts a) : Written ts (Text.trimEnd a) := by
  induction h with
  | nil => exact .nil
  | @blank c ts b hc h ih =>
    -- the blank goes too if nothing is left behind it
    by_cases hnil : ∀ d ∈ b, Text.isBlank d = true
    · have hrest : Text.trimEnd b = [] := Text.trimEnd_append_blanks [] hnil
      have hall : Text.trimEnd (c :: b) = [] :=
        Text.trimEnd_append_blanks [] (List.forall_mem_cons.2 ⟨hc, hnil⟩)
      rw [hall]
      rwa [hrest] at ih
    · push Not at hnil
      obtain ⟨d, hd, hsolid⟩ := hnil
      obtain ⟨u, v, rfl⟩ := List.append_of_mem hd
      have hd : Text.isBlank d = false := Bool.eq_false_iff.2 hsolid
      rw [Text.trimEnd_append_cons hd] at ih
      rw [← List.cons_append, Text.trimEnd_append_cons hd]
      exact .blank hc ih
  | @token t ts b ht hnext _ ih =>
    obtain ⟨hne, hsolid⟩ := solid_of_isLexeme ht
    have htrim : Text.trimEnd (t.text ++ b) = t.text ++ Text.trimEnd b := by
      obtain ⟨front, c, hfront⟩ := (List.eq_nil_or_concat t.text).resolve_left hne
      have hc : Text.isBlank c = false := hsolid c (by simp [hfront])
      rw [hfront, List.concat_append, Text.trimEnd_append_cons hc]
      simp
    rw [htrim]
    exact .token ht (hnext.imp_right fun h => h.of_begins (Text.trimEnd_begins b)) ih

/-- **What is written down is read back**, and the lexer goes on behind it. -/
theorem tokensFrom_append (h : Written ts a) (hb : Stops b) (n : Nat) :
    ∃ xs : List Token, xs.map bare = ts.map bare
      ∧ Piece.tokensFrom n (Piece.pieces (a ++ b))
        = xs ++ Piece.tokensFrom (n + Text.newlines a) (Piece.pieces b) := by
  induction h generalizing n with
  | nil => exact ⟨[], rfl, rfl⟩
  | @blank c ts a hc _ ih =>
    obtain ⟨xs, hxs, htokens⟩ := ih (n + Text.newlines [c])
    refine ⟨xs, hxs, ?_⟩
    rw [List.cons_append, Piece.pieces_blank hc]
    show Piece.tokensFrom (n + Text.newlines [c]) _ = _
    rw [htokens, ← List.singleton_append (l := a), Text.newlines_append, Nat.add_assoc]
  | @token t ts a ht hnext _ ih =>
    obtain ⟨xs, hxs, htokens⟩ := ih (n + Text.newlines t.text)
    refine ⟨t.onLine (fun _ => n) :: xs, by simp [hxs, bare, onLine], ?_⟩
    rw [List.append_assoc, pieces_lexeme ht (hnext.imp_right fun h => h.append hb)]
    show _ :: Piece.tokensFrom (n + Text.newlines t.text) _ = _
    rw [htokens, Text.newlines_append, Nat.add_assoc]
    rfl

/-- The tokens of a text that writes tokens down are these, up to their lines. -/
theorem map_bare_tokensFrom (h : Written ts a) (n : Nat) :
    (Piece.tokensFrom n (Piece.pieces a)).map bare = ts.map bare := by
  obtain ⟨xs, hxs, htokens⟩ := h.tokensFrom_append stops_nil n
  rw [List.append_nil, Piece.pieces_nil] at htokens
  rw [htokens]
  simpa [Piece.tokensFrom] using hxs

end Written

/-! ## §3. Spellings. -/

/-- What follows a word or number without a space ends it. -/
theorem stops_of_not_spaced {t u : Token} (ht : t.kind ≠ .mark) (hu : u.isLexeme = true)
    (hspace : spaced t u = false) (b : Text) : Stops (u.text ++ b) := by
  have hmark : u.kind = .mark := by
    by_contra hkind
    simp [spaced, isWordlike, ht, hkind] at hspace
  obtain ⟨c, htext, hc⟩ := exists_mark_of_isLexeme hu hmark
  rw [htext]
  exact stops_of_isLoneMark hc b

/-- **A spelling writes its tokens down.** -/
theorem written_spell {ts : List Token} (h : ∀ t ∈ ts, t.isLexeme = true) :
    Written ts (spell ts) := by
  fun_induction spell ts with
  | case1 => exact .nil
  | case2 t =>
    rw [← List.append_nil t.text]
    exact .token (h t List.mem_cons_self) (.inr stops_nil) .nil
  | case3 t u rest ih =>
    have ht := h t List.mem_cons_self
    have hu := h u (List.mem_cons_of_mem t List.mem_cons_self)
    have ih := ih fun x hx => h x (List.mem_cons_of_mem t hx)
    rw [List.append_assoc]
    cases hspace : spaced t u with
    | true => exact .token ht (.inr (stops_of_isBlank (by decide) _)) (.blank (by decide) ih)
    | false =>
      refine .token ht ?_ ih
      by_cases hmark : t.kind = .mark
      · exact .inl hmark
      · right
        cases rest with
        | nil =>
          have hstop := stops_of_not_spaced hmark hu hspace []
          rwa [List.append_nil] at hstop
        | cons v rest =>
          show Stops (u.text ++ _ ++ spell (v :: rest))
          rw [List.append_assoc]
          exact stops_of_not_spaced hmark hu hspace _

/-- A spelling in two parts: only a blank can stand between them. -/
theorem exists_spell_append (ts us : List Token) :
    ∃ gap, (∀ c ∈ gap, Text.isBlank c = true) ∧ spell (ts ++ us) = spell ts ++ gap ++ spell us := by
  fun_induction spell ts with
  | case1 => exact ⟨[], by simp, rfl⟩
  | case2 t =>
    cases us with
    | nil => exact ⟨[], by simp, by simp [spell]⟩
    | cons u us =>
      refine ⟨if spaced t u then [' '] else [], ?_, rfl⟩
      split <;> simp [Text.isBlank]
  | case3 t u rest ih =>
    obtain ⟨gap, hgap, heq⟩ := ih
    refine ⟨gap, hgap, ?_⟩
    rw [List.cons_append, List.cons_append, spell, ← List.cons_append, heq]
    simp

/-- No space stands behind a mark other than the comma. -/
theorem spell_cons_of_mark {t : Token} (hkind : t.kind = .mark) (hcomma : t.isMark ',' = false)
    (ts : List Token) : spell (t :: ts) = t.text ++ spell ts := by
  cases ts with
  | nil => simp [spell]
  | cons u ts => simp [spell, spaced, isWordlike, hkind, hcomma]

/-- The characters of a spelling are those of its tokens, and spaces. -/
theorem mem_spell {ts : List Token} {c : Char} (h : c ∈ spell ts) :
    c = ' ' ∨ ∃ t ∈ ts, c ∈ t.text := by
  fun_induction spell ts with
  | case1 => exact absurd h List.not_mem_nil
  | case2 t => exact .inr ⟨t, List.mem_cons_self, h⟩
  | case3 t u rest ih =>
    rcases List.mem_append.1 h with h | h
    · rcases List.mem_append.1 h with h | h
      · exact .inr ⟨t, List.mem_cons_self, h⟩
      · split at h
        · exact .inl (List.mem_singleton.1 h)
        · exact absurd h List.not_mem_nil
    · rcases ih h with hspace | ⟨x, hx, hc⟩
      · exact .inl hspace
      · exact .inr ⟨x, List.mem_cons_of_mem t hx, hc⟩

/-- A spelling stands on one line. -/
theorem newlines_spell {ts : List Token} (h : ∀ t ∈ ts, t.isLexeme = true) :
    Text.newlines (spell ts) = 0 := by
  refine List.count_eq_zero.2 fun hmem => ?_
  rcases mem_spell hmem with hspace | ⟨t, ht, hc⟩
  · exact absurd hspace (by decide)
  · exact absurd ((solid_of_isLexeme (h t ht)).2 '\n' hc) (by decide)

theorem spell_of_map_bare {ts xs : List Token} (h : xs.map bare = ts.map bare) :
    spell xs = spell ts := by
  have hbare : ∀ ys : List Token, spell (ys.map bare) = spell ys := fun ys => spell_map (fun _ => 0) ys
  rw [← hbare xs, h, hbare ts]

/-- A spelling begins with its first token. -/
theorem exists_spell_cons (t : Token) (ts : List Token) : ∃ b, spell (t :: ts) = t.text ++ b := by
  cases ts with
  | nil => exact ⟨[], by simp [spell]⟩
  | cons u ts => exact ⟨(if spaced t u then [' '] else []) ++ spell (u :: ts), by simp [spell]⟩

/-- A spelling ends with its last token. -/
theorem exists_spell_concat (ts : List Token) (t : Token) : ∃ a, spell (ts ++ [t]) = a ++ t.text := by
  obtain ⟨gap, _, heq⟩ := exists_spell_append ts [t]
  exact ⟨spell ts ++ gap, heq⟩

theorem trimEnd_spell {ts : List Token} (h : ∀ t ∈ ts, t.isLexeme = true) :
    Text.trimEnd (spell ts) = spell ts := by
  refine Text.trimEnd_of_solid fun c hc => ?_
  rcases List.eq_nil_or_concat ts with rfl | ⟨front, t, rfl⟩
  · cases hc
  · obtain ⟨hne, hsolid⟩ := solid_of_isLexeme (h t (by simp))
    obtain ⟨a, ha⟩ := exists_spell_concat front t
    rw [List.concat_eq_append, ha, List.getLast?_append_of_ne_nil a hne] at hc
    exact hsolid c (List.mem_of_getLast? hc)

/-- A spelling has no blanks at its ends. -/
theorem trim_spell {ts : List Token} (h : ∀ t ∈ ts, t.isLexeme = true) :
    Text.trim (spell ts) = spell ts := by
  have hstart : Text.trimStart (spell ts) = spell ts := by
    cases ts with
    | nil => rfl
    | cons t ts =>
      obtain ⟨hne, hsolid⟩ := solid_of_isLexeme (h t List.mem_cons_self)
      obtain ⟨b, hb⟩ := exists_spell_cons t ts
      obtain ⟨c, w, hw⟩ := List.exists_cons_of_ne_nil hne
      have hc : Text.isBlank c = false := hsolid c (by simp [hw])
      rw [hb, hw]
      exact List.dropWhile_cons_of_neg (by simp [hc])
  unfold Text.trim
  rw [hstart, trimEnd_spell h]

end Token
end DocAudit
