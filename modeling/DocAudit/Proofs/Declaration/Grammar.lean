/-
  DocAudit.Proofs.Declaration.Grammar
  ───────────────────────────────────
  **THE LEXER READS WHAT THE LEXICAL GRAMMAR SAYS.**

  A text lays a run of tokens out (`Laid`) when it consists of their texts, in order,
  with blanks, comments and directives between them, and when each of them is a whole
  token there, which nothing behind it continues (`Whole`).  No function of the lexer
  occurs in this.  Every text lays out the tokens that the lexer reads in it, and no
  others, their lines left aside:

      Laid ts a   ↔   tokens of a, without lines  =  ts, without lines    (`laid_iff`)

  Two texts that lay out the same tokens differ in what stands between tokens and in
  nothing else (`Respaced`).
-/
import DocAudit.Proofs.Declaration.Positions
import DocAudit.Proofs.Declaration.Spelling

namespace DocAudit

/-! ## §1. Whole tokens. -/

namespace Piece

/-- The rest of a literal behind its opening quote, with what follows it there. -/
inductive LiteralRest (quote : Char) : Text → Text → Prop
  /-- The closing quote. -/
  | closed {rest : Text} : LiteralRest quote [quote] rest
  /-- The literal is not closed on its line. -/
  | unclosed {rest : Text} (ended : AtLineEnd rest) : LiteralRest quote [] rest
  /-- A backslash that ends the text protects nothing. -/
  | backslash : LiteralRest quote ['\\'] []
  /-- A backslash and the character that it protects, be it a quote or a line feed. -/
  | escaped {c : Char} {w rest : Text} (later : LiteralRest quote w rest) :
    LiteralRest quote ('\\' :: c :: w) rest
  /-- Any other character. -/
  | plain {c : Char} {w rest : Text} (other : c ≠ '\\' ∧ c ≠ '\n' ∧ c ≠ quote)
    (later : LiteralRest quote w rest) : LiteralRest quote (c :: w) rest

/-- The stretches of a text that are one token of a kind, with what follows them there. -/
inductive Whole : TokenKind → Text → Text → Prop
  /-- An identifier that does not go on. -/
  | word {w rest : Text} (identifier : Text.isIdentifier w = true)
    (ended : ∀ c ∈ rest.head?, Text.isNameChar c = false) : Whole .word w rest
  /-- A numeral that does not go on. -/
  | number {w rest : Text} (numeral : isNumeral w = true)
    (ended : ∀ c ∈ rest.head?, isNumberChar c = false) : Whole .number w rest
  /-- A string or a character. -/
  | literal {quote : Char} {w rest : Text} (opening : quote = '"' ∨ quote = '\'')
    (later : LiteralRest quote w rest) : Whole .literal (quote :: w) rest
  /-- Three points. -/
  | ellipsis {rest : Text} : Whole .mark ['.', '.', '.'] rest
  /-- A point that does not begin an ellipsis. -/
  | point {rest : Text} (single : ¬['.', '.'] <+: rest) : Whole .mark ['.'] rest
  /-- A slash that does not begin a comment. -/
  | slash {rest : Text} (single : ∀ c ∈ rest.head?, c ≠ '/' ∧ c ≠ '*') : Whole .mark ['/'] rest
  /-- A character that is a mark, whatever follows. -/
  | mark {c : Char} {rest : Text} (lone : Token.isLoneMark c = true) : Whole .mark [c] rest

/-! ## §2. What the grammar allows is read. -/

/-- A directive is taken as a whole.  The character `x` is the one that stands before
it; as in `splitDirective_ended` it must not protect the first line feed. -/
theorem splitDirective_append_of_chain {x : Char} {body rest : Text}
    (hchain : List.IsChain (fun c d => d = '\n' → c = '\\') (x :: body))
    (hx : ∀ later, x = '\\' → body ≠ '\n' :: later)
    (hended : rest = [] ∨ (∃ later, rest = '\n' :: later) ∧ (x :: body).getLast? ≠ some '\\') :
    splitDirective (body ++ rest) = (body, rest) := by
  induction body using splitDirective.induct generalizing x with
  | case1 =>
    rcases hended with hnil | ⟨⟨later, hfeed⟩, _⟩
    · rw [hnil]
      rfl
    · rw [hfeed]
      exact splitDirective_feed later
  | case2 body taken left heq ih =>
    -- a line feed behind a backslash: the directive goes on
    rw [List.getLast?_cons_cons, List.getLast?_cons_cons] at hended
    have hbody := ih (List.isChain_cons_cons.1 (List.isChain_cons_cons.1 hchain).2).2
      (fun _ h => absurd h (by decide)) hended
    rw [List.cons_append, List.cons_append, splitDirective, hbody]
  | case3 body hne =>
    have hprotected : x = '\\' := (List.isChain_cons_cons.1 hchain).1 rfl
    exact absurd rfl (hx body hprotected)
  | case4 c body hne hc taken left heq ih =>
    rw [List.getLast?_cons_cons] at hended
    have hbody := ih (List.isChain_cons_cons.1 hchain).2 hne hended
    have hpair : ∀ later, c = '\\' → body ++ rest ≠ '\n' :: later := by
      intro later hslash
      by_cases hnil : body = []
      · -- no line feed follows a backslash that ends the directive
        rw [hnil] at hended ⊢
        rcases hended with hrest | ⟨_, hlast⟩
        · simp [hrest]
        · exact absurd (congrArg some hslash) hlast
      · exact append_ne_cons hnil (fun r => hne r hslash) later
    rw [List.cons_append, splitDirective.eq_3 _ _ hpair, if_neg hc, hbody]

/-- A block comment is taken up to its first `*/`. -/
theorem splitBlock_append_of_first {body rest : Text}
    (hfirst : ∀ u v, body = u ++ '*' :: '/' :: v → v = [])
    (hended : rest = [] ∨ ['*', '/'] <:+ body) : splitBlock (body ++ rest) = (body, rest) := by
  induction body using splitBlock.induct with
  | case1 =>
    have hnil : rest = [] :=
      hended.resolve_right fun h => absurd (List.suffix_nil.1 h) (by decide)
    rw [hnil]
    rfl
  | case2 body =>
    have hnil : body = [] := hfirst [] body rfl
    rw [hnil]
    rfl
  | case3 c body hne taken left heq ih =>
    have hlater : rest = [] ∨ ['*', '/'] <:+ body := by
      refine hended.imp_right fun h => ?_
      rcases List.suffix_cons_iff.1 h with hall | h
      · obtain ⟨hstar, hslash⟩ := List.cons.inj hall
        exact absurd hslash.symm (hne [] hstar.symm)
      · exact h
    have hbody := ih (fun u v h => hfirst (c :: u) v (by rw [h, List.cons_append])) hlater
    have hpair : ∀ later, c = '*' → body ++ rest ≠ '/' :: later := by
      intro later hstar
      by_cases hnil : body = []
      · rw [hnil] at hlater ⊢
        rcases hlater with hrest | hsuffix
        · simp [hrest]
        · exact absurd (List.suffix_nil.1 hsuffix) (by decide)
      · exact append_ne_cons hnil (fun r => hne r hstar) later
    rw [List.cons_append, splitBlock.eq_3 _ _ hpair, hbody]

/-- **What is passed over is one gap.** -/
theorem pieces_aside {g b : Text} (h : Aside g b) : pieces (g ++ b) = gap g :: pieces b := by
  cases h with
  | @line body _ hone hended =>
    have hone' : ∀ c ∈ body, (c != '\n') = true := by
      intro c hc
      rw [bne_iff_ne]
      rintro rfl
      exact hone hc
    have hstop : ∀ c ∈ b.head?, (c != '\n') = false := by
      intro c hc
      rcases hended with rfl | ⟨later, rfl⟩
      · cases hc
      · cases hc
        rfl
    obtain ⟨htake, hdrop⟩ := Text.takeWhile_append_of_stop hone' hstop
    rw [List.cons_append, pieces_cons]
    show gap ('/' :: '/' :: (body ++ b).takeWhile (· != '\n'))
      :: pieces ((body ++ b).dropWhile (· != '\n')) = _
    rw [htake, hdrop]
  | @block body _ hfirst hended =>
    rw [List.cons_append, pieces_cons]
    show gap ('/' :: '*' :: (splitBlock (body ++ b)).1) :: pieces (splitBlock (body ++ b)).2 = _
    rw [splitBlock_append_of_first hfirst hended]
  | @directive body _ hchain hended =>
    have hsplit := splitDirective_append_of_chain hchain (fun _ h => absurd h (by decide)) hended
    rw [List.cons_append, pieces_cons]
    show gap ('#' :: (splitDirective (body ++ b)).1) :: pieces (splitDirective (body ++ b)).2 = _
    rw [hsplit]

/-- A literal is taken up to its closing quote, or to the end of its line. -/
theorem splitLiteral_append_of_rest {quote : Char} (hquote : quote ≠ '\\' ∧ quote ≠ '\n')
    {w rest : Text} (h : LiteralRest quote w rest) :
    splitLiteral quote (w ++ rest) = (w, rest) := by
  induction h with
  | closed =>
    rw [List.singleton_append, splitLiteral.eq_3 _ _ _ (fun _ _ hc _ => absurd hc hquote.1),
      if_neg hquote.2, if_pos rfl]
  | unclosed hended =>
    rcases hended with rfl | ⟨later, rfl⟩
    · rfl
    · exact splitLiteral_feed quote later
  | backslash =>
    rw [List.append_nil, splitLiteral.eq_3 _ _ _ (fun _ _ _ h => by cases h),
      if_neg (by decide), if_neg hquote.1.symm]
    rfl
  | escaped _ ih =>
    rw [List.cons_append, List.cons_append, splitLiteral, ih]
  | plain hother _ ih =>
    rw [List.cons_append, splitLiteral.eq_3 _ _ _ (fun _ _ hc _ => absurd hc hother.1),
      if_neg hother.2.1, if_neg hother.2.2, ih]

/-- **A whole token is one piece.** -/
theorem pieces_whole {kind : TokenKind} {w b : Text} (h : Whole kind w b) :
    pieces (w ++ b) = token kind w :: pieces b := by
  cases h with
  | word hword hended => exact pieces_identifier hword hended
  | number hnumeral hended => exact pieces_numeral hnumeral hended
  | @literal quote w _ hopening hlater =>
    have hquote : quote ≠ '\\' ∧ quote ≠ '\n' := by
      rcases hopening with rfl | rfl <;> decide
    rw [List.cons_append, pieces_cons, first_quote hopening,
      splitLiteral_append_of_rest hquote hlater]
  | ellipsis =>
    rw [List.cons_append, pieces_cons]
    rfl
  | point hsingle => rw [List.singleton_append, pieces_cons, first_point hsingle]
  | slash hsingle => rw [List.singleton_append, pieces_cons, first_slash hsingle]
  | mark hlone => rw [List.singleton_append, pieces_cons, first_mark hlone]

/-! ## §3. What is read is allowed. -/

theorem literalRest_splitLiteral (quote : Char) (t : Text) :
    LiteralRest quote (splitLiteral quote t).1 (splitLiteral quote t).2 := by
  fun_induction splitLiteral quote t with
  | case1 => exact .unclosed (.inl rfl)
  | case2 c rest taken left heq ih =>
    rw [heq] at ih
    exact .escaped ih
  | case3 rest hne => exact .unclosed (.inr ⟨rest, rfl⟩)
  | case4 rest hne hfeed => exact .closed
  | case5 c rest hne hfeed hquote taken left heq ih =>
    rw [heq] at ih
    by_cases hslash : c = '\\'
    · -- with a character behind it the backslash would have been taken together with it
      cases rest with
      | nil =>
        cases heq
        rw [hslash]
        exact .backslash
      | cons d rest => exact absurd rfl (hne d rest hslash)
    · exact .plain ⟨hslash, hfeed, hquote⟩ ih

theorem head?_dropWhile_eq_false {p : Char → Bool} (t : Text) :
    ∀ c ∈ (t.dropWhile p).head?, p c = false := by
  intro c hc
  have hstop := List.head?_dropWhile_not p t
  rw [Option.mem_def.1 hc] at hstop
  simpa using hstop

/-- **What is no gap is a whole token.** -/
theorem whole_of_first {c : Char} {rest w left : Text} {kind : TokenKind}
    (h : first c rest = (token kind w, left)) : Whole kind w left := by
  have htext := text_of_first (congrArg Prod.fst h)
  -- by the character that the piece begins with, in the order the lexer asks
  unfold first at h
  split at h
  · cases h
  next hblank =>
  split at h
  · cases h
  next hhash =>
  split at h
  · split at h
    · cases h
    · cases h
    · next hline hblock =>
      cases h
      refine .slash fun d hd => ?_
      obtain ⟨r, rfl⟩ := List.head?_eq_some_iff.1 hd
      constructor
      · rintro rfl
        exact hline r rfl
      · rintro rfl
        exact hblock r rfl
  next hslash =>
  split at h
  · next hquote =>
    cases h
    exact .literal hquote (literalRest_splitLiteral c rest)
  next hquote =>
  split at h
  · cases h
    exact .word (htext.1 rfl) (head?_dropWhile_eq_false rest)
  next hname =>
  split at h
  · cases h
    exact .number (htext.2 rfl) (head?_dropWhile_eq_false rest)
  next hdigit =>
  split at h
  · split at h
    · cases h
      exact .ellipsis
    · next hellipsis =>
      cases h
      refine .point fun hpoints => ?_
      obtain ⟨r, hr⟩ := hpoints
      exact hellipsis r hr.symm
  · next hpoint =>
    cases h
    refine .mark ?_
    simp only [not_or] at hquote
    simp [Token.isLoneMark, hblank, hhash, hslash, hquote, hname, hdigit, hpoint]

end Piece

/-! ## §4. Layouts. -/

namespace Token

/-- A text that lays tokens out: their texts in order, with blanks, comments and
directives between them. -/
inductive Laid : List Token → Text → Prop
  /-- The end. -/
  | nil : Laid [] []
  /-- A blank. -/
  | blank {c : Char} {ts : List Token} {b : Text} (hc : Text.isBlank c = true) (later : Laid ts b) :
    Laid ts (c :: b)
  /-- A comment or a directive. -/
  | aside {g : Text} {ts : List Token} {b : Text} (hg : Aside g b) (later : Laid ts b) :
    Laid ts (g ++ b)
  /-- A token. -/
  | token {t : Token} {ts : List Token} {b : Text} (ht : Piece.Whole t.kind t.text b)
    (later : Laid ts b) : Laid (t :: ts) (t.text ++ b)

/-- What is laid out is read, whatever line the text begins on. -/
theorem Laid.map_bare_tokensFrom {ts : List Token} {a : Text} (h : Laid ts a) (n : Nat) :
    (Piece.tokensFrom n (Piece.pieces a)).map bare = ts.map bare := by
  induction h generalizing n with
  | nil =>
    rw [Piece.pieces_nil]
    rfl
  | blank hc _ ih =>
    rw [Piece.pieces_blank hc]
    exact ih _
  | aside hg _ ih =>
    rw [Piece.pieces_aside hg]
    exact ih _
  | @token t ts b ht _ ih =>
    rw [Piece.pieces_whole ht, List.map_cons, Piece.tokensFrom, List.map_cons, ih]
    rfl

/-- What is read is laid out. -/
theorem laid_tokensFrom (n : Nat) (a : Text) : Laid (Piece.tokensFrom n (Piece.pieces a)) a := by
  induction a using Piece.pieces.induct generalizing n with
  | case1 =>
    rw [Piece.pieces_nil]
    exact .nil
  | case2 c rest ih =>
    rw [Piece.pieces_cons]
    have htext := Piece.first_append c rest
    cases hp : (Piece.first c rest).1 with
    | token kind w =>
      rw [hp] at htext
      have hwhole : Piece.Whole kind w (Piece.first c rest).2 :=
        Piece.whole_of_first (Prod.ext hp rfl)
      rw [← htext]
      exact .token (t := ⟨kind, w, n⟩) hwhole (ih _)
    | gap g =>
      rw [hp] at htext
      rw [← htext]
      rcases Piece.aside_of_first hp with ⟨hblank, rfl⟩ | haside
      · exact .blank hblank (ih _)
      · exact .aside haside (ih _)

/-- Layouts do not look at lines. -/
theorem Laid.of_map_bare {ts us : List Token} {a : Text} (h : Laid ts a)
    (heq : us.map bare = ts.map bare) : Laid us a := by
  induction h generalizing us with
  | nil =>
    rw [List.map_eq_nil_iff.1 heq]
    exact .nil
  | blank hc _ ih => exact .blank hc (ih heq)
  | aside hg _ ih => exact .aside hg (ih heq)
  | token ht _ ih =>
    obtain ⟨u, us, rfl, hu, hus⟩ := List.map_eq_cons_iff.1 heq
    obtain ⟨kind, text, line⟩ := u
    cases hu
    exact .token (t := ⟨_, _, line⟩) ht (ih hus)

/-- **The lexer reads what the lexical grammar says.** -/
theorem laid_iff {ts : List Token} {a : Text} :
    Laid ts a ↔ (ofText a).map bare = ts.map bare := by
  constructor
  · intro h
    exact h.map_bare_tokensFrom 1
  · intro h
    exact (laid_tokensFrom 1 a).of_map_bare h.symm

/-- Two texts that differ in blanks, comments and directives between tokens, and in
nothing else. -/
def Respaced (a b : Text) : Prop := ∃ ts, Laid ts a ∧ Laid ts b

theorem respaced_iff {a b : Text} :
    Respaced a b ↔ (ofText a).map bare = (ofText b).map bare := by
  constructor
  · intro h
    obtain ⟨ts, ha, hb⟩ := h
    rw [laid_iff.1 ha, laid_iff.1 hb]
  · intro h
    exact ⟨ofText a, laid_iff.2 rfl, laid_iff.2 h.symm⟩

end Token
end DocAudit
