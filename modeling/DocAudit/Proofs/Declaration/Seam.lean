/-
  DocAudit.Proofs.Declaration.Seam
  ────────────────────────────────
  **WHERE A TEXT CAN BE CUT WITHOUT CUTTING A PIECE.**

  The lexer reads from left to right and looks ahead by two characters at most,
  so a text may be lexed in two halves wherever the first half ends between two
  pieces for good.  `Seam a` says so of `a`, whatever follows it:

      pieces (a ++ b) = pieces a ++ pieces b

  The main case is the end of a line (`seam_of_line`): the line feed must not
  be protected by a backslash, and no block comment may be open.
-/
import Mathlib.Data.List.TakeWhile
import DocAudit.Declaration.Token
import DocAudit.Proofs.Text.Lines
import DocAudit.Proofs.Text.Name

namespace DocAudit.Piece

/-! ## §1. The splitters stop where they stop, whatever follows. -/

/-- A text that is not empty and does not begin with `x` does not begin with `x`
after something is put behind it either. -/
theorem append_ne_cons {t b : Text} {x : Char} (ht : t ≠ []) (h : ∀ r, t ≠ x :: r) (r : Text) :
    t ++ b ≠ x :: r := by
  cases t with
  | nil => exact absurd rfl ht
  | cons c t =>
    intro heq
    rw [List.cons_append, List.cons.injEq] at heq
    exact h t (by rw [heq.1])

/-- The last character of a text is not touched by what stands before it. -/
theorem getLast?_ne_of_cons {c x : Char} {t : Text} (h : (c :: t).getLast? ≠ some x) :
    t.getLast? ≠ some x := by
  cases t with
  | nil => simp
  | cons d t => rwa [List.getLast?_cons_cons] at h

/-- The line feed at which a directive ends does not belong to it. -/
theorem splitDirective_feed (t : Text) : splitDirective ('\n' :: t) = ([], '\n' :: t) := by
  rw [splitDirective.eq_3 _ _ (fun _ hc _ => absurd hc (by decide)), if_pos rfl]

/-- Nor does it belong to a literal that it ends. -/
theorem splitLiteral_feed (quote : Char) (t : Text) :
    splitLiteral quote ('\n' :: t) = ([], '\n' :: t) := by
  rw [splitLiteral.eq_3 _ _ _ (fun _ _ hc _ => absurd hc (by decide)), if_pos rfl]

theorem splitDirective_append_right (t b : Text) (h : (splitDirective t).2 ≠ []) :
    splitDirective (t ++ b) = ((splitDirective t).1, (splitDirective t).2 ++ b) := by
  fun_induction splitDirective t with
  | case1 => exact absurd rfl h
  | case2 rest taken left heq ih =>
    -- a line feed behind a backslash: the directive goes on
    rw [heq] at ih
    rw [List.cons_append, List.cons_append, splitDirective, ih h]
  | case3 rest hne =>
    rw [List.cons_append, splitDirective_feed]
  | case4 c rest hne hc taken left heq ih =>
    -- something is left over, so the text goes on here and `b` completes no pair
    rw [heq] at ih
    have hrest : rest ≠ [] := by
      rintro rfl
      exact h (Prod.mk.inj heq).2.symm
    rw [List.cons_append, splitDirective.eq_3 _ _ ?_, if_neg hc, ih h]
    exact fun r hc' => append_ne_cons hrest (fun r hr => hne r hc' hr) r

theorem splitBlock_append_right (t b : Text) (h : (splitBlock t).2 ≠ []) :
    splitBlock (t ++ b) = ((splitBlock t).1, (splitBlock t).2 ++ b) := by
  fun_induction splitBlock t with
  | case1 => exact absurd rfl h
  | case2 rest => rfl
  | case3 c rest hne taken left heq ih =>
    rw [heq] at ih
    have hrest : rest ≠ [] := by
      rintro rfl
      exact h (Prod.mk.inj heq).2.symm
    rw [List.cons_append, splitBlock.eq_3 _ _ ?_, ih h]
    exact fun r hc' => append_ne_cons hrest (fun r hr => hne r hc' hr) r

theorem splitLiteral_append_right (quote : Char) (t b : Text) (h : (splitLiteral quote t).2 ≠ []) :
    splitLiteral quote (t ++ b) = ((splitLiteral quote t).1, (splitLiteral quote t).2 ++ b) := by
  fun_induction splitLiteral quote t with
  | case1 => exact absurd rfl h
  | case2 c rest taken left heq ih =>
    -- a backslash and the character it protects
    rw [heq] at ih
    rw [List.cons_append, List.cons_append, splitLiteral, ih h]
  | case3 rest hne =>
    rw [List.cons_append, splitLiteral_feed]
  | case4 rest hne hq =>
    rw [List.cons_append, splitLiteral.eq_3 _ _ _ ?_, if_neg hq, if_pos rfl]
    intro d r hc' heq'
    cases rest with
    | nil => exact h rfl
    | cons e rest => exact hne e rest hc' rfl
  | case5 c rest hne hc hq taken left heq ih =>
    rw [heq] at ih
    have hrest : rest ≠ [] := by
      rintro rfl
      exact h (Prod.mk.inj heq).2.symm
    rw [List.cons_append, splitLiteral.eq_3 _ _ _ ?_, if_neg hc, if_neg hq, ih h]
    intro d r hc' heq'
    cases rest with
    | nil => exact hrest rfl
    | cons e rest => exact hne e rest hc' rfl

theorem takeWhile_append_right {p : Char → Bool} {t : Text} (b : Text) (h : t.dropWhile p ≠ []) :
    (t ++ b).takeWhile p = t.takeWhile p ∧ (t ++ b).dropWhile p = t.dropWhile p ++ b := by
  induction t with
  | nil => exact absurd rfl h
  | cons c t ih =>
    rw [List.dropWhile_cons] at h
    by_cases hc : p c = true
    · rw [if_pos hc] at h
      obtain ⟨htake, hdrop⟩ := ih h
      simp [hc, htake, hdrop]
    · simp [hc]

/-- What the first piece leaves over does not change it: put more behind, and only
the rest grows.  The one exception is `..`, which may still become an ellipsis. -/
theorem first_append_right {c : Char} {rest : Text} (b : Text) (h : (first c rest).2 ≠ [])
    (hdot : rest ≠ ['.']) :
    first c (rest ++ b) = ((first c rest).1, (first c rest).2 ++ b) := by
  -- by the character that the piece begins with, in the order the lexer asks
  unfold first at h ⊢
  by_cases hblank : Text.isBlank c = true
  · simp only [hblank, if_true]
  simp only [hblank, Bool.false_eq_true, if_false] at h ⊢
  by_cases hhash : c = '#'
  · simp only [hhash, if_true] at h ⊢
    rw [splitDirective_append_right rest b h]
  simp only [hhash, if_false] at h ⊢
  by_cases hslash : c = '/'
  · simp only [hslash, if_true] at h ⊢
    split at h
    · next r =>
      obtain ⟨htake, hdrop⟩ := takeWhile_append_right b h
      simp only [List.cons_append, htake, hdrop]
    · next r =>
      simp only [List.cons_append]
      rw [splitBlock_append_right r b h]
    · next hline hblock =>
      split
      · exact absurd ‹_› (append_ne_cons h hline _)
      · exact absurd ‹_› (append_ne_cons h hblock _)
      · rfl
  simp only [hslash, if_false] at h ⊢
  by_cases hquote : c = '"' ∨ c = '\''
  · simp only [hquote, if_true] at h ⊢
    rw [splitLiteral_append_right c rest b h]
  simp only [hquote, if_false] at h ⊢
  by_cases hname : Text.isNameStart c = true
  · simp only [hname, if_true] at h ⊢
    obtain ⟨htake, hdrop⟩ := takeWhile_append_right b h
    rw [htake, hdrop]
  simp only [hname, Bool.false_eq_true, if_false] at h ⊢
  by_cases hdigit : c.isDigit = true
  · simp only [hdigit, if_true] at h ⊢
    obtain ⟨htake, hdrop⟩ := takeWhile_append_right b h
    rw [htake, hdrop]
  simp only [hdigit, Bool.false_eq_true, if_false] at h ⊢
  by_cases hpoint : c = '.'
  · simp only [hpoint, if_true] at h ⊢
    split at h
    · rfl
    · next hellipsis =>
      split
      · next r heq =>
        -- two points can only come about across the seam if `rest` is the first of them
        match rest, h, hdot, hellipsis with
        | [x], _, hdot, _ =>
          rw [List.cons_append, List.cons.injEq] at heq
          exact absurd (by rw [heq.1]) hdot
        | x :: y :: r', _, _, hellipsis =>
          simp only [List.cons_append, List.cons.injEq] at heq
          exact absurd (by rw [heq.1, heq.2.1]) (hellipsis r')
      · rfl
  · simp only [hpoint, if_false]

/-! ## §2. Pieces that take everything. -/

/-- Whether a piece is a block comment that is cut short by the end of the text. -/
def isOpenBlock : Piece → Bool
  | gap ('/' :: '*' :: r) => !Text.occursIn ['*', '/'] r
  | _ => false

/-- Whether a text ends inside a block comment. -/
def endsInBlock (t : Text) : Bool := (pieces t).getLast?.any isOpenBlock

theorem splitDirective_line_ne_nil (u : Text) (hu : u.getLast? ≠ some '\\') :
    (splitDirective (u ++ ['\n'])).2 ≠ [] := by
  fun_induction splitDirective u with
  | case1 => simp [splitDirective]
  | case2 rest taken left heq ih =>
    rw [List.cons_append, List.cons_append, splitDirective]
    exact ih (getLast?_ne_of_cons (getLast?_ne_of_cons hu))
  | case3 rest hne =>
    rw [List.cons_append, splitDirective_feed]
    exact List.cons_ne_nil _ _
  | case4 c rest hne hc taken left heq ih =>
    rw [List.cons_append, splitDirective.eq_3 _ _ ?_, if_neg hc]
    · exact ih (getLast?_ne_of_cons hu)
    · intro r hc' heq'
      cases rest with
      | nil => simp [hc'] at hu
      | cons d rest =>
        rw [List.cons_append, List.cons.injEq] at heq'
        exact hne rest hc' (by rw [heq'.1])

theorem splitLiteral_line_ne_nil (quote : Char) (u : Text) (hu : u.getLast? ≠ some '\\') :
    (splitLiteral quote (u ++ ['\n'])).2 ≠ [] := by
  fun_induction splitLiteral quote u with
  | case1 =>
    rw [List.nil_append, splitLiteral_feed]
    exact List.cons_ne_nil _ _
  | case2 c rest taken left heq ih =>
    rw [List.cons_append, List.cons_append, splitLiteral]
    exact ih (getLast?_ne_of_cons (getLast?_ne_of_cons hu))
  | case3 rest hne =>
    rw [List.cons_append, splitLiteral_feed]
    exact List.cons_ne_nil _ _
  | case4 rest hne hq =>
    rw [List.cons_append, splitLiteral.eq_3 _ _ _ ?_, if_neg hq, if_pos rfl]
    · exact List.append_ne_nil_of_right_ne_nil rest (List.cons_ne_nil _ _)
    · intro d r hc' heq'
      cases rest with
      | nil => simp [hc'] at hu
      | cons e rest => exact hne e rest hc' rfl
  | case5 c rest hne hc hq taken left heq ih =>
    rw [List.cons_append, splitLiteral.eq_3 _ _ _ ?_, if_neg hc, if_neg hq]
    · exact ih (getLast?_ne_of_cons hu)
    · intro d r hc' heq'
      cases rest with
      | nil => simp [hc'] at hu
      | cons e rest => exact hne e rest hc' rfl

/-- A block comment that leaves nothing over ends in its closing, or is not closed. -/
theorem of_splitBlock_eq_nil {t : Text} (h : (splitBlock t).2 = []) :
    t.getLast? = some '/' ∨ Text.occursIn ['*', '/'] t = false := by
  fun_induction splitBlock t with
  | case1 => exact .inr rfl
  | case2 rest =>
    have hrest : rest = [] := h
    subst hrest
    exact .inl rfl
  | case3 c rest hne taken left heq ih =>
    rw [heq] at ih
    have hno : List.isPrefixOf ['*', '/'] (c :: rest) = false := by
      rw [Bool.eq_false_iff]
      intro hp
      obtain ⟨r, hr⟩ := List.isPrefixOf_iff_prefix.1 hp
      rw [List.cons_append, List.cons.injEq] at hr
      exact hne r hr.1.symm hr.2.symm
    cases ih h with
    | inl hlast =>
      left
      cases rest with
      | nil => exact absurd hlast (by simp)
      | cons d r => rwa [List.getLast?_cons_cons]
    | inr hocc =>
      right
      simp only [Text.occursIn, hno, hocc, Bool.or_self]

/-- The first piece of a text that ends a line leaves something over, except when
the text is that one line feed, or a comment that is never closed. -/
theorem of_first_eq_nil {c : Char} {rest v : Text} (hv : c :: rest = v ++ ['\n'])
    (hb : v.getLast? ≠ some '\\') (h : (first c rest).2 = []) :
    v = [] ∨ isOpenBlock (first c rest).1 = true := by
  cases v with
  | nil => exact .inl rfl
  | cons d v =>
    right
    rw [List.cons_append, List.cons.injEq] at hv
    obtain ⟨rfl, rfl⟩ := hv
    have hb' : v.getLast? ≠ some '\\' := getLast?_ne_of_cons hb
    have hne : v ++ ['\n'] ≠ [] := List.append_ne_nil_of_right_ne_nil v (List.cons_ne_nil _ _)
    have hlast : (v ++ ['\n']).getLast? = some '\n' := List.getLast?_concat
    -- a run of characters stops at the line feed, if not before
    have hstop : ∀ (t : Text) (p : Char → Bool), '\n' ∈ t → p '\n' = false →
        t.dropWhile p ≠ [] := by
      intro t p ht hp hnil
      have hall := List.dropWhile_eq_nil_iff.1 hnil '\n' ht
      exact absurd (hp.symm.trans hall) (by decide)
    unfold first at h ⊢
    by_cases hblank : Text.isBlank c = true
    · rw [if_pos hblank] at h
      exact absurd h hne
    simp only [hblank, Bool.false_eq_true, if_false] at h ⊢
    by_cases hhash : c = '#'
    · rw [if_pos hhash] at h
      exact absurd h (splitDirective_line_ne_nil v hb')
    simp only [hhash, if_false] at h ⊢
    by_cases hslash : c = '/'
    · simp only [hslash, if_true] at h ⊢
      split at h
      · next r heq =>
        have hmem : '\n' ∈ r := by
          have hin : '\n' ∈ '/' :: r := heq ▸ List.mem_of_getLast? hlast
          simpa using hin
        exact absurd h (hstop r _ hmem (by decide))
      · next r heq =>
        -- a comment to the end of the line is closed by a slash, or it is open
        have htake : (splitBlock r).1 = r := by
          have happ := splitBlock_append r
          rwa [h, List.append_nil] at happ
        show (!Text.occursIn ['*', '/'] (splitBlock r).1) = true
        rw [htake]
        cases of_splitBlock_eq_nil h with
        | inl hslash' =>
          rw [heq] at hlast
          cases r with
          | nil => exact absurd hlast (by decide)
          | cons x r =>
            rw [List.getLast?_cons_cons, hslash'] at hlast
            exact absurd hlast (by decide)
        | inr hocc => rw [hocc]; rfl
      · exact absurd h hne
    simp only [hslash, if_false] at h ⊢
    by_cases hquote : c = '"' ∨ c = '\''
    · rw [if_pos hquote] at h
      exact absurd h (splitLiteral_line_ne_nil c v hb')
    simp only [hquote, if_false] at h ⊢
    by_cases hname : Text.isNameStart c = true
    · rw [if_pos hname] at h
      exact absurd h (hstop _ _ (List.mem_of_getLast? hlast) (by decide))
    simp only [hname, Bool.false_eq_true, if_false] at h ⊢
    by_cases hdigit : c.isDigit = true
    · rw [if_pos hdigit] at h
      exact absurd h (hstop _ _ (List.mem_of_getLast? hlast) (by decide))
    simp only [hdigit, Bool.false_eq_true, if_false] at h ⊢
    split at h
    · split at h
      · next r heq =>
        have hr : r = [] := h
        rw [heq, hr] at hlast
        exact absurd hlast (by decide)
      · exact absurd h hne
    · exact absurd h hne

/-! ## §3. Seams. -/

/-- A text after which the lexer starts afresh. -/
def Seam (a : Text) : Prop := ∀ b, pieces (a ++ b) = pieces a ++ pieces b

theorem pieces_nil : pieces [] = [] := by rw [pieces]

theorem pieces_cons (c : Char) (rest : Text) :
    pieces (c :: rest) = (first c rest).1 :: pieces (first c rest).2 := by rw [pieces]

theorem seam_nil : Seam [] := by
  intro b
  rw [pieces_nil]
  rfl

theorem pieces_blank {c : Char} (h : Text.isBlank c = true) (b : Text) :
    pieces (c :: b) = gap [c] :: pieces b := by
  rw [pieces_cons]
  unfold first
  rw [if_pos h]

/-- Blanks are gaps, one each. -/
theorem pieces_blanks {t : Text} (h : ∀ c ∈ t, Text.isBlank c = true) (b : Text) :
    pieces (t ++ b) = t.map (fun c => gap [c]) ++ pieces b := by
  induction t with
  | nil => rfl
  | cons c t ih =>
    rw [List.cons_append, pieces_blank (h c List.mem_cons_self),
      ih fun d hd => h d (List.mem_cons_of_mem _ hd)]
    rfl

theorem endsInBlock_first {c : Char} {rest : Text} (h : (first c rest).2 ≠ []) :
    endsInBlock (first c rest).2 = endsInBlock (c :: rest) := by
  unfold endsInBlock
  rw [pieces_cons c rest]
  cases hr : (first c rest).2 with
  | nil => exact absurd hr h
  | cons d r => rw [pieces_cons d r, List.getLast?_cons_cons]

/-- **The end of a line is a seam**, unless a backslash protects the line feed or a
block comment is open. -/
theorem seam_of_line (v : Text) (hb : v.getLast? ≠ some '\\')
    (ho : endsInBlock (v ++ ['\n']) = false) : Seam (v ++ ['\n']) := by
  intro b
  -- by the pieces of the text; what the first one leaves over ends the same line
  generalize ha : v ++ ['\n'] = a at ho
  induction a using pieces.induct generalizing v with
  | case1 => exact absurd ha (List.append_ne_nil_of_right_ne_nil v (List.cons_ne_nil _ _))
  | case2 c rest ih =>
    by_cases hnil : (first c rest).2 = []
    · cases of_first_eq_nil ha.symm hb hnil with
      | inl hv =>
        rw [hv, List.nil_append, List.cons.injEq] at ha
        obtain ⟨rfl, rfl⟩ := ha
        rw [List.cons_append, pieces_blank (by decide), pieces_blank (by decide), pieces_nil]
        rfl
      | inr hopen =>
        unfold endsInBlock at ho
        rw [pieces_cons, hnil, pieces_nil] at ho
        exact absurd (ho.symm.trans hopen) (by decide)
    · have hdot : rest ≠ ['.'] := by
        rintro rfl
        have hlast : (v ++ ['\n']).getLast? = some '\n' := List.getLast?_concat
        rw [ha, List.getLast?_cons_cons] at hlast
        exact absurd hlast (by decide)
      have hsplit : (first c rest).1.text ++ (first c rest).2 = v ++ ['\n'] :=
        (first_append c rest).trans ha.symm
      obtain ⟨u, hu, hv⟩ := Text.exists_of_append_eq_concat hsplit hnil
      have hub : u.getLast? ≠ some '\\' := by
        intro hlast
        rw [hv, List.getLast?_append, hlast] at hb
        exact hb rfl
      rw [List.cons_append, pieces_cons c (rest ++ b), first_append_right b hnil hdot,
        pieces_cons c rest, List.cons_append]
      rw [ih u hub hu.symm ((endsInBlock_first hnil).trans ho)]

end DocAudit.Piece
