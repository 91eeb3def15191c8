/-
  DocAudit.Proofs.Declaration.Positions
  ─────────────────────────────────────
  **WHERE THE LEXER STANDS, AND WHAT IT PASSES OVER.**

  Round by round the lexer stands at an index of the text and on a line that it has
  counted (`Lexer.rounds`).  Written down with the index at which the lexer stood, each
  token is a `Span` of the text.  Three things are to be said of a run:

      stops            the index grows with every round, from the beginning of the text to
                       its end, and the line is always that of the index
      spans            the tokens are stretches of the text, one behind another
      Aside            what lies between them, blanks apart, is a comment or a directive

  An `Aside` says of a stretch and of what follows it that the stretch is a whole
  comment or a whole directive, in the words of the language and not of the lexer:
  no splitter occurs in it.
-/
import Mathlib.Data.List.Chain
import DocAudit.Proofs.Declaration.Lexer

namespace DocAudit

/-! ## §1. Comments and directives. -/

/-- At the end of a text or of a line. -/
def AtLineEnd (rest : Text) : Prop := rest = [] ∨ ∃ later, rest = '\n' :: later

/-- The stretches of a text that are passed over, with what follows them there. -/
inductive Aside : Text → Text → Prop
  /-- A comment that ends at the end of its line. -/
  | line {body rest : Text} (one : '\n' ∉ body) (ended : AtLineEnd rest) :
    Aside ('/' :: '/' :: body) rest
  /-- A comment that ends behind its first `*/`, or at the end of the text. -/
  | block {body rest : Text} (first : ∀ u v, body = u ++ '*' :: '/' :: v → v = [])
    (ended : rest = [] ∨ ['*', '/'] <:+ body) : Aside ('/' :: '*' :: body) rest
  /-- A directive, which ends at the first line feed that has no backslash before it. -/
  | directive {body rest : Text}
    (continued : List.IsChain (fun c d => d = '\n' → c = '\\') ('#' :: body))
    (ended : rest = [] ∨ (∃ later, rest = '\n' :: later) ∧ ('#' :: body).getLast? ≠ some '\\') :
    Aside ('#' :: body) rest

namespace Piece

theorem atLineEnd_dropWhile (t : Text) : AtLineEnd (t.dropWhile (· != '\n')) := by
  cases hd : t.dropWhile (· != '\n') with
  | nil => exact .inl rfl
  | cons c later =>
    have hc := List.head?_dropWhile_not (· != '\n') t
    rw [hd] at hc
    have hfeed : c = '\n' := by simpa using hc
    exact .inr ⟨later, by rw [hfeed]⟩

/-- A directive goes on over the line feeds behind a backslash, whatever character
`x` the lexer has just passed, and over no other. -/
theorem splitDirective_continued (x : Char) (t : Text) :
    List.IsChain (fun c d => d = '\n' → c = '\\') (x :: (splitDirective t).1) := by
  fun_induction splitDirective t generalizing x with
  | case1 => exact List.isChain_singleton x
  | case2 rest taken left heq ih =>
    rw [heq] at ih
    refine List.isChain_cons_cons.2 ⟨fun h => absurd h (by decide), ?_⟩
    exact List.isChain_cons_cons.2 ⟨fun _ => rfl, ih '\n'⟩
  | case3 rest hne => exact List.isChain_singleton x
  | case4 c rest hne hc taken left heq ih =>
    rw [heq] at ih
    exact List.isChain_cons_cons.2 ⟨fun h => absurd h hc, ih c⟩

/-- A directive ends at a line feed that is not behind a backslash.  The character
`x` before it must not be a backslash that protects the first one. -/
theorem splitDirective_ended {x : Char} {t : Text} (hx : ∀ later, x = '\\' → t ≠ '\n' :: later) :
    (splitDirective t).2 = [] ∨ (∃ later, (splitDirective t).2 = '\n' :: later)
      ∧ (x :: (splitDirective t).1).getLast? ≠ some '\\' := by
  fun_induction splitDirective t generalizing x with
  | case1 => exact .inl rfl
  | case2 rest taken left heq ih =>
    rw [heq] at ih
    rw [List.getLast?_cons_cons, List.getLast?_cons_cons]
    exact ih fun _ h => absurd h (by decide)
  | case3 rest hne =>
    refine .inr ⟨⟨rest, rfl⟩, ?_⟩
    rw [List.getLast?_singleton]
    exact fun h => hx rest (Option.some.inj h) rfl
  | case4 c rest hne hc taken left heq ih =>
    rw [heq] at ih
    rw [List.getLast?_cons_cons]
    exact ih hne

/-- A block comment has no `*/` but the one at its end. -/
theorem splitBlock_first (t : Text) {u v : Text} (h : (splitBlock t).1 = u ++ '*' :: '/' :: v) :
    v = [] := by
  fun_induction splitBlock t generalizing u with
  | case1 => exact absurd h (by simp)
  | case2 rest =>
    have hlen := congrArg List.length h
    simp only [List.length_append, List.length_cons, List.length_nil] at hlen
    exact List.length_eq_zero_iff.1 (by omega)
  | case3 c rest hne taken left heq ih =>
    rw [heq] at ih
    cases u with
    | cons d u => exact ih (List.cons.inj h).2
    | nil =>
      -- the comment would have been closed right there
      obtain ⟨hc, htaken⟩ := List.cons.inj h
      have hrest : rest = '/' :: (v ++ left) := by
        rw [← splitBlock_append rest, heq, htaken, List.cons_append]
      exact absurd hrest (hne _ hc)

/-- A block comment is closed, or it goes on to the end of the text. -/
theorem splitBlock_ended (t : Text) : (splitBlock t).2 = [] ∨ ['*', '/'] <:+ (splitBlock t).1 := by
  fun_induction splitBlock t with
  | case1 => exact .inl rfl
  | case2 rest => exact .inr (List.suffix_refl _)
  | case3 c rest hne taken left heq ih =>
    rw [heq] at ih
    exact ih.imp_right fun h => h.trans (List.suffix_cons c taken)

/-- **What a step passes over** is a blank, a comment or a directive. -/
theorem aside_of_first {c : Char} {rest g : Text} (h : (first c rest).1 = gap g) :
    (Text.isBlank c = true ∧ g = [c]) ∨ Aside g (first c rest).2 := by
  -- by the character that the piece begins with, in the order the lexer asks
  unfold first at h ⊢
  split at h
  · next hblank =>
    cases h
    exact .inl ⟨hblank, rfl⟩
  next hblank =>
  rw [if_neg hblank]
  split at h
  · next hhash =>
    subst hhash
    cases h
    refine .inr (.directive (splitDirective_continued '#' rest) ?_)
    exact splitDirective_ended fun _ h => absurd h (by decide)
  next hhash =>
  rw [if_neg hhash]
  split at h
  · next hslash =>
    subst hslash
    rw [if_pos rfl]
    split at h
    · next r =>
      cases h
      refine .inr (.line (fun hin => ?_) (atLineEnd_dropWhile r))
      exact absurd (List.mem_takeWhile_imp hin) (by decide)
    · next r =>
      cases h
      exact .inr (.block (fun _ _ => splitBlock_first r) (splitBlock_ended r))
    · cases h
  -- every other piece is a token
  split at h
  · cases h
  split at h
  · cases h
  split at h
  · cases h
  split at h
  · split at h <;> cases h
  · cases h

theorem text_ne_nil_of_mem {t : Text} {p : Piece} (h : p ∈ pieces t) : p.text ≠ [] := by
  obtain ⟨c, rest, rfl⟩ := exists_first_of_mem h
  exact text_first_ne_nil c rest

end Piece

/-! ## §2. Where the tokens stand. -/

/-- A token and the position it begins at. -/
structure Span where
  /-- The position of its first character. -/
  start : Nat
  /-- The token. -/
  token : Token
  deriving DecidableEq, Repr

namespace Span

/-- The position behind its last character. -/
def stop (s : Span) : Nat := s.start + s.token.text.length

/-- The token is the stretch of the text from `start` up to `stop`, and its line is
the line of that position. -/
structure StandsIn (s : Span) (t : Text) : Prop where
  /-- There is something to it. -/
  nonempty : s.start < s.stop
  /-- It does not reach beyond the text. -/
  inside : s.stop ≤ t.length
  /-- It is what the text has there. -/
  slice : (t.drop s.start).take (s.stop - s.start) = s.token.text
  /-- It counts the line feeds before it. -/
  line : s.token.line = 1 + Text.newlines (t.take s.start)

/-- The position is one of the token's. -/
def Covers (s : Span) (i : Nat) : Prop := s.start ≤ i ∧ i < s.stop

theorem standsIn_of_append {s : Span} {before after : Text} (hs : s.token.text ≠ [])
    (hstart : s.start = before.length) (hline : s.token.line = 1 + Text.newlines before) :
    s.StandsIn (before ++ s.token.text ++ after) where
  nonempty := Nat.lt_add_of_pos_right (List.length_pos_iff.2 hs)
  inside := by
    rw [stop, hstart, List.length_append, List.length_append]
    exact Nat.le_add_right _ _
  slice := by
    rw [stop, Nat.add_sub_cancel_left, hstart, List.append_assoc, List.drop_left, List.take_left]
  line := by rw [hline, hstart, List.append_assoc, List.take_left]

end Span

namespace Piece

/-- The tokens among consecutive pieces that stand behind the text `before`. -/
def spansAfter (before : Text) : List Piece → List Span
  | [] => []
  | token kind w :: ps =>
    ⟨before.length, ⟨kind, w, 1 + Text.newlines before⟩⟩ :: spansAfter (before ++ w) ps
  | gap w :: ps => spansAfter (before ++ w) ps

theorem length_le_start {before : Text} {ps : List Piece} {s : Span}
    (h : s ∈ spansAfter before ps) : before.length ≤ s.start := by
  have hnext : ∀ b w : Text, b.length ≤ (b ++ w).length := by simp
  induction ps generalizing before with
  | nil => exact absurd h List.not_mem_nil
  | cons p ps ih =>
    cases p with
    | token kind w =>
      rcases List.mem_cons.1 h with rfl | h
      · exact Nat.le_refl _
      · exact Nat.le_trans (hnext before w) (ih h)
    | gap w => exact Nat.le_trans (hnext before w) (ih h)

/-- A token begins behind the end of the one before. -/
theorem pairwise_spansAfter (before : Text) (ps : List Piece) :
    (spansAfter before ps).Pairwise fun s u => s.stop ≤ u.start := by
  induction ps generalizing before with
  | nil => exact List.Pairwise.nil
  | cons p ps ih =>
    cases p with
    | token kind w =>
      refine List.Pairwise.cons (fun u hu => ?_) (ih _)
      have hstart := length_le_start hu
      rwa [List.length_append] at hstart
    | gap w => exact ih _

/-- Tokens of pieces that stand behind `before` stand in the whole text. -/
theorem standsIn_of_mem {ps : List Piece} (hps : ∀ p ∈ ps, p.text ≠ []) {before : Text} {s : Span}
    (h : s ∈ spansAfter before ps) : s.StandsIn (before ++ ps.flatMap text) := by
  -- what stands before the pieces grows by each piece that is passed
  induction ps generalizing before with
  | nil => exact absurd h List.not_mem_nil
  | cons p ps ih =>
    have hrest : ∀ q ∈ ps, q.text ≠ [] := fun q hq => hps q (List.mem_cons_of_mem p hq)
    rw [List.flatMap_cons, ← List.append_assoc]
    cases p with
    | token kind w =>
      rcases List.mem_cons.1 h with rfl | h
      · exact Span.standsIn_of_append (hps (token kind w) List.mem_cons_self) rfl rfl
      · exact ih hrest h
    | gap w => exact ih hrest h

/-! ## §3. What stands between the tokens. -/

/-- The stretch of `t` from `a` up to `b` is passed over as a whole: it is a comment
or a directive, and no token of `spans` reaches into it. -/
structure PassedOver (spans : List Span) (t : Text) (a b : Nat) : Prop where
  /-- It is a comment or a directive. -/
  aside : Aside ((t.drop a).take (b - a)) (t.drop b)
  /-- Each token ends before it or begins behind it. -/
  apart : ∀ s ∈ spans, s.stop ≤ a ∨ b ≤ s.start

/-- The position belongs to a token, to a blank, or to what is passed over. -/
def Accounted (spans : List Span) (t : Text) (i : Nat) : Prop :=
  (∃ s ∈ spans, s.Covers i) ∨ (∃ c, t[i]? = some c ∧ Text.isBlank c = true)
    ∨ ∃ a b, a ≤ i ∧ i < b ∧ PassedOver spans t a b

theorem accounted_of_gap {earlier later : List Span} {before g left : Text}
    (hearlier : ∀ s ∈ earlier, s.stop ≤ before.length)
    (hlater : ∀ s ∈ later, (before ++ g).length ≤ s.start)
    (hg : (∃ c, Text.isBlank c = true ∧ g = [c]) ∨ Aside g left) {i : Nat}
    (hi : before.length ≤ i) (hin : i < (before ++ g).length) :
    Accounted (earlier ++ later) (before ++ g ++ left) i := by
  rw [List.length_append] at hin
  rcases hg with ⟨c, hblank, rfl⟩ | haside
  · have hat : i = before.length := by
      rw [List.length_singleton] at hin
      omega
    refine .inr (.inl ⟨c, ?_, hblank⟩)
    rw [hat, List.append_assoc, List.getElem?_append_right (Nat.le_refl _), Nat.sub_self]
    rfl
  · refine .inr (.inr ⟨before.length, (before ++ g).length, hi, ?_, ?_, fun s hs => ?_⟩)
    · rwa [List.length_append]
    · rwa [List.drop_left, List.append_assoc, List.drop_left, List.length_append,
        Nat.add_sub_cancel_left, List.take_left]
    · exact (List.mem_append.1 hs).imp (hearlier s) (hlater s)

/-- **Nothing is left out**: each position behind `before` is accounted for. -/
theorem accounted {earlier : List Span} {before : Text} (rest : Text)
    (hearlier : ∀ s ∈ earlier, s.stop ≤ before.length) {i : Nat} (hi : before.length ≤ i)
    (hlt : i < (before ++ rest).length) :
    Accounted (earlier ++ spansAfter before (pieces rest)) (before ++ rest) i := by
  -- the tokens already read end before the piece that is read next
  induction rest using pieces.induct generalizing before earlier with
  | case1 =>
    rw [List.append_nil] at hlt
    omega
  | case2 c rest ih =>
    have htext : before ++ c :: rest = before ++ (first c rest).1.text ++ (first c rest).2 := by
      rw [List.append_assoc, first_append]
    rw [htext] at hlt ⊢
    rw [pieces_cons]
    by_cases hin : i < (before ++ (first c rest).1.text).length
    · cases hp : (first c rest).1 with
      | token kind w =>
        rw [hp, text, List.length_append] at hin
        exact .inl ⟨_, List.mem_append_right _ List.mem_cons_self, hi, hin⟩
      | gap g =>
        rw [hp] at hin
        refine accounted_of_gap hearlier (fun s hs => length_le_start hs) ?_ hi hin
        exact (aside_of_first hp).imp_left fun h => ⟨c, h⟩
    · have hmoved := Nat.not_lt.1 hin
      have hbefore : before.length ≤ (before ++ (first c rest).1.text).length := by simp
      cases hp : (first c rest).1 with
      | token kind w =>
        rw [hp] at hmoved hlt hbefore
        have hnew : ∀ s ∈ earlier ++ [⟨before.length, ⟨kind, w, 1 + Text.newlines before⟩⟩],
            s.stop ≤ (before ++ w).length := by
          intro s hs
          rcases List.mem_append.1 hs with hs | hs
          · exact Nat.le_trans (hearlier s hs) hbefore
          · rw [List.mem_singleton.1 hs]
            exact Nat.le_of_eq List.length_append.symm
        have hrest := ih hnew hmoved hlt
        rwa [List.append_assoc] at hrest
      | gap g =>
        rw [hp] at hmoved hlt hbefore
        exact ih (fun s hs => Nat.le_trans (hearlier s hs) hbefore) hmoved hlt

end Piece

/-! ## §4. The run. -/

namespace Lexer

open Piece

/-- The tokens of a text, each with the index at which the lexer stood. -/
def spans (t : Text) : List Span :=
  (rounds t).filterMap fun r => r.token.map (Span.mk r.start.pos)

theorem map_token_spans (t : Text) : (spans t).map Span.token = tokenize t := by
  unfold spans tokenize
  rw [List.map_filterMap]
  refine List.filterMap_congr fun r _ => ?_
  rw [Option.map_map]
  exact Option.map_id'

theorem filterMap_span_takings (before : Text) (ps : List Piece) :
    (takings before.length (1 + Text.newlines before) ps).filterMap
        (fun r => r.token.map (Span.mk r.start.pos)) = spansAfter before ps := by
  have hnext : ∀ b w : Text, takings (b.length + w.length) (1 + Text.newlines b + Text.newlines w)
      = takings (b ++ w).length (1 + Text.newlines (b ++ w)) := by
    intro b w
    rw [List.length_append, Text.newlines_append, Nat.add_assoc]
  induction ps generalizing before with
  | nil => rfl
  | cons p ps ih =>
    cases p with
    | token kind w =>
      rw [takings, List.filterMap_cons, text, hnext, ih]
      rfl
    | gap w =>
      rw [takings, List.filterMap_cons, text, hnext, ih]
      rfl

/-- The spans are those of the pieces. -/
theorem spans_eq (t : Text) : spans t = spansAfter [] (pieces t) := by
  unfold spans rounds
  rw [roundsFrom_eq, List.drop_zero]
  exact filterMap_span_takings [] (pieces t)

theorem map_pos_stops (t : Text) :
    (stops t).map Cursor.pos = 0 :: (roundsFrom t 0 1).map (·.stop.pos) := by
  unfold stops rounds
  rw [List.map_cons, List.map_map]
  rfl

/-- The lexer stands on exact lines only. -/
theorem exact_of_mem_stops {t : Text} {c : Cursor} (h : c ∈ stops t) : c.Exact t := by
  have hstart : Cursor.Exact t ⟨0, 1⟩ := by rfl
  rcases List.mem_cons.1 h with rfl | h
  · exact hstart
  · obtain ⟨r, hr, rfl⟩ := List.mem_map.1 h
    exact exact_of_mem hstart hr

/-- **The lexer keeps exact positions.**  It reads the tokens of the text.  Its index grows
with every round, from the beginning of the text to its end and not beyond, and the line it
has counted is always that of the index.  Its tokens are stretches of the text on the lines
that they say, one behind another, and each position that none of them covers holds a blank
or belongs to a comment or directive that lies between them. -/
theorem tokens_keep_positions (t : Text) :
    tokenize t = Token.ofText t
      ∧ (((stops t).map Cursor.pos).Pairwise (· < ·) ∧ (stops t).head? = some ⟨0, 1⟩
          ∧ ((stops t).map Cursor.pos).getLast? = some t.length)
      ∧ (∀ c ∈ stops t, c.line = 1 + Text.newlines (t.take c.pos))
      ∧ (spans t).map Span.token = tokenize t
      ∧ (∀ s ∈ spans t, s.StandsIn t)
      ∧ (spans t).Pairwise (fun s u => s.stop ≤ u.start)
      ∧ ∀ i < t.length, (∀ s ∈ spans t, ¬s.Covers i) →
          (∃ c, t[i]? = some c ∧ Text.isBlank c = true)
            ∨ ∃ a b, a ≤ i ∧ i < b ∧ PassedOver (spans t) t a b := by
  have hpieces : ∀ p ∈ pieces t, p.text ≠ [] := fun p hp => text_ne_nil_of_mem hp
  refine ⟨tokenize_eq t, ⟨?_, rfl, ?_⟩, fun c hc => exact_of_mem_stops hc, map_token_spans t,
    fun s hs => ?_, ?_, fun i hi hnone => ?_⟩
  · rw [map_pos_stops]
    exact pairwise_pos t 0 1
  · rw [map_pos_stops]
    exact getLast?_pos (Nat.zero_le _) 1
  · rw [spans_eq] at hs
    have hstands := standsIn_of_mem hpieces hs
    rwa [pieces_text] at hstands
  · rw [spans_eq]
    exact pairwise_spansAfter [] _
  · have hall : Accounted (spans t) t i := by
      rw [spans_eq]
      exact @accounted [] [] t (by simp) i (Nat.zero_le i) hi
    rcases hall with ⟨s, hs, hcovers⟩ | h
    · exact absurd hcovers (hnone s hs)
    · exact h

/-- A directive that goes on over a line, a comment with a line feed, and a literal that is
still open, behind a backslash, at the end of the text. -/
theorem tokens_keep_positions_unclosed :
    let t := "#d \\\n x\n/*\n*/'a\\".toList
    stops t = [⟨0, 1⟩, ⟨7, 2⟩, ⟨8, 3⟩, ⟨13, 4⟩, ⟨16, 4⟩]
      ∧ spans t = [⟨13, ⟨.literal, "'a\\".toList, 4⟩⟩]
      ∧ Token.ofText t = [⟨.literal, "'a\\".toList, 4⟩]
      ∧ ∃ a b, a ≤ 8 ∧ 8 < b ∧ PassedOver (spans t) t a b := by
  intro t
  have hspans : spans t = [⟨13, ⟨.literal, "'a\\".toList, 4⟩⟩] := by decide +kernel
  obtain ⟨hboth, -, -, htokens, -, -, hcover⟩ := tokens_keep_positions t
  refine ⟨by decide +kernel, hspans, ?_, ?_⟩
  · rw [← hboth, ← htokens, hspans]
    rfl
  have hnone : ∀ s ∈ spans t, ¬s.Covers 8 := by
    intro s hs hcovers
    rw [hspans] at hs
    cases List.mem_singleton.1 hs
    exact absurd hcovers.1 (by decide)
  -- the position is that of the slash, which is no blank
  rcases hcover 8 (by decide) hnone with ⟨c, hc, hblank⟩ | hpassed
  · cases hc
    exact absurd hblank (by decide)
  · exact hpassed

end Lexer
end DocAudit
