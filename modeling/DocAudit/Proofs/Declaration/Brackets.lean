/-
  DocAudit.Proofs.Declaration.Brackets
  ────────────────────────────────────
  **BRACKETS THAT ARE CLOSED ARE PASSED OVER.**

  The scan looks for a closing bracket, for the commas outside all brackets and, from
  the end of a parameter, for its array bounds.  A run of tokens whose brackets are
  closed (`Balanced`) is passed over by the first two, at any depth:

      upToClosing d (ts ++ r)  =  ts, then upToClosing d r       (`upToClosing_append`)
      splitCommas d (ts ++ r)  =  ts in front of the first group  (`splitCommas_append`)

  and bounds (`Bounds`) are what the third takes away (`dropBounds_reverse_append`).
-/
import DocAudit.Proofs.Declaration.Spelling

namespace DocAudit

/-! ## §1. Marks. -/

namespace Token

/-- A token is one mark at most. -/
theorem isMark_of_isMark {t : Token} {a b : Char} (h : t.isMark a = true) (hne : a ≠ b) :
    t.isMark b = false := by
  unfold isMark at h ⊢
  rw [Bool.and_eq_true, beq_iff_eq, beq_iff_eq] at h
  simp [h.2, hne]

theorem isMark_of_kind {t : Token} (h : t.kind ≠ .mark) (c : Char) : t.isMark c = false := by
  simp [isMark, h]

theorem kind_of_isMark {t : Token} {c : Char} (h : t.isMark c = true) : t.kind = .mark := by
  simp [isMark] at h
  exact h.1

theorem text_of_isMark {t : Token} {c : Char} (h : t.isMark c = true) : t.text = [c] := by
  simp [isMark] at h
  exact h.2

end Token

namespace Declaration

open Token

/-- What may stand in an array bound: words, numbers and stars. -/
def isBound (t : Token) : Bool := t.kind == .word || t.kind == .number || t.isMark '*'

/-- What may stand between the brackets of a type: what may stand in a bound, and commas. -/
def isContent (t : Token) : Bool := isBound t || t.isMark ','

/-- Whether the second token closes the bracket that is the first. -/
def isPair (opening closing : Token) : Bool :=
  opening.isMark '(' && closing.isMark ')' || opening.isMark '[' && closing.isMark ']'

theorem isContent_of_isTypeToken {t : Token} (h : isTypeToken t = true) : isContent t = true := by
  simp [isTypeToken, isContent, isBound] at h ⊢
  grind

theorem isMark_of_isBound {t : Token} (h : isBound t = true) {c : Char} (hc : c ≠ '*') :
    t.isMark c = false := by
  simp only [isBound, Bool.or_eq_true, beq_iff_eq] at h
  rcases h with (h | h) | h
  · exact isMark_of_kind (by rw [h]; decide) c
  · exact isMark_of_kind (by rw [h]; decide) c
  · exact isMark_of_isMark h hc.symm

theorem isMark_of_isContent {t : Token} (h : isContent t = true) {c : Char}
    (hc : c ≠ '*' ∧ c ≠ ',') : t.isMark c = false := by
  rw [isContent, Bool.or_eq_true] at h
  rcases h with h | h
  · exact isMark_of_isBound h hc.1
  · exact isMark_of_isMark h hc.2.symm

theorem isMark_of_isTypeToken {t : Token} (h : isTypeToken t = true) {c : Char} (hc : c ≠ '*') :
    t.isMark c = false :=
  isMark_of_isBound (by simp [isTypeToken, isBound] at h ⊢; grind) hc

theorem isTypePart_of_isMark {t : Token} {c : Char} (h : t.isMark c = true)
    (hc : c ∈ typeMarks) : t.isTypePart = true := by
  unfold isTypePart
  rw [List.any_eq_true.2 ⟨c, hc, h⟩, Bool.or_true]

theorem isTypePart_of_isContent {t : Token} (h : isContent t = true) : t.isTypePart = true := by
  simp only [isContent, isBound, Bool.or_eq_true, beq_iff_eq] at h
  rcases h with ((h | h) | h) | h
  · simp [isTypePart, h]
  · simp [isTypePart, h]
  · exact isTypePart_of_isMark h (by decide)
  · exact isTypePart_of_isMark h (by decide)

/-- No part of a type ends a statement. -/
theorem endsStatement_of_isTypePart {t : Token} (h : t.isTypePart = true) :
    endsStatement t = false := by
  simp only [isTypePart, Bool.or_eq_true, beq_iff_eq, List.any_eq_true] at h
  rcases h with (h | h) | ⟨c, hc, h⟩
  · simp [endsStatement, isMark, h]
  · simp [endsStatement, isMark, h]
  · have hends : ∀ c ∈ typeMarks, c ≠ ';' ∧ c ≠ '\x7b' ∧ c ≠ '\x7d' := by decide
    obtain ⟨hsemicolon, hopen, hclose⟩ := hends c hc
    simp [endsStatement, isMark_of_isMark h hsemicolon, isMark_of_isMark h hopen,
      isMark_of_isMark h hclose]

/-! ## §2. Balanced runs. -/

/-- Tokens in which every bracket is closed by one of its kind.  Between brackets stand
words, numbers, stars, commas and further such groups; outside of them only tokens that
are `free`. -/
inductive Balanced : (Token → Bool) → List Token → Prop where
  /-- The end. -/
  | nil {free : Token → Bool} : Balanced free []
  /-- A token outside all brackets. -/
  | free {free : Token → Bool} {t : Token} {ts : List Token} :
      free t = true → Balanced free ts → Balanced free (t :: ts)
  /-- A pair of brackets and what stands between them. -/
  | group {free : Token → Bool} {opening closing : Token} {inner ts : List Token} :
      isPair opening closing = true → Balanced isContent inner → Balanced free ts →
      Balanced free (opening :: (inner ++ closing :: ts))

namespace Balanced

variable {free : Token → Bool} {ts us : List Token}

theorem append (ht : Balanced free ts) (hu : Balanced free us) : Balanced free (ts ++ us) := by
  induction ht with
  | nil => exact hu
  | free h _ ih => exact .free h (ih hu)
  | group hpair hinner _ _ ih =>
    rw [List.cons_append, List.append_assoc, List.cons_append]
    exact .group hpair hinner (ih hu)

theorem of_forall (h : ∀ t ∈ ts, free t = true) : Balanced free ts := by
  induction ts with
  | nil => exact .nil
  | cons t ts ih =>
    exact .free (h t List.mem_cons_self) (ih fun u hu => h u (List.mem_cons_of_mem t hu))

/-- Balanced runs with a free token between them. -/
theorem intercalate {t : Token} (ht : free t = true) {gs : List (List Token)}
    (hgs : ∀ g ∈ gs, Balanced free g) : Balanced free ([t].intercalate gs) := by
  induction gs with
  | nil => exact .nil
  | cons g gs ih =>
    have hg := hgs g List.mem_cons_self
    cases gs with
    | nil => simpa using hg
    | cons g' gs =>
      have hrest := ih fun x hx => hgs x (List.mem_cons_of_mem g hx)
      rw [List.intercalate_cons_cons, List.append_assoc]
      exact hg.append (.free ht hrest)

theorem mono {wider : Token → Bool} (h : Balanced free ts)
    (hle : ∀ t, free t = true → wider t = true) : Balanced wider ts := by
  induction h with
  | nil => exact .nil
  | free ht _ ih => exact .free (hle _ ht) (ih hle)
  | group hpair hinner _ _ ih => exact .group hpair hinner (ih hle)

/-- A balanced run consists of parts of types. -/
theorem isTypePart (h : Balanced free ts) (hfree : ∀ t, free t = true → t.isTypePart = true) :
    ∀ t ∈ ts, t.isTypePart = true := by
  induction h with
  | nil => simp
  | free ht _ ih => exact List.forall_mem_cons.2 ⟨hfree _ ht, ih hfree⟩
  | @group _ opening closing inner ts hpair _ _ ihinner ih =>
    have hbrackets : opening.isTypePart = true ∧ closing.isTypePart = true := by
      simp only [isPair, Bool.or_eq_true, Bool.and_eq_true] at hpair
      rcases hpair with ⟨ho, hc⟩ | ⟨ho, hc⟩ <;>
        exact ⟨isTypePart_of_isMark ho (by decide), isTypePart_of_isMark hc (by decide)⟩
    intro t ht
    simp only [List.mem_cons, List.mem_append] at ht
    rcases ht with rfl | ht | rfl | ht
    · exact hbrackets.1
    · exact ihinner (fun _ => isTypePart_of_isContent) t ht
    · exact hbrackets.2
    · exact ih hfree t ht

/-- A balanced run ends in a star only if a free token may be one. -/
theorem isMark_getLast? (h : Balanced free ts) (hfree : ∀ t, free t = true → t.isMark '*' = false) :
    ∀ t ∈ ts.getLast?, t.isMark '*' = false := by
  have hcons : ∀ {t : Token} {ts : List Token}, t.isMark '*' = false →
      (∀ u ∈ ts.getLast?, u.isMark '*' = false) → ∀ u ∈ (t :: ts).getLast?, u.isMark '*' = false := by
    intro t ts ht hts u hu
    rw [List.getLast?_cons, Option.mem_some] at hu
    cases hlast : ts.getLast? with
    | none => simpa [← hu, hlast] using ht
    | some v => exact hts u (by simp [← hu, hlast])
  induction h with
  | nil => simp
  | free ht _ ih => exact hcons (hfree _ ht) (ih hfree)
  | @group _ opening closing inner ts hpair _ _ _ ih =>
    have hclosing : closing.isMark '*' = false := by
      simp only [isPair, Bool.or_eq_true, Bool.and_eq_true] at hpair
      rcases hpair with ⟨_, hc⟩ | ⟨_, hc⟩ <;> exact isMark_of_isMark hc (by decide)
    have htail := hcons hclosing (ih hfree)
    intro t ht
    rw [← List.cons_append, List.getLast?_append_of_ne_nil _ (List.cons_ne_nil _ _)] at ht
    exact htail t ht

end Balanced

/-! ## §3. The closing bracket. -/

theorem upToClosing_open {t : Token} (h : t.isMark '(' = true) (depth : Nat) (r : List Token) :
    upToClosing depth (t :: r) = (upToClosing (depth + 1) r).map (t :: ·) := by
  rw [upToClosing.eq_def]
  dsimp only
  rw [if_pos h]

theorem upToClosing_close {t : Token} (h : t.isMark ')' = true) (depth : Nat) (r : List Token) :
    upToClosing (depth + 1) (t :: r) = (upToClosing depth r).map (t :: ·) := by
  rw [upToClosing, if_neg (by rw [isMark_of_isMark h (by decide)]; decide), if_pos h]

theorem upToClosing_other {t : Token} (hopen : t.isMark '(' = false) (hclose : t.isMark ')' = false)
    (depth : Nat) (r : List Token) :
    upToClosing depth (t :: r) = (upToClosing depth r).map (t :: ·) := by
  rw [upToClosing.eq_def]
  dsimp only
  rw [if_neg (by rw [hopen]; decide), if_neg (by rw [hclose]; decide)]

/-- **A balanced run is passed over**, whatever the depth. -/
theorem upToClosing_append {free : Token → Bool} {ts : List Token} (h : Balanced free ts)
    (hfree : ∀ t, free t = true → isContent t = true) {depth : Nat} {r found : List Token}
    (hr : upToClosing depth r = some found) : upToClosing depth (ts ++ r) = some (ts ++ found) := by
  -- along the run; a round bracket opens one level more, and its inside is passed over there
  induction h generalizing depth r found with
  | nil => exact hr
  | free ht _ ih =>
    have hcontent := hfree _ ht
    rw [List.cons_append, upToClosing_other (isMark_of_isContent hcontent (by decide))
      (isMark_of_isContent hcontent (by decide)), ih hfree hr]
    rfl
  | @group _ opening closing inner ts hpair _ _ ihinner ih =>
    have htail := ih hfree hr
    have hassoc : opening :: (inner ++ closing :: ts) ++ r
        = opening :: (inner ++ closing :: (ts ++ r)) := by simp
    rw [hassoc]
    simp only [isPair, Bool.or_eq_true, Bool.and_eq_true] at hpair
    rcases hpair with ⟨ho, hc⟩ | ⟨ho, hc⟩
    · have hclosing : upToClosing (depth + 1) (closing :: (ts ++ r)) = some (closing :: (ts ++ found)) := by
        rw [upToClosing_close hc, htail]
        rfl
      rw [upToClosing_open ho, ihinner (fun _ h => h) hclosing]
      simp
    · have hclosing : upToClosing depth (closing :: (ts ++ r)) = some (closing :: (ts ++ found)) := by
        rw [upToClosing_other (isMark_of_isMark hc (by decide)) (isMark_of_isMark hc (by decide)),
          htail]
        rfl
      rw [upToClosing_other (isMark_of_isMark ho (by decide)) (isMark_of_isMark ho (by decide)),
        ihinner (fun _ h => h) hclosing]
      simp

/-- The bracket that closes the one already open, and what stands before it. -/
theorem upToClosing_of_balanced {free : Token → Bool} {ts : List Token} (h : Balanced free ts)
    (hfree : ∀ t, free t = true → isContent t = true) {t : Token} (ht : t.isMark ')' = true)
    (r : List Token) : upToClosing 0 (ts ++ t :: r) = some ts := by
  have hclose : upToClosing 0 (t :: r) = some [] := by
    rw [upToClosing, if_neg (by rw [isMark_of_isMark ht (by decide)]; decide), if_pos ht]
  rw [upToClosing_append h hfree hclose, List.append_nil]

/-! ## §4. Commas. -/

theorem bracketDepth_of_isContent {t : Token} (h : isContent t = true) (depth : Nat) :
    bracketDepth depth t = depth := by
  simp [bracketDepth, isMark_of_isContent h]

theorem bracketDepth_of_isPair {opening closing : Token} (h : isPair opening closing = true)
    (depth : Nat) : bracketDepth depth opening = depth + 1
      ∧ bracketDepth (depth + 1) closing = depth := by
  simp only [isPair, Bool.or_eq_true, Bool.and_eq_true] at h
  rcases h with ⟨ho, hc⟩ | ⟨ho, hc⟩
  · simp [bracketDepth, ho, hc, isMark_of_isMark hc (show ')' ≠ '(' by decide),
      isMark_of_isMark hc (show ')' ≠ '[' by decide)]
  · simp [bracketDepth, ho, hc, isMark_of_isMark hc (show ']' ≠ '(' by decide),
      isMark_of_isMark hc (show ']' ≠ '[' by decide)]

theorem splitCommas_cons {depth : Nat} {t : Token} (h : depth = 0 → t.isMark ',' = false)
    {r g : List Token} {gs : List (List Token)}
    (hr : splitCommas (bracketDepth depth t) r = g :: gs) :
    splitCommas depth (t :: r) = (t :: g) :: gs := by
  rw [splitCommas, if_neg ?_, hr]
  rintro ⟨hdepth, hcomma⟩
  rw [h hdepth] at hcomma
  exact absurd hcomma (by decide)

/-- **A balanced run goes to the first group**, if it has no comma outside its brackets or
the depth is not zero. -/
theorem splitCommas_append {free : Token → Bool} {ts : List Token} (h : Balanced free ts)
    {depth : Nat}
    (hfree : ∀ t, free t = true → isContent t = true ∧ (depth = 0 → t.isMark ',' = false))
    {r g : List Token} {gs : List (List Token)} (hr : splitCommas depth r = g :: gs) :
    splitCommas depth (ts ++ r) = (ts ++ g) :: gs := by
  -- along the run; commas between brackets do not count, for the depth is not zero there
  induction h generalizing depth r g gs with
  | nil => exact hr
  | free ht _ ih =>
    refine splitCommas_cons (hfree _ ht).2 ?_
    rw [bracketDepth_of_isContent (hfree _ ht).1]
    exact ih hfree hr
  | @group _ opening closing inner ts hpair _ _ ihinner ih =>
    obtain ⟨hopen, hclose⟩ := bracketDepth_of_isPair hpair depth
    have hcommas : opening.isMark ',' = false := by
      simp only [isPair, Bool.or_eq_true, Bool.and_eq_true] at hpair
      rcases hpair with ⟨ho, _⟩ | ⟨ho, _⟩ <;> exact isMark_of_isMark ho (by decide)
    have htail := ih hfree hr
    have hclosing : splitCommas (depth + 1) (closing :: (ts ++ r)) = (closing :: (ts ++ g)) :: gs :=
      splitCommas_cons (by omega) (by rwa [hclose])
    have hinner := ihinner (fun t ht => ⟨ht, by omega⟩) hclosing
    have hall : splitCommas depth (opening :: (inner ++ closing :: (ts ++ r)))
        = (opening :: (inner ++ closing :: (ts ++ g))) :: gs :=
      splitCommas_cons (fun _ => hcommas) (by rwa [hopen])
    simpa using hall

/-- **Groups joined by commas are found again.** -/
theorem splitCommas_intercalate {comma : Token} (hcomma : comma.isMark ',' = true)
    {gs : List (List Token)} (hne : gs ≠ []) (hgs : ∀ g ∈ gs, Balanced isTypeToken g) :
    splitCommas 0 ([comma].intercalate gs) = gs := by
  have hfree : ∀ t, isTypeToken t = true → isContent t = true ∧ (0 = 0 → t.isMark ',' = false) :=
    fun t ht => ⟨isContent_of_isTypeToken ht, fun _ => isMark_of_isTypeToken ht (by decide)⟩
  induction gs with
  | nil => exact absurd rfl hne
  | cons g gs ih =>
    have hg := hgs g List.mem_cons_self
    cases gs with
    | nil =>
      have hend := splitCommas_append hg hfree (show splitCommas 0 [] = [[]] from rfl)
      simpa using hend
    | cons g' gs =>
      have hrest := ih (List.cons_ne_nil g' gs) fun x hx => hgs x (List.mem_cons_of_mem g hx)
      have hcut : splitCommas 0 (comma :: [comma].intercalate (g' :: gs)) = [] :: g' :: gs := by
        rw [splitCommas, if_pos ⟨rfl, hcomma⟩, hrest]
      have hjoin := splitCommas_append hg hfree hcut
      rw [List.append_nil] at hjoin
      rwa [List.intercalate_cons_cons, List.append_assoc]

/-! ## §5. Bounds. -/

/-- Array bounds: square brackets, one pair behind the other, with words, numbers and
stars between them. -/
inductive Bounds : List Token → Prop where
  /-- No bound. -/
  | nil : Bounds []
  /-- A bound and those behind it. -/
  | cons {opening closing : Token} {inner ts : List Token} :
      opening.isMark '[' = true → closing.isMark ']' = true → (∀ t ∈ inner, isBound t = true) →
      Bounds ts → Bounds (opening :: (inner ++ closing :: ts))

theorem Bounds.balanced {ts : List Token} (h : Bounds ts) (free : Token → Bool) :
    Balanced free ts := by
  induction h with
  | nil => exact .nil
  | cons ho hc hinner _ ih =>
    refine .group (by simp [isPair, ho, hc]) (Balanced.of_forall fun t ht => ?_) ih
    simp [isContent, hinner t ht]

/-- No round bracket stands in bounds. -/
theorem Bounds.isMark_eq_false {ts : List Token} (h : Bounds ts) :
    ∀ t ∈ ts, t.isMark '(' = false := by
  induction h with
  | nil => simp
  | @cons opening closing inner ts ho hc hinner _ ih =>
    intro t ht
    simp only [List.mem_cons, List.mem_append] at ht
    rcases ht with rfl | ht | rfl | ht
    · exact isMark_of_isMark ho (by decide)
    · exact isMark_of_isBound (hinner t ht) (by decide)
    · exact isMark_of_isMark hc (by decide)
    · exact ih t ht

theorem beforeBracket?_append {inner : List Token} (hinner : ∀ t ∈ inner, t.isMark '[' = false)
    {opening : Token} (ho : opening.isMark '[' = true) (r : List Token) :
    beforeBracket? (inner ++ opening :: r) = some r := by
  induction inner with
  | nil => rw [List.nil_append, beforeBracket?, if_pos ho]
  | cons t inner ih =>
    rw [List.cons_append, beforeBracket?, if_neg (by rw [hinner t List.mem_cons_self]; decide)]
    exact ih fun u hu => hinner u (List.mem_cons_of_mem t hu)

theorem dropBounds_of_isMark_eq_false {t : Token} (h : t.isMark ']' = false) (r : List Token) :
    dropBounds (t :: r) = t :: r := by
  rw [dropBounds, if_neg (by rw [h]; decide)]

/-- **Bounds are dropped**, whatever stands before them. -/
theorem dropBounds_reverse_append {ts : List Token} (h : Bounds ts) (r : List Token) :
    dropBounds (ts.reverse ++ r) = dropBounds r := by
  -- from the end: the bounds behind this one go first
  induction h generalizing r with
  | nil => rfl
  | @cons opening closing inner ts ho hc hinner _ ih =>
    have hbound : ∀ t ∈ inner.reverse, t.isMark '[' = false := fun t ht =>
      isMark_of_isBound (hinner t (List.mem_reverse.1 ht)) (by decide)
    have hrev : (opening :: (inner ++ closing :: ts)).reverse ++ r
        = ts.reverse ++ closing :: (inner.reverse ++ opening :: r) := by simp
    rw [hrev, ih, dropBounds, if_pos hc]
    split
    · next before hbefore =>
      rw [beforeBracket?_append hbound ho] at hbefore
      cases hbefore
      rfl
    · next hnone =>
      rw [beforeBracket?_append hbound ho] at hnone
      cases hnone

end Declaration
end DocAudit
