/-
  DocAudit.Proofs.Text.Words
  ──────────────────────────
  **WORDS STAND BETWEEN BLANKS.**

  A text without blanks is one word (`words_of_solid`), and a blank ends the words
  before it (`words_append_blank`).  The first word of a text is split off where it
  ends (`splitWord_append`).

  A text is `Spaced` when its blanks are spaces that stand alone.  Such a text is known
  from its words: trimmed, it is the words joined with spaces (`trim_of_spaced`).
-/
import Mathlib.Data.List.Infix
import DocAudit.Proofs.Text.Infix

namespace DocAudit.Text

/-! ## §1. The first word. -/

/-- A word in front of a blank, or of nothing, is split off. -/
theorem splitWord_append {w r : Text} (hw : ∀ c ∈ w, isBlank c = false) (hr : BeginsBlank r) :
    splitWord (w ++ r) = if w = [] then splitWord r else (w, r) := by
  cases w with
  | nil => rfl
  | cons c w =>
    have hstart : trimStart (c :: w ++ r) = c :: w ++ r :=
      List.dropWhile_cons_of_neg (by rw [hw c List.mem_cons_self]; decide)
    have hall : ∀ d ∈ c :: w, (!isBlank d) = true := fun d hd => by rw [hw d hd]; rfl
    unfold splitWord
    rw [if_neg (List.cons_ne_nil c w), hstart]
    dsimp only
    rw [List.takeWhile_append_of_pos hall, List.dropWhile_append_of_pos hall]
    -- the word ends where `r` begins, with a blank or not at all
    cases r with
    | nil => rw [List.takeWhile_nil, List.dropWhile_nil, List.append_nil]
    | cons d r =>
      have hd : isBlank d = true := hr d rfl
      have htake : (d :: r).takeWhile (!isBlank ·) = [] :=
        List.takeWhile_cons_of_neg (by rw [hd]; decide)
      have hdrop : (d :: r).dropWhile (!isBlank ·) = d :: r :=
        List.dropWhile_cons_of_neg (by rw [hd]; decide)
      rw [htake, hdrop, List.append_nil]

/-- Blanks in front are no part of a word. -/
theorem splitWord_blanks_append {a : Text} (h : ∀ c ∈ a, isBlank c = true) (t : Text) :
    splitWord (a ++ t) = splitWord t := by
  unfold splitWord
  rw [trimStart_blanks_append h]

/-! ## §2. All words. -/

theorem words_blank {c : Char} (h : isBlank c = true) (t : Text) : words (c :: t) = words t := by
  rw [words.eq_def (c :: t)]
  exact if_pos h

theorem words_singleton {c : Char} (h : isBlank c = false) : words [c] = [[c]] := by
  unfold words
  exact if_neg (by rw [h]; decide)

/-- A blank ends the word of the character before it. -/
theorem words_solid_blank {c d : Char} (hc : isBlank c = false) (hd : isBlank d = true)
    (t : Text) : words (c :: d :: t) = [c] :: words (d :: t) := by
  rw [words.eq_def (c :: d :: t)]
  exact (if_neg (by rw [hc]; decide)).trans (if_pos hd)

/-- Two characters next to each other belong to one word. -/
theorem words_solid_solid {c d : Char} (hc : isBlank c = false) (hd : isBlank d = false)
    {t first : Text} {others : List Text} (h : words (d :: t) = first :: others) :
    words (c :: d :: t) = (c :: first) :: others := by
  rw [words.eq_def (c :: d :: t)]
  dsimp only
  rw [if_neg (by rw [hc]; decide), if_neg (by rw [hd]; decide), h]

theorem words_ne_nil {c : Char} (h : isBlank c = false) (t : Text) : words (c :: t) ≠ [] := by
  unfold words
  rw [if_neg (by rw [h]; decide)]
  cases t with
  | nil => exact List.cons_ne_nil _ _
  | cons d t =>
    dsimp only
    split
    · exact List.cons_ne_nil _ _
    · split <;> exact List.cons_ne_nil _ _

theorem words_of_solid {t : Text} (hne : t ≠ []) (h : ∀ c ∈ t, isBlank c = false) :
    words t = [t] := by
  induction t with
  | nil => exact absurd rfl hne
  | cons c t ih =>
    have hc := h c List.mem_cons_self
    cases t with
    | nil => exact words_singleton hc
    | cons d t =>
      have hd := h d (List.mem_cons_of_mem c List.mem_cons_self)
      exact words_solid_solid hc hd
        (ih (List.cons_ne_nil d t) fun e he => h e (List.mem_cons_of_mem c he))

/-- **A blank ends the words before it.** -/
theorem words_append_blank {x : Char} (hx : isBlank x = true) (a b : Text) :
    words (a ++ x :: b) = words a ++ words b := by
  induction a with
  | nil => exact words_blank hx b
  | cons c a ih =>
    by_cases hc : isBlank c = true
    · rw [List.cons_append, words_blank hc, words_blank hc, ih]
    · rw [Bool.not_eq_true] at hc
      -- `c` is a word of its own, or it lengthens the first word of `a`
      cases a with
      | nil =>
        rw [words_singleton hc, List.cons_append, List.nil_append, words_solid_blank hc hx,
          words_blank hx]
        rfl
      | cons d a =>
        by_cases hd : isBlank d = true
        · rw [words_solid_blank hc hd, List.cons_append, List.cons_append,
            words_solid_blank hc hd, ← List.cons_append, ih]
          rfl
        · rw [Bool.not_eq_true] at hd
          obtain ⟨first, others, hwords⟩ := List.exists_cons_of_ne_nil (words_ne_nil hd a)
          rw [hwords] at ih
          rw [words_solid_solid hc hd hwords, List.cons_append, List.cons_append]
          exact words_solid_solid hc hd ih

theorem words_blanks_append {a : Text} (h : ∀ c ∈ a, isBlank c = true) (t : Text) :
    words (a ++ t) = words t := by
  induction a with
  | nil => rfl
  | cons c a ih =>
    rw [List.cons_append, words_blank (h c List.mem_cons_self),
      ih fun d hd => h d (List.mem_cons_of_mem c hd)]

theorem words_of_blanks {t : Text} (h : ∀ c ∈ t, isBlank c = true) : words t = [] := by
  have happ := words_blanks_append h []
  rwa [List.append_nil] at happ

/-- What begins with a blank ends the words before it. -/
theorem words_append_of_beginsBlank (a : Text) {b : Text} (h : BeginsBlank b) :
    words (a ++ b) = words a ++ words b := by
  cases b with
  | nil =>
    rw [List.append_nil]
    exact (List.append_nil _).symm
  | cons x b => rw [words_append_blank (h x rfl), words_blank (h x rfl)]

theorem words_append_blanks (t : Text) {b : Text} (h : ∀ c ∈ b, isBlank c = true) :
    words (t ++ b) = words t := by
  have hbegins : BeginsBlank b := fun c hc => h c (List.mem_of_head? hc)
  rw [words_append_of_beginsBlank t hbegins, words_of_blanks h, List.append_nil]

/-! ## §3. Words of what is left of a text. -/

theorem words_trimStart (t : Text) : words (trimStart t) = words t := by
  obtain ⟨a, ha, hblank⟩ := exists_trimStart t
  conv => rhs; rw [ha, words_blanks_append hblank]

theorem words_trimEnd (t : Text) : words (trimEnd t) = words t := by
  obtain ⟨b, hb, hblank⟩ := exists_trimEnd t
  conv => rhs; rw [hb, words_append_blanks _ hblank]

theorem words_trim (t : Text) : words (trim t) = words t := by
  unfold trim
  rw [words_trimEnd, words_trimStart]

/-- What is left behind the first word begins with a blank. -/
theorem beginsBlank_splitWord (t : Text) : BeginsBlank (splitWord t).2 := by
  intro c hc
  have hnot := List.head?_dropWhile_not (!isBlank ·) (trimStart t)
  rw [show ((trimStart t).dropWhile (!isBlank ·)).head? = some c from hc] at hnot
  simpa using hnot

/-- One word. -/
def IsWord (w : Text) : Prop := w ≠ [] ∧ ∀ c ∈ w, isBlank c = false

instance (w : Text) : Decidable (IsWord w) :=
  inferInstanceAs (Decidable (w ≠ [] ∧ ∀ c ∈ w, isBlank c = false))

/-- A word in front of a blank, or of nothing, is the first word. -/
theorem words_append_of_isWord {w r : Text} (hw : IsWord w) (hr : BeginsBlank r) :
    words (w ++ r) = w :: words r := by
  rw [words_append_of_beginsBlank w hr, words_of_solid hw.1 hw.2]
  rfl

theorem trimStart_of_isWord {w : Text} (hw : IsWord w) (r : Text) : trimStart (w ++ r) = w ++ r := by
  obtain ⟨hne, hsolid⟩ := hw
  obtain ⟨c, w, rfl⟩ := List.exists_cons_of_ne_nil hne
  exact List.dropWhile_cons_of_neg (by rw [hsolid c List.mem_cons_self]; decide)

theorem append_splitWord (t : Text) : (splitWord t).1 ++ (splitWord t).2 = trimStart t :=
  List.takeWhile_append_dropWhile

/-- Behind the leading blanks there is nothing, or a word. -/
theorem isWord_splitWord {t : Text} (hne : trimStart t ≠ []) : IsWord (splitWord t).1 := by
  constructor
  · intro hnil
    -- without a first word, what is left begins with a blank and with no blank at all
    obtain ⟨c, r, hcons⟩ := List.exists_cons_of_ne_nil hne
    have hsplit := append_splitWord t
    rw [hnil, List.nil_append, hcons] at hsplit
    have hbegin : isBlank c = false := head?_trimStart t c (by rw [hcons]; rfl)
    rw [beginsBlank_splitWord t c (by rw [hsplit]; rfl)] at hbegin
    cases hbegin
  · intro c hc
    simpa using List.mem_takeWhile_imp hc

/-- **The first word is split off**, if there is one. -/
theorem words_eq_splitWord (t : Text) :
    words t = if (splitWord t).1 = [] then [] else (splitWord t).1 :: words (splitWord t).2 := by
  rw [← words_trimStart t]
  by_cases hnil : trimStart t = []
  · have hsplit := append_splitWord t
    rw [hnil, List.append_eq_nil_iff] at hsplit
    rw [hnil, if_pos hsplit.1]
    rfl
  · have hword := isWord_splitWord hnil
    rw [if_neg hword.1, ← append_splitWord t,
      words_append_of_isWord hword (beginsBlank_splitWord t)]

theorem splitWord_eq_nil_iff {t : Text} : (splitWord t).1 = [] ↔ words t = [] := by
  rw [words_eq_splitWord]
  split <;> simp_all

/-- Joined with a blank, texts keep their words apart. -/
theorem words_join {x : Char} (hx : isBlank x = true) (ts : List Text) :
    words (join [x] ts) = ts.flatMap words := by
  induction ts with
  | nil => rfl
  | cons t ts ih =>
    cases ts with
    | nil => rw [join_singleton, List.flatMap_singleton]
    | cons u ts =>
      rw [join_cons_cons, List.append_assoc, List.singleton_append, words_append_blank hx, ih]
      rfl

/-- The words of a text are those of its lines. -/
theorem words_splitOn {x : Char} (hx : isBlank x = true) (t : Text) :
    (splitOn x t).flatMap words = words t := by
  rw [← words_join hx, join_splitOn]

theorem words_join_words {x : Char} (hx : isBlank x = true) {ws : List Text}
    (h : ∀ w ∈ ws, IsWord w) : words (join [x] ws) = ws := by
  rw [words_join hx]
  induction ws with
  | nil => rfl
  | cons w ws ih =>
    rw [List.flatMap_cons, words_of_solid (h w List.mem_cons_self).1 (h w List.mem_cons_self).2,
      ih fun v hv => h v (List.mem_cons_of_mem w hv)]
    rfl

/-! ## §4. Single spaces. -/

/-- A text whose blanks are spaces, none of them next to another. -/
structure Spaced (t : Text) : Prop where
  /-- Every blank is a space. -/
  plain : ∀ c ∈ t, isBlank c = true → c = ' '
  /-- No two spaces stand together. -/
  single : ¬ [' ', ' '] <:+: t

theorem Spaced.mono {s t : Text} (h : Spaced t) (hs : s <:+: t) : Spaced s :=
  ⟨fun c hc => h.plain c (hs.subset hc), fun hin => h.single (hin.trans hs)⟩

/-- A blank in front of a text with a solid end is a space, and no other one follows. -/
theorem Spaced.behind_blank {d : Char} {rest : Text} (h : Spaced (d :: rest))
    (hd : isBlank d = true) (hend : ∀ c ∈ (d :: rest).getLast?, isBlank c = false) :
    d = ' ' ∧ ∃ e r, rest = e :: r ∧ isBlank e = false := by
  have hspace : d = ' ' := h.plain d List.mem_cons_self hd
  refine ⟨hspace, ?_⟩
  cases rest with
  | nil =>
    rw [hend d rfl] at hd
    cases hd
  | cons e r =>
    refine ⟨e, r, rfl, Bool.eq_false_iff.2 fun he => h.single ?_⟩
    have hsecond : e = ' ' := h.plain e (List.mem_cons_of_mem d List.mem_cons_self) he
    rw [hspace, hsecond]
    exact ⟨[], r, rfl⟩

/-- A text with a solid end, its leading blanks left out, is its words joined. -/
theorem trimStart_of_spaced {t : Text} (h : Spaced t)
    (hend : ∀ c ∈ t.getLast?, isBlank c = false) : trimStart t = join [' '] (words t) := by
  -- along the search for words: a blank, the last character, the end of a word, within a word
  fun_induction words t with
  | case1 => rfl
  | case2 c rest hc ih =>
    have hrest : ∀ d ∈ rest.getLast?, isBlank d = false := by
      intro d hd
      cases rest with
      | nil => cases hd
      | cons e rest => exact hend d (by rwa [List.getLast?_cons_cons])
    rw [← ih (h.mono (List.suffix_cons c rest).isInfix) hrest]
    exact List.dropWhile_cons_of_pos hc
  | case3 c hc =>
    rw [join_singleton]
    exact List.dropWhile_cons_of_neg hc
  | case4 c hc d rest hd ih =>
    rw [List.getLast?_cons_cons] at hend
    have hbehind : Spaced (d :: rest) := h.mono (List.suffix_cons c _).isInfix
    have hstart := ih hbehind hend
    obtain ⟨hspace, e, r, hr, he⟩ := hbehind.behind_blank hd hend
    have hdrop : trimStart (d :: rest) = rest := by
      unfold trimStart
      rw [List.dropWhile_cons_of_pos hd, hr, List.dropWhile_cons_of_neg (by rw [he]; decide)]
    rw [hdrop] at hstart
    have hwords : words (d :: rest) ≠ [] := by
      rw [words_blank hd, hr]
      exact words_ne_nil he r
    obtain ⟨first, others, hsplit⟩ := List.exists_cons_of_ne_nil hwords
    rw [hsplit] at hstart ⊢
    rw [join_cons_cons, ← hstart, hspace]
    exact List.dropWhile_cons_of_neg hc
  | case5 c hc d rest hd hnone ih =>
    exact absurd hnone (words_ne_nil (Bool.eq_false_iff.2 hd) rest)
  | case6 c hc d rest hd first others heq ih =>
    rw [List.getLast?_cons_cons] at hend
    have hstart := ih (h.mono (List.suffix_cons c _).isInfix) hend
    have hkeep : trimStart (d :: rest) = d :: rest := List.dropWhile_cons_of_neg hd
    have hall : trimStart (c :: d :: rest) = c :: d :: rest := List.dropWhile_cons_of_neg hc
    rw [hkeep, heq] at hstart
    rw [hall, heq]
    dsimp only
    rw [join_cons_head, hstart]

/-- **Trimmed, a text with single spaces is its words**, joined with spaces. -/
theorem trim_of_spaced {t : Text} (h : Spaced t) : trim t = join [' '] (words t) := by
  have hend := getLast?_trimEnd t
  have hstart := trimStart_of_spaced (h.mono (trimEnd_infix_self t)) hend
  rw [words_trimEnd] at hstart
  rw [← trim_trimEnd, ← hstart]
  -- nothing is left to be trimmed at the end
  refine trimEnd_of_solid fun c hc => hend c ?_
  obtain ⟨a, ha, _⟩ := exists_trimStart (trimEnd t)
  rw [ha, List.getLast?_append, hc]
  rfl

/-- Joined words begin with a solid character. -/
theorem head?_join_words {ws : List Text} (h : ∀ w ∈ ws, IsWord w) :
    ∀ c ∈ (join [' '] ws).head?, isBlank c = false := by
  intro c hc
  cases ws with
  | nil => cases hc
  | cons w ws =>
    obtain ⟨hne, hsolid⟩ := h w List.mem_cons_self
    obtain ⟨d, w', rfl⟩ := List.exists_cons_of_ne_nil hne
    rw [join_cons_head] at hc
    cases hc
    exact hsolid c List.mem_cons_self

/-- **Words joined with spaces have single spaces.** -/
theorem spaced_join {ws : List Text} (h : ∀ w ∈ ws, IsWord w) : Spaced (join [' '] ws) := by
  induction ws with
  | nil => exact ⟨fun c hc => absurd hc List.not_mem_nil, by decide⟩
  | cons w ws ih =>
    have hsolid := (h w List.mem_cons_self).2
    have hspace : ' ' ∉ w := fun hin => absurd (hsolid ' ' hin) (by decide)
    have hws := fun v hv => h v (List.mem_cons_of_mem w hv)
    cases ws with
    | nil =>
      rw [join_singleton]
      refine ⟨fun c hc hblank => ?_, fun hin => hspace (hin.subset List.mem_cons_self)⟩
      rw [hsolid c hc] at hblank
      cases hblank
    | cons v ws =>
      have hrest := ih hws
      rw [join_cons_cons, List.append_assoc, List.singleton_append]
      constructor
      · intro c hc hblank
        rcases List.mem_append.1 hc with hc | hc
        · rw [hsolid c hc] at hblank
          cases hblank
        rcases List.mem_cons.1 hc with rfl | hc
        · rfl
        · exact hrest.plain c hc hblank
      · -- two spaces begin neither in the word nor at the one behind it
        intro hin
        have hbehind := infix_of_infix_append (fun c hc hmem => ?_) hin
        · rcases List.infix_cons_iff.1 hbehind with hbegin | hin
          · obtain ⟨_, r, hr⟩ := List.cons_prefix_cons.1 hbegin
            have hhead := head?_join_words hws ' ' (by rw [← hr]; rfl)
            exact absurd hhead (by decide)
          · exact hrest.single hin
        · have hc' : c = ' ' := by simpa using hmem
          exact hspace (hc' ▸ hc)

end DocAudit.Text
