/-
  DocAudit.Proofs.Comment.Wrap
  ────────────────────────────
  **WHAT WRAPPING LEAVES OF A LINE.**

  A piece of a line is spaces and a stretch of the line (`stretch_of_mem_wrapLine`).  A
  word at the beginning of a line is not cut as long as it fits: the first piece begins
  with it, and the other pieces come from what stands behind it (`wrapLine_of_word`).  So
  a marker at the beginning of a line survives, and no second one arises.

  A line that is broken at ends of words only (`keepsWords`) has its words in its pieces,
  each whole and all in order (`words_wrapLine`).
-/
import DocAudit.Comment.Wrap
import DocAudit.Proofs.Text.Words

namespace DocAudit.Wrap

open Text

/-! ## §1. Stretches. -/

/-- A piece of a line: spaces, and a contiguous stretch of the line. -/
def Stretch (line piece : Text) : Prop := ∃ n s, piece = spaces n ++ s ∧ s <:+: line

theorem Stretch.mono {line longer piece : Text} (h : Stretch line piece)
    (hin : line <:+: longer) : Stretch longer piece := by
  obtain ⟨n, s, rfl, hs⟩ := h
  exact ⟨n, s, rfl, hs.trans hin⟩

theorem words_spaces_append (n : Nat) (t : Text) : words (spaces n ++ t) = words t :=
  words_blanks_append (blank_spaces n) t

/-- Trimmed, a piece is a stretch of the line. -/
theorem Stretch.trim_infix_line {line piece : Text} (h : Stretch line piece) : trim piece <:+: line := by
  obtain ⟨n, s, rfl, hs⟩ := h
  rw [trim_blanks_append (blank_spaces n)]
  exact (Text.trim_infix_self s).trans hs

/-- A piece holds characters of the line and spaces. -/
theorem Stretch.mem {line piece : Text} (h : Stretch line piece) {c : Char} (hc : c ∈ piece) :
    c ∈ line ∨ c = ' ' := by
  obtain ⟨n, s, rfl, hs⟩ := h
  rcases List.mem_append.1 hc with hc | hc
  · exact .inr (List.eq_of_mem_replicate hc)
  · exact .inl (hs.subset hc)

/-- The beginning of a continued line is a piece of it. -/
theorem stretch_take (pad cut : Nat) (body : Text) :
    Stretch body ((spaces pad ++ body).take cut) := by
  refine ⟨min cut pad, body.take (cut - pad), ?_, (List.take_prefix _ body).isInfix⟩
  rw [List.take_append, spaces, List.take_replicate, List.length_replicate]
  rfl

/-- What is left behind a break of a continued line comes from its body. -/
theorem rest_infix_body (width pad : Nat) (hpad : pad < width) (body : Text) :
    trimStart ((spaces pad ++ body).drop (breakAt width (spaces pad ++ body))) <:+: body := by
  have hcut := pad_lt_breakAt body hpad
  have hlength : (spaces pad).length ≤ breakAt width (spaces pad ++ body) := by
    have hpadding := length_spaces pad
    omega
  rw [List.drop_append, List.drop_eq_nil_of_le hlength, List.nil_append]
  exact (trimStart_infix_self _).trans (List.drop_suffix _ body).isInfix

/-- The pieces of a continued line are pieces of its body. -/
theorem stretch_of_mem_continued {width pad : Nat} {hpad : pad < width} {body piece : Text}
    (h : piece ∈ continued width pad hpad body) : Stretch body piece := by
  induction body using continued.induct width pad hpad with
  -- the rest fits, or it is all blank, or it is cut and continued
  | case1 body t hlen =>
    rw [continued, dif_pos hlen] at h
    cases List.mem_singleton.1 h
    exact ⟨pad, body, rfl, List.infix_refl body⟩
  | case2 body t hlen cut rest hrest =>
    rw [continued, dif_neg hlen, if_pos hrest] at h
    cases List.mem_singleton.1 h
    exact stretch_take pad cut body
  | case3 body t hlen cut rest hrest ih =>
    rw [continued, dif_neg hlen, if_neg hrest] at h
    rcases List.mem_cons.1 h with rfl | h
    · exact stretch_take pad cut body
    · exact (ih h).mono (rest_infix_body width pad hpad body)

/-- The first piece of a line is a beginning of it, and the others are pieces of the
rest. -/
theorem exists_wrapLine (line : Text) (width indent : Nat) (indented : Bool) :
    ∃ n others, wrapLine line width indent indented = line.take n :: others
      ∧ (line.length ≤ n ∨ max width 1 < line.length ∧ n = breakAt (max width 1) line)
      ∧ ∀ piece ∈ others, Stretch (line.drop n) piece := by
  unfold wrapLine
  dsimp only
  split
  · refine ⟨line.length, [], ?_, .inl (Nat.le_refl _), fun _ h => absurd h List.not_mem_nil⟩
    rw [List.take_length]
  have hlong : max width 1 < line.length := Nat.lt_of_not_le ‹_›
  split
  · exact ⟨_, [], rfl, .inr ⟨hlong, rfl⟩, fun _ h => absurd h List.not_mem_nil⟩
  · refine ⟨_, _, rfl, .inr ⟨hlong, rfl⟩, fun piece hpiece => ?_⟩
    exact (stretch_of_mem_continued hpiece).mono (trimStart_infix_self _)

/-- **Wrapping adds spaces only**, in front of stretches of the line. -/
theorem stretch_of_mem_wrapLine {line : Text} {width indent : Nat} {indented : Bool}
    {piece : Text} (h : piece ∈ wrapLine line width indent indented) : Stretch line piece := by
  obtain ⟨n, others, hwrap, _, hothers⟩ := exists_wrapLine line width indent indented
  rw [hwrap] at h
  rcases List.mem_cons.1 h with rfl | h
  · exact stretch_take 0 n line
  · exact (hothers piece h).mono (List.drop_suffix n line).isInfix

/-! ## §2. Words that fit. -/

/-- A line is broken no earlier than at any end of a word that fits. -/
theorem le_breakAt {width m : Nat} {t : Text} (hpos : 0 < m) (hm : m ≤ width)
    (h : endsWord t m = true) : m ≤ breakAt width t := by
  unfold breakAt
  have hmem : m ∈ (List.range' 1 width).reverse := by
    rw [List.mem_reverse, List.mem_range'_1]
    omega
  cases hf : (List.range' 1 width).reverse.find? (endsWord t) with
  | none => exact absurd h (List.find?_eq_none.1 hf m hmem)
  | some i =>
    obtain ⟨_, before, after, hsplit, hnone⟩ := List.find?_eq_some_iff_append.1 hf
    have hdescending : (before ++ i :: after).Pairwise (· > ·) := by
      rw [← hsplit, List.pairwise_reverse]
      exact List.pairwise_lt_range'
    show m ≤ i
    rw [hsplit] at hmem
    -- the search goes down from the width, so it stops at `m` or before
    rcases List.mem_append.1 hmem with hin | hin
    · have hfalse := hnone m hin
      rw [h] at hfalse
      exact absurd hfalse (by decide)
    rcases List.mem_cons.1 hin with rfl | hin
    · exact Nat.le_refl m
    · have htail := (List.pairwise_append.1 hdescending).2.1
      exact Nat.le_of_lt (List.rel_of_pairwise_cons htail hin)

theorem endsWord_append {head tail : Text} (hhead : EndsSolid head) (htail : BeginsBlank tail)
    (hne : tail ≠ []) : endsWord (head ++ tail) head.length = true := by
  obtain ⟨c, hlast, hc⟩ := hhead
  obtain ⟨d, r, rfl⟩ := List.exists_cons_of_ne_nil hne
  have hd : isBlank d = true := htail d rfl
  obtain ⟨front, rfl⟩ := List.getLast?_eq_some_iff.1 hlast
  have hbefore : (front ++ [c] ++ d :: r)[(front ++ [c]).length - 1]? = some c := by
    simp
  have hat : (front ++ [c] ++ d :: r)[(front ++ [c]).length]? = some d := by
    rw [List.getElem?_append_right (Nat.le_refl _), Nat.sub_self]
    rfl
  unfold endsWord
  rw [hbefore, hat]
  dsimp only
  rw [hc, hd]
  rfl

/-- **A word at the beginning of a line that fits is not cut**: the first piece begins
with it, and the other pieces come from behind it. -/
theorem wrapLine_of_word {head tail : Text} {width : Nat} (hlen : head.length ≤ max width 1)
    (hhead : EndsSolid head) (htail : BeginsBlank tail) (indent : Nat) (indented : Bool) :
    ∃ more others, wrapLine (head ++ tail) width indent indented = (head ++ more) :: others
      ∧ more <+: tail ∧ ∀ piece ∈ others, Stretch tail piece := by
  obtain ⟨n, others, hwrap, hn, hothers⟩ := exists_wrapLine (head ++ tail) width indent indented
  -- the first cut is not within the word
  have hle : head.length ≤ n := by
    rcases hn with hn | ⟨hlong, rfl⟩
    · rw [List.length_append] at hn
      omega
    · by_cases hne : tail = []
      · rw [hne, List.append_nil] at hlong
        omega
      · have hpos : 0 < head.length := by
          obtain ⟨c, hc, _⟩ := hhead
          exact List.length_pos_iff.2 fun hnil => by rw [hnil] at hc; cases hc
        exact le_breakAt hpos hlen (endsWord_append hhead htail hne)
  refine ⟨tail.take (n - head.length), others, ?_, List.take_prefix _ tail, ?_⟩
  · rw [hwrap, List.take_append, List.take_of_length_le hle]
  · intro piece hpiece
    have hrest := hothers piece hpiece
    rw [List.drop_append, List.drop_eq_nil_of_le hle, List.nil_append] at hrest
    exact hrest.mono (List.drop_suffix _ tail).isInfix

/-! ## §3. Words that are kept whole. -/

theorem length_rest_lt {width pad : Nat} (hpad : pad < width) {body : Text}
    (hlong : ¬(spaces pad ++ body).length ≤ width) :
    (trimStart ((spaces pad ++ body).drop (breakAt width (spaces pad ++ body)))).length
      < body.length := by
  have hcut := pad_lt_breakAt body hpad
  have htrim := length_trimStart_le
    ((spaces pad ++ body).drop (breakAt width (spaces pad ++ body)))
  simp only [List.length_drop, List.length_append, spaces, List.length_replicate] at *
  omega

/-- Whether a continued line is broken at ends of words only. -/
def keepsWordsFrom (width pad : Nat) (hpad : pad < width) (body : Text) : Bool :=
  let t := spaces pad ++ body
  if _hlen : t.length ≤ width then true
  else
    endsWord t (breakAt width t)
      && keepsWordsFrom width pad hpad (trimStart (t.drop (breakAt width t)))
termination_by body.length
decreasing_by exact length_rest_lt hpad ‹_›

/-- The indentation of the pieces after the first leaves room. -/
theorem padding_lt (width indent : Nat) (indented : Bool) (line : Text) :
    padding (max width 1) indent indented line < max width 1 := by
  unfold padding
  dsimp only
  omega

/-- Whether a line is broken at ends of words only, so that no word is cut. -/
def keepsWords (line : Text) (width indent : Nat) (indented : Bool) : Bool :=
  let w := max width 1
  if line.length ≤ w then true
  else
    endsWord line (breakAt w line)
      && keepsWordsFrom w (padding w indent indented line)
          (padding_lt width indent indented line)
          (trimStart (line.drop (breakAt w line)))

/-- Where a word ends, a solid character stands before a blank. -/
theorem exists_of_endsWord {t : Text} {i : Nat} (h : endsWord t i = true) :
    ∃ a b, t[i - 1]? = some a ∧ t[i]? = some b ∧ isBlank a = false ∧ isBlank b = true := by
  unfold endsWord at h
  split at h
  · next a b ha hb =>
    rw [Bool.and_eq_true, Bool.not_eq_true'] at h
    exact ⟨a, b, ha, hb, h.1, h.2⟩
  · cases h

/-- What stands before the end of a word ends in a solid character. -/
theorem endsSolid_take {t : Text} {i : Nat} (h : endsWord t i = true) : EndsSolid (t.take i) := by
  obtain ⟨a, b, ha, hb, hsolid, hblank⟩ := exists_of_endsWord h
  cases i with
  | zero =>
    -- the first character would be solid and blank
    rw [hb] at ha
    cases ha
    rw [hsolid] at hblank
    cases hblank
  | succ i =>
    rw [Nat.add_sub_cancel] at ha
    refine ⟨a, ?_, hsolid⟩
    rw [List.getLast?_take, if_neg (Nat.succ_ne_zero i), Nat.add_sub_cancel, ha]
    rfl

/-- What stands behind the end of a word begins with a blank. -/
theorem beginsBlank_drop {t : Text} {i : Nat} (h : endsWord t i = true) :
    BeginsBlank (t.drop i) ∧ t.drop i ≠ [] := by
  obtain ⟨_, b, _, hb, _, hblank⟩ := exists_of_endsWord h
  have hhead : (t.drop i).head? = some b := by rw [List.head?_drop, hb]
  constructor
  · intro c hc
    rw [hhead] at hc
    cases hc
    exact hblank
  · intro hnil
    rw [hnil] at hhead
    cases hhead

/-- A text broken at the end of a word keeps its words. -/
theorem words_take_append_drop {t : Text} {i : Nat} (h : endsWord t i = true) :
    words (t.take i) ++ words (trimStart (t.drop i)) = words t := by
  rw [words_trimStart, ← words_append_of_beginsBlank _ (beginsBlank_drop h).1,
    List.take_append_drop]

theorem words_continued {width pad : Nat} {hpad : pad < width} {body : Text}
    (h : keepsWordsFrom width pad hpad body = true) :
    (continued width pad hpad body).flatMap words = words body := by
  induction body using continued.induct width pad hpad with
  | case1 body t hlen =>
    rw [continued, dif_pos hlen, List.flatMap_singleton]
    exact words_spaces_append pad body
  | case2 body t hlen cut rest hrest =>
    rw [keepsWordsFrom, dif_neg hlen, Bool.and_eq_true] at h
    have hwords := words_take_append_drop h.1
    -- nothing but blanks is left behind the break
    rw [show trimStart (t.drop cut) = [] from hrest] at hwords
    rw [continued, dif_neg hlen, if_pos hrest, List.flatMap_singleton,
      ← words_spaces_append pad body, ← hwords]
    exact (List.append_nil _).symm
  | case3 body t hlen cut rest hrest ih =>
    rw [keepsWordsFrom, dif_neg hlen, Bool.and_eq_true] at h
    rw [continued, dif_neg hlen, if_neg hrest, List.flatMap_cons, ih h.2,
      ← words_spaces_append pad body]
    exact words_take_append_drop h.1

/-- **A line that is broken at ends of words only keeps its words.** -/
theorem words_wrapLine {line : Text} {width indent : Nat} {indented : Bool}
    (h : keepsWords line width indent indented = true) :
    (wrapLine line width indent indented).flatMap words = words line := by
  unfold keepsWords at h
  unfold wrapLine
  dsimp only at h ⊢
  split
  · rw [List.flatMap_singleton]
  next hlong =>
  rw [if_neg hlong, Bool.and_eq_true] at h
  have hwords := words_take_append_drop h.1
  split
  · next hrest =>
    rw [hrest] at hwords
    rw [List.flatMap_singleton, ← hwords]
    exact (List.append_nil _).symm
  · rw [List.flatMap_cons, words_continued h.2]
    exact hwords

end DocAudit.Wrap
