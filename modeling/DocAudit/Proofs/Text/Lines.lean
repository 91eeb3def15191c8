/-
  DocAudit.Proofs.Text.Lines
  ──────────────────────────
  **LINES, AND TEXT MADE OF LINES.**

  Written one below the other, lines without line feeds make a text in which each of
  them can be found again: a stretch of that text without a line feed lies in the
  line whose number is that of the line feeds before it (`exists_line_of_split`).
  Lines put between two lines of a text stand between them (`lines_put`).
-/
import DocAudit.Proofs.Text.Split

namespace DocAudit.Text

/-! ## §1. Counting line feeds. -/

@[simp] theorem newlines_append (a b : Text) : newlines (a ++ b) = newlines a + newlines b :=
  List.count_append

theorem newlines_of_not_mem {t : Text} (h : '\n' ∉ t) : newlines t = 0 := List.count_eq_zero.2 h

theorem newlines_line {t : Text} (h : '\n' ∉ t) : newlines (line t) = 1 := by
  unfold line
  rw [newlines_append, newlines_of_not_mem h]
  rfl

/-- A text of whole lines has as many line feeds as lines. -/
theorem newlines_flatMap_line {ls : List Text} (h : ∀ l ∈ ls, '\n' ∉ l) :
    newlines (ls.flatMap line) = ls.length := by
  induction ls with
  | nil => rfl
  | cons l ls ih =>
    rw [List.flatMap_cons, newlines_append, newlines_line (h l List.mem_cons_self),
      ih fun l' hl' => h l' (List.mem_cons_of_mem _ hl'), List.length_cons, Nat.add_comm]

/-! ## §2. The lines of a text. -/

/-- No line holds a line feed. -/
theorem not_mem_of_mem_lines {t l : Text} (h : l ∈ lines t) : '\n' ∉ l := by
  fun_induction lines t generalizing l with
  | case1 => exact absurd h List.not_mem_nil
  | case2 rest ih =>
    rcases List.mem_cons.1 h with rfl | h
    · exact List.not_mem_nil
    · exact ih h
  | case3 rest ih =>
    rcases List.mem_cons.1 h with rfl | h
    · exact List.not_mem_nil
    · exact ih h
  | case4 c rest hfeed hreturn hnil ih =>
    cases List.mem_singleton.1 h
    rw [List.mem_singleton]
    exact fun hc => hfeed hc.symm
  | case5 c rest hfeed hreturn first others heq ih =>
    rw [heq] at ih
    rcases List.mem_cons.1 h with rfl | h
    · rw [List.mem_cons, not_or]
      exact ⟨fun hc => hfeed hc.symm, ih List.mem_cons_self⟩
    · exact ih (List.mem_cons_of_mem _ h)

/-- A line without the carriage return that belongs to its end. -/
def endLine (l : Text) : Text := if l.getLast? = some '\r' then l.dropLast else l

theorem endLine_cons {c : Char} {l : Text} (h : l ≠ [] ∨ c ≠ '\r') :
    endLine (c :: l) = c :: endLine l := by
  unfold endLine
  cases l with
  | nil =>
    have hc : c ≠ '\r' := h.resolve_left (fun hne => hne rfl)
    simp [hc]
  | cons d l =>
    rw [List.getLast?_cons_cons]
    split <;> rfl

theorem endLine_of_ne {l : Text} (h : l.getLast? ≠ some '\r') : endLine l = l := if_neg h

/-- **The first line of a text**, and the lines behind it. -/
theorem lines_append_feed {l : Text} (h : '\n' ∉ l) (t : Text) :
    lines (l ++ '\n' :: t) = endLine l :: lines t := by
  induction l with
  | nil => rfl
  | cons c l ih =>
    rw [List.mem_cons, not_or] at h
    have hc : c ≠ '\n' := Ne.symm h.1
    -- a carriage return right before the line feed belongs to the line end
    by_cases hreturn : c = '\r' ∧ l = []
    · obtain ⟨rfl, rfl⟩ := hreturn
      rfl
    · have hkeep : l ≠ [] ∨ c ≠ '\r' := by
        by_cases hl : l = []
        · exact .inr fun hcr => hreturn ⟨hcr, hl⟩
        · exact .inl hl
      rw [endLine_cons hkeep, List.cons_append, lines.eq_4 _ _ hc ?_, ih h.2]
      intro rest hcr hrest
      cases l with
      | nil => exact hreturn ⟨hcr, rfl⟩
      | cons d l =>
        rw [List.cons_append, List.cons.injEq] at hrest
        exact h.2 (hrest.1 ▸ List.mem_cons_self)

theorem lines_of_not_mem {l : Text} (h : '\n' ∉ l) : lines l = if l = [] then [] else [l] := by
  induction l with
  | nil => rfl
  | cons c l ih =>
    rw [List.mem_cons, not_or] at h
    rw [lines.eq_4 _ _ (Ne.symm h.1) ?_, ih h.2, if_neg (List.cons_ne_nil c l)]
    · by_cases hl : l = []
      · rw [if_pos hl, hl]
      · rw [if_neg hl]
    · intro rest _ hrest
      exact h.2 (hrest ▸ List.mem_cons_self)

/-- Lines written one below the other are the first lines of the text. -/
theorem lines_flatMap_line_append {ls : List Text} (h : ∀ l ∈ ls, '\n' ∉ l) (t : Text) :
    lines (ls.flatMap line ++ t) = ls.map endLine ++ lines t := by
  induction ls with
  | nil => rfl
  | cons l ls ih =>
    have hl : line l ++ (ls.flatMap line ++ t) = l ++ '\n' :: (ls.flatMap line ++ t) := by
      unfold line
      rw [List.append_assoc]
      rfl
    rw [List.flatMap_cons, List.append_assoc, hl, lines_append_feed (h l List.mem_cons_self),
      ih fun l' hl' => h l' (List.mem_cons_of_mem _ hl')]
    rfl

/-- Joined lines are written one below the other, except for the last one. -/
theorem join_append_cons (ls : List Text) (t : Text) (rest : List Text) :
    join ['\n'] (ls ++ t :: rest) = ls.flatMap line ++ join ['\n'] (t :: rest) := by
  induction ls with
  | nil => rfl
  | cons l ls ih =>
    have hcons : ∃ u us, ls ++ t :: rest = u :: us :=
      List.exists_cons_of_ne_nil (List.append_ne_nil_of_right_ne_nil ls (List.cons_ne_nil t rest))
    obtain ⟨u, us, hus⟩ := hcons
    rw [List.cons_append, hus, join_cons_cons, ← hus, ih, List.flatMap_cons, List.append_assoc]
    unfold line
    rw [List.append_assoc, List.append_assoc]

/-- A text of whole lines is their join and one more line feed. -/
theorem line_join {ls : List Text} (hne : ls ≠ []) : line (join ['\n'] ls) = ls.flatMap line := by
  have hlast : ls.dropLast ++ [ls.getLast hne] = ls := List.dropLast_concat_getLast hne
  rw [← hlast, join_append_cons, join_singleton, List.flatMap_append]
  unfold line
  rw [List.append_assoc, List.flatMap_singleton]

/-- A text that ends in a line feed consists of whole lines. -/
theorem exists_flatMap_line {t : Text} (h : t.getLast? = some '\n') :
    ∃ ls : List Text, t = ls.flatMap line ∧ ∀ l ∈ ls, '\n' ∉ l := by
  obtain ⟨v, rfl⟩ := List.getLast?_eq_some_iff.1 h
  have hne : splitOn '\n' v ≠ [] := splitWhere_ne_nil _ v
  refine ⟨splitOn '\n' v, ?_, fun l hl => not_mem_of_mem_splitOn hl⟩
  rw [← line_join hne, join_splitOn]
  rfl

/-- **The lines behind a line feed** are those of the text behind it. -/
theorem lines_append {a : Text} (h : a.getLast? = some '\n') (b : Text) :
    lines (a ++ b) = lines a ++ lines b := by
  obtain ⟨ls, rfl, hls⟩ := exists_flatMap_line h
  have halone : lines (ls.flatMap line) = ls.map endLine := by
    have hnil := lines_flatMap_line_append hls []
    rwa [List.append_nil, lines, List.append_nil] at hnil
  rw [lines_flatMap_line_append hls, halone]

/-- Joined lines are the lines of the text, up to an empty last one. -/
theorem length_lines_join_le {ls : List Text} (h : ∀ l ∈ ls, '\n' ∉ l) :
    (lines (join ['\n'] ls)).length ≤ ls.length := by
  induction ls with
  | nil => exact Nat.le_refl 0
  | cons l ls ih =>
    have hl : '\n' ∉ l := h l List.mem_cons_self
    cases ls with
    | nil =>
      rw [join_singleton, lines_of_not_mem hl]
      split
      · exact Nat.zero_le _
      · exact Nat.le_refl _
    | cons m ls =>
      rw [join_cons_cons, List.append_assoc, List.singleton_append, lines_append_feed hl]
      exact Nat.succ_le_succ (ih fun k hk => h k (List.mem_cons_of_mem l hk))

/-- The lines of a joined text, cut in front of one of them. -/
theorem lines_join {ls : List Text} (h : ∀ l ∈ ls, '\n' ∉ l) {n : Nat} (hn : n < ls.length) :
    lines (join ['\n'] ls)
      = (ls.take n).map endLine ++ lines (join ['\n'] (ls.drop n)) := by
  have htake : ∀ l ∈ ls.take n, '\n' ∉ l := fun l hl => h l (List.mem_of_mem_take hl)
  obtain ⟨u, us, hdrop⟩ : ∃ u us, ls.drop n = u :: us :=
    List.exists_cons_of_ne_nil (by rw [Ne, List.drop_eq_nil_iff]; omega)
  have hsplit : join ['\n'] ls = (ls.take n).flatMap line ++ join ['\n'] (u :: us) := by
    rw [← join_append_cons, ← hdrop, List.take_append_drop]
  rw [hsplit, lines_flatMap_line_append htake, hdrop]

/-- **Lines put between two lines of a text stand between them.** -/
theorem lines_put {t : Text} {n : Nat} (hn : n < (lines t).length) {ls : List Text}
    (hne : ls ≠ []) (hls : ∀ l ∈ ls, '\n' ∉ l) :
    lines (join ['\n'] ((splitOn '\n' t).take n ++ join ['\n'] ls :: (splitOn '\n' t).drop n))
      = (lines t).take n ++ ls.map endLine ++ (lines t).drop n := by
  obtain ⟨ps, hps⟩ : ∃ ps, splitOn '\n' t = ps := ⟨_, rfl⟩
  have hpieces : ∀ l ∈ ps, '\n' ∉ l := fun l hl => not_mem_of_mem_splitOn (hps ▸ hl)
  have ht : t = join ['\n'] ps := by rw [← hps, join_splitOn]
  have hlen : n < ps.length := by
    rw [ht] at hn
    exact Nat.lt_of_lt_of_le hn (length_lines_join_le hpieces)
  have htake : ∀ l ∈ ps.take n, '\n' ∉ l := fun l hl => hpieces l (List.mem_of_mem_take hl)
  have hsize : ((ps.take n).map endLine).length = n := by
    rw [List.length_map, List.length_take]
    omega
  obtain ⟨u, us, hdrop⟩ : ∃ u us, ps.drop n = u :: us :=
    List.exists_cons_of_ne_nil (by rw [Ne, List.drop_eq_nil_iff]; omega)
  have hput : join ['\n'] (join ['\n'] ls :: ps.drop n)
      = ls.flatMap line ++ join ['\n'] (ps.drop n) := by
    rw [hdrop, join_cons_cons, ← line_join hne]
    rfl
  rw [hps, join_append_cons, hput, lines_flatMap_line_append htake,
    lines_flatMap_line_append hls, ht, lines_join hpieces hlen, List.take_left' hsize,
    List.drop_left' hsize, List.append_assoc]

/-! ## §3. Finding a stretch again. -/

theorem exists_of_append_eq_concat {p r v : Text} {x : Char} (h : p ++ r = v ++ [x])
    (hr : r ≠ []) : ∃ u, r = u ++ [x] ∧ v = p ++ u := by
  have hlast : r.dropLast ++ [r.getLast hr] = r := List.dropLast_concat_getLast hr
  rw [← hlast, ← List.append_assoc] at h
  obtain ⟨hv, hx⟩ := List.append_inj' h rfl
  refine ⟨r.dropLast, ?_, hv.symm⟩
  rw [← hx, hlast]

/-- **A stretch within a line** is found on the line that the line feeds before it
say. -/
theorem exists_line_of_split {ls : List Text} (hls : ∀ l ∈ ls, '\n' ∉ l)
    {before w after : Text} (h : ls.flatMap line = before ++ w ++ after) (hw : '\n' ∉ w)
    (hne : w ≠ []) :
    ∃ l x y, ls[newlines before]? = some l ∧ l = x ++ w ++ y := by
  -- on the lines, with what stands before the stretch cut at the end of the first one
  induction ls generalizing before with
  | nil =>
    have hnil := List.append_eq_nil_iff.1 h.symm
    exact absurd (List.append_eq_nil_iff.1 hnil.1).2 hne
  | cons l ls ih =>
    have hl : '\n' ∉ l := hls l List.mem_cons_self
    rw [List.flatMap_cons, List.append_assoc] at h
    rcases List.append_eq_append_iff.1 h with ⟨a, hbefore, hrest⟩ | ⟨c, hline, hrest⟩
    · -- the stretch begins behind this line
      have hrest' : ls.flatMap line = a ++ w ++ after := by rw [hrest, List.append_assoc]
      obtain ⟨l', x, y, hget, hsplit⟩ := ih (fun l hl => hls l (List.mem_cons_of_mem _ hl)) hrest'
      refine ⟨l', x, y, ?_, hsplit⟩
      rw [hbefore, newlines_append, newlines_line hl, Nat.add_comm, List.getElem?_cons_succ, hget]
    · by_cases hc : c = []
      · -- it begins right behind this line
        rw [hc, List.append_nil] at hline
        rw [hc, List.nil_append] at hrest
        have hrest' : ls.flatMap line = [] ++ w ++ after := hrest.symm
        obtain ⟨l', x, y, hget, hsplit⟩ := ih (fun l hl => hls l (List.mem_cons_of_mem _ hl)) hrest'
        refine ⟨l', x, y, ?_, hsplit⟩
        rw [← hline, newlines_line hl, List.getElem?_cons_succ]
        exact hget
      · -- it begins in this line, and so it ends in it
        obtain ⟨u, hu, hlu⟩ := exists_of_append_eq_concat hline.symm hc
        rw [hu, List.append_assoc] at hrest
        have hbefore : newlines before = 0 :=
          newlines_of_not_mem fun hmem => hl (hlu ▸ List.mem_append_left u hmem)
        refine ⟨l, before, ?_⟩
        rw [hbefore]
        rcases List.append_eq_append_iff.1 hrest with ⟨a, hua, _⟩ | ⟨b, hwb, hfeed⟩
        · exact ⟨a, rfl, by rw [hlu, hua, List.append_assoc]⟩
        · cases b with
          | nil => exact ⟨[], rfl, by rw [hlu, hwb, List.append_nil, List.append_nil]⟩
          | cons d b =>
            rw [List.cons_append, List.nil_append, List.cons_append, List.cons.injEq] at hfeed
            refine absurd ?_ hw
            rw [hwb, hfeed.1]
            exact List.mem_append_right u List.mem_cons_self

end DocAudit.Text
