/-
  DocAudit.Proofs.Comment.Width
  ─────────────────────────────
  **WRAPPED OUTPUT FITS THE WIDTH.**

  Wrapping goes round by round: as long as the line is too long, a piece is broken off
  and the rest is indented for the next round.  `Rounds` is that loop, told by the line
  at hand in every round, so nothing in it says that it ends or that the indentation
  stays the same.  Nor does it settle what becomes of a sum that is too large for a
  machine word: arithmetic that is checked stops there, other arithmetic goes on with
  the remainder.  Then:

      rounds_iff              the loop ends, and its pieces are those of `wrapLine`,
                              unless checked arithmetic stops it in the first round
      length_wrapLine_le      it takes no more rounds than the line has characters
      Rounds.length_le        no piece is longer than the width

  A block puts three characters before each piece, for which the width leaves room from
  four on.
-/
import DocAudit.Comment.Doxygen
import DocAudit.Comment.Edt
import DocAudit.Proofs.Comment.Render

namespace DocAudit

open Text

namespace Wrap

/-! ## §1. The loop. -/

/-- The rest of a line that is too long, without the blanks at the break. -/
def restAfter (width : Nat) (t : Text) : Text := trimStart (t.drop (breakAt width t))

/-- The rounds in which a line is wrapped, and the pieces that they yield, if they are not
stopped.  The padding of the next round is told by the line at hand, and so is whether it
is still to be indented. -/
inductive Rounds (checked : Bool) (width indent : Nat) : Bool → Text → Option (List Text) → Prop
  /-- A line that fits is the last piece. -/
  | fits {indented : Bool} {t : Text} : t.length ≤ width →
      Rounds checked width indent indented t (some [t])
  /-- Checked arithmetic stops at a sum that is too large. -/
  | stops {indented : Bool} {t : Text} : width < t.length → checked = true →
      Overflows indent indented t → Rounds checked width indent indented t none
  /-- Blanks alone make no further piece. -/
  | blank {indented : Bool} {t : Text} : width < t.length →
      (checked = true → ¬Overflows indent indented t) → restAfter width t = [] →
      Rounds checked width indent indented t (some [t.take (breakAt width t)])
  /-- The rest is indented and wrapped in turn. -/
  | next {indented : Bool} {t : Text} {pieces : Option (List Text)} : width < t.length →
      (checked = true → ¬Overflows indent indented t) → restAfter width t ≠ [] →
      Rounds checked width indent true
        (spaces (padding width indent indented t) ++ restAfter width t) pieces →
      Rounds checked width indent indented t (pieces.map (t.take (breakAt width t) :: ·))

variable {checked : Bool}

/-- The loop takes one way only. -/
theorem Rounds.unique {width indent : Nat} {indented : Bool} {t : Text} {ps qs : Option (List Text)}
    (h : Rounds checked width indent indented t ps)
    (h' : Rounds checked width indent indented t qs) : ps = qs := by
  induction h generalizing qs with
  | fits hlen =>
    cases h' with
    | fits _ => rfl
    | stops hlong => omega
    | blank hlong => omega
    | next hlong => omega
  | stops hlong hchecked hover =>
    cases h' with
    | fits hlen => omega
    | stops => rfl
    | blank _ hsum => exact absurd hover (hsum hchecked)
    | next _ hsum => exact absurd hover (hsum hchecked)
  | blank hlong hsum hrest =>
    cases h' with
    | fits hlen => omega
    | stops _ hchecked hover => exact absurd hover (hsum hchecked)
    | blank => rfl
    | next _ _ hne => exact absurd hrest hne
  | next hlong hsum hne _ ih =>
    cases h' with
    | fits hlen => omega
    | stops _ hchecked hover => exact absurd hover (hsum hchecked)
    | blank _ _ hrest => exact absurd hrest hne
    | next _ _ _ hmore => rw [ih hmore]

/-- What is left begins with a character that is no blank. -/
theorem head?_restAfter (width : Nat) (t : Text) :
    ∀ c ∈ (restAfter width t).head?, isBlank c = false := head?_trimStart _

/-- **The indentation is kept**: a continued line, padded and long enough, is padded in
the same way in the next round. -/
theorem padding_spaces_append {width pad : Nat} (hpad : pad < width) {body : Text}
    (hbody : ∀ c ∈ body.head?, isBlank c = false) (indent : Nat) :
    padding width indent true (spaces pad ++ body) = pad := by
  have hlead : ((spaces pad ++ body).takeWhile isBlank).length = pad := by
    rw [(takeWhile_append_of_stop (blank_spaces pad) hbody).1, length_spaces]
  simp only [padding, if_true, hlead]
  omega

/-- A line that is indented already asks for no sum. -/
theorem not_overflows_true (indent : Nat) (t : Text) : ¬Overflows indent true t := fun h =>
  Bool.noConfusion h.1

/-- The pieces of a continued line are those of the loop. -/
theorem rounds_continued {width pad : Nat} (hpad : pad < width) (indent : Nat) {body : Text}
    (hbody : ∀ c ∈ body.head?, isBlank c = false) :
    Rounds checked width indent true (spaces pad ++ body)
      (some (continued width pad hpad body)) := by
  induction body using continued.induct width pad hpad with
  | case1 body t hlen =>
    rw [continued, dif_pos hlen]
    exact .fits hlen
  | case2 body t hlen cut rest hrest =>
    rw [continued, dif_neg hlen, if_pos hrest]
    exact .blank (Nat.lt_of_not_le hlen) (fun _ => not_overflows_true indent _) hrest
  | case3 body t hlen cut rest hrest ih =>
    rw [continued, dif_neg hlen, if_neg hrest]
    have hnext : Rounds checked width indent true
        (spaces (padding width indent true t) ++ rest) (some (continued width pad hpad rest)) := by
      rw [padding_spaces_append hpad hbody]
      exact ih (head?_restAfter width t)
    exact .next (Nat.lt_of_not_le hlen) (fun _ => not_overflows_true indent _) hrest hnext

/-- What the loop makes of a line: its pieces, unless it is too long for one piece and
checked arithmetic stops at the sum of its indentation. -/
def outcome (checked : Bool) (line : Text) (width indent : Nat) (indented : Bool) :
    Option (List Text) :=
  if checked = true ∧ max width 1 < line.length ∧ Overflows indent indented line then none
  else some (wrapLine line width indent indented)

theorem outcome_false (line : Text) (width indent : Nat) (indented : Bool) :
    outcome false line width indent indented = some (wrapLine line width indent indented) := rfl

theorem outcome_of_fits {line : Text} {indent : Nat} {indented : Bool}
    (h : checked = true → ¬Overflows indent indented line) (width : Nat) :
    outcome checked line width indent indented = some (wrapLine line width indent indented) :=
  if_neg fun hstop => h hstop.1 hstop.2.2

theorem rounds_outcome (checked : Bool) (line : Text) (width indent : Nat) (indented : Bool) :
    Rounds checked (max width 1) indent indented line
      (outcome checked line width indent indented) := by
  unfold outcome
  split
  · next hstop => exact .stops hstop.2.1 hstop.1 hstop.2.2
  next hgo =>
  unfold wrapLine
  dsimp only
  split
  · exact .fits ‹_›
  have hlong : max width 1 < line.length := Nat.lt_of_not_le ‹_›
  have hsum : checked = true → ¬Overflows indent indented line := fun hchecked hover =>
    hgo ⟨hchecked, hlong, hover⟩
  split
  · exact .blank hlong hsum ‹_›
  · exact .next hlong hsum ‹_› (rounds_continued _ indent (head?_restAfter _ line))

/-- **The loop ends**, with the pieces of the line. -/
theorem rounds_iff {line : Text} {width indent : Nat} {indented : Bool} {ps : Option (List Text)} :
    Rounds checked (max width 1) indent indented line ps
      ↔ ps = outcome checked line width indent indented := by
  constructor
  · intro h
    exact h.unique (rounds_outcome checked line width indent indented)
  · intro h
    rw [h]
    exact rounds_outcome checked line width indent indented

/-! ## §2. How many pieces, and how long. -/

theorem length_continued_le {width pad : Nat} (hpad : pad < width) (body : Text) :
    (continued width pad hpad body).length ≤ max 1 body.length := by
  induction body using continued.induct width pad hpad with
  | case1 body t hlen =>
    rw [continued, dif_pos hlen]
    exact Nat.le_max_left 1 _
  | case2 body t hlen cut rest hrest =>
    rw [continued, dif_neg hlen, if_pos hrest]
    exact Nat.le_max_left 1 _
  | case3 body t hlen cut rest hrest ih =>
    -- a round takes at least one character of the body, and something is left of it
    have hless : rest.length < body.length := length_rest_lt hpad hlen
    have hpos : 0 < rest.length := List.length_pos_iff.2 hrest
    rw [continued, dif_neg hlen, if_neg hrest, List.length_cons]
    have hcount : (continued width pad hpad rest).length ≤ max 1 rest.length := ih
    show (continued width pad hpad rest).length + 1 ≤ _
    omega

theorem breakAt_pos {width : Nat} (hwidth : 0 < width) (t : Text) : 0 < breakAt width t :=
  pad_lt_breakAt t hwidth

theorem breakAt_le (width : Nat) (t : Text) : breakAt width t ≤ width := by
  unfold breakAt
  cases hfind : (List.range' 1 width).reverse.find? (endsWord t) with
  | none => exact Nat.le_refl width
  | some i =>
    have hmem := List.mem_of_find?_eq_some hfind
    simp only [List.mem_reverse, List.mem_range'_1] at hmem
    show i ≤ width
    omega

/-- A line has no more pieces than characters, an empty one a single piece. -/
theorem length_wrapLine_le (line : Text) (width indent : Nat) (indented : Bool) :
    (wrapLine line width indent indented).length ≤ max 1 line.length := by
  unfold wrapLine
  dsimp only
  split
  · exact Nat.le_max_left 1 _
  have hlong : max width 1 < line.length := Nat.lt_of_not_le ‹_›
  split
  · exact Nat.le_max_left 1 _
  · next hrest =>
    have hcut : 0 < breakAt (max width 1) line := breakAt_pos (by omega) line
    have htrim := length_trimStart_le (line.drop (breakAt (max width 1) line))
    have hcount := length_continued_le (padding_lt width indent indented line)
      (trimStart (line.drop (breakAt (max width 1) line)))
    rw [List.length_drop] at htrim
    rw [List.length_cons]
    omega

/-- **No piece is longer than the width.** -/
theorem Rounds.length_le {width indent : Nat} {indented : Bool} {t : Text}
    {pieces : Option (List Text)} (h : Rounds checked width indent indented t pieces) :
    ∀ ps ∈ pieces, ∀ p ∈ ps, p.length ≤ width := by
  have htake : ∀ t : Text, (t.take (breakAt width t)).length ≤ width := by
    intro t
    have hcut := breakAt_le width t
    rw [List.length_take]
    omega
  induction h with
  | fits hlen =>
    intro ps hps p hp
    cases hps
    rwa [List.mem_singleton.1 hp]
  | stops =>
    intro ps hps
    cases hps
  | @blank _ t =>
    intro ps hps p hp
    cases hps
    rw [List.mem_singleton.1 hp]
    exact htake t
  | @next _ t _ _ _ _ _ ih =>
    intro ps hps p hp
    obtain ⟨more, hmore, rfl⟩ := Option.map_eq_some_iff.1 hps
    rcases List.mem_cons.1 hp with rfl | hp
    · exact htake t
    · exact ih more hmore p hp

theorem length_le_of_mem_wrapLine {line piece : Text} {width indent : Nat} {indented : Bool}
    (h : piece ∈ wrapLine line width indent indented) : piece.length ≤ max width 1 :=
  (rounds_outcome false line width indent indented).length_le _ rfl piece h

end Wrap

/-! ## §3. Blocks. -/

namespace Block

/-- The lines of a block are those that it is joined from. -/
theorem splitOn_render (t : Text) (d : Dialect) (o : WrapOptions) :
    splitOn '\n' (render t d.opening o) = blockLines t d.opening o := by
  refine splitOn_join (by simp [blockLines]) fun l hl => ?_
  rcases List.mem_append.1 hl with hl | hl
  · rcases List.mem_cons.1 hl with rfl | hl
    · cases d <;> decide
    · obtain ⟨piece, hpiece, rfl⟩ := List.mem_map.1 hl
      exact not_mem_blockLine (not_mem_of_mem_pieces hpiece) (by decide)
  · rw [List.mem_singleton.1 hl]
    decide

theorem length_blockLine_le (piece : Text) :
    (blockLine piece).length ≤ markWidth + piece.length := by
  unfold blockLine markWidth
  by_cases hnil : piece = []
  · rw [if_pos hnil]
    show 2 ≤ 3 + piece.length
    omega
  · rw [if_neg hnil, List.length_append]
    exact Nat.le_refl _

/-- **The lines of a block fit**, as soon as the width leaves room for one character
behind the mark.  A carriage return at the end of a line counts as well. -/
theorem length_le_of_mem_render {t l : Text} {d : Dialect} {o : WrapOptions} (ho : 4 ≤ o.width)
    (h : l ∈ splitOn '\n' (render t d.opening o)) : l.length ≤ o.width := by
  rw [splitOn_render] at h
  rcases List.mem_append.1 h with h | h
  · rcases List.mem_cons.1 h with rfl | h
    · have hopening : d.opening.length ≤ 3 := by cases d <;> decide
      omega
    · obtain ⟨piece, hpiece, rfl⟩ := List.mem_map.1 h
      obtain ⟨line, _, hwrapped⟩ := List.mem_flatMap.1 hpiece
      have hfits := Wrap.length_le_of_mem_wrapLine hwrapped
      have hmark := length_blockLine_le piece
      unfold markWidth at hfits hmark
      omega
  · rw [List.mem_singleton.1 h]
    show 3 ≤ o.width
    omega

/-- **Wrapped output fits the width.**  The rounds in which a line is wrapped end, after
no more rounds than it has characters, and leave its pieces; no piece is longer than the
width, where a width of zero counts as one.  Only where arithmetic is checked and the sum
of the indentation is too large for a machine word do they end without pieces.  So the
lines of every block fit, and those of every record that is written in either dialect. -/
theorem wrapped_output_fits :
    (∀ (line : Text) (width indent : Nat) (indented : Bool),
      (∀ ps, Wrap.Rounds false (max width 1) indent indented line ps
        ↔ ps = some (Wrap.wrapLine line width indent indented))
      ∧ (∀ ps, Wrap.Rounds true (max width 1) indent indented line ps
        ↔ ps = if max width 1 < line.length ∧ Wrap.Overflows indent indented line then none
            else some (Wrap.wrapLine line width indent indented))
      ∧ (Wrap.wrapLine line width indent indented).length ≤ max 1 line.length
      ∧ ∀ piece ∈ Wrap.wrapLine line width indent indented, piece.length ≤ max width 1)
    ∧ ∀ o : WrapOptions, 4 ≤ o.width →
      (∀ (t : Text) (d : Dialect), ∀ l ∈ splitOn '\n' (render t d.opening o), l.length ≤ o.width)
      ∧ ∀ r : DocRecord,
        (∀ l ∈ splitOn '\n' (Doxygen.render r o), l.length ≤ o.width)
        ∧ ∀ l ∈ splitOn '\n' (Edt.render r o), l.length ≤ o.width := by
  constructor
  · intro line width indent indented
    refine ⟨fun ps => ?_, fun ps => ?_, Wrap.length_wrapLine_le line width indent indented,
      fun _ => Wrap.length_le_of_mem_wrapLine⟩
    · rw [Wrap.rounds_iff, Wrap.outcome_false]
    · rw [Wrap.rounds_iff, Wrap.outcome]
      simp only [true_and]
  · intro o ho
    refine ⟨fun t d l => length_le_of_mem_render ho, fun r => ⟨fun l => ?_, fun l => ?_⟩⟩
    · exact length_le_of_mem_render (d := .doxygen) ho
    · exact length_le_of_mem_render (d := .edt) ho

/-- A line that is cut in the middle of a word, its rest indented as far as the width
allows; and a parameter whose comment goes on in a second line. -/
theorem wrapped_output_fits_narrow :
    let o : WrapOptions := ⟨16, 20⟩
    let egg : Param := ⟨none, "egg".toList, some "to fry".toList, some .input⟩
    let r : DocRecord := ⟨none, "Fries.".toList, none, [egg], false⟩
    Wrap.wrapLine "  scramble".toList 6 9 false
        = ["  scra".toList, "     m".toList, "     b".toList, "     l".toList, "     e".toList]
      ∧ (∀ piece ∈ Wrap.wrapLine "  scramble".toList 6 9 false, piece.length ≤ 6)
      ∧ 4 ≤ o.width
      ∧ " *             o".toList ∈ splitOn '\n' (Doxygen.render r o)
      ∧ " *             o".toList.length ≤ o.width := by
  intro o egg r
  have hmem : " *             o".toList ∈ splitOn '\n' (Doxygen.render r o) := by decide +kernel
  exact ⟨by decide +kernel, (wrapped_output_fits.1 "  scramble".toList 6 9 false).2.2.2, by decide,
    hmem, ((wrapped_output_fits.2 o (by decide)).2 r).1 _ hmem⟩

end Block
end DocAudit
