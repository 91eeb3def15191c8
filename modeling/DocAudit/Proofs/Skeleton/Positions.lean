/-
  DocAudit.Proofs.Skeleton.Positions
  ──────────────────────────────────
  **EVERY CHARACTER STAYS IN ITS PLACE, OR IS BLANKED THERE.**

  The depth at a character is that of all counted characters before it: those of the lines
  above that are no include directives, and those before it on its own line (`counted`).  It
  alone decides what the skeleton shows there (`Shows`):

      depth 0   `{` becomes `;`, every other character stays
      depth > 0  a space

  So a skeleton opens no brace, it holds a `;` for each `;` and each `{` outside of braces,
  and there is nothing left in it to be blanked: the skeleton of a skeleton is itself
  (`stubbing_keeps_positions`).
-/
import DocAudit.Proofs.Skeleton.Stub

namespace DocAudit.Skeleton

open Text

/-! ## §1. The depth at a character. -/

/-- The characters that count for the depth: those of all lines but include directives. -/
def counted (ls : List Text) : Text := (ls.filter (!isInclude ·)).flatten

theorem counted_append (as bs : List Text) : counted (as ++ bs) = counted as ++ counted bs := by
  unfold counted
  rw [List.filter_append, List.flatten_append]

theorem counted_singleton (l : Text) : counted [l] = if isInclude l then [] else l := by
  unfold counted
  cases h : isInclude l <;> simp [h]

/-- **The depth after a run of lines** is that over their counted characters. -/
theorem depthAfterLines_eq (depth : Nat) (ls : List Text) :
    depthAfterLines depth ls = depthOver depth (counted ls) := by
  induction ls generalizing depth with
  | nil => rfl
  | cons l ls ih =>
    have hline : depthAfterLine depth l = depthOver depth (counted [l]) := by
      rw [counted_singleton]
      unfold depthAfterLine
      split <;> rfl
    rw [← List.singleton_append, counted_append, depthOver_append, ← hline, ← ih]
    rfl

/-- The running depth, line by line. -/
theorem getElem?_stubTrace {depth i : Nat} {ls : List Text} {l : Text} (h : ls[i]? = some l) :
    (stubTrace depth ls)[i]?
      = some (stubLine (depthAfterLines depth (ls.take i)) l,
          depthAfterLines depth (ls.take (i + 1))) := by
  induction ls generalizing depth i with
  | nil => cases h
  | cons k ls ih =>
    cases i with
    | zero =>
      cases h
      rfl
    | succ i => exact ih h

theorem map_fst_stubTrace (depth : Nat) (ls : List Text) :
    (stubTrace depth ls).map Prod.fst = stubFrom depth ls := by
  induction ls generalizing depth with
  | nil => rfl
  | cons l ls ih => exact congrArg (stubLine depth l :: ·) (ih _)

/-! ## §2. One line. -/

/-- **What the skeleton shows of a line**, given the counted characters above it. -/
inductive Shows (above l : Text) : Text → Prop where
  /-- Nothing of an include directive. -/
  | directive : isInclude l = true → Shows above l []
  /-- A character for each character of any other line, commented out if it then begins a
  type definition. -/
  | blanked (blank : Text) : isInclude l = false → blank.length = l.length →
      (∀ j c, l[j]? = some c → blank[j]? = some
        (if depthOver 0 (above ++ l.take j) = 0 then (if c = '\x7b' then ';' else c) else ' ')) →
      Shows above l (if isTypedef blank then commentMark ++ blank else blank)

theorem length_blankLine (depth : Nat) (l : Text) : (blankLine depth l).length = l.length := by
  induction l generalizing depth with
  | nil => rfl
  | cons c l ih => exact congrArg (· + 1) (ih _)

/-- **A character is blanked by the depth before it.** -/
theorem getElem?_blankLine {depth j : Nat} {l : Text} {c : Char} (h : l[j]? = some c) :
    (blankLine depth l)[j]? = some (blanked (depthOver depth (l.take j)) c) := by
  induction l generalizing depth j with
  | nil => cases h
  | cons d l ih =>
    cases j with
    | zero =>
      cases h
      rfl
    | succ j => exact ih h

theorem shows_stubLine (above : Text) {l : Text} (h : '\n' ∉ l) :
    Shows above l (stubLine (depthOver 0 above) l) := by
  unfold stubLine
  split
  · next hinclude => exact .directive hinclude
  · next hinclude =>
    refine .blanked _ (by simpa using hinclude) (length_blankLine _ l) fun j c hc => ?_
    have hfeed : c ≠ '\n' := fun hc' => h (hc' ▸ List.mem_of_getElem? hc)
    rw [getElem?_blankLine hc, ← depthOver_append, blanked, if_neg hfeed]

/-! ## §3. Braces and semicolons. -/

/-- The characters of a text that are read at depth zero. -/
def outside (depth : Nat) : Text → Text
  | [] => []
  | c :: t => if depth = 0 then c :: outside (depthAfter depth c) t else outside (depthAfter depth c) t

theorem outside_append (depth : Nat) (a b : Text) :
    outside depth (a ++ b) = outside depth a ++ outside (depthOver depth a) b := by
  induction a generalizing depth with
  | nil => rfl
  | cons c a ih =>
    show (if depth = 0 then c :: outside _ (a ++ b) else outside _ (a ++ b))
      = (if depth = 0 then c :: outside _ a else outside _ a) ++ outside _ b
    rw [ih]
    split <;> rfl

/-- No character is blanked to an opening brace. -/
theorem blanked_ne_opening (depth : Nat) (c : Char) : blanked depth c ≠ '\x7b' := by
  unfold blanked
  split
  · next hfeed =>
    rw [hfeed]
    decide
  split
  · split
    · decide
    · assumption
  · decide

theorem not_mem_opening_blankLine (depth : Nat) (l : Text) : '\x7b' ∉ blankLine depth l := by
  induction l generalizing depth with
  | nil => exact List.not_mem_nil
  | cons c l ih =>
    show '\x7b' ∉ blanked depth c :: blankLine (depthAfter depth c) l
    rw [List.mem_cons, not_or]
    exact ⟨Ne.symm (blanked_ne_opening depth c), ih _⟩

theorem not_mem_opening_stubLine (depth : Nat) (l : Text) : '\x7b' ∉ stubLine depth l := by
  unfold stubLine
  split
  · exact List.not_mem_nil
  dsimp only
  split
  · rw [List.mem_append, not_or]
    exact ⟨by decide, not_mem_opening_blankLine depth l⟩
  · exact not_mem_opening_blankLine depth l

/-- A semicolon is shown for a semicolon or an opening brace, outside. -/
theorem count_blanked (depth : Nat) (c : Char) :
    [blanked depth c].count ';'
      = (outside depth [c]).count ';' + (outside depth [c]).count '\x7b' := by
  unfold blanked
  by_cases hdepth : depth = 0
  · by_cases hopen : c = '\x7b'
    · rw [hdepth, hopen]
      rfl
    · have hnone : [c].count '\x7b' = 0 := List.count_eq_zero.2 (by simpa using Ne.symm hopen)
      rw [hdepth, if_pos rfl, if_neg hopen, ite_self]
      show [c].count ';' = [c].count ';' + [c].count '\x7b'
      rw [hnone, Nat.add_zero]
  · unfold outside
    rw [if_neg hdepth, if_neg hdepth]
    split
    · next hfeed =>
      rw [hfeed]
      rfl
    · rfl

/-- **Semicolons of a blanked line** stand for semicolons and opening braces outside. -/
theorem count_blankLine (depth : Nat) (l : Text) :
    (blankLine depth l).count ';' = (outside depth l).count ';' + (outside depth l).count '\x7b' := by
  induction l generalizing depth with
  | nil => rfl
  | cons c l ih =>
    have hrest := ih (depthAfter depth c)
    have hone := count_blanked depth c
    rw [← List.singleton_append, outside_append, List.count_append, List.count_append]
    show ([blanked depth c] ++ blankLine (depthAfter depth c) l).count ';'
      = _ + (outside (depthAfter depth c) l).count ';'
        + (_ + (outside (depthAfter depth c) l).count '\x7b')
    rw [List.count_append, hone, hrest]
    omega

theorem count_stubLine (depth : Nat) (l : Text) :
    (stubLine depth l).count ';'
      = (outside depth (counted [l])).count ';' + (outside depth (counted [l])).count '\x7b' := by
  rw [counted_singleton]
  unfold stubLine
  split
  · rfl
  dsimp only
  split
  · rw [List.count_append, count_blankLine]
    exact Nat.zero_add _
  · exact count_blankLine depth l

/-- **Semicolons of a skeleton** stand for semicolons and opening braces outside. -/
theorem count_stubFrom (depth : Nat) (ls : List Text) :
    (stubFrom depth ls).flatten.count ';'
      = (outside depth (counted ls)).count ';' + (outside depth (counted ls)).count '\x7b' := by
  induction ls generalizing depth with
  | nil => rfl
  | cons l ls ih =>
    have hdepth : depthAfterLine depth l = depthOver depth (counted [l]) :=
      depthAfterLines_eq depth [l]
    rw [← List.singleton_append, counted_append, outside_append, List.count_append,
      List.count_append]
    show (stubLine depth l ++ (stubFrom (depthAfterLine depth l) ls).flatten).count ';' = _
    rw [List.count_append, count_stubLine, ih, hdepth]
    omega

/-! ## §4. Nothing is left to be blanked. -/

/-- A line that stubbing keeps. -/
structure Settled (l : Text) : Prop where
  /-- It opens no brace. -/
  noOpening : '\x7b' ∉ l
  /-- It is no include directive. -/
  noDirective : isInclude l = false
  /-- It begins no type definition. -/
  noTypedef : isTypedef l = false

/-- What is neither a `;` nor a space was not blanked. -/
theorem eq_of_blankLine_eq {depth : Nat} {a w : Text} (h : blankLine depth a = w) (hend : ';' ∉ w)
    (hspace : ' ' ∉ w) : a = w := by
  induction a generalizing depth w with
  | nil => exact h
  | cons c a ih =>
    obtain rfl : blanked depth c :: blankLine (depthAfter depth c) a = w := h
    rw [List.mem_cons, not_or] at hend hspace
    have hsame : c = blanked depth c := by
      have hblanked := And.intro hend.1 hspace.1
      unfold blanked at hblanked ⊢
      split
      · rfl
      · next hfeed =>
        rw [if_neg hfeed] at hblanked
        split
        · next hdepth =>
          rw [if_pos hdepth] at hblanked
          split
          · next hopen => exact absurd (by rw [if_pos hopen]) hblanked.1
          · rfl
        · next hdepth => exact absurd (by rw [if_neg hdepth]) hblanked.2
    exact List.cons_eq_cons.2 ⟨hsame, ih rfl hend.2 hspace.2⟩

/-- **Blanking makes no include directive.** -/
theorem isInclude_blankLine {depth : Nat} {l : Text} (h : isInclude l = false) :
    isInclude (blankLine depth l) = false := by
  rw [← Bool.not_eq_true]
  intro hblank
  obtain ⟨rest, hrest⟩ := List.isPrefixOf_iff_prefix.1 hblank
  obtain ⟨a, b, rfl, ha, _⟩ := exists_of_blankLine_eq_append hrest.symm
  have hsame := eq_of_blankLine_eq ha (by decide) (by decide)
  have hdirective : isInclude (a ++ b) = true := by
    rw [hsame]
    exact List.isPrefixOf_iff_prefix.2 (List.prefix_append _ b)
  rw [hdirective] at h
  cases h

/-- **A line of a skeleton is settled.** -/
theorem settled_stubLine (depth : Nat) (l : Text) : Settled (stubLine depth l) := by
  refine ⟨not_mem_opening_stubLine depth l, ?_, ?_⟩
  · unfold stubLine
    split
    · rfl
    · next hinclude =>
      dsimp only
      split
      · rfl
      · exact isInclude_blankLine (by simpa using hinclude)
  · unfold stubLine
    split
    · rfl
    · dsimp only
      split
      · rfl
      · next htypedef => simpa using htypedef

theorem depthOver_zero {l : Text} (h : '\x7b' ∉ l) : depthOver 0 l = 0 := by
  induction l with
  | nil => rfl
  | cons c l ih =>
    rw [List.mem_cons, not_or] at h
    show depthOver (depthAfter 0 c) l = 0
    rw [depthAfter_zero h.1, ih h.2]

/-- **Settled lines are kept**, at depth zero. -/
theorem stubFrom_of_settled {ls : List Text} (h : ∀ l ∈ ls, Settled l) : stubFrom 0 ls = ls := by
  induction ls with
  | nil => rfl
  | cons l ls ih =>
    obtain ⟨hopening, hdirective, htypedef⟩ := h l List.mem_cons_self
    have hdirective' : ¬isInclude l = true := by rw [hdirective]; decide
    have hkept : stubLine 0 l = l := by
      unfold stubLine
      rw [if_neg hdirective', blankLine_zero hopening]
      dsimp only
      rw [if_neg (by rw [htypedef]; decide)]
    have hdepth : depthAfterLine 0 l = 0 := by
      unfold depthAfterLine
      rw [if_neg hdirective', depthOver_zero hopening]
    rw [stubFrom, hkept, hdepth, ih fun k hk => h k (List.mem_cons_of_mem l hk)]

theorem settled_of_mem {depth : Nat} {ls : List Text} {out : Text} (h : out ∈ stubFrom depth ls) :
    Settled out := by
  obtain ⟨n, hn⟩ := List.mem_iff_getElem?.1 h
  obtain ⟨l, _, rfl⟩ := getElem?_stubFrom hn
  exact settled_stubLine _ l

/-! ## §5. The whole file. -/

/-- **STUBBING KEEPS POSITIONS, AND SETTLES.**  There is one line of the skeleton for each
line, at the depth that the counted characters above it give: nothing of an include directive,
which leaves the depth alone, and of any other line a character for each of its characters, kept
or blanked.  The skeleton opens no brace, holds one `;` for each `;` and each `{` outside of
braces, and is its own skeleton. -/
theorem stubbing_keeps_positions {ls : List Text} (hls : ∀ l ∈ ls, '\n' ∉ l) :
    (stubLines ls).length = ls.length
      ∧ stubLines ls = (stubTrace 0 ls).map Prod.fst
      ∧ (∀ i l, ls[i]? = some l → ∃ out,
          (stubTrace 0 ls)[i]? = some (out, depthOver 0 (counted (ls.take (i + 1))))
            ∧ Shows (counted (ls.take i)) l out)
      ∧ (∀ i l, ls[i]? = some l → isInclude l = true →
          depthOver 0 (counted (ls.take (i + 1))) = depthOver 0 (counted (ls.take i)))
      ∧ (∀ out ∈ stubLines ls, '\x7b' ∉ out)
      ∧ (stubLines ls).flatten.count ';'
          = (outside 0 (counted ls)).count ';' + (outside 0 (counted ls)).count '\x7b'
      ∧ stubLines (stubLines ls) = stubLines ls := by
  refine ⟨length_stubFrom 0 ls, (map_fst_stubTrace 0 ls).symm, fun i l hl => ?_,
    fun i l hl hinclude => ?_, fun out hout => (settled_of_mem hout).noOpening,
    count_stubFrom 0 ls, stubFrom_of_settled fun out hout => settled_of_mem hout⟩
  · refine ⟨_, by rw [getElem?_stubTrace hl, depthAfterLines_eq, depthAfterLines_eq], ?_⟩
    exact shows_stubLine _ (hls l (List.mem_of_getElem? hl))
  · rw [List.take_add_one, hl, counted_append, Option.toList_some, counted_singleton, if_pos hinclude,
      List.append_nil]

/-- A stray closing brace, a body around a directive, and a type definition in front of it. -/
theorem stubbing_keeps_positions_nested :
    let ls := ["\x7d egg_t", "fry(int pan) \x7b if (pan) \x7b", "#include \x7b", "typedef int x; \x7d",
      "\x7d;", "typedef struct \x7b int n; \x7d egg_t;"].map String.toList
    let skeleton := ["\x7d egg_t", "fry(int pan) ;           ", "", "                ",
      " ;", "// typedef struct ;          egg_t;"].map String.toList
    (∀ l ∈ ls, '\n' ∉ l) ∧ stubLines ls = skeleton ∧ stubLines skeleton = skeleton
      ∧ skeleton.flatten.count ';'
          = (outside 0 (counted ls)).count ';' + (outside 0 (counted ls)).count '\x7b' := by
  intro ls skeleton
  have hls : ∀ l ∈ ls, '\n' ∉ l := by decide
  have hstub : stubLines ls = skeleton := by decide
  obtain ⟨-, -, -, -, -, hcount, hsettled⟩ := stubbing_keeps_positions hls
  rw [hstub] at hcount hsettled
  exact ⟨hls, hstub, hsettled, hcount⟩

end DocAudit.Skeleton
