/-
  DocAudit.Proofs.Skeleton.Stub
  ─────────────────────────────
  **A SKELETON KEEPS EVERY WORD IN ITS PLACE.**

  Stubbing works line by line and character by character, with the depth as its only
  memory.  So a list of lines may be stubbed in two halves (`stubFrom_append`), and
  what a line of the skeleton shows of a word stood in the same line of the source,
  outside all braces (`standsOutside_of_stubLine`): blanked characters are spaces,
  an opening brace becomes a `;`, and the comment mark holds no character of a name.
-/
import DocAudit.Skeleton.Basic
import DocAudit.Proofs.Text.Lines
import DocAudit.Proofs.Text.Name

namespace DocAudit.Skeleton

open Text

/-! ## §1. Runs of lines. -/

/-- The depth after a run of lines. -/
def depthAfterLines (depth : Nat) (ls : List Text) : Nat := ls.foldl depthAfterLine depth

theorem stubFrom_append (depth : Nat) (as bs : List Text) :
    stubFrom depth (as ++ bs) = stubFrom depth as ++ stubFrom (depthAfterLines depth as) bs := by
  -- the depth is all that a line hands on to the next
  induction as generalizing depth with
  | nil => rfl
  | cons a as ih =>
    show stubLine depth a :: stubFrom (depthAfterLine depth a) (as ++ bs) = _
    rw [ih]
    rfl

theorem length_stubFrom (depth : Nat) (ls : List Text) :
    (stubFrom depth ls).length = ls.length := by
  induction ls generalizing depth with
  | nil => rfl
  | cons l ls ih =>
    show (stubFrom (depthAfterLine depth l) ls).length + 1 = _
    rw [ih]
    rfl

/-- A line of a skeleton is the stub of the line with the same number, begun at the
depth after the lines before it. -/
theorem getElem?_stubFrom {depth n : Nat} {ls : List Text} {out : Text}
    (h : (stubFrom depth ls)[n]? = some out) :
    ∃ l, ls[n]? = some l ∧ out = stubLine (depthAfterLines depth (ls.take n)) l := by
  induction ls generalizing depth n with
  | nil => cases h
  | cons l ls ih =>
    cases n with
    | zero => exact ⟨l, rfl, (Option.some.inj h).symm⟩
    | succ n => exact ih h

/-! ## §2. Characters of a line. -/

theorem depthOver_append (depth : Nat) (a b : Text) :
    depthOver depth (a ++ b) = depthOver (depthOver depth a) b := List.foldl_append

/-- Inside braces every character but a line feed becomes a space. -/
theorem blanked_inside {depth : Nat} (hdepth : 0 < depth) {c : Char} (hfeed : '\n' ≠ c) :
    blanked depth c = ' ' := by
  unfold blanked
  rw [if_neg (Ne.symm hfeed), if_neg (Nat.ne_of_gt hdepth)]

/-- At depth zero there is nothing to close. -/
theorem depthAfter_zero {c : Char} (h : '\x7b' ≠ c) : depthAfter 0 c = 0 := by
  unfold depthAfter
  rw [if_neg (Ne.symm h), Nat.zero_sub, ite_self]

/-- At depth zero a line that opens no brace is kept. -/
theorem blankLine_zero {l : Text} (h : '\x7b' ∉ l) : blankLine 0 l = l := by
  induction l with
  | nil => rfl
  | cons c l ih =>
    rw [List.mem_cons, not_or] at h
    have hkeep : blanked 0 c = c := by
      unfold blanked
      rw [if_pos rfl, if_neg (Ne.symm h.1), ite_self]
    show blanked 0 c :: blankLine (depthAfter 0 c) l = _
    rw [depthAfter_zero h.1, hkeep, ih h.2]

/-- Stubbing makes no line feed. -/
theorem not_mem_blankLine {depth : Nat} {l : Text} (h : '\n' ∉ l) : '\n' ∉ blankLine depth l := by
  induction l generalizing depth with
  | nil => exact h
  | cons c l ih =>
    rw [List.mem_cons, not_or] at h
    show '\n' ∉ blanked depth c :: blankLine (depthAfter depth c) l
    rw [List.mem_cons, not_or]
    refine ⟨?_, ih h.2⟩
    unfold blanked
    rw [if_neg (Ne.symm h.1)]
    split
    · split
      · decide
      · exact h.1
    · decide

theorem not_mem_stubLine {depth : Nat} {l : Text} (h : '\n' ∉ l) : '\n' ∉ stubLine depth l := by
  unfold stubLine
  split
  · exact List.not_mem_nil
  dsimp only
  split
  · rw [List.mem_append, not_or]
    exact ⟨by decide, not_mem_blankLine h⟩
  · exact not_mem_blankLine h

theorem not_mem_of_mem_stubFrom {depth : Nat} {ls : List Text} (h : ∀ l ∈ ls, '\n' ∉ l)
    {out : Text} (hout : out ∈ stubFrom depth ls) : '\n' ∉ out := by
  obtain ⟨n, hn⟩ := List.mem_iff_getElem?.1 hout
  obtain ⟨l, hl, rfl⟩ := getElem?_stubFrom hn
  exact not_mem_stubLine (h l (List.mem_of_getElem? hl))

/-- A line whose blanking is cut in two is cut in two there. -/
theorem exists_of_blankLine_eq_append {depth : Nat} {l x y : Text}
    (h : blankLine depth l = x ++ y) :
    ∃ a b, l = a ++ b ∧ blankLine depth a = x ∧ blankLine (depthOver depth a) b = y := by
  induction x generalizing depth l with
  | nil => exact ⟨[], l, rfl, rfl, h⟩
  | cons c x ih =>
    cases l with
    | nil => cases h
    | cons d l =>
      obtain ⟨hc, hrest⟩ := List.cons.inj h
      obtain ⟨a, b, hl, ha, hb⟩ := ih hrest
      refine ⟨d :: a, b, by rw [hl]; rfl, ?_, hb⟩
      show blanked depth d :: blankLine (depthAfter depth d) a = _
      rw [hc, ha]

/-- A character of a name in a skeleton is that character of the source, at depth
zero, and leaves the depth there. -/
theorem of_isNameChar_blanked {depth : Nat} {c : Char} (h : isNameChar (blanked depth c) = true) :
    depth = 0 ∧ blanked depth c = c ∧ depthAfter depth c = 0 := by
  have hfeed : isNameChar '\n' = false := by decide
  have hspace : isNameChar ' ' = false := by decide
  have hend : isNameChar ';' = false := by decide
  have hclose : isNameChar '\x7d' = false := by decide
  -- a blanked character is a line feed, a `;`, a space or itself
  unfold blanked at h ⊢
  split at h
  · next hc =>
    rw [hc, hfeed] at h
    cases h
  split at h
  · next hdepth =>
    split at h
    · rw [hend] at h
      cases h
    · next hopen =>
      rw [if_neg ‹_›, if_pos hdepth, if_neg hopen]
      refine ⟨hdepth, rfl, ?_⟩
      unfold depthAfter
      rw [if_neg hopen, if_neg, hdepth]
      -- a closing brace would lower the depth, but it is no character of a name
      rintro rfl
      rw [hclose] at h
      cases h
  · rw [hspace] at h
    cases h

/-- A word stands in a line outside all braces: the depth is zero before it and after
each of its characters. -/
def StandsOutside (depth : Nat) (line word : Text) : Prop :=
  ∃ before after, line = before ++ word ++ after
    ∧ ∀ upTo, upTo <+: word → depthOver depth (before ++ upTo) = 0

/-- What a blanked line shows of a name is that name, outside all braces. -/
theorem of_blankLine_eq_name {depth : Nat} {b w : Text} (hne : w ≠ [])
    (hw : ∀ c ∈ w, isNameChar c = true) (h : blankLine depth b = w) :
    b = w ∧ ∀ upTo, upTo <+: w → depthOver depth upTo = 0 := by
  induction w generalizing depth b with
  | nil => exact absurd rfl hne
  | cons c w ih =>
    cases b with
    | nil => cases h
    | cons d b =>
      obtain ⟨hd, hrest⟩ := List.cons.inj h
      have hchar : isNameChar (blanked depth d) = true := by
        rw [hd]
        exact hw c List.mem_cons_self
      obtain ⟨hdepth, hsame, hafter⟩ := of_isNameChar_blanked hchar
      rw [hafter] at hrest
      have hdc : d = c := hsame.symm.trans hd
      -- the rest is a shorter name that begins at depth zero, or nothing
      have htail : b = w ∧ ∀ upTo, upTo <+: w → depthOver 0 upTo = 0 := by
        by_cases hnil : w = []
        · rw [hnil] at hrest ⊢
          cases b with
          | nil => exact ⟨rfl, fun upTo hp => by rw [List.prefix_nil.1 hp]; rfl⟩
          | cons e b => cases hrest
        · exact ih hnil (fun e he => hw e (List.mem_cons_of_mem _ he)) hrest
      refine ⟨by rw [hdc, htail.1], fun upTo hp => ?_⟩
      cases upTo with
      | nil => exact hdepth
      | cons e upTo =>
        obtain ⟨hec, hp'⟩ := List.cons_prefix_cons.1 hp
        show depthOver (depthAfter depth e) upTo = 0
        rw [hec, ← hdc, hafter]
        exact htail.2 upTo hp'

/-- **A name in a line of the skeleton stands in the line of the source**, outside all
braces, and that line is no include directive. -/
theorem standsOutside_of_stubLine {depth : Nat} {l x w y : Text}
    (h : stubLine depth l = x ++ w ++ y) (hw : isIdentifier w = true) :
    isInclude l = false ∧ StandsOutside depth l w := by
  have hne := ne_nil_of_isIdentifier hw
  have hall : ∀ c ∈ w, isNameChar c = true := fun c hc => isNameChar_of_mem hw hc
  -- first for a line that is only blanked: cut it before the word and behind it
  have hblank : ∀ x', blankLine depth l = x' ++ w ++ y → StandsOutside depth l w := by
    intro x' hx'
    rw [List.append_assoc] at hx'
    obtain ⟨a, r, hl, _, hr⟩ := exists_of_blankLine_eq_append hx'
    obtain ⟨b, after, hrsplit, hb, _⟩ := exists_of_blankLine_eq_append hr
    obtain ⟨rfl, hdepth⟩ := of_blankLine_eq_name hne hall hb
    refine ⟨a, after, by rw [hl, hrsplit, List.append_assoc], fun upTo hp => ?_⟩
    rw [depthOver_append]
    exact hdepth upTo hp
  unfold stubLine at h
  split at h
  · have hnil := List.append_eq_nil_iff.1 h.symm
    exact absurd (List.append_eq_nil_iff.1 hnil.1).2 hne
  · next hinclude =>
    refine ⟨by rwa [Bool.not_eq_true] at hinclude, ?_⟩
    dsimp only at h
    split at h
    · -- the comment mark holds no character of a name, so the name begins behind it
      rw [List.append_assoc] at h
      rcases List.append_eq_append_iff.1 h with ⟨a, _, ha⟩ | ⟨m, hmark, hm⟩
      · exact hblank a (by rw [ha, List.append_assoc])
      · cases m with
        | nil => exact hblank [] hm.symm
        | cons e m =>
          obtain ⟨c, w', rfl⟩ := List.exists_cons_of_ne_nil hne
          rw [List.cons_append, List.cons_append, List.cons.injEq] at hm
          have hmem : c ∈ commentMark := by
            rw [hmark, hm.1]
            exact List.mem_append_right x List.mem_cons_self
          have hnone : ∀ e ∈ commentMark, isNameChar e = false := by decide
          have hname := hall c List.mem_cons_self
          rw [hnone c hmem] at hname
          cases hname
    · exact hblank x h

end DocAudit.Skeleton
