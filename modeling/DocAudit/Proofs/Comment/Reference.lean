/-
  DocAudit.Proofs.Comment.Reference
  ─────────────────────────────────
  **WHICH CHANGES A REFERENCE SURVIVES.**

  A search finds its steps in a line if they lead from one word boundary of the line
  to another (`isFound_iff`).  That is a matter of the stretch between the two and of
  its neighbours, so what is found stays found

      in a longer line      a blank in front of the old line and one behind it keep
                            both boundaries (`isFound_within`)
      in other letters      no class that a step asks for tells a capital from its
                            small letter (`isFound_lower`)

  and further phrases are only asked for beside the known ones.
-/
import DocAudit.Comment.Reference
import DocAudit.Proofs.Text.Case
import DocAudit.Proofs.Text.Marks

namespace DocAudit

open Marks (Holds Stands)

namespace Text

/-! ## §1. A text within a longer one. -/

/-- The text between two blanks, with something before the first and behind the second. -/
def within (p t s : Text) : Text := p ++ ' ' :: t ++ ' ' :: s

theorem getElem?_within (p t s : Text) {i : Nat} (hi : i < t.length) :
    (within p t s)[p.length + 1 + i]? = t[i]? := by
  have hlen : (p ++ [' ']).length = p.length + 1 := List.length_append
  have htext : within p t s = p ++ [' '] ++ (t ++ ' ' :: s) := by simp [within]
  rw [htext, List.getElem?_append_right (by omega), hlen, Nat.add_sub_cancel_left,
    List.getElem?_append_left hi]

theorem wordAt_within (p t s : Text) {i : Nat} (hi : i ≤ t.length) :
    wordAt (within p t s) (p.length + 1 + i) = wordAt t i := by
  rcases Nat.lt_or_eq_of_le hi with hi | rfl
  · rw [wordAt, getElem?_within p t s hi, wordAt]
  · -- behind the text stands a blank, which is no word character
    have hblank : (within p t s)[p.length + 1 + t.length]? = some ' ' := by
      have hlen : (p ++ ' ' :: t).length = p.length + 1 + t.length := by simp; omega
      rw [within, List.getElem?_append_right (by omega), hlen, Nat.sub_self]
      rfl
    rw [wordAt, hblank, wordAt, List.getElem?_eq_none (Nat.le_refl _)]
    rfl

theorem edge_within (p t s : Text) {i : Nat} (h : Edge t i) :
    Edge (within p t s) (p.length + 1 + i) := by
  have hi : i ≤ t.length := le_of_edge h
  unfold Edge at h ⊢
  rw [wordAt_within p t s hi]
  cases i with
  | zero =>
    -- before the text stands a blank as well
    have hblank : (within p t s)[p.length]? = some ' ' := by
      rw [within, List.append_assoc, List.getElem?_append_right (Nat.le_refl _), Nat.sub_self]
      rfl
    have hbefore : wordBefore false (within p t s) (p.length + 1) = false := by
      rw [wordBefore, wordAt, hblank]
      rfl
    rwa [Nat.add_zero, hbefore]
  | succ i =>
    have hbefore : wordBefore false (within p t s) (p.length + 1 + (i + 1)) = wordAt t i :=
      wordAt_within p t s (Nat.le_of_succ_le hi)
    rwa [hbefore]

end Text

namespace Reference

open Text

/-! ## §2. What a search finds. -/

/-- A step leads from position `i` of the line to position `j`. -/
def Step.Moves (line : Text) : Step → Nat → Nat → Prop
  | .one p, i, j => j = i + 1 ∧ Stands p line i j
  | .run p, i, j => i < j ∧ Stands p line i j
  | .any p, i, j => i ≤ j ∧ Stands p line i j

/-- The steps lead from position `i` of the line to position `j`, one after another. -/
def Leads (line : Text) : List Step → Nat → Nat → Prop
  | [], i, j => i = j
  | s :: ss, i, j => ∃ k, s.Moves line i k ∧ Leads line ss k j

theorem length_move {line : Text} {m : Marks} (hm : m.length = line.length + 1) (s : Step) :
    (s.move line m).length = line.length + 1 := by
  cases s with
  | one p => exact Marks.length_overOne p hm
  | run p => exact Marks.length_overRun p hm
  | any p => exact Marks.length_overAny p hm

/-- A step moves each marked position on its own. -/
theorem holds_move {line : Text} {m : Marks} (hm : m.length = line.length + 1) (s : Step) {j : Nat} :
    Holds (s.move line m) j ↔ ∃ i, Holds m i ∧ s.Moves line i j := by
  cases s with
  | one p => exact Marks.holds_overOne
  | run p => exact Marks.holds_overRun hm
  | any p => exact Marks.holds_overAny hm

/-- A search reaches the positions that its steps lead to. -/
theorem holds_foldl_move {line : Text} {m : Marks} (hm : m.length = line.length + 1)
    (steps : List Step) {j : Nat} :
    Holds (steps.foldl (Step.move line) m) j ↔ ∃ i, Holds m i ∧ Leads line steps i j := by
  induction steps generalizing m with
  | nil => exact ⟨fun h => ⟨j, h, rfl⟩, fun ⟨_, hi, hij⟩ => hij ▸ hi⟩
  | cons s ss ih =>
    rw [List.foldl_cons, ih (length_move hm s)]
    constructor
    · rintro ⟨k, hk, hleads⟩
      obtain ⟨i, hi, hmoves⟩ := (holds_move hm s).1 hk
      exact ⟨i, hi, k, hmoves, hleads⟩
    · rintro ⟨i, hi, k, hmoves, hleads⟩
      exact ⟨k, (holds_move hm s).2 ⟨i, hi, hmoves⟩, hleads⟩

/-- **What is found** leads from one word boundary to another. -/
theorem isFound_iff {steps : List Step} {line : Text} :
    isFound steps line = true ↔ ∃ i j, Edge line i ∧ Leads line steps i j ∧ Edge line j := by
  unfold isFound
  rw [Marks.isInhabited_iff]
  have hlen : (boundaries line).length = line.length + 1 := length_boundariesFrom false line
  constructor
  · rintro ⟨j, hj⟩
    obtain ⟨hreached, hedge⟩ := Marks.holds_inter.1 hj
    obtain ⟨i, hi, hleads⟩ := (holds_foldl_move hlen steps).1 hreached
    exact ⟨i, j, holds_boundaries.1 hi, hleads, holds_boundaries.1 hedge⟩
  · rintro ⟨i, j, hi, hleads, hj⟩
    have hreached := (holds_foldl_move hlen steps).2 ⟨i, holds_boundaries.2 hi, hleads⟩
    exact ⟨j, Marks.holds_inter.2 ⟨hreached, holds_boundaries.2 hj⟩⟩

/-! ## §3. In a longer line. -/

theorem stands_within {p : Char → Bool} {line : Text} {i j : Nat} (h : Stands p line i j)
    (before after : Text) :
    Stands p (within before line after) (before.length + 1 + i) (before.length + 1 + j) := by
  intro k hik hkj
  obtain ⟨k, rfl⟩ : ∃ k', k = before.length + 1 + k' := ⟨k - (before.length + 1), by omega⟩
  obtain ⟨a, ha, hp⟩ := h k (by omega) (by omega)
  have hk : k < line.length := (List.getElem?_eq_some_iff.1 ha).1
  exact ⟨a, (getElem?_within before line after hk).trans ha, hp⟩

theorem Step.Moves.within {s : Step} {line : Text} {i j : Nat} (h : s.Moves line i j)
    (before after : Text) :
    s.Moves (Text.within before line after) (before.length + 1 + i) (before.length + 1 + j) := by
  cases s with
  | one p => exact ⟨by rw [h.1]; rfl, stands_within h.2 before after⟩
  | run p => exact ⟨Nat.add_lt_add_left h.1 _, stands_within h.2 before after⟩
  | any p => exact ⟨Nat.add_le_add_left h.1 _, stands_within h.2 before after⟩

theorem Leads.within {steps : List Step} {line : Text} {i j : Nat} (h : Leads line steps i j)
    (before after : Text) :
    Leads (Text.within before line after) steps (before.length + 1 + i) (before.length + 1 + j) := by
  induction steps generalizing i with
  | nil => exact congrArg (before.length + 1 + ·) h
  | cons s ss ih =>
    obtain ⟨k, hmoves, hleads⟩ := h
    exact ⟨before.length + 1 + k, hmoves.within before after, ih hleads⟩

/-- **What is found in a line is found in a longer one**, if blanks keep the line apart
from what is added. -/
theorem isFound_within {steps : List Step} {line : Text} (h : isFound steps line = true)
    (before after : Text) : isFound steps (within before line after) = true := by
  obtain ⟨i, j, hi, hleads, hj⟩ := isFound_iff.1 h
  exact isFound_iff.2 ⟨_, _, edge_within before line after hi, hleads.within before after,
    edge_within before line after hj⟩

/-! ## §4. In other letters. -/

/-- The class of a step does not tell a capital from its small letter. -/
def Step.IgnoresCase : Step → Prop
  | .one p | .run p | .any p => ∀ c : Char, p c.toLower = p c

theorem Step.IgnoresCase.move_lower {s : Step} (h : s.IgnoresCase) (line : Text) (m : Marks) :
    s.move (lower line) m = s.move line m := by
  cases s with
  | one p => exact (Marks.overOne_map Char.toLower p line m).trans (by rw [funext h]; rfl)
  | run p =>
    exact (Marks.overRunFrom_map Char.toLower p false line m).trans (by rw [funext h]; rfl)
  | any p => exact (Marks.overAny_map Char.toLower p line m).trans (by rw [funext h]; rfl)

theorem isFound_lower {steps : List Step} (h : ∀ s ∈ steps, s.IgnoresCase) (line : Text) :
    isFound steps (lower line) = isFound steps line := by
  have hfold : ∀ m : Marks, steps.foldl (Step.move (lower line)) m
      = steps.foldl (Step.move line) m := by
    intro m
    induction steps generalizing m with
    | nil => rfl
    | cons s ss ih =>
      rw [List.foldl_cons, List.foldl_cons, (h s List.mem_cons_self).move_lower,
        ih fun r hr => h r (List.mem_cons_of_mem s hr)]
  unfold isFound
  simp only [boundaries_lower, hfold]

theorem ignoresCase_phrase (t : Text) : ∀ s ∈ phrase t, s.IgnoresCase := by
  intro s hs
  obtain ⟨a, -, rfl⟩ := List.mem_map.1 hs
  by_cases ha : a = ' '
  · rw [if_pos ha]
    exact isBlank_toLower
  · rw [if_neg ha]
    exact fun c => congrArg (fold a == ·) (fold_toLower c)

theorem ignoresCase_header : ∀ s ∈ header, s.IgnoresCase := by
  intro s hs
  rcases List.mem_cons.1 hs with rfl | hs
  · intro c
    show isPathChar c.toLower = isPathChar c
    rw [isPathChar, fold_toLower, isPathChar]
  · exact ignoresCase_phrase _ s hs

theorem ignoresCase_implementing : ∀ s ∈ implementing, s.IgnoresCase := by
  intro s hs
  have hstart : (Step.one isCallbackStart).IgnoresCase :=
    fun c => congrArg isNameStart (fold_toLower c)
  have hchar : (Step.any isCallbackChar).IgnoresCase :=
    fun c => congrArg isNameChar (fold_toLower c)
  rcases List.mem_append.1 hs with hs | hs
  · rcases List.mem_append.1 hs with hs | hs
    · exact ignoresCase_phrase _ s hs
    · rcases List.mem_cons.1 hs with rfl | hs
      · exact hstart
      · rw [List.mem_singleton.1 hs]
        exact hchar
  · exact ignoresCase_phrase _ s hs

/-! ## §5. Lines that point elsewhere. -/

variable {extra more : List Text} {line : Text}

theorem isReferenceLine_iff : isReferenceLine extra line = true
    ↔ (isFound header line = true ∧ ∃ p ∈ phrasesWith extra, isFound (phrase p) line = true)
      ∨ isFound implementing line = true := by
  rw [isReferenceLine, Bool.or_eq_true, Bool.and_eq_true, List.any_eq_true]

theorem isReferenceLine_within (h : isReferenceLine extra line = true) (before after : Text) :
    isReferenceLine extra (within before line after) = true := by
  rw [isReferenceLine_iff] at h ⊢
  rcases h with ⟨hheader, p, hp, hphrase⟩ | himplements
  · exact .inl ⟨isFound_within hheader before after, p, hp, isFound_within hphrase before after⟩
  · exact .inr (isFound_within himplements before after)

theorem isReferenceLine_mono (hmore : extra ⊆ more) (h : isReferenceLine extra line = true) :
    isReferenceLine more line = true := by
  rw [isReferenceLine_iff] at h ⊢
  rcases h with ⟨hheader, p, hp, hphrase⟩ | himplements
  · refine .inl ⟨hheader, p, ?_, hphrase⟩
    exact List.mem_append.2 ((List.mem_append.1 hp).imp_right fun hp => hmore hp)
  · exact .inr himplements

theorem isReferenceLine_lower (extra : List Text) (line : Text) :
    isReferenceLine extra (lower line) = isReferenceLine extra line := by
  unfold isReferenceLine
  simp only [isFound_lower ignoresCase_header, isFound_lower ignoresCase_implementing,
    isFound_lower (ignoresCase_phrase _)]

theorem isReference_mono (hmore : extra ⊆ more) {ls : List Text}
    (h : isReference extra ls = true) : isReference more ls = true := by
  obtain ⟨line, hline, href⟩ := List.any_eq_true.1 h
  exact List.any_eq_true.2 ⟨line, hline, isReferenceLine_mono hmore href⟩

/-- **A reference stays one** between blanks in a longer line and for a classifier that
knows further phrases, so that a reference of the first dialect is one of the second;
and letters of another case change no answer. -/
theorem reference_is_stable (extra : List Text) (line : Text) :
    (isReferenceLine extra line = true →
        ∀ p s, isReferenceLine extra (p ++ ' ' :: line ++ ' ' :: s) = true)
      ∧ (isReferenceLine extra line = true →
        ∀ more, extra ⊆ more → isReferenceLine more line = true)
      ∧ (∀ ls, isReference (extraPhrases .doxygen) ls = true →
        isReference (extraPhrases .edt) ls = true)
      ∧ ∀ other, lower other = lower line →
        isReferenceLine extra other = isReferenceLine extra line := by
  refine ⟨isReferenceLine_within, fun h more hmore => isReferenceLine_mono hmore h,
    fun ls => isReference_mono (List.nil_subset _), fun other hother => ?_⟩
  rw [← isReferenceLine_lower extra other, hother, isReferenceLine_lower]

/-- A line alone, between others, beside a further phrase, in a comment and in capitals. -/
theorem reference_is_stable_see :
    isReferenceLine [] "see egg.h".toList = true
      ∧ isReferenceLine [] ("pan.h+".toList ++ ' ' :: "see egg.h".toList ++ ' ' :: "h".toList) = true
      ∧ isReferenceLine ["edt in".toList] "see egg.h".toList = true
      ∧ isReference (extraPhrases .edt) ["".toList, "see egg.h".toList] = true
      ∧ isReferenceLine [] "SEE Egg.H".toList = true := by
  have hline : isReferenceLine [] "see egg.h".toList = true := by decide
  obtain ⟨hwithin, hmore, hdialect, hcase⟩ := reference_is_stable [] "see egg.h".toList
  refine ⟨hline, hwithin hline _ _, hmore hline _ (List.nil_subset _), hdialect _ (by decide), ?_⟩
  exact (hcase "SEE Egg.H".toList (by decide)).trans hline

end Reference
end DocAudit
