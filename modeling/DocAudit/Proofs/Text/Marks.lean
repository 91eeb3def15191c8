/-
  DocAudit.Proofs.Text.Marks
  ──────────────────────────
  **WHAT A SEARCH WITH MARKS REACHES.**

  A mark says no more than that its position may have been reached.  So each move of
  a whole set is told by single positions (`Holds`) and by the stretches of the list
  between two of them (`Stands`):

      holds_overOne   one member further
      holds_overRun   one member or more
      holds_overAny   any number of members

  The boundaries of a text are a set of positions too (`holds_boundaries`): a position
  is in it if a word character stands on exactly one side.
-/
import DocAudit.Text.Marks
import DocAudit.Text.WordChar

namespace DocAudit.Marks

variable {α β : Type}

/-! ## §1. Positions and stretches. -/

/-- The position is one of the set. -/
def Holds (m : Marks) (i : Nat) : Prop := m[i]? = some true

/-- Every member from position `i` up to `j` satisfies `p`. -/
def Stands (p : α → Bool) (t : List α) (i j : Nat) : Prop :=
  ∀ k, i ≤ k → k < j → ∃ a, t[k]? = some a ∧ p a = true

theorem stands_self (p : α → Bool) (t : List α) (i : Nat) : Stands p t i i :=
  fun _ hik hki => absurd hki (Nat.not_lt.2 hik)

theorem stands_succ_iff {p : α → Bool} {t : List α} {i : Nat} :
    Stands p t i (i + 1) ↔ ∃ a, t[i]? = some a ∧ p a = true := by
  constructor
  · exact fun h => h i (Nat.le_refl i) (Nat.lt_succ_self i)
  · intro h k hik hki
    obtain rfl : i = k := by omega
    exact h

/-- A stretch that goes beyond the end holds nothing. -/
theorem not_stands_nil (p : α → Bool) {i j : Nat} (hij : i < j) : ¬Stands p [] i j := by
  intro h
  obtain ⟨a, ha, _⟩ := h i (Nat.le_refl i) hij
  exact absurd ha (by simp)

theorem stands_cons_succ_iff {p : α → Bool} {a : α} {t : List α} {i j : Nat} :
    Stands p (a :: t) (i + 1) (j + 1) ↔ Stands p t i j := by
  constructor
  · intro h k hik hkj
    simpa using h (k + 1) (Nat.succ_le_succ hik) (Nat.succ_lt_succ hkj)
  · intro h k hik hkj
    obtain ⟨k, rfl⟩ : ∃ k', k = k' + 1 := ⟨k - 1, by omega⟩
    simpa using h k (Nat.le_of_succ_le_succ hik) (Nat.lt_of_succ_lt_succ hkj)

theorem stands_cons_zero_iff {p : α → Bool} {a : α} {t : List α} {j : Nat} :
    Stands p (a :: t) 0 (j + 1) ↔ p a = true ∧ Stands p t 0 j := by
  rw [← stands_cons_succ_iff (a := a) (t := t)]
  constructor
  · intro h
    obtain ⟨b, hb, hp⟩ := h 0 (Nat.le_refl 0) (Nat.succ_pos j)
    cases hb
    exact ⟨hp, fun k hk => h k (Nat.zero_le k)⟩
  · rintro ⟨hp, h⟩ k - hkj
    cases k with
    | zero => exact ⟨a, rfl, hp⟩
    | succ k => exact h (k + 1) (Nat.succ_le_succ (Nat.zero_le k)) hkj

/-! ## §2. Sets of positions. -/

theorem holds_inter {m k : Marks} {i : Nat} : (m.inter k).Holds i ↔ m.Holds i ∧ k.Holds i := by
  unfold Holds inter
  rw [List.getElem?_zipWith_eq_some]
  constructor
  · rintro ⟨a, b, ha, hb, hab⟩
    rw [Bool.and_eq_true] at hab
    exact ⟨hab.1 ▸ ha, hab.2 ▸ hb⟩
  · rintro ⟨ha, hb⟩
    exact ⟨true, true, ha, hb, rfl⟩

/-- Sets of positions of one list are joined position by position. -/
theorem holds_union {m k : Marks} (hlen : m.length = k.length) {i : Nat} :
    (m.union k).Holds i ↔ m.Holds i ∨ k.Holds i := by
  unfold Holds union
  rw [List.getElem?_zipWith_eq_some]
  constructor
  · rintro ⟨a, b, ha, hb, hab⟩
    rcases (Bool.or_eq_true a b).mp hab with rfl | rfl
    · exact .inl ha
    · exact .inr hb
  · rintro (ha | hb)
    · have hi : i < k.length := hlen ▸ (List.getElem?_eq_some_iff.1 ha).1
      exact ⟨true, k[i], ha, List.getElem?_eq_getElem hi, rfl⟩
    · have hi : i < m.length := hlen ▸ (List.getElem?_eq_some_iff.1 hb).1
      exact ⟨m[i], true, List.getElem?_eq_getElem hi, hb, Bool.or_true _⟩

theorem isInhabited_iff {m : Marks} : m.isInhabited = true ↔ ∃ i, m.Holds i := by
  rw [isInhabited, List.any_eq_true]
  constructor
  · rintro ⟨b, hb, rfl⟩
    exact List.mem_iff_getElem?.1 hb
  · exact fun h => ⟨true, List.mem_iff_getElem?.2 h, rfl⟩

/-! ## §3. Moving a set. -/

theorem length_overOne (p : α → Bool) {t : List α} {m : Marks}
    (hm : m.length = t.length + 1) : (m.overOne p t).length = t.length + 1 := by
  rw [overOne, List.length_cons, List.length_zipWith, hm, Nat.min_eq_left (Nat.le_succ _)]

theorem length_overRunFrom (p : α → Bool) (here : Bool) {t : List α} {m : Marks}
    (hm : m.length = t.length + 1) : (overRunFrom p here t m).length = t.length + 1 := by
  induction t generalizing here m with
  | nil => cases m <;> rfl
  | cons a t ih =>
    cases m with
    | nil => exact absurd hm (by simp)
    | cons b m => exact congrArg (· + 1) (ih _ (Nat.succ.inj hm))

theorem length_overRun (p : α → Bool) {t : List α} {m : Marks} (hm : m.length = t.length + 1) :
    (m.overRun p t).length = t.length + 1 := length_overRunFrom p false hm

theorem length_overAny (p : α → Bool) {t : List α} {m : Marks} (hm : m.length = t.length + 1) :
    (m.overAny p t).length = t.length + 1 := by
  rw [overAny, union, List.length_zipWith, length_overRun p hm, hm, Nat.min_self]

/-- **One member further.** -/
theorem holds_overOne {p : α → Bool} {t : List α} {m : Marks} {j : Nat} :
    (m.overOne p t).Holds j ↔ ∃ i, m.Holds i ∧ j = i + 1 ∧ Stands p t i j := by
  cases j with
  | zero => simp [Holds, overOne]
  | succ j =>
    unfold Holds overOne
    rw [List.getElem?_cons_succ, List.getElem?_zipWith_eq_some]
    constructor
    · rintro ⟨a, b, ha, hb, hab⟩
      rw [Bool.and_eq_true] at hab
      exact ⟨j, hab.1 ▸ hb, rfl, stands_succ_iff.2 ⟨a, ha, hab.2⟩⟩
    · rintro ⟨i, hi, hj, hstands⟩
      obtain rfl := Nat.succ.inj hj
      obtain ⟨a, ha, hp⟩ := stands_succ_iff.1 hstands
      exact ⟨a, true, ha, hi, hp⟩

/-- The flag stands for a stretch that began before the list. -/
theorem holds_overRunFrom {p : α → Bool} {here : Bool} {t : List α} {m : Marks}
    (hm : m.length = t.length + 1) {j : Nat} :
    (overRunFrom p here t m).Holds j
      ↔ (here = true ∧ Stands p t 0 j) ∨ ∃ i, m.Holds i ∧ i < j ∧ Stands p t i j := by
  -- at each member the stretch goes on, begins there, or ends
  induction t generalizing here m j with
  | nil =>
    cases j with
    | zero => simp [overRunFrom, Holds, stands_self]
    | succ j =>
      refine iff_of_false (by simp [overRunFrom, Holds]) ?_
      rintro (⟨_, h⟩ | ⟨i, _, hij, h⟩)
      · exact not_stands_nil p (Nat.succ_pos j) h
      · exact not_stands_nil p hij h
  | cons a t ih =>
    cases m with
    | nil => exact absurd hm (by simp)
    | cons b m =>
      cases j with
      | zero => simp [overRunFrom, Holds, stands_self]
      | succ j =>
        show (overRunFrom p ((here || b) && p a) t m).Holds j ↔ _
        rw [ih (Nat.succ.inj hm), Bool.and_eq_true, Bool.or_eq_true, stands_cons_zero_iff]
        constructor
        · rintro (⟨⟨hhere | hb, hp⟩, h⟩ | ⟨i, hi, hij, h⟩)
          · exact .inl ⟨hhere, hp, h⟩
          · exact .inr ⟨0, congrArg some hb, Nat.succ_pos j, stands_cons_zero_iff.2 ⟨hp, h⟩⟩
          · exact .inr ⟨i + 1, hi, Nat.succ_lt_succ hij, stands_cons_succ_iff.2 h⟩
        · rintro (⟨hhere, hp, h⟩ | ⟨i, hi, hij, h⟩)
          · exact .inl ⟨⟨.inl hhere, hp⟩, h⟩
          · cases i with
            | zero =>
              obtain ⟨hp, h⟩ := stands_cons_zero_iff.1 h
              exact .inl ⟨⟨.inr (Option.some.inj hi), hp⟩, h⟩
            | succ i =>
              exact .inr ⟨i, hi, Nat.lt_of_succ_lt_succ hij, stands_cons_succ_iff.1 h⟩

/-- **One member or more.** -/
theorem holds_overRun {p : α → Bool} {t : List α} {m : Marks} (hm : m.length = t.length + 1)
    {j : Nat} :
    (m.overRun p t).Holds j ↔ ∃ i, m.Holds i ∧ i < j ∧ Stands p t i j := by
  rw [overRun, holds_overRunFrom hm]
  simp

/-- **Any number of members.** -/
theorem holds_overAny {p : α → Bool} {t : List α} {m : Marks} (hm : m.length = t.length + 1)
    {j : Nat} :
    (m.overAny p t).Holds j ↔ ∃ i, m.Holds i ∧ i ≤ j ∧ Stands p t i j := by
  rw [overAny, holds_union (hm.trans (length_overRun p hm).symm), holds_overRun hm]
  constructor
  · rintro (hj | ⟨i, hi, hij, h⟩)
    · exact ⟨j, hj, Nat.le_refl j, stands_self p t j⟩
    · exact ⟨i, hi, Nat.le_of_lt hij, h⟩
  · rintro ⟨i, hi, hij, h⟩
    rcases Nat.lt_or_eq_of_le hij with hij | rfl
    · exact .inr ⟨i, hi, hij, h⟩
    · exact .inl hi

/-! ## §4. Members that are changed one by one. -/

theorem overOne_map (f : α → β) (p : β → Bool) (t : List α) (m : Marks) :
    m.overOne p (t.map f) = m.overOne (fun a => p (f a)) t := by
  rw [overOne, overOne, List.zipWith_map_left]

theorem overRunFrom_map (f : α → β) (p : β → Bool) (here : Bool) (t : List α) (m : Marks) :
    overRunFrom p here (t.map f) m = overRunFrom (fun a => p (f a)) here t m := by
  induction t generalizing here m with
  | nil => cases m <;> rfl
  | cons a t ih =>
    cases m with
    | nil => rfl
    | cons b m => exact congrArg (here :: ·) (ih _ m)

theorem overAny_map (f : α → β) (p : β → Bool) (t : List α) (m : Marks) :
    m.overAny p (t.map f) = m.overAny (fun a => p (f a)) t := by
  rw [overAny, overAny, overRun, overRun, overRunFrom_map]

end DocAudit.Marks

namespace DocAudit.Text

/-! ## §5. Boundaries. -/

/-- Whether a word character stands behind the position. -/
def wordAt (t : Text) (i : Nat) : Bool := t[i]?.any isWordChar

/-- Whether a word character stands before the position, where `first` is the answer for
the first one. -/
def wordBefore (first : Bool) (t : Text) : Nat → Bool
  | 0 => first
  | i + 1 => wordAt t i

/-- A word character stands on exactly one side of the position. -/
def Edge (t : Text) (i : Nat) : Prop := wordBefore false t i ≠ wordAt t i

/-- Beyond the end of a text there is no boundary. -/
theorem le_of_edge {t : Text} {i : Nat} (h : Edge t i) : i ≤ t.length := by
  cases i with
  | zero => exact Nat.zero_le _
  | succ i =>
    refine Nat.le_of_not_lt fun hi => ?_
    have hnone : ∀ k, t.length ≤ k → wordAt t k = false := fun k hk => by
      rw [wordAt, List.getElem?_eq_none hk]
      rfl
    have hbefore : wordBefore false t (i + 1) = false := hnone i (by omega)
    exact h (hbefore.trans (hnone (i + 1) (by omega)).symm)

theorem length_boundariesFrom (inWord : Bool) (t : Text) :
    (boundariesFrom inWord t).length = t.length + 1 := by
  induction t generalizing inWord with
  | nil => rfl
  | cons c t ih => exact congrArg (· + 1) (ih _)

theorem holds_boundariesFrom (inWord : Bool) (t : Text) (i : Nat) :
    (boundariesFrom inWord t).Holds i ↔ wordBefore inWord t i ≠ wordAt t i := by
  -- what stands before the rest is the character that was just passed
  induction t generalizing inWord i with
  | nil =>
    cases i with
    | zero => cases inWord <;> simp [boundariesFrom, Marks.Holds, wordBefore, wordAt]
    | succ i => simp [boundariesFrom, Marks.Holds, wordBefore, wordAt]
  | cons c t ih =>
    cases i with
    | zero =>
      show some (isWordChar c != inWord) = some true ↔ inWord ≠ isWordChar c
      rw [Option.some.injEq, bne_iff_ne, ne_comm]
    | succ i =>
      show (boundariesFrom (isWordChar c) t).Holds i ↔ wordAt (c :: t) i ≠ wordAt t i
      rw [ih]
      cases i with
      | zero => rfl
      | succ i => rfl

/-- **Boundaries are the positions with a word character on one side.** -/
theorem holds_boundaries {t : Text} {i : Nat} : (boundaries t).Holds i ↔ Edge t i :=
  holds_boundariesFrom false t i

end DocAudit.Text
