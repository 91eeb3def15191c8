/-
  DocAudit.Proofs.Text.Split
  ──────────────────────────
  **CUTTING AT MARKED MEMBERS.**

  `splitWhere` cuts a list at every member that satisfies a test.  A list without
  such a member is one piece, and the first such member ends the first piece; these
  two equations (`splitWhere_of_none`, `splitWhere_append_cons`) say all there is to
  say about it.  Cutting at a character and joining with it undo each other, in both
  directions (`join_splitOn`, `splitOn_join`).
-/
import DocAudit.Text.Basic

namespace DocAudit.Text

variable {α β : Type}

/-! ## §1. Cutting. -/

theorem splitWhere_of_none {p : α → Bool} {l : List α} (h : ∀ a ∈ l, p a = false) :
    splitWhere p l = [l] := by
  induction l with
  | nil => rfl
  | cons a l ih =>
    unfold splitWhere
    rw [h a List.mem_cons_self, ih fun b hb => h b (List.mem_cons_of_mem _ hb)]
    rfl

theorem splitWhere_append_cons {p : α → Bool} {l : List α} {x : α}
    (hl : ∀ a ∈ l, p a = false) (hx : p x = true) (r : List α) :
    splitWhere p (l ++ x :: r) = l :: splitWhere p r := by
  induction l with
  | nil =>
    rw [List.nil_append, splitWhere, if_pos hx]
  | cons a l ih =>
    have ha : p a = false := hl a List.mem_cons_self
    rw [List.cons_append, splitWhere, ha, ih fun b hb => hl b (List.mem_cons_of_mem _ hb)]
    rfl

/-- A run of members ends where what follows does not go on with one. -/
theorem takeWhile_append_of_stop {p : α → Bool} {l r : List α} (hl : ∀ a ∈ l, p a = true)
    (hr : ∀ a ∈ r.head?, p a = false) :
    (l ++ r).takeWhile p = l ∧ (l ++ r).dropWhile p = r := by
  rw [List.takeWhile_append_of_pos hl, List.dropWhile_append_of_pos hl]
  cases r with
  | nil => simp
  | cons a r => simp [hr a rfl]

/-- Cutting does not look at what a map changes behind the test's back. -/
theorem splitWhere_map {p : β → Bool} {q : α → Bool} {f : α → β} (h : ∀ a, p (f a) = q a)
    (l : List α) : splitWhere p (l.map f) = (splitWhere q l).map (List.map f) := by
  induction l with
  | nil => rfl
  | cons a l ih =>
    rw [List.map_cons, splitWhere, splitWhere, h, ih]
    split
    · rfl
    · cases splitWhere q l <;> rfl

theorem flatten_splitWhere_sublist (p : α → Bool) (l : List α) :
    (splitWhere p l).flatten.Sublist l := by
  induction l with
  | nil => exact List.Sublist.refl _
  | cons a l ih =>
    unfold splitWhere
    split
    · rw [List.flatten_cons]
      exact ih.cons a
    · split
      · exact List.Sublist.cons_cons a (List.nil_sublist l)
      · next first others heq =>
        rw [heq, List.flatten_cons] at ih
        rw [List.flatten_cons, List.cons_append]
        exact ih.cons_cons a

/-- Text without a separator is one piece. -/
theorem splitOn_of_not_mem {sep : Char} {t : Text} (h : sep ∉ t) : splitOn sep t = [t] :=
  splitWhere_of_none fun a ha => by
    rw [beq_eq_false_iff_ne]
    rintro rfl
    exact h ha

/-- The first separator ends the first piece. -/
theorem splitOn_append_cons {sep : Char} {t : Text} (h : sep ∉ t) (r : Text) :
    splitOn sep (t ++ sep :: r) = t :: splitOn sep r := by
  refine splitWhere_append_cons (p := (· == sep)) (fun a ha => ?_) (beq_self_eq_true sep) r
  rw [beq_eq_false_iff_ne]
  rintro rfl
  exact h ha

theorem splitWhere_ne_nil (p : α → Bool) (l : List α) : splitWhere p l ≠ [] := by
  cases l with
  | nil => exact List.cons_ne_nil _ _
  | cons a l =>
    unfold splitWhere
    split
    · exact List.cons_ne_nil _ _
    · split <;> exact List.cons_ne_nil _ _

/-- A marked member ends the pieces before it. -/
theorem splitWhere_append_marked {p : α → Bool} {x : α} (hx : p x = true) (l r : List α) :
    splitWhere p (l ++ x :: r) = splitWhere p l ++ splitWhere p r := by
  induction l with
  | nil =>
    show splitWhere p (x :: r) = [] :: splitWhere p r
    rw [splitWhere, if_pos hx]
  | cons a l ih =>
    rw [List.cons_append, splitWhere, splitWhere, ih]
    by_cases ha : p a = true
    · rw [if_pos ha, if_pos ha]
      rfl
    · -- the member lengthens the first piece, which is one of those before the mark
      rw [if_neg ha, if_neg ha]
      obtain ⟨first, others, heq⟩ := List.exists_cons_of_ne_nil (splitWhere_ne_nil p l)
      rw [heq]
      rfl

/-- No member of a piece satisfies the test. -/
theorem not_of_mem_splitWhere {p : α → Bool} {l piece : List α} (h : piece ∈ splitWhere p l)
    {a : α} (ha : a ∈ piece) : p a = false := by
  induction l generalizing piece with
  | nil =>
    cases List.mem_singleton.1 h
    exact absurd ha List.not_mem_nil
  | cons b l ih =>
    unfold splitWhere at h
    split at h
    · rcases List.mem_cons.1 h with rfl | h
      · exact absurd ha List.not_mem_nil
      · exact ih h ha
    · next hb =>
      have hb' : p b = false := Bool.eq_false_iff.2 hb
      split at h
      · cases List.mem_singleton.1 h
        cases List.mem_singleton.1 ha
        exact hb'
      · next first others heq =>
        rcases List.mem_cons.1 h with rfl | h
        · rcases List.mem_cons.1 ha with rfl | ha
          · exact hb'
          · exact ih (heq ▸ List.mem_cons_self) ha
        · exact ih (heq ▸ List.mem_cons_of_mem _ h) ha

/-- What is cut at the first separator. -/
theorem eq_append_of_cut? {sep : Char} {t before rest : Text}
    (h : cut? sep t = some (before, rest)) : t = before ++ sep :: rest := by
  induction t generalizing before with
  | nil => cases h
  | cons c t ih =>
    unfold cut? at h
    split at h
    · next hc =>
      cases h
      rw [hc]
      rfl
    · obtain ⟨⟨front, back⟩, hcut, heq⟩ := Option.map_eq_some_iff.1 h
      cases heq
      rw [List.cons_append, ← ih hcut]

/-! ## §2. Joining. -/

theorem join_singleton (sep t : Text) : join sep [t] = t := List.append_nil t

theorem join_cons_cons (sep a b : Text) (rest : List Text) :
    join sep (a :: b :: rest) = a ++ sep ++ join sep (b :: rest) := by
  simp [join, List.intercalate]

/-- The first character of what is joined. -/
theorem join_cons_head (sep : Text) (c : Char) (t : Text) (ts : List Text) :
    join sep ((c :: t) :: ts) = c :: join sep (t :: ts) := by
  cases ts with
  | nil => rw [join_singleton, join_singleton]
  | cons u ts =>
    rw [join_cons_cons, join_cons_cons]
    rfl

/-- Lists of texts one after another are joined each on its own. -/
theorem join_append {sep : Text} {as bs : List Text} (ha : as ≠ []) (hb : bs ≠ []) :
    join sep (as ++ bs) = join sep as ++ sep ++ join sep bs := by
  induction as with
  | nil => exact absurd rfl ha
  | cons a as ih =>
    cases as with
    | nil =>
      obtain ⟨b, bs, rfl⟩ := List.exists_cons_of_ne_nil hb
      rw [List.singleton_append, join_cons_cons, join_singleton]
    | cons c as =>
      have hrest := ih (List.cons_ne_nil c as)
      rw [List.cons_append] at hrest
      rw [List.cons_append, List.cons_append, join_cons_cons, hrest, join_cons_cons]
      simp only [List.append_assoc]

theorem not_mem_of_mem_splitOn {sep : Char} {t piece : Text} (h : piece ∈ splitOn sep t) :
    sep ∉ piece := by
  intro hmem
  have hfalse := not_of_mem_splitWhere h hmem
  rw [beq_self_eq_true] at hfalse
  cases hfalse

/-- **Joining what was cut.** -/
theorem join_splitOn (sep : Char) (t : Text) : join [sep] (splitOn sep t) = t := by
  unfold splitOn
  induction t with
  | nil => rfl
  | cons c t ih =>
    unfold splitWhere
    obtain ⟨first, others, heq⟩ := List.exists_cons_of_ne_nil (splitWhere_ne_nil (· == sep) t)
    rw [heq] at ih ⊢
    split
    · next hc =>
      rw [join_cons_cons, ih, beq_iff_eq.1 hc]
      rfl
    · show join [sep] ((c :: first) :: others) = c :: t
      rw [join_cons_head, ih]

/-- **Cutting what was joined.** -/
theorem splitOn_join {sep : Char} {ts : List Text} (hne : ts ≠ []) (h : ∀ t ∈ ts, sep ∉ t) :
    splitOn sep (join [sep] ts) = ts := by
  induction ts with
  | nil => exact absurd rfl hne
  | cons t ts ih =>
    have ht : sep ∉ t := h t List.mem_cons_self
    cases ts with
    | nil => rw [join_singleton, splitOn_of_not_mem ht]
    | cons u ts =>
      rw [join_cons_cons, List.append_assoc, List.singleton_append, splitOn_append_cons ht,
        ih (List.cons_ne_nil u ts) fun v hv => h v (List.mem_cons_of_mem t hv)]

end DocAudit.Text
