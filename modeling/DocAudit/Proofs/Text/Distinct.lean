/-
  DocAudit.Proofs.Text.Distinct
  ─────────────────────────────
  **LISTS OF NAMES, EACH NAMED ONCE.**

  `addNew` appends what is not yet known, in order.  It adds exactly the missing
  names (`mem_addNew`), repeats none (`nodup_addNew`) and appends a list of fresh names
  as it is (`addNew_of_fresh`).  What it makes of known names and further ones is one list
  of which the repetitions are erased (`addNew_eraseDups`), however often that was done
  on the way (`addNew_filter_distinct`).
-/
import Mathlib.Data.List.Induction
import DocAudit.Text.Basic

namespace DocAudit.Text

/-! ## §1. Members. -/

theorem mem_addNew {x : Text} {known names : List Text} :
    x ∈ addNew known names ↔ x ∈ known ∨ x ∈ names := by
  induction names generalizing known with
  | nil => simp [addNew]
  | cons name rest ih =>
    unfold addNew
    rw [ih, List.mem_cons]
    by_cases hname : name ∈ known
    · rw [if_pos hname]
      constructor
      · rintro (h | h)
        · exact .inl h
        · exact .inr (.inr h)
      · rintro (h | rfl | h)
        · exact .inl h
        · exact .inl hname
        · exact .inr h
    · rw [if_neg hname, List.mem_append, List.mem_singleton, or_assoc]

theorem nodup_addNew {known : List Text} (h : known.Nodup) (names : List Text) :
    (addNew known names).Nodup := by
  induction names generalizing known with
  | nil => exact h
  | cons name rest ih =>
    unfold addNew
    refine ih ?_
    by_cases hname : name ∈ known
    · rwa [if_pos hname]
    · rw [if_neg hname]
      exact List.nodup_append.2 ⟨h, List.pairwise_singleton _ name, fun a ha b hb => by
        cases List.mem_singleton.1 hb
        rintro rfl
        exact hname ha⟩

theorem addNew_of_fresh {known names : List Text} (h : names.Nodup)
    (hfresh : ∀ n ∈ names, n ∉ known) : addNew known names = known ++ names := by
  induction names generalizing known with
  | nil => exact (List.append_nil known).symm
  | cons name rest ih =>
    obtain ⟨hname, hrest⟩ := List.nodup_cons.1 h
    unfold addNew
    rw [if_neg (hfresh name List.mem_cons_self), ih hrest, List.append_assoc]
    · rfl
    · intro n hn hmem
      rcases List.mem_append.1 hmem with hmem | hmem
      · exact hfresh n (List.mem_cons_of_mem _ hn) hmem
      · cases List.mem_singleton.1 hmem
        exact hname hn

theorem mem_distinct {x : Text} {names : List Text} : x ∈ distinct names ↔ x ∈ names := by
  unfold distinct
  rw [mem_addNew]
  exact or_iff_right List.not_mem_nil

theorem nodup_distinct (names : List Text) : (distinct names).Nodup :=
  nodup_addNew List.nodup_nil names

/-! ## §2. Order. -/

theorem eraseDups_concat (names : List Text) (name : Text) :
    (names ++ [name]).eraseDups
      = if name ∈ names then names.eraseDups else names.eraseDups ++ [name] := by
  rw [List.eraseDups_append]
  by_cases h : name ∈ names
  · simp [List.removeAll, h]
  · simp [List.removeAll, h, List.eraseDups_cons]

/-- **Adding names to a list without repetitions** is erasing the repetitions of both. -/
theorem addNew_eraseDups (known names : List Text) :
    addNew known.eraseDups names = (known ++ names).eraseDups := by
  induction names generalizing known with
  | nil => rw [List.append_nil]; rfl
  | cons name names ih =>
    have hstep : (if name ∈ known.eraseDups then known.eraseDups else known.eraseDups ++ [name])
        = (known ++ [name]).eraseDups := by
      rw [eraseDups_concat]
      simp only [List.mem_eraseDups]
    unfold addNew
    rw [hstep, ih, List.append_assoc]
    rfl

theorem distinct_eq_eraseDups (names : List Text) : distinct names = names.eraseDups :=
  addNew_eraseDups [] names

/-- Erasing repetitions before a selection is made changes nothing behind it. -/
theorem eraseDups_filter_eraseDups (p : Text → Bool) (names : List Text) :
    (names.eraseDups.filter p).eraseDups = (names.filter p).eraseDups := by
  induction names using List.reverseRecOn with
  | nil => rfl
  | append_singleton names name ih =>
    rw [eraseDups_concat, List.filter_append]
    cases hp : p name with
    | false =>
      -- a name that is not selected plays no part
      split <;> simp [hp, ih]
    | true =>
      have hlast : [name].filter p = [name] := by simp [hp]
      rw [hlast, eraseDups_concat]
      split
      · next hmem => rw [if_pos (List.mem_filter.2 ⟨hmem, hp⟩), ih]
      · next hmem =>
        rw [List.filter_append, hlast, eraseDups_concat,
          if_neg fun h => hmem (List.mem_eraseDups.1 (List.mem_filter.1 h).1),
          if_neg fun h => hmem (List.mem_filter.1 h).1, ih]

/-- **A selection of distinct names**, added to known ones. -/
theorem addNew_filter_distinct (p : Text → Bool) (known names : List Text) :
    addNew known.eraseDups ((distinct names).filter p) = (known ++ names.filter p).eraseDups := by
  have hfresh : (((names.eraseDups).filter p).removeAll known).eraseDups
      = ((names.filter p).removeAll known).eraseDups := by
    unfold List.removeAll
    rw [List.filter_filter, List.filter_filter, eraseDups_filter_eraseDups]
  rw [distinct_eq_eraseDups, addNew_eraseDups, List.eraseDups_append, List.eraseDups_append,
    hfresh]

end DocAudit.Text
