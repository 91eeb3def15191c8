/-
  DocAudit.Proofs.Audit.Agreement
  ───────────────────────────────
  **WHEN NOTHING IS FOUND, THE PARAMETERS AGREE.**

  Parameters are compared in two ways, and between them no disagreement slips through
  but one:

      equally many      nothing is found exactly if the names are the same, in the same
                        order, and no pair disagrees on what both sides state
      not equally many  nothing is found exactly if the record repeats entries, and
                        names exactly the parameters otherwise

  So a record that documents a parameter twice passes for its declaration
  (`repeated_entry_passes`).
-/
import Mathlib.Data.List.Perm.Subperm
import DocAudit.Audit.Finding
import DocAudit.Proofs.Text.Distinct

namespace DocAudit

/-! ## §1. Pairs of parameters. -/

namespace Param

/-- A declared and a documented parameter do not contradict each other: where both state
a direction it is the same, and where both state a type it is the same up to blanks. -/
def Consistent (declared documented : Param) : Prop :=
  (∀ a ∈ declared.direction, ∀ b ∈ documented.direction, a = b)
    ∧ ∀ t ∈ declared.typename, ∀ u ∈ documented.typename, bareType t = bareType u

theorem compatible_iff {α : Type} [DecidableEq α] {a b : Option α} :
    compatible a b = true ↔ ∀ x ∈ a, ∀ y ∈ b, x = y := by
  cases a <;> cases b <;> simp [compatible]

/-- **A named parameter agrees** with the entries of its name that do not contradict it. -/
theorem agrees_iff {p q : Param} (hp : p.name ≠ []) :
    p.agrees q = true ↔ p.name = q.name ∧ p.Consistent q := by
  have hnamed : p.name.isEmpty = false := by simpa using hp
  unfold agrees Consistent
  rw [hnamed, Bool.false_or, Bool.and_eq_true, Bool.and_eq_true, beq_iff_eq, compatible_iff,
    compatible_iff, and_assoc]
  simp

end Param

/-! ## §2. Lists of parameters. -/

namespace Fault

variable {declared documented : List Param}

/-- Lists of parameters have the same names exactly if each pair has. -/
theorem map_name_eq_iff (hlength : declared.length = documented.length) :
    documented.map Param.name = declared.map Param.name
      ↔ ∀ pq ∈ declared.zip documented, pq.1.name = pq.2.name := by
  induction declared generalizing documented with
  | nil =>
    have hnil : documented = [] := List.length_eq_zero_iff.1 hlength.symm
    simp [hnil]
  | cons p ps ih =>
    cases documented with
    | nil => simp at hlength
    | cons q qs =>
      rw [List.map_cons, List.map_cons, List.cons.injEq, List.zip_cons_cons,
        List.forall_mem_cons, ih (by simpa using hlength)]
      simp [eq_comm]

/-- **Equally many parameters have no fault** exactly if their names are the same and no
pair is inconsistent. -/
theorem byPosition_eq_nil_iff (hnamed : ∀ p ∈ declared, p.name ≠ [])
    (hlength : declared.length = documented.length) :
    byPosition declared documented = []
      ↔ documented.map Param.name = declared.map Param.name
        ∧ ∀ pq ∈ declared.zip documented, pq.1.Consistent pq.2 := by
  have hpairs : byPosition declared documented = []
      ↔ ∀ pq ∈ declared.zip documented, pq.1.agrees pq.2 = true := by
    unfold byPosition
    rw [List.map_eq_nil_iff, List.filter_eq_nil_iff]
    simp
  rw [hpairs, map_name_eq_iff hlength, ← forall₂_and]
  refine forall₂_congr fun pq hpq => ?_
  exact Param.agrees_iff (hnamed pq.1 (List.of_mem_zip hpq).1)

/-- **Parameters compared by name have no fault** exactly if they have the same names. -/
theorem byName_eq_nil_iff (hnamed : ∀ p ∈ declared, p.name ≠ []) :
    byName declared documented = []
      ↔ ∀ name, name ∈ documented.map Param.name ↔ name ∈ declared.map Param.name := by
  -- no name of a declaration is left out because it is empty
  have hall : (declared.map Param.name).filter (!·.isEmpty) = declared.map Param.name := by
    rw [List.filter_eq_self]
    intro name hname
    obtain ⟨p, hp, rfl⟩ := List.mem_map.1 hname
    simpa using hnamed p hp
  unfold byName
  rw [hall, List.append_eq_nil_iff, List.map_eq_nil_iff, List.map_eq_nil_iff,
    List.filter_eq_nil_iff, List.filter_eq_nil_iff]
  simp only [Text.mem_distinct, List.contains_eq_mem, Bool.not_eq_true', decide_eq_false_iff_not,
    not_not]
  constructor
  · rintro ⟨hmissing, hextra⟩ name
    exact ⟨hextra name, hmissing name⟩
  · intro hsame
    exact ⟨fun name => (hsame name).2, fun name => (hsame name).1⟩

/-! ## §3. The verdict. -/

/-- The entries of a record state exactly the declared parameters. -/
def Matches (declared documented : List Param) : Prop :=
  documented.map Param.name = declared.map Param.name
    ∧ ∀ pq ∈ declared.zip documented, pq.1.Consistent pq.2

/-- The entries of a record repeat declared parameters, leave none out and add none. -/
def Repeats (declared documented : List Param) : Prop :=
  declared.length < documented.length
    ∧ ∀ name, name ∈ documented.map Param.name ↔ name ∈ declared.map Param.name

/-- **Named, distinct parameters have no fault** exactly if they are matched or repeated. -/
theorem ofParams_eq_nil_iff (hdistinct : (declared.map Param.name).Nodup)
    (hnamed : ∀ p ∈ declared, p.name ≠ []) :
    ofParams declared documented = []
      ↔ Matches declared documented ∨ Repeats declared documented := by
  unfold ofParams
  by_cases hlength : declared.length = documented.length
  · have hno : ¬Repeats declared documented := fun h => Nat.ne_of_lt h.1 hlength
    rw [if_pos hlength, byPosition_eq_nil_iff hnamed hlength]
    exact (or_iff_left hno).symm
  · have hno : ¬Matches declared documented := by
      intro h
      have hmap := congrArg List.length h.1
      rw [List.length_map, List.length_map] at hmap
      exact hlength hmap.symm
    rw [if_neg hlength, byName_eq_nil_iff hnamed, or_iff_right hno]
    refine ⟨fun hsame => ⟨?_, hsame⟩, fun h => h.2⟩
    -- distinct names that all occur in another list are not more than its members
    have hle := (List.subperm_of_subset hdistinct fun name => (hsame name).2).length_le
    rw [List.length_map, List.length_map] at hle
    omega

theorem ofReturn_eq_nil_iff {s : Signature} {r : DocRecord} :
    ofReturn s r = [] ↔ s.returnsVoid = true ∨ r.returns ≠ none := by
  unfold ofReturn
  rw [← Option.isSome_iff_ne_none]
  cases s.returnsVoid <;> cases r.returns.isSome <;> simp

/-- **NOTHING IS FOUND EXACTLY IF THE PARAMETERS AGREE**, or some are documented more than
once.  Let the parameters of a declaration have distinct names, none of them empty, and let
a record not point elsewhere.  Nothing is found if and only if the entries of the record are
the parameters, in their order and consistent with them, or repeat them without leaving any
out or adding any, and the function returns `void` or the record has a return entry. -/
theorem validate_eq_nil_iff {s : Signature} {r : DocRecord}
    (hdistinct : (s.params.map Param.name).Nodup) (hnamed : ∀ p ∈ s.params, p.name ≠ [])
    (hr : r.elsewhere = false) :
    validate s (some r) = []
      ↔ (Matches s.params r.params ∨ Repeats s.params r.params)
        ∧ (s.returnsVoid = true ∨ r.returns ≠ none) := by
  unfold validate
  dsimp only
  rw [hr, if_neg Bool.false_ne_true, List.append_eq_nil_iff, ofReturn_eq_nil_iff,
    ofParams_eq_nil_iff hdistinct hnamed]

/-- A type that is spelled in two ways, a direction that one side states, and a parameter
of which the record knows the name only. -/
theorem validate_eq_nil_iff_spelled :
    let s : Signature :=
      { name := "fry".toList
        file := "egg.c".toList
        line := 2
        returns := Param.returning "int".toList
        params := [Param.typed "char *".toList "pan".toList, Param.typed "int".toList "n".toList] }
    let r : DocRecord :=
      { returns := some (Param.named returnName)
        params := [(Param.typed "char*".toList "pan".toList).withDirection .output,
          Param.named "n".toList] }
    (s.params.map Param.name).Nodup ∧ (∀ p ∈ s.params, p.name ≠ []) ∧ r.elsewhere = false
      ∧ Matches s.params r.params ∧ validate s (some r) = [] := by
  intro s r
  have hdistinct : (s.params.map Param.name).Nodup := by decide
  have hnamed : ∀ p ∈ s.params, p.name ≠ [] := by decide
  have hmatches : Matches s.params r.params := by
    unfold Matches Param.Consistent
    decide
  exact ⟨hdistinct, hnamed, rfl, hmatches,
    (validate_eq_nil_iff hdistinct hnamed rfl).2 ⟨.inl hmatches, .inr (by decide)⟩⟩

/-- **A parameter that is documented twice passes**, although the record does not list the
parameters of the declaration. -/
theorem repeated_entry_passes :
    let s : Signature :=
      { name := "fry".toList
        file := "egg.c".toList
        line := 1
        returns := Param.returning "void".toList
        params := [Param.typed "int".toList "a".toList] }
    let r : DocRecord := { params := [Param.named "a".toList, Param.named "a".toList] }
    (s.params.map Param.name).Nodup ∧ (∀ p ∈ s.params, p.name ≠ []) ∧ r.elsewhere = false
      ∧ ¬(validate s (some r) = []
        ↔ Matches s.params r.params ∧ (s.returnsVoid = true ∨ r.returns ≠ none)) := by
  intro s r
  have hclean : validate s (some r) = [] := by decide
  have hdiffer : ¬Matches s.params r.params := fun h => absurd h.1 (by decide)
  exact ⟨by decide, by decide, rfl, fun hiff => hdiffer (hiff.1 hclean).1⟩

end Fault
end DocAudit
