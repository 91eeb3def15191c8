/-
  DocAudit.Proofs.Audit.Verdict
  ─────────────────────────────
  **EVERY DECLARATION IS BOUND AND JUDGED ALONE.**

  What a declaration is bound to hangs on its name, its line and the records, and on no
  other declaration.  Of the records of a file at most one of each dialect can end right
  above a line, since comments take two lines at least:

      by position   the only record, in whichever order the records are tried
      by name       the first record that bears it
      none          the declaration is undocumented, and nothing else is found on it
-/
import DocAudit.Proofs.Audit.Concatenation

namespace DocAudit

/-! ## §1. The record of a declaration. -/

namespace Binding

/-- A record ends on one of the two lines before a line. -/
def EndsAbove (line : Nat) (r : LocatedRecord) : Prop :=
  r.endLine + 2 = line ∨ r.endLine + 1 = line

instance (line : Nat) (r : LocatedRecord) : Decidable (EndsAbove line r) :=
  inferInstanceAs (Decidable (_ ∨ _))

variable {doxygen edt records : List LocatedRecord} {line : Nat} {s : Signature}

theorem inWindow_eq (line : Nat) (r : LocatedRecord) :
    inWindow line r.endLine = decide (EndsAbove line r) := by
  unfold inWindow window EndsAbove
  rw [← Bool.decide_and]
  exact decide_eq_decide.2 (by omega)

theorem above?_eq (records : List LocatedRecord) (line : Nat) :
    above? records line = (records.find? (EndsAbove line ·)).map (·.record) := by
  unfold above?
  simp only [inWindow_eq]

/-- **The record of a declaration** is the first one of three that exists. -/
theorem recordFor_eq (doxygen edt : List LocatedRecord) (s : Signature) :
    recordFor doxygen edt s
      = ((doxygen.find? (EndsAbove s.line ·)).or
          ((edt.find? (·.record.name = some s.name)).or
            (edt.find? (EndsAbove s.line ·)))).map (·.record) := by
  have hname : (fun r : LocatedRecord => r.record.name == some s.name)
      = fun r => decide (r.record.name = some s.name) := by
    funext r
    exact beq_eq_decide _ _
  unfold recordFor named?
  rw [above?_eq, above?_eq, hname, Option.map_or, Option.map_or]

/-- No record of either dialect ends right above a declaration, and no EDT record bears
its name. -/
def Unrecorded (doxygen edt : List LocatedRecord) (s : Signature) : Prop :=
  (∀ r ∈ doxygen, ¬EndsAbove s.line r)
    ∧ (∀ r ∈ edt, r.record.name ≠ some s.name) ∧ ∀ r ∈ edt, ¬EndsAbove s.line r

theorem recordFor_eq_none_iff : recordFor doxygen edt s = none ↔ Unrecorded doxygen edt s := by
  rw [recordFor_eq, Option.map_eq_none_iff, Option.or_eq_none_iff, Option.or_eq_none_iff]
  simp [Unrecorded, List.find?_eq_none]

/-! ## §2. At most one record by position. -/

/-- Two records that end two lines apart do not both end right above one line. -/
theorem length_filter_endsAbove_le
    (h : records.Pairwise fun r q => r.endLine + 2 ≤ q.endLine) (line : Nat) :
    (records.filter (EndsAbove line ·)).length ≤ 1 := by
  have hpairs := h.filter (EndsAbove line ·)
  have hends : ∀ r ∈ records.filter (EndsAbove line ·), EndsAbove line r :=
    fun r hr => by simpa using (List.mem_filter.1 hr).2
  match hfilter : records.filter (EndsAbove line ·) with
  | [] => exact Nat.zero_le 1
  | [_] => exact Nat.le_refl 1
  | r :: q :: rest =>
    rw [hfilter] at hpairs hends
    have hapart : r.endLine + 2 ≤ q.endLine := (List.pairwise_cons.1 hpairs).1 q (by simp)
    have hr := hends r (by simp)
    have hq := hends q (by simp)
    unfold EndsAbove at hr hq
    omega

/-- The only record that satisfies a test is the first in every order of the records. -/
theorem find?_eq_of_perm {p : LocatedRecord → Bool} {others : List LocatedRecord}
    (hperm : others.Perm records) (hone : (records.filter p).length ≤ 1) :
    others.find? p = records.find? p := by
  have hfilter := hperm.filter p
  rw [← List.head?_filter, ← List.head?_filter]
  match hrecords : records.filter p with
  | [] =>
    rw [hrecords] at hfilter
    rw [List.perm_nil.1 hfilter]
  | [r] =>
    rw [hrecords] at hfilter
    rw [List.perm_singleton.1 hfilter]
  | _ :: _ :: _ =>
    rw [hrecords] at hone
    simp at hone

end Binding

/-! ## §3. The verdict. -/

/-- **What is undocumented has no record**, and nothing else is wrong with it. -/
theorem Fault.undocumented_mem_validate_iff {s : Signature} {r : Option DocRecord} :
    undocumented ∈ validate s r ↔ r = none := by
  cases r with
  | none => simp [validate]
  | some r =>
    -- faults of parameters and of the return value are others
    have hparams : undocumented ∉ ofParams s.params r.params := by
      unfold ofParams byPosition byName
      split <;> simp
    have hreturn : undocumented ∉ ofReturn s r := by
      unfold ofReturn
      split <;> simp
    simp only [validate, reduceCtorEq, iff_false]
    split
    · exact List.not_mem_nil
    · rw [List.mem_append, not_or]
      exact ⟨hparams, hreturn⟩

namespace FileReport

open Binding

variable {doxygen edt : List LocatedRecord} {s : Signature}

theorem signature_of_mem_findingsOn {f : Finding} (h : f ∈ findingsOn doxygen edt s) :
    f.signature = s := by
  obtain ⟨fault, _, rfl⟩ := List.mem_map.1 h
  rfl

theorem undocumented_mem_findingsOn_iff :
    ⟨.undocumented, s⟩ ∈ findingsOn doxygen edt s ↔ Unrecorded doxygen edt s := by
  have hinjective : Function.Injective fun fault : Fault => Finding.mk fault s :=
    fun _ _ h => (Finding.mk.inj h).1
  unfold findingsOn Finding.ofBinding
  rw [List.mem_map_of_injective hinjective, Fault.undocumented_mem_validate_iff,
    recordFor_eq_none_iff]

/-- A declaration without a record has one finding. -/
theorem findingsOn_of_unrecorded (h : Unrecorded doxygen edt s) :
    findingsOn doxygen edt s = [⟨.undocumented, s⟩] := by
  unfold findingsOn Finding.ofBinding
  rw [recordFor_eq_none_iff.2 h]
  rfl

/-- **A finding is a finding on its own declaration.** -/
theorem mem_findings_iff {path source : Text} {r : Resolution} {f : Finding} :
    f ∈ (ofResolution path source r).findings
      ↔ f.signature ∈ r.outline.signatures path
        ∧ f ∈ findingsOn (records .doxygen source) (records .edt source) f.signature := by
  rw [findings_ofResolution, List.mem_flatMap]
  constructor
  · rintro ⟨s, hs, hf⟩
    cases signature_of_mem_findingsOn hf
    exact ⟨hs, hf⟩
  · rintro ⟨hs, hf⟩
    exact ⟨_, hs, hf⟩

/-- **EVERY DECLARATION IS BOUND AND JUDGED ALONE.**  Binding keeps the declarations as
they are and gives each, whatever the others are, the first Doxygen record that ends right
above it, else the first EDT record that bears its name, else the first EDT record that
ends right above it, else none.  Of the records of a source at most one of each dialect
ends right above a line, so that it is found in every order of the records.  A declaration
of the source is found undocumented exactly if it has no record, and then nothing else is
found on it. -/
theorem declarations_judged_alone (path source : Text) (r : Resolution) :
    (∀ signatures doxygen edt, bind signatures doxygen edt = signatures.map fun s =>
        ⟨s, ((doxygen.find? (EndsAbove s.line ·)).or
          ((edt.find? (·.record.name = some s.name)).or
            (edt.find? (EndsAbove s.line ·)))).map (·.record)⟩)
      ∧ (∀ d line, ((records d source).filter (EndsAbove line ·)).length ≤ 1
        ∧ ∀ others, others.Perm (records d source) →
          above? others line = above? (records d source) line)
      ∧ ∀ s ∈ r.outline.signatures path,
        (⟨.undocumented, s⟩ ∈ (ofResolution path source r).findings
          ↔ Unrecorded (records .doxygen source) (records .edt source) s)
        ∧ (Unrecorded (records .doxygen source) (records .edt source) s →
          ∀ f ∈ (ofResolution path source r).findings, f.signature = s →
            f.fault = .undocumented) := by
  have hone : ∀ d line, ((records d source).filter (EndsAbove line ·)).length ≤ 1 :=
    fun d line => length_filter_endsAbove_le (Reading.pairwise_endLine_records d _) line
  refine ⟨fun signatures doxygen edt => ?_, fun d line => ⟨hone d line, fun others hperm => ?_⟩,
    fun s hs => ⟨?_, fun hnone f hf hsignature => ?_⟩⟩
  · rw [bind_eq_map]
    exact List.map_congr_left fun s _ => congrArg (Binding.mk s) (recordFor_eq doxygen edt s)
  · rw [above?_eq, above?_eq, find?_eq_of_perm hperm (hone d line)]
  · rw [mem_findings_iff, undocumented_mem_findingsOn_iff]
    exact and_iff_right hs
  · obtain ⟨_, hmem⟩ := mem_findings_iff.1 hf
    rw [hsignature, findingsOn_of_unrecorded hnone] at hmem
    rw [List.mem_singleton.1 hmem]

/-- A comment two lines above one declaration, and three lines above the next. -/
theorem declarations_judged_alone_boil :
    let source := "/**\n * @return crispness\n */\n\nint fry(void);\nint boil(void);\n".toList
    let boil : Signature :=
      { name := "boil".toList
        file := "egg.c".toList
        line := 6
        returns := Param.returning "int".toList
        params := [] }
    let doxygen := records .doxygen source
    boil ∈ (Resolution.ofSource source).outline.signatures "egg.c".toList
      ∧ doxygen.map (·.endLine) = [3]
      ∧ above? doxygen.reverse 5 = above? doxygen 5
      ∧ Unrecorded doxygen (records .edt source) boil
      ∧ ⟨.undocumented, boil⟩ ∈ (ofSource "egg.c".toList source).findings
      ∧ ∀ f ∈ (ofSource "egg.c".toList source).findings, f.signature = boil →
        f.fault = .undocumented := by
  intro source boil doxygen
  have hboil : boil ∈ (Resolution.ofSource source).outline.signatures "egg.c".toList := by
    decide +kernel
  have hnone : Unrecorded doxygen (records .edt source) boil := by
    unfold Unrecorded
    decide +kernel
  have happly := declarations_judged_alone "egg.c".toList source (Resolution.ofSource source)
  have hverdict := happly.2.2 boil hboil
  exact ⟨hboil, by decide +kernel, (happly.2.1 .doxygen 5).2 _ doxygen.reverse_perm,
    hnone, hverdict.1.2 hnone, hverdict.2 hnone⟩

end FileReport
end DocAudit
