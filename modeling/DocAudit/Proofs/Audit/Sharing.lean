/-
  DocAudit.Proofs.Audit.Sharing
  ─────────────────────────────
  **WHEN ONE COMMENT IS TAKEN FOR TWO DECLARATIONS.**

  Binding keeps no account of the records that it has given away.  What keeps a comment
  from being taken for the next declaration as well is the window alone, and the window is
  two lines high.  So of two declarations without a comment between them the second is

      two or more lines below     undocumented: its window begins at the first one
      on the very next line       bound to what ends right above the first one, if
                                  anything does

  (`undocumented_iff_not_shared`), unless it is named by an EDT record.  The first one may
  be named by an EDT record elsewhere, and is then bound to that one; undocumented it is not.
-/
import DocAudit.Proofs.Audit.Verdict

namespace DocAudit.FileReport

open Binding

variable {source : Text} {first second : Signature}

/-- **A comment stands right above two declarations**: the second follows on the line
after the first, and a record ends on the line before it. -/
def Shared (source : Text) (first second : Signature) : Prop :=
  second.line = first.line + 1 ∧ ∃ d, ∃ r ∈ records d source, r.endLine + 1 = first.line

/-- No comment of either dialect ends on the line of the first declaration or between the
two. -/
def NoneBetween (source : Text) (first second : Signature) : Prop :=
  ∀ d, ∀ c ∈ Comment.locate d (Text.lines source),
    ¬(first.line ≤ c.endLine ∧ c.endLine < second.line)

/-- Records end where comments do. -/
theorem NoneBetween.of_mem_records (h : NoneBetween source first second) {d : Dialect}
    {r : LocatedRecord} (hr : r ∈ records d source) :
    ¬(first.line ≤ r.endLine ∧ r.endLine < second.line) := by
  obtain ⟨c, hc, hlocated⟩ := List.mem_filterMap.1 hr
  rw [Reading.endLine_of_located? hlocated]
  exact h d c hc

/-- **With nothing between them**, a record ends right above the second declaration only if
it ends right above the first and the second follows at once. -/
theorem NoneBetween.endsAbove_iff (h : NoneBetween source first second)
    (hlt : first.line < second.line) {d : Dialect} {r : LocatedRecord}
    (hr : r ∈ records d source) :
    EndsAbove second.line r
      ↔ second.line = first.line + 1 ∧ r.endLine + 1 = first.line := by
  have hoff := h.of_mem_records hr
  unfold EndsAbove
  omega

/-- What the second declaration lacks is a record that it shares with the first. -/
theorem NoneBetween.unrecorded_iff (h : NoneBetween source first second)
    (hlt : first.line < second.line)
    (hname : ∀ r ∈ records .edt source, r.record.name ≠ some second.name) :
    Unrecorded (records .doxygen source) (records .edt source) second
      ↔ ¬Shared source first second := by
  constructor
  · rintro ⟨hdoxygen, _, hedt⟩ ⟨hnext, d, r, hr, hend⟩
    have habove : EndsAbove second.line r := (h.endsAbove_iff hlt hr).2 ⟨hnext, hend⟩
    cases d with
    | doxygen => exact hdoxygen r hr habove
    | edt => exact hedt r hr habove
  · intro hnot
    have hnone : ∀ d, ∀ r ∈ records d source, ¬EndsAbove second.line r := by
      intro d r hr habove
      obtain ⟨hnext, hend⟩ := (h.endsAbove_iff hlt hr).1 habove
      exact hnot ⟨hnext, d, r, hr, hend⟩
    exact ⟨hnone .doxygen, hname, hnone .edt⟩

/-- What is found above a line ends there. -/
theorem endsAbove_of_find? {rs : List LocatedRecord} {line : Nat} {r : LocatedRecord}
    (h : rs.find? (EndsAbove line ·) = some r) : r ∈ rs ∧ EndsAbove line r := by
  have habove := List.find?_some h
  exact ⟨List.mem_of_find?_eq_some h, of_decide_eq_true habove⟩

/-- The record of a declaration that no EDT record names ends right above it. -/
theorem exists_of_recordFor {s : Signature} {record : DocRecord}
    (hname : ∀ r ∈ records .edt source, r.record.name ≠ some s.name)
    (h : recordFor (records .doxygen source) (records .edt source) s = some record) :
    ∃ d, ∃ r ∈ records d source, EndsAbove s.line r ∧ r.record = record := by
  have hunnamed : (records .edt source).find? (·.record.name = some s.name) = none := by
    rw [List.find?_eq_none]
    intro r hr
    rw [decide_eq_true_iff]
    exact hname r hr
  rw [recordFor_eq, hunnamed, Option.none_or] at h
  obtain ⟨r, hr, hrecord⟩ := Option.map_eq_some_iff.1 h
  rcases Option.or_eq_some_iff.1 hr with hfound | ⟨_, hfound⟩
  · obtain ⟨hmem, habove⟩ := endsAbove_of_find? hfound
    exact ⟨.doxygen, r, hmem, habove, hrecord⟩
  · obtain ⟨hmem, habove⟩ := endsAbove_of_find? hfound
    exact ⟨.edt, r, hmem, habove, hrecord⟩

/-- **The second declaration is bound to what ends right above the first one**, if anything
does. -/
theorem Shared.recordFor_second (h : Shared source first second)
    (hbetween : NoneBetween source first second) (hlt : first.line < second.line)
    (hname : ∀ r ∈ records .edt source, r.record.name ≠ some second.name) :
    ∃ d, ∃ r ∈ records d source, r.endLine + 1 = first.line
      ∧ recordFor (records .doxygen source) (records .edt source) second = some r.record := by
  cases hrecord : recordFor (records .doxygen source) (records .edt source) second with
  | none =>
    have hunrecorded := recordFor_eq_none_iff.1 hrecord
    exact absurd h ((hbetween.unrecorded_iff hlt hname).1 hunrecorded)
  | some record =>
    obtain ⟨d, r, hr, habove, heq⟩ := exists_of_recordFor hname hrecord
    exact ⟨d, r, hr, ((hbetween.endsAbove_iff hlt hr).1 habove).2, congrArg some heq.symm⟩

/-- What ends right above the first declaration lies in its window, so that it has a record:
that one, or another one that is taken before it. -/
theorem Shared.recorded_first (h : Shared source first second) :
    ¬Unrecorded (records .doxygen source) (records .edt source) first := by
  obtain ⟨_, d, r, hr, hend⟩ := h
  rintro ⟨hdoxygen, _, hedt⟩
  cases d with
  | doxygen => exact hdoxygen r hr (.inr hend)
  | edt => exact hedt r hr (.inr hend)

/-- **A DECLARATION BELOW ANOTHER ONE, WITHOUT A COMMENT OF ITS OWN.**  Let two
declarations of a source stand on different lines, with no comment that ends on the line of
the first or between the two, and let no EDT record bear the name of the second.  Then the
second is found undocumented, unless it stands on the line after the first and a record
ends on the line before the first.  In that case it is bound to such a record, and neither
of the two is found undocumented. -/
theorem undocumented_iff_not_shared (path source : Text) :
    ∀ first ∈ (Resolution.ofSource source).outline.signatures path,
      ∀ second ∈ (Resolution.ofSource source).outline.signatures path,
        first.line < second.line → NoneBetween source first second →
        (∀ r ∈ records .edt source, r.record.name ≠ some second.name) →
        (⟨.undocumented, second⟩ ∈ (ofSource path source).findings
            ↔ ¬Shared source first second)
          ∧ (Shared source first second →
            (∃ d, ∃ r ∈ records d source, r.endLine + 1 = first.line
                ∧ ⟨second, some r.record⟩
                  ∈ bind ((Resolution.ofSource source).outline.signatures path)
                      (records .doxygen source) (records .edt source))
              ∧ ⟨.undocumented, first⟩ ∉ (ofSource path source).findings) := by
  intro first _ second hsecond hlt hbetween hname
  constructor
  · unfold ofSource
    rw [mem_findings_iff, undocumented_mem_findingsOn_iff, hbetween.unrecorded_iff hlt hname]
    exact and_iff_right hsecond
  · intro hshared
    constructor
    · obtain ⟨d, r, hr, hend, hrecord⟩ := hshared.recordFor_second hbetween hlt hname
      refine ⟨d, r, hr, hend, ?_⟩
      rw [bind_eq_map, List.mem_map]
      exact ⟨second, hsecond, by rw [hrecord]⟩
    · intro hmem
      have hverdict := (mem_findings_iff.1 hmem).2
      exact hshared.recorded_first (undocumented_mem_findingsOn_iff.1 hverdict)

/-- A function that takes nothing and returns nothing. -/
def actionOf (file name : Text) (line : Nat) : Signature :=
  { name, file, line, returns := Param.returning "void".toList, params := [] }

/-- A comment above one declaration, and another declaration two lines below that one. -/
theorem undocumented_iff_not_shared_apart :
    let source := "/**\n * Fry.\n */\nvoid fry(void);\n\nvoid boil(void);\n".toList
    let fry := actionOf "egg.c".toList "fry".toList 4
    let boil := actionOf "egg.c".toList "boil".toList 6
    fry ∈ (Resolution.ofSource source).outline.signatures "egg.c".toList
      ∧ boil ∈ (Resolution.ofSource source).outline.signatures "egg.c".toList
      ∧ NoneBetween source fry boil
      ∧ ⟨.undocumented, boil⟩ ∈ (ofSource "egg.c".toList source).findings := by
  intro source fry boil
  have hsignatures : (Resolution.ofSource source).outline.signatures "egg.c".toList
      = [fry, boil] := by decide +kernel
  have hfry : fry ∈ (Resolution.ofSource source).outline.signatures "egg.c".toList := by
    rw [hsignatures]
    exact List.mem_cons_self
  have hboil : boil ∈ (Resolution.ofSource source).outline.signatures "egg.c".toList := by
    rw [hsignatures]
    exact List.mem_cons_of_mem fry (List.mem_singleton_self boil)
  have hbetween : NoneBetween source fry boil := fun d => by cases d <;> decide +kernel
  have hapart : ¬Shared source fry boil := fun h => absurd h.1 (by decide)
  have happly := undocumented_iff_not_shared "egg.c".toList source fry hfry boil hboil
    (by decide) hbetween (by decide +kernel)
  exact ⟨hfry, hboil, hbetween, happly.1.2 hapart⟩

/-- **One comment vouches for two declarations** that stand on consecutive lines. -/
theorem next_line_not_undocumented :
    let source := "/**\n * Fry.\n */\nvoid fry(void);\nvoid boil(void);\n".toList
    let fry := actionOf "egg.c".toList "fry".toList 4
    let boil := actionOf "egg.c".toList "boil".toList 5
    fry ∈ (Resolution.ofSource source).outline.signatures "egg.c".toList
      ∧ boil ∈ (Resolution.ofSource source).outline.signatures "egg.c".toList
      ∧ fry.name ≠ boil.name ∧ fry.line < boil.line
      ∧ NoneBetween source fry boil
      ∧ (∀ r ∈ records .edt source, r.record.name ≠ some boil.name)
      ∧ ⟨.undocumented, boil⟩ ∉ (ofSource "egg.c".toList source).findings := by
  intro source fry boil
  have hsignatures : (Resolution.ofSource source).outline.signatures "egg.c".toList
      = [fry, boil] := by decide +kernel
  have hbetween : NoneBetween source fry boil := fun d => by cases d <;> decide +kernel
  rw [hsignatures]
  exact ⟨List.mem_cons_self, List.mem_cons_of_mem fry (List.mem_singleton_self boil), by decide,
    by decide, hbetween, by decide +kernel, by decide +kernel⟩

end DocAudit.FileReport
