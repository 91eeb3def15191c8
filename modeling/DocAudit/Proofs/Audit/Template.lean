/-
  DocAudit.Proofs.Audit.Template
  ──────────────────────────────
  **A TEMPLATE ABOVE ITS DECLARATION PASSES THE CHECK.**

  The template of a declaration, put into the source right above it,

      moves the declaration down and changes nothing else that is declared,
      is read as a record of the shape of the declaration,
      is the record that the declaration is bound to,

  so that nothing is found on the declaration any more (`no_finding_on_documented`).
-/
import DocAudit.Proofs.Audit.Binding
import DocAudit.Proofs.Audit.Finding
import DocAudit.Proofs.Comment.Template
import DocAudit.Proofs.Resolution.Insertion

namespace DocAudit.Template

open Text Draft

/-! ## §1. The block of a template. -/

/-- The name that a template states in a dialect. -/
def statedName (s : Signature) : Dialect → Option Text
  | .doxygen => none
  | .edt => some s.name

/-- **A template is a comment block that states the shape of its signature.** -/
theorem exists_block {s : Signature} {o : WrapOptions} {d : Dialect} (hs : s.Scanned)
    (htypes : s.HasPlainTypes) (hfits : s.Fits o d) :
    ∃ b : CommentBlock, b.dialect = d ∧ block d o s = join ['\n'] b.lines
      ∧ b.lines.map endLine = b.lines
      ∧ ∀ n, ∃ r, Reading.recordOf d (b.comment n) = .ok (some r)
        ∧ (Shape.ofRecord (statedName s d) (DocRecord.ofSignature s)).StatedBy r := by
  cases d with
  | doxygen =>
    have htame := Doxygen.tame_ofSignature hs htypes
    refine ⟨Block.ofRows .doxygen o _ htame, rfl, ?_, Block.endLine_ofRows htame, fun n => ?_⟩
    · show Block.render _ _ o = _
      unfold Block.render
      rw [Doxygen.text_eq, Block.lines_ofRows htame (List.cons_ne_nil _ _)]
    · obtain ⟨r, hparse, hstated⟩ :=
        Doxygen.parse_rows (Doxygen.legible_ofSignature hs htypes hfits) htame n
      refine ⟨r, ?_, hstated⟩
      unfold Reading.recordOf
      dsimp only
      rw [hparse]
      rfl
  | edt =>
    have htame := Edt.tame_ofSignature hs htypes
    refine ⟨Block.ofRows .edt o _ htame, rfl, ?_, Block.endLine_ofRows htame, fun n => ?_⟩
    · show Block.render _ _ o = _
      unfold Block.render
      rw [Edt.text_eq, Block.lines_ofRows htame (List.cons_ne_nil _ _)]
    · exact Edt.parse_rows (Edt.legible_ofSignature hs htypes hfits) htame n

/-- The lines of the text of a block. -/
theorem lines_join_block {b : CommentBlock} (h : b.lines.map endLine = b.lines) :
    lines (join ['\n'] b.lines) = b.lines := by
  have hfeeds : ∀ l ∈ b.lines, '\n' ∉ l := fun _ hl => (b.quiet_of_mem hl).oneLine
  have hsplit : b.lines = (b.dialect.opening :: b.inner) ++ [closingLine] := rfl
  have hinit : (b.dialect.opening :: b.inner).map endLine = b.dialect.opening :: b.inner := by
    rw [hsplit, List.map_append] at h
    exact (List.append_inj h (by rw [List.length_map])).1
  rw [hsplit, join_append_cons, join_singleton, lines_flatMap_line_append, hinit,
    lines_of_not_mem (by decide)]
  · rfl
  · intro l hl
    exact hfeeds l (List.mem_append_left _ hl)

/-- The lines of a source with a block put in. -/
theorem lines_insertAbove {source : Text} {n : Nat} (hpos : 1 ≤ n)
    (hn : n ≤ (lines source).length) {b : CommentBlock} (h : b.lines.map endLine = b.lines) :
    lines (insertAbove n (join ['\n'] b.lines) source)
      = (lines source).take (n - 1) ++ b.lines ++ (lines source).drop (n - 1) := by
  have hlt : n - 1 < (lines source).length := by omega
  have hnil : b.lines ≠ [] := List.cons_ne_nil _ _
  have hput := lines_put hlt hnil fun _ hl => (b.quiet_of_mem hl).oneLine
  rw [h] at hput
  exact hput

/-! ## §2. The check of the documented source. -/

/-- A signature `k` lines further down. -/
def movedDown (k : Nat) (s : Signature) : Signature := { s with line := s.line + k }

/-- A finding on a declaration is a fault of a record bound to it. -/
theorem exists_fault_of_finding {path source : Text} {f : Finding}
    (hf : f ∈ (FileReport.ofSource path source).findings) :
    f.fault ∈ Fault.validate f.signature
      (Binding.recordFor (Reading.ofLines .doxygen (lines source)).records
        (Reading.ofLines .edt (lines source)).records f.signature) := by
  unfold FileReport.ofSource FileReport.ofResolution Finding.ofBindings at hf
  dsimp only at hf
  rw [Binding.bind_eq_map] at hf
  obtain ⟨b, hb, hfb⟩ := List.mem_flatMap.1 hf
  obtain ⟨s, _, rfl⟩ := List.mem_map.1 hb
  obtain ⟨fault, hfault, rfl⟩ := List.mem_map.1 hfb
  exact hfault

/-- **NOTHING IS FOUND ON A DECLARATION BELOW ITS TEMPLATE.**  Let the template of a
declaration be put into the source right above it, in either dialect and at any width
and indent.  The source then declares the same function further down, by the length of
the template, and the check finds nothing on it, provided that

  * the lexer stands between two pieces above the declaration,
  * its types are spelled with plain characters and its names fit the width,
  * no EDT record above it bears its name, if the template is an EDT one. -/
theorem no_finding_on_documented {source path : Text} {s : Signature} {d : Dialect}
    {o : WrapOptions} (hs : s ∈ (Resolution.ofSource source).outline.signatures path)
    (habove : Skeleton.EndsClear ((lines source).take (s.line - 1)))
    (htypes : s.HasPlainTypes) (hfits : s.Fits o d)
    (hfirst : d = .edt → ∀ q ∈ (Reading.ofLines .edt ((lines source).take (s.line - 1))).records,
      q.record.name ≠ some s.name) :
    movedDown (lines (block d o s)).length s
        ∈ (Resolution.ofSource (apply d o s source)).outline.signatures path
      ∧ ∀ f ∈ (FileReport.ofSource path (apply d o s source)).findings,
        f.signature ≠ movedDown (lines (block d o s)).length s := by
  have hscanned := Signature.scanned_of_mem hs
  obtain ⟨b, hdialect, hblock, hends, hread⟩ := exists_block hscanned htypes hfits
  obtain ⟨c, hc, rfl⟩ := List.mem_map.1 hs
  obtain ⟨hpos, hbound, _⟩ := Resolution.stands_of_mem hc
  have hlength : (lines (block d o (c.toSignature path))).length = b.lines.length := by
    rw [hblock, lines_join_block hends]
  have hlines : lines (apply d o (c.toSignature path) source)
      = (lines source).take (c.line - 1) ++ b.lines ++ (lines source).drop (c.line - 1) := by
    unfold apply
    rw [hblock]
    exact lines_insertAbove hpos hbound hends
  have hsize : ((lines source).take (c.line - 1)).length = c.line - 1 := by
    rw [List.length_take]
    omega
  rw [hlength]
  constructor
  · -- the declaration stands behind the block, and moves with everything behind it
    refine List.mem_map.2
      ⟨c.onLine (Skeleton.shift (c.line - 1) b.lines.length), ?_, ?_⟩
    · rw [Resolution.declarations_insert (List.take_append_drop (c.line - 1) (lines source)).symm
        hlines habove, hsize]
      exact List.mem_map_of_mem hc
    · have hshift : Skeleton.shift (c.line - 1) b.lines.length c.line
          = c.line + b.lines.length := if_pos (by omega)
      unfold Declaration.onLine
      rw [hshift]
      rfl
  · intro f hf hsignature
    -- a finding on it would be a fault of the record bound to it, which is the template's
    have hfault := exists_fault_of_finding hf
    obtain ⟨r, hrecord, hstated⟩ := hread (((lines source).take (c.line - 1)).length + 1)
    have hline : (movedDown b.lines.length (c.toSignature path)).line
        = ((lines source).take (c.line - 1)).length + b.lines.length + 1 := by
      show c.line + b.lines.length = _
      rw [hsize]
      omega
    have hname : d = .edt → r.name = some c.name := by
      rintro rfl
      exact hstated.name_eq
    have hdirections : ∀ p ∈ (movedDown b.lines.length (c.toSignature path)).params,
        p.direction = none := by
      intro p hp
      obtain ⟨t, n, rfl, _⟩ := hscanned.params p hp
      rfl
    rw [hsignature, hlines, Binding.recordFor_block hdialect hrecord hline hname hfirst,
      Fault.validate_of_statedBy hdirections hstated] at hfault
    exact List.not_mem_nil hfault

/-- An EDT template of fourteen lines above a function of two parameters. -/
theorem no_finding_on_documented_fry :
    let source := "struct pan;\nint fry(struct pan *p, int);\n".toList
    let fry : Signature :=
      { name := "fry".toList
        file := "egg.c".toList
        line := 2
        returns := Param.returning "int".toList
        params := [Param.typed "struct pan *".toList "p".toList, Param.typed "int".toList []] }
    movedDown 14 fry
        ∈ (Resolution.ofSource (apply .edt {} fry source)).outline.signatures "egg.c".toList
      ∧ ∀ f ∈ (FileReport.ofSource "egg.c".toList (apply .edt {} fry source)).findings,
        f.signature ≠ movedDown 14 fry := by
  intro source fry
  have hs : fry ∈ (Resolution.ofSource source).outline.signatures "egg.c".toList := by
    decide +kernel
  have habove : Skeleton.EndsClear ((lines source).take (fry.line - 1)) := by
    unfold Skeleton.EndsClear
    decide +kernel
  have htypes : fry.HasPlainTypes := by
    unfold Signature.HasPlainTypes
    decide +kernel
  have hfits : fry.Fits {} .edt := by
    unfold Signature.Fits
    decide +kernel
  have hlength : (lines (block .edt {} fry)).length = 14 := by
    decide +kernel
  have h := no_finding_on_documented hs habove htypes hfits fun _ => by decide +kernel
  rwa [hlength] at h

end DocAudit.Template
