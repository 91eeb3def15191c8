/-
  DocAudit.Proofs.Audit.Binding
  ─────────────────────────────
  **THE BLOCK RIGHT ABOVE A DECLARATION IS BOUND TO IT.**

  Records come in the order of the lines on which their comments end.  When a comment
  block stands right above a line, the records of the lines above the block end too
  early to be bound by position, those of the lines below it end too late, and what
  the block closes in the other dialect is no record there:

      Doxygen block   it is the first Doxygen record right above the line
      EDT block       no Doxygen record is, and it is the first EDT record of its name,
                      unless one above has the same name
-/
import DocAudit.Audit.Report
import DocAudit.Proofs.Comment.Body
import DocAudit.Proofs.Comment.Located

namespace DocAudit

/-! ## §1. Records of lines in three parts. -/

namespace Reading

theorem endLine_of_located? {d : Dialect} {c : Comment} {r : LocatedRecord}
    (h : located? d c = some r) : r.endLine = c.endLine := by
  unfold located? at h
  split at h
  · cases h
    rfl
  · cases h

/-- The records of comments end where lines were read. -/
theorem endLine_of_mem {d : Dialect} {n : Nat} {state : Option Comment.Open} {ls : List Text}
    {r : LocatedRecord} (h : r ∈ (Comment.locateFrom d n state ls).filterMap (located? d)) :
    n ≤ r.endLine ∧ r.endLine < n + ls.length := by
  obtain ⟨c, hc, hr⟩ := List.mem_filterMap.1 h
  rw [endLine_of_located? hr]
  exact Comment.endLine_mem hc

/-- **Records end two lines apart at least**, as their comments do. -/
theorem pairwise_endLine_records (d : Dialect) (ls : List Text) :
    (ofLines d ls).records.Pairwise fun r q => r.endLine + 2 ≤ q.endLine := by
  refine (Comment.pairwise_endLine d ls).filterMap (located? d) fun c e hce r hr q hq => ?_
  rw [endLine_of_located? hr, endLine_of_located? hq]
  exact hce

/-- **In its own dialect a block is one record more**, if it can be read. -/
theorem records_insert (b : CommentBlock) (above below : List Text) {r : DocRecord}
    (hread : recordOf b.dialect (b.comment (above.length + 1)) = .ok (some r)) :
    (ofLines b.dialect (above ++ b.lines ++ below)).records
      = (ofLines b.dialect above).records
        ++ ⟨above.length + b.lines.length, r⟩
          :: (Comment.locateFrom b.dialect (above.length + b.lines.length + 1) none below).filterMap
              (located? b.dialect) := by
  have hlocated : located? b.dialect (b.comment (1 + above.length))
      = some ⟨above.length + b.lines.length, r⟩ := by
    unfold located?
    rw [Nat.add_comm 1 above.length, hread, b.length_lines]
    show some (LocatedRecord.mk (above.length + 1 + b.inner.length + 1) r) = _
    congr 2
    omega
  have hnext : 1 + above.length + b.lines.length = above.length + b.lines.length + 1 := by omega
  unfold ofLines Comment.locate
  dsimp only
  rw [List.append_assoc, Comment.locateFrom_append, b.locateFrom_lines, List.filterMap_append,
    List.filterMap_cons_some hlocated, hnext]

/-- The comment that an EDT block closes for the other dialect has a line without a
star, and is no record. -/
theorem located?_of_edt_lines {c : Comment} {b : CommentBlock} (hb : b.dialect = .edt)
    (hc : ∃ front, c.lines = front ++ b.lines.map Text.trimEnd) : located? .doxygen c = none := by
  obtain ⟨front, hlines⟩ := hc
  have hmem : Dialect.opening .edt ∈ c.lines := by
    rw [hlines]
    refine List.mem_append_right front (List.mem_map.2 ⟨b.dialect.opening, ?_, ?_⟩)
    · exact List.mem_append_left _ List.mem_cons_self
    · rw [Comment.trimEnd_opening, hb]
  have hbody : ∀ ls, c.body (Dialect.opening .doxygen) ≠ .ok ls :=
    Comment.body_ne_ok hmem (by decide) (by decide)
  unfold located? recordOf Doxygen.parse
  dsimp only
  split
  · next r hr =>
    split at hr
    · cases hr
    · next ls hls => exact absurd hls (hbody ls)
  · rfl

/-- **An EDT block is no Doxygen record**, whatever is open above it. -/
theorem records_insert_edt {b : CommentBlock} (hb : b.dialect = .edt) (above below : List Text) :
    (ofLines .doxygen (above ++ b.lines ++ below)).records
      = (ofLines .doxygen above).records
        ++ (Comment.locateFrom .doxygen (above.length + b.lines.length + 1) none below).filterMap
            (located? .doxygen) := by
  have hother : Dialect.doxygen ≠ b.dialect := by
    rw [hb]
    decide
  have hnext : 1 + above.length + b.lines.length = above.length + b.lines.length + 1 := by omega
  unfold ofLines Comment.locate
  dsimp only
  rw [List.append_assoc, Comment.locateFrom_append, b.locateFrom_lines_other hother,
    List.filterMap_append, List.filterMap_append, hnext]
  congr 1
  -- at most one comment is closed by the block, and it is not well formed
  cases Comment.openAfter .doxygen 1 none above with
  | none => rfl
  | some o =>
    rw [Option.map_some, Option.toList_some, List.filterMap_cons_none, List.filterMap_nil,
      List.nil_append]
    exact located?_of_edt_lines hb ⟨o.lines, rfl⟩

end Reading

/-! ## §2. The binding. -/

namespace Binding

/-- Both rounds together choose the record of each declaration. -/
theorem orEdt_byDoxygen (doxygen edt : List LocatedRecord) (s : Signature) :
    orEdt edt (byDoxygen doxygen s) = ⟨s, recordFor doxygen edt s⟩ := by
  unfold orEdt byDoxygen recordFor
  cases above? doxygen s.line <;> rfl

/-- **Every declaration is bound to the record chosen for it alone.**  That the second
round is left out when the first one binds all changes nothing. -/
theorem bind_eq_map (signatures : List Signature) (doxygen edt : List LocatedRecord) :
    bind signatures doxygen edt = signatures.map fun s => ⟨s, recordFor doxygen edt s⟩ := by
  have hrounds : (signatures.map (byDoxygen doxygen)).map (orEdt edt)
      = signatures.map fun s => ⟨s, recordFor doxygen edt s⟩ := by
    rw [List.map_map]
    exact List.map_congr_left fun s _ => orEdt_byDoxygen doxygen edt s
  unfold bind
  dsimp only
  split
  · next hall =>
    -- the second round would leave every binding as it is
    have hsame : ∀ b ∈ signatures.map (byDoxygen doxygen), orEdt edt b = b :=
      fun b hb => if_pos (List.all_eq_true.1 hall b hb)
    rw [← hrounds, List.map_congr_left hsame, List.map_id']
  · exact hrounds

/-- No record is right above a line when all end too early or too late. -/
theorem find?_inWindow_eq_none {records : List LocatedRecord} {line : Nat}
    (h : ∀ r ∈ records, r.endLine + window < line ∨ line ≤ r.endLine) :
    records.find? (fun r => inWindow line r.endLine) = none := by
  rw [List.find?_eq_none]
  intro r hr
  unfold inWindow
  rw [Bool.and_eq_true, decide_eq_true_iff, decide_eq_true_iff]
  rcases h r hr with hearly | hlate
  · omega
  · omega

variable {b : CommentBlock} {above below : List Text} {r : DocRecord} {s : Signature}

/-- Records of the lines above a block end too early to stand right above the line
behind it. -/
theorem early_of_mem_above {d : Dialect}
    (hline : s.line = above.length + b.lines.length + 1) {q : LocatedRecord}
    (hq : q ∈ (Reading.ofLines d above).records) : q.endLine + window < s.line := by
  obtain ⟨_, hhigh⟩ := Reading.endLine_of_mem hq
  have hlength := b.length_lines
  unfold window
  omega

/-- **A Doxygen block is bound to the declaration right below it.** -/
theorem recordFor_doxygen (hb : b.dialect = .doxygen)
    (hread : Reading.recordOf .doxygen (b.comment (above.length + 1)) = .ok (some r))
    (hline : s.line = above.length + b.lines.length + 1) (edt : List LocatedRecord) :
    recordFor (Reading.ofLines .doxygen (above ++ b.lines ++ below)).records edt s = some r := by
  have hrecords := Reading.records_insert b above below (hb ▸ hread)
  rw [hb] at hrecords
  have hearly : (Reading.ofLines .doxygen above).records.find?
      (fun q => inWindow s.line q.endLine) = none :=
    find?_inWindow_eq_none fun q hq => .inl (early_of_mem_above hline hq)
  have hhere : inWindow s.line (above.length + b.lines.length) = true := by
    unfold inWindow window
    rw [Bool.and_eq_true, decide_eq_true_iff, decide_eq_true_iff]
    omega
  unfold recordFor above?
  rw [hrecords, List.find?_append, hearly, List.find?_cons]
  dsimp only
  rw [hhere]
  rfl

/-- **An EDT block is bound to the declaration right below it**, if it bears its name
and no record above it does. -/
theorem recordFor_edt (hb : b.dialect = .edt)
    (hread : Reading.recordOf .edt (b.comment (above.length + 1)) = .ok (some r))
    (hline : s.line = above.length + b.lines.length + 1) (hname : r.name = some s.name)
    (hfirst : ∀ q ∈ (Reading.ofLines .edt above).records, q.record.name ≠ some s.name) :
    recordFor (Reading.ofLines .doxygen (above ++ b.lines ++ below)).records
      (Reading.ofLines .edt (above ++ b.lines ++ below)).records s = some r := by
  have hrecords := Reading.records_insert b above below (hb ▸ hread)
  rw [hb] at hrecords
  have hnone : (Reading.ofLines .doxygen (above ++ b.lines ++ below)).records.find?
      (fun q => inWindow s.line q.endLine) = none := by
    rw [Reading.records_insert_edt hb]
    refine find?_inWindow_eq_none fun q hq => ?_
    rcases List.mem_append.1 hq with hq | hq
    · exact .inl (early_of_mem_above hline hq)
    -- the comments below the block end below the declaration's line
    · have hlow := (Reading.endLine_of_mem hq).1
      omega
  have hearly : (Reading.ofLines .edt above).records.find?
      (fun q => q.record.name == some s.name) = none := by
    rw [List.find?_eq_none]
    intro q hq
    rw [beq_iff_eq]
    exact hfirst q hq
  have hhere : (r.name == some s.name) = true := by rw [hname, beq_self_eq_true]
  unfold recordFor above? named?
  rw [hnone, hrecords, List.find?_append, hearly, List.find?_cons]
  dsimp only
  rw [hhere]
  rfl

/-- **A block is bound to the declaration right below it**, in either dialect. -/
theorem recordFor_block {d : Dialect} (hb : b.dialect = d)
    (hread : Reading.recordOf d (b.comment (above.length + 1)) = .ok (some r))
    (hline : s.line = above.length + b.lines.length + 1)
    (hname : d = .edt → r.name = some s.name)
    (hfirst : d = .edt →
      ∀ q ∈ (Reading.ofLines .edt above).records, q.record.name ≠ some s.name) :
    recordFor (Reading.ofLines .doxygen (above ++ b.lines ++ below)).records
      (Reading.ofLines .edt (above ++ b.lines ++ below)).records s = some r := by
  cases d with
  | doxygen => exact recordFor_doxygen hb hread hline _
  | edt => exact recordFor_edt hb hread hline (hname rfl) (hfirst rfl)

end Binding
end DocAudit
