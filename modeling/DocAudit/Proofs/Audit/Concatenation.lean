/-
  DocAudit.Proofs.Audit.Concatenation
  ───────────────────────────────────
  **TWO SOURCES, ONE BEHIND THE OTHER, ARE CHECKED APART.**

  What the first source declares is bound to the records that it is bound to alone, and
  so is what the second one declares, because

      records above   end too early to stand right above a declaration below
      records below   end behind every declaration above
      names           are not borrowed, neither upwards nor downwards

  So the findings are those of the first source, and those of the second further down.
-/
import DocAudit.Proofs.Audit.Binding
import DocAudit.Proofs.Comment.Moved
import DocAudit.Proofs.Resolution.Concatenation
import DocAudit.Proofs.Resolution.Lines

namespace DocAudit

/-! ## §1. Declarations on other lines. -/

/-- A signature on another line. -/
def Signature.onLine (g : Nat → Nat) (s : Signature) : Signature := { s with line := g s.line }

/-- A finding on a declaration on another line. -/
def Finding.onLine (g : Nat → Nat) (f : Finding) : Finding :=
  { f with signature := f.signature.onLine g }

theorem toSignature_onLine (g : Nat → Nat) (file : Text) (d : Declaration) :
    (d.onLine g).toSignature file = (d.toSignature file).onLine g := rfl

/-- What is wrong with a declaration does not hang on its line. -/
theorem Fault.validate_onLine (g : Nat → Nat) (s : Signature) (r : Option DocRecord) :
    validate (s.onLine g) r = validate s r := by
  cases r <;> rfl

namespace Binding

/-! ## §2. Records in two halves. -/

variable {doxygen edt : List LocatedRecord} {s : Signature}

/-- Records that end behind a declaration and bear other names leave it alone. -/
theorem recordFor_append_of_late {moreDoxygen moreEdt : List LocatedRecord}
    (hdoxygen : ∀ r ∈ moreDoxygen, s.line ≤ r.endLine) (hedt : ∀ r ∈ moreEdt, s.line ≤ r.endLine)
    (hnames : ∀ r ∈ moreEdt, r.record.name ≠ some s.name) :
    recordFor (doxygen ++ moreDoxygen) (edt ++ moreEdt) s = recordFor doxygen edt s := by
  have hname : moreEdt.find? (fun r => r.record.name == some s.name) = none := by
    rw [List.find?_eq_none]
    intro r hr
    rw [beq_iff_eq]
    exact hnames r hr
  unfold recordFor above? named?
  rw [List.find?_append, List.find?_append, List.find?_append, hname,
    find?_inWindow_eq_none fun r hr => .inr (hdoxygen r hr),
    find?_inWindow_eq_none fun r hr => .inr (hedt r hr), Option.or_none, Option.or_none,
    Option.or_none]

/-- Records that end far above a declaration and bear other names leave it alone. -/
theorem recordFor_append_of_early {moreDoxygen moreEdt : List LocatedRecord}
    (hdoxygen : ∀ r ∈ moreDoxygen, r.endLine + window < s.line)
    (hedt : ∀ r ∈ moreEdt, r.endLine + window < s.line)
    (hnames : ∀ r ∈ moreEdt, r.record.name ≠ some s.name) :
    recordFor (moreDoxygen ++ doxygen) (moreEdt ++ edt) s = recordFor doxygen edt s := by
  have hname : moreEdt.find? (fun r => r.record.name == some s.name) = none := by
    rw [List.find?_eq_none]
    intro r hr
    rw [beq_iff_eq]
    exact hnames r hr
  unfold recordFor above? named?
  rw [List.find?_append, List.find?_append, List.find?_append, hname,
    find?_inWindow_eq_none fun r hr => .inl (hdoxygen r hr),
    find?_inWindow_eq_none fun r hr => .inl (hedt r hr), Option.none_or, Option.none_or,
    Option.none_or]

/-- **Records and declaration moved together** stay bound as they are. -/
theorem recordFor_movedDown (k : Nat) (doxygen edt : List LocatedRecord) (s : Signature) :
    recordFor (doxygen.map (LocatedRecord.movedDown k)) (edt.map (LocatedRecord.movedDown k))
      (s.onLine (· + k)) = recordFor doxygen edt s := by
  have hwindow : ((fun r : LocatedRecord => inWindow (s.onLine (· + k)).line r.endLine)
      ∘ LocatedRecord.movedDown k) = fun r => inWindow s.line r.endLine := by
    funext r
    have hbelow : r.endLine + k < s.line + k ↔ r.endLine < s.line := by omega
    have hnear : s.line + k ≤ r.endLine + k + window ↔ s.line ≤ r.endLine + window := by omega
    show (decide (r.endLine + k < s.line + k) && decide (s.line + k ≤ r.endLine + k + window)) = _
    rw [decide_eq_decide.2 hbelow, decide_eq_decide.2 hnear]
    rfl
  have habove : ∀ records : List LocatedRecord,
      above? (records.map (LocatedRecord.movedDown k)) (s.onLine (· + k)).line
        = above? records s.line := by
    intro records
    unfold above?
    rw [List.find?_map, hwindow, Option.map_map]
    rfl
  have hnamed : named? (edt.map (LocatedRecord.movedDown k)) (s.onLine (· + k)).name
      = named? edt s.name := by
    unfold named?
    rw [List.find?_map, Option.map_map]
    rfl
  unfold recordFor
  rw [habove, habove, hnamed]

end Binding

/-! ## §3. Two sources. -/

namespace Reading

/-- **The records of two halves**, when no block is open between them. -/
theorem records_append {d : Dialect} {above : List Text}
    (h : Comment.openAfter d 1 none above = none) (below : List Text) :
    (ofLines d (above ++ below)).records
      = (ofLines d above).records
        ++ (ofLines d below).records.map (LocatedRecord.movedDown above.length) := by
  rw [← records_add]
  unfold ofLines Comment.locate
  dsimp only
  rw [Comment.locateFrom_append, h, List.filterMap_append]

end Reading

namespace FileReport

/-- What a source declares. -/
def declared (source : Text) : List Declaration := (Resolution.ofSource source).outline.declarations

/-- The records of a dialect in a source. -/
def records (d : Dialect) (source : Text) : List LocatedRecord :=
  (Reading.ofLines d (Text.lines source)).records

/-- No comment of one source has to do with a declaration of the other, which follows
right behind it. -/
structure Separate (a b : Text) : Prop where
  /-- No block is open at the end of the first source. -/
  closed : ∀ d, Comment.openAfter d 1 none (Text.lines a) = none
  /-- No comment ends on its last two lines. -/
  distant : ∀ d, ∀ c ∈ Comment.locate d (Text.lines a), c.endLine + 2 ≤ (Text.lines a).length
  /-- No record of the first source names a function of the second. -/
  foreignAbove : ∀ r ∈ records .edt a, ∀ s ∈ declared b, r.record.name ≠ some s.name
  /-- No record of the second source names a function of the first. -/
  foreignBelow : ∀ r ∈ records .edt b, ∀ s ∈ declared a, r.record.name ≠ some s.name

/-- The findings on one declaration. -/
def findingsOn (doxygen edt : List LocatedRecord) (s : Signature) : List Finding :=
  Finding.ofBinding ⟨s, Binding.recordFor doxygen edt s⟩

/-- **The findings of a check**, declaration by declaration. -/
theorem findings_ofResolution (path source : Text) (r : Resolution) :
    (ofResolution path source r).findings
      = (r.outline.signatures path).flatMap
          (findingsOn (records .doxygen source) (records .edt source)) := by
  unfold ofResolution Finding.ofBindings
  dsimp only
  rw [Binding.bind_eq_map, List.flatMap_map]
  rfl

/-- **The findings of a source**, declaration by declaration. -/
theorem findings_ofSource (path source : Text) :
    (ofSource path source).findings
      = (declared source).flatMap fun d =>
          findingsOn (records .doxygen source) (records .edt source) (d.toSignature path) := by
  unfold ofSource
  rw [findings_ofResolution]
  unfold Outline.signatures
  rw [List.flatMap_map]
  rfl

/-- Findings move with the declaration, as long as the record stays the same. -/
theorem findingsOn_onLine {g : Nat → Nat} {s : Signature}
    {doxygen edt movedDoxygen movedEdt : List LocatedRecord}
    (h : Binding.recordFor movedDoxygen movedEdt (s.onLine g) = Binding.recordFor doxygen edt s) :
    findingsOn movedDoxygen movedEdt (s.onLine g)
      = (findingsOn doxygen edt s).map (Finding.onLine g) := by
  unfold findingsOn Finding.ofBinding
  dsimp only
  rw [h, Fault.validate_onLine, List.map_map]
  rfl

variable {path a b : Text}

theorem line_le_of_mem {source : Text} {d : Declaration} (h : d ∈ declared source) :
    1 ≤ d.line ∧ d.line ≤ (Text.lines source).length :=
  ⟨(Resolution.stands_of_mem h).1, (Resolution.stands_of_mem h).2.1⟩

/-- The records of the second source end behind every declaration of the first. -/
theorem late_of_mem_moved {d : Dialect} {k : Nat} {r : LocatedRecord}
    (h : r ∈ (records d b).map (LocatedRecord.movedDown k)) : k < r.endLine := by
  obtain ⟨q, hq, rfl⟩ := List.mem_map.1 h
  have hpos : 1 ≤ q.endLine := (Reading.endLine_of_mem hq).1
  show k < q.endLine + k
  omega

/-- The records of the first source end far above every declaration of the second. -/
theorem Separate.early (h : Separate a b) {d : Dialect} {r : LocatedRecord}
    (hr : r ∈ records d a) : r.endLine + Binding.window ≤ (Text.lines a).length := by
  obtain ⟨c, hc, hlocated⟩ := List.mem_filterMap.1 hr
  rw [Reading.endLine_of_located? hlocated]
  exact h.distant d c hc

/-- **What the first source declares is bound as it is alone.** -/
theorem Separate.recordFor_above (h : Separate a b) {d : Declaration} (hd : d ∈ declared a) :
    Binding.recordFor
        (records .doxygen a
          ++ (records .doxygen b).map (LocatedRecord.movedDown (Text.lines a).length))
        (records .edt a ++ (records .edt b).map (LocatedRecord.movedDown (Text.lines a).length))
        (d.toSignature path)
      = Binding.recordFor (records .doxygen a) (records .edt a) (d.toSignature path) := by
  have hline : (d.toSignature path).line ≤ (Text.lines a).length := (line_le_of_mem hd).2
  refine Binding.recordFor_append_of_late (fun r hr => ?_) (fun r hr => ?_) fun r hr => ?_
  · exact Nat.le_trans hline (Nat.le_of_lt (late_of_mem_moved hr))
  · exact Nat.le_trans hline (Nat.le_of_lt (late_of_mem_moved hr))
  · obtain ⟨q, hq, rfl⟩ := List.mem_map.1 hr
    exact h.foreignBelow q hq d hd

/-- **What the second source declares is bound as it is alone**, further down. -/
theorem Separate.recordFor_below (h : Separate a b) {d : Declaration} (hd : d ∈ declared b) :
    Binding.recordFor
        (records .doxygen a
          ++ (records .doxygen b).map (LocatedRecord.movedDown (Text.lines a).length))
        (records .edt a ++ (records .edt b).map (LocatedRecord.movedDown (Text.lines a).length))
        ((d.toSignature path).onLine (· + (Text.lines a).length))
      = Binding.recordFor (records .doxygen b) (records .edt b) (d.toSignature path) := by
  have hpos : 1 ≤ d.line := (line_le_of_mem hd).1
  have hearly : ∀ (e : Dialect), ∀ r ∈ records e a,
      r.endLine + Binding.window < d.line + (Text.lines a).length := by
    intro e r hr
    have hend := h.early hr
    omega
  rw [← Binding.recordFor_movedDown (Text.lines a).length (records .doxygen b)]
  exact Binding.recordFor_append_of_early (hearly .doxygen) (hearly .edt)
    fun r hr => h.foreignAbove r hr d hd

/-- **TWO SOURCES, ONE BEHIND THE OTHER, ARE CHECKED APART.**  Let a source end in a line
feed, with every brace closed, no comment open and the last statement ended.  Then a
source put behind it declares what it declares alone, further down by the lines of the
first, and so do the findings move, if no comment of either has to do with a declaration
of the other. -/
theorem concatenation_checks_apart (hfeed : a.getLast? = some '\n')
    (h : Skeleton.Finished (Text.lines a)) :
    declared (a ++ b)
        = declared a ++ (declared b).map (Declaration.onLine (· + (Text.lines a).length))
      ∧ (Separate a b → (ofSource path (a ++ b)).findings
          = (ofSource path a).findings
            ++ (ofSource path b).findings.map (Finding.onLine (· + (Text.lines a).length))) := by
  have hdeclared : declared (a ++ b)
      = declared a ++ (declared b).map (Declaration.onLine (· + (Text.lines a).length)) :=
    Resolution.declarations_append hfeed h b
  refine ⟨hdeclared, fun hsep => ?_⟩
  have hrecords : ∀ d, records d (a ++ b)
      = records d a ++ (records d b).map (LocatedRecord.movedDown (Text.lines a).length) := by
    intro d
    unfold records
    rw [Text.lines_append hfeed, Reading.records_append (hsep.closed d)]
  rw [findings_ofSource, findings_ofSource, findings_ofSource, hdeclared, hrecords, hrecords,
    List.flatMap_append, List.flatMap_map, List.map_flatMap]
  refine congrArg₂ (· ++ ·) (List.flatMap_congr fun d hd => ?_) (List.flatMap_congr fun d hd => ?_)
  · unfold findingsOn
    rw [hsep.recordFor_above hd]
  · rw [toSignature_onLine]
    exact findingsOn_onLine (hsep.recordFor_below hd)

/-- Two functions that lack a return entry, documented in one dialect each. -/
theorem concatenation_checks_apart_documented :
    let a := "/**\n * @param pan\n */\nint fry(int pan);\n\n".toList
    let b := "/*\n * edt: * function boil\n */\nint boil(void);\n".toList
    a.getLast? = some '\n' ∧ Skeleton.Finished (Text.lines a) ∧ Separate a b
      ∧ declared (a ++ b) = declared a ++ (declared b).map (Declaration.onLine (· + 5))
      ∧ (ofSource [] (a ++ b)).findings
          = (ofSource [] a).findings ++ (ofSource [] b).findings.map (Finding.onLine (· + 5)) := by
  intro a b
  have hfinished : Skeleton.Finished (Text.lines a) :=
    ⟨by decide +kernel, by unfold Skeleton.EndsClear; decide +kernel, by decide +kernel⟩
  have hseparate : Separate a b :=
    { closed := fun d => by cases d <;> decide +kernel
      distant := fun d => by cases d <;> decide +kernel
      foreignAbove := by decide +kernel
      foreignBelow := by decide +kernel }
  have happly := @concatenation_checks_apart [] a b rfl hfinished
  exact ⟨rfl, hfinished, hseparate, happly.1, happly.2 hseparate⟩

end FileReport
end DocAudit
