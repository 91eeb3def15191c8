/-
  DocAudit.Proofs.Comment.Template
  ────────────────────────────────
  **A TEMPLATE CAN BE READ.**

  The names of a scanned signature are identifiers.  If its types are spelled with the
  characters of plain types and its names fit the width, then the record that a
  template writes holds no marker but its own and no character that could end the
  block, in either dialect:

      Doxygen.legible_ofSignature   Edt.legible_ofSignature
      Doxygen.tame_ofSignature      Edt.tame_ofSignature
-/
import DocAudit.Comment.Template
import DocAudit.Proofs.Comment.Doxygen
import DocAudit.Proofs.Comment.Edt
import DocAudit.Proofs.Resolution.Lines

namespace DocAudit

/-! ## §1. Scanned signatures. -/

namespace Signature

/-- A signature as a scan yields it: names are identifiers, every type is stated, and
nothing else is known about a parameter. -/
structure Scanned (s : Signature) : Prop where
  /-- The function has a name. -/
  name : Text.isIdentifier s.name = true
  /-- The return type is stated. -/
  returns : ∃ t, s.returns = Param.returning t
  /-- Parameters have a type, and a name unless it is left out. -/
  params : ∀ p ∈ s.params, ∃ t n, p = Param.typed t n ∧ (n = [] ∨ Text.isIdentifier n = true)

/-- **Every reported signature is such a one.** -/
theorem scanned_of_mem {source path : Text} {s : Signature}
    (h : s ∈ (Resolution.ofSource source).outline.signatures path) : s.Scanned := by
  obtain ⟨d, hd, rfl⟩ := List.mem_map.1 h
  rw [Resolution.declarations_ofSource] at hd
  refine ⟨Declaration.isIdentifier_name hd, ⟨d.returnType, rfl⟩, ?_⟩
  rw [Declaration.declarations_scan] at hd
  obtain ⟨head, hhead, rfl⟩ := List.mem_map.1 hd
  obtain ⟨statement, hstatement, hof⟩ := List.mem_filterMap.1 hhead
  obtain ⟨_, _, hinside⟩ := Declaration.mem_of_headOf? hof
  intro p hp
  obtain ⟨q, hq, rfl⟩ := List.mem_map.1 hp
  obtain ⟨group, hgroup, rfl⟩ := List.mem_map.1 hq
  refine ⟨_, _, rfl, ?_⟩
  -- the name of a parameter is a name token of the source, if there is one
  rcases Declaration.name_paramOf group with hnone | ⟨t, ht, hname, htext⟩
  · exact .inl hnone
  · right
    have hmem := Declaration.mem_of_mem_statements hstatement
      (hinside t (Declaration.mem_of_mem_paramGroups hgroup ht))
    show Text.isIdentifier (Declaration.paramOf group).2 = true
    rw [htext]
    exact (Piece.isIdentifier_of_isName hmem hname).1

/-- A character of a plain type: an ASCII letter, digit or `_`, a star, a bracket, a
comma or a space. -/
def isPlainTypeChar (c : Char) : Bool :=
  Text.isNameChar c || "*()[], ".toList.contains c

/-- Every stated type is spelled with such characters. -/
def HasPlainTypes (s : Signature) : Prop :=
  ∀ p ∈ s.returns :: s.params, ∀ t ∈ p.typename, ∀ c ∈ t, isPlainTypeChar c = true

/-- The marks and names of the template fit into the lines of a block. -/
def Fits (o : WrapOptions) (s : Signature) : Dialect → Prop
  | .doxygen =>
    (∀ p ∈ s.params, 11 + (DocRecord.templateParam p).name.length ≤ o.width - Block.markWidth)
      ∧ (s.returnsVoid = false → 7 ≤ o.width - Block.markWidth)
  | .edt =>
    16 + s.name.length ≤ o.width - Block.markWidth
      ∧ ∀ p ∈ s.params, 10 + p.name.length ≤ o.width - Block.markWidth

end Signature

/-! ## §2. Names and types. -/

namespace Template

open Text

theorem not_mem_of_plain {t : Text} (h : ∀ c ∈ t, Signature.isPlainTypeChar c = true) {x : Char}
    (hx : Signature.isPlainTypeChar x = false) : x ∉ t := by
  intro hmem
  rw [h x hmem] at hx
  cases hx

theorem isPlainTypeChar_of_mem {w : Text} (h : isIdentifier w = true) {c : Char} (hc : c ∈ w) :
    Signature.isPlainTypeChar c = true := by
  unfold Signature.isPlainTypeChar
  rw [isNameChar_of_mem h hc]
  rfl

/-- A plain type is tame. -/
theorem tame_of_plain {t : Text} (h : ∀ c ∈ t, Signature.isPlainTypeChar c = true) :
    Block.Tame t := by
  have hne : ∀ c ∈ t, ∀ x, Signature.isPlainTypeChar x = false → (c != x) = true := by
    rintro c hc x hx
    rw [bne_iff_ne]
    rintro rfl
    exact not_mem_of_plain h hx hc
  intro c hc
  have hother := hne c hc
  unfold Block.isTame
  rw [hother '\n' (by decide), hother '\r' (by decide), hother '\x7b' (by decide),
    hother '\x7d' (by decide), hother '/' (by decide)]
  rfl

theorem tame_of_isIdentifier {w : Text} (h : isIdentifier w = true) : Block.Tame w :=
  tame_of_plain fun _ hc => isPlainTypeChar_of_mem h hc

/-- The name in a template is one tame word without a marker. -/
theorem name_templateParam {p : Param} (h : p.name = [] ∨ isIdentifier p.name = true) :
    (DocRecord.templateParam p).name ≠ []
      ∧ (∀ c ∈ (DocRecord.templateParam p).name, isBlank c = false)
      ∧ Block.Tame (DocRecord.templateParam p).name := by
  unfold DocRecord.templateParam
  dsimp only
  split
  · exact ⟨by decide, by decide, .of_all rfl⟩
  · next hne =>
    have hname := h.resolve_left hne
    exact ⟨hne, fun c hc => isBlank_of_isNameChar (isNameChar_of_mem hname hc),
      tame_of_isIdentifier hname⟩

variable {s : Signature} {o : WrapOptions}

/-- A template leaves the description open. -/
theorem descriptionOr_ofSignature (s : Signature) :
    Block.descriptionOr (DocRecord.ofSignature s).description = Block.descriptionSlot := rfl

/-- What a template knows about a parameter. -/
theorem exists_templateParam (hs : s.Scanned) (htypes : s.HasPlainTypes) {q : Param}
    (hq : q ∈ (DocRecord.ofSignature s).params) :
    ∃ p ∈ s.params, q = DocRecord.templateParam p
      ∧ (∃ t, q.typename = some t ∧ ∀ c ∈ t, Signature.isPlainTypeChar c = true)
      ∧ q.comment = none ∧ q.direction = some .input
      ∧ q.name ≠ [] ∧ (∀ c ∈ q.name, isBlank c = false) ∧ Block.Tame q.name := by
  obtain ⟨p, hp, rfl⟩ := List.mem_map.1 hq
  obtain ⟨t, n, rfl, hn⟩ := hs.params p hp
  have htype := htypes _ (List.mem_cons_of_mem _ hp) t rfl
  exact ⟨_, hp, rfl, ⟨t, rfl, htype⟩, rfl, rfl, name_templateParam hn⟩

/-- What a template knows about a return value. -/
theorem exists_templateReturns (hs : s.Scanned) (htypes : s.HasPlainTypes) {q : Param}
    (hq : q ∈ (DocRecord.ofSignature s).returns) :
    s.returnsVoid = false ∧ q.comment = none
      ∧ ∃ t, q.typename = some t ∧ ∀ c ∈ t, Signature.isPlainTypeChar c = true := by
  obtain ⟨t, ht⟩ := hs.returns
  have htype := htypes s.returns List.mem_cons_self t (by rw [ht]; rfl)
  unfold DocRecord.ofSignature at hq
  dsimp only at hq
  split at hq
  · cases hq
  · next hvoid =>
    cases hq
    exact ⟨Bool.eq_false_iff.2 hvoid, by rw [ht]; rfl, t, by rw [ht]; rfl, htype⟩

end Template

/-! ## §3. The rows of both dialects. -/

namespace Doxygen

open Text

variable {s : Signature} {o : WrapOptions}

theorem unmarked_of_plain {t : Text} (h : ∀ c ∈ t, Signature.isPlainTypeChar c = true) :
    Unmarked t :=
  ⟨Template.not_mem_of_plain h (by decide), Template.not_mem_of_plain h (by decide)⟩

theorem paramType_plain {q : Param} {t : Text} (hq : q.typename = some t)
    (h : ∀ c ∈ t, Signature.isPlainTypeChar c = true) :
    ∀ c ∈ paramType q, Signature.isPlainTypeChar c = true := by
  have hopen : ∀ c ∈ " (".toList, Signature.isPlainTypeChar c = true := by decide
  have hclose : ∀ c ∈ [')'], Signature.isPlainTypeChar c = true := by decide
  intro c hc
  unfold paramType at hc
  rw [hq] at hc
  rcases List.mem_append.1 hc with hc | hc
  · rcases List.mem_append.1 hc with hc | hc
    · exact hopen c hc
    · exact h c hc
  · exact hclose c hc

/-- **The template of a scanned signature is legible**, if it fits. -/
theorem legible_ofSignature (hs : s.Scanned) (htypes : s.HasPlainTypes)
    (hfits : s.Fits o .doxygen) : Legible o (DocRecord.ofSignature s) where
  name := unmarked_of_plain fun c hc => Template.isPlainTypeChar_of_mem hs.name hc
  description := by
    rw [Template.descriptionOr_ofSignature]
    exact ⟨by decide, by decide⟩
  paramName := by
    intro q hq
    obtain ⟨_, _, _, _, _, _, hne, hsolid, _⟩ := Template.exists_templateParam hs htypes hq
    exact ⟨hne, hsolid⟩
  paramFits := by
    intro q hq
    obtain ⟨p, hp, rfl, _, _, hdirection, _⟩ := Template.exists_templateParam hs htypes hq
    have hfit := hfits.1 p hp
    have hword : (paramWord .input).length = 10 := rfl
    unfold paramHead
    rw [hdirection, List.length_append, List.length_cons]
    show (paramWord .input).length + _ ≤ _
    omega
  paramRest := by
    intro q hq
    obtain ⟨_, _, _, ⟨t, ht, hplain⟩, hcomment, _⟩ := Template.exists_templateParam hs htypes hq
    refine ⟨unmarked_of_plain (paramType_plain ht hplain), ?_⟩
    rw [hcomment]
    exact ⟨by decide, by decide⟩
  returnFits := by
    intro hsome
    obtain ⟨q, hq⟩ := Option.isSome_iff_exists.1 hsome
    exact hfits.2 (Template.exists_templateReturns hs htypes hq).1
  returnRest := by
    intro q hq
    obtain ⟨_, hcomment, t, ht, hplain⟩ := Template.exists_templateReturns hs htypes hq
    rw [ht, hcomment]
    exact ⟨unmarked_of_plain hplain, by decide, by decide⟩

/-- **The template of a scanned signature is tame.** -/
theorem tame_ofSignature (hs : s.Scanned) (htypes : s.HasPlainTypes) :
    ∀ row ∈ rows (DocRecord.ofSignature s), Block.Tame row := by
  have hnil : Block.Tame [] := fun c hc => absurd hc List.not_mem_nil
  have hvalue : Block.Tame (valueIndent ++ Block.commentSlot) := .of_all rfl
  intro row hrow
  unfold rows at hrow
  rcases List.mem_append.1 hrow with hrow | hrow
  · rcases List.mem_append.1 hrow with hrow | hrow
    · simp only [List.mem_cons, List.not_mem_nil, or_false] at hrow
      rcases hrow with rfl | rfl | rfl
      · exact Template.tame_of_isIdentifier hs.name
      · exact hnil
      · exact .of_all rfl
    · obtain ⟨q, hq, hrow⟩ := List.mem_flatMap.1 hrow
      obtain ⟨_, _, _, ⟨t, ht, hplain⟩, hcomment, hdirection, _, _, hname⟩ :=
        Template.exists_templateParam hs htypes hq
      unfold paramRows at hrow
      simp only [List.mem_cons, List.not_mem_nil, or_false] at hrow
      rcases hrow with rfl | rfl | rfl
      · exact hnil
      · refine Block.Tame.append ?_ (Template.tame_of_plain (paramType_plain ht hplain))
        unfold paramHead
        rw [hdirection]
        exact .marked (.of_all rfl) hname
      · rw [hcomment]
        exact hvalue
  · cases hr : (DocRecord.ofSignature s).returns with
    | none =>
      rw [hr] at hrow
      exact absurd hrow List.not_mem_nil
    | some q =>
      rw [hr] at hrow
      obtain ⟨_, hcomment, t, ht, hplain⟩ := Template.exists_templateReturns hs htypes hr
      rw [Option.map_some, Option.getD_some, returnRows] at hrow
      simp only [List.mem_cons, List.not_mem_nil, or_false] at hrow
      rcases hrow with rfl | rfl | rfl
      · exact hnil
      · rw [ht]
        exact .marked (.of_all rfl) (Template.tame_of_plain hplain)
      · rw [hcomment]
        exact hvalue

end Doxygen

namespace Edt

open Text

variable {s : Signature} {o : WrapOptions}

/-- The value row of every argument of a template. -/
theorem valueRow_eq {q : Param} (hcomment : q.comment = none)
    (hdirection : q.direction = some .input) : valueRow q = "  IN:     <Comment>".toList := by
  unfold valueRow
  rw [hcomment, hdirection]
  rfl

/-- **The template of a scanned signature is legible**, if it fits. -/
theorem legible_ofSignature (hs : s.Scanned) (htypes : s.HasPlainTypes) (hfits : s.Fits o .edt) :
    Legible o s.name (DocRecord.ofSignature s) where
  named := rfl
  nameWord := ⟨ne_nil_of_isIdentifier hs.name,
    fun c hc => isBlank_of_isNameChar (isNameChar_of_mem hs.name hc)⟩
  nameFits := by
    have hmark : (definitionMark ++ " * function ".toList).length = 16 := rfl
    unfold definitionRow
    rw [List.length_append, hmark]
    exact hfits.1
  description := by
    rw [Template.descriptionOr_ofSignature]
    unfold Unmarked
    decide
  paramName := by
    intro q hq
    obtain ⟨_, _, _, _, _, _, hne, hsolid, _⟩ := Template.exists_templateParam hs htypes hq
    exact ⟨hne, hsolid⟩
  paramFits := by
    intro q hq
    obtain ⟨p, hp, rfl, _⟩ := Template.exists_templateParam hs htypes hq
    have hname := hfits.1
    have hparam := hfits.2 p hp
    have hmark : argumentMark.length = 9 := rfl
    -- an unnamed parameter gets a name of six characters, which fits as the definition does
    have hlength : (DocRecord.templateParam p).name.length ≤ max 6 p.name.length := by
      unfold DocRecord.templateParam
      dsimp only
      split
      · exact Nat.le_max_left 6 _
      · exact Nat.le_max_right 6 _
    unfold argumentRow
    rw [List.length_append, List.length_cons]
    omega
  paramValue := by
    intro q hq
    obtain ⟨_, _, _, _, hcomment, hdirection, _⟩ := Template.exists_templateParam hs htypes hq
    rw [valueRow_eq hcomment hdirection]
    unfold Unmarked
    decide
  returnRest := by
    intro q hq
    obtain ⟨_, hcomment, t, ht, hplain⟩ := Template.exists_templateReturns hs htypes hq
    rw [ht, hcomment]
    refine ⟨unmarked_of_colon ?_, by unfold Unmarked; decide⟩
    rw [List.mem_cons, not_or]
    exact ⟨by decide, Template.not_mem_of_plain hplain (by decide)⟩

/-- **The template of a scanned signature is tame.** -/
theorem tame_ofSignature (hs : s.Scanned) (htypes : s.HasPlainTypes) :
    ∀ row ∈ rows (DocRecord.ofSignature s), Block.Tame row := by
  have hnil : Block.Tame [] := fun c hc => absurd hc List.not_mem_nil
  intro row hrow
  unfold rows at hrow
  rcases List.mem_append.1 hrow with hrow | hrow
  · rcases List.mem_append.1 hrow with hrow | hrow
    · simp only [List.mem_cons, List.not_mem_nil, or_false] at hrow
      rcases hrow with rfl | rfl | rfl | rfl
      · have hmark : Block.Tame (definitionMark ++ " * function ".toList) := .of_all rfl
        exact hmark.append (Template.tame_of_isIdentifier hs.name)
      · exact hnil
      · exact .of_all rfl
      · exact hnil
    · cases hr : (DocRecord.ofSignature s).returns with
      | none =>
        rw [hr] at hrow
        exact absurd hrow List.not_mem_nil
      | some q =>
        rw [hr] at hrow
        obtain ⟨_, hcomment, t, ht, hplain⟩ := Template.exists_templateReturns hs htypes hr
        rw [Option.map_some, Option.getD_some, returnRows] at hrow
        simp only [List.mem_cons, List.not_mem_nil, or_false] at hrow
        rcases hrow with rfl | rfl
        · rw [ht]
          exact .marked (.of_all rfl) (Template.tame_of_plain hplain)
        · rw [hcomment]
          exact .of_all rfl
  · obtain ⟨q, hq, hrow⟩ := List.mem_flatMap.1 hrow
    obtain ⟨_, _, _, _, hcomment, hdirection, _, _, hname⟩ :=
      Template.exists_templateParam hs htypes hq
    unfold paramRows at hrow
    simp only [List.mem_cons, List.not_mem_nil, or_false] at hrow
    rcases hrow with rfl | rfl | rfl
    · exact hnil
    · exact .marked (.of_all rfl) hname
    · rw [valueRow_eq hcomment hdirection]
      exact .of_all rfl

end Edt
end DocAudit
