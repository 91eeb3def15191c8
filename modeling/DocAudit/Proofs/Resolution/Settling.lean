/-
  DocAudit.Proofs.Resolution.Settling
  ───────────────────────────────────
  **THE BUILT-IN SCANNER SETTLES AT ONCE.**

  The first parse reports every name that is used as a type and is none.  Aliased,
  each of them is a type, and nothing else has changed: the second parse declares
  the same and has no error left.

      first parse reports nothing    one pass, no alias
      first parse reports names      two passes, those names aliased in their order

  The limit on the number of calls plays no part once it allows for two of them.
-/
import DocAudit.Resolution
import DocAudit.Proofs.Resolution.Alias
import DocAudit.Proofs.Text.Distinct

namespace DocAudit

/-! ## §1. What a scan reports. -/

namespace Declaration

/-- The names used as types that the text does not define. -/
def missing (t : Text) : List Token :=
  ((statements (Token.ofText t)).flatMap uses).filter
    (isUnknown (typedefNames (statements (Token.ofText t))))

theorem errors_scan (t : Text) :
    (scan t).notes.filter Note.isError = (missing t).map unknownType :=
  errors_scanStatements _ _

theorem quoted_unknownType {t : Token} (h : '\'' ∉ t.text) : (unknownType t).quoted = [t.text] := by
  -- the name is the one piece between the two quotes of the message
  have hmessage : (unknownType t).message
      = "unknown type name ".toList ++ '\'' :: (t.text ++ '\'' :: []) := by
    show "unknown type name '".toList ++ t.text ++ ['\''] = _
    rw [List.append_assoc]
    rfl
  unfold Note.quoted
  rw [hmessage, Text.splitOn_append_cons (by decide), Text.splitOn_append_cons h]
  rfl

/-- The names that a scan misses are identifiers and no keywords. -/
theorem isIdentifier_of_mem_missing {t : Text} {u : Token} (h : u ∈ missing t) :
    Text.isIdentifier u.text = true ∧ Token.isKeyword u.text = false := by
  obtain ⟨s, hs, hu⟩ := List.mem_flatMap.1 (List.mem_of_mem_filter h)
  obtain ⟨hmem, hname⟩ := mem_of_mem_uses hu
  exact Piece.isIdentifier_of_isName (mem_of_mem_statements hs hmem) hname

/-- **What a scan reports** are the names it misses, each once. -/
theorem unknownTypes_scan (t : Text) :
    (scan t).unknownTypes = Text.distinct ((missing t).map Token.text) := by
  unfold Outline.unknownTypes
  rw [errors_scan, List.flatMap_map, List.map_eq_flatMap]
  congr 1
  refine List.flatMap_congr fun u hu => ?_
  exact quoted_unknownType
    (Text.not_mem_of_isIdentifier (isIdentifier_of_mem_missing hu).1 (by decide))

theorem isIdentifier_of_mem_unknownTypes {t name : Text} (h : name ∈ (scan t).unknownTypes) :
    Text.isIdentifier name = true ∧ Token.isKeyword name = false := by
  rw [unknownTypes_scan, Text.mem_distinct] at h
  obtain ⟨u, hu, rfl⟩ := List.mem_map.1 h
  exact isIdentifier_of_mem_missing hu

theorem unknownTypes_of_no_error {o : Outline} (h : ∀ n ∈ o.notes, n.isError = false) :
    o.unknownTypes = [] := by
  unfold Outline.unknownTypes
  rw [List.filter_eq_nil_iff.2 fun n hn => by rw [h n hn]; decide]
  rfl

/-- A scan that reports no name has no error: each of its errors quotes one. -/
theorem no_error_of_unknownTypes {t : Text} (h : (scan t).unknownTypes = []) :
    ∀ n ∈ (scan t).notes, n.isError = false := by
  have hmissing : missing t = [] := by
    cases hm : missing t with
    | nil => rfl
    | cons u us =>
      rw [unknownTypes_scan, hm] at h
      have hmem : u.text ∈ Text.distinct ((u :: us).map Token.text) :=
        Text.mem_distinct.2 List.mem_cons_self
      rw [h] at hmem
      exact absurd hmem List.not_mem_nil
  intro n hn
  rw [Bool.eq_false_iff]
  refine List.filter_eq_nil_iff.1 ?_ n hn
  rw [errors_scan, hmissing]
  rfl

/-! ## §2. The second parse. -/

/-- The text with what its scan misses aliased. -/
def aliased (t : Text) : Text := (scan t).unknownTypes.flatMap Skeleton.aliasText ++ t

/-- The second parse declares what the first one does. -/
theorem declarations_scan_aliased (t : Text) :
    (scan (aliased t)).declarations = (scan t).declarations := by
  rw [declarations_scan, declarations_scan, declared, aliased,
    statements_aliases fun n hn => (isIdentifier_of_mem_unknownTypes hn).1,
    filterMap_headOf?_aliases]
  rfl

/-- **The second parse has no error**: whatever the first one missed is defined now. -/
theorem no_error_scan_aliased (t : Text) :
    ∀ n ∈ (scan (aliased t)).notes, n.isError = false := by
  have hnames : ∀ n ∈ (scan t).unknownTypes, Text.isIdentifier n = true :=
    fun n hn => (isIdentifier_of_mem_unknownTypes hn).1
  have hkeywords : ∀ n ∈ (scan t).unknownTypes, Token.isKeyword n = false :=
    fun n hn => (isIdentifier_of_mem_unknownTypes hn).2
  have herrors : (scan (aliased t)).notes.filter Note.isError = [] := by
    rw [errors_scan, missing, aliased, statements_aliases hnames, typedefNames_aliases hkeywords,
      flatMap_uses_aliases, List.map_eq_nil_iff, List.filter_eq_nil_iff]
    intro u hu hunknown
    unfold isUnknown at hunknown
    rw [Bool.not_eq_true', List.contains_eq_mem, decide_eq_false_iff_not,
      List.mem_append] at hunknown
    -- a name that the lines do not define was missed by the first scan, and is aliased
    refine hunknown (.inl ?_)
    rw [unknownTypes_scan, Text.mem_distinct]
    refine List.mem_map.2 ⟨u, List.mem_filter.2 ⟨hu, ?_⟩, rfl⟩
    unfold isUnknown
    rw [Bool.not_eq_true', List.contains_eq_mem, decide_eq_false_iff_not]
    exact fun hdefined => hunknown (.inr hdefined)
  intro n hn
  rw [Bool.eq_false_iff]
  exact List.filter_eq_nil_iff.1 herrors n hn

end Declaration

/-! ## §3. The run. -/

namespace Resolution

/-- The skeleton of a source with everything aliased that its scan misses. -/
def learned (source : Text) : Skeleton :=
  (Skeleton.ofSource source).addAliases
    (Declaration.scan (Skeleton.ofSource source).text).unknownTypes

/-- The names that a scan misses are aliased as they are, none left out. -/
theorem aliases_learned (source : Text) :
    (learned source).aliases
      = (Declaration.scan (Skeleton.ofSource source).text).unknownTypes := by
  -- only identifiers are aliased, and a scan reports nothing else
  have hall : (Declaration.scan (Skeleton.ofSource source).text).unknownTypes.filter
      Text.isIdentifier = (Declaration.scan (Skeleton.ofSource source).text).unknownTypes :=
    List.filter_eq_self.2 fun n hn => (Declaration.isIdentifier_of_mem_unknownTypes hn).1
  have hnodup : (Declaration.scan (Skeleton.ofSource source).text).unknownTypes.Nodup := by
    rw [Declaration.unknownTypes_scan]
    exact Text.nodup_distinct _
  unfold learned Skeleton.addAliases
  rw [hall]
  exact Text.addNew_of_fresh hnodup fun n _ => List.not_mem_nil

theorem text_learned (source : Text) :
    (learned source).text = Declaration.aliased (Skeleton.ofSource source).text := by
  unfold Skeleton.text
  rw [aliases_learned]
  rfl

/-- A parse that brings no new name ends the run. -/
theorem runFrom_of_settled {ε : Type} {p : Provider ε} {done : Nat} {s : Skeleton} {o : Outline}
    (limit : Nat) (hp : p done s.text = .ok o)
    (hs : (s.addAliases o.unknownTypes).aliases.length = s.aliases.length) :
    runFrom p (limit + 1) done s = ⟨[s.text], .settled ⟨s, o, done + 1⟩⟩ := by
  rw [runFrom, hp]
  exact if_pos hs

/-- A parse that brings a new name is followed by another one. -/
theorem runFrom_of_learned {ε : Type} {p : Provider ε} {done : Nat} {s : Skeleton} {o : Outline}
    (limit : Nat) (hp : p done s.text = .ok o)
    (hs : (s.addAliases o.unknownTypes).aliases.length ≠ s.aliases.length) :
    runFrom p (limit + 1) done s
      = ⟨s.text :: (runFrom p limit (done + 1) (s.addAliases o.unknownTypes)).calls,
          (runFrom p limit (done + 1) (s.addAliases o.unknownTypes)).ending⟩ := by
  rw [runFrom, hp]
  exact if_neg hs

/-- **A run of the built-in scanner**: one call, or a second one that is the last. -/
theorem run_scanner {ε : Type} (limit : Nat) (source : Text) :
    run (Provider.scanner (ε := ε)) (limit + 2) source
      = if (learned source).aliases = [] then
          ⟨[(Skeleton.ofSource source).text],
            .settled ⟨Skeleton.ofSource source,
              Declaration.scan (Skeleton.ofSource source).text, 1⟩⟩
        else
          ⟨[(Skeleton.ofSource source).text, (learned source).text],
            .settled ⟨learned source, Declaration.scan (learned source).text, 2⟩⟩ := by
  by_cases hnone : (learned source).aliases = []
  · rw [if_pos hnone]
    refine runFrom_of_settled (limit + 1) rfl ?_
    show (learned source).aliases.length = 0
    rw [hnone]
    rfl
  · have hsecond : (Declaration.scan (learned source).text).unknownTypes = [] := by
      rw [text_learned]
      exact Declaration.unknownTypes_of_no_error (Declaration.no_error_scan_aliased _)
    -- the second call reports nothing, so it is the last one
    have hlast : runFrom (Provider.scanner (ε := ε)) (limit + 1) 1 (learned source)
        = ⟨[(learned source).text],
            .settled ⟨learned source, Declaration.scan (learned source).text, 2⟩⟩ := by
      refine runFrom_of_settled limit rfl ?_
      rw [hsecond]
      rfl
    have hnew : (learned source).aliases.length ≠ 0 :=
      fun h => hnone (List.length_eq_zero_iff.1 h)
    rw [if_neg hnone]
    refine (runFrom_of_learned (limit + 1) rfl hnew).trans ?_
    show Run.mk (_ :: (runFrom (Provider.scanner (ε := ε)) (limit + 1) 1 (learned source)).calls)
      (runFrom (Provider.scanner (ε := ε)) (limit + 1) 1 (learned source)).ending = _
    rw [hlast]

theorem ofSource_eq (source : Text) :
    ofSource source
      = if (learned source).aliases = [] then
          ⟨Skeleton.ofSource source, Declaration.scan (Skeleton.ofSource source).text, 1⟩
        else ⟨learned source, Declaration.scan (learned source).text, 2⟩ := by
  have hrun := run_scanner (ε := Empty) 0 source
  unfold ofSource
  by_cases hnone : (learned source).aliases = []
  · rw [if_pos hnone] at hrun ⊢
    rw [show run (Provider.scanner (ε := Empty)) scannerCalls source = _ from hrun]
  · rw [if_neg hnone] at hrun ⊢
    rw [show run (Provider.scanner (ε := Empty)) scannerCalls source = _ from hrun]

/-- **What a source declares** does not hang on what was learned. -/
theorem declarations_ofSource (source : Text) :
    (ofSource source).outline.declarations
      = (Declaration.scan (Skeleton.ofSource source).text).declarations := by
  rw [ofSource_eq]
  split
  · rfl
  · show (Declaration.scan (learned source).text).declarations = _
    rw [text_learned, Declaration.declarations_scan_aliased]

/-- **What is aliased** are the names that the first parse misses. -/
theorem aliases_ofSource (source : Text) :
    (ofSource source).skeleton.aliases
      = (Declaration.scan (Skeleton.ofSource source).text).unknownTypes := by
  have hlearned := aliases_learned source
  rw [ofSource_eq]
  by_cases hnone : (learned source).aliases = []
  · rw [if_pos hnone]
    exact hnone.symm.trans hlearned
  · rw [if_neg hnone]
    exact hlearned

/-- A second parse is needed exactly if something is aliased. -/
theorem passes_ofSource (source : Text) :
    (ofSource source).passes = if (ofSource source).skeleton.aliases = [] then 1 else 2 := by
  rw [ofSource_eq]
  by_cases hnone : (learned source).aliases = []
  · rw [if_pos hnone]
    rfl
  · rw [if_neg hnone, if_neg hnone]

/-- **THE BUILT-IN SCANNER SETTLES AT ONCE**: with any limit that allows for two
calls, the run ends in one or two passes — in one exactly if nothing was aliased —
with the unknown types of the first parse aliased in their order, no error left, and
the declarations of the first parse. -/
theorem scanner_settles {ε : Type} (limit : Nat) (source : Text) :
    ∃ r : Resolution,
      (run (Provider.scanner (ε := ε)) (limit + scannerCalls) source).ending = .settled r
      ∧ ofSource source = r
      ∧ r.passes = (run (Provider.scanner (ε := ε)) (limit + scannerCalls) source).calls.length
      ∧ (r.passes = 1 ∨ r.passes = 2)
      ∧ (r.passes = 1 ↔ r.skeleton.aliases = [])
      ∧ r.skeleton.lines = (Skeleton.ofSource source).lines
      ∧ r.skeleton.aliases = (Declaration.scan (Skeleton.ofSource source).text).unknownTypes
      ∧ (∀ n ∈ r.outline.notes, n.isError = false)
      ∧ r.outline.unknownTypes = []
      ∧ r.outline.declarations
          = (Declaration.scan (Skeleton.ofSource source).text).declarations := by
  have hrun := run_scanner (ε := ε) limit source
  have hdeclarations := declarations_ofSource source
  have heq := ofSource_eq source
  unfold scannerCalls
  by_cases hnone : (learned source).aliases = []
  · rw [if_pos hnone] at hrun heq
    rw [heq] at hdeclarations
    have hunknown : (Declaration.scan (Skeleton.ofSource source).text).unknownTypes = [] :=
      (aliases_learned source).symm.trans hnone
    refine ⟨_, ?_, heq, ?_, .inl rfl, iff_of_true rfl rfl, rfl, hunknown.symm, ?_, hunknown,
      hdeclarations⟩
    · rw [hrun]
    · rw [hrun]
      rfl
    · exact Declaration.no_error_of_unknownTypes hunknown
  · rw [if_neg hnone] at hrun heq
    rw [heq] at hdeclarations
    refine ⟨_, ?_, heq, ?_, .inr rfl, iff_of_false (Nat.succ_ne_self 1) hnone, rfl,
      aliases_learned source, ?_, ?_, hdeclarations⟩
    · rw [hrun]
    · rw [hrun]
      rfl
    · rw [text_learned]
      exact Declaration.no_error_scan_aliased _
    · rw [text_learned]
      exact Declaration.unknownTypes_of_no_error (Declaration.no_error_scan_aliased _)

end Resolution
end DocAudit
