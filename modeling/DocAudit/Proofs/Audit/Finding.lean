/-
  DocAudit.Proofs.Audit.Finding
  ─────────────────────────────
  **A RECORD OF THE RIGHT SHAPE LEAVES NOTHING TO FIND.**

  A record that states the shape of a signature's own template names the parameters in
  their order and has a return entry exactly when one is needed.  It states no types
  and a signature states no directions, so nothing is left to disagree on
  (`validate_of_statedBy`).
-/
import DocAudit.Audit.Finding
import DocAudit.Proofs.Comment.Reading

namespace DocAudit.Fault

open Draft

/-- A declared parameter agrees with any entry that bears its name in a template and
states no type. -/
theorem agrees_of_identity {p q : Param} (hp : p.direction = none)
    (h : identity q = ((DocRecord.templateParam p).name, none)) : p.agrees q = true := by
  obtain ⟨hname, htype⟩ := Prod.mk.inj h
  have hnames : (p.name.isEmpty || p.name == q.name) = true := by
    rw [hname]
    unfold DocRecord.templateParam
    dsimp only
    split
    · next hnil =>
      rw [hnil]
      rfl
    · rw [beq_self_eq_true, Bool.or_true]
  unfold Param.agrees
  rw [hnames, hp, htype]
  cases p.typename <;> rfl

/-- **Entries of the same names, in the same order, have no fault.** -/
theorem byPosition_eq_nil {declared documented : List Param}
    (hdeclared : ∀ p ∈ declared, p.direction = none)
    (h : documented.map identity
      = declared.map fun p => ((DocRecord.templateParam p).name, none)) :
    byPosition declared documented = [] := by
  induction declared generalizing documented with
  | nil => rfl
  | cons p ps ih =>
    cases documented with
    | nil => rfl
    | cons q qs =>
      rw [List.map_cons, List.map_cons, List.cons.injEq] at h
      have hagrees := agrees_of_identity (hdeclared p List.mem_cons_self) h.1
      have hrest := ih (fun r hr => hdeclared r (List.mem_cons_of_mem p hr)) h.2
      unfold byPosition at hrest ⊢
      -- the first pair agrees, and the rest of the lists is paired as before
      have hfault : ¬(!p.agrees q) = true := by
        rw [hagrees]
        decide
      rw [List.zip_cons_cons, List.filter_cons]
      dsimp only
      rw [if_neg hfault]
      exact hrest

/-- **A record that states the shape of the template has no fault.** -/
theorem validate_of_statedBy {s : Signature} (hs : ∀ p ∈ s.params, p.direction = none)
    {name : Option Text} {r : DocRecord}
    (h : (Shape.ofRecord name (DocRecord.ofSignature s)).StatedBy r) :
    validate s (some r) = [] := by
  rcases h with rfl | ⟨d, hshape, rfl⟩
  · rfl
  · have hparams : d.params.map identity
        = s.params.map fun p => ((DocRecord.templateParam p).name, none) := by
      refine (congrArg Shape.params hshape).trans ?_
      show (s.params.map DocRecord.templateParam).map _ = _
      rw [List.map_map]
      rfl
    have hreturns : d.returns.isSome = !s.returnsVoid := by
      refine (congrArg Shape.hasReturns hshape).trans ?_
      show (if s.returnsVoid then none else some s.returns).isSome = _
      cases s.returnsVoid <;> rfl
    have hlength : s.params.length = d.params.length := by
      have hlen := congrArg List.length hparams
      rw [List.length_map, List.length_map] at hlen
      exact hlen.symm
    show ofParams s.params d.params ++ ofReturn s d.toRecord = []
    unfold ofParams ofReturn
    rw [if_pos hlength, byPosition_eq_nil hs hparams, List.nil_append]
    show (if s.returnsVoid || d.returns.isSome then [] else _) = _
    rw [hreturns]
    cases s.returnsVoid <;> rfl

end DocAudit.Fault
