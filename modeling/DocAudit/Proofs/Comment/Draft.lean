/-
  DocAudit.Proofs.Comment.Draft
  ─────────────────────────────
  **TEXT LINES CHANGE NO ENTRY'S IDENTITY.**

  The shape of a draft is what its marker lines decide: the name of the definition,
  the name and type of each parameter, and whether there is a return entry.  A text
  line leaves the shape alone (`shape_addText`), as long as adding text to a
  parameter changes neither its name nor its type; a marker adds its own part.
-/
import DocAudit.Comment.Draft

namespace DocAudit.Draft

/-- What the marker lines of a comment decide. -/
structure Shape where
  /-- The name of the definition. -/
  name : Option Text
  /-- The name and the type of each parameter. -/
  params : List (Text × Option Text)
  /-- Whether there is a return entry. -/
  hasReturns : Bool
  deriving DecidableEq, Repr

/-- The name and the stated type of a parameter. -/
def identity (p : Param) : Text × Option Text := (p.name, p.typename)

/-- The shape of a draft. -/
def shape (d : Draft) : Shape := ⟨d.name, d.params.map identity, d.returns.isSome⟩

theorem identity_addComment (p : Param) (t : Text) : identity (p.addComment t) = identity p := by
  unfold Param.addComment
  dsimp only
  split
  · rfl
  · split <;> rfl

theorem map_updateLast {α β : Type} {f : α → α} {g : α → β} (h : ∀ a, g (f a) = g a)
    (l : List α) : (updateLast f l).map g = l.map g := by
  fun_induction updateLast f l with
  | case1 => rfl
  | case2 a => rw [List.map_singleton, List.map_singleton, h]
  | case3 a b rest ih =>
    rw [List.map_cons, ih]
    rfl

/-- **A text line leaves the shape alone.** -/
theorem shape_addText {toParam : Param → Text → Param}
    (h : ∀ p t, identity (toParam p t) = identity p) (d : Draft) (t : Text) :
    (d.addText toParam t).shape = d.shape := by
  unfold addText Section.after
  dsimp only
  -- text goes where the cursor is: the description, the last parameter, the return entry
  cases d.cursor with
  | description => rfl
  | parameter =>
    unfold shape
    dsimp only
    rw [map_updateLast fun p => h p t]
  | result =>
    unfold shape
    rw [Option.isSome_map]

theorem shape_addParam (d : Draft) (p : Param) :
    (d.addParam p).shape = { d.shape with params := d.shape.params ++ [identity p] } := by
  unfold addParam shape
  dsimp only
  rw [List.map_append]
  rfl

theorem shape_setReturns (d : Draft) (p : Param) :
    (d.setReturns p).shape = { d.shape with hasReturns := true } := rfl

end DocAudit.Draft
