/-
  DocAudit.Proofs.Comment.Reading
  ───────────────────────────────
  **READING TEXTS, ONE AFTER ANOTHER.**

  Both dialects read a body line by line with a step of their own.  `Reads step P ts Q`
  says that the texts `ts` are all read without an error, on whatever lines they stand,
  and take every draft with `P` to one with `Q`.  Texts are read one after another, so
  such facts are put together (`Reads.append`), and entry by entry (`Reads.entries`).

  As far as the shape of the draft goes, `Takes` says the same with a shape before and a
  shape after.
-/
import DocAudit.Proofs.Comment.Body
import DocAudit.Proofs.Comment.Draft

namespace DocAudit.Draft

/-! ## §1. Texts. -/

/-- How a dialect reads one body line. -/
abbrev Step := Draft → BodyLine → Except CommentError Draft

/-- The texts are read, and take drafts with `P` to drafts with `Q`. -/
def Reads (step : Step) (P : Draft → Prop) (ts : List Text) (Q : Draft → Prop) : Prop :=
  ∀ n d, P d → ∃ next, (Comment.numbered n ts).foldlM step d = .ok next ∧ Q next

variable {step : Step} {P Q R : Draft → Prop}

theorem Reads.nil (P : Draft → Prop) : Reads step P [] P := fun _ d hd => ⟨d, rfl, hd⟩

theorem Reads.append {ts us : List Text} (h : Reads step P ts Q) (k : Reads step Q us R) :
    Reads step P (ts ++ us) R := by
  intro n d hd
  obtain ⟨next, hnext, hq⟩ := h n d hd
  -- the line numbers go on behind `ts`, which no step looks at but to report them
  obtain ⟨last, hlast, hend⟩ := k (n + ts.length) next hq
  refine ⟨last, ?_, hend⟩
  rw [Comment.numbered_append, List.foldlM_append, hnext]
  exact hlast

/-- One text that is read on every line. -/
theorem Reads.single {t : Text}
    (h : ∀ n d, P d → ∃ next, step d ⟨n, t⟩ = .ok next ∧ Q next) : Reads step P [t] Q := by
  intro n d hd
  obtain ⟨next, hnext, hq⟩ := h n d hd
  refine ⟨next, ?_, hq⟩
  show (step d ⟨n, t⟩ >>= fun e => List.foldlM step e []) = .ok next
  rw [hnext]
  rfl

/-- One text that is read from one draft. -/
theorem Reads.of_step {t : Text} {d next : Draft} (h : ∀ n, step d ⟨n, t⟩ = .ok next) :
    Reads step (· = d) [t] (· = next) := by
  refine Reads.single fun n e he => ⟨next, ?_, rfl⟩
  rw [he]
  exact h n

theorem Reads.cons {t : Text} {ts : List Text} (h : Reads step P [t] Q)
    (k : Reads step Q ts R) : Reads step P (t :: ts) R := h.append k

theorem Reads.weaken {ts : List Text} (h : Reads step P ts Q) (k : ∀ d, Q d → R d) :
    Reads step P ts R := by
  intro n d hd
  obtain ⟨next, hnext, hq⟩ := h n d hd
  exact ⟨next, hnext, k next hq⟩

/-- It is enough to say what is read from each draft. -/
theorem Reads.of_each {ts : List Text} (h : ∀ d, P d → Reads step (· = d) ts Q) :
    Reads step P ts Q := fun n d hd => h d hd n d rfl

/-- **Entries are read one after another**, if each is read when those before it are. -/
theorem Reads.entries {α : Type} {f : α → List Text} {I : List α → Draft → Prop} {l : List α}
    (h : ∀ x ∈ l, ∀ done, Reads step (I done) (f x) (I (done ++ [x]))) (done : List α) :
    Reads step (I done) (l.flatMap f) (I (done ++ l)) := by
  induction l generalizing done with
  | nil =>
    rw [List.append_nil]
    exact Reads.nil _
  | cons x l ih =>
    have hrest := ih (fun y hy => h y (List.mem_cons_of_mem x hy)) (done ++ [x])
    rw [List.append_assoc] at hrest
    rw [List.flatMap_cons]
    exact (h x List.mem_cons_self done).append hrest

/-! ## §2. Shapes. -/

/-- The texts are read, and take drafts of one shape to drafts of another. -/
def Takes (step : Step) (a : Shape) (ts : List Text) (b : Shape) : Prop :=
  ∀ n d, d.shape = a →
    ∃ next, (Comment.numbered n ts).foldlM step d = .ok next ∧ next.shape = b

variable {a b c : Shape}

theorem Takes.nil (a : Shape) : Takes step a [] a := Reads.nil _

theorem Takes.append {ts us : List Text} (h : Takes step a ts b) (k : Takes step b us c) :
    Takes step a (ts ++ us) c := Reads.append h k

/-- One text that is read on every line. -/
theorem Takes.single {t : Text}
    (h : ∀ n d, d.shape = a → ∃ next, step d ⟨n, t⟩ = .ok next ∧ next.shape = b) :
    Takes step a [t] b := Reads.single h

theorem Takes.cons {t : Text} {ts : List Text} (h : Takes step a [t] b)
    (k : Takes step b ts c) : Takes step a (t :: ts) c := h.append k

/-- Texts each of which keeps the shape. -/
theorem Takes.keep {ts : List Text} (h : ∀ t ∈ ts, Takes step a [t] a) : Takes step a ts a := by
  induction ts with
  | nil => exact Takes.nil a
  | cons t ts ih =>
    exact (h t List.mem_cons_self).cons (ih fun u hu => h u (List.mem_cons_of_mem t hu))

/-- Runs of texts each of which keeps the shape. -/
theorem Takes.keep_flatMap {α : Type} {f : α → List Text} {l : List α}
    (h : ∀ x ∈ l, Takes step a (f x) a) : Takes step a (l.flatMap f) a := by
  induction l with
  | nil => exact Takes.nil a
  | cons x l ih =>
    rw [List.flatMap_cons]
    exact (h x List.mem_cons_self).append (ih fun y hy => h y (List.mem_cons_of_mem x hy))

/-- Runs of texts each of which adds one parameter. -/
theorem Takes.params {α : Type} {f : α → List Text} {g : α → Text × Option Text} {l : List α}
    (h : ∀ x ∈ l, ∀ a, Takes step a (f x) { a with params := a.params ++ [g x] }) (a : Shape) :
    Takes step a (l.flatMap f) { a with params := a.params ++ l.map g } := by
  -- the shape behind some of the runs
  let behind : List α → Draft → Prop := fun done d =>
    d.shape = { a with params := a.params ++ done.map g }
  have hone : ∀ x ∈ l, ∀ done, Reads step (behind done) (f x) (behind (done ++ [x])) := by
    intro x hx done
    have hx' := h x hx { a with params := a.params ++ done.map g }
    rw [List.append_assoc] at hx'
    show Takes step _ (f x) _
    rw [List.map_append]
    exact hx'
  have hall := Reads.entries hone []
  have hstart : { a with params := a.params ++ ([] : List α).map g } = a := by
    rw [List.map_nil, List.append_nil]
  have htakes : Takes step { a with params := a.params ++ ([] : List α).map g } (l.flatMap f)
      { a with params := a.params ++ l.map g } := hall
  rwa [hstart] at htakes

/-! ## §3. Records of a shape. -/

/-- The shape of a record that has the entries of another one, without their types. -/
def Shape.ofRecord (name : Option Text) (r : DocRecord) : Shape :=
  ⟨name, r.params.map fun p => (p.name, none), r.returns.isSome⟩

/-- A record states a shape: it was made from a draft of that shape, or it bears its
name and points elsewhere. -/
def Shape.StatedBy (a : Shape) (r : DocRecord) : Prop :=
  r = DocRecord.pointer a.name ∨ ∃ d : Draft, d.shape = a ∧ r = d.toRecord

theorem Shape.StatedBy.name_eq {r : DocRecord} (h : a.StatedBy r) : r.name = a.name := by
  rcases h with rfl | ⟨d, rfl, rfl⟩
  · rfl
  · rfl

end DocAudit.Draft
