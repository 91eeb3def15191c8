/-
  DocAudit.Proofs.Declaration.Head
  ────────────────────────────────
  **WHAT A STATEMENT DECLARES, AND WHICH TYPES IT USES.**

  A scan is given the names of the known types, but only its notes depend on them.
  This module separates the two:

      headOf?   the statement taken apart, if it declares a function
      Head.declaration   what it declares, whatever types are known
      uses      the names it uses as types, whatever types are known

  A scan declares what its statements declare (`declarations_scan`), and
  its errors are the used names that are not known (`errors_scanStatements`).
-/
import Mathlib.Data.List.Infix
import Mathlib.Data.List.TakeDrop
import DocAudit.Declaration.Scan
import DocAudit.Proofs.Text.Split

namespace DocAudit.Declaration

open Token

/-! ## §1. Parameters. -/

/-- The groups of a parameter list that are parameters. -/
def paramGroups (inside : List Token) : List (List Token) :=
  if isEmptyList (splitCommas 0 inside) then [] else (splitCommas 0 inside).filter isParam

/-- The type and the name of a parameter. -/
def paramOf (group : List Token) : Text × Text := (scanParam [] group).2

/-- The tokens of a parameter that may hold names of types. -/
def typeTokens (group : List Token) : List Token :=
  match pointerName? group with
  | some p => p.lead
  | none =>
    let core := (dropBounds group.reverse).reverse
    if endsInName core then core.dropLast else core

theorem scanParams_eq (known : List Text) (inside : List Token) :
    scanParams known inside = (paramGroups inside).map (scanParam known) := by
  unfold scanParams paramGroups
  dsimp only
  split <;> rfl

theorem scanParam_snd (known : List Text) (group : List Token) :
    (scanParam known group).2 = paramOf group := by
  unfold paramOf scanParam
  split <;> rfl

theorem scanParam_fst (known : List Text) (group : List Token) :
    (scanParam known group).1 = unknownTypes known false (typeTokens group) := by
  unfold scanParam typeTokens
  cases pointerName? group <;> rfl

/-! ## §2. Names used as types. -/

/-- The names among type tokens that are not tags. -/
def typeNames (afterTag : Bool) : List Token → List Token
  | [] => []
  | t :: rest =>
    if t.isName && !afterTag then t :: typeNames t.isTagWord rest else typeNames t.isTagWord rest

/-- Whether the name of a token is no known type. -/
def isUnknown (known : List Text) (t : Token) : Bool := !known.contains t.text

theorem unknownTypes_eq (known : List Text) (afterTag : Bool) (ts : List Token) :
    unknownTypes known afterTag ts
      = ((typeNames afterTag ts).filter (isUnknown known)).map unknownType := by
  induction ts generalizing afterTag with
  | nil => rfl
  | cons t rest ih =>
    unfold unknownTypes typeNames
    dsimp only
    rw [ih]
    -- the scan asks three things of a token, and both sides ask the same
    cases t.isName <;> cases afterTag <;> cases hk : known.contains t.text <;>
      simp only [Bool.not_true, Bool.not_false, Bool.and_true, Bool.and_false,
        Bool.false_eq_true, if_true, if_false, List.filter_cons, isUnknown, hk, List.map_cons]

theorem mem_of_mem_typeNames {afterTag : Bool} {ts : List Token} {t : Token}
    (h : t ∈ typeNames afterTag ts) : t ∈ ts ∧ t.isName = true := by
  induction ts generalizing afterTag with
  | nil => exact absurd h List.not_mem_nil
  | cons u rest ih =>
    unfold typeNames at h
    split at h
    · next hu =>
      rcases List.mem_cons.1 h with rfl | h
      · exact ⟨List.mem_cons_self, (Bool.and_eq_true _ _ ▸ hu).1⟩
      · exact ⟨List.mem_cons_of_mem _ (ih h).1, (ih h).2⟩
    · exact ⟨List.mem_cons_of_mem _ (ih h).1, (ih h).2⟩

/-! ## §3. Heads. -/

/-- What a statement that declares a function declares. -/
def Head.declaration (h : Head) : Declaration :=
  { name := h.name.text
    line := h.name.line
    returnType := returnSpelling h.type
    params := (paramGroups h.inside).map paramOf }

/-- The names that it uses as types, in order. -/
def Head.uses (h : Head) : List Token :=
  typeNames false h.type ++ (paramGroups h.inside).flatMap fun g => typeNames false (typeTokens g)

/-- A statement taken apart, if it declares a function. -/
def headOf? (s : List Token) : Option Head := if isTypedef s then none else head? s

/-- The names that a statement uses as types. -/
def uses (s : List Token) : List Token := ((headOf? s).map Head.uses).getD []

theorem declarations_outline (known : List Text) (h : Head) :
    (h.outline known).declarations = [h.declaration] := by
  unfold Head.outline Head.declaration
  simp only [scanParams_eq, List.map_map, List.cons.injEq, and_true]
  congr 1
  exact List.map_congr_left fun g _ => scanParam_snd known g

theorem notes_outline (known : List Text) (h : Head) :
    (h.outline known).notes = (h.uses.filter (isUnknown known)).map unknownType := by
  unfold Head.outline Head.uses
  simp only [scanParams_eq, List.flatMap_map, scanParam_fst, unknownTypes_eq, List.filter_append,
    List.map_append, List.filter_flatMap, List.map_flatMap]

theorem isMark_of_isName {t : Token} (h : t.isName = true) (c : Char) : t.isMark c = false := by
  unfold isName at h
  rw [Bool.and_eq_true, beq_iff_eq] at h
  unfold isMark
  rw [h.1]
  rfl

/-- A statement that is a single name declares no function. -/
theorem head?_of_bareName? {known : List Text} {s : List Token} {t : Token}
    (h : bareName? known s = some t) : head? s = none := by
  unfold bareName? at h
  split at h
  · next u =>
    split at h
    · next hu =>
      rw [Bool.and_eq_true] at hu
      unfold head?
      simp [List.span, List.span.loop, isMark_of_isName hu.1]
    · cases h
  · cases h

theorem declarations_scanStatement (known : List Text) (s : List Token) :
    (scanStatement known s).declarations = ((headOf? s).map Head.declaration).toList := by
  unfold scanStatement headOf?
  split
  · rfl
  split
  · next h =>
    rw [head?_of_bareName? h]
    rfl
  split
  · next hh =>
    rw [declarations_outline, hh]
    rfl
  · next hh =>
    rw [hh]
    rfl

theorem errors_scanStatement (known : List Text) (s : List Token) :
    (scanStatement known s).notes.filter Note.isError
      = ((uses s).filter (isUnknown known)).map unknownType := by
  unfold scanStatement uses headOf?
  split
  · rfl
  split
  · next h =>
    rw [head?_of_bareName? h]
    rfl
  split
  · next hh =>
    rw [notes_outline, hh]
    exact List.filter_eq_self.2 fun n hn => by
      obtain ⟨t, _, rfl⟩ := List.mem_map.1 hn
      rfl
  · next hh =>
    rw [hh]
    rfl

/-- **What a scan declares does not depend on the known types.** -/
theorem declarations_scanStatements (known : List Text) (ss : List (List Token)) :
    (scanStatements known ss).declarations = (ss.filterMap headOf?).map Head.declaration := by
  unfold scanStatements
  simp only [declarations_scanStatement]
  induction ss with
  | nil => rfl
  | cons s ss ih =>
    -- a statement declares one function or none
    rw [List.flatMap_cons, ih, List.filterMap_cons]
    cases headOf? s <;> rfl

/-- What the statements of a run of tokens declare. -/
def declared (ts : List Token) : List Declaration :=
  ((statements ts).filterMap headOf?).map Head.declaration

theorem declarations_scan (t : Text) : (scan t).declarations = declared (Token.ofText t) :=
  declarations_scanStatements _ _

/-- **The errors of a scan are the names used as types that are not known.** -/
theorem errors_scanStatements (known : List Text) (ss : List (List Token)) :
    (scanStatements known ss).notes.filter Note.isError
      = ((ss.flatMap uses).filter (isUnknown known)).map unknownType := by
  unfold scanStatements
  simp only [List.filter_flatMap, errors_scanStatement, List.map_flatMap]

/-! ## §4. Everything a statement yields comes from its tokens. -/

/-- The statements hold the tokens they are made from, in order. -/
theorem flatten_statements_sublist (ts : List Token) : (statements ts).flatten.Sublist ts := by
  unfold statements
  rw [List.flatten_filter_not_isEmpty]
  exact Text.flatten_splitWhere_sublist endsStatement ts

theorem mem_of_mem_statements {ts s : List Token} (hs : s ∈ statements ts) {t : Token}
    (ht : t ∈ s) : t ∈ ts :=
  (flatten_statements_sublist ts).subset (List.mem_flatten.2 ⟨s, hs, ht⟩)

theorem mem_of_mem_upToClosing {depth : Nat} {ts inside : List Token}
    (h : upToClosing depth ts = some inside) {t : Token} (ht : t ∈ inside) : t ∈ ts := by
  induction ts generalizing depth inside with
  | nil => cases h
  | cons u rest ih =>
    unfold upToClosing at h
    -- every branch but the closing one keeps the token and goes on
    have hstep : ∀ d, (upToClosing d rest).map (u :: ·) = some inside → t ∈ u :: rest := by
      intro d hd
      obtain ⟨more, hmore, rfl⟩ := Option.map_eq_some_iff.1 hd
      rcases List.mem_cons.1 ht with rfl | ht
      · exact List.mem_cons_self
      · exact List.mem_cons_of_mem _ (ih hmore ht)
    split at h
    · exact hstep _ h
    split at h
    · split at h
      · cases h
        exact absurd ht List.not_mem_nil
      · exact hstep _ h
    · exact hstep _ h

/-- The name of a head is a name of the statement, and the tokens of the type and
those between the brackets are tokens of the statement. -/
theorem mem_of_head? {s : List Token} {h : Head} (hh : head? s = some h) :
    (h.name ∈ s ∧ h.name.isName = true) ∧ (∀ t ∈ h.type, t ∈ s) ∧ ∀ t ∈ h.inside, t ∈ s := by
  unfold head? at hh
  -- the bracket splits the statement: specifiers, type and name before it, parameters behind
  rw [List.span_eq_takeWhile_dropWhile] at hh
  have hs : s.takeWhile (!·.isMark '(') ++ s.dropWhile (!·.isMark '(') = s :=
    List.takeWhile_append_dropWhile
  split at hh
  · cases hh
  · next before bracket rest heq =>
    rw [Prod.mk.injEq] at heq
    rw [heq.1, heq.2] at hs
    split at hh
    · next name u ts hrev =>
      dsimp only at hh
      split at hh
      · next hok =>
        obtain ⟨inside, hin, rfl⟩ := Option.map_eq_some_iff.1 hh
        rw [Bool.and_eq_true] at hok
        have hbefore : ∀ t ∈ name :: u :: ts, t ∈ s := by
          intro t ht
          rw [← hrev, List.mem_reverse] at ht
          rw [← hs]
          exact List.mem_append_left _ ht
        refine ⟨⟨hbefore name List.mem_cons_self, hok.1⟩, ?_, ?_⟩
        · intro t ht
          have htype := List.mem_reverse.1 (List.mem_of_mem_filter ht)
          exact hbefore t (List.mem_cons_of_mem _ htype)
        · intro t ht
          rw [← hs]
          exact List.mem_append_right _ (List.mem_cons_of_mem _ (mem_of_mem_upToClosing hin ht))
      · cases hh
    · cases hh

theorem mem_of_headOf? {s : List Token} {h : Head} (hh : headOf? s = some h) :
    (h.name ∈ s ∧ h.name.isName = true) ∧ (∀ t ∈ h.type, t ∈ s) ∧ ∀ t ∈ h.inside, t ∈ s := by
  unfold headOf? at hh
  split at hh
  · cases hh
  · exact mem_of_head? hh

theorem mem_of_mem_splitCommas {depth : Nat} {ts g : List Token}
    (hg : g ∈ splitCommas depth ts) {t : Token} (ht : t ∈ g) : t ∈ ts := by
  induction ts generalizing depth g with
  | nil =>
    cases List.mem_singleton.1 hg
    exact absurd ht List.not_mem_nil
  | cons u rest ih =>
    unfold splitCommas at hg
    split at hg
    · rcases List.mem_cons.1 hg with rfl | hg
      · exact absurd ht List.not_mem_nil
      · exact List.mem_cons_of_mem _ (ih hg ht)
    · split at hg
      · cases List.mem_singleton.1 hg
        cases List.mem_singleton.1 ht
        exact List.mem_cons_self
      · next first others heq =>
        -- the first group grows by this token, the other groups stay
        rcases List.mem_cons.1 hg with rfl | hg
        · rcases List.mem_cons.1 ht with rfl | ht
          · exact List.mem_cons_self
          · exact List.mem_cons_of_mem _ (ih (heq ▸ List.mem_cons_self) ht)
        · exact List.mem_cons_of_mem _ (ih (heq ▸ List.mem_cons_of_mem _ hg) ht)

theorem mem_of_mem_paramGroups {inside g : List Token} (hg : g ∈ paramGroups inside) {t : Token}
    (ht : t ∈ g) : t ∈ inside := by
  unfold paramGroups at hg
  split at hg
  · exact absurd hg List.not_mem_nil
  · exact mem_of_mem_splitCommas (List.mem_of_mem_filter hg) ht

theorem mem_of_pointerName? {g : List Token} {p : PointerName} (h : pointerName? g = some p) :
    p.name ∈ g ∧ p.name.isName = true ∧ ∀ t ∈ p.lead, t ∈ g := by
  fun_induction pointerName? g generalizing p with
  | case1 a b c rest hok =>
    cases h
    simp only [Bool.and_eq_true] at hok
    exact ⟨by simp, hok.2, fun t ht => absurd ht List.not_mem_nil⟩
  | case2 a b c rest hok ih =>
    obtain ⟨q, hq, rfl⟩ := Option.map_eq_some_iff.1 h
    obtain ⟨hname, hisName, hlead⟩ := ih hq
    refine ⟨List.mem_cons_of_mem _ hname, hisName, ?_⟩
    intro t ht
    rcases List.mem_cons.1 ht with rfl | ht
    · exact List.mem_cons_self
    · exact List.mem_cons_of_mem _ (hlead t ht)
  | case3 => cases h

theorem beforeBracket?_suffix {ts rest : List Token} (h : beforeBracket? ts = some rest) :
    rest <:+ ts := by
  induction ts with
  | nil => cases h
  | cons t ts ih =>
    unfold beforeBracket? at h
    split at h
    · cases h
      exact List.suffix_cons t rest
    · exact (ih h).trans (List.suffix_cons t ts)

theorem dropBounds_suffix (ts : List Token) : dropBounds ts <:+ ts := by
  fun_induction dropBounds ts with
  | case1 => exact List.suffix_refl _
  | case2 t rest _ before hbefore ih =>
    exact ih.trans ((beforeBracket?_suffix hbefore).trans (List.suffix_cons t rest))
  | case3 => exact List.suffix_refl _
  | case4 => exact List.suffix_refl _

/-- The core of a parameter, its array bounds left out, consists of its tokens. -/
theorem mem_of_mem_core {g : List Token} {t : Token} (h : t ∈ (dropBounds g.reverse).reverse) :
    t ∈ g := by
  rw [List.mem_reverse] at h
  exact List.mem_reverse.1 ((dropBounds_suffix g.reverse).subset h)

theorem mem_of_mem_typeTokens {g : List Token} {t : Token} (h : t ∈ typeTokens g) : t ∈ g := by
  unfold typeTokens at h
  split at h
  · next p hp => exact (mem_of_pointerName? hp).2.2 t h
  · dsimp only at h
    split at h
    · exact mem_of_mem_core (List.mem_of_mem_dropLast h)
    · exact mem_of_mem_core h

/-- A name at the end is the last token. -/
theorem exists_getLast?_of_endsInName {core : List Token} (h : endsInName core = true) :
    ∃ t, core.getLast? = some t ∧ t.isName = true := by
  unfold endsInName at h
  split at h
  · next last before more hrev =>
    rw [Bool.and_eq_true] at h
    refine ⟨last, ?_, h.1⟩
    rw [List.getLast?_eq_head?_reverse, hrev]
    rfl
  · cases h

/-- **A parameter has no name, or a name that stands among its tokens.** -/
theorem name_paramOf (g : List Token) :
    (paramOf g).2 = [] ∨ ∃ t ∈ g, t.isName = true ∧ (paramOf g).2 = t.text := by
  unfold paramOf scanParam
  -- a function pointer has its name inside, any other parameter at its end
  cases hp : pointerName? g with
  | some p =>
    obtain ⟨hmem, hname, _⟩ := mem_of_pointerName? hp
    exact .inr ⟨p.name, hmem, hname, rfl⟩
  | none =>
    dsimp only
    split
    · next hends =>
      obtain ⟨t, hlast, hname⟩ := exists_getLast?_of_endsInName hends
      refine .inr ⟨t, mem_of_mem_core (List.mem_of_getLast? hlast), hname, ?_⟩
      rw [hlast]
      rfl
    · exact .inl rfl

/-- **The names used as types are names that stand in the statement.** -/
theorem mem_of_mem_uses {s : List Token} {t : Token} (h : t ∈ uses s) :
    t ∈ s ∧ t.isName = true := by
  unfold uses at h
  cases hh : headOf? s with
  | none =>
    rw [hh] at h
    exact absurd h List.not_mem_nil
  | some d =>
    rw [hh] at h
    obtain ⟨_, htype, hinside⟩ := mem_of_headOf? hh
    rcases List.mem_append.1 h with h | h
    · obtain ⟨hmem, hname⟩ := mem_of_mem_typeNames h
      exact ⟨htype t hmem, hname⟩
    · obtain ⟨g, hg, ht⟩ := List.mem_flatMap.1 h
      obtain ⟨hmem, hname⟩ := mem_of_mem_typeNames ht
      exact ⟨hinside t (mem_of_mem_paramGroups hg (mem_of_mem_typeTokens hmem)), hname⟩

end DocAudit.Declaration
