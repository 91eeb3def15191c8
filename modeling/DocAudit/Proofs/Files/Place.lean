/-
  DocAudit.Proofs.Files.Place
  ───────────────────────────
  **WHERE A PATH LEADS.**

  There are no links in a tree, so a path that can be followed leads where its components
  spell (`place_eq_of_follow`):

      /       the root                 .     the same place
      name    the place below          ..    the place above

  A path begins with a lead of components other than names.  If it does not go up again
  behind that (`Straight`), the rest are names, which are added to a place.  So two
  straight paths with one lead spell one place only if their components are equal
  (`components_eq_of_placeOf_eq`).

  The path of what a walk finds is that of the directory with names joined to it, and it
  spells the place where it was found (`placeOf_below`).
-/
import DocAudit.Files.Tree
import DocAudit.Proofs.Text.Split
import Mathlib.Data.List.TakeWhile
import Mathlib.Data.Set.List

namespace DocAudit

/-! ## §1. Steps. -/

namespace Component

/-- Whether a component is a name. -/
def isName : Component → Bool
  | name _ => true
  | _ => false

/-- Where a component leads from a place. -/
def follow (place : List Text) : Component → List Text
  | root => []
  | here => place
  | up => place.dropLast
  | name n => place ++ [n]

/-- Names are added to a place. -/
theorem foldl_follow_names (place names : List Text) :
    (names.map name).foldl follow place = place ++ names := by
  induction names generalizing place with
  | nil => simp
  | cons n rest ih =>
    show (rest.map name).foldl follow (place ++ [n]) = _
    rw [ih]
    simp

end Component

namespace Files.Tree

variable {t : Tree} {place next : List Text}

/-- The place that a path spells. -/
def placeOf (t : Tree) (path : Text) : List Text :=
  (Path.components path).foldl Component.follow t.home

theorem step_eq_ok {c : Component} (h : t.step place c = .ok next) : next = c.follow place := by
  unfold step at h
  split at h
  · cases c with
    | root => exact (Except.ok.inj h).symm
    | here => exact (Except.ok.inj h).symm
    | up => exact (Except.ok.inj h).symm
    | name n =>
      dsimp only at h
      split at h
      · cases h
      · split at h
        · exact (Except.ok.inj h).symm
        · cases h
  · cases h
  · cases h

theorem steps_eq_ok {cs : List Component} (h : t.steps place cs = .ok next) :
    next = cs.foldl Component.follow place := by
  induction cs generalizing place with
  | nil => exact (Except.ok.inj h).symm
  | cons c rest ih =>
    unfold steps at h
    split at h
    · next q hstep =>
      rw [ih h, step_eq_ok hstep]
      rfl
    · cases h

/-- **A path leads where it spells**, if it leads anywhere. -/
theorem place_eq_of_follow {path : Text} {node : Node} (h : t.follow path = .ok (place, node)) :
    place = t.placeOf path := by
  unfold follow at h
  split at h
  · cases h
  split at h
  · cases h
  next q hsteps =>
    -- whatever stands there, it is the place that is reached
    have hplace : q = place := by
      split at h
      · cases h
      · exact congrArg Prod.fst (Except.ok.inj h)
      · split at h
        · cases h
        · exact congrArg Prod.fst (Except.ok.inj h)
    rw [← hplace, steps_eq_ok hsteps]
    rfl

end Files.Tree

/-! ## §2. Parts between slashes. -/

namespace Path

open Files Component

/-- How a path begins, by its parts between slashes. -/
def start : List Text → List Component
  | [] :: _ :: _ => [.root]
  | ['.'] :: _ => [.here]
  | _ => []

theorem components_eq (p : Text) :
    components p
      = start (Text.splitOn '/' p) ++ (Text.splitOn '/' p).filterMap component? := by
  unfold components
  dsimp only
  generalize Text.splitOn '/' p = parts
  unfold start
  split <;> simp

/-- More parts do not change how a path begins, if there is any part to see it by. -/
theorem start_append {parts : List Text} (h : parts ≠ []) (hempty : parts ≠ [[]])
    (more : List Text) : start (parts ++ more) = start parts := by
  obtain ⟨first, others, rfl⟩ := List.exists_cons_of_ne_nil h
  by_cases hroot : first = []
  · subst hroot
    cases others with
    | nil => exact absurd rfl hempty
    | cons second others => rfl
  by_cases hhere : first = ['.']
  · subst hhere
    rfl
  · unfold start
    split <;> split <;> simp_all

/-- The last part does not tell how a path begins, if there is one before it. -/
theorem start_concat {parts : List Text} (h : parts ≠ []) (a b : Text) :
    start (parts ++ [a]) = start (parts ++ [b]) := by
  by_cases hempty : parts = [[]]
  · subst hempty
    rfl
  · rw [start_append h hempty, start_append h hempty]

/-- Parts stand for names and ways up. -/
theorem eq_up_or_name_of_component? {part : Text} {c : Component} (h : component? part = some c) :
    c = .up ∨ ∃ n, c = .name n := by
  unfold component? at h
  split at h
  · cases h
  split at h
  · exact .inl (Option.some.inj h).symm
  · exact .inr ⟨part, (Option.some.inj h).symm⟩

/-! ## §3. Straight paths. -/

/-- The components of a path before its first name. -/
def lead (p : Text) : List Component := (components p).takeWhile fun c => !c.isName

/-- The components of a path from its first name on. -/
def trail (p : Text) : List Component := (components p).dropWhile fun c => !c.isName

/-- Behind its first name a path does not go up. -/
def Straight (p : Text) : Prop := .up ∉ trail p

instance (p : Text) : Decidable (Straight p) := inferInstanceAs (Decidable (¬_))

variable {p q : Text}

theorem lead_append_trail (p : Text) : lead p ++ trail p = components p :=
  List.takeWhile_append_dropWhile

/-- The root and a leading `.` are part of the lead. -/
theorem trail_eq (p : Text) :
    trail p = ((Text.splitOn '/' p).filterMap component?).dropWhile fun c => !c.isName := by
  unfold trail
  rw [components_eq]
  unfold start
  split <;> simp [isName]

/-- **A straight path ends in names.** -/
theorem exists_trail_eq (h : Straight p) : ∃ names : List Text, trail p = names.map name := by
  have hname : ∀ c ∈ trail p, c ∈ Set.range name := by
    intro c hc
    have hmem := hc
    rw [trail_eq] at hmem
    obtain ⟨part, _, hpart⟩ := List.mem_filterMap.1 ((List.dropWhile_sublist _).subset hmem)
    rcases eq_up_or_name_of_component? hpart with rfl | ⟨n, rfl⟩
    · exact absurd hc h
    · exact ⟨n, rfl⟩
  have hrange : trail p ∈ Set.range (List.map name) := by
    rw [Set.range_list_map]
    exact hname
  obtain ⟨names, hnames⟩ := hrange
  exact ⟨names, hnames.symm⟩

/-- **Straight paths with one lead** spell one place only if they are the same. -/
theorem components_eq_of_placeOf_eq {t : Tree} (hlead : lead p = lead q) (hp : Straight p)
    (hq : Straight q) (h : t.placeOf p = t.placeOf q) : components p = components q := by
  obtain ⟨ps, hps⟩ := exists_trail_eq hp
  obtain ⟨qs, hqs⟩ := exists_trail_eq hq
  unfold Tree.placeOf at h
  rw [← lead_append_trail p, ← lead_append_trail q, hlead, hps, hqs] at h ⊢
  rw [List.foldl_append, List.foldl_append, foldl_follow_names, foldl_follow_names] at h
  rw [List.append_cancel_left h]

/-! ## §4. Names behind a slash. -/

/-- A name that a path can spell. -/
def Spelled (name : Text) : Prop := component? name = some (.name name) ∧ '/' ∉ name

instance (name : Text) : Decidable (Spelled name) := inferInstanceAs (Decidable (_ ∧ _))

theorem splitOn_slash (d : Text) {name : Text} (h : '/' ∉ name) :
    Text.splitOn '/' (d ++ '/' :: name) = Text.splitOn '/' d ++ [name] := by
  rw [← Text.splitOn_of_not_mem h]
  exact Text.splitWhere_append_marked (p := (· == '/')) (beq_self_eq_true '/') d name

/-- A name behind a slash is one more component. -/
theorem components_append_name (d : Text) {name : Text} (h : Spelled name) :
    components (d ++ '/' :: name) = components (d ++ ['/']) ++ [.name name] := by
  have hparts : Text.splitOn '/' d ≠ [] := Text.splitWhere_ne_nil _ d
  have hname : [name].filterMap component? = [.name name] := List.filterMap_cons_some h.1
  have hempty : [[]].filterMap component? = [] := rfl
  rw [components_eq, components_eq, splitOn_slash d h.2, splitOn_slash d List.not_mem_nil,
    start_concat hparts name [], List.filterMap_append, List.filterMap_append, hname, hempty,
    List.append_nil, List.append_assoc]

/-- A slash at the end makes no difference. -/
theorem components_append_slash {d : Text} (h : d ≠ []) :
    components (d ++ ['/']) = components d := by
  have hparts : Text.splitOn '/' d ≠ [] := Text.splitWhere_ne_nil _ d
  have hsome : Text.splitOn '/' d ≠ [[]] := by
    intro hnone
    have hjoin := Text.join_splitOn '/' d
    rw [hnone] at hjoin
    exact h hjoin.symm
  have hempty : [[]].filterMap component? = [] := rfl
  rw [components_eq, components_eq, splitOn_slash d List.not_mem_nil, start_append hparts hsome,
    List.filterMap_append, hempty, List.append_nil]

/-- **A name that is joined to a path** is one more component. -/
theorem components_join {dir name : Text} (hdir : dir ≠ []) (hname : Spelled name) :
    components (join dir name) = components dir ++ [.name name] := by
  have hhead : name.head? ≠ some '/' := fun h => hname.2 (List.mem_of_mem_head? h)
  unfold join
  rw [if_neg hhead]
  by_cases hslash : dir.getLast? = some '/'
  · obtain ⟨d, rfl⟩ := List.getLast?_eq_some_iff.1 hslash
    rw [if_pos (.inr hslash), List.append_assoc]
    exact components_append_name d hname
  · rw [if_neg (not_or.2 ⟨hdir, hslash⟩), components_append_name dir hname,
      components_append_slash hdir]

end Path

/-! ## §5. Walks. -/

namespace Files.Tree

open DocAudit.Path

variable {t : Tree} {dir : Text} {names : List Text}

/-- **What stands below a directory** is spelled by more names. -/
theorem components_below (hdir : dir ≠ []) (hnames : ∀ n ∈ names, Spelled n) :
    components (below dir names) = components dir ++ names.map .name := by
  induction names generalizing dir with
  | nil => simp [below]
  | cons n rest ih =>
    have hn := hnames n List.mem_cons_self
    have hjoin := components_join hdir hn
    have hne : join dir n ≠ [] := by
      intro hnil
      rw [hnil] at hjoin
      have hcomponents : components [] = [] := rfl
      simp [hcomponents] at hjoin
    show components (below (join dir n) rest) = _
    rw [ih hne fun m hm => hnames m (List.mem_cons_of_mem n hm), hjoin]
    simp

theorem placeOf_below (hdir : dir ≠ []) (hnames : ∀ n ∈ names, Spelled n) :
    t.placeOf (below dir names) = t.placeOf dir ++ names := by
  unfold placeOf
  rw [components_below hdir hnames, List.foldl_append, Component.foldl_follow_names]

/-- **A walk finds every file** below its directory. -/
theorem mem_walk {place : List Text} {bytes : List UInt8}
    (hdir : t.follow dir = .ok (place, .directory))
    (hfile : (place ++ names, .file bytes) ∈ t.nodes) : below dir names ∈ t.walk dir := by
  unfold walk
  rw [hdir]
  refine List.mem_filterMap.2 ⟨_, hfile, ?_⟩
  have hbelow : place.isPrefixOf (place ++ names) = true := by simp
  dsimp only
  rw [if_pos ⟨hbelow, rfl⟩, List.drop_left]

end Files.Tree
end DocAudit
