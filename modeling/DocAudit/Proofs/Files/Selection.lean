/-
  DocAudit.Proofs.Files.Selection
  ───────────────────────────────
  **WHICH FILES A CHECK LOOKS AT, AND HOW OFTEN.**

  The files that a check looks at are put together from what its paths stand for
  (`run_collect`).  They are told apart by their components and by nothing else, so a file
  is looked at twice where its paths differ in more than spelling:

      they begin in another way           a.c    ./a.c    ../here/a.c    /here/a.c
      one goes up behind a name           a.c    d/../a.c

  In every other case one path for each file is kept (`files_collected_once`), and no file
  below a directory is overlooked (`kept_file_collected`).
-/
import DocAudit.Files.Selection
import DocAudit.Proofs.Files.Place
import DocAudit.Proofs.Path.Order

namespace DocAudit.Selection

open Files DocAudit.Path

variable {t : Tree} {f : FileFilter} {paths : List Text}

/-! ## §1. What paths stand for. -/

/-- There is a file or a directory at a path. -/
def Present (t : Tree) (path : Text) : Prop :=
  t.kind? path = some .file ∨ t.kind? path = some .directory

instance (t : Tree) (path : Text) : Decidable (Present t path) :=
  inferInstanceAs (Decidable (_ ∨ _))

/-- The files of a tree that a path stands for. -/
def filesOf (t : Tree) (f : FileFilter) (path : Text) : List Text :=
  if t.kind? path = some .directory then (t.walk path).filter f.keeps else [path]

/-- **A path that exists** stands for itself or for what a walk keeps. -/
theorem run_expand {path : Text} (h : Present t path) :
    (expand Tree.disk f path).run.run t = (.ok (filesOf t f path), t) := by
  have hlook : (liftM (Tree.disk.kind path) : ExceptT Error (StateM Tree) _).run.run t
      = (.ok (t.kind? path), t) := rfl
  unfold expand filesOf
  rw [ExceptT.run_bind, StateT.run_bind, hlook]
  rcases h with hkind | hkind
  · rw [hkind]
    rfl
  · rw [hkind]
    rfl

/-- Paths are expanded one by one. -/
theorem run_mapM_expand (h : ∀ p ∈ paths, Present t p) :
    (paths.mapM (expand Tree.disk f)).run.run t = (.ok (paths.map (filesOf t f)), t) := by
  induction paths with
  | nil => rfl
  | cons p rest ih =>
    rw [List.mapM_cons, ExceptT.run_bind, StateT.run_bind, run_expand (h p List.mem_cons_self)]
    show (((rest.mapM (expand Tree.disk f)) >>= fun fs => pure (filesOf t f p :: fs)).run).run t = _
    rw [ExceptT.run_bind, StateT.run_bind, ih fun q hq => h q (List.mem_cons_of_mem _ hq)]
    rfl

/-- **Paths that exist** stand for files, which are put in order. -/
theorem run_collect (h : ∀ p ∈ paths, Present t p) :
    (collect Tree.disk f paths).run.run t = (.ok (sorted (paths.flatMap (filesOf t f))), t) := by
  unfold collect
  rw [ExceptT.run_bind, StateT.run_bind, run_mapM_expand h]
  rfl

/-! ## §2. Every file. -/

/-- **No file is overlooked**: what stands below a directory that is named is at the place of
a path that is selected, if its names can be spelled and the filter keeps its path. -/
theorem kept_file_collected (hpaths : ∀ p ∈ paths, Present t p) {dir : Text} (hdir : dir ∈ paths)
    {place names : List Text} {bytes : List UInt8}
    (hfollow : t.follow dir = .ok (place, .directory))
    (hfile : (place ++ names, .file bytes) ∈ t.nodes) (hnames : ∀ n ∈ names, Spelled n)
    (hkeeps : f.keeps (Tree.below dir names) = true) :
    ∃ files, (collect Tree.disk f paths).run.run t = (.ok files, t)
      ∧ ∃ r ∈ files, t.placeOf r = place ++ names := by
  have hkind : t.kind? dir = some .directory := by
    unfold Tree.kind?
    rw [hfollow]
    rfl
  have hne : dir ≠ [] := by
    rintro rfl
    cases hfollow
  have hreached : Tree.below dir names ∈ paths.flatMap (filesOf t f) := by
    refine List.mem_flatMap.2 ⟨dir, hdir, ?_⟩
    unfold filesOf
    rw [if_pos hkind]
    exact List.mem_filter.2 ⟨Tree.mem_walk hfollow hfile, hkeeps⟩
  obtain ⟨r, hr, hsame⟩ := exists_mem_sorted hreached
  refine ⟨_, run_collect hpaths, r, hr, ?_⟩
  calc t.placeOf r = t.placeOf (Tree.below dir names) :=
        congrArg (List.foldl Component.follow t.home) hsame
    _ = t.placeOf dir ++ names := Tree.placeOf_below hne hnames
    _ = place ++ names := by rw [← Tree.place_eq_of_follow hfollow]

/-! ## §3. Each file once. -/

/-- **EACH FILE IS CHECKED ONCE, IF ITS PATHS DIFFER IN SPELLING ONLY.**  Let every path that
is named be that of a file or a directory.  Then files are selected: paths that the named
ones stand for, and of those with equal components exactly one.  A path leads where its
components spell, so no two of the files are at one place, unless their paths begin in
different ways or one of them goes up behind a name. -/
theorem files_collected_once (t : Tree) (f : FileFilter) (paths : List Text)
    (hpaths : ∀ p ∈ paths, Present t p) :
    (∀ path place node, t.follow path = .ok (place, node) → place = t.placeOf path)
      ∧ ∃ files, (collect Tree.disk f paths).run.run t = (.ok files, t)
        ∧ (∀ q ∈ files, ∃ p ∈ paths, q ∈ filesOf t f p)
        ∧ (∀ p ∈ paths, ∀ q ∈ filesOf t f p, ∃ r ∈ files, components r = components q)
        ∧ files.Pairwise fun q r => components q ≠ components r
            ∧ (t.placeOf q = t.placeOf r → lead q ≠ lead r ∨ ¬Straight q ∨ ¬Straight r) := by
  refine ⟨fun path place node => Tree.place_eq_of_follow, _, run_collect hpaths, ?_, ?_, ?_⟩
  · intro q hq
    exact List.mem_flatMap.1 (mem_of_mem_sorted hq)
  · intro p hp q hq
    exact exists_mem_sorted (List.mem_flatMap.2 ⟨p, hp, hq⟩)
  · refine (pairwise_sorted _).imp fun {q r} hlt => ?_
    have hne : components q ≠ components r := fun heq => hlt.ne (key_eq_iff.2 heq)
    refine ⟨hne, fun hplace => ?_⟩
    by_contra hcon
    obtain ⟨hlead, hq, hr⟩ : lead q = lead r ∧ Straight q ∧ Straight r := by
      simpa only [not_or, not_not] using hcon
    exact hne (components_eq_of_placeOf_eq hlead hq hr hplace)

/-- A file that is named, and one that is named in a directory that is named as well. -/
theorem files_collected_once_kitchen :
    let t : Tree :=
      { nodes :=
          [(["a.c".toList], .file []), (["d".toList], .directory),
            (["d".toList, "b.c".toList], .file [])]
        home := [] }
    let f : FileFilter := ⟨["c".toList], []⟩
    let paths := ["d//b.c".toList, "a.c".toList, "d".toList]
    (∀ p ∈ paths, Present t p)
      ∧ filesOf t f "d".toList = ["d/b.c".toList]
      ∧ ∃ files, (collect Tree.disk f paths).run.run t = (.ok files, t)
        ∧ (∃ r ∈ files, components r = components "d/b.c".toList)
        ∧ files.Pairwise fun q r => components q ≠ components r := by
  intro t f paths
  have hpaths : ∀ p ∈ paths, Present t p := by decide +kernel
  have hwalk : filesOf t f "d".toList = ["d/b.c".toList] := by decide +kernel
  obtain ⟨_, files, hrun, _, hkept, hpairs⟩ := files_collected_once t f paths hpaths
  refine ⟨hpaths, hwalk, files, hrun, ?_, hpairs.imp fun h => h.1⟩
  exact hkept "d".toList (by decide) "d/b.c".toList (by rw [hwalk]; exact List.mem_singleton_self _)

/-- **One file, four times**: from the root, with a point in front, by its name, and by a way
through a directory and up again. -/
theorem spellings_collected_apart :
    let t : Tree :=
      { nodes := [(["w".toList, "a.c".toList], .file []), (["w".toList, "d".toList], .directory)]
        home := ["w".toList] }
    let paths := ["/w/a.c".toList, "./a.c".toList, "a.c".toList, "d/../a.c".toList]
    (collect Tree.disk ⟨["c".toList], []⟩ paths).run.run t = (.ok paths, t)
      ∧ ∀ p ∈ paths, (t.follow p).toOption = some (["w".toList, "a.c".toList], .file []) := by
  intro t paths
  have hpaths : ∀ p ∈ paths, Present t p := by decide +kernel
  have hfiles : paths.flatMap (filesOf t ⟨["c".toList], []⟩) = paths := by decide +kernel
  refine ⟨?_, by decide +kernel⟩
  rw [run_collect hpaths, hfiles, sorted_of_pairwise (by decide +kernel)]

end DocAudit.Selection
