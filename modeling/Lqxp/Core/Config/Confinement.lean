import Lqxp.Core.Config

/-!
This module contains where the checkout of the web client may be.
-/

namespace Lqxp

section Walking

/--
The components of a relative path, followed one after the other from a path on, lead to another one without
climbing above the root of the file system.
-/
inductive Leads : List Component → AbsolutePath → AbsolutePath → Prop where
  | done (path : AbsolutePath) : Leads [] path path
  | normal {part : String} {rest : List Component} {path target : AbsolutePath}
    (h : Leads rest (path ++ [part]) target) : Leads (.normal part :: rest) path target
  | curDir {rest : List Component} {path target : AbsolutePath} (h : Leads rest path target)
    : Leads (.curDir :: rest) path target
  | parentDir {name : String} {rest : List Component} {path target : AbsolutePath} (h : Leads rest path target)
    : Leads (.parentDir :: rest) (path ++ [name]) target

theorem resolveComponents_eq_ok_iff {comps : List Component} {path target : AbsolutePath}
    : resolveComponents comps path = .ok target ↔ Leads comps path target := by
  constructor
  . intro h
    induction comps generalizing path with
    | nil =>
      obtain rfl := Except.ok.inj h
      exact .done _
    | cons comp rest ih =>
      cases comp with
      | rootDir => contradiction
      | curDir => exact .curDir (ih h)
      | normal part => exact .normal (ih h)
      | parentDir =>
        rw [resolveComponents] at h
        split at h
        . contradiction
        next hne =>
          rw [← List.dropLast_append_getLast hne]
          exact .parentDir (ih h)
  . intro h
    induction h with
    | done path => rfl
    | normal h ih => exact ih
    | curDir h ih => exact ih
    | parentDir h ih =>
      rw [resolveComponents, if_neg (by simp), List.dropLast_concat]
      exact ih

end Walking

section Inspection

variable {ω : Type} {fs : FileSystem ω} {w : ω}

/--
A path that can be inspected: there is no such file, or it is no symbolic link.
-/
def Passable (fs : FileSystem ω) (w : ω) (path : AbsolutePath) : Prop :=
  (∃ fileType, fs.symlinkMetadata w path = .ok fileType ∧ fileType ≠ .symlink)
    ∨ ∃ err, fs.symlinkMetadata w path = .error err ∧ err.kind = .notFound

/--
The paths on the way from one path down to another one, without the first.
-/
def Between (path target between : AbsolutePath) : Prop :=
  path <+: between ∧ between ≠ path ∧ between <+: target

theorem between_cons_iff {path between : AbsolutePath} {name : String} {names : List String}
    : Between path (path ++ name :: names) between
        ↔ between = path ++ [name] ∨ Between (path ++ [name]) (path ++ name :: names) between := by
  constructor
  . rintro ⟨⟨rest, rfl⟩, hne, hbegins⟩
    rw [List.prefix_append_right_inj] at hbegins
    cases rest with
    | nil => simp at hne
    | cons name' rest =>
      obtain ⟨rfl, -⟩ := List.cons_prefix_cons.1 hbegins
      cases rest with
      | nil => exact .inl rfl
      | cons name'' rest =>
        refine .inr ⟨⟨name'' :: rest, by simp⟩, by simp, ?_⟩
        rwa [List.prefix_append_right_inj]
  . rintro (rfl | ⟨hbegins, hne, htarget⟩)
    . exact ⟨List.prefix_append _ _, by simp, ⟨names, by simp⟩⟩
    . refine ⟨(List.prefix_append _ _).trans hbegins, ?_, htarget⟩
      rintro rfl
      have hlength := hbegins.length_le
      rw [List.length_append, List.length_singleton] at hlength
      omega

theorem checkNoSymlink_eq_ok_iff {path : AbsolutePath} {names : List String}
    : checkNoSymlink fs w path names = .ok ()
        ↔ ∀ between, Between path (path ++ names) between → Passable fs w between := by
  induction names generalizing path with
  | nil =>
    refine iff_of_true rfl ?_
    rintro between ⟨hbegins, hne, htarget⟩
    rw [List.append_nil] at htarget
    exact absurd (hbegins.eq_of_length_le htarget.length_le).symm hne
  | cons name names ih =>
    have happend : path ++ [name] ++ names = path ++ name :: names := by simp
    have hrest : checkNoSymlink fs w (path ++ [name]) names = .ok () ↔ _ := ih
    rw [happend] at hrest
    simp only [between_cons_iff, or_imp, forall_and, forall_eq, ← hrest]
    rw [checkNoSymlink, Passable]
    dsimp only
    cases fs.symlinkMetadata w (path ++ [name]) with
    | ok fileType =>
      by_cases hsymlink : fileType = .symlink
      . simp [hsymlink, bind, Except.bind, throw, throwThe, MonadExceptOf.throw]
      . simp [hsymlink]
    | error err =>
      by_cases hfound : err.kind = .notFound
      . simp [hfound]
      . simp [hfound, bind, Except.bind, throw, throwThe, MonadExceptOf.throw]

/--
What the checkout may be, below the parent of the root of the server.
-/
structure Confined (fs : FileSystem ω) (w : ω) (root checkout : AbsolutePath) : Prop where
  parent : root ≠ []
  below : root.dropLast <+: checkout ∧ checkout ≠ root.dropLast
  notAbove : ¬ checkout <+: root
  unprotected : ∀ first rest, checkout = root ++ first :: rest → first ∉ protectedNames
  noSymlink : ∀ between, Between root.dropLast checkout between → fs.symlinkMetadata w between ≠ .ok .symlink

/--
What there is on the way to the checkout can be looked at.
-/
def Inspectable (fs : FileSystem ω) (w : ω) (root checkout : AbsolutePath) : Prop :=
  ∀ between, Between root.dropLast checkout between →
    ∀ err, fs.symlinkMetadata w between = .error err → err.kind = .notFound

theorem passable_iff {path : AbsolutePath}
    : Passable fs w path ↔ fs.symlinkMetadata w path ≠ .ok .symlink
        ∧ ∀ err, fs.symlinkMetadata w path = .error err → err.kind = .notFound := by
  rw [Passable]
  cases fs.symlinkMetadata w path with
  | ok fileType => simp
  | error err => simp

theorem throw_bind {ε α β : Type} (err : ε) (f : α → Except ε β) : ((throw err : Except ε α) >>= f) = .error err := rfl

theorem bind_pure_eq_ok_iff {ε α : Type} {check : Except ε Unit} {result expected : α}
    : (check >>= fun _ => pure result) = .ok expected ↔ result = expected ∧ check = .ok () := by
  cases check with
  | error err => simp [bind, Except.bind]
  | ok _ => simp [bind, Except.bind, pure, Except.pure]

theorem unprotected_iff {root checkout : AbsolutePath}
    : (∀ first rest, checkout = root ++ first :: rest → first ∉ protectedNames)
        ↔ ∀ first ∈ (checkout.drop root.length).head?, root <+: checkout → first ∉ protectedNames := by
  constructor
  . rintro h first hfirst ⟨rest, rfl⟩
    rw [List.drop_left] at hfirst
    cases rest with
    | nil => contradiction
    | cons first' rest =>
      obtain rfl := Option.some.inj hfirst
      exact h _ rest rfl
  . rintro h first rest rfl
    exact h first (by simp) (List.prefix_append _ _)

theorem confined_and_inspectable_iff {root checkout : AbsolutePath} (hroot : root ≠ [])
    : Confined fs w root checkout ∧ Inspectable fs w root checkout
        ↔ (root.dropLast <+: checkout ∧ checkout ≠ root.dropLast ∧ ¬ checkout <+: root)
          ∧ (∀ first ∈ (checkout.drop root.length).head?, root <+: checkout → first ∉ protectedNames)
          ∧ ∀ between, Between root.dropLast checkout between → Passable fs w between := by
  rw [← unprotected_iff]
  simp only [passable_iff, forall_and]
  constructor
  . rintro ⟨⟨-, hbelow, hnot, hfree, hlink⟩, hseen⟩
    exact ⟨⟨hbelow.1, hbelow.2, hnot⟩, hfree, hlink, hseen⟩
  . rintro ⟨⟨hbelow, hne, hnot⟩, hfree, hlink, hseen⟩
    exact ⟨⟨hroot, ⟨hbelow, hne⟩, hnot, hfree, hlink⟩, hseen⟩

/--
The checkout is where the configuration leads, if that is a place that it may have.
-/
theorem checkoutPath_eq_ok_iff {config : WebConfig} {root : String} {checkout : AbsolutePath}
    : config.checkoutPath fs w root = .ok checkout
        ↔ config.directory ≠ "" ∧ Text.startsWith config.directory "/" = false
          ∧ ∃ canonicalRoot, fs.canonicalize w root = .ok canonicalRoot
            ∧ Leads (components config.directory) canonicalRoot checkout
            ∧ Confined fs w canonicalRoot checkout ∧ Inspectable fs w canonicalRoot checkout := by
  unfold WebConfig.checkoutPath
  by_cases hdirectory : config.directory = "" ∨ Text.startsWith config.directory "/"
  . rw [if_pos hdirectory, throw_bind]
    refine iff_of_false (by simp) ?_
    rintro ⟨hempty, hrelative, -⟩
    rw [hrelative] at hdirectory
    simp [hempty] at hdirectory
  rw [if_neg hdirectory]
  rw [not_or, Bool.not_eq_true] at hdirectory
  rw [and_iff_right hdirectory.1, and_iff_right hdirectory.2]
  cases hcanonical : fs.canonicalize w root with
  | error err => simp [throw_bind]
  | ok canonicalRoot =>
    simp only [Except.ok.injEq, exists_eq_left', pure_bind, throw_bind, ← resolveComponents_eq_ok_iff]
    by_cases hroot : canonicalRoot = []
    . rw [if_pos hroot]
      exact iff_of_false (by simp) fun h => h.2.1.parent hroot
    rw [if_neg hroot]
    cases resolveComponents (components config.directory) canonicalRoot with
    | error err => simp [bind, Except.bind]
    | ok target =>
      rw [Except.ok.injEq]
      show (if _ then _ else _) = Except.ok checkout ↔ _
      by_cases hplace : ¬ canonicalRoot.dropLast <+: target ∨ target = canonicalRoot.dropLast ∨ target <+: canonicalRoot
      . rw [if_pos hplace]
        refine iff_of_false (by simp) ?_
        rintro ⟨rfl, hconfined, -⟩
        rcases hplace with hbelow | heq | habove
        . exact hbelow hconfined.below.1
        . exact hconfined.below.2 heq
        . exact hconfined.notAbove habove
      rw [if_neg hplace]
      simp only [not_or, not_not] at hplace
      have hnames : canonicalRoot.dropLast ++ target.drop canonicalRoot.dropLast.length = target := by
        obtain ⟨rest, rfl⟩ := hplace.1
        rw [List.drop_left]
      have hwalk : (checkNoSymlink fs w canonicalRoot.dropLast (target.drop canonicalRoot.dropLast.length) >>=
          fun _ => pure target) = .ok checkout
          ↔ target = checkout ∧ ∀ between, Between canonicalRoot.dropLast target between → Passable fs w between := by
        rw [bind_pure_eq_ok_iff, checkNoSymlink_eq_ok_iff, hnames]
      have hdone : (target = checkout ∧ Confined fs w canonicalRoot checkout ∧ Inspectable fs w canonicalRoot checkout)
          ↔ (∀ first ∈ (target.drop canonicalRoot.length).head?, canonicalRoot <+: target → first ∉ protectedNames)
            ∧ target = checkout ∧ ∀ between, Between canonicalRoot.dropLast target between → Passable fs w between := by
        conv_rhs => rw [and_left_comm]
        refine and_congr_right ?_
        rintro rfl
        rw [confined_and_inspectable_iff hroot, and_iff_right hplace]
      rw [hdone, ← hwalk]
      by_cases hwithin : canonicalRoot <+: target
      . rw [if_pos hwithin]
        cases (target.drop canonicalRoot.length).head? with
        | none => simp
        | some first =>
          by_cases hprotected : first ∈ protectedNames
          . simp [hprotected, hwithin, bind, Except.bind]
          . simp [hprotected]
      . rw [if_neg hwithin]
        simp [hwithin]

end Inspection

section BelowFile

/--
A tree of files: what there is at a path.
-/
abbrev FileTree := AbsolutePath → Option FileType

/--
What there is not can be looked for in directories only.
-/
def FileTree.symlinkMetadata (tree : FileTree) (path : AbsolutePath) : Except IoError FileType :=
  match tree path with
  | some fileType => .ok fileType
  | none =>
    if path.inits.any fun above => tree above = some .file then
      .error ⟨.other, "Not a directory (os error 20)"⟩
    else
      .error ⟨.notFound, "No such file or directory (os error 2)"⟩

/--
The file system of a tree of files without symbolic links.
-/
def treeSystem : FileSystem FileTree where
  canonicalize _ path := .ok ((Text.splitOn '/' path).filter (· ≠ ""))
  symlinkMetadata := FileTree.symlinkMetadata
  pathExists tree path := (tree path).isSome
  isFile tree path := tree ((Text.splitOn '/' path).filter (· ≠ "")) = some .file
  createDirAll path tree := (.ok (), fun other => if other <+: path then some .dir else tree other)
  removeDirAll path tree := (.ok (), fun other => if path <+: other then none else tree other)
  removeFile path tree := (.ok (), fun other => if other = path then none else tree other)

/--
A server at `/srv/lqxp` beside a regular file `/srv/pkg`.
-/
def pkgTree : FileTree
  | [] | ["srv"] | ["srv", "lqxp"] => some .dir
  | ["srv", "pkg"] => some .file
  | _ => none

theorem pkgTree_ne_symlink {path : AbsolutePath} : pkgTree path ≠ some .symlink := by
  unfold pkgTree
  split
  all_goals simp

theorem FileTree.symlinkMetadata_of_some {tree : FileTree} {path : AbsolutePath} {fileType : FileType}
    (h : tree path = some fileType)
    : tree.symlinkMetadata path = .ok fileType := by
  rw [FileTree.symlinkMetadata, h]

theorem FileTree.symlinkMetadata_ne_symlink {tree : FileTree} {path : AbsolutePath} (h : tree path ≠ some .symlink)
    : tree.symlinkMetadata path ≠ .ok .symlink := by
  cases hpath : tree path with
  | some fileType =>
    rw [symlinkMetadata_of_some hpath]
    rintro ⟨⟩
    exact h hpath
  | none =>
    rw [FileTree.symlinkMetadata, hpath]
    dsimp only
    split
    . simp
    . simp

/--
What there is not below a regular file is not reported as not found, and the checkout cannot be there.
-/
theorem not_returned_below_file
    : Leads (components "../pkg/web") ["srv", "lqxp"] ["srv", "pkg", "web"]
      ∧ Confined treeSystem pkgTree ["srv", "lqxp"] ["srv", "pkg", "web"]
      ∧ (∀ path, pkgTree path ≠ none → ∃ fileType, treeSystem.symlinkMetadata pkgTree path = .ok fileType)
      ∧ pkgTree ["srv", "pkg", "web"] = none
      ∧ treeSystem.canonicalize pkgTree "/srv/lqxp" = .ok ["srv", "lqxp"]
      ∧ ({ repo := "", directory := "../pkg/web", fresh := true } : WebConfig).checkoutPath treeSystem pkgTree "/srv/lqxp"
        = .error ⟨"cannot inspect web path /srv/pkg/web: Not a directory (os error 20)"⟩ := by
  refine ⟨?_, ⟨by decide, by decide, by decide, ?_, fun _ _ => FileTree.symlinkMetadata_ne_symlink pkgTree_ne_symlink⟩, ?_, rfl, by decide +kernel,
    by decide +kernel⟩
  . exact resolveComponents_eq_ok_iff.1 (by decide +kernel)
  . intro first rest heq
    simp at heq
  . intro path hpath
    obtain ⟨fileType, heq⟩ := Option.ne_none_iff_exists'.1 hpath
    exact ⟨fileType, FileTree.symlinkMetadata_of_some heq⟩

end BelowFile

end Lqxp
