import Mathlib.Data.List.Basic
import SuiteMigration.Output.ModulePath
import SuiteMigration.Proofs.FileSystem.Moves

/-!
# Where a module specifier leads

A directory is walked component by component. A specifier that is walked from the directory of the
importing file arrives where the path of the module does, as long as the way out of that directory
is known: a `..` on it would have to be undone by a name that the path does not tell.
-/
namespace SuiteMigration

namespace Path

/-- Takes one step at the end of a trail, whose last component stands in front. -/
def walk : List Component → Component → List Component
  | _, .root => [.root]
  | trail, .current => trail
  | .normal _ :: trail, .parent => trail
  | .root :: trail, .parent => .root :: trail
  | trail, .parent => .parent :: trail
  | trail, .normal name => .normal name :: trail

/-- The trail of a path: no names that a `..` takes back, and none for the current directory. -/
def trail (path : Path) : List Component :=
  path.components.foldl walk []

/-- The components that are left when every `..` has taken back the name in front of it. -/
def normalized (path : Path) : List Component :=
  path.trail.reverse

/-- Where a relative specifier leads from a directory, piece by piece. -/
def resolve (start : Path) (specifier : String) : List Component :=
  ((pieceComponents specifier.toList).foldl walk start.trail).reverse

/-- The components without those for the current directory. -/
def steps (path : Path) : List Component :=
  path.components.filter (· ≠ .current)

/-- Two lists go together as far as `shared` and part there. -/
structure Fork (lefts rights shared left right : List Component) : Prop where
  lefts_eq : lefts = shared ++ left
  rights_eq : rights = shared ++ right
  apart : ∀ step ∈ left.head?, step ∉ right.head?

section Components

private theorem text_of_ofPiece? {piece : List Char} {step : Component}
    (stands_for : Component.ofPiece? piece = some step) : step.text.toList = piece := by
  unfold Component.ofPiece? at stands_for
  split_ifs at stands_for with stays up
  · obtain rfl := Option.some.inj stands_for
    exact up.symm
  · obtain rfl := Option.some.inj stands_for
    exact String.toList_ofList

theorem ofPiece?_text {text : List Char} {step : Component}
    (member : step ∈ pieceComponents text) :
    Component.ofPiece? step.text.toList = some step := by
  obtain ⟨piece, -, stands_for⟩ := List.mem_filterMap.mp member
  rwa [text_of_ofPiece? stands_for]

private theorem root_notMem_pieceComponents (text : List Char) : .root ∉ pieceComponents text := by
  intro member
  have stands_for := ofPiece?_text member
  simp [Component.text, Component.ofPiece?] at stands_for

private theorem current_notMem_pieceComponents (text : List Char) :
    .current ∉ pieceComponents text := by
  intro member
  have stands_for := ofPiece?_text member
  simp [Component.text, Component.ofPiece?] at stands_for

theorem steps_eq (path : Path) :
    path.steps = (if path.isAbsolute then [.root] else []) ++ pieceComponents path.text.toList := by
  have kept : (pieceComponents path.text.toList).filter (· ≠ .current)
      = pieceComponents path.text.toList := by
    refine List.filter_eq_self.mpr fun step member => ?_
    simpa using fun is_current : step = .current =>
      current_notMem_pieceComponents _ (is_current ▸ member)
  unfold steps components
  rw [List.filter_append, ← pieceComponents, kept]
  congr 1
  split_ifs <;> rfl

theorem root_mem_steps {path : Path} : .root ∈ path.steps ↔ path.isAbsolute = true := by
  rw [steps_eq]
  split_ifs with absolute
  · simp [absolute]
  · simpa [absolute] using root_notMem_pieceComponents path.text.toList

private theorem steps_of_isAbsolute {path : Path} (absolute : path.isAbsolute = true) :
    path.steps = .root :: pieceComponents path.text.toList := by
  simp [steps_eq, absolute]

private theorem steps_behind_slash (front rest : List Char) :
    (Path.mk (String.ofList (front ++ '/' :: rest))).steps
      = (Path.mk (String.ofList (front ++ ['/']))).steps ++ pieceComponents rest := by
  have empty_piece : pieceComponents [] = [] := rfl
  simp only [steps_eq, isAbsolute, String.toList_ofList, List.head?_append, List.head?_cons,
    pieceComponents, Text.splitAt_append_mark, List.filterMap_append] at empty_piece ⊢
  rw [empty_piece, List.append_nil, List.append_assoc]

private theorem steps_before_slash {front : List Char} (nonempty : front ≠ []) :
    (Path.mk (String.ofList (front ++ ['/']))).steps = (Path.mk (String.ofList front)).steps := by
  have empty_piece : pieceComponents [] = [] := rfl
  simp only [steps_eq, isAbsolute, String.toList_ofList, pieceComponents,
    Text.splitAt_append_mark, List.filterMap_append] at empty_piece ⊢
  rw [empty_piece, List.append_nil, List.head?_append_of_ne_nil _ nonempty]

/-- A relative path goes on where the base ends. -/
theorem steps_join (base : Path) {path : Path} (relative : path.isAbsolute = false) :
    (base.join path).steps = base.steps ++ path.steps := by
  have path_steps : path.steps = pieceComponents path.text.toList := by
    simp [steps_eq, relative]
  unfold join
  split
  · next takes_over =>
    have empty : base.text = "" := by simpa [relative] using takes_over
    have no_steps : base.steps = [] := by
      rw [steps_eq, isAbsolute, empty]
      rfl
    rw [no_steps, List.nil_append]
  · next goes_on =>
    have nonempty : base.text.toList ≠ [] := by simpa [relative] using goes_on
    -- A slash is put between the two unless the base ends with one.
    split
    · next slash =>
      obtain ⟨front, base_eq⟩ := List.getLast?_eq_some_iff.mp slash
      have base_text : base.text = String.ofList (front ++ ['/']) := by
        rw [← base_eq, String.ofList_toList]
      have text_eq : base.text ++ path.text
          = String.ofList (front ++ '/' :: path.text.toList) := by
        rw [← String.toList_inj]
        simp [base_eq]
      rw [text_eq, steps_behind_slash, path_steps, ← base_text]
    · have text_eq : base.text ++ "/" ++ path.text
          = String.ofList (base.text.toList ++ '/' :: path.text.toList) := by
        rw [← String.toList_inj]
        simp
      rw [text_eq, steps_behind_slash, steps_before_slash nonempty, path_steps,
        String.ofList_toList]

private theorem isAbsolute_join_relative (base : Path) {path : Path}
    (relative : path.isAbsolute = false) :
    (base.join path).isAbsolute = base.isAbsolute := by
  rw [Bool.eq_iff_iff, ← root_mem_steps, ← root_mem_steps, steps_join base relative,
    List.mem_append, @root_mem_steps path, relative]
  simp

end Components

section Walking

private theorem foldl_walk_steps (path : Path) (start : List Component) :
    path.steps.foldl walk start = path.components.foldl walk start := by
  rw [steps, List.foldl_filter]
  congr 1
  funext trail step
  by_cases is_current : step = .current
  · subst is_current
    cases trail <;> rfl
  · simp [is_current]

theorem trail_eq (path : Path) : path.trail = path.steps.foldl walk [] :=
  (foldl_walk_steps path []).symm

/-- As many steps up as there were names lead back to where they started. -/
theorem foldl_walk_back {names : List Component}
    (only_names : ∀ step ∈ names, ∃ name, step = .normal name) (start : List Component) :
    (List.replicate names.length .parent).foldl walk (names.foldl walk start) = start := by
  -- The last step up takes back the first name, the others take back those behind it.
  induction names generalizing start with
  | nil => rfl
  | cons step names ih =>
    obtain ⟨⟨name, rfl⟩, others⟩ := List.forall_mem_cons.mp only_names
    have one_step : walk start (.normal name) = .normal name :: start := by cases start <;> rfl
    simp only [List.length_cons, List.replicate_succ', List.foldl_append, List.foldl_cons,
      List.foldl_nil, ih others, one_step]
    rfl

end Walking

section Forks

variable {lefts rights shared left right : List Component}

private theorem exists_fork (lefts rights : List Component) :
    ∃ shared left right, Fork lefts rights shared left right := by
  induction lefts generalizing rights with
  | nil => exact ⟨[], [], rights, rfl, rfl, by simp⟩
  | cons step lefts ih =>
    cases rights with
    | nil => exact ⟨[], step :: lefts, [], rfl, rfl, by simp⟩
    | cons other rights =>
      by_cases same : step = other
      · subst same
        obtain ⟨shared, left, right, fork⟩ := ih rights
        exact ⟨step :: shared, left, right, by rw [fork.lefts_eq]; rfl, by rw [fork.rights_eq]; rfl,
          fork.apart⟩
      · exact ⟨[], step :: lefts, other :: rights, rfl, rfl, by simpa using Ne.symm same⟩

theorem Fork.behind (fork : Fork lefts rights shared left right) (base : List Component) :
    Fork (base ++ lefts) (base ++ rights) (base ++ shared) left right where
  lefts_eq := by rw [fork.lefts_eq, List.append_assoc]
  rights_eq := by rw [fork.rights_eq, List.append_assoc]
  apart := fork.apart

theorem Fork.commonLength_eq (fork : Fork lefts rights shared left right) :
    Output.commonLength lefts rights = shared.length := by
  obtain ⟨rfl, rfl, apart⟩ := fork
  induction shared with
  | nil =>
    -- The lists part at once: one of them is used up, or their first steps differ.
    cases left with
    | nil => simp [Output.commonLength]
    | cons step left =>
      cases right with
      | nil => simp [Output.commonLength]
      | cons other right =>
        have differs : step ≠ other := by simpa [eq_comm] using apart
        simp [Output.commonLength, differs]
  | cons step shared ih => simp [Output.commonLength, ih]

theorem Fork.symm (fork : Fork lefts rights shared left right) :
    Fork rights lefts shared right left where
  lefts_eq := fork.rights_eq
  rights_eq := fork.lefts_eq
  apart := fun step first same => fork.apart step same first

variable {source target : Path}

/-- Two absolute paths share the root, and relative ones have none. -/
theorem Fork.root_notMem (fork : Fork source.steps target.steps shared left right)
    (same_kind : source.isAbsolute = target.isAbsolute) : .root ∉ left := by
  intro member
  obtain ⟨lefts_eq, rights_eq, apart⟩ := fork
  have in_source : .root ∈ source.steps := lefts_eq ▸ List.mem_append_right _ member
  have absolute := root_mem_steps.mp in_source
  rw [steps_of_isAbsolute absolute] at lefts_eq
  rw [steps_of_isAbsolute (same_kind ▸ absolute)] at rights_eq
  -- Both lists begin with the root, so they do not part before it.
  cases shared with
  | nil =>
    subst lefts_eq rights_eq
    simp at apart
  | cons first shared =>
    obtain ⟨-, pieces_eq⟩ := List.cons_eq_cons.mp lefts_eq
    refine root_notMem_pieceComponents source.text.toList ?_
    rw [pieces_eq]
    exact List.mem_append_right _ member

/-- Without a way up, only names are left of the directory that is walked out of. -/
theorem Fork.only_names (fork : Fork source.steps target.steps shared left right)
    (same_kind : source.isAbsolute = target.isAbsolute) (no_parent : .parent ∉ left) :
    ∀ step ∈ left, ∃ name, step = .normal name := by
  intro step member
  cases step with
  | normal name => exact ⟨name, rfl⟩
  | parent => exact absurd member no_parent
  | root => exact absurd member (fork.root_notMem same_kind)
  | current =>
    have in_steps : .current ∈ source.steps := by
      rw [fork.lefts_eq]
      exact List.mem_append_right _ member
    simp [steps] at in_steps

theorem Fork.mem_pieceComponents (fork : Fork source.steps target.steps shared left right)
    (same_kind : source.isAbsolute = target.isAbsolute) :
    ∀ step ∈ right, step ∈ pieceComponents target.text.toList := by
  intro step member
  have in_steps : step ∈ target.steps := by
    rw [fork.rights_eq]
    exact List.mem_append_right _ member
  have not_root : step ≠ .root := by
    rintro rfl
    exact fork.symm.root_notMem same_kind.symm member
  rw [steps_eq] at in_steps
  refine (List.mem_append.mp in_steps).resolve_left fun first => ?_
  split_ifs at first
  · exact not_root (List.mem_singleton.mp first)
  · simp at first

end Forks

end Path

namespace Output

open SuiteMigration.Path

variable {module : String} {source target : Path} {shared left right : List Component}

theorem moduleSegments_of_fork (fork : Fork source.steps target.steps shared left right) :
    moduleSegments source target module
      = List.replicate left.length ".." ++ right.map Component.text ++ [module] := by
  unfold moduleSegments
  simp only [← Path.steps.eq_def, fork.commonLength_eq]
  rw [fork.lefts_eq, fork.rights_eq, List.drop_left, List.length_append, Nat.add_sub_cancel_left]

private theorem slash_notMem_moduleSegments
    (fork : Fork source.steps target.steps shared left right)
    (same_kind : source.isAbsolute = target.isAbsolute) (plain : '/' ∉ module.toList) :
    ∀ segment ∈ moduleSegments source target module, '/' ∉ segment.toList := by
  intro segment member
  rw [moduleSegments_of_fork fork, List.mem_append, List.mem_append, List.mem_replicate,
    List.mem_map, List.mem_singleton] at member
  rcases member with (⟨-, rfl⟩ | ⟨step, in_right, rfl⟩) | rfl
  · decide
  · obtain ⟨piece, in_split, stands_for⟩ :=
      List.mem_filterMap.mp (fork.mem_pieceComponents same_kind step in_right)
    rw [text_of_ofPiece? stands_for]
    exact (Text.chars_of_mem_splitAt in_split).1
  · exact plain

/-- The dot in front of a specifier that does not begin with a step up leads nowhere. -/
theorem pieceComponents_modulePath (source target : Path) (module : String) :
    pieceComponents (modulePath source target module).toList
      = pieceComponents ("/".intercalate (moduleSegments source target module)).toList := by
  unfold modulePath
  dsimp only
  split
  · rfl
  · have dot_slash (text : String) : ("./" ++ text).toList = ['.'] ++ '/' :: text.toList := by simp
    have dot_stays : (Text.splitAt '/' ['.']).filterMap Component.ofPiece? = [] := rfl
    rw [dot_slash, pieceComponents, Text.splitAt_append_mark, List.filterMap_append, dot_stays,
      List.nil_append, ← pieceComponents]

/-- The pieces of a specifier are the steps out of the one directory and into the other. -/
theorem pieceComponents_of_fork (fork : Fork source.steps target.steps shared left right)
    (same_kind : source.isAbsolute = target.isAbsolute) (plain : '/' ∉ module.toList) :
    pieceComponents (modulePath source target module).toList
      = List.replicate left.length .parent ++ right ++ pieceComponents module.toList := by
  have whole := slash_notMem_moduleSegments fork same_kind plain
  have rights_back : (right.map Component.text).filterMap (Component.ofPiece? ·.toList) = right := by
    rw [List.filterMap_map]
    conv_rhs => rw [← List.filterMap_some (l := right)]
    exact List.filterMap_congr fun step member =>
      ofPiece?_text (fork.mem_pieceComponents same_kind step member)
  have module_back : [module].filterMap (Component.ofPiece? ·.toList)
      = pieceComponents module.toList := by
    rw [pieceComponents, Text.splitAt_of_notMem plain]
    rfl
  have up : Component.ofPiece? "..".toList = some .parent := by decide
  have slash : "/".toList = ['/'] := rfl
  rw [pieceComponents_modulePath, pieceComponents, String.toList_intercalate, slash,
    Text.splitAt_intercalate_of_notMem (by simp [moduleSegments_of_fork fork])
      (List.forall_mem_map.mpr whole),
    List.filterMap_map, moduleSegments_of_fork fork, List.filterMap_append, List.filterMap_append]
  exact congrArg₂ _ (congrArg₂ _ (List.filterMap_replicate_of_some up) rights_back) module_back

/-- Out of the one directory, into the other, and on to the module. -/
theorem resolve_modulePath (fork : Fork source.steps target.steps shared left right)
    (same_kind : source.isAbsolute = target.isAbsolute) (no_parent : .parent ∉ left)
    (plain : '/' ∉ module.toList) :
    source.resolve (modulePath source target module) = (target.join ⟨module⟩).normalized := by
  have relative := not_isAbsolute_name plain
  have module_steps : (Path.mk module).steps = pieceComponents module.toList := by
    simp [steps_eq, relative]
  -- The steps up take back what is left of the source, and from there both ways are the same.
  have back := foldl_walk_back (fork.only_names same_kind no_parent)
  rw [resolve, normalized, pieceComponents_of_fork fork same_kind plain, trail_eq, trail_eq,
    steps_join _ relative, module_steps, fork.lefts_eq, fork.rights_eq]
  simp only [List.foldl_append, back]

/-- A specifier that is resolved from the directory of the importing file leads to the module. The
directories may be equal, inside each other or apart; where the way out of the first one holds no
`..`, the name to come back by is known. That is so for directories under one base. -/
theorem modulePath_leads_to_module (plain : '/' ∉ module.toList) :
    (∀ (source target : Path) (shared left right : List Component),
      source.isAbsolute = target.isAbsolute →
      Fork source.steps target.steps shared left right → .parent ∉ left →
      source.resolve (modulePath source target module) = (target.join ⟨module⟩).normalized) ∧
    ∀ base tests pages : Path, tests.isAbsolute = false → pages.isAbsolute = false →
      .parent ∉ tests.components → .parent ∉ pages.components →
      (base.join tests).resolve (modulePath (base.join tests) (base.join pages) module)
        = ((base.join pages).join ⟨module⟩).normalized := by
  refine ⟨fun source target shared left right same_kind fork no_parent =>
    resolve_modulePath fork same_kind no_parent plain, ?_⟩
  intro base tests pages tests_relative pages_relative no_parent _
  obtain ⟨shared, left, right, fork⟩ := exists_fork tests.steps pages.steps
  have joined : Fork (base.join tests).steps (base.join pages).steps
      (base.steps ++ shared) left right := by
    rw [steps_join base tests_relative, steps_join base pages_relative]
    exact fork.behind base.steps
  refine resolve_modulePath joined ?_ (fun member => no_parent ?_) plain
  · rw [isAbsolute_join_relative base tests_relative, isAbsolute_join_relative base pages_relative]
  · have in_steps : .parent ∈ tests.steps := by
      rw [fork.lefts_eq]
      exact List.mem_append_right _ member
    exact (List.mem_filter.mp in_steps).1

/-- A specifier between two directories under a base that lies outside, and one between directories
whose longest common part is written differently. -/
theorem login_page_leads_to_module :
    '/' ∉ "LoginPage".toList ∧
    (Path.join ⟨"../out/"⟩ ⟨"e2e/tests"⟩).resolve "../../pages/LoginPage"
      = ((Path.join ⟨"../out/"⟩ ⟨"pages"⟩).join ⟨"LoginPage"⟩).normalized ∧
    (Path.mk "./a/b").resolve "../c/LoginPage"
      = ((Path.mk "a//c").join ⟨"LoginPage"⟩).normalized := by
  have plain : '/' ∉ "LoginPage".toList := by decide
  obtain ⟨between, under_base⟩ := modulePath_leads_to_module plain
  refine ⟨plain, ?_, ?_⟩
  · exact under_base ⟨"../out/"⟩ ⟨"e2e/tests"⟩ ⟨"pages"⟩ rfl rfl (by decide) (by decide)
  · exact between ⟨"./a/b"⟩ ⟨"a//c"⟩ [.normal "a"] [.normal "b"] [.normal "c"] rfl
      ⟨by decide, by decide, by decide⟩ (by decide)

end Output

end SuiteMigration
