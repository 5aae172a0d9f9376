import Mathlib.Data.List.Forall2
import Mathlib.Data.List.Nodup
import SuiteMigration.Proofs.FileSystem.Way

/-!
# Walking through a tree

A walk goes into the directories as it comes to them. Whatever is seen of a tree and in whatever order,
a walk that comes to its end has found the ways to all that is no directory, each once. It does not come
to its end if it gets to a directory of which the names cannot all be told.
-/
namespace SuiteMigration

/-- Does a way come first, or are the two the same? The first names that differ decide. -/
def FileSystem.wayBefore : Location → Location → Bool
  | [], _ => true
  | _ :: _, [] => false
  | left :: lefts, right :: rights => if left = right then wayBefore lefts rights else left < right

theorem FileSystem.wayBefore_antisymm {left right : Location} (before : wayBefore left right = true)
    (after : wayBefore right left = true) : left = right := by
  induction left generalizing right with
  | nil =>
    cases right with
    | nil => rfl
    | cons => simp [wayBefore] at after
  | cons first lefts ih =>
    cases right with
    | nil => simp [wayBefore] at before
    | cons second rights =>
      unfold wayBefore at before after
      split at before
      · next same =>
        subst same
        rw [if_pos rfl] at after
        rw [ih before after]
      · next different =>
        rw [if_neg (Ne.symm different)] at after
        exact absurd (of_decide_eq_true after) (String.lt_asymm (of_decide_eq_true before))

namespace View

open FileSystem

/-- What a system keeps to: only a path that is not too long can lead to a directory, and the names in
a directory are names of entries and differ. -/
structure Lawful (view : View) : Prop where
  short : ∀ {path}, view.isDirectory path = true → path.text.utf8ByteSize ≤ pathLimit
  named : ∀ {directory name}, .ok name ∈ view.entries directory → isEntryName name = true
  distinct : ∀ directory, (view.entries directory).Pairwise fun first second =>
    ∀ name, first = .ok name → second ≠ .ok name

/-- The ways from a directory to the directories that a walk gets to. -/
inductive Visits (view : View) : Path → Location → Prop where
  | here {directory : Path} : Visits view directory []
  | inside {directory : Path} {name : String} {way : Location}
      (listed : .ok name ∈ view.entries directory)
      (is_directory : view.isDirectory (directory.join ⟨name⟩) = true)
      (visits : Visits view (directory.join ⟨name⟩) way) : Visits view directory (name :: way)

/-- The ways from a directory to what lies below it and is no directory. -/
inductive Finds (view : View) : Path → Location → Prop where
  | entry {directory : Path} {name : String} (listed : .ok name ∈ view.entries directory)
      (no_directory : view.isDirectory (directory.join ⟨name⟩) = false) : Finds view directory [name]
  | inside {directory : Path} {name : String} {way : Location}
      (listed : .ok name ∈ view.entries directory)
      (is_directory : view.isDirectory (directory.join ⟨name⟩) = true)
      (finds : Finds view (directory.join ⟨name⟩) way) : Finds view directory (name :: way)

/-- A walk gets to a directory on this way, and telling the names in it fails. -/
def Fails (view : View) (directory : Path) (way : Location) (fault : Fault) : Prop :=
  view.Visits directory way ∧ .error fault ∈ view.entries (joinWay directory way)

/-- All that is below a directory and no directory, found on different ways and without a failure. -/
structure Covers (view : View) (directory : Path) (paths : List Path) : Prop where
  ways : ∃ ways : List Location, ways.Nodup ∧ paths = ways.map (joinWay directory) ∧
    ∀ way, way ∈ ways ↔ view.Finds directory way
  readable : ∀ way fault, ¬view.Fails directory way fault

variable {view : View} {fuel : Nat} {directory : Path} {name : String} {way rest : Location}
  {fault : Fault} {failure : Failure} {entry : Except Fault String}
  {entries : List (Except Fault String)} {paths : List Path} {found : List (List Path)}

section Steps

/-- What is found on the ways that go on behind a name. -/
def FindsBehind (view : View) (directory : Path) (name : String) (rest : Location) : Prop :=
  (view.isDirectory (directory.join ⟨name⟩) = true ∧ view.Finds (directory.join ⟨name⟩) rest) ∨
  (view.isDirectory (directory.join ⟨name⟩) = false ∧ rest = [])

theorem finds_iff : view.Finds directory way ↔ ∃ name rest, way = name :: rest ∧
    .ok name ∈ view.entries directory ∧ view.FindsBehind directory name rest := by
  constructor
  · rintro (⟨listed, no_directory⟩ | ⟨listed, is_directory, finds⟩)
    · exact ⟨_, [], rfl, listed, .inr ⟨no_directory, rfl⟩⟩
    · exact ⟨_, _, rfl, listed, .inl ⟨is_directory, finds⟩⟩
  · rintro ⟨name, rest, rfl, listed, ⟨is_directory, finds⟩ | ⟨no_directory, rfl⟩⟩
    · exact .inside listed is_directory finds
    · exact .entry listed no_directory

theorem fails_nil : view.Fails directory [] fault ↔ .error fault ∈ view.entries directory :=
  and_iff_right .here

theorem fails_cons : view.Fails directory (name :: rest) fault ↔ .ok name ∈ view.entries directory ∧
    view.isDirectory (directory.join ⟨name⟩) = true ∧
      view.Fails (directory.join ⟨name⟩) rest fault := by
  constructor
  · rintro ⟨⟨⟩ | ⟨listed, is_directory, visits⟩, failing⟩
    exact ⟨listed, is_directory, visits, failing⟩
  · rintro ⟨listed, is_directory, visits, failing⟩
    exact ⟨.inside listed is_directory visits, failing⟩

/-- What a walk does with one entry of a directory. -/
def visit (view : View) (fuel : Nat) (directory : Path) :
    Except Fault String → Except Failure (List Path)
  | .error fault => .error (.read directory fault)
  | .ok name =>
    if view.isDirectory (directory.join ⟨name⟩) then view.walk fuel (directory.join ⟨name⟩)
    else .ok [directory.join ⟨name⟩]

private theorem walk_succ (view : View) (fuel : Nat) (directory : Path) :
    view.walk (fuel + 1) directory
    = ((view.entries directory).mapM (view.visit fuel directory)).map List.flatten := by
  have visit_eq (entry : Except Fault String) : view.visit fuel directory entry = (do
      let path ← (entry.map fun name => directory.join ⟨name⟩).mapError (.read directory)
      if view.isDirectory path then view.walk fuel path else return [path]) := by
    cases entry <;> rfl
  rw [walk, View.paths, List.mapM_map, funext visit_eq]
  exact bind_pure_comp _ _

/-- The parts of a list that all come out well. -/
private theorem mapM_eq_ok {α β ε : Type} {f : α → Except ε β} {list : List α} {results : List β} :
    list.mapM f = .ok results ↔ List.Forall₂ (fun item result => f item = .ok result) list results := by
  induction list generalizing results with
  | nil =>
    rw [List.mapM_nil, List.forall₂_nil_left_iff]
    exact ⟨fun same => (Except.ok.inj same).symm, fun same => same ▸ rfl⟩
  | cons item list ih =>
    rw [List.mapM_cons, bind_eq_ok, List.forall₂_cons_left_iff]
    refine exists_congr fun result => ?_
    constructor
    · rintro ⟨item_eq, list_eq⟩
      obtain ⟨others, others_eq, results_eq⟩ := bind_eq_ok.mp list_eq
      exact ⟨others, item_eq, ih.mp others_eq, (Except.ok.inj results_eq).symm⟩
    · rintro ⟨others, item_eq, others_eq, rfl⟩
      exact ⟨item_eq, bind_eq_ok.mpr ⟨others, ih.mpr others_eq, rfl⟩⟩

theorem exists_of_mapM_eq_ok {α β ε : Type} {f : α → Except ε β} {list : List α} {results : List β}
    {item : α} (all_ok : list.mapM f = .ok results) (member : item ∈ list) :
    ∃ result, f item = .ok result := by
  have each := (mapM_eq_ok.mp all_ok).imp fun item result item_eq =>
    (⟨⟨result, item_eq⟩, item_eq⟩ : (∃ result, f item = .ok result) ∧ f item = .ok result)
  exact ((List.forall₂_and_left _ _).mp each).1 item member

/-- The first part of a list that fails. -/
private theorem mapM_eq_error {α β ε : Type} {f : α → Except ε β} {list : List α} {cause : ε}
    (failed : list.mapM f = .error cause) : ∃ front item back, list = front ++ item :: back ∧
      (∀ other ∈ front, ∃ result, f other = .ok result) ∧ f item = .error cause := by
  induction list with
  | nil => cases failed
  | cons item list ih =>
    rw [List.mapM_cons] at failed
    cases item_eq : f item with
    | error other =>
      rw [item_eq] at failed
      obtain rfl := Except.error.inj failed
      exact ⟨[], item, list, rfl, by simp, item_eq⟩
    | ok result =>
      rw [item_eq] at failed
      cases list_eq : list.mapM f with
      | ok results =>
        simp only [list_eq] at failed
        cases failed
      | error other =>
        simp only [list_eq] at failed
        obtain rfl := Except.error.inj failed
        obtain ⟨front, last, back, rfl, front_ok, last_eq⟩ := ih list_eq
        refine ⟨item :: front, last, back, rfl, fun earlier member => ?_, last_eq⟩
        rcases List.mem_cons.mp member with rfl | member
        · exact ⟨result, item_eq⟩
        · exact front_ok earlier member

private theorem walk_eq_ok : view.walk (fuel + 1) directory = .ok paths ↔
    ∃ found, List.Forall₂ (fun entry part => view.visit fuel directory entry = .ok part)
      (view.entries directory) found ∧ paths = found.flatten := by
  simp only [← mapM_eq_ok, walk_succ]
  cases (view.entries directory).mapM (view.visit fuel directory) with
  | error failure => simp [Except.map]
  | ok found => simp [Except.map, eq_comm]

private theorem walk_eq_error (failed : view.walk (fuel + 1) directory = .error failure) :
    ∃ front entry back, view.entries directory = front ++ entry :: back ∧
      (∀ other ∈ front, ∃ part, view.visit fuel directory other = .ok part) ∧
      view.visit fuel directory entry = .error failure := by
  rw [walk_succ] at failed
  apply mapM_eq_error
  cases results_eq : (view.entries directory).mapM (view.visit fuel directory) with
  | error other =>
    rw [results_eq] at failed
    rw [Except.error.inj failed]
  | ok found =>
    rw [results_eq] at failed
    cases failed

end Steps

section Covering

/-- What is found behind one name, if the walk inside it covers what is there. -/
theorem exists_ways_of_visit {part : List Path}
    (inside : view.isDirectory (directory.join ⟨name⟩) = true →
      ∀ paths, view.walk fuel (directory.join ⟨name⟩) = .ok paths →
        view.Covers (directory.join ⟨name⟩) paths)
    (visited : view.visit fuel directory (.ok name) = .ok part) :
    ∃ ways : List Location, ways.Nodup ∧ part = ways.map (fun way => joinWay directory (name :: way)) ∧
      ∀ way, way ∈ ways ↔ view.FindsBehind directory name way := by
  rw [visit] at visited
  unfold FindsBehind
  split at visited
  · next is_directory =>
    obtain ⟨ways, distinct, part_eq, mem_iff⟩ := (inside is_directory part visited).ways
    exact ⟨ways, distinct, part_eq, by simp [is_directory, mem_iff]⟩
  · next no_directory =>
    obtain rfl := Except.ok.inj visited
    exact ⟨[[]], List.nodup_singleton _, rfl, by simp [no_directory]⟩

/-- Entries with different names have no way in common, so all ways differ if those behind each name
do. -/
theorem exists_ways_of_entries
    (distinct : entries.Pairwise fun first second => ∀ name, first = .ok name → second ≠ .ok name)
    (inside : ∀ name, .ok name ∈ entries → view.isDirectory (directory.join ⟨name⟩) = true →
      ∀ paths, view.walk fuel (directory.join ⟨name⟩) = .ok paths →
        view.Covers (directory.join ⟨name⟩) paths)
    (visited : List.Forall₂ (fun entry part => view.visit fuel directory entry = .ok part) entries
      found) :
    ∃ ways : List Location, ways.Nodup ∧ found.flatten = ways.map (joinWay directory) ∧
      ∀ way, way ∈ ways ↔ ∃ name rest, way = name :: rest ∧ .ok name ∈ entries ∧
        view.FindsBehind directory name rest := by
  induction visited with
  | nil => exact ⟨[], List.nodup_nil, rfl, by simp⟩
  | @cons entry part entries found first_eq _ ih =>
    cases entry with
    | error fault => cases first_eq
    | ok name =>
      obtain ⟨others, others_distinct, found_eq, others_iff⟩ := ih distinct.of_cons
        fun other member => inside other (List.mem_cons_of_mem _ member)
      obtain ⟨ways, ways_distinct, rfl, ways_iff⟩ :=
        exists_ways_of_visit (inside name List.mem_cons_self) first_eq
      refine ⟨ways.map (name :: ·) ++ others, List.nodup_append.mpr ⟨?_, others_distinct, ?_⟩, ?_, ?_⟩
      · exact ways_distinct.map List.cons_injective
      · -- The ways through this entry begin with its name, and no other entry has that name.
        rintro _ in_ways _ in_others rfl
        obtain ⟨rest, -, rfl⟩ := List.mem_map.mp in_ways
        obtain ⟨other, _, same, member, -⟩ := (others_iff _).mp in_others
        obtain ⟨rfl, -⟩ := List.cons.inj same
        exact List.rel_of_pairwise_cons distinct member name rfl rfl
      · rw [List.flatten_cons, found_eq, List.map_append, List.map_map]
        rfl
      · intro way
        rw [List.mem_append, others_iff, List.mem_map]
        constructor
        · rintro (⟨rest, member, rfl⟩ | ⟨other, rest, rfl, member, behind⟩)
          · exact ⟨name, rest, rfl, List.mem_cons_self, (ways_iff rest).mp member⟩
          · exact ⟨other, rest, rfl, List.mem_cons_of_mem _ member, behind⟩
        · rintro ⟨other, rest, rfl, member, behind⟩
          rcases List.mem_cons.mp member with same | member
          · obtain rfl := Except.ok.inj same
            exact .inl ⟨rest, (ways_iff rest).mpr behind, rfl⟩
          · exact .inr ⟨other, rest, rfl, member, behind⟩

/-- A walk that comes to its end covers what is below its directory. Every level makes the path longer,
so the fuel is enough. -/
theorem covers_of_walk (lawful : view.Lawful) (is_directory : view.isDirectory directory = true)
    (enough : pathLimit < fuel + directory.text.utf8ByteSize)
    (walked : view.walk fuel directory = .ok paths) : view.Covers directory paths := by
  induction fuel generalizing directory paths with
  | zero =>
    have short := lawful.short is_directory
    omega
  | succ fuel ih =>
    obtain ⟨found, visited, rfl⟩ := walk_eq_ok.mp walked
    -- By induction a walk covers what is below each directory that it goes into.
    have inside (name : String) (listed : .ok name ∈ view.entries directory)
        (is_directory : view.isDirectory (directory.join ⟨name⟩) = true) (paths : List Path)
        (walked : view.walk fuel (directory.join ⟨name⟩) = .ok paths) :
        view.Covers (directory.join ⟨name⟩) paths := by
      have longer := Path.size_lt_join (lawful.named listed) directory
      exact ih is_directory (by omega) walked
    have visited_ok {entry : Except Fault String} (member : entry ∈ view.entries directory) :
        ∃ part, view.visit fuel directory entry = .ok part :=
      exists_of_mapM_eq_ok (mapM_eq_ok.mpr visited) member
    constructor
    · simpa only [finds_iff] using exists_ways_of_entries (lawful.distinct directory) inside visited
    · intro way fault fails
      cases way with
      | nil =>
        obtain ⟨_, part_eq⟩ := visited_ok (fails_nil.mp fails)
        cases part_eq
      | cons name rest =>
        obtain ⟨listed, is_directory, fails⟩ := fails_cons.mp fails
        obtain ⟨part, part_eq⟩ := visited_ok listed
        rw [visit, if_pos is_directory] at part_eq
        exact (inside name listed is_directory part part_eq).readable rest fault fails

/-- A walk fails where it gets to a directory of which not all names are told. -/
theorem fails_of_walk (failed : view.walk fuel directory = .error failure) :
    ∃ way fault, view.Fails directory way fault ∧ failure = .read (joinWay directory way) fault := by
  induction fuel generalizing directory with
  | zero => cases failed
  | succ fuel ih =>
    obtain ⟨front, entry, back, entries_eq, -, visited⟩ := walk_eq_error failed
    have listed : entry ∈ view.entries directory := by simp [entries_eq]
    cases entry with
    | error fault => exact ⟨[], fault, fails_nil.mpr listed, (Except.error.inj visited).symm⟩
    | ok name =>
      rw [visit] at visited
      split at visited
      · next is_directory =>
        obtain ⟨way, fault, fails, failure_eq⟩ := ih visited
        exact ⟨name :: way, fault, fails_cons.mpr ⟨listed, is_directory, fails⟩, failure_eq⟩
      · cases visited

/-- A walk comes to its end, or it fails where telling the names fails. -/
theorem walk_cases (lawful : view.Lawful) (is_directory : view.isDirectory directory = true) :
    (∃ paths, view.walk (pathLimit + 1) directory = .ok paths ∧ view.Covers directory paths) ∨
    ∃ way fault, view.Fails directory way fault ∧
      view.walk (pathLimit + 1) directory = .error (.read (joinWay directory way) fault) := by
  cases walked : view.walk (pathLimit + 1) directory with
  | ok paths => exact .inl ⟨paths, rfl, covers_of_walk lawful is_directory (by omega) walked⟩
  | error failure =>
    obtain ⟨way, fault, fails, rfl⟩ := fails_of_walk walked
    exact .inr ⟨way, fault, fails, rfl⟩

end Covering

section Ordered

/-- The names in a directory are told in ascending order, or none of them is told. -/
def Orderly (view : View) : Prop :=
  ∀ directory, (∃ fault, view.entries directory = [.error fault]) ∨
    ∃ names : List String, names.Pairwise (· < ·) ∧ view.entries directory = names.map .ok

/-- Where a name is told, all names are. -/
private theorem Orderly.error_notMem (orderly : view.Orderly)
    (listed : .ok name ∈ view.entries directory) : .error fault ∉ view.entries directory := by
  obtain ⟨cause, only⟩ | ⟨names, -, names_eq⟩ := orderly directory
  · rw [only] at listed
    cases List.mem_singleton.mp listed
  · simp [names_eq]

private theorem Orderly.lt_of_behind (orderly : view.Orderly) {front back : List (Except Fault String)}
    (entries_eq : view.entries directory = front ++ .ok name :: back) {other : String}
    (behind : .ok other ∈ back) : name < other := by
  obtain ⟨cause, only⟩ | ⟨names, ascending, names_eq⟩ := orderly directory
  · have listed : .ok name ∈ view.entries directory := by simp [entries_eq]
    rw [only] at listed
    cases List.mem_singleton.mp listed
  · have sorted : (view.entries directory).Pairwise fun first second =>
        ∀ left right, first = .ok left → second = .ok right → left < right := by
      rw [names_eq]
      refine List.pairwise_map.mpr (ascending.imp fun before left right left_eq right_eq => ?_)
      rwa [← Except.ok.inj left_eq, ← Except.ok.inj right_eq]
    rw [entries_eq, List.pairwise_append] at sorted
    exact List.rel_of_pairwise_cons sorted.2.1 behind _ _ rfl rfl

/-- A walk in order fails at the first of the directories of which the names are not told. -/
theorem first_of_walk (lawful : view.Lawful) (orderly : view.Orderly)
    (is_directory : view.isDirectory directory = true)
    (enough : pathLimit < fuel + directory.text.utf8ByteSize)
    (failed : view.walk fuel directory = .error failure) :
    ∃ way fault, view.Fails directory way fault ∧ failure = .read (joinWay directory way) fault ∧
      ∀ other cause, view.Fails directory other cause → wayBefore way other = true := by
  induction fuel generalizing directory with
  | zero => cases failed
  | succ fuel ih =>
    obtain ⟨front, entry, back, entries_eq, front_ok, visited⟩ := walk_eq_error failed
    have listed : entry ∈ view.entries directory := by simp [entries_eq]
    -- Each name makes the path longer, so the fuel is enough for the level below.
    have enough_inside {name : String} (listed : .ok name ∈ view.entries directory) :
        pathLimit < fuel + (directory.join ⟨name⟩).text.utf8ByteSize := by
      have longer := Path.size_lt_join (lawful.named listed) directory
      omega
    cases entry with
    | error fault =>
      exact ⟨[], fault, fails_nil.mpr listed, (Except.error.inj visited).symm, fun _ _ _ => rfl⟩
    | ok name =>
      rw [visit] at visited
      split at visited
      · next is_directory =>
        obtain ⟨way, fault, fails, failure_eq, first⟩ := ih is_directory (enough_inside listed) visited
        refine ⟨name :: way, fault, fails_cons.mpr ⟨listed, is_directory, fails⟩, failure_eq, ?_⟩
        intro other cause other_fails
        cases other with
        | nil => exact absurd (fails_nil.mp other_fails) (orderly.error_notMem listed)
        | cons last rest =>
          -- What stands in front of the name has been walked through without a failure.
          obtain ⟨last_listed, last_directory, rest_fails⟩ := fails_cons.mp other_fails
          rw [wayBefore]
          split
          · next same =>
            subst same
            exact first rest cause rest_fails
          · next different =>
            rw [entries_eq, List.mem_append, List.mem_cons] at last_listed
            rcases last_listed with in_front | same | behind
            · obtain ⟨part, part_eq⟩ := front_ok _ in_front
              rw [visit, if_pos last_directory] at part_eq
              have told : .ok last ∈ view.entries directory := by simp [entries_eq, in_front]
              have covers := covers_of_walk lawful last_directory (enough_inside told) part_eq
              exact absurd rest_fails (covers.readable rest cause)
            · exact absurd (Except.ok.inj same).symm different
            · exact decide_eq_true (orderly.lt_of_behind entries_eq behind)
      · cases visited

theorem Fails.fault_eq {cause : Fault} (fails : view.Fails directory way fault)
    (orderly : view.Orderly) (also_fails : view.Fails directory way cause) : fault = cause := by
  obtain ⟨only, entries_eq⟩ | ⟨names, -, entries_eq⟩ := orderly (joinWay directory way)
  · have fault_mem := fails.2
    have cause_mem := also_fails.2
    simp only [entries_eq, List.mem_singleton, Except.error.injEq] at fault_mem cause_mem
    rw [fault_mem, cause_mem]
  · have fault_mem := fails.2
    simp [entries_eq] at fault_mem

end Ordered

end View

end SuiteMigration
