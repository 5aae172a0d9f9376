/-!
# File trees

A tree is the list of its nodes by location, the names on the way from the root. The root is always
there and is a directory. A locked directory lets paths through, but its names cannot be read.
Setting and removing nodes is stated by what is found afterwards.
-/
namespace SuiteMigration

namespace FileSystem

/-- The names from the root down. -/
abbrev Location := List String

/-- What a file holds: text, or bytes that are none. -/
inductive Content where
  | text (text : String)
  | raw (bytes : List UInt8)
  deriving DecidableEq

def Content.ofBytes (bytes : List UInt8) : Content :=
  match String.fromUTF8? ⟨bytes.toArray⟩ with
  | some decoded => .text decoded
  | none => .raw bytes

inductive Node where
  | file (content : Content)
  | directory
  deriving DecidableEq

end FileSystem

open FileSystem in
structure FileSystem where
  nodes : List (Location × Node)
  /-- Where relative paths begin. -/
  working : Location
  /-- The directories of which the names cannot be read. -/
  locked : List Location := []

namespace FileSystem

/-- A tree with nothing but the directories down to the working directory. -/
def empty (working : Location) : FileSystem where
  nodes := (List.range working.length).map fun depth => (working.take (depth + 1), .directory)
  working := working

def node? (files : FileSystem) (location : Location) : Option Node :=
  if location = [] then some .directory else files.nodes.lookup location

def set (files : FileSystem) (location : Location) (node : Node) : FileSystem :=
  { files with nodes := files.nodes.filter (·.1 ≠ location) ++ [(location, node)] }

/-- Takes a node away with all that is below it. -/
def erase (files : FileSystem) (location : Location) : FileSystem :=
  { files with nodes := files.nodes.filter (!location.isPrefixOf ·.1) }

/-- The nodes below a location with the rest of their way, in no particular order. -/
def below (files : FileSystem) (location : Location) : List (Location × Node) :=
  files.nodes.filterMap fun (place, node) =>
    if location.isPrefixOf place && place.length > location.length then
      some (place.drop location.length, node)
    else none

private theorem lookup_filter (keep : Location → Bool) (nodes : List (Location × Node))
    (location : Location) :
    (nodes.filter (keep ·.1)).lookup location
      = if keep location then nodes.lookup location else none := by
  induction nodes with
  | nil => simp
  | cons first rest ih =>
    obtain ⟨place, node⟩ := first
    by_cases same : location = place
    · subst same
      cases kept : keep location with
      | true => simp [kept]
      | false => simpa [kept] using ih
    · have different : (location == place) = false := by simpa using same
      cases kept : keep place with
      | true => simp only [List.filter_cons, kept, ↓reduceIte, List.lookup_cons, different, ih]
      | false =>
        simp only [List.filter_cons, kept, Bool.false_eq_true, ↓reduceIte, List.lookup_cons,
          different, ih]

theorem node?_set_self (files : FileSystem) {location : Location} (node : Node)
    (not_root : location ≠ []) : (files.set location node).node? location = some node := by
  simp only [node?, set, not_root, ↓reduceIte, List.lookup_append]
  rw [lookup_filter (fun place => decide (place ≠ location))]
  simp

theorem node?_set_of_ne (files : FileSystem) {location other : Location} (node : Node)
    (different : other ≠ location) : (files.set location node).node? other = files.node? other := by
  unfold node?
  split
  · rfl
  · have other_ne : (other == location) = false := by simpa using different
    simp only [set, List.lookup_append]
    rw [lookup_filter (fun place => decide (place ≠ location))]
    simp [different, List.lookup_cons, other_ne]

end FileSystem

end SuiteMigration
