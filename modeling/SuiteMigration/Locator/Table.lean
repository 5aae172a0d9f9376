import SuiteMigration.Locator.Strategy

/-!
# Locator tables

The locators of a source file by name. The last declaration of a name counts, and every
redeclaration is on record.
-/
namespace SuiteMigration.Locator

inductive Shape where
  /-- A field with a `FindBy` annotation. -/
  | annotatedField
  /-- A variable of type `By`. -/
  | byVariable
  /-- A variable that holds the element found. -/
  | elementVariable
  deriving DecidableEq

structure Provenance where
  shape : Shape
  line : Nat
  deriving DecidableEq

structure Entry where
  name : String
  strategy : Strategy
  value : String
  selector : Selector
  provenance : Provenance
  deriving DecidableEq

structure Overwrite where
  name : String
  previous : Provenance
  current : Provenance
  deriving DecidableEq

/-- Entries have distinct names and stand in the order in which the names first came. -/
structure Table where
  entries : List Entry
  overwrites : List Overwrite

namespace Table

def empty : Table := ⟨[], []⟩

def find? (table : Table) (name : String) : Option Entry :=
  table.entries.find? (·.name == name)

def selector? (table : Table) (name : String) : Option Selector :=
  (table.find? name).map Entry.selector

def contains (table : Table) (name : String) : Bool :=
  (table.find? name).isSome

def size (table : Table) : Nat :=
  table.entries.length

/-- Every entry of the given name gives way to the new one. -/
def replaceNamed (entry : Entry) (entries : List Entry) : List Entry :=
  entries.map fun kept => if kept.name = entry.name then entry else kept

theorem find?_replaceNamed_self (entry : Entry) (entries : List Entry) :
    (replaceNamed entry entries).find? (·.name == entry.name)
      = (entries.find? (·.name == entry.name)).map fun _ => entry := by
  induction entries with
  | nil => rfl
  | cons first rest ih =>
    unfold replaceNamed at *
    by_cases same : first.name = entry.name <;> simp_all

theorem find?_replaceNamed_of_ne (entry : Entry) (entries : List Entry) {name : String}
    (other : entry.name ≠ name) :
    (replaceNamed entry entries).find? (·.name == name) = entries.find? (·.name == name) := by
  induction entries with
  | nil => rfl
  | cons first rest ih =>
    unfold replaceNamed at *
    by_cases same : first.name = entry.name <;> simp_all [List.find?_cons]

def insert (table : Table) (entry : Entry) : Table :=
  match table.find? entry.name with
  | none => { table with entries := table.entries ++ [entry] }
  | some old =>
    { entries := replaceNamed entry table.entries
      overwrites := table.overwrites ++ [⟨entry.name, old.provenance, entry.provenance⟩] }

/-- An insertion, with the entry that gave way to the new one. -/
def exchange (table : Table) (entry : Entry) : Table × Option Entry :=
  (table.insert entry, table.find? entry.name)

theorem find?_empty (name : String) : empty.find? name = none := rfl

theorem find?_insert_self (table : Table) (entry : Entry) :
    (table.insert entry).find? entry.name = some entry := by
  unfold insert
  split
  · next absent =>
    unfold find? at *
    simp [List.find?_append, absent]
  · next old found =>
    unfold find? at *
    simp [find?_replaceNamed_self, found]

theorem find?_insert_of_ne (table : Table) (entry : Entry) {name : String}
    (other : entry.name ≠ name) : (table.insert entry).find? name = table.find? name := by
  unfold insert
  split
  · unfold find?
    simp [List.find?_append, other]
  · exact find?_replaceNamed_of_ne entry table.entries other

/-- Entries are listed by line and, on one line, by name. -/
def comesBefore (left right : Entry) : Bool :=
  left.provenance.line < right.provenance.line
    || (left.provenance.line == right.provenance.line && left.name ≤ right.name)

def sortedEntries (table : Table) : List Entry :=
  table.entries.mergeSort comesBefore

end Table

end SuiteMigration.Locator
