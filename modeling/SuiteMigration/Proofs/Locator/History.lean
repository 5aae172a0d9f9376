import Mathlib.Data.Finset.Card
import SuiteMigration.Proofs.Locator.LastEntry

/-!
# The history of a table

Entries are inserted into an empty table one after another. What the table finds, what the
insertions answer, what is on record and what is listed are four views of one history: under a name
the table has the last insertion, and the records under the name lead from each insertion to the
next.
-/
namespace SuiteMigration.Locator

/-- The insertions of a history under a name. -/
def under (name : String) (history : List Entry) : List Entry :=
  history.filter (·.name == name)

/-- Does an entry stand on an earlier line, or on the same line with a smaller name? -/
def Entry.Precedes (left right : Entry) : Prop :=
  left.provenance.line < right.provenance.line ∨
    left.provenance.line = right.provenance.line ∧ left.name < right.name

/-- The record of an insertion that replaced an entry. -/
def Overwrite.of (old entry : Entry) : Overwrite :=
  ⟨entry.name, old.provenance, entry.provenance⟩

namespace Table

/-- Inserts entries one after another; with each goes the entry that gave way to it. -/
def insertAll (table : Table) : List Entry → Table × List (Option Entry)
  | [] => (table, [])
  | entry :: rest =>
    let (next, replaced) := table.exchange entry
    let (final, others) := next.insertAll rest
    (final, replaced :: others)

/-- What a table and the answers of its insertions say about the history of the table. -/
structure Tells (table : Table) (answers : List (Option Entry)) (history : List Entry) : Prop where
  find? (name : String) : table.find? name = (under name history).getLast?
  selector? (name : String) :
    table.selector? name = (under name history).getLast?.map Entry.selector
  contains (name : String) : table.contains name = true ↔ ∃ entry ∈ history, entry.name = name
  size : table.size = (history.map Entry.name).toFinset.card
  /-- Every insertion is answered with the last one under its name before it. -/
  answered : answers.length = history.length ∧
    ∀ front entry back, history = front ++ entry :: back →
      answers[front.length]? = some (under entry.name front).getLast?
  /-- Every insertion that replaced an entry is on record, in their order. -/
  overwrites : table.overwrites
    = (history.zip answers).filterMap fun (entry, replaced) => replaced.map (.of · entry)
  /-- Every insertion has added a name or a record. -/
  overwrites_length : table.overwrites.length + table.size = history.length
  /-- The records under a name lead from each insertion to the next. -/
  chained (name : String) : table.overwrites.filter (·.name == name)
    = ((under name history).zip (under name history).tail).map fun (old, entry) => .of old entry
  /-- The list has the entry of every name, and it is the one in order whatever the order is in which
  the entries are kept. -/
  mem_sorted (entry : Entry) :
    entry ∈ table.sortedEntries ↔ table.find? entry.name = some entry
  once : table.sortedEntries.Nodup
  sorted : table.sortedEntries.Pairwise Entry.Precedes
  any_order (kept : List Entry) : kept.Perm table.entries →
    kept.mergeSort comesBefore = table.sortedEntries

section Insertion

variable (table : Table) (entry : Entry) (history : List Entry)

private theorem insertAll_fst : (table.insertAll history).1 = history.foldl insert table := by
  induction history generalizing table with
  | nil => rfl
  | cons entry rest ih => exact ih (table.insert entry)

theorem length_insertAll_snd : (table.insertAll history).2.length = history.length := by
  induction history generalizing table with
  | nil => rfl
  | cons entry rest ih => exact congrArg (· + 1) (ih (table.insert entry))

/-- Later insertions are made into the table of those before them. -/
theorem insertAll_append (front back : List Entry) : table.insertAll (front ++ back)
    = (((table.insertAll front).1.insertAll back).1,
      (table.insertAll front).2 ++ ((table.insertAll front).1.insertAll back).2) := by
  induction front generalizing table with
  | nil => rfl
  | cons first rest ih => simp only [List.cons_append, insertAll, exchange, ih (table.insert first)]

theorem overwrites_insert : (table.insert entry).overwrites
    = table.overwrites ++ ((table.find? entry.name).map (.of · entry)).toList := by
  unfold insert
  cases table.find? entry.name with
  | none => exact (List.append_nil _).symm
  | some old => rfl

private theorem names_replaceNamed (entries : List Entry) :
    (replaceNamed entry entries).map Entry.name = entries.map Entry.name := by
  rw [replaceNamed, List.map_map]
  refine List.map_congr_left fun kept _ => ?_
  by_cases same : kept.name = entry.name <;> simp [same]

theorem find?_eq_none {name : String} :
    table.find? name = none ↔ name ∉ table.entries.map Entry.name := by
  simp [find?]

/-- A new name is kept behind those that the table has. -/
theorem names_insert : (table.insert entry).entries.map Entry.name
    = table.entries.map Entry.name
      ++ if (table.find? entry.name).isSome then [] else [entry.name] := by
  unfold insert
  cases table.find? entry.name with
  | none => simp
  | some old => simp [names_replaceNamed]

private theorem size_insert : (table.insert entry).size
    = table.size + if (table.find? entry.name).isSome then 0 else 1 := by
  have length_eq := congrArg List.length (table.names_insert entry)
  rw [List.length_map, List.length_append, List.length_map] at length_eq
  rw [size, size, length_eq]
  split <;> rfl

end Insertion

section Run

variable (history : List Entry) (name : String)

/-- The table that a history leads to. -/
def ofHistory : Table :=
  (empty.insertAll history).1

theorem ofHistory_concat (entry : Entry) :
    ofHistory (history ++ [entry]) = (ofHistory history).insert entry := by
  rw [ofHistory, insertAll_append]
  rfl

private theorem under_concat (entry : Entry) : under name (history ++ [entry])
    = under name history ++ if entry.name = name then [entry] else [] := by
  rw [under, List.filter_append]
  by_cases same : entry.name = name <;> simp [under, same]

theorem find?_ofHistory : (ofHistory history).find? name = (under name history).getLast? := by
  rw [ofHistory, insertAll_fst, find?_foldl_insert, find?_empty, Option.or_none, under,
    List.getLast?_filter]

private theorem isSome_find?_ofHistory :
    ((ofHistory history).find? name).isSome = true ↔ ∃ entry ∈ history, entry.name = name := by
  rw [find?_ofHistory, under, List.getLast?_filter]
  simp

private theorem answers_ofHistory (front : List Entry) (entry : Entry) (back : List Entry) :
    (empty.insertAll (front ++ entry :: back)).2[front.length]?
      = some (under entry.name front).getLast? := by
  rw [insertAll_append, List.getElem?_append_right (by rw [length_insertAll_snd]),
    length_insertAll_snd, Nat.sub_self, ← find?_ofHistory]
  rfl

theorem names_ofHistory :
    ((ofHistory history).entries.map Entry.name).Nodup ∧
      ∀ name, name ∈ (ofHistory history).entries.map Entry.name ↔ name ∈ history.map Entry.name := by
  constructor
  · induction history using List.reverseRecOn with
    | nil => exact List.nodup_nil
    | append_singleton front entry ih =>
      rw [ofHistory_concat, names_insert]
      split
      · rwa [List.append_nil]
      · next absent =>
        have no_entry := Option.not_isSome_iff_eq_none.mp absent
        exact List.nodup_append.mpr ⟨ih, List.nodup_singleton _, fun name member last is_last equal =>
          (find?_eq_none _).mp no_entry (List.mem_singleton.mp is_last ▸ equal ▸ member)⟩
  · intro name
    have found_iff := isSome_find?_ofHistory history name
    rw [Option.isSome_iff_ne_none, Ne, find?_eq_none, not_not] at found_iff
    rw [found_iff, List.mem_map]

private theorem size_ofHistory :
    (ofHistory history).size = (history.map Entry.name).toFinset.card := by
  -- The table keeps each name once, so its length counts the names that the history has.
  obtain ⟨nodup, same_names⟩ := names_ofHistory history
  have finset_eq : (history.map Entry.name).toFinset
      = ((ofHistory history).entries.map Entry.name).toFinset := by
    ext name
    rw [List.mem_toFinset, List.mem_toFinset, same_names]
  rw [finset_eq, List.toFinset_card_of_nodup nodup, List.length_map, size]

private theorem overwrites_ofHistory : (ofHistory history).overwrites
    = (history.zip (empty.insertAll history).2).filterMap
      fun (entry, replaced) => replaced.map (.of · entry) := by
  induction history using List.reverseRecOn with
  | nil => rfl
  | append_singleton front entry ih =>
    rw [ofHistory_concat, overwrites_insert, ih, insertAll_append,
      List.zip_append (length_insertAll_snd empty front).symm, List.filterMap_append]
    rfl

/-- An insertion adds a name or a record. -/
theorem length_overwrites_ofHistory :
    (ofHistory history).overwrites.length + (ofHistory history).size = history.length := by
  induction history using List.reverseRecOn with
  | nil => rfl
  | append_singleton front entry ih =>
    rw [ofHistory_concat, overwrites_insert, size_insert, List.length_append, List.length_append]
    cases (ofHistory front).find? entry.name with
    | none => simp [← ih, Nat.add_assoc]
    | some old => simp [← ih, Nat.add_right_comm]

/-- The pairs of neighbours in a list with one more element. -/
theorem zip_tail_concat {α : Type} (items : List α) (last : α) :
    (items ++ [last]).zip (items ++ [last]).tail
      = items.zip items.tail ++ (items.getLast?.map fun before => (before, last)).toList := by
  induction items with
  | nil => rfl
  | cons first rest ih =>
    cases rest with
    | nil => rfl
    | cons second rest =>
      rw [List.getLast?_cons_cons]
      exact congrArg ((first, second) :: ·) ih

private theorem chained_ofHistory : (ofHistory history).overwrites.filter (·.name == name)
    = ((under name history).zip (under name history).tail).map
      fun (old, entry) => .of old entry := by
  induction history using List.reverseRecOn with
  | nil => rfl
  | append_singleton front entry ih =>
    rw [ofHistory_concat, overwrites_insert, List.filter_append, ih, under_concat]
    by_cases same : entry.name = name
    · -- The record leads from the last insertion so far to the new one.
      rw [if_pos same, zip_tail_concat, List.map_append, same, find?_ofHistory]
      congr 1
      cases (under name front).getLast? <;> simp [Overwrite.of, same]
    · rw [if_neg same, List.append_nil]
      cases (ofHistory front).find? entry.name <;> simp [Overwrite.of, same]

end Run

section Listing

variable (table : Table)

theorem comesBefore_iff (left right : Entry) : comesBefore left right = true ↔
    left.provenance.line < right.provenance.line ∨
      left.provenance.line = right.provenance.line ∧ left.name ≤ right.name := by
  simp [comesBefore]

private theorem comesBefore_trans (first second third : Entry)
    (left : comesBefore first second = true)
    (right : comesBefore second third = true) : comesBefore first third = true := by
  rw [comesBefore_iff] at *
  rcases left with left | ⟨left, left_name⟩ <;> rcases right with right | ⟨right, right_name⟩
  · exact .inl (left.trans right)
  · exact .inl (right ▸ left)
  · exact .inl (left ▸ right)
  · exact .inr ⟨left.trans right, String.le_trans left_name right_name⟩

private theorem comesBefore_total (left right : Entry) :
    (comesBefore left right || comesBefore right left) = true := by
  rw [Bool.or_eq_true, comesBefore_iff, comesBefore_iff]
  rcases Nat.lt_trichotomy left.provenance.line right.provenance.line with before | same | after
  · exact .inl (.inl before)
  · exact (String.le_total left.name right.name).imp (.inr ⟨same, ·⟩) (.inr ⟨same.symm, ·⟩)
  · exact .inr (.inl after)

/-- Entries that come before one another have one name. -/
theorem name_eq_of_comesBefore {left right : Entry} (before : comesBefore left right = true)
    (after : comesBefore right left = true) : left.name = right.name := by
  rw [comesBefore_iff] at before after
  rcases before with before | ⟨same_line, before⟩ <;> rcases after with after | ⟨same, after⟩
  · omega
  · omega
  · omega
  · exact String.le_antisymm before after

variable {table} (nodup : (table.entries.map Entry.name).Nodup)

include nodup

private theorem mem_entries_iff (entry : Entry) :
    entry ∈ table.entries ↔ table.find? entry.name = some entry := by
  constructor
  · intro member
    obtain ⟨found, found_eq⟩ := Option.ne_none_iff_exists'.mp
      (mt (find?_eq_none table).mp (not_not.mpr (List.mem_map_of_mem member)))
    have same_name : found.name = entry.name := by simpa using List.find?_some found_eq
    rw [found_eq, List.inj_on_of_nodup_map nodup (List.mem_of_find?_eq_some found_eq) member same_name]
  · exact List.mem_of_find?_eq_some

/-- Entries with different names are in one order only. -/
theorem mergeSort_eq_sortedEntries {kept : List Entry} (perm : kept.Perm table.entries) :
    kept.mergeSort comesBefore = table.sortedEntries := by
  have sorted (entries : List Entry) :=
    List.pairwise_mergeSort comesBefore_trans comesBefore_total entries
  refine List.Perm.eq_of_pairwise ?_ (sorted kept) (sorted table.entries)
    ((List.mergeSort_perm _ _).trans (perm.trans (List.mergeSort_perm _ _).symm))
  intro left right left_mem right_mem before after
  have left_kept := perm.subset (List.mem_mergeSort.mp left_mem)
  exact List.inj_on_of_nodup_map nodup left_kept (List.mem_mergeSort.mp right_mem)
    (name_eq_of_comesBefore before after)

private theorem pairwise_sortedEntries : table.sortedEntries.Pairwise Entry.Precedes := by
  have sorted := List.pairwise_mergeSort comesBefore_trans comesBefore_total table.entries
  have distinct : (table.sortedEntries.map Entry.name).Nodup :=
    ((List.mergeSort_perm table.entries _).map Entry.name).nodup_iff.mpr nodup
  refine (sorted.and (List.pairwise_map.mp distinct)).imp ?_
  rintro left right ⟨before, different⟩
  rcases (comesBefore_iff left right).mp before with earlier | ⟨same_line, name_le⟩
  · exact .inl earlier
  · refine .inr ⟨same_line, Decidable.byContradiction fun not_lt => ?_⟩
    exact different (String.le_antisymm name_le (String.not_lt.mp not_lt))

end Listing

/-- The table that a history leads to and the answers to its insertions tell of the history. -/
theorem insertAll_tells (history : List Entry) :
    (empty.insertAll history).1.Tells (empty.insertAll history).2 history where
  find? := find?_ofHistory history
  selector? name := congrArg (Option.map Entry.selector) (find?_ofHistory history name)
  contains := isSome_find?_ofHistory history
  size := size_ofHistory history
  answered := ⟨length_insertAll_snd empty history, by
    rintro front entry back rfl
    exact answers_ofHistory front entry back⟩
  overwrites := overwrites_ofHistory history
  overwrites_length := length_overwrites_ofHistory history
  chained := chained_ofHistory history
  mem_sorted entry := List.mem_mergeSort.trans (mem_entries_iff (names_ofHistory history).1 entry)
  once := (List.mergeSort_perm _ _).nodup_iff.mpr (.of_map _ (names_ofHistory history).1)
  sorted := pairwise_sortedEntries (names_ofHistory history).1
  any_order _ := mergeSort_eq_sortedEntries (names_ofHistory history).1

end Table

end SuiteMigration.Locator
