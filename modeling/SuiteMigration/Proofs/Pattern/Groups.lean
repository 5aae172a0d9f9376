import SuiteMigration.Proofs.Pattern.Occurrence

/-!
# What the groups of a match hold

A group holds a stretch of the text that was searched, and the body of a group with its name accepts
that stretch. So a group has no character that its bodies avoid and none that the text lacks.
-/
namespace SuiteMigration.Pattern

/-- The groups of a pattern with their bodies. -/
def bodies : Pattern → List (String × Pattern)
  | .seq first second => first.bodies ++ second.bodies
  | .either preferred other => preferred.bodies ++ other.bodies
  | .many _ body => body.bodies
  | .group name body => (name, body) :: body.bodies
  | _ => []

/-- One of the groups took this stretch of the text. -/
structure Recorded (bodies : List (String × Pattern)) (text : List Char)
    (entry : String × List Char) : Prop where
  within : entry.2 <:+: text
  accepted : ∃ body, (entry.1, body) ∈ bodies ∧ body.Accepts entry.2

/-- Do all groups of the name avoid the character? -/
def groupAvoids (pattern : Pattern) (name : String) (c : Char) : Bool :=
  pattern.bodies.all fun entry => entry.1 != name || entry.2.avoids c

section Ways

variable {pattern : Pattern} {cursor stop : Cursor} {entry : String × List Char}
  {fewer more : List (String × Pattern)} {part text : List Char}

theorem Recorded.mono (recorded : Recorded fewer part entry) (infix_eq : part <:+: text)
    (subset : fewer ⊆ more) : Recorded more text entry := by
  obtain ⟨body, member, accepted⟩ := recorded.accepted
  exact ⟨recorded.within.trans infix_eq, body, subset member, accepted⟩

private theorem recorded_of_mem_manyWays {greedy : Bool}
    (turn : ∀ {cursor stop : Cursor}, stop ∈ pattern.ways cursor → ∀ entry ∈ stop.groups,
      entry ∈ cursor.groups ∨ Recorded pattern.bodies cursor.rest entry)
    {fuel : Nat} (found : stop ∈ manyWays greedy pattern.ways fuel cursor) :
    ∀ entry ∈ stop.groups, entry ∈ cursor.groups ∨ Recorded pattern.bodies cursor.rest entry := by
  induction fuel generalizing cursor with
  | zero =>
    obtain rfl := List.mem_singleton.mp found
    exact fun entry member => .inl member
  | succ fuel ih =>
    obtain rfl | ⟨next, next_mem, found⟩ := mem_manyWays_succ found
    · exact fun entry member => .inl member
    · intro entry member
      rcases ih found entry member with earlier | later
      · exact turn next_mem entry earlier
      -- What a later turn takes stands behind this one, and so within the text.
      · exact .inr (later.mono (suffix_of_mem_ways next_mem).isInfix (List.Subset.refl _))

/-- Every group of a match was there before or has been recorded on the way. -/
theorem recorded_of_mem_ways (found : stop ∈ pattern.ways cursor) : ∀ entry ∈ stop.groups,
    entry ∈ cursor.groups ∨ Recorded pattern.bodies cursor.rest entry := by
  induction pattern generalizing cursor stop with
  | empty | one | atStart | atEnd | atWordEdge =>
    exact fun entry member => .inl (groups_of_mem_ways rfl found ▸ member)
  | seq first second first_ih second_ih =>
    obtain ⟨middle, first_found, found⟩ := exists_of_mem_ways_seq found
    intro entry member
    rcases second_ih found entry member with earlier | later
    · exact (first_ih first_found entry earlier).imp_right
        (·.mono List.infix_rfl (List.subset_append_left _ _))
    · exact .inr (later.mono (suffix_of_mem_ways first_found).isInfix
        (List.subset_append_right _ _))
  | either preferred other preferred_ih other_ih =>
    intro entry member
    rcases mem_ways_either found with found | found
    · exact (preferred_ih found entry member).imp_right
        (·.mono List.infix_rfl (List.subset_append_left _ _))
    · exact (other_ih found entry member).imp_right
        (·.mono List.infix_rfl (List.subset_append_right _ _))
  | many greedy body ih => exact @recorded_of_mem_manyWays body _ _ _ ih _ found
  | group name body ih =>
    obtain ⟨inner, inner_mem, rfl⟩ := List.mem_map.mp found
    obtain ⟨taken, rest_eq, accepted⟩ := accepts_of_mem_ways inner_mem
    -- The group itself records what its body took. What was recorded inside stays.
    rw [groups_close rest_eq]
    intro entry member
    rcases List.mem_cons.mp member with rfl | earlier
    · refine .inr ⟨?_, body, List.mem_cons_self, accepted⟩
      rw [rest_eq]
      exact (List.prefix_append taken inner.rest).isInfix
    · exact (ih inner_mem entry earlier).imp_right
        (·.mono List.infix_rfl (List.subset_cons_self _ _))

end Ways

section Search

variable {pattern : Pattern} {previous : Option Char} {text : List Char} {found : Match}

private theorem recorded_of_findFrom? (found_eq : pattern.findFrom? previous text = some found) :
    ∀ entry ∈ found.groups, Recorded pattern.bodies text entry := by
  obtain ⟨rest, stop, text_eq, run_eq, -, groups_eq, -⟩ := run_of_findFrom? found_eq
  rw [groups_eq, text_eq]
  intro entry member
  have recorded := (recorded_of_mem_ways (mem_ways_of_run run_eq) entry member).resolve_left
    List.not_mem_nil
  exact recorded.mono (List.suffix_append found.before rest).isInfix (List.Subset.refl _)

/-- The group of a name is empty or one of those that were recorded. -/
theorem group_cases (found : Match) (name : String) :
    found.group name = [] ∨ (name, found.group name) ∈ found.groups := by
  unfold Match.group Match.group?
  cases lookup_eq : found.groups.lookup name with
  | none => exact .inl rfl
  | some part =>
    obtain ⟨front, back, groups_eq, -⟩ := List.lookup_eq_some_iff.mp lookup_eq
    rw [groups_eq]
    exact .inr (List.mem_append_right _ List.mem_cons_self)

theorem group_subset (found_eq : pattern.findFrom? previous text = some found) (name : String) :
    found.group name ⊆ text := by
  rcases group_cases found name with empty | member
  · rw [empty]
    exact List.nil_subset _
  · exact (recorded_of_findFrom? found_eq _ member).within.subset

/-- What a group holds is accepted by one of its bodies, unless it is empty. -/
theorem accepted_group (found_eq : pattern.findFrom? previous text = some found) (name : String) :
    found.group name = [] ∨
      ∃ body, (name, body) ∈ pattern.bodies ∧ body.Accepts (found.group name) :=
  (group_cases found name).imp_right fun member => (recorded_of_findFrom? found_eq _ member).accepted

theorem notMem_group (found_eq : pattern.findFrom? previous text = some found) {name : String}
    {c : Char} (avoided : pattern.groupAvoids name c = true) : c ∉ found.group name := by
  rcases accepted_group found_eq name with empty | ⟨body, in_bodies, accepted⟩
  · rw [empty]
    exact List.not_mem_nil
  · have body_avoids := List.all_eq_true.mp avoided _ in_bodies
    exact not_mem_of_accepts (by simpa using body_avoids) accepted

end Search

end SuiteMigration.Pattern
