import Mathlib.Data.List.Nodup
import SuiteMigration.Page.Module

/-!
# Members of a page class

A page class has a constructor, which declares the page as a property, and one method for each
method of the source that is emitted. Every member is printed under its names, and methods keep those
of the source. So the members are told apart by name as far as the source tells its methods apart and
leaves the two names of the constructor alone.
-/
namespace SuiteMigration.Page

open Outline

/-- A member of a generated class, with the names it declares. -/
structure Member where
  names : List String
  text : String

def Member.ofConstructor : Member :=
  ⟨["constructor", "page"], "constructor(private page: Page) \x7b\x7d"⟩

def Member.ofMethod (method : Method) : Member :=
  ⟨[method.name], method.render⟩

/-- The text of a member declares its names: that of the class itself and its page, or the one in front
of the parameters of a method. -/
inductive Member.Spelled : Member → Prop where
  | constructor : Spelled ⟨["constructor", "page"], "constructor(private page: Page) \x7b\x7d"⟩
  | method (name parameters body : String) :
      Spelled ⟨[name], "async " ++ name ++ "(" ++ parameters ++ ") \x7b\n" ++ body ++ "\n\x7d"⟩

namespace Module

def members (module : Module) : List Member :=
  .ofConstructor :: module.methods.map .ofMethod

end Module

section Members

private theorem takeWhile_name {name : List Char} (no_mark : '(' ∉ name) (rest : List Char) :
    (name ++ '(' :: rest).takeWhile (· ≠ '(') = name := by
  have kept : ∀ c ∈ name, decide (c ≠ '(') = true := by
    intro c member
    rw [decide_eq_true_eq]
    rintro rfl
    exact no_mark member
  rw [List.takeWhile_append_of_pos kept]
  simp

/-- A text declares no other names, if no name holds a parenthesis. -/
theorem Member.Spelled.names_eq {first second : Member} (first_spelled : first.Spelled)
    (second_spelled : second.Spelled) (same : first.text = second.text)
    (no_mark : ∀ name ∈ first.names ++ second.names, '(' ∉ name.toList) :
    first.names = second.names := by
  have chars_eq := congrArg String.toList same
  cases first_spelled with
  | constructor =>
    cases second_spelled with
    | constructor => rfl
    | method => simp at chars_eq
  | method name parameters body =>
    cases second_spelled with
    | constructor => simp at chars_eq
    | method other other_parameters other_body =>
      have behind := congrArg (fun text => (text.drop 6).takeWhile (· ≠ '(')) chars_eq
      have first_name := no_mark name (by simp)
      have second_name := no_mark other (by simp)
      simp only [String.toList_append, List.append_assoc] at behind
      change ((name.toList ++ '(' :: _).takeWhile _) = ((other.toList ++ '(' :: _).takeWhile _)
        at behind
      rw [takeWhile_name first_name, takeWhile_name second_name, String.toList_inj] at behind
      rw [behind]

end Members

end SuiteMigration.Page
