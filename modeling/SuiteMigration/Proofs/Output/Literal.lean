import Mathlib.Data.List.Infix
import SuiteMigration.Output.Layout

/-!
# Literals

What is written in single quotes, and how a script reads a string literal or a template without
substitutions. The closing quote has to be the last character. A string literal holds no line end,
and a template takes a carriage return for a line feed.
-/
namespace SuiteMigration.Output

theorem escapeQuoted_cons (c : Char) (text : List Char) :
    (c :: text).flatMap escapeQuoted
      = if c = '\\' ∨ c = '\'' then '\\' :: c :: text.flatMap escapeQuoted
        else c :: text.flatMap escapeQuoted := by
  rw [List.flatMap_cons, escapeQuoted]
  split
  · next same => simp [same]
  · split
    · next same => simp [same]
    · next no_backslash no_quote => simp [no_backslash, no_quote]

theorem toList_singleQuoted (text : String) :
    (singleQuoted text).toList = '\'' :: (text.toList.flatMap escapeQuoted ++ ['\'']) := by
  simp [singleQuoted, String.toList_append]

/-- The quote of a template. -/
def backquote : Char := '\x60'

/-- What an escaped character stands for. Escapes of digits, code points and line ends are not
read. -/
def escapeValue? (c : Char) : Option Char :=
  if c.isDigit ∨ c ∈ ['x', 'u', '\n', '\r', '\u2028', '\u2029'] then none
  else match c with
    | 'b' => some '\x08'
    | 'f' => some '\x0c'
    | 'n' => some '\n'
    | 'r' => some '\r'
    | 't' => some '\t'
    | 'v' => some '\x0b'
    | c => some c

/-- What a character without a backslash stands for, in front of the rest of its literal. -/
def plainValue? (quote c : Char) (rest : List Char) : Option (List Char) :=
  if quote = backquote then
    if c = '$' ∧ rest.head? = some '{' then none
    else if c = '\r' then some (if rest.head? = some '\n' then [] else ['\n'])
    else some [c]
  else if c = '\n' ∨ c = '\r' then none
  else some [c]

/-- The value of a literal behind its opening quote. -/
def contents? (quote : Char) : List Char → Option (List Char)
  | [] => none
  | ['\\'] => none
  | '\\' :: c :: rest => do
    let value ← escapeValue? c
    let values ← contents? quote rest
    return value :: values
  | c :: rest =>
    if c = quote then if rest = [] then some [] else none
    else do
      let value ← plainValue? quote c rest
      let values ← contents? quote rest
      return value ++ values

/-- The value of a text that is a literal from its first character to its last. -/
def literalValue? : List Char → Option (List Char)
  | [] => none
  | quote :: rest => if quote ∈ ['\'', '"', backquote] then contents? quote rest else none

theorem contents?_escape (quote : Char) {c value : Char} (value_eq : escapeValue? c = some value)
    (rest : List Char) :
    contents? quote ('\\' :: c :: rest) = (contents? quote rest).map (value :: ·) := by
  rw [contents?, value_eq]
  cases contents? quote rest <;> rfl

theorem contents?_plain {quote c : Char} (no_backslash : c ≠ '\\') (no_quote : c ≠ quote)
    (rest : List Char) :
    contents? quote (c :: rest)
      = (plainValue? quote c rest).bind fun value => (contents? quote rest).map (value ++ ·) := by
  rw [contents?.eq_4 _ _ _ (fun equal _ => no_backslash equal)
    (fun _ _ equal _ => no_backslash equal), if_neg no_quote]
  cases plainValue? quote c rest <;> cases contents? quote rest <;> rfl

theorem contents?_quote {quote : Char} (no_backslash : quote ≠ '\\') (rest : List Char) :
    contents? quote (quote :: rest) = if rest = [] then some [] else none := by
  rw [contents?.eq_4 _ _ _ (fun equal _ => no_backslash equal)
    (fun _ _ equal _ => no_backslash equal), if_pos rfl]

end SuiteMigration.Output
