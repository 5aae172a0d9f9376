import SuiteMigration.Proofs.Locator.Literal
import SuiteMigration.Proofs.Output.Literal

/-!
# What the literal of a selector denotes

The body of a source literal goes into the literal of a script as it is, escapes included, and the
two languages read the common escapes alike. The literal denotes the selector of the decoded value
unless the body holds a character that means something else in the quotes chosen for it.
-/
namespace SuiteMigration.Locator

open Output

/-- The character that an escape of the source stands for, for the escapes of one character. -/
def escaped? : Char → Option Char
  | '"' => some '"'
  | '\'' => some '\''
  | '\\' => some '\\'
  | 't' => some '\t'
  | 'n' => some '\n'
  | _ => none

/-- The body of a source literal, with the text that the literal denotes. -/
inductive Spells : List Char → List Char → Prop where
  | empty : Spells [] []
  | plain {c : Char} {body text : List Char} (no_backslash : c ≠ '\\') (no_feed : c ≠ '\n')
      (tail : Spells body text) : Spells (c :: body) (c :: text)
  | escape {c value : Char} {body text : List Char} (value_eq : escaped? c = some value)
      (tail : Spells body text) : Spells ('\\' :: c :: body) (value :: text)

/-- The characters of a body that stand behind a backslash. -/
def escapedOf : List Char → List Char
  | '\\' :: c :: rest => c :: escapedOf rest
  | _ :: rest => escapedOf rest
  | [] => []

/-- What a strategy puts in front of a value to look it up. -/
def Strategy.opening : Strategy → List Char
  | .id => ['#']
  | .name => "[name=\"".toList
  | .className => ['.']
  | .css | .literal => []
  | .xPath => "xpath=".toList

def Strategy.closing : Strategy → List Char
  | .name => ['"', ']']
  | _ => []

/-- The text by which a strategy looks a value up. -/
def Strategy.lookupText (strategy : Strategy) (value : List Char) : List Char :=
  strategy.opening ++ value ++ strategy.closing

/-- Nothing in a body means something else in a literal with such quotes. -/
structure Quotable (quote : Char) (body : List Char) : Prop where
  no_quote : quote ∉ body
  no_return : '\r' ∉ body
  no_substitution : quote = backquote → ¬ ['$', '{'] <:+: body

section Spells

variable {body text other value : List Char}

theorem Spells.append (front : Spells body text) (back : Spells other value) :
    Spells (body ++ other) (text ++ value) := by
  induction front with
  | empty => exact back
  | plain no_backslash no_feed _ ih => exact .plain no_backslash no_feed ih
  | escape value_eq _ ih => exact .escape value_eq ih

theorem spells_self (no_backslash : '\\' ∉ body) (no_feed : '\n' ∉ body) : Spells body body := by
  induction body with
  | nil => exact .empty
  | cons c rest ih =>
    rw [List.mem_cons, not_or] at no_backslash no_feed
    exact .plain (Ne.symm no_backslash.1) (Ne.symm no_feed.1) (ih no_backslash.2 no_feed.2)

theorem escapedOf_plain {c : Char} (no_backslash : c ≠ '\\') (rest : List Char) :
    escapedOf (c :: rest) = escapedOf rest :=
  escapedOf.eq_2 c rest fun _ _ equal _ => no_backslash equal

private theorem mem_of_mem_escapedOf {c : Char} :
    ∀ {body : List Char}, c ∈ escapedOf body → c ∈ body := by
  intro body
  fun_induction escapedOf body with
  | case1 first rest ih =>
    intro member
    rcases List.mem_cons.mp member with rfl | behind
    · simp
    · exact .tail _ (.tail _ (ih behind))
  | case2 first rest _ ih => exact fun member => .tail _ (ih member)
  | case3 => exact id

/-- A script reads the common escapes as the source does. -/
theorem escapeValue?_of_escaped? {c value : Char} (value_eq : escaped? c = some value) :
    escapeValue? c = some value := by
  unfold escaped? at value_eq
  split at value_eq <;> cases value_eq <;> decide

theorem Spells.escaped?_of_mem_escapedOf (spells : Spells body text) {c : Char}
    (member : c ∈ escapedOf body) : (escaped? c).isSome := by
  induction spells with
  | empty => cases member
  | plain no_backslash _ _ ih => exact ih (escapedOf_plain no_backslash _ ▸ member)
  | escape value_eq _ ih =>
    rcases List.mem_cons.mp member with rfl | behind
    · exact Option.isSome_of_mem value_eq
    · exact ih behind

theorem Spells.head?_ne_feed (spells : Spells body text) {quote : Char} (no_feed : quote ≠ '\n') :
    (body ++ [quote]).head? ≠ some '\n' := by
  cases spells with
  | empty => simpa using no_feed
  | plain _ head_ne _ => simpa using head_ne
  | escape _ _ => simp

/-- A character that is read as itself in front of the rest of its body. -/
theorem plainValue?_iff {quote c : Char} {rest : List Char} (no_feed : c ≠ '\n')
    (not_behind : rest.head? ≠ some '\n') {values : List Char} :
    (plainValue? quote c rest).bind (fun value => (contents? quote rest).map (value ++ ·))
        = some (c :: values)
      ↔ (c ≠ '\r' ∧ (quote = backquote → ¬(c = '$' ∧ rest.head? = some '{')))
        ∧ contents? quote rest = some values := by
  unfold plainValue?
  by_cases template : quote = backquote
  · rw [if_pos template]
    by_cases opens : c = '$' ∧ rest.head? = some '{'
    · rw [if_pos opens]
      simp only [Option.bind_none, reduceCtorEq, false_iff]
      exact fun reading => reading.1.2 template opens
    · by_cases is_return : c = '\r'
      · -- A template reads the line feed that the source does not have.
        subst is_return
        simp [not_behind]
      · simp [opens, is_return]
  · rw [if_neg template]
    by_cases is_return : c = '\r'
    · simp [is_return]
    · simp [template, is_return, no_feed]

theorem substitution_cons {c : Char} :
    ['$', '{'] <:+: c :: body ↔ (c = '$' ∧ body.head? = some '{') ∨ ['$', '{'] <:+: body := by
  rw [List.infix_cons_iff, List.cons_prefix_cons, @eq_comm _ '$' c]
  cases body with
  | nil => simp
  | cons d rest => simp [List.cons_prefix_cons, @eq_comm _ '{' d]

theorem quotable_cons {quote c : Char} (no_quote : c ≠ quote) (not_brace : quote ≠ '{') :
    Quotable quote (c :: body)
      ↔ (c ≠ '\r' ∧ (quote = backquote → ¬(c = '$' ∧ (body ++ [quote]).head? = some '{')))
        ∧ Quotable quote body := by
  have head_eq : (body ++ [quote]).head? = some '{' ↔ body.head? = some '{' := by
    cases body <;> simp [not_brace]
  rw [head_eq]
  constructor
  · intro quotable
    have no_substitution := fun template => not_or.mp
      (fun opens => quotable.no_substitution template (substitution_cons.mpr opens))
    refine ⟨⟨?_, fun template => (no_substitution template).1⟩, ?_, ?_, ?_⟩
    · exact fun equal => quotable.no_return (equal ▸ List.mem_cons_self)
    · exact fun member => quotable.no_quote (.tail _ member)
    · exact fun member => quotable.no_return (.tail _ member)
    · exact fun template => (no_substitution template).2
  · rintro ⟨⟨no_return, not_opening⟩, tail⟩
    refine ⟨?_, ?_, ?_⟩
    · simpa [no_quote.symm] using tail.no_quote
    · simpa [no_return.symm] using tail.no_return
    · intro template opens
      rcases substitution_cons.mp opens with here | behind
      · exact not_opening template here
      · exact tail.no_substitution template behind

/-- A body denotes in quotes what it denotes in its source exactly when it can stand there. -/
theorem Spells.contents?_iff (spells : Spells body text) {quote : Char}
    (known : quote = '\'' ∨ quote = backquote) (unescaped : quote ∉ escapedOf body) :
    contents? quote (body ++ [quote]) = some text ↔ Quotable quote body := by
  have no_backslash : quote ≠ '\\' := by rcases known with rfl | rfl <;> decide
  have not_brace : quote ≠ '{' := by rcases known with rfl | rfl <;> decide
  have not_feed : quote ≠ '\n' := by rcases known with rfl | rfl <;> decide
  induction spells with
  | empty =>
    rw [List.nil_append, contents?_quote no_backslash]
    simp only [↓reduceIte, true_iff]
    exact ⟨List.not_mem_nil, List.not_mem_nil, fun _ => by simp⟩
  | @plain c body text not_backslash no_feed tail ih =>
    rw [escapedOf_plain not_backslash] at unescaped
    by_cases closes : c = quote
    · -- The literal ends in front of the rest of the body.
      subst closes
      rw [List.cons_append, contents?_quote no_backslash]
      simp only [List.append_eq_nil_iff, List.cons_ne_self, and_false, ↓reduceIte, reduceCtorEq,
        false_iff]
      exact fun quotable => quotable.no_quote List.mem_cons_self
    · rw [List.cons_append, contents?_plain not_backslash closes,
        plainValue?_iff no_feed (tail.head?_ne_feed not_feed), quotable_cons closes not_brace]
      exact and_congr_right fun _ => ih unescaped
  | @escape c value body text value_eq tail ih =>
    obtain ⟨not_escaped, unescaped⟩ := not_or.mp (fun member => unescaped (List.mem_cons.mpr member))
    have head_ne : c ≠ '\r' ∧ c ≠ '$' := by
      constructor <;> rintro rfl <;> cases value_eq
    rw [List.cons_append, List.cons_append,
      contents?_escape quote (escapeValue?_of_escaped? value_eq),
      quotable_cons no_backslash.symm not_brace, quotable_cons (Ne.symm not_escaped) not_brace]
    simp [head_ne, ih unescaped]

/-- Whatever is read in quotes, it is as long as what the source reads. -/
theorem Spells.length_eq_of_contents? (spells : Spells body text) {quote : Char} {read : List Char}
    (known : quote = '\'' ∨ quote = backquote)
    (read_eq : contents? quote (body ++ [quote]) = some read) :
    read.length = text.length := by
  have no_backslash : quote ≠ '\\' := by rcases known with rfl | rfl <;> decide
  have not_feed : quote ≠ '\n' := by rcases known with rfl | rfl <;> decide
  induction spells generalizing read with
  | empty =>
    rw [List.nil_append, contents?_quote no_backslash, if_pos rfl] at read_eq
    rw [← Option.some.inj read_eq]
  | @plain c body text not_backslash _ tail ih =>
    rw [List.cons_append] at read_eq
    by_cases closes : c = quote
    · rw [closes, contents?_quote no_backslash, if_neg (by simp)] at read_eq
      cases read_eq
    · rw [contents?_plain not_backslash closes] at read_eq
      obtain ⟨value, value_eq, others_eq⟩ := Option.bind_eq_some_iff.mp read_eq
      obtain ⟨others, read_others, rfl⟩ := Option.map_eq_some_iff.mp others_eq
      have one_char : value.length = 1 := by
        unfold plainValue? at value_eq
        have no_feed_behind := tail.head?_ne_feed not_feed
        split_ifs at value_eq
        all_goals cases value_eq
        all_goals rfl
      rw [List.length_append, one_char, ih read_others, List.length_cons, Nat.add_comm]
  | @escape c value body text value_eq tail ih =>
    rw [List.cons_append, List.cons_append,
      contents?_escape quote (escapeValue?_of_escaped? value_eq)] at read_eq
    obtain ⟨others, read_others, rfl⟩ := Option.map_eq_some_iff.mp read_eq
    rw [List.length_cons, List.length_cons, ih read_others]

theorem Spells.lookupText (spells : Spells body text) (strategy : Strategy) :
    Spells (strategy.lookupText body) (strategy.lookupText text) := by
  have opening : Spells strategy.opening strategy.opening :=
    spells_self (by cases strategy <;> decide) (by cases strategy <;> decide)
  have closing : Spells strategy.closing strategy.closing :=
    spells_self (by cases strategy <;> decide) (by cases strategy <;> decide)
  exact (opening.append spells).append closing

/-- A path has its raw quotes escaped, and they stand for the same. -/
def escapeQuotes (body : List Char) : List Char :=
  body.flatMap fun c => if c = '\'' then ['\\', '\''] else [c]

theorem Spells.escapeQuotes (spells : Spells body text) (unescaped : '\'' ∉ escapedOf body) :
    Spells (escapeQuotes body) text := by
  induction spells with
  | empty => exact .empty
  | @plain c body text no_backslash no_feed _ ih =>
    rw [escapedOf_plain no_backslash] at unescaped
    unfold Locator.escapeQuotes
    rw [List.flatMap_cons]
    by_cases is_quote : c = '\''
    · subst is_quote
      exact .escape rfl (ih unescaped)
    · rw [if_neg is_quote]
      exact .plain no_backslash no_feed (ih unescaped)
  | @escape c value body text value_eq _ ih =>
    obtain ⟨no_quote, unescaped⟩ := not_or.mp (fun member => unescaped (List.mem_cons.mpr member))
    unfold Locator.escapeQuotes
    rw [List.flatMap_cons, List.flatMap_cons, if_neg (by decide), if_neg (Ne.symm no_quote)]
    exact .escape value_eq (ih unescaped)

/-- A quote that is escaped already gets a backslash that is not in the source. -/
theorem Spells.exists_longer (spells : Spells body text) (escaped : '\'' ∈ escapedOf body) :
    ∃ longer, Spells (Locator.escapeQuotes body) longer ∧ text.length < longer.length := by
  suffices reads : ∃ longer, Spells (Locator.escapeQuotes body) longer ∧
      text.length ≤ longer.length ∧ ('\'' ∈ escapedOf body → text.length < longer.length) by
    obtain ⟨longer, longer_spells, -, is_longer⟩ := reads
    exact ⟨longer, longer_spells, is_longer escaped⟩
  clear escaped
  unfold Locator.escapeQuotes
  induction spells with
  | empty => exact ⟨[], .empty, Nat.le_refl _, nofun⟩
  | @plain c body text no_backslash no_feed _ ih =>
    obtain ⟨longer, longer_spells, le_longer, is_longer⟩ := ih
    rw [List.flatMap_cons, escapedOf_plain no_backslash]
    refine ⟨c :: longer, ?_, Nat.succ_le_succ le_longer,
      fun escaped => Nat.succ_lt_succ (is_longer escaped)⟩
    split
    · next is_quote =>
      subst is_quote
      exact .escape rfl longer_spells
    · exact .plain no_backslash no_feed longer_spells
  | @escape c value body text value_eq _ ih =>
    obtain ⟨longer, longer_spells, le_longer, is_longer⟩ := ih
    rw [List.flatMap_cons, List.flatMap_cons, if_neg (by decide)]
    split
    · next is_quote =>
      -- The backslash of the source is escaped by the one that is added, and the quote stands alone.
      exact ⟨'\\' :: '\'' :: longer, .escape rfl (.plain (by decide) (by decide) longer_spells),
        Nat.succ_le_succ (Nat.le_succ_of_le le_longer),
        fun _ => Nat.succ_lt_succ (Nat.lt_succ_of_le le_longer)⟩
    · next no_quote =>
      refine ⟨value :: longer, .escape value_eq longer_spells, Nat.succ_le_succ le_longer, ?_⟩
      intro escaped
      rcases List.mem_cons.mp escaped with same | behind
      · exact absurd same.symm no_quote
      · exact Nat.succ_lt_succ (is_longer behind)

theorem mem_escapeQuotes {c : Char} (no_backslash : c ≠ '\\') :
    c ∈ escapeQuotes body ↔ c ∈ body := by
  simp only [escapeQuotes, List.mem_flatMap]
  constructor
  · rintro ⟨d, member, inside⟩
    split at inside
    · next is_quote =>
      have equal : c = '\'' := by simpa [no_backslash] using inside
      exact equal ▸ is_quote ▸ member
    · simpa [← List.mem_singleton.mp inside] using member
  · intro member
    refine ⟨c, member, ?_⟩
    split <;> simp [*]

private theorem substitution_append_left {front : List Char} (no_dollar : '$' ∉ front) :
    ['$', '{'] <:+: front ++ body ↔ ['$', '{'] <:+: body := by
  induction front with
  | nil => rfl
  | cons c front ih =>
    obtain ⟨c_ne, tail⟩ := not_or.mp (fun member => no_dollar (List.mem_cons.mpr member))
    rw [List.cons_append, substitution_cons, ih tail]
    exact or_iff_right fun opens => c_ne opens.1.symm

private theorem substitution_append_right {back : List Char} (no_brace : '{' ∉ back) :
    ['$', '{'] <:+: body ++ back ↔ ['$', '{'] <:+: body := by
  induction body with
  | nil =>
    refine ⟨fun opens => ?_, fun opens => opens.trans (List.prefix_append [] back).isInfix⟩
    exact absurd (opens.subset (by simp)) no_brace
  | cons c body ih =>
    have head_eq : (body ++ back).head? = some '{' ↔ body.head? = some '{' := by
      cases body with
      | nil => simpa using fun head_eq => no_brace (List.mem_of_mem_head? head_eq)
      | cons d rest => rfl
    rw [List.cons_append, substitution_cons, substitution_cons, head_eq, ih]

private theorem substitution_escapeQuotes :
    ['$', '{'] <:+: escapeQuotes body ↔ ['$', '{'] <:+: body := by
  induction body with
  | nil => rfl
  | cons c body ih =>
    have head_eq : (escapeQuotes body).head? = some '{' ↔ body.head? = some '{' := by
      cases body with
      | nil => rfl
      | cons d rest =>
        unfold escapeQuotes
        rw [List.flatMap_cons]
        split <;> simp [*]
    have cons_eq : escapeQuotes (c :: body)
        = (if c = '\'' then ['\\', '\''] else [c]) ++ escapeQuotes body := by
      unfold escapeQuotes
      rw [List.flatMap_cons]
    rw [cons_eq, substitution_cons]
    by_cases is_quote : c = '\''
    · subst is_quote
      simp [substitution_cons, ih]
    · simp [is_quote, substitution_cons, head_eq, ih]

/-- A strategy adds no character that means something in quotes. -/
theorem mem_lookupText (strategy : Strategy) {c : Char}
    (special : c = '\'' ∨ c = backquote ∨ c = '\r') :
    c ∈ strategy.lookupText body ↔ c ∈ body := by
  have not_added : c ∉ strategy.opening ∧ c ∉ strategy.closing := by
    rcases special with rfl | rfl | rfl <;> cases strategy <;> decide
  simp only [Strategy.lookupText, List.mem_append, not_added, false_or, or_false]

private theorem substitution_lookupText (strategy : Strategy) :
    ['$', '{'] <:+: strategy.lookupText body ↔ ['$', '{'] <:+: body := by
  have no_dollar : '$' ∉ strategy.opening := by cases strategy <;> decide
  have no_brace : '{' ∉ strategy.closing := by cases strategy <;> decide
  rw [Strategy.lookupText, substitution_append_right no_brace, substitution_append_left no_dollar]

theorem toList_selector (strategy : Strategy) (body : List Char) :
    (strategy.selector (String.ofList body)).text.toList
      = strategy.lookupText (if strategy = .xPath then escapeQuotes body else body) := by
  have value_eq : (String.ofList body).toList = body := String.toList_ofList
  unfold Strategy.lookupText Strategy.selector
  cases strategy with
  | css | literal => exact value_eq.trans (List.append_nil _).symm
  | id | className =>
    rw [if_neg (by decide), String.toList_append, value_eq]
    exact (List.append_nil _).symm
  | name =>
    rw [if_neg (by decide), String.toList_append, String.toList_append, value_eq]
    rfl
  | xPath =>
    rw [if_pos rfl, String.toList_append, value_eq, String.toList_ofList (l := body.flatMap _)]
    exact (List.append_nil _).symm

end Spells

/-- The quote that a selector's text is put in. -/
def quoteFor (text : List Char) : Char :=
  if '\'' ∈ text then backquote else '\''

theorem toList_literal (selector : Selector) :
    selector.literal.toList
      = quoteFor selector.text.toList :: (selector.text.toList ++ [quoteFor selector.text.toList]) := by
  unfold Selector.literal quoteFor
  by_cases quoted : '\'' ∈ selector.text.toList
  · rw [if_pos quoted, if_pos (List.contains_iff_mem.mpr quoted)]
    simp only [String.toList_append]
    rfl
  · rw [if_neg quoted, if_neg (fun contained => quoted (List.contains_iff_mem.mp contained))]
    simp only [String.toList_append]
    rfl

theorem Spells.literalValue?_iff {body text : List Char} (spells : Spells body text) :
    literalValue? (quoteFor body :: (body ++ [quoteFor body])) = some text
      ↔ '\r' ∉ body ∧ ('\'' ∈ body → backquote ∉ body ∧ ¬ ['$', '{'] <:+: body) := by
  unfold quoteFor
  by_cases quoted : '\'' ∈ body
  · have unescaped : backquote ∉ escapedOf body := fun member =>
      absurd (spells.escaped?_of_mem_escapedOf member) (by decide)
    rw [if_pos quoted, literalValue?, if_pos (by decide),
      spells.contents?_iff (.inr rfl) unescaped]
    constructor
    · exact fun quotable =>
        ⟨quotable.no_return, fun _ => ⟨quotable.no_quote, quotable.no_substitution rfl⟩⟩
    · rintro ⟨no_return, others⟩
      exact ⟨(others quoted).1, no_return, fun _ => (others quoted).2⟩
  · have unescaped : '\'' ∉ escapedOf body := fun member => quoted (mem_of_mem_escapedOf member)
    rw [if_neg quoted, literalValue?, if_pos (by decide), spells.contents?_iff (.inl rfl) unescaped]
    constructor
    · exact fun quotable => ⟨quotable.no_return, fun is_quoted => absurd is_quoted quoted⟩
    · rintro ⟨no_return, -⟩
      exact ⟨quoted, no_return, fun template => absurd template (by decide)⟩

/-- A path with an escaped quote does not denote what it should. -/
theorem Spells.not_denotes_path {body text : List Char} (spells : Spells body text)
    (escaped : '\'' ∈ escapedOf body) :
    literalValue? (Strategy.xPath.selector (String.ofList body)).literal.toList
      ≠ some (Strategy.xPath.lookupText text) := by
  intro read_eq
  obtain ⟨longer, longer_spells, is_longer⟩ := spells.exists_longer escaped
  rw [toList_literal, toList_selector, if_pos rfl] at read_eq
  -- Either quote is one that a literal can stand in.
  have known : ∀ text, quoteFor text = '\'' ∨ quoteFor text = backquote := fun text => by
    unfold quoteFor
    split
    · exact .inr rfl
    · exact .inl rfl
  have is_literal : ∀ text, quoteFor text ∈ ['\'', '"', backquote] := fun text => by
    rcases known text with is_quote | is_quote <;> rw [is_quote] <;> decide
  rw [literalValue?, if_pos (is_literal _)] at read_eq
  have length_eq := (longer_spells.lookupText .xPath).length_eq_of_contents? (known _) read_eq
  simp only [Strategy.lookupText, List.length_append] at length_eq
  omega

/-- The literal of a selector denotes the selector for what the body of the source literal denotes
exactly when the body has no raw carriage return and, next to a quote, no back quote and no opening
of a substitution. In a path no quote may be escaped. -/
theorem literal_denotes (strategy : Strategy) {body text : List Char} (spells : Spells body text) :
    literalValue? (strategy.selector (String.ofList body)).literal.toList
        = some (strategy.lookupText text)
      ↔ '\r' ∉ body ∧ ('\'' ∈ body → backquote ∉ body ∧ ¬ ['$', '{'] <:+: body) ∧
        (strategy = .xPath → '\'' ∉ escapedOf body) := by
  by_cases is_path : strategy = .xPath
  · subst is_path
    by_cases escaped : '\'' ∈ escapedOf body
    · exact iff_of_false (spells.not_denotes_path escaped) fun allowed => allowed.2.2 rfl escaped
    · rw [toList_literal, toList_selector, if_pos rfl,
        ((spells.escapeQuotes escaped).lookupText .xPath).literalValue?_iff,
        mem_lookupText .xPath (.inr (.inr rfl)), mem_lookupText .xPath (.inl rfl),
        mem_lookupText .xPath (.inr (.inl rfl)), substitution_lookupText,
        mem_escapeQuotes (by decide), mem_escapeQuotes (by decide), mem_escapeQuotes (by decide),
        substitution_escapeQuotes]
      simp [escaped]
  · rw [toList_literal, toList_selector, if_neg is_path,
      (spells.lookupText strategy).literalValue?_iff, mem_lookupText strategy (.inr (.inr rfl)),
      mem_lookupText strategy (.inl rfl), mem_lookupText strategy (.inr (.inl rfl)),
      substitution_lookupText]
    simp [is_path]

/-- A path with raw quotes and an escape. -/
theorem literal_denotes_path :
    Spells "//a[.='\\t']".toList "//a[.='\t']".toList
      ∧ literalValue? (Strategy.xPath.selector "//a[.='\\t']").literal.toList
        = some "xpath=//a[.='\t']".toList := by
  have spells : Spells "//a[.='\\t']".toList "//a[.='\t']".toList :=
    ((@spells_self "//a[.='".toList (by decide) (by decide)).append (.escape rfl .empty)).append
      (@spells_self "']".toList (by decide) (by decide))
  refine ⟨spells, ?_⟩
  exact (literal_denotes .xPath spells).mpr (by decide)

/-- Next to a quote, a back quote ends the literal early. -/
theorem not_denotes_quotes :
    ¬ ∀ (strategy : Strategy) (body text : List Char), LiteralBody body → Spells body text →
      literalValue? (strategy.selector (String.ofList body)).literal.toList
        = some (strategy.lookupText text) := by
  intro denotes
  have literal : LiteralBody [backquote, '\''] :=
    .plain (by decide) (by decide) (by decide) (.plain (by decide) (by decide) (by decide) .empty)
  have spells : Spells [backquote, '\''] [backquote, '\''] :=
    spells_self (by decide) (by decide)
  exact absurd (denotes .css _ _ literal spells) (by decide)

end SuiteMigration.Locator
