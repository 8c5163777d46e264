import StoryEngine.Proofs.Expression.Lexing

/-!
# The longest token

The token rules said apart from the lexer: what a token may be, and when it is the longest that a
source starts with. That token is the one that is read, and where none is read none starts.
-/

namespace StoryEngine.Expression

/-! ### The token rules -/

/-- A token by the rules: a number, a text, a name, an operator, a bracket or a comma. -/
inductive Lexeme.IsToken : Lexeme → Prop
  | number (literal : DecimalLiteral) : IsToken literal.lexeme
  | text (quotation : Quotation) : IsToken quotation.lexeme
  | name (identifier : Identifier) : IsToken identifier.lexeme
  | operator (op : Operator) : IsToken op.lexeme
  | opening : IsToken opening
  | closing : IsToken closing
  | separator : IsToken separator

/-- A token that a source starts with and than which no token it starts with is longer. -/
structure Lexeme.LongestIn (l : Lexeme) (source : List Char) : Prop where
  isToken : l.IsToken
  starts : l.text <+: source
  longest : ∀ m : Lexeme, m.IsToken → m.text <+: source → m.text.length ≤ l.text.length

/-- A source that starts with no token. -/
def Stuck (source : List Char) : Prop :=
  ∀ m : Lexeme, m.IsToken → ¬ m.text <+: source

/-- Tokens are read back where they stand apart. -/
theorem Lexeme.IsToken.separable {l : Lexeme} (token : l.IsToken) : l.Separable := by
  cases token with
  | number literal => exact literal.separable
  | text quotation => exact quotation.separable
  | name identifier => exact identifier.separable
  | operator op => exact op.separable
  | opening => exact separable_opening
  | closing => exact separable_closing
  | separator => exact separable_separator

/-- A token has at least one character. -/
theorem Lexeme.IsToken.text_ne_nil {l : Lexeme} (token : l.IsToken) : l.text ≠ [] := by
  obtain ⟨c, more, text, -⟩ := token.separable.starts
  simp [text]

/-- A token that is the longest in a source is so in what the source starts with, if that goes as
far as the token. -/
theorem Lexeme.LongestIn.of_append {l : Lexeme} {source more : List Char}
    (longest : l.LongestIn (source ++ more)) (starts : l.text <+: source) : l.LongestIn source :=
  ⟨longest.isToken, starts,
    fun m token begins ↦ longest.longest m token (begins.trans (List.prefix_append _ _))⟩

/-- No token starts at the end of a source. -/
theorem stuck_nil : Stuck [] :=
  fun _ token starts ↦ token.text_ne_nil (List.prefix_nil.1 starts)

/-- A quote that starts no token is not followed by another. -/
theorem Stuck.notMem {c : Char} {ahead : List Char} (stuck : Stuck (c :: ahead))
    (quote : isQuote c = true) : c ∉ ahead := by
  intro closes
  obtain ⟨body, after, rfl, outside⟩ := List.eq_append_cons_of_mem closes
  refine stuck _ (.text ⟨c, body, quote, outside⟩) ⟨after, ?_⟩
  simp [Quotation.lexeme]

/-- A token is told by its characters. -/
private theorem Lexeme.IsToken.eq_of_text {l m : Lexeme} (token : l.IsToken) (other : m.IsToken)
    (same : l.text = m.text) : l = m := by
  have apart : Apart [] := by simp [Apart]
  have first := token.separable.scan? [] apart
  rw [same, other.separable.scan? [] apart] at first
  exact (Option.some.inj first).symm

/-! ### Reading one token -/

/-- What is read as a number is one that the text starts with. -/
private theorem scanNumber_isToken {c : Char} {rest : List Char} (digit : c.isDigit = true) :
    (scanNumber (c :: rest)).IsToken ∧ (scanNumber (c :: rest)).text <+: c :: rest := by
  have whole : (c :: rest).takeWhile Char.isDigit ≠ [] := by simp [digit]
  have split := (c :: rest).takeWhile_append_dropWhile (p := Char.isDigit)
  have digits : ∀ d ∈ (c :: rest).takeWhile Char.isDigit, d.isDigit = true :=
    List.all_eq_true.1 List.all_takeWhile
  unfold scanNumber
  dsimp only
  split
  · next after more =>
    refine ⟨.number ⟨_, some (after.takeWhile Char.isDigit), whole, digits, ?_⟩, ?_⟩
    · intro fraction same
      cases same
      exact List.all_eq_true.1 List.all_takeWhile
    · have begins := (List.prefix_cons_inj '.').2 (after.takeWhile_prefix Char.isDigit)
      rw [more] at split
      conv => rhs; rw [← split]
      exact (List.prefix_append_right_inj _).2 begins
  · have token : Lexeme.IsToken _ := .number ⟨_, none, whole, digits, fun _ none ↦ by cases none⟩
    rw [DecimalLiteral.lexeme, DecimalLiteral.value] at token
    simp only [Option.elim, List.append_nil] at token
    exact ⟨token, List.takeWhile_prefix _⟩

/-- A number that a text starts with is no longer than the one read. -/
private theorem length_le_scanNumber (l : DecimalLiteral) (rest : List Char) :
    l.lexeme.text.length ≤ (scanNumber (l.lexeme.text ++ rest)).text.length := by
  obtain ⟨whole, fraction, -, digits, more⟩ := l
  cases fraction with
  | none =>
    simp only [DecimalLiteral.lexeme, Option.elim, List.append_nil, scanNumber,
      List.takeWhile_append_of_pos digits]
    split <;> simp only [List.length_append] <;> omega
  | some fraction =>
    simp [DecimalLiteral.lexeme, scanNumber, List.takeWhile_append_of_pos digits,
      List.dropWhile_append_of_pos digits, List.takeWhile_append_of_pos (more fraction rfl)]

/-- What is read as a text is a quotation that the source starts with. -/
theorem scanText?_eq_lexeme {quote : Char} {rest : List Char} {l : Lexeme}
    (opens : isQuote quote = true) (read : scanText? quote rest = some l) :
    ∃ (q : Quotation) (after : List Char), quote :: rest = q.lexeme.text ++ after ∧
      l = q.lexeme := by
  have closes : quote ∈ rest := by
    unfold scanText? at read
    dsimp only at read
    split at read
    · next closes => exact List.contains_iff_mem.1 closes
    · cases read
  obtain ⟨body, after, rfl, outside⟩ := List.eq_append_cons_of_mem closes
  let q : Quotation := ⟨quote, body, opens, outside⟩
  have text : quote :: (body ++ quote :: after) = q.lexeme.text ++ after := by
    simp [q, Quotation.lexeme]
  rw [← scan?_of_isQuote opens, text, q.scan?_append] at read
  cases read
  exact ⟨q, after, text, rfl⟩

private theorem scanText?_isToken {quote : Char} {rest : List Char} {l : Lexeme}
    (opens : isQuote quote = true) (read : scanText? quote rest = some l) :
    l.IsToken ∧ l.text <+: quote :: rest := by
  obtain ⟨q, after, split, rfl⟩ := scanText?_eq_lexeme opens read
  rw [split]
  exact ⟨.text q, List.prefix_append _ _⟩

/-- What is read as a name is one that the text starts with. -/
private theorem scanName_isToken {c : Char} {rest : List Char} (starts : startsName c = true) :
    (scanName (c :: rest)).IsToken ∧ (scanName (c :: rest)).text <+: c :: rest := by
  have whole : (c :: rest).takeWhile continuesName = c :: rest.takeWhile continuesName := by
    rw [List.takeWhile_cons, if_pos (continuesName_of_startsName starts)]
  unfold scanName
  dsimp only
  refine ⟨?_, List.takeWhile_prefix _⟩
  rw [whole]
  exact .name ⟨c, _, starts, List.all_eq_true.1 List.all_takeWhile⟩

private theorem length_le_scanName (i : Identifier) (rest : List Char) :
    i.lexeme.text.length ≤ (scanName (i.lexeme.text ++ rest)).text.length := by
  rw [Identifier.lexeme, scanName, List.takeWhile_append_of_pos i.continuesName_text,
    List.length_append]
  exact Nat.le_add_right _ _

private theorem Operator.starts_of_starting? {op : Operator} {text : List Char}
    (found : Operator.starting? text = some op) : op.spelling <+: text := by
  have begins := List.find?_some found
  exact List.isPrefixOf_iff_prefix.1 begins

/-- The operator that is found is the longest: none has a longer spelling than those before it
in the list. -/
private theorem Operator.exists_starting? {op : Operator} {text : List Char}
    (h : op.spelling <+: text) :
    ∃ found, Operator.starting? text = some found ∧
      op.spelling.length ≤ found.spelling.length := by
  have member : op ∈ all := by cases op <;> decide
  have order : all.Pairwise fun a b ↦ b.spelling.length ≤ a.spelling.length := by decide
  cases read : starting? text with
  | none =>
    exact absurd (List.isPrefixOf_iff_prefix.2 h) (List.find?_eq_none.1 read op member)
  | some found =>
    refine ⟨found, rfl, ?_⟩
    obtain ⟨-, before, after, split, failed⟩ := List.find?_eq_some_iff_append.1 read
    rw [split] at member order
    rcases List.mem_append.1 member with member | member
    · have absent := failed op member
      rw [List.isPrefixOf_iff_prefix.2 h] at absent
      cases absent
    rcases List.mem_cons.1 member with rfl | member
    · exact Nat.le_refl _
    · exact (List.pairwise_cons.1 (List.pairwise_append.1 order).2.1).1 op member

/-- What is read is a token that the text starts with. -/
private theorem scan?_isToken {source : List Char} {l : Lexeme} (read : scan? source = some l) :
    l.IsToken ∧ l.text <+: source := by
  cases source with
  | nil => cases read
  | cons c rest =>
    rw [scan?] at read
    split at read
    · next digit =>
      cases read
      exact scanNumber_isToken digit
    split at read
    · next quote => exact scanText?_isToken quote read
    split at read
    · next starts =>
      cases read
      exact scanName_isToken starts
    split at read
    · next bracket =>
      cases read
      rw [eq_of_beq bracket]
      exact ⟨.opening, ⟨rest, rfl⟩⟩
    split at read
    · next bracket =>
      cases read
      rw [eq_of_beq bracket]
      exact ⟨.closing, ⟨rest, rfl⟩⟩
    split at read
    · next comma =>
      cases read
      rw [eq_of_beq comma]
      exact ⟨.separator, ⟨rest, rfl⟩⟩
    · obtain ⟨op, found, rfl⟩ := Option.map_eq_some_iff.1 read
      exact ⟨.operator op, Operator.starts_of_starting? found⟩

/-- A token that a text starts with is no longer than the one read. -/
private theorem Lexeme.IsToken.exists_scan? {m : Lexeme} {source : List Char} (token : m.IsToken)
    (starts : m.text <+: source) :
    ∃ l, scan? source = some l ∧ m.text.length ≤ l.text.length := by
  obtain ⟨rest, rfl⟩ := starts
  cases token with
  | number literal =>
    obtain ⟨c, more, whole⟩ := List.exists_cons_of_ne_nil literal.whole_ne_nil
    have digit : c.isDigit = true := literal.isDigit_whole c (by simp [whole])
    have text : literal.lexeme.text ++ rest =
        c :: (more ++ literal.fraction.elim [] ('.' :: ·) ++ rest) := by
      simp [DecimalLiteral.lexeme, whole]
    have long := length_le_scanNumber literal rest
    rw [text] at long ⊢
    exact ⟨_, scan?_of_isDigit digit _, long⟩
  | text quotation => exact ⟨_, quotation.scan?_append rest, Nat.le_refl _⟩
  | name identifier =>
    exact ⟨_, scan?_of_startsName identifier.startsName_first _,
      length_le_scanName identifier rest⟩
  | operator op =>
    obtain ⟨found, read, long⟩ := Operator.exists_starting? (List.prefix_append op.spelling rest)
    refine ⟨found.lexeme, ?_, long⟩
    -- no operator starts like a token of another kind
    have other : scan? (op.spelling ++ rest) =
        (Operator.starting? (op.spelling ++ rest)).map Operator.lexeme := by
      cases op <;> rfl
    rw [Operator.lexeme, other, read]
    rfl
  | opening => exact ⟨_, rfl, Nat.le_refl _⟩
  | closing => exact ⟨_, rfl, Nat.le_refl _⟩
  | separator => exact ⟨_, rfl, Nat.le_refl _⟩

/-- The longest token is read. -/
theorem scan?_eq_some_iff {source : List Char} {l : Lexeme} :
    scan? source = some l ↔ l.LongestIn source := by
  constructor
  · intro read
    obtain ⟨token, starts⟩ := scan?_isToken read
    refine ⟨token, starts, fun m other begins ↦ ?_⟩
    obtain ⟨l', read', long⟩ := other.exists_scan? begins
    rw [read] at read'
    cases read'
    exact long
  · rintro ⟨token, starts, longest⟩
    obtain ⟨m, read, long⟩ := token.exists_scan? starts
    obtain ⟨other, begins⟩ := scan?_isToken read
    have length := Nat.le_antisymm long (longest m other begins)
    have same := (List.prefix_of_prefix_length_le starts begins long).eq_of_length length
    rw [read, token.eq_of_text other same]

/-- The lexer reads nothing exactly where no token starts. -/
theorem scan?_eq_none_iff {source : List Char} : scan? source = none ↔ Stuck source := by
  constructor
  · intro none m token starts
    obtain ⟨l, read, -⟩ := token.exists_scan? starts
    rw [none] at read
    cases read
  · intro stuck
    cases read : scan? source with
    | none => rfl
    | some l =>
      obtain ⟨token, starts⟩ := scan?_isToken read
      exact absurd starts (stuck l token)

/-! ### Numbers -/

private theorem toLower_of_isDigit {c : Char} (digit : c.isDigit = true) : c.toLower = c := by
  simp only [Char.isDigit, Bool.and_eq_true, decide_eq_true_eq] at digit
  unfold Char.toLower
  rw [dif_neg]
  intro upper
  exact absurd (UInt32.le_trans upper.1 digit.2) (by decide)

/-- A numeral that starts with a digit is no word. -/
private theorem unsigned?_cons {c : Char} (digit : c.isDigit = true) (rest : List Char) :
    Number.unsigned? (c :: rest) =
      let (fraction, mark) := Number.fraction (rest.dropWhile Char.isDigit)
      (Number.exponent? mark).map
        (Number.ofDecimal (c :: rest.takeWhile Char.isDigit) fraction) := by
  have head : (String.ofList ((c :: rest).map Char.toLower)).toList.head? = some c := by
    simp [toLower_of_isDigit digit]
  unfold Number.unsigned?
  split
  iterate 3
    · next word =>
      rw [word] at head
      cases head
      cases digit
  · rw [List.takeWhile_cons_of_pos digit, List.dropWhile_cons_of_pos digit]
    rfl

/-- The digits of a number are a numeral of its value. -/
private theorem DecimalLiteral.ofNumeral?_text (l : DecimalLiteral) :
    Number.ofNumeral? l.lexeme.text = some l.value := by
  have apart : Apart [] := by simp [Apart]
  obtain ⟨whole, fraction, nonempty, digits, more⟩ := l
  obtain ⟨c, whole, rfl⟩ := List.exists_cons_of_ne_nil nonempty
  obtain ⟨digit, digits⟩ := List.forall_mem_cons.1 digits
  have unsigned (rest : List Char) :
      Number.ofNumeral? (c :: rest) = Number.unsigned? (c :: rest) := by
    unfold Number.ofNumeral?
    split
    · next same => cases same; cases digit
    · next same => cases same; cases digit
    · rfl
  cases fraction with
  | none =>
    have split := takeWhile_append_apart digits (by decide) apart
    rw [List.append_nil] at split
    simp [lexeme, value, unsigned, unsigned?_cons digit, split, Number.fraction, Number.exponent?]
  | some fraction =>
    have split := takeWhile_append_apart (more fraction rfl) (by decide) apart
    rw [List.append_nil] at split
    simp [lexeme, value, unsigned, unsigned?_cons digit, List.takeWhile_append_of_pos digits,
      List.dropWhile_append_of_pos digits, split, Number.fraction, Number.exponent?]

/-- What a number token has written is a numeral of its value: it is never refused. -/
theorem Lexeme.IsToken.ofNumeral? {l : Lexeme} (token : l.IsToken) {x : Float}
    (number : l.symbol = .number x) : Number.ofNumeral? l.text = some x := by
  cases token with
  | number literal =>
    cases number
    exact literal.ofNumeral?_text
  | _ => cases number

end StoryEngine.Expression
