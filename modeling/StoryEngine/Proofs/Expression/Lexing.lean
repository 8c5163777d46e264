import StoryEngine.Proofs.Expression.Tree

/-!
# Reading spaced lexemes

A text made of lexemes with spaces between them is split into those lexemes again. What makes it
so is that each lexeme of a tree is read back wherever a space or nothing comes after it.
-/

namespace StoryEngine.Expression

/-! ### Steps of the lexer -/

/-- Nothing is left to read. -/
theorem tokensFrom_nil (start : Nat) : tokensFrom start [] = .ok [] := by
  rw [tokensFrom]

/-- White space is passed over. -/
theorem tokensFrom_space {c : Char} (start : Nat) (rest : List Char) (space : isSpace c = true) :
    tokensFrom start (c :: rest) = tokensFrom (start + c.utf8Size) rest := by
  rw [tokensFrom, if_pos space]

/-- Elsewhere one lexeme is read, and the tokens after it follow. -/
theorem tokensFrom_lexeme {c : Char} {rest : List Char} {l : Lexeme} (start : Nat)
    (space : isSpace c = false) (found : scan? (c :: rest) = some l) :
    tokensFrom start (c :: rest) =
      (tokensFrom (start + width l.text) ((c :: rest).drop l.text.length)).map
        (⟨l.symbol, start⟩ :: ·) := by
  rw [tokensFrom, if_neg (by simp [space])]
  split
  · next none =>
    rw [found] at none
    cases none
  · next m some =>
    rw [found] at some
    cases some
    rfl

/-! ### Lexemes that are read back -/

/-- What may come after a lexeme in a spaced text: nothing, or a space. -/
def Apart (rest : List Char) : Prop :=
  ∀ c ∈ rest.head?, c = ' '

/-- A lexeme that is read back when it stands apart from what comes after it. -/
structure Lexeme.Separable (l : Lexeme) : Prop where
  starts : ∃ c more, l.text = c :: more ∧ isSpace c = false
  scan? : ∀ rest, Apart rest → scan? (l.text ++ rest) = some l

/-- A run of characters of one class ends where the text stands apart, if a space is not in the
class. -/
theorem takeWhile_append_apart {p : Char → Bool} {text rest : List Char}
    (all : ∀ c ∈ text, p c = true) (space : p ' ' = false) (apart : Apart rest) :
    (text ++ rest).takeWhile p = text ∧ (text ++ rest).dropWhile p = rest := by
  rw [List.takeWhile_append_of_pos all, List.dropWhile_append_of_pos all]
  cases rest with
  | nil => simp
  | cons c rest =>
    obtain rfl : c = ' ' := apart c rfl
    simp [space]

/-- The characters that start a name are no digits. -/
private theorem isDigit_of_startsName {c : Char} (h : startsName c = true) : c.isDigit = false := by
  rw [← Bool.not_eq_true]
  intro digit
  simp only [Char.isDigit, Bool.and_eq_true, decide_eq_true_eq] at digit
  rcases Bool.or_eq_true_iff.1 h with alpha | underscore
  · rcases Bool.or_eq_true_iff.1 (show (c.isUpper || c.isLower) = true from alpha) with
      upper | lower
    · exact absurd (UInt32.le_trans (of_decide_eq_true upper).1 digit.2) (by decide)
    · have least := of_decide_eq_true (Bool.and_eq_true_iff.1 lower).1
      exact absurd (UInt32.le_trans least digit.2) (by decide)
  · rw [eq_of_beq underscore] at digit
    exact absurd digit.2 (by decide)

/-- A quote starts no name. -/
private theorem startsName_of_isQuote {c : Char} (h : isQuote c = true) : startsName c = false := by
  simp only [isQuote, Bool.or_eq_true, beq_iff_eq] at h
  rcases h with rfl | rfl <;> decide

/-- A quote is no digit. -/
private theorem isDigit_of_isQuote {c : Char} (h : isQuote c = true) : c.isDigit = false := by
  simp only [isQuote, Bool.or_eq_true, beq_iff_eq] at h
  rcases h with rfl | rfl <;> decide

/-- The characters that start a lexeme other than a bracket, a comma or an operator are no white
space. -/
private theorem isSpace_of_starts {c : Char}
    (h : c.isDigit = true ∨ isQuote c = true ∨ startsName c = true) : isSpace c = false := by
  rw [← Bool.not_eq_true]
  intro space
  simp only [isSpace, Bool.or_eq_true, beq_iff_eq] at space
  rcases space with (((rfl | rfl) | rfl) | rfl) | rfl <;> revert h <;> decide

/-- A character that starts a name may also go on with one. -/
theorem continuesName_of_startsName {c : Char} (h : startsName c = true) :
    continuesName c = true := by
  simp only [startsName, Bool.or_eq_true] at h
  rcases h with h | h <;> simp [continuesName, Char.isAlphanum, h]

/-- All characters of an identifier may go on with a name. -/
theorem Identifier.continuesName_text (i : Identifier) :
    ∀ c ∈ i.first :: i.more, continuesName c = true := by
  intro c member
  rcases List.mem_cons.1 member with rfl | member
  · exact continuesName_of_startsName i.startsName_first
  · exact i.continuesName_more c member

/-! What is read is told by the first character. -/

/-- A digit starts a number. -/
theorem scan?_of_isDigit {c : Char} (digit : c.isDigit = true) (rest : List Char) :
    scan? (c :: rest) = some (scanNumber (c :: rest)) := by
  rw [scan?, if_pos digit]

/-- A quote starts a text. -/
theorem scan?_of_isQuote {c : Char} (quote : isQuote c = true) (rest : List Char) :
    scan? (c :: rest) = scanText? c rest := by
  rw [scan?, if_neg (by simp [isDigit_of_isQuote quote]), if_pos quote]

/-- A letter or an underscore starts a name. -/
theorem scan?_of_startsName {c : Char} (starts : startsName c = true) (rest : List Char) :
    scan? (c :: rest) = some (scanName (c :: rest)) := by
  have quote : isQuote c = false := by
    rw [← Bool.not_eq_true]
    intro quote
    rw [startsName_of_isQuote quote] at starts
    cases starts
  rw [scan?, if_neg (by simp [isDigit_of_startsName starts]), if_neg (by simp [quote]),
    if_pos starts]

/-- The digits of a literal are read up to its end. -/
private theorem scanNumber_append (l : DecimalLiteral) {rest : List Char} (apart : Apart rest) :
    scanNumber (l.lexeme.text ++ rest) = l.lexeme := by
  obtain ⟨whole, fraction, -, digits, more⟩ := l
  cases fraction with
  | none =>
    have split := takeWhile_append_apart digits (by decide) apart
    rw [scanNumber, DecimalLiteral.lexeme]
    simp only [Option.elim, List.append_nil, split]
    cases rest with
    | nil => rfl
    | cons c rest =>
      obtain rfl : c = ' ' := apart c rfl
      rfl
  | some fraction =>
    have split := takeWhile_append_apart (more fraction rfl) (by decide) apart
    simp [DecimalLiteral.lexeme, DecimalLiteral.value, scanNumber,
      List.takeWhile_append_of_pos digits, List.dropWhile_append_of_pos digits, split]

/-- A literal is read back. -/
theorem DecimalLiteral.separable (l : DecimalLiteral) : l.lexeme.Separable := by
  obtain ⟨c, more, whole⟩ := List.exists_cons_of_ne_nil l.whole_ne_nil
  have digit : c.isDigit = true := l.isDigit_whole c (by simp [whole])
  have text : l.lexeme.text = c :: (more ++ l.fraction.elim [] ('.' :: ·)) := by
    simp [lexeme, whole]
  refine ⟨⟨c, _, text, isSpace_of_starts (.inl digit)⟩, fun rest apart ↦ ?_⟩
  have number := scanNumber_append l apart
  rw [text, List.cons_append] at number ⊢
  rw [scan?_of_isDigit digit, number]

/-- A quoted text is read back, whatever comes after it. -/
theorem Quotation.scan?_append (q : Quotation) (rest : List Char) :
    scan? (q.lexeme.text ++ rest) = some q.lexeme := by
  have body : ∀ c ∈ q.body, (c != q.quote) = true := by
    intro c member
    have : c ≠ q.quote := fun same ↦ q.quote_notMem_body (same ▸ member)
    simpa using this
  rw [lexeme, List.append_assoc, List.cons_append, scan?_of_isQuote q.isQuote_quote, scanText?]
  simp [List.takeWhile_append_of_pos body]

/-- A quoted text is read back whatever comes after it. -/
theorem Quotation.separable (q : Quotation) : q.lexeme.Separable :=
  ⟨⟨q.quote, _, rfl, isSpace_of_starts (.inr (.inl q.isQuote_quote))⟩,
    fun rest _ ↦ q.scan?_append rest⟩

/-- A name is read back. -/
theorem Identifier.separable (i : Identifier) : i.lexeme.Separable := by
  have starts := i.startsName_first
  refine ⟨⟨i.first, _, rfl, isSpace_of_starts (.inr (.inr starts))⟩, fun rest apart ↦ ?_⟩
  have split := takeWhile_append_apart i.continuesName_text (by decide) apart
  rw [lexeme, List.cons_append, scan?_of_startsName starts, scanName, ← List.cons_append, split.1,
    text]

/-- An operator is read back: none with a longer spelling goes on with a space. -/
theorem Operator.separable (op : Operator) : op.lexeme.Separable := by
  refine ⟨?_, fun rest apart ↦ ?_⟩
  · cases op <;> exact ⟨_, _, rfl, by decide⟩
  · cases rest with
    | nil => cases op <;> rfl
    | cons c rest =>
      obtain rfl : c = ' ' := apart c rfl
      cases op <;> rfl

/-- Brackets and commas are read back, whatever comes after them. -/
theorem separable_opening : opening.Separable :=
  ⟨⟨_, _, rfl, by decide⟩, fun _ _ ↦ rfl⟩

/-- A closing bracket is read back whatever comes after it. -/
theorem separable_closing : closing.Separable :=
  ⟨⟨_, _, rfl, by decide⟩, fun _ _ ↦ rfl⟩

/-- A comma is read back whatever comes after it. -/
theorem separable_separator : separator.Separable :=
  ⟨⟨_, _, rfl, by decide⟩, fun _ _ ↦ rfl⟩

/-! ### Spaced lexemes -/

/-- The tokens of lexemes that have one character between each two, the first at `start`. -/
def placed : Nat → List Lexeme → List Token
  | _, [] => []
  | start, l :: rest => ⟨l.symbol, start⟩ :: placed (start + (width l.text + 1)) rest

private theorem extent_cons (l : Lexeme) (rest : List Lexeme) :
    extent (l :: rest) = width l.text + 1 + extent rest := rfl

/-- The extent of lexemes adds up. -/
theorem extent_append (first second : List Lexeme) :
    extent (first ++ second) = extent first + extent second := by
  induction first with
  | nil => exact (Nat.zero_add _).symm
  | cons l rest ih =>
    rw [List.cons_append, extent_cons, ih, extent_cons]
    omega

/-- Lexemes that come later are placed after the extent of those before them. -/
theorem placed_append (start : Nat) (first second : List Lexeme) :
    placed start (first ++ second) =
      placed start first ++ placed (start + extent first) second := by
  induction first generalizing start with
  | nil => rfl
  | cons l rest ih =>
    simp only [List.cons_append, placed, ih, extent_cons]
    rw [Nat.add_assoc start]

/-- Placing lexemes makes one token of each. -/
theorem length_placed (start : Nat) (lexemes : List Lexeme) :
    (placed start lexemes).length = lexemes.length := by
  induction lexemes generalizing start with
  | nil => rfl
  | cons l rest ih => simp only [placed, List.length_cons, ih]

/-- A lexeme at the start of a text is read first, if the rest stands apart. -/
private theorem Lexeme.Separable.tokensFrom {l : Lexeme} (h : l.Separable) (start : Nat)
    {rest : List Char} (apart : Apart rest) :
    tokensFrom start (l.text ++ rest) =
      (Expression.tokensFrom (start + width l.text) rest).map (⟨l.symbol, start⟩ :: ·) := by
  obtain ⟨c, more, text, space⟩ := h.starts
  have found := h.scan? rest apart
  have after : (l.text ++ rest).drop l.text.length = rest := List.drop_left
  rw [text, List.cons_append] at found
  have read := tokensFrom_lexeme start space found
  rw [← List.cons_append, ← text, after] at read
  exact read

/-- Spaced lexemes are read as themselves. -/
theorem tokensFrom_spaced {lexemes : List Lexeme} (all : ∀ l ∈ lexemes, l.Separable)
    (start : Nat) : tokensFrom start (spaced lexemes) = .ok (placed start lexemes) := by
  induction lexemes generalizing start with
  | nil => exact tokensFrom_nil start
  | cons l rest ih =>
    have first := all l (by simp)
    have others := ih (fun m member ↦ all m (by simp [member]))
    cases rest with
    | nil =>
      have apart : Apart [] := by simp [Apart]
      have read := first.tokensFrom start apart
      rw [List.append_nil, tokensFrom_nil] at read
      have text : spaced [l] = l.text := by simp [spaced]
      rw [text, read]
      rfl
    | cons m rest =>
      have apart : Apart (' ' :: spaced (m :: rest)) := by simp [Apart]
      have text : spaced (l :: m :: rest) = l.text ++ ' ' :: spaced (m :: rest) := by
        simp [spaced, List.intercalate_cons_cons]
      rw [text, first.tokensFrom start apart, tokensFrom_space _ _ (by decide), others]
      rfl

/-- A source of spaced lexemes has just the tokens of these lexemes. -/
theorem lex_spaced {lexemes : List Lexeme} (all : ∀ l ∈ lexemes, l.Separable) :
    lex (String.ofList (spaced lexemes)) =
      .ok ⟨placed 0 lexemes, width (spaced lexemes)⟩ := by
  rw [lex, String.toList_ofList, tokensFrom_spaced all]
  rfl

/-! ### The lexemes of a tree -/

/-- Brackets keep lexemes separable. -/
private theorem separable_bracket {lexemes : List Lexeme} (all : ∀ l ∈ lexemes, l.Separable)
    (bracketed : Bool) : ∀ l ∈ bracket bracketed lexemes, l.Separable := by
  cases bracketed with
  | false => exact all
  | true =>
    intro l member
    simp only [bracket, List.mem_cons, List.mem_append, List.mem_nil_iff, or_false] at member
    rcases member with (rfl | member) | rfl
    · exact separable_opening
    · exact all l member
    · exact separable_closing

mutual

/-- All lexemes of a tree are read back. -/
theorem Tree.separable : (t : Tree) → ∀ l ∈ t.lexemes, l.Separable
  | .number literal, l, member => by
    rw [List.mem_singleton.1 member]
    exact literal.separable
  | .bool b, l, member => by
    rw [List.mem_singleton.1 member]
    exact (Identifier.ofBool b).separable
  | .text quotation, l, member => by
    rw [List.mem_singleton.1 member]
    exact quotation.separable
  | .name identifier _, l, member => by
    rw [List.mem_singleton.1 member]
    exact identifier.separable
  | .not operand, l, member => by
    rw [Tree.lexemes, List.mem_cons] at member
    rcases member with rfl | member
    · exact Operator.separable _
    · exact separable_bracket operand.separable _ l member
  | .negate operand, l, member => by
    rw [Tree.lexemes, List.mem_cons] at member
    rcases member with rfl | member
    · exact Operator.separable _
    · exact separable_bracket operand.separable _ l member
  | .binary op left right, l, member => by
    rw [Tree.lexemes, List.mem_append, List.mem_cons] at member
    rcases member with member | rfl | member
    · exact separable_bracket left.separable _ l member
    · exact Operator.separable _
    · exact separable_bracket right.separable _ l member
  | .call function args, l, member => by
    rw [Tree.lexemes, List.mem_append, List.mem_cons, List.mem_cons, List.mem_singleton] at member
    rcases member with (rfl | rfl | member) | rfl
    · exact function.separable
    · exact separable_opening
    · exact separable_arguments args l member
    · exact separable_closing

/-- All lexemes of arguments are read back. -/
private theorem separable_arguments : (args : List Tree) → ∀ l ∈ argumentLexemes args, l.Separable
  | [], l, member => by
    rw [argumentLexemes] at member
    cases member
  | [t], l, member => t.separable l member
  | t :: u :: rest, l, member => by
    rw [argumentLexemes, List.mem_append, List.mem_cons] at member
    rcases member with member | rfl | member
    · exact t.separable l member
    · exact separable_separator
    · exact separable_arguments (u :: rest) l member

end

/-- The source of a tree is split into the lexemes of the tree. -/
theorem Tree.lex_source (t : Tree) :
    ∃ stop, lex t.source = .ok ⟨placed 0 t.lexemes, stop⟩ :=
  ⟨_, lex_spaced t.separable⟩

end StoryEngine.Expression
