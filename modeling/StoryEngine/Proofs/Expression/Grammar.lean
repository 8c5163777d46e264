import StoryEngine.Proofs.Expression.Tree

/-!
# The grammar

The sentences of the language as they are written, told apart from how they are read:

    phrase    := operand (connective operand)*
    operand   := ('!' | '-') operand | number | text | name | '(' phrase ')'
               | name '(' ')' | name '(' arguments ')'
    arguments := phrase (',' phrase)*

The grammar does not know how tightly operators bind. That only counts for the nesting of a phrase:
an operator waits for its right operand until one comes that binds no tighter.
-/

namespace StoryEngine.Expression

mutual

/-- Operands with connectives between them. -/
inductive Phrase where
  | mk (first : Operand) (rest : Chain)

/-- Connectives, each with the operand after it. -/
inductive Chain where
  | nil
  | cons (op : Connective) (operand : Operand) (rest : Chain)

/-- What stands between two connectives. -/
inductive Operand where
  | number (value : Float)
  | text (value : String)
  | name (value : String)
  | not (operand : Operand)
  | negate (operand : Operand)
  | brackets (inner : Phrase)
  | emptyCall (function : String)
  | call (function : String) (args : Arguments)

/-- Arguments with commas between them. -/
inductive Arguments where
  | last (phrase : Phrase)
  | cons (phrase : Phrase) (rest : Arguments)

end

/-! ### Symbols -/

mutual

/-- The symbols of a phrase. -/
def Phrase.symbols : Phrase → List Symbol
  | .mk first rest => first.symbols ++ rest.symbols

/-- The symbols of a chain. -/
def Chain.symbols : Chain → List Symbol
  | .nil => []
  | .cons op operand rest => .operator op.1 :: (operand.symbols ++ rest.symbols)

/-- The symbols of an operand. -/
def Operand.symbols : Operand → List Symbol
  | .number x => [.number x]
  | .text s => [.text s]
  | .name n => [.name n]
  | .not operand => .operator .not :: operand.symbols
  | .negate operand => .operator .sub :: operand.symbols
  | .brackets inner => .leftParen :: (inner.symbols ++ [.rightParen])
  | .emptyCall function => [.name function, .leftParen, .rightParen]
  | .call function args => .name function :: .leftParen :: (args.symbols ++ [.rightParen])

/-- The symbols of arguments. -/
def Arguments.symbols : Arguments → List Symbol
  | .last phrase => phrase.symbols
  | .cons phrase rest => phrase.symbols ++ .comma :: rest.symbols

end

/-- The symbols of a stream in order. -/
def TokenStream.symbols (stream : TokenStream) : List Symbol :=
  stream.tokens.map Token.symbol

/-- No symbols at all, or those of a phrase. -/
def Grammatical (symbols : List Symbol) : Prop :=
  symbols = [] ∨ ∃ p : Phrase, p.symbols = symbols

/-! ### Nesting -/

/-- The strengths of the connectives that wait for their right operands once one of strength `p`
has come: those that bind tighter than it or as tightly have theirs. -/
def awaiting (p : Nat) (waiting : List Nat) : List Nat :=
  p :: waiting.dropWhile (p ≤ ·)

mutual

/-- How many constructs are open at once in a phrase: the phrase itself, operators before an
operand that wait for it, connectives that wait for their right operands, and what is open in
brackets and arguments. -/
def Phrase.nesting : Phrase → Nat
  | .mk first rest => max first.nesting (rest.nesting []) + 1

/-- How many constructs are open at once in a chain before which the connectives of the strengths
`waiting` wait for their right operands, the last of them first. -/
def Chain.nesting : Chain → List Nat → Nat
  | .nil, _ => 0
  | .cons op operand rest, waiting =>
      let waiting := awaiting op.1.precedence waiting
      max (waiting.length + operand.nesting) (rest.nesting waiting)

/-- How many constructs are open at once in an operand. -/
def Operand.nesting : Operand → Nat
  | .number _ | .text _ | .name _ | .emptyCall _ => 0
  | .not operand | .negate operand => operand.nesting + 1
  | .brackets inner => inner.nesting
  | .call _ args => args.nesting

/-- How many constructs are open at once in arguments. -/
def Arguments.nesting : Arguments → Nat
  | .last phrase => phrase.nesting
  | .cons phrase rest => max phrase.nesting rest.nesting

end

/-- While `c` is read in `a || b && c`, both connectives wait for their right operands. -/
example : Phrase.nesting (.mk (.name "a") (.cons ⟨.or, by decide⟩ (.name "b")
    (.cons ⟨.and, by decide⟩ (.name "c") .nil))) = 3 := by decide

/-- No symbols at all, or those of a phrase that is nested no deeper than `limit`. -/
def GrammaticalWithin (limit : Nat) (symbols : List Symbol) : Prop :=
  symbols = [] ∨ ∃ p : Phrase, p.symbols = symbols ∧ p.nesting ≤ limit

/-- The chain with another after it. -/
def Chain.append : Chain → Chain → Chain
  | .nil, second => second
  | .cons op operand rest, second => .cons op operand (rest.append second)

/-- The symbols of two chains, one after the other. -/
theorem Chain.symbols_append (first second : Chain) :
    (first.append second).symbols = first.symbols ++ second.symbols := by
  match first with
  | .nil => rfl
  | .cons op operand rest =>
    simp only [append, symbols, rest.symbols_append second, List.append_assoc, List.cons_append]

end StoryEngine.Expression
