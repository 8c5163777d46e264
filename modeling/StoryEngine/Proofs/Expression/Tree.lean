import StoryEngine.Expression.Evaluation

/-!
# Syntax trees

The trees that expressions stand for. A tree is written as a source with its tokens separated by
spaces and with brackets only where the binding strengths ask for them, and it has a value of its
own: the parts are evaluated first, from left to right, and then what joins them.
-/

namespace StoryEngine.Expression

/-- The digits of a number, with a point and the digits after it if there is one. -/
structure DecimalLiteral where
  whole : List Char
  fraction : Option (List Char)
  whole_ne_nil : whole ≠ []
  isDigit_whole : ∀ c ∈ whole, c.isDigit = true
  isDigit_fraction : ∀ digits ∈ fraction, ∀ c ∈ digits, c.isDigit = true

/-- A text between two quotes of one kind, which the text does not contain. -/
structure Quotation where
  quote : Char
  body : List Char
  isQuote_quote : isQuote quote = true
  quote_notMem_body : quote ∉ body

/-- The characters of a name. -/
structure Identifier where
  first : Char
  more : List Char
  startsName_first : startsName first = true
  continuesName_more : ∀ c ∈ more, continuesName c = true

/-- An operator that stands between two operands. -/
abbrev Connective := { op : Operator // op ≠ .not }

namespace DecimalLiteral

/-- The number that the digits denote. -/
def value (l : DecimalLiteral) : Float :=
  Number.ofDecimal l.whole (l.fraction.getD []) 0

/-- How the number is written. -/
def lexeme (l : DecimalLiteral) : Lexeme :=
  ⟨.number l.value, l.whole ++ l.fraction.elim [] ('.' :: ·)⟩

end DecimalLiteral

/-- How the text is written. -/
def Quotation.lexeme (q : Quotation) : Lexeme :=
  ⟨.text (String.ofList q.body), q.quote :: q.body ++ [q.quote]⟩

namespace Identifier

/-- The name as a text. -/
def text (i : Identifier) : String :=
  String.ofList (i.first :: i.more)

/-- How the name is written. -/
def lexeme (i : Identifier) : Lexeme :=
  ⟨.name i.text, i.first :: i.more⟩

/-- The name of a truth value. -/
def ofBool : Bool → Identifier
  | true => ⟨'t', ['r', 'u', 'e'], by decide, List.all_eq_true.1 (by decide)⟩
  | false => ⟨'f', ['a', 'l', 's', 'e'], by decide, List.all_eq_true.1 (by decide)⟩

end Identifier

/-- How an operator is written. -/
def Operator.lexeme (op : Operator) : Lexeme :=
  ⟨.operator op, op.spelling⟩

/-- The opening bracket. -/
def opening : Lexeme := ⟨.leftParen, ['(']⟩

/-- The closing bracket. -/
def closing : Lexeme := ⟨.rightParen, [')']⟩

/-- The comma between two arguments. -/
def separator : Lexeme := ⟨.comma, [',']⟩

/-- An expression as a tree. -/
inductive Tree where
  | number (literal : DecimalLiteral)
  | bool (b : Bool)
  | text (quotation : Quotation)
  | name (identifier : Identifier) (free : ∀ b, identifier.text ≠ (Identifier.ofBool b).text)
  | not (operand : Tree)
  | negate (operand : Tree)
  | binary (op : Connective) (left right : Tree)
  | call (function : Identifier) (args : List Tree)

/-! ### The source of a tree -/

/-- Lexemes with brackets around them if they need some. -/
def bracket : Bool → List Lexeme → List Lexeme
  | true, lexemes => opening :: lexemes ++ [closing]
  | false, lexemes => lexemes

/-- Whether the outermost operator of a tree stands between two operands and binds less tightly
than `least`. A tree without such an operator never does. -/
def Tree.looserThan (least : Nat) : Tree → Bool
  | binary op _ _ => op.1.precedence < least
  | _ => false

mutual

/-- The lexemes of a tree. An operand has brackets where its own operator would otherwise be read
as the outer one. -/
def Tree.lexemes : Tree → List Lexeme
  | .number literal => [literal.lexeme]
  | .bool b => [(Identifier.ofBool b).lexeme]
  | .text quotation => [quotation.lexeme]
  | .name identifier _ => [identifier.lexeme]
  | .not operand =>
      Operator.not.lexeme :: bracket (operand.looserThan Operator.not.precedence) operand.lexemes
  | .negate operand =>
      Operator.sub.lexeme :: bracket (operand.looserThan Operator.not.precedence) operand.lexemes
  | .binary op left right =>
      bracket (left.looserThan op.1.precedence) left.lexemes ++
        op.1.lexeme :: bracket (right.looserThan (op.1.precedence + 1)) right.lexemes
  | .call function args => function.lexeme :: opening :: argumentLexemes args ++ [closing]

/-- The lexemes of arguments, with a comma between each two. -/
def argumentLexemes : List Tree → List Lexeme
  | [] => []
  | [t] => t.lexemes
  | t :: u :: rest => t.lexemes ++ separator :: argumentLexemes (u :: rest)

end

/-- The text of lexemes with a space between each two. -/
def spaced (lexemes : List Lexeme) : List Char :=
  [' '].intercalate (lexemes.map Lexeme.text)

/-- The source of a tree. -/
def Tree.source (t : Tree) : String :=
  String.ofList (spaced t.lexemes)

/-! ### The nesting of a tree -/

/-- One more level if there are brackets. -/
def inBrackets (bracketed : Bool) (level : Nat) : Nat :=
  if bracketed then level + 1 else level

mutual

/-- How many constructs are open at once inside a tree: brackets, arguments, operands after an
operator that stands before them, and right operands. -/
def Tree.level : Tree → Nat
  | .number _ | .bool _ | .text _ | .name _ _ => 0
  | .not operand | .negate operand =>
      inBrackets (operand.looserThan Operator.not.precedence) operand.level + 1
  | .binary op left right =>
      max (inBrackets (left.looserThan op.1.precedence) left.level)
        (inBrackets (right.looserThan (op.1.precedence + 1)) right.level + 1)
  | .call _ args => argumentsLevel args

/-- How many constructs are open at once inside a list of arguments. -/
def argumentsLevel : List Tree → Nat
  | [] => 0
  | t :: rest => max (t.level + 1) (argumentsLevel rest)

end

/-- The nesting that the source of a tree needs: the expression itself, and what is open in it. -/
def Tree.nesting (t : Tree) : Nat :=
  t.level + 1

/-! ### The value of a tree -/

/-- A computation that makes draws and may fail, keeping the draws made before. -/
abbrev Drawing (α : Type) := EStateM Failure Draws α

/-- What a connective computes: a number or a truth value from two numbers, or a truth value from
two values as they are or from their readings as truth values. -/
inductive Rule where
  | arithmetic (f : Float → Float → Float)
  | comparison (f : Float → Float → Bool)
  | equality (f : Value → Value → Bool)
  | logic (f : Bool → Bool → Bool)

/-- The rule of each connective. Dividing by zero gives zero. -/
def Connective.rule : Connective → Rule
  | ⟨.add, _⟩ => .arithmetic (· + ·)
  | ⟨.sub, _⟩ => .arithmetic (· - ·)
  | ⟨.mul, _⟩ => .arithmetic (· * ·)
  | ⟨.div, _⟩ => .arithmetic fun x y ↦ if y == 0 then 0 else x / y
  | ⟨.mod, _⟩ => .arithmetic fun x y ↦ if y == 0 then 0 else Number.modulo x y
  | ⟨.less, _⟩ => .comparison fun x y ↦ x < y
  | ⟨.greater, _⟩ => .comparison fun x y ↦ y < x
  | ⟨.atMost, _⟩ => .comparison fun x y ↦ x ≤ y
  | ⟨.atLeast, _⟩ => .comparison fun x y ↦ y ≤ x
  | ⟨.equal, _⟩ => .equality Value.same
  | ⟨.unequal, _⟩ => .equality fun a b ↦ !a.same b
  | ⟨.and, _⟩ => .logic (· && ·)
  | ⟨.or, _⟩ => .logic (· || ·)

namespace Drawing

/-- The value as a number. -/
def number (v : Value) : Drawing Float :=
  MonadExcept.ofExcept v.toNumber

/-- Applies a rule to two values. Where it needs numbers, the left value is read as one before
the right. -/
def applyRule (left right : Value) : Rule → Drawing Value
  | .arithmetic f => do
      let x ← number left
      let y ← number right
      return .number (f x y)
  | .comparison f => do
      let x ← number left
      let y ← number right
      return .bool (f x y)
  | .equality f => return .bool (f left right)
  | .logic f => return .bool (f left.isTrue right.isTrue)

/-- A step taken where no tokens are ahead. -/
def ofStep {α : Type} (x : Step α) : Drawing α := fun draws ↦
  match x ⟨[], 0, draws⟩ with
  | .ok a c => .ok a c.draws
  | .error e c => .error e c.draws

/-- Calls the function of a name that stands at `position`, if there is one. -/
def call (query : Query) (name : String) (position : Nat) (args : List Value) : Drawing Value :=
  match Builtin.ofName? name with
  | some function => ofStep (function.apply query args)
  | none => throw (.unknownFunction name position)

end Drawing

/-- How far the text of lexemes moves what comes after them and a space. -/
def extent (lexemes : List Lexeme) : Nat :=
  lexemes.foldr (fun l n ↦ width l.text + 1 + n) 0

/-- Where the text inside brackets starts, if there are some. -/
def inside (bracketed : Bool) (start : Nat) : Nat :=
  if bracketed then start + extent [opening] else start

mutual

/-- The value of a tree whose text starts at `start`. Both operands are evaluated, the left one
first, and all arguments before the function is looked up; only the message about an unknown
function tells where its name stands. -/
def Tree.evaluate (query : Query) : Tree → Nat → Drawing Value
  | .number literal, _ => return .number literal.value
  | .bool b, _ => return .bool b
  | .text quotation, _ => return .text (String.ofList quotation.body)
  | .name identifier _, _ => return .number (query.value identifier.text)
  | .not operand, start => do
      let v ← operand.evaluate query
        (inside (operand.looserThan Operator.not.precedence) (start + extent [Operator.not.lexeme]))
      return .bool !v.isTrue
  | .negate operand, start => do
      let v ← operand.evaluate query
        (inside (operand.looserThan Operator.not.precedence) (start + extent [Operator.sub.lexeme]))
      return .number (-(← Drawing.number v))
  | .binary op left right, start => do
      let bracketed := left.looserThan op.1.precedence
      let x ← left.evaluate query (inside bracketed start)
      let y ← right.evaluate query (inside (right.looserThan (op.1.precedence + 1))
        (start + extent (bracket bracketed left.lexemes ++ [op.1.lexeme])))
      Drawing.applyRule x y op.rule
  | .call function args, start => do
      let values ← evaluateArguments query args (start + extent [function.lexeme, opening])
      Drawing.call query function.text start values

/-- The values of arguments whose text starts at `start`, from left to right. -/
def evaluateArguments (query : Query) : List Tree → Nat → Drawing (List Value)
  | [], _ => return []
  | t :: rest, start => do
      let v ← t.evaluate query start
      let values ← evaluateArguments query rest (start + extent (t.lexemes ++ [separator]))
      return v :: values

end

/-- The value of a tree, or why it has none, and the draws left. -/
def Tree.outcome (t : Tree) (query : Query) (draws : Draws) : Except Failure Value × Draws :=
  match t.evaluate query 0 draws with
  | .ok v draws => (.ok v, draws)
  | .error e draws => (.error e, draws)

end StoryEngine.Expression
