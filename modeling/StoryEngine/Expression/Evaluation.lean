import StoryEngine.Expression.Builtin
import StoryEngine.Expression.Lexer

/-!
# Evaluation

Evaluates an expression in one pass over its tokens: each part is evaluated as soon as it is
read, operators by their binding strengths. Both operands of every operator are evaluated.

The nesting of an expression is limited. The functions here take the room that is left: the
number of constructs that may still be opened inside the current one. Opening a construct is
passing to the next smaller room, and with no room left it fails at the place ahead.

Specification: `SPEC_FULL.md` §4.1 (grammar, literals and identifiers, operator semantics). The
limit on the nesting goes beyond it, and a text may be the value of an expression as well.
-/

namespace StoryEngine.Expression

/-- How deep an expression may be nested. -/
def nestingLimit : Nat := 64

/-- The value of an operator between two evaluated operands. Specification: §4.1 (binary operator
semantics). -/
def Operator.apply (op : Operator) (left right : Value) (position : Nat) :
    Except Failure Value :=
  match op with
  | add => arithmetic (· + ·)
  | sub => arithmetic (· - ·)
  | mul => arithmetic (· * ·)
  | div => arithmetic fun x y ↦ if y == 0 then 0 else x / y
  | mod => arithmetic fun x y ↦ if y == 0 then 0 else Number.modulo x y
  | less => comparison fun x y ↦ x < y
  | greater => comparison fun x y ↦ y < x
  | atMost => comparison fun x y ↦ x ≤ y
  | atLeast => comparison fun x y ↦ y ≤ x
  | equal => .ok (.bool (left.same right))
  | unequal => .ok (.bool (!left.same right))
  | and => .ok (.bool (left.isTrue && right.isTrue))
  | or => .ok (.bool (left.isTrue || right.isTrue))
  | not => .error (.unknownOperator op position)
where
  /-- Both operands as numbers, the left one first. -/
  numbers : Except Failure (Float × Float) := do
    let x ← left.toNumber
    let y ← right.toNumber
    return (x, y)
  /-- An operator with a number as its value. -/
  arithmetic (f : Float → Float → Float) : Except Failure Value :=
    numbers.map fun (x, y) ↦ .number (f x y)
  /-- An operator with a truth value as its value. -/
  comparison (f : Float → Float → Bool) : Except Failure Value :=
    numbers.map fun (x, y) ↦ .bool (f x y)

/-- The value of a name that is not called: a truth value or a variable. Specification: §4.1
(identifier resolution). -/
def nameValue (query : Query) : String → Value
  | "true" => .bool true
  | "false" => .bool false
  | name => .number (query.value name)

/-- The arguments of a call, after the opening bracket and up to the closing one. The number of
rounds is bounded by the number of tokens. -/
def argumentsWithin (nested : Step Value) (name : String) : Nat → Step (List Value)
  | 0 => pure []
  | rounds + 1 => do
      let value ← nested
      let position ← Step.position
      match ← Step.read? with
      | some .comma => (value :: ·) <$> argumentsWithin nested name rounds
      | some .rightParen => return [value]
      | found => throw (.badGrammar (.expectedArgumentEnd name found) position)

/-- A call from its opening bracket on. The arguments are evaluated before the function is looked
up. -/
def call (query : Query) (nested : Step Value) (name : String) (position : Nat) : Step Value := do
  let _ ← Step.read?
  let args ←
    if (← Step.ahead?) = some .rightParen then do
      let _ ← Step.read?
      pure []
    else argumentsWithin nested name ((← Step.remaining) + 1)
  match Builtin.ofName? name with
  | some function => function.apply query args
  | none => throw (.unknownFunction name position)

/-- A literal, a name, a call or an expression in brackets. -/
def primary (query : Query) (nested : Step Value) : Step Value := do
  let position ← Step.position
  match ← Step.read? with
  | some (.number x) => return .number x
  | some (.text s) => return .text s
  | some (.name name) =>
      if (← Step.ahead?) = some .leftParen then call query nested name position
      else return nameValue query name
  | some .leftParen => do
      let value ← nested
      match ← Step.ahead? with
      | some .rightParen => do
          let _ ← Step.read?
          return value
      | found => Step.fault (.expectedClosing found)
  | found => throw (.badGrammar (.unexpected found) position)

/-- The operators that bind at least as tightly as `least`, applied from the left to the value read
so far. The number of rounds is bounded by the number of tokens. Specification: §4.1 (grammar). -/
def climbWithin (operand : Nat → Step Value) (least : Nat) (left : Value) : Nat → Step Value
  | 0 => return left
  | rounds + 1 => do
      let position ← Step.position
      match ← Step.ahead? with
      | some (.operator op) =>
          if op.precedence < least then return left
          else do
            let _ ← Step.read?
            let right ← operand (op.precedence + 1)
            let value ← Step.ofExcept (op.apply left right position)
            climbWithin operand least value rounds
      | _ => return left

/-- An operand and the operators after it that bind at least as tightly as `least`. -/
def climb (first : Step Value) (operand : Nat → Step Value) (least : Nat) : Step Value := do
  let left ← first
  climbWithin operand least left (← Step.remaining)

/-- A primary after any operators that stand before one operand; `inner` reads the operand of such
an operator. Specification: §4.1 (grammar). -/
def prefixed (inner primary : Step Value) : Step Value := do
  match ← Step.ahead? with
  | some (.operator .not) => do
      let _ ← Step.read?
      return .bool !(← inner).isTrue
  | some (.operator .sub) => do
      let _ ← Step.read?
      return .number (-(← Step.ofExcept (← inner).toNumber))
  | _ => primary

mutual

/-- An expression whose operators bind at least as tightly as `least`. -/
def expression (query : Query) : Nat → Nat → Step Value
  | 0, _ => Step.fault .nestedTooDeeply
  | room + 1, least => climb (unary query room) (expression query room) least

/-- An operand with the operators before it. -/
def unary (query : Query) : Nat → Step Value
  | 0 =>
      prefixed (Step.fault .nestedTooDeeply) (primary query (Step.fault .nestedTooDeeply))
  | room + 1 =>
      prefixed (unary query room)
        (primary query (climb (unary query room) (expression query room) 0))

end

/-- The value of a token stream: an empty one is zero, and any other must be one expression. -/
def evaluateTokens (query : Query) : Step Value := do
  if (← Step.ahead?).isNone then return .number 0
  else do
    let value ← expression query nestingLimit 0
    match ← Step.ahead? with
    | none => return value
    | found => Step.fault (.unexpected found)

/-- The value of an expression, or why it has none, and the draws left. -/
def evaluate (source : String) (query : Query) (draws : Draws) :
    Except Failure Value × Draws :=
  match lex source with
  | .error e => (.error e, draws)
  | .ok stream =>
      match (evaluateTokens query).run ⟨stream.tokens, stream.stop, draws⟩ with
      | .ok value c => (.ok value, c.draws)
      | .error e c => (.error e, c.draws)

end StoryEngine.Expression
