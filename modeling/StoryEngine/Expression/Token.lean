import StoryEngine.Expression.Operator
import StoryEngine.Number.Shortest

/-!
# Tokens

What an expression is made of. The end of an expression is no token of its own; a token stream
records where it lies.

Specification: `SPEC_FULL.md` §3 (token) and §4.1 (token rules).
-/

namespace StoryEngine.Expression

/-- A terminal symbol of the grammar, with its value where it has one. -/
inductive Symbol where
  | number (value : Float)
  | text (value : String)
  | name (value : String)
  | operator (value : Operator)
  | leftParen
  | rightParen
  | comma
deriving DecidableEq

/-- A symbol in a source, with the byte offset of its first character. -/
structure Token where
  symbol : Symbol
  position : Nat
deriving DecidableEq

/-- The tokens of a source in order, and its length in bytes, at which the stream ends. -/
structure TokenStream where
  tokens : List Token
  stop : Nat
deriving DecidableEq

namespace Symbol

/-- How a message refers to a symbol. -/
def describe : Symbol → String
  | number x => "number " ++ Number.text x
  | text s => "string '" ++ s ++ "'"
  | name s => "identifier '" ++ s ++ "'"
  | operator op => "operator '" ++ op.text ++ "'"
  | leftParen => "'('"
  | rightParen => "')'"
  | comma => "','"

/-- How a message refers to what stands at a place: a symbol, or the end of the stream. -/
def describeFound : Option Symbol → String
  | some symbol => symbol.describe
  | none => "end of input"

end Symbol

end StoryEngine.Expression
