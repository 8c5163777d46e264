/-!
# Operators

The operators of the expression language with their spellings and binding strengths.

Specification: `SPEC_FULL.md` §4.1 (token rules and precedence table).
-/

namespace StoryEngine.Expression

/-- An operator. All but `not` stand between two operands; `not` and `sub` stand before one. -/
inductive Operator where
  | equal
  | unequal
  | atMost
  | atLeast
  | and
  | or
  | add
  | sub
  | mul
  | div
  | mod
  | less
  | greater
  | not
deriving DecidableEq, Repr

namespace Operator

/-- Binding strength: the higher binds tighter. Specification: §4.1 (grammar). -/
def precedence : Operator → Nat
  | or => 1
  | and => 2
  | equal | unequal => 3
  | less | greater | atMost | atLeast => 4
  | add | sub => 5
  | mul | div | mod => 6
  | not => 7

/-- The characters of the operator. -/
def spelling : Operator → List Char
  | equal => ['=', '=', '=']
  | unequal => ['!', '=', '=']
  | atMost => ['<', '=']
  | atLeast => ['>', '=']
  | and => ['&', '&']
  | or => ['|', '|']
  | add => ['+']
  | sub => ['-']
  | mul => ['*']
  | div => ['/']
  | mod => ['%']
  | less => ['<']
  | greater => ['>']
  | not => ['!']

/-- How the operator is written. -/
def text (op : Operator) : String :=
  String.ofList op.spelling

/-- All operators, the longer spellings first. -/
def all : List Operator :=
  [equal, unequal, atMost, atLeast, and, or, add, sub, mul, div, mod, less, greater, not]

/-- The operator with the longest spelling that the text starts with. -/
def starting? (text : List Char) : Option Operator :=
  all.find? fun op ↦ op.spelling.isPrefixOf text

end Operator

end StoryEngine.Expression
