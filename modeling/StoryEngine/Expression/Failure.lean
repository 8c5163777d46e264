import StoryEngine.Expression.Token

/-!
# Failures

Why an expression has no value: a character that starts no token, tokens that do not fit the
grammar, or a well-formed expression that cannot be evaluated.

Specification: `SPEC_FULL.md` §7 (error taxonomy) and §10.2.
-/

namespace StoryEngine.Expression

/-- The three classes of failures. -/
inductive FailureClass where
  | lexical
  | grammatical
  | evaluation
deriving DecidableEq, Repr

/-- How a token stream departs from the grammar; `none` stands for its end. -/
inductive Fault where
  | unexpected (found : Option Symbol)
  | expectedClosing (found : Option Symbol)
  | expectedArgumentEnd (function : String) (found : Option Symbol)
  | nestedTooDeeply
deriving DecidableEq

/-- Why an expression has no value, with byte offsets into its source. -/
inductive Failure where
  | badCharacter (char : Char) (position : Nat)
  | badGrammar (fault : Fault) (position : Nat)
  | unknownOperator (operator : Operator) (position : Nat)
  | unknownFunction (name : String) (position : Nat)
  | notANumber (text : String)
deriving DecidableEq

namespace Fault

/-- The wording of a departure from the grammar. -/
def message : Fault → String
  | unexpected found => "unexpected " ++ Symbol.describeFound found
  | expectedClosing found => "expected ')' but found " ++ Symbol.describeFound found
  | expectedArgumentEnd function found =>
      "expected ',' or ')' in call to " ++ function ++ " but found " ++
        Symbol.describeFound found
  | nestedTooDeeply => "expression nested too deeply"

end Fault

namespace Failure

/-- The class of a failure. Specification: §7 (error taxonomy). -/
def group : Failure → FailureClass
  | badCharacter .. => .lexical
  | badGrammar .. => .grammatical
  | unknownOperator .. | unknownFunction .. | notANumber .. => .evaluation

/-- The place of a failure in the source; a failed conversion has none. -/
def position? : Failure → Option Nat
  | badCharacter _ position => some position
  | badGrammar _ position => some position
  | unknownOperator _ position => some position
  | unknownFunction _ position => some position
  | notANumber _ => none

/-- The wording of a failure. -/
def message : Failure → String
  | badCharacter char position =>
      "unexpected character '" ++ char.toString ++ "' at position " ++ toString position
  | badGrammar fault position =>
      "syntax error at position " ++ toString position ++ ": " ++ fault.message
  | unknownOperator operator position =>
      "unknown operator '" ++ operator.text ++ "' at position " ++ toString position
  | unknownFunction name position =>
      "unknown function '" ++ name ++ "' at position " ++ toString position
  | notANumber text => "cannot convert '" ++ text ++ "' to a number"

end Failure

end StoryEngine.Expression
