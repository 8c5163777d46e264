import StoryEngine.Expression.Failure
import StoryEngine.Number.Numeral

/-!
# Lexer

Splits a source into tokens. At each place that is not white space the longest token that
starts there is read: digits with at most one point, a text up to the next quote of its kind, a
name, an operator, a bracket or a comma. `scan?` reads one token and `lex` all of them.

Specification: `SPEC_FULL.md` §4.1 (token rules).
-/

namespace StoryEngine.Expression

/-- White space between tokens: space, tab, line feed, form feed and carriage return. -/
def isSpace (c : Char) : Bool :=
  c == ' ' || c == '\t' || c == '\n' || c == '\x0c' || c == '\r'

/-- The characters that open and close a text. -/
def isQuote (c : Char) : Bool :=
  c == '\'' || c == '"'

/-- The characters that start a name: ASCII letters and the underscore. -/
def startsName (c : Char) : Bool :=
  c.isAlpha || c == '_'

/-- The characters that go on with a name: those that start one, digits and points. -/
def continuesName (c : Char) : Bool :=
  c.isAlphanum || c == '_' || c == '.'

/-- The length of a text in bytes. -/
def width (text : List Char) : Nat :=
  text.foldr (fun c n ↦ c.utf8Size + n) 0

/-- A token with the characters it was read from. -/
structure Lexeme where
  symbol : Symbol
  text : List Char

/-- Reads digits, then a point with the digits after it if one follows. -/
def scanNumber (text : List Char) : Lexeme :=
  let whole := text.takeWhile Char.isDigit
  match text.dropWhile Char.isDigit with
  | '.' :: rest =>
      let fraction := rest.takeWhile Char.isDigit
      ⟨.number (Number.ofDecimal whole fraction 0), whole ++ '.' :: fraction⟩
  | _ => ⟨.number (Number.ofDecimal whole [] 0), whole⟩

/-- Reads what follows an opening quote up to the next such quote, if there is one. -/
def scanText? (quote : Char) (rest : List Char) : Option Lexeme :=
  let body := rest.takeWhile (· != quote)
  if rest.contains quote then
    some ⟨.text (String.ofList body), quote :: body ++ [quote]⟩
  else none

/-- Reads a name. -/
def scanName (text : List Char) : Lexeme :=
  let name := text.takeWhile continuesName
  ⟨.name (String.ofList name), name⟩

/-- Reads the token that the text starts with, if any does. Specification: §4.1 (token rules). -/
def scan? : List Char → Option Lexeme
  | [] => none
  | c :: rest =>
      if c.isDigit then some (scanNumber (c :: rest))
      else if isQuote c then scanText? c rest
      else if startsName c then some (scanName (c :: rest))
      else if c == '(' then some ⟨.leftParen, [c]⟩
      else if c == ')' then some ⟨.rightParen, [c]⟩
      else if c == ',' then some ⟨.comma, [c]⟩
      else (Operator.starting? (c :: rest)).map fun op ↦ ⟨.operator op, op.spelling⟩

/-- A lexeme has at least one character. -/
theorem scan?_text_ne_nil {source : List Char} {lexeme : Lexeme}
    (h : scan? source = some lexeme) : lexeme.text ≠ [] := by
  cases source with
  | nil => simp [scan?] at h
  | cons c rest =>
    simp only [scan?] at h
    split at h
    · rename_i digit
      obtain rfl := Option.some.inj h
      simp only [scanNumber]
      split <;> simp [digit]
    split at h
    · simp only [scanText?] at h
      split at h
      · obtain rfl := Option.some.inj h
        simp
      · simp at h
    split at h
    · rename_i start
      obtain rfl := Option.some.inj h
      have : continuesName c = true := by
        simp only [startsName, Bool.or_eq_true] at start
        rcases start with h | h <;> simp [continuesName, Char.isAlphanum, h]
      simp [scanName, this]
    repeat' split at h
    iterate 3
      · obtain rfl := Option.some.inj h
        simp
    · obtain ⟨op, -, rfl⟩ := Option.map_eq_some_iff.1 h
      cases op <;> simp [Operator.spelling]

/-- The tokens of a source whose first character lies at `position`. -/
def tokensFrom (position : Nat) : List Char → Except Failure (List Token)
  | [] => .ok []
  | c :: rest =>
      if isSpace c then tokensFrom (position + c.utf8Size) rest
      else
        match h : scan? (c :: rest) with
        | none => .error (.badCharacter c position)
        | some lexeme =>
            have := List.length_pos_iff.2 (scan?_text_ne_nil h)
            (tokensFrom (position + width lexeme.text)
              ((c :: rest).drop lexeme.text.length)).map (⟨lexeme.symbol, position⟩ :: ·)
termination_by source => source.length
decreasing_by
  · simp
  · simp only [List.length_drop, List.length_cons]
    omega

/-- Splits a source into its tokens, or tells which character starts none. -/
def lex (source : String) : Except Failure TokenStream :=
  (tokensFrom 0 source.toList).map fun tokens ↦ ⟨tokens, width source.toList⟩

end StoryEngine.Expression
