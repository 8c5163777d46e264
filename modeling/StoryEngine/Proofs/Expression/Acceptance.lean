import StoryEngine.Proofs.Expression.Malformed
import StoryEngine.Proofs.Expression.Parsing

/-!
# What is grammatical is read

A phrase that is not nested too deeply is read to its end, unless a value cannot be computed. The
loops over connectives lie inside each other, one for each connective that waits for its right
operand, so the induction along a chain carries the stack of those that wait.

Specification: `SPEC_FULL.md` §4.1 (grammar).
-/

namespace StoryEngine.Expression

variable {α β : Type} {query : Query} {room rounds : Nat} {v : Value} {rest : List Symbol}

/-- A failure of an expression that fits the grammar: a function that there is not, or a text that
is no number. -/
def Failure.OfValues : Failure → Prop
  | .unknownFunction .. | .notANumber _ => True
  | _ => False

/-- Wherever the symbols `before` are ahead, the step `x` goes on until `after` is ahead, unless a
value cannot be computed. -/
def Passes (x : Step α) (before after : List Symbol) : Prop :=
  Triple Failure.OfValues before x fun _ ahead ↦ ahead = after

private theorem Passes.bind {x : Step α} {f : α → Step β} {before mid after : List Symbol}
    (first : Passes x before mid) (second : ∀ a, Passes (f a) mid after) :
    Passes (x >>= f) before after := by
  apply Triple.bind first
  rintro a _ rfl
  exact second a

/-- A result that does not depend on the cursor, and then a step. -/
private theorem Passes.ofExcept {r : Except Failure α} {f : α → Step β} {before after : List Symbol}
    (failed : ∀ e, r = .error e → ∃ s, e = .notANumber s) (next : ∀ a, Passes (f a) before after) :
    Passes (Step.ofExcept r >>= f) before after := by
  refine Passes.bind (Triple.ofExcept (fun e failure ↦ ?_) fun _ _ ↦ rfl) next
  obtain ⟨s, rfl⟩ := failed e failure
  trivial

/-! ### What may follow -/

/-- The symbols do not turn a name before them into a call. -/
def NoOpening (rest : List Symbol) : Prop :=
  rest.head? ≠ some .leftParen

/-- The symbols neither turn a name before them into a call nor go on with an operator. -/
def Halts (rest : List Symbol) : Prop :=
  NoOpening rest ∧ ∀ op, rest.head? ≠ some (.operator op)

private theorem halts_nil : Halts [] :=
  ⟨nofun, nofun⟩

private theorem halts_rightParen (rest : List Symbol) : Halts (.rightParen :: rest) :=
  ⟨nofun, nofun⟩

private theorem halts_comma (rest : List Symbol) : Halts (.comma :: rest) :=
  ⟨nofun, nofun⟩

/-- What comes after an operand in a phrase is no opening bracket. -/
private theorem Chain.noOpening (chain : Chain) (halts : Halts rest) :
    NoOpening (chain.symbols ++ rest) := by
  cases chain with
  | nil => exact halts.1
  | cons op operand chain => exact nofun

/-! ### Being read -/

/-- An operand is read to its end, whatever comes after it. -/
def Operand.Accepted (o : Operand) : Prop :=
  ∀ query room rest, o.nesting ≤ room → NoOpening rest →
    Passes (unary query room) (o.symbols ++ rest) rest

/-- A phrase is read to its end, where it halts. -/
def Phrase.Accepted (p : Phrase) : Prop :=
  ∀ query room rest, p.nesting ≤ room → Halts rest →
    Passes (expression query room 0) (p.symbols ++ rest) rest

/-- Arguments are read to their closing bracket. -/
def Arguments.Accepted (args : Arguments) : Prop :=
  ∀ query room name rounds rest, args.nesting ≤ room →
    (args.symbols ++ .rightParen :: rest).length ≤ rounds →
    Passes (argumentsWithin (expression query room 0) name rounds)
      (args.symbols ++ .rightParen :: rest) rest

/-! ### Loops inside each other -/

/-- A connective that waits for its right operand, with its left one, its place, and the rounds
that are left of the loop it was read in. -/
structure Pending where
  op : Connective
  left : Value
  position : Nat
  rounds : Nat

namespace Pending

/-- The strengths of the connectives that wait. -/
def strengths (stack : List Pending) : List Nat :=
  stack.map fun p ↦ p.op.1.precedence

/-- How tightly a connective must bind for the inner loop to take it. -/
def least : List Pending → Nat
  | [] => 0
  | p :: _ => p.op.1.precedence + 1

private theorem least_cons (p : Pending) (outer : List Pending) :
    least (p :: outer) = p.op.1.precedence + 1 := rfl

private theorem length_strengths (stack : List Pending) : (strengths stack).length = stack.length :=
  List.length_map _

private theorem awaiting_tight {stack : List Pending} {strength : Nat}
    (tight : least stack ≤ strength) :
    awaiting strength (strengths stack) = strength :: strengths stack := by
  cases stack with
  | nil => rfl
  | cons p outer =>
    rw [awaiting, strengths, List.map_cons, List.dropWhile_cons_of_neg]
    have tight : p.op.1.precedence < strength := tight
    simpa using tight

private theorem awaiting_loose {p : Pending} {outer : List Pending} {strength : Nat}
    (loose : strength ≤ p.op.1.precedence) :
    awaiting strength (strengths (p :: outer)) = awaiting strength (strengths outer) := by
  rw [awaiting, strengths, List.map_cons, List.dropWhile_cons_of_pos (by simpa using loose)]
  rfl

/-- What is done with the right operand of the last connective that waits: it is applied, and the
loop that it was read in goes on, and so the loops around that. -/
def settle (query : Query) (room : Nat) : List Pending → Value → Step Value
  | [], v => pure v
  | p :: outer, right => do
      let v ← Step.ofExcept (p.op.1.apply p.left right p.position)
      let right ← climbWithin (expression query (room - outer.length)) (least outer) v p.rounds
      settle query room outer right

/-- The inner loop with a value read so far, and then the loops around it. -/
def resume (query : Query) (room : Nat) (stack : List Pending) (v : Value) (rounds : Nat) :
    Step Value := do
  let right ← climbWithin (expression query (room - stack.length)) (least stack) v rounds
  settle query room stack right

end Pending

open Pending

/-- A chain is read to its end by the loops that it is read in. -/
def Chain.Accepted (chain : Chain) : Prop :=
  ∀ query room rest stack v rounds, chain.nesting (strengths stack) ≤ room → Halts rest →
    (chain.symbols ++ rest).length ≤ rounds →
    (∀ p ∈ stack, (chain.symbols ++ rest).length ≤ p.rounds) →
    Passes (resume query room stack v rounds) (chain.symbols ++ rest) rest

/-- A loop stops where no operator is ahead. -/
private theorem passes_climbWithin_halts {operand : Nat → Step Value} {least : Nat}
    (halts : Halts rest) :
    Passes (climbWithin operand least v rounds) rest rest := by
  cases rounds with
  | zero => exact Triple.pure rfl
  | succ rounds =>
    apply Triple.position
    intro place
    apply Triple.ahead
    split
    · next op found => exact absurd found (halts.2 op)
    · exact Triple.pure rfl

/-- A loop stops before an operator that binds too loosely. -/
private theorem passes_climbWithin_loose {operand : Nat → Step Value} {least : Nat} {op : Operator}
    (loose : op.precedence < least) :
    Passes (climbWithin operand least v rounds) (.operator op :: rest) (.operator op :: rest) := by
  cases rounds with
  | zero => exact Triple.pure rfl
  | succ rounds =>
    apply Triple.position
    intro place
    apply Triple.ahead
    simp only [List.head?_cons, if_pos loose]
    exact Triple.pure rfl

/-- All loops stop where no operator is ahead, and the connectives that wait are applied. -/
private theorem passes_resume_halts (halts : Halts rest) (stack : List Pending) :
    Passes (resume query room stack v rounds) rest rest := by
  induction stack generalizing v rounds with
  | nil => exact Passes.bind (passes_climbWithin_halts halts) fun v ↦ Triple.pure rfl
  | cons p outer ih =>
    apply Passes.bind (passes_climbWithin_halts halts)
    intro right
    exact Passes.ofExcept (fun _ ↦ p.op.apply_error) fun v ↦ ih

/-- The inner loop takes a connective that binds tightly enough, and reads its right operand in a
loop of its own. -/
private theorem passes_resume_tight {op : Connective} {stack : List Pending} {after : List Symbol}
    (tight : least stack ≤ op.1.precedence) (some : stack.length < room)
    (h : ∀ place, Passes (do
      let left ← unary query (room - (stack.length + 1))
      let n ← Step.remaining
      resume query room (⟨op, v, place, rounds⟩ :: stack) left n) rest after) :
    Passes (resume query room stack v (rounds + 1)) (.operator op.1 :: rest) after := by
  obtain ⟨inner, split⟩ := Nat.exists_eq_add_one.2 (Nat.sub_pos_of_lt some)
  have inner_eq : room - (stack.length + 1) = inner := by omega
  rw [resume, split, climbWithin, bind_assoc]
  apply Triple.position
  intro place
  rw [bind_assoc]
  apply Triple.ahead
  simp only [List.head?_cons, if_neg (Nat.not_lt.2 tight)]
  rw [bind_assoc]
  apply Triple.read_cons
  have h := h place
  -- the loop of its own is that of the expression which reads the right operand
  simp only [resume, settle, least_cons, List.length_cons, inner_eq, split] at h
  simp only [expression, climb, bind_assoc] at h ⊢
  exact h

/-- Before a connective that binds no tighter than the last one that waits, the inner loop stops,
and the one around it goes on. -/
private theorem passes_resume_loose {op : Connective} {p : Pending} {outer : List Pending}
    {after : List Symbol} (loose : op.1.precedence ≤ p.op.1.precedence)
    (h : ∀ v, Passes (resume query room outer v p.rounds) (.operator op.1 :: rest) after) :
    Passes (resume query room (p :: outer) v rounds) (.operator op.1 :: rest) after := by
  apply Passes.bind (passes_climbWithin_loose (Nat.lt_succ_of_le loose))
  intro right
  exact Passes.ofExcept (fun _ ↦ p.op.apply_error) h

private theorem Chain.accepted_nil : Chain.nil.Accepted :=
  fun _ _ _ stack _ _ _ halts _ _ ↦ passes_resume_halts halts stack

/-- A connective that the inner loop takes, and what comes after it. -/
private theorem passes_resume_cons {op : Connective} {operand : Operand} {chain : Chain}
    {stack : List Pending} (first : operand.Accepted) (more : chain.Accepted)
    (tight : least stack ≤ op.1.precedence) (halts : Halts rest)
    (level : (Chain.cons op operand chain).nesting (strengths stack) ≤ room)
    (enough : ((Chain.cons op operand chain).symbols ++ rest).length ≤ rounds)
    (others : ∀ p ∈ stack, ((Chain.cons op operand chain).symbols ++ rest).length ≤ p.rounds) :
    Passes (resume query room stack v rounds) ((Chain.cons op operand chain).symbols ++ rest)
      rest := by
  rw [Chain.nesting, awaiting_tight tight] at level
  simp only [Nat.max_le, List.length_cons, length_strengths] at level
  rw [Chain.symbols, List.cons_append, List.append_assoc] at enough others ⊢
  simp only [List.length_cons, List.length_append] at enough others
  obtain ⟨rounds, rfl⟩ := Nat.exists_eq_add_one.2 (show 0 < rounds by omega)
  apply passes_resume_tight tight (by omega)
  intro place
  apply Passes.bind (first query _ _ (by omega) (chain.noOpening halts))
  intro left
  apply Triple.remaining
  refine more query room rest _ left _ level.2 halts (Nat.le_refl _) ?_
  intro p member
  rw [List.length_append]
  rcases List.mem_cons.1 member with rfl | member
  · show _ ≤ rounds
    omega
  · have := others p member
    omega

private theorem Chain.accepted_cons {op : Connective} {operand : Operand} {chain : Chain}
    (first : operand.Accepted) (more : chain.Accepted) :
    (Chain.cons op operand chain).Accepted := by
  intro query room rest stack v rounds level halts enough others
  -- the connectives that bind at least as tightly are settled one by one, the last of them first
  induction stack generalizing v rounds with
  | nil => exact passes_resume_cons first more (Nat.zero_le _) halts level enough others
  | cons p outer ih =>
    by_cases loose : op.1.precedence ≤ p.op.1.precedence
    · rw [Chain.nesting, awaiting_loose loose, ← Chain.nesting] at level
      obtain ⟨last, others⟩ := List.forall_mem_cons.1 others
      exact passes_resume_loose loose fun v ↦ ih v p.rounds level last others
    · exact passes_resume_cons first more (Nat.lt_of_not_le loose) halts level enough others

private theorem Phrase.accepted_mk {first : Operand} {chain : Chain} (start : first.Accepted)
    (more : chain.Accepted) : (Phrase.mk first chain).Accepted := by
  intro query room rest level halts
  rw [nesting] at level
  obtain ⟨room, rfl⟩ := Nat.exists_eq_add_one.2 (show 0 < room by omega)
  rw [expression, symbols, List.append_assoc]
  apply Passes.bind (start query room _ (by omega) (chain.noOpening halts))
  intro left
  apply Triple.remaining
  have level : chain.nesting (strengths []) ≤ room := by
    show chain.nesting [] ≤ room
    omega
  have read := more query room rest [] left _ level halts (Nat.le_refl _) (by simp)
  simp only [resume, settle, bind_pure] at read
  exact read

/-! ### Operands -/

/-- A symbol that is no operator starts a primary. -/
private theorem passes_unary_primary {s : Symbol} {before after : List Symbol}
    (primary : Passes (primary query (expression query room 0)) (s :: before) after)
    (other : ∀ op, s ≠ .operator op) : Passes (unary query room) (s :: before) after := by
  have prefixed (inner : Step Value) :
      Passes (prefixed inner (Expression.primary query (expression query room 0))) (s :: before)
        after := by
    apply Triple.ahead
    split
    · next same => exact absurd (Option.some.inj same) (other _)
    · next same => exact absurd (Option.some.inj same) (other _)
    · exact primary
  cases room with
  | zero => rw [unary_zero]; exact prefixed _
  | succ room => rw [unary_succ]; exact prefixed _

private theorem Operand.accepted_number (x : Float) : (Operand.number x).Accepted := by
  intro query room rest _ _
  refine passes_unary_primary ?_ (by simp)
  exact Triple.position fun _ ↦ Triple.read_cons (Triple.pure rfl)

private theorem Operand.accepted_text (s : String) : (Operand.text s).Accepted := by
  intro query room rest _ _
  refine passes_unary_primary ?_ (by simp)
  exact Triple.position fun _ ↦ Triple.read_cons (Triple.pure rfl)

private theorem Operand.accepted_name (name : String) : (Operand.name name).Accepted := by
  intro query room rest _ noOpening
  rw [symbols, List.cons_append, List.nil_append]
  refine passes_unary_primary ?_ (by simp)
  refine Triple.position fun _ ↦ Triple.read_cons (Triple.ahead ?_)
  rw [if_neg noOpening]
  exact Triple.pure rfl

private theorem Operand.accepted_not {operand : Operand} (h : operand.Accepted) :
    (Operand.not operand).Accepted := by
  intro query room rest level noOpening
  rw [nesting] at level
  obtain ⟨room, rfl⟩ := Nat.exists_eq_add_one.2 (show 0 < room by omega)
  rw [unary_succ]
  refine Triple.ahead (Triple.read_cons ?_)
  exact Passes.bind (h query room rest (by omega) noOpening) fun v ↦ Triple.pure rfl

private theorem Operand.accepted_negate {operand : Operand} (h : operand.Accepted) :
    (Operand.negate operand).Accepted := by
  intro query room rest level noOpening
  rw [nesting] at level
  obtain ⟨room, rfl⟩ := Nat.exists_eq_add_one.2 (show 0 < room by omega)
  rw [unary_succ]
  refine Triple.ahead (Triple.read_cons ?_)
  apply Passes.bind (h query room rest (by omega) noOpening)
  intro v
  exact Passes.ofExcept (fun _ ↦ Value.toNumber_error) fun x ↦ Triple.pure rfl

private theorem Operand.accepted_brackets {inner : Phrase} (h : inner.Accepted) :
    (Operand.brackets inner).Accepted := by
  intro query room rest level _
  rw [symbols, List.cons_append, List.append_assoc]
  refine passes_unary_primary ?_ (by simp)
  refine Triple.position fun _ ↦ Triple.read_cons ?_
  apply Passes.bind (h query room _ level (halts_rightParen rest))
  intro v
  exact Triple.ahead (Triple.read_cons (Triple.pure rfl))

/-! ### Calls -/

private theorem passes_function (query : Query) (name : String) (place : Nat) (args : List Value) :
    Passes
      (match Builtin.ofName? name with
        | some function => function.apply query args
        | none => throw (.unknownFunction name place)) rest rest :=
  triple_function (fun _ ↦ trivial) (fun _ _ ↦ trivial) query name place args

private theorem Operand.accepted_emptyCall (name : String) : (Operand.emptyCall name).Accepted := by
  intro query room rest _ _
  refine passes_unary_primary ?_ (by simp)
  refine Triple.position fun place ↦ Triple.read_cons (Triple.ahead ?_)
  refine Triple.read_cons (Triple.ahead ?_)
  exact Triple.read_cons (passes_function query name place [])

/-- The first symbol of an operand is no closing bracket. -/
private theorem Operand.head?_ne (o : Operand) (rest : List Symbol) :
    (o.symbols ++ rest).head? ≠ some .rightParen := by
  cases o <;> nofun

private theorem Phrase.head?_ne (p : Phrase) (rest : List Symbol) :
    (p.symbols ++ rest).head? ≠ some .rightParen := by
  cases p with
  | mk first chain =>
    rw [symbols, List.append_assoc]
    exact first.head?_ne _

private theorem Arguments.head?_ne (args : Arguments) (rest : List Symbol) :
    (args.symbols ++ rest).head? ≠ some .rightParen := by
  cases args with
  | last phrase => exact phrase.head?_ne rest
  | cons phrase args =>
    rw [symbols, List.append_assoc]
    exact phrase.head?_ne _

private theorem Operand.accepted_call {args : Arguments} (h : args.Accepted) (name : String) :
    (Operand.call name args).Accepted := by
  intro query room rest level _
  rw [symbols, List.cons_append, List.cons_append, List.append_assoc]
  refine passes_unary_primary ?_ (by simp)
  refine Triple.position fun place ↦ Triple.read_cons (Triple.ahead ?_)
  refine Triple.read_cons (Triple.ahead ?_)
  rw [if_neg (args.head?_ne _)]
  apply Triple.remaining
  apply Passes.bind (h query room name _ rest level (Nat.le_succ _))
  exact passes_function query name place

private theorem Arguments.accepted_last {phrase : Phrase} (h : phrase.Accepted) :
    (Arguments.last phrase).Accepted := by
  intro query room name rounds rest level enough
  simp only [symbols, List.length_append, List.length_cons] at enough
  obtain ⟨rounds, rfl⟩ := Nat.exists_eq_add_one.2 (show 0 < rounds by omega)
  apply Passes.bind (h query room _ level (halts_rightParen rest))
  intro v
  exact Triple.position fun _ ↦ Triple.read_cons (Triple.pure rfl)

private theorem Arguments.accepted_cons {phrase : Phrase} {args : Arguments}
    (first : phrase.Accepted)
    (more : args.Accepted) : (Arguments.cons phrase args).Accepted := by
  intro query room name rounds rest level enough
  rw [nesting, Nat.max_le] at level
  simp only [symbols, List.length_append, List.length_cons] at enough
  obtain ⟨rounds, rfl⟩ := Nat.exists_eq_add_one.2 (show 0 < rounds by omega)
  rw [symbols, List.append_assoc, List.cons_append]
  apply Passes.bind (first query room _ level.1 (halts_comma _))
  intro v
  refine Triple.position fun _ ↦ Triple.read_cons (Triple.map ?_)
  refine more query room name rounds rest level.2 ?_
  simp only [List.length_append, List.length_cons]
  omega

mutual

/-- Every phrase is read to its end. -/
theorem Phrase.accepted : (p : Phrase) → p.Accepted
  | .mk first chain => Phrase.accepted_mk first.accepted chain.accepted

private theorem Chain.accepted : (chain : Chain) → chain.Accepted
  | .nil => Chain.accepted_nil
  | .cons _ operand chain => Chain.accepted_cons operand.accepted chain.accepted

private theorem Operand.accepted : (o : Operand) → o.Accepted
  | .number x => Operand.accepted_number x
  | .text s => Operand.accepted_text s
  | .name name => Operand.accepted_name name
  | .not operand => Operand.accepted_not operand.accepted
  | .negate operand => Operand.accepted_negate operand.accepted
  | .brackets inner => Operand.accepted_brackets inner.accepted
  | .emptyCall name => Operand.accepted_emptyCall name
  | .call name args => Operand.accepted_call args.accepted name

private theorem Arguments.accepted : (args : Arguments) → args.Accepted
  | .last phrase => Arguments.accepted_last phrase.accepted
  | .cons phrase args => Arguments.accepted_cons phrase.accepted args.accepted

end

/-! ### Whole sources -/

/-- A phrase that is not nested too deeply is evaluated, unless a value cannot be computed. -/
theorem passes_evaluateTokens {symbols : List Symbol}
    (h : GrammaticalWithin nestingLimit symbols) :
    Passes (evaluateTokens query) symbols [] := by
  apply Triple.ahead
  split
  · next nothing =>
    rw [Option.isNone_iff_eq_none, List.head?_eq_none_iff] at nothing
    exact Triple.pure nothing
  · next something =>
    rcases h with rfl | ⟨p, rfl, level⟩
    · exact absurd rfl something
    · have read := p.accepted query nestingLimit [] level halts_nil
      rw [List.append_nil] at read
      exact Passes.bind read fun v ↦ Triple.ahead (Triple.pure rfl)

/-- What holds of the evaluation of the symbols of a source holds of that of the source. -/
theorem Triple.evaluate {E : Failure → Prop} {P : Prop} {source : String} {stream : TokenStream}
    (read : lex source = .ok stream)
    (h : Triple E stream.symbols (evaluateTokens query) fun _ _ ↦ P) (draws : Draws) :
    (∀ v, (Expression.evaluate source query draws).1 = .ok v → P) ∧
      ∀ e, (Expression.evaluate source query draws).1 = .error e → E e := by
  have h := h ⟨stream.tokens, stream.stop, draws⟩ rfl
  simp only [Expression.evaluate, read, EStateM.run]
  cases made : evaluateTokens query ⟨stream.tokens, stream.stop, draws⟩ with
  | ok v c =>
    rw [made] at h
    refine ⟨fun _ _ ↦ h, fun e impossible ↦ ?_⟩
    cases impossible
  | error e c =>
    rw [made] at h
    constructor
    · intro v impossible
      cases impossible
    · intro e' same
      cases same
      exact h

/-- A source that has a value is empty or a phrase. A source that is empty or a phrase, nested no
deeper than the limit, has a value unless a function is unknown or a text is no number. So what is
not grammatical fails, and what is malformed is not grammatical. -/
theorem evaluate_grammatical {source : String} {stream : TokenStream}
    (read : lex source = .ok stream) (query : Query) (draws : Draws) :
    (∀ v, (evaluate source query draws).1 = .ok v → Grammatical stream.symbols) ∧
      (GrammaticalWithin nestingLimit stream.symbols →
        ∀ e, (evaluate source query draws).1 = .error e → e.OfValues) ∧
      (¬ Grammatical stream.symbols → ∃ e, (evaluate source query draws).1 = .error e) ∧
      (Malformed stream.symbols → ¬ Grammatical stream.symbols) := by
  have sound := (triple_evaluateTokens query stream.symbols).evaluate read draws
  refine ⟨sound.1, fun within ↦ ?_, fun ungrammatical ↦ ?_, Malformed.not_grammatical⟩
  · have passes : Triple Failure.OfValues stream.symbols (evaluateTokens query) fun _ _ ↦ True :=
      (passes_evaluateTokens within).mono fun _ _ _ ↦ trivial
    exact (passes.evaluate read draws).2
  · cases result : (evaluate source query draws).1 with
    | ok v => exact absurd (sound.1 v result) ungrammatical
    | error e => exact ⟨e, rfl⟩

/-- An opening bracket, `! true`, and some more. -/
private def bracketed (more : List Lexeme) : List Lexeme :=
  opening :: Operator.not.lexeme :: (Identifier.ofBool true).lexeme :: more

private theorem lex_bracketed (more : List Lexeme) (separable : ∀ l ∈ more, l.Separable) :
    lex (String.ofList (spaced (bracketed more))) =
      .ok ⟨placed 0 (bracketed more), width (spaced (bracketed more))⟩ := by
  refine lex_spaced fun l member ↦ ?_
  simp only [bracketed, List.mem_cons] at member
  rcases member with rfl | rfl | rfl | member
  · exact separable_opening
  · exact Operator.separable _
  · exact Identifier.separable _
  · exact separable l member

/-- An expression in brackets fits the grammar, and with a comma after it in the brackets it does
not. -/
theorem evaluate_grammatical_bracketed :
    (∃ stream, lex "( ! true )" = .ok stream ∧ GrammaticalWithin nestingLimit stream.symbols ∧
      ∀ query draws e, (evaluate "( ! true )" query draws).1 = .error e → e.OfValues) ∧
    ∃ stream, lex "( ! true , )" = .ok stream ∧ Malformed stream.symbols ∧
      ∀ query draws, ∃ e, (evaluate "( ! true , )" query draws).1 = .error e := by
  constructor
  · have source : String.ofList (spaced (bracketed [closing])) = "( ! true )" := by decide
    have read := lex_bracketed [closing] (by simpa using separable_closing)
    rw [source] at read
    let inner : Phrase := .mk (.not (.name "true")) .nil
    have grammatical : GrammaticalWithin nestingLimit
        [.leftParen, .operator .not, .name "true", .rightParen] :=
      .inr ⟨.mk (.brackets inner) .nil, rfl, by decide⟩
    exact ⟨_, read, grammatical,
      fun query draws ↦ (evaluate_grammatical read query draws).2.1 grammatical⟩
  · have source : String.ofList (spaced (bracketed [separator, closing])) = "( ! true , )" := by
      decide
    have read := lex_bracketed [separator, closing]
      (by simpa using ⟨separable_separator, separable_closing⟩)
    rw [source] at read
    have malformed : Malformed
        [.leftParen, .operator .not, .name "true", .comma, .rightParen] :=
      .missing [.leftParen, .operator .not, .name "true"] [] rfl rfl (by simp)
    refine ⟨_, read, malformed, fun query draws ↦ ?_⟩
    obtain ⟨-, -, fails, shapes⟩ := evaluate_grammatical read query draws
    exact fails (shapes malformed)

end StoryEngine.Expression
