import StoryEngine.Expression.Evaluation

/-!
# The outline of an evaluation

What an evaluation comes to is known from the source alone, up to the numbers and truth values
that are computed. Texts come only from the source, and nothing else can fail to be read as a
number; so two evaluations of one source go the same way through its tokens, whatever the game
answers and whatever is drawn, make equally many draws and end alike.
-/

namespace StoryEngine

/-- The draws after some more were made. -/
def Draws.skip (d : Draws) (n : Nat) : Draws :=
  { d with drawn := d.drawn + n }

private theorem Draws.skip_skip (d : Draws) (m n : Nat) : (d.skip m).skip n = d.skip (m + n) := by
  simp only [skip, Nat.add_assoc]

end StoryEngine

namespace StoryEngine.Expression

variable {α β : Type} {R : α → α → Prop} {S : β → β → Prop}

/-- What is known of a value without computing it: its kind, and the whole of a text. -/
inductive Outline where
  | number
  | bool
  | text (s : String)
deriving DecidableEq, Repr

/-- The outline of a value. -/
def Value.outline : Value → Outline
  | .number _ => .number
  | .bool _ => .bool
  | .text s => .text s

/-! ### Two runs of a step -/

/-- The outcomes of two runs that made equally many draws and ended at the same tokens, either
with the same failure or with results related by `R`. -/
inductive Twin (R : α → α → Prop) (draws draws' : Draws) :
    EStateM.Result Failure Cursor α → EStateM.Result Failure Cursor α → Prop
  | ok {a a' : α} (related : R a a') (n : Nat) (rest : List Token) (stop : Nat) :
      Twin R draws draws' (.ok a ⟨rest, stop, draws.skip n⟩) (.ok a' ⟨rest, stop, draws'.skip n⟩)
  | error (e : Failure) (n : Nat) (rest : List Token) (stop : Nat) :
      Twin R draws draws' (.error e ⟨rest, stop, draws.skip n⟩)
        (.error e ⟨rest, stop, draws'.skip n⟩)

/-- Two steps that end alike wherever they start with the same tokens. -/
def Alike (R : α → α → Prop) (x x' : Step α) : Prop :=
  ∀ rest stop draws draws', Twin R draws draws' (x ⟨rest, stop, draws⟩) (x' ⟨rest, stop, draws'⟩)

/-- Draws made before add to those made after. -/
private theorem Twin.after {draws draws' : Draws} {n : Nat} {r r' : EStateM.Result Failure Cursor α}
    (h : Twin R (draws.skip n) (draws'.skip n) r r') : Twin R draws draws' r r' := by
  cases h with
  | ok related m rest stop =>
    rw [Draws.skip_skip, Draws.skip_skip]
    exact .ok related (n + m) rest stop
  | error e m rest stop =>
    rw [Draws.skip_skip, Draws.skip_skip]
    exact .error e (n + m) rest stop

namespace Alike

private theorem pure {a a' : α} (related : R a a') : Alike R (Pure.pure a) (Pure.pure a') :=
  fun rest stop _ _ ↦ .ok related 0 rest stop

private theorem throw (e : Failure) : Alike R (MonadExcept.throw e) (MonadExcept.throw e) :=
  fun rest stop _ _ ↦ .error e 0 rest stop

private theorem bind {x x' : Step α} {f f' : α → Step β} (first : Alike R x x')
    (second : ∀ a a', R a a' → Alike S (f a) (f' a')) : Alike S (x >>= f) (x' >>= f') := by
  intro rest stop draws draws'
  have first := first rest stop draws draws'
  simp only [Bind.bind, EStateM.bind]
  generalize x ⟨rest, stop, draws⟩ = r, x' ⟨rest, stop, draws'⟩ = r' at first
  cases first with
  | ok related n rest stop => exact (second _ _ related rest stop _ _).after
  | error e n rest stop => exact .error e n rest stop

/-- A step with the same result in both runs. -/
private theorem bindEq {x x' : Step α} {f f' : α → Step β} (first : Alike Eq x x')
    (second : ∀ a, Alike S (f a) (f' a)) : Alike S (x >>= f) (x' >>= f') := by
  apply first.bind
  intro a a' same
  rw [← same]
  exact second a

private theorem map {x x' : Step α} {f f' : α → β} (h : Alike R x x')
    (related : ∀ a a', R a a' → S (f a) (f' a')) : Alike S (f <$> x) (f' <$> x') := by
  intro rest stop draws draws'
  have h := h rest stop draws draws'
  simp only [Functor.map, EStateM.map]
  generalize x ⟨rest, stop, draws⟩ = r, x' ⟨rest, stop, draws'⟩ = r' at h
  cases h with
  | ok same n rest stop => exact .ok (related _ _ same) n rest stop
  | error e n rest stop => exact .error e n rest stop

/-- A step that only looks at the tokens, or takes one, does the same in both runs. -/
private theorem ahead : Alike Eq Step.ahead? Step.ahead? :=
  fun rest stop _ _ ↦ .ok rfl 0 rest stop

private theorem position : Alike Eq Step.position Step.position :=
  fun rest stop _ _ ↦ .ok rfl 0 rest stop

private theorem read : Alike Eq Step.read? Step.read? :=
  fun rest stop _ _ ↦ .ok rfl 0 rest.tail stop

private theorem remaining : Alike Eq Step.remaining Step.remaining :=
  fun rest stop _ _ ↦ .ok rfl 0 rest stop

private theorem fault (f : Fault) : Alike R (Step.fault f) (Step.fault f) := by
  apply position.bind
  intro place _ same
  subst same
  exact throw _

/-- A draw is one draw, whatever the number. -/
private theorem draw : Alike (fun _ _ ↦ True) Step.draw Step.draw :=
  fun rest stop _ _ ↦ .ok trivial 1 rest stop

end Alike

/-! ### Values -/

/-- Values of one outline. -/
def Value.Similar (v v' : Value) : Prop :=
  v.outline = v'.outline

private theorem Value.similar_number (x x' : Float) : Value.Similar (.number x) (.number x') := rfl

private theorem Value.similar_bool (b b' : Bool) : Value.Similar (.bool b) (.bool b') := rfl

/-- Two results that are the same failure or related by `R`. -/
inductive Matched (R : α → α → Prop) : Except Failure α → Except Failure α → Prop
  | ok {a a' : α} (related : R a a') : Matched R (.ok a) (.ok a')
  | error (e : Failure) : Matched R (.error e) (.error e)

private theorem Matched.alike {r r' : Except Failure α} (h : Matched R r r') :
    Alike R (Step.ofExcept r) (Step.ofExcept r') := by
  cases h with
  | ok related => exact .pure related
  | error e => exact .throw e

private theorem Matched.bind {r r' : Except Failure α} {f f' : α → Except Failure β}
    (first : Matched R r r') (second : ∀ a a', R a a' → Matched S (f a) (f' a')) :
    Matched S (r >>= f) (r' >>= f') := by
  cases first with
  | ok related => exact second _ _ related
  | error e => exact .error e

private theorem Matched.map {r r' : Except Failure α} {f f' : α → β} (h : Matched R r r')
    (related : ∀ a a', R a a' → S (f a) (f' a')) : Matched S (r.map f) (r'.map f') := by
  cases h with
  | ok same => exact .ok (related _ _ same)
  | error e => exact .error e

/-- Whether a value can be read as a number shows in its outline. -/
private theorem Value.Similar.matched_toNumber {v v' : Value} (h : v.Similar v') :
    Matched (fun _ _ ↦ True) v.toNumber v'.toNumber := by
  cases v with
  | number x => cases v' <;> first | exact .ok trivial | cases h
  | bool b => cases v' <;> first | exact .ok trivial | cases h
  | text s =>
    cases v' with
    | text s' =>
      cases h
      simp only [toNumber]
      split
      · exact .ok trivial
      · exact .error _
    | _ => cases h

/-- An operator gives values of one outline to operands of one outline. -/
theorem Operator.matched_apply (op : Operator) {left left' right right' : Value}
    (first : left.Similar left') (second : right.Similar right') (position : Nat) :
    Matched Value.Similar (op.apply left right position) (op.apply left' right' position) := by
  have numbers : Matched (fun _ _ ↦ True) (apply.numbers left right)
      (apply.numbers left' right') :=
    first.matched_toNumber.bind fun _ _ _ ↦ second.matched_toNumber.bind fun _ _ _ ↦ .ok trivial
  cases op with
  | add | sub | mul | div | mod => exact numbers.map fun _ _ _ ↦ Value.similar_number _ _
  | less | greater | atMost | atLeast => exact numbers.map fun _ _ _ ↦ Value.similar_bool _ _
  | equal | unequal | and | or => exact .ok (Value.similar_bool _ _)
  | not => exact .error _

/-! ### Functions -/

/-- Arguments of one outline are read alike. -/
private theorem alike_number? {args args' : List Value}
    (h : args.map Value.outline = args'.map Value.outline) (index : Nat) :
    Alike (fun _ _ ↦ True) (Builtin.number? args index) (Builtin.number? args' index) := by
  have same : args[index]?.map Value.outline = args'[index]?.map Value.outline := by
    rw [← List.getElem?_map, h, List.getElem?_map]
  simp only [Builtin.number?]
  cases found : args[index]? with
  | none =>
    rw [found] at same
    rw [Option.map_eq_none_iff.1 same.symm]
    exact .pure trivial
  | some v =>
    rw [found] at same
    obtain ⟨v', found', similar⟩ := Option.map_eq_some_iff.1 same.symm
    rw [found']
    have similar : v.Similar v' := similar.symm
    exact similar.matched_toNumber.alike.map fun _ _ _ ↦ trivial

/-- A function gives a number or a truth value, whichever it always gives. -/
theorem Builtin.alike_apply (query query' : Query) {args args' : List Value}
    (h : args.map Value.outline = args'.map Value.outline) (f : Builtin) :
    Alike Value.Similar (f.apply query args) (f.apply query' args') := by
  cases f with
  | itemCount | getAttributeValue => exact .pure (Value.similar_number _ _)
  | hasStatus | eventOccurred => exact .pure (Value.similar_bool _ _)
  | randi =>
    exact (alike_number? h 0).bind fun _ _ _ ↦
      Alike.draw.bind fun _ _ _ ↦ .pure (Value.similar_number _ _)
  | min | max =>
    exact (alike_number? h 0).bind fun _ _ _ ↦
      (alike_number? h 1).bind fun _ _ _ ↦ .pure (Value.similar_number _ _)
  | floor => exact (alike_number? h 0).bind fun _ _ _ ↦ .pure (Value.similar_number _ _)
  | clip =>
    apply (alike_number? h 0).bind
    intro _ _ _
    apply (alike_number? h 1).bind
    intro _ _ _
    apply (alike_number? h 2).bind
    intro _ _ _
    split <;> split <;> exact .pure (Value.similar_number _ _)

/-! ### Expressions -/

private theorem alike_argumentsWithin {nested nested' : Step Value}
    (h : Alike Value.Similar nested nested') (name : String) (rounds : Nat) :
    Alike (fun args args' ↦ args.map Value.outline = args'.map Value.outline)
      (argumentsWithin nested name rounds) (argumentsWithin nested' name rounds) := by
  induction rounds with
  | zero => exact .pure rfl
  | succ rounds ih =>
    rw [argumentsWithin, argumentsWithin]
    apply h.bind
    intro v v' similar
    apply Alike.position.bindEq
    intro place
    apply Alike.read.bindEq
    intro found
    split
    · apply ih.map
      intro args args' same
      rw [List.map_cons, List.map_cons, same, similar]
    · exact .pure (congrArg (· :: []) similar)
    · exact .throw _

private theorem alike_call (query query' : Query) {nested nested' : Step Value}
    (h : Alike Value.Similar nested nested') (name : String) (position : Nat) :
    Alike Value.Similar (call query nested name position) (call query' nested' name position) := by
  apply Alike.read.bindEq
  intro _
  apply Alike.ahead.bindEq
  intro found
  by_cases closed : found = some .rightParen
  · simp only [if_pos closed]
    apply Alike.read.bindEq
    intro _
    cases Builtin.ofName? name with
    | some function => exact function.alike_apply query query' rfl
    | none => exact .throw _
  · simp only [if_neg closed]
    apply Alike.remaining.bindEq
    intro n
    apply (alike_argumentsWithin h name _).bind
    intro args args' same
    cases Builtin.ofName? name with
    | some function => exact function.alike_apply query query' same
    | none => exact .throw _

private theorem alike_primary (query query' : Query) {nested nested' : Step Value}
    (h : Alike Value.Similar nested nested') :
    Alike Value.Similar (primary query nested) (primary query' nested') := by
  apply Alike.position.bindEq
  intro place
  apply Alike.read.bindEq
  intro found
  split
  · exact .pure rfl
  · exact .pure rfl
  · apply Alike.ahead.bindEq
    intro next
    split
    · exact alike_call query query' h _ _
    · apply Alike.pure
      simp only [nameValue]
      split <;> rfl
  · apply h.bind
    intro v v' similar
    apply Alike.ahead.bindEq
    intro next
    split
    · exact Alike.read.bindEq fun _ ↦ .pure similar
    · exact .fault _
  · exact .throw _

/-- Which operators are applied, and to what, is decided by the tokens alone. -/
private theorem alike_climbWithin {operand operand' : Nat → Step Value}
    (h : ∀ least, Alike Value.Similar (operand least) (operand' least)) (least rounds : Nat)
    {left left' : Value} (similar : left.Similar left') :
    Alike Value.Similar (climbWithin operand least left rounds)
      (climbWithin operand' least left' rounds) := by
  induction rounds generalizing left left' with
  | zero => exact .pure similar
  | succ rounds ih =>
    rw [climbWithin, climbWithin]
    apply Alike.position.bindEq
    intro place
    apply Alike.ahead.bindEq
    intro found
    split
    · next op =>
      split
      · exact .pure similar
      · apply Alike.read.bindEq
        intro _
        apply (h _).bind
        intro right right' second
        exact (op.matched_apply similar second place).alike.bind fun _ _ ↦ ih
    · exact .pure similar

private theorem alike_climb {first first' : Step Value} {operand operand' : Nat → Step Value}
    (start : Alike Value.Similar first first')
    (h : ∀ least, Alike Value.Similar (operand least) (operand' least)) (least : Nat) :
    Alike Value.Similar (climb first operand least) (climb first' operand' least) := by
  apply start.bind
  intro left left' similar
  apply Alike.remaining.bindEq
  intro n
  exact alike_climbWithin h least n similar

private theorem alike_prefixed {inner inner' operand operand' : Step Value}
    (first : Alike Value.Similar inner inner') (second : Alike Value.Similar operand operand') :
    Alike Value.Similar (prefixed inner operand) (prefixed inner' operand') := by
  apply Alike.ahead.bindEq
  intro found
  split
  · exact Alike.read.bind fun _ _ _ ↦ first.bind fun _ _ _ ↦ .pure (Value.similar_bool _ _)
  · apply Alike.read.bindEq
    intro _
    apply first.bind
    intro v v' similar
    exact similar.matched_toNumber.alike.bind fun _ _ _ ↦ .pure (Value.similar_number _ _)
  · exact second

/-- Expressions and operands are evaluated alike, whatever room is left. -/
theorem alike_expression_unary (query query' : Query) (room : Nat) :
    (∀ least, Alike Value.Similar (expression query room least) (expression query' room least)) ∧
      Alike Value.Similar (unary query room) (unary query' room) := by
  induction room with
  | zero =>
    constructor
    · intro least
      rw [expression, expression]
      exact .fault _
    · rw [unary, unary]
      exact alike_prefixed (.fault _) (alike_primary query query' (.fault _))
  | succ room ih =>
    obtain ⟨expressions, operands⟩ := ih
    constructor
    · intro least
      rw [expression, expression]
      exact alike_climb operands expressions least
    · rw [unary, unary]
      exact alike_prefixed operands
        (alike_primary query query' (alike_climb operands expressions 0))

private theorem alike_evaluateTokens (query query' : Query) :
    Alike Value.Similar (evaluateTokens query) (evaluateTokens query') := by
  apply Alike.ahead.bindEq
  intro found
  split
  · exact .pure rfl
  · apply ((alike_expression_unary query query' nestingLimit).1 0).bind
    intro v v' similar
    apply Alike.ahead.bindEq
    intro next
    split
    · exact .pure similar
    · exact .fault _

/-- Two evaluations of one source, whatever the game answers and whatever is drawn, fail with the
same failure or give values of one kind, and the same text if it is a text; and they make equally
many draws, also when they fail. -/
theorem evaluate_outline (source : String) (query query' : Query) (draws draws' : Draws) :
    (evaluate source query draws).1.map Value.outline =
        (evaluate source query' draws').1.map Value.outline ∧
      ∃ n, (evaluate source query draws).2 = draws.skip n ∧
        (evaluate source query' draws').2 = draws'.skip n := by
  cases read : lex source with
  | error e =>
    simp only [evaluate, read]
    exact ⟨trivial, 0, rfl, rfl⟩
  | ok stream =>
    have twin := alike_evaluateTokens query query' stream.tokens stream.stop draws draws'
    simp only [evaluate, read, EStateM.run]
    generalize evaluateTokens query ⟨stream.tokens, stream.stop, draws⟩ = r,
      evaluateTokens query' ⟨stream.tokens, stream.stop, draws'⟩ = r' at twin
    cases twin with
    | ok similar n => exact ⟨congrArg Except.ok similar, n, rfl, rfl⟩
    | error e n => exact ⟨rfl, n, rfl, rfl⟩

/-- A source that fails once fails everywhere, and for the same reason. -/
theorem evaluate_error {source : String} {query : Query} {draws : Draws} {failure : Failure}
    (fails : (evaluate source query draws).1 = .error failure) (query' : Query)
    (draws' : Draws) : (evaluate source query' draws').1 = .error failure := by
  cases read : lex source with
  | error e =>
    simp only [evaluate, read] at fails ⊢
    exact fails
  | ok stream =>
    have twin := alike_evaluateTokens query query' stream.tokens stream.stop draws draws'
    simp only [evaluate, read, EStateM.run] at fails ⊢
    generalize evaluateTokens query ⟨stream.tokens, stream.stop, draws⟩ = r,
      evaluateTokens query' ⟨stream.tokens, stream.stop, draws'⟩ = r' at twin fails
    cases twin with
    | ok similar n => cases fails
    | error e n => exact fails

end StoryEngine.Expression
