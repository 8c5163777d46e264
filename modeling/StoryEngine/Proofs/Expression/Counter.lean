import StoryEngine.Expression.Evaluation

/-!
# The depth counter

The evaluation with a counter of the constructs that are open, in the place of the room that is
left. Opening a construct raises the counter, and fails if it is then beyond the limit; closing one
lowers it. Each function does so by itself, and a failure on the way skips the closing. There may
be no limit, and then the evaluation goes on at any depth.

A run keeps its moments as well: which functions have been called and have not returned, and what
the counter is. The counter is an integer here, so that it may be seen not to fall below zero. A run
may make so many calls inside one another and is cut off when they are used up, which is neither a
result nor a failure.
-/

namespace StoryEngine.Expression

/-- The functions of the evaluation that call one another, and what is outside of them. -/
inductive Routine where
  | source
  | expression
  | unary
  | primary
  | call

/-- The calls that have not returned, the last of them first, each with what it was made for. The
index is the function that runs. -/
inductive Stack : Routine → Type where
  /-- No call; the token stream as a whole. -/
  | source : Stack .source
  /-- The expression that the token stream is. -/
  | whole (below : Stack .source) : Stack .expression
  /-- An expression in brackets. -/
  | brackets (below : Stack .primary) : Stack .expression
  /-- An expression that is an argument. -/
  | argument (below : Stack .call) : Stack .expression
  /-- An expression that is the right operand of an operator. -/
  | right (below : Stack .expression) : Stack .expression
  /-- An operand of an expression. -/
  | operand (below : Stack .expression) : Stack .unary
  /-- The operand of an operator that stands before it, from the operator on. -/
  | prefixed (below : Stack .unary) : Stack .unary
  | primary (below : Stack .unary) : Stack .primary
  | call (below : Stack .primary) : Stack .call

namespace Stack

/-- How many constructs are open: expressions, and operators that wait for the operand after
them. -/
def constructs : {r : Routine} → Stack r → Nat
  | _, source => 0
  | _, whole below => below.constructs + 1
  | _, brackets below => below.constructs + 1
  | _, argument below => below.constructs + 1
  | _, right below => below.constructs + 1
  | _, operand below => below.constructs
  | _, prefixed below => below.constructs + 1
  | _, primary below => below.constructs
  | _, call below => below.constructs

/-- The calls without the last of them. -/
def caller : {r : Routine} → Stack r → (r : Routine) × Stack r
  | _, source => ⟨_, source⟩
  | _, whole below => ⟨_, below⟩
  | _, brackets below => ⟨_, below⟩
  | _, argument below => ⟨_, below⟩
  | _, right below => ⟨_, below⟩
  | _, operand below => ⟨_, below⟩
  | _, prefixed below => ⟨_, below⟩
  | _, primary below => ⟨_, below⟩
  | _, call below => ⟨_, below⟩

/-- How many calls have not returned. -/
def frames : {r : Routine} → Stack r → Nat
  | _, source => 0
  | _, whole below => below.frames + 1
  | _, brackets below => below.frames + 1
  | _, argument below => below.frames + 1
  | _, right below => below.frames + 1
  | _, operand below => below.frames + 1
  | _, prefixed below => below.frames + 1
  | _, primary below => below.frames + 1
  | _, call below => below.frames + 1

/-- The last of the open constructs is the expression that is evaluated. -/
private theorem constructs_caller (stack : Stack .expression) :
    stack.caller.2.constructs + 1 = stack.constructs := by
  cases stack <;> rfl

end Stack

/-- A moment of an evaluation: the calls that have not returned, and the counter. -/
structure Moment where
  {routine : Routine}
  stack : Stack routine
  depth : Int

/-- The state of an evaluation with a counter. -/
structure Gauge where
  cursor : Cursor
  depth : Int

/-- A step of an evaluation with a counter: what comes of it, which is nothing if it is cut off,
and its moments in order. -/
def Counted (α : Type) : Type :=
  Gauge → Option (EStateM.Result Failure Gauge α) × List Moment

namespace Counted

variable {α : Type} {r : Routine}

instance : Monad Counted where
  pure a g := (some (.ok a g), [])
  bind x f g :=
    match x g with
    | (some (.ok a g'), moments) => ((f a g').1, moments ++ (f a g').2)
    | (some (.error e g'), moments) => (some (.error e g'), moments)
    | (none, moments) => (none, moments)

/-- A step at which no construct is opened or closed. -/
def step (stack : Stack r) (x : Step α) : Counted α := fun g ↦
  (match x g.cursor with
    | .ok a c => some (.ok a ⟨c, g.depth⟩)
    | .error e c => some (.error e ⟨c, g.depth⟩),
   [⟨stack, g.depth⟩])

/-- Opens a construct. It is too deep if the counter is then beyond the limit. -/
def enter (limit : Option Nat) (stack : Stack r) : Counted Unit := fun g ↦
  let opened : Gauge := ⟨g.cursor, g.depth + 1⟩
  (if ∃ most ∈ limit, most < opened.depth then
      some (.error (.badGrammar .nestedTooDeeply g.cursor.position) opened)
    else some (.ok () opened),
   [⟨stack, opened.depth⟩])

/-- Closes the construct of the last call. -/
def leave (stack : Stack r) : Counted Unit := fun g ↦
  (some (.ok () ⟨g.cursor, g.depth - 1⟩), [⟨stack.caller.2, g.depth - 1⟩])

/-- The run is cut off, as no more calls may be made. -/
def cut : Counted α := fun _ ↦ (none, [])

section

variable {β : Type} {x : Counted α} {f : α → Counted β} {g g' : Gauge} {moments : List Moment}
  {limit : Option Nat} {stack : Stack r}

/-- After a result the second step goes on from its state. -/
theorem bind_ok {a : α} (made : x g = (some (.ok a g'), moments)) :
    (x >>= f) g = ((f a g').1, moments ++ (f a g').2) := by
  simp only [Bind.bind, made]

/-- After a failure the second step is skipped. -/
theorem bind_error {e : Failure} (made : x g = (some (.error e g'), moments)) :
    (x >>= f) g = (some (.error e g'), moments) := by
  simp only [Bind.bind, made]

/-- After a run is cut off the second step is skipped. -/
theorem bind_cut (made : x g = (none, moments)) : (x >>= f) g = (none, moments) := by
  simp only [Bind.bind, made]

/-- A step with a result keeps the counter. -/
theorem step_ok {z : Step α} {a : α} {c : Cursor} (made : z g.cursor = .ok a c) :
    step stack z g = (some (.ok a ⟨c, g.depth⟩), [⟨stack, g.depth⟩]) := by
  simp only [step, made]

/-- A step that fails keeps the counter. -/
theorem step_error {z : Step α} {e : Failure} {c : Cursor} (made : z g.cursor = .error e c) :
    step stack z g = (some (.error e ⟨c, g.depth⟩), [⟨stack, g.depth⟩]) := by
  simp only [step, made]

/-- A construct within the limit is opened. -/
theorem enter_ok (h : ∀ n ∈ limit, g.depth + 1 ≤ n) :
    enter limit stack g = (some (.ok () ⟨g.cursor, g.depth + 1⟩), [⟨stack, g.depth + 1⟩]) := by
  have within : ¬ ∃ n ∈ limit, (n : Int) < g.depth + 1 :=
    fun ⟨n, member, beyond⟩ ↦ absurd (h n member) (Int.not_le.2 beyond)
  simp only [enter, if_neg within]

/-- A construct beyond the limit fails, with the counter raised. -/
theorem enter_error {n : Nat} (bounded : limit = some n) (beyond : n < g.depth + 1) :
    enter limit stack g = (some (.error (.badGrammar .nestedTooDeeply g.cursor.position)
      ⟨g.cursor, g.depth + 1⟩), [⟨stack, g.depth + 1⟩]) := by
  have beyond : ∃ n ∈ limit, (n : Int) < g.depth + 1 := ⟨n, bounded, beyond⟩
  simp only [enter, if_pos beyond]

end

/-! ### The functions of the evaluation -/

/-- The arguments of a call, after the opening bracket and up to the closing one. -/
def argumentsWithin (stack : Stack .call) (nested : Counted Value) (name : String) :
    Nat → Counted (List Value)
  | 0 => pure []
  | rounds + 1 => do
      let value ← nested
      let position ← step stack Step.position
      match ← step stack Step.read? with
      | some .comma => (value :: ·) <$> argumentsWithin stack nested name rounds
      | some .rightParen => return [value]
      | found => step stack (throw (.badGrammar (.expectedArgumentEnd name found) position))

/-- A call from its opening bracket on. -/
def call (query : Query) (stack : Stack .call) (nested : Counted Value) (name : String)
    (position : Nat) : Counted Value := do
  let _ ← step stack Step.read?
  let args ←
    if (← step stack Step.ahead?) = some .rightParen then do
      let _ ← step stack Step.read?
      pure []
    else argumentsWithin stack nested name ((← step stack Step.remaining) + 1)
  step stack <|
    match Builtin.ofName? name with
    | some function => function.apply query args
    | none => throw (.unknownFunction name position)

/-- A literal, a name, a call or an expression in brackets. -/
def primary (query : Query) (stack : Stack .primary)
    (nested : Stack .expression → Counted Value) : Counted Value := do
  let position ← step stack Step.position
  match ← step stack Step.read? with
  | some (.number x) => return .number x
  | some (.text s) => return .text s
  | some (.name name) =>
      if (← step stack Step.ahead?) = some .leftParen then
        call query (.call stack) (nested (.argument (.call stack))) name position
      else return nameValue query name
  | some .leftParen => do
      let value ← nested (.brackets stack)
      match ← step stack Step.ahead? with
      | some .rightParen => do
          let _ ← step stack Step.read?
          return value
      | found => step stack (Step.fault (.expectedClosing found))
  | found => step stack (throw (.badGrammar (.unexpected found) position))

/-- The operators that bind at least as tightly as `least`, applied from the left to the value
read so far. -/
def climbWithin (stack : Stack .expression) (operand : Nat → Counted Value) (least : Nat)
    (left : Value) : Nat → Counted Value
  | 0 => return left
  | rounds + 1 => do
      let position ← step stack Step.position
      match ← step stack Step.ahead? with
      | some (.operator op) =>
          if op.precedence < least then return left
          else do
            let _ ← step stack Step.read?
            let right ← operand (op.precedence + 1)
            let value ← step stack (Step.ofExcept (op.apply left right position))
            climbWithin stack operand least value rounds
      | _ => return left

/-- An operand and the operators after it that bind at least as tightly as `least`. -/
def climb (limit : Option Nat) (stack : Stack .expression) (first : Counted Value)
    (operand : Nat → Counted Value) (least : Nat) : Counted Value := do
  enter limit stack
  let left ← first
  let value ← climbWithin stack operand least left (← step stack Step.remaining)
  leave stack
  return value

/-- A primary after any operators that stand before one operand; `inner` reads the operand of
such an operator. -/
def prefixed (limit : Option Nat) (stack : Stack .unary) (inner primary : Counted Value) :
    Counted Value := do
  match ← step stack Step.ahead? with
  | some (.operator .not) => do
      let _ ← step stack Step.read?
      enter limit (.prefixed stack)
      let operand ← inner
      leave (.prefixed stack)
      step stack (return .bool !operand.isTrue)
  | some (.operator .sub) => do
      let _ ← step stack Step.read?
      enter limit (.prefixed stack)
      let operand ← inner
      leave (.prefixed stack)
      step stack (return .number (-(← Step.ofExcept operand.toNumber)))
  | _ => primary

mutual

/-- An expression whose operators bind at least as tightly as `least`. The number of calls inside
one another is bounded; at most two calls are made for each token. -/
def expression (query : Query) (limit : Option Nat) : Nat → Stack .expression → Nat → Counted Value
  | 0, _, _ => cut
  | calls + 1, stack, least =>
      climb limit stack (unary query limit calls (.operand stack))
        (expression query limit calls (.right stack)) least

/-- An operand with the operators before it. -/
def unary (query : Query) (limit : Option Nat) : Nat → Stack .unary → Counted Value
  | 0, _ => cut
  | calls + 1, stack =>
      prefixed limit stack (unary query limit calls (.prefixed stack))
        (primary query (.primary stack) fun nested ↦ expression query limit calls nested 0)

end

/-- The value of a token stream. -/
def evaluateTokens (query : Query) (limit : Option Nat) (calls : Nat) : Counted Value := do
  if (← step .source Step.ahead?).isNone then return .number 0
  else do
    let value ← expression query limit calls (.whole .source) 0
    match ← step .source Step.ahead? with
    | none => return value
    | found => step .source (Step.fault (.unexpected found))

/-- What comes of the evaluation of a token stream, without the counter, unless it is cut off. -/
def result (query : Query) (limit : Option Nat) (calls : Nat) (c : Cursor) :
    Option (EStateM.Result Failure Cursor Value) :=
  (evaluateTokens query limit calls ⟨c, 0⟩).1.map fun
    | .ok v g => .ok v g.cursor
    | .error e g => .error e g.cursor

/-- The moments of the evaluation of a token stream. -/
def moments (query : Query) (limit : Option Nat) (calls : Nat) (c : Cursor) : List Moment :=
  (evaluateTokens query limit calls ⟨c, 0⟩).2

end Counted

/-! ### The counter and the open constructs -/

/-- The step takes the counter from `before` to `after`, and at each moment on the way the counter
is the number of open constructs. From where it is ahead of `before`, it stays ahead by as much. -/
def Counts {α : Type} (before after : Int) (x : Counted α) : Prop :=
  ∀ g : Gauge, (∀ m ∈ (x g).2, m.depth - m.stack.constructs = g.depth - before) ∧
    ∀ a g', (x g).1 = some (.ok a g') → g'.depth - after = g.depth - before

namespace Counts

variable {α β : Type} {r : Routine} {n n' n'' : Int} {x : Counted α}

private theorem pure (a : α) : Counts n n (Pure.pure a) := by
  intro g
  refine ⟨fun m member ↦ absurd member List.not_mem_nil, fun a' g' made ↦ ?_⟩
  cases made
  rfl

private theorem cut : Counts n n' (Counted.cut (α := α)) :=
  fun _ ↦ ⟨fun _ member ↦ absurd member List.not_mem_nil, nofun⟩

private theorem bind {f : α → Counted β} (first : Counts n n' x)
    (second : ∀ a, Counts n' n'' (f a)) :
    Counts n n'' (x >>= f) := by
  intro g
  obtain ⟨counted, closed⟩ := first g
  rcases made : x g with ⟨_ | ⟨a, g'⟩ | ⟨e, g'⟩, moments⟩ <;> rw [made] at counted closed
  · rw [Counted.bind_cut made]
    exact ⟨counted, nofun⟩
  · rw [Counted.bind_ok made]
    have closed := closed a g' rfl
    obtain ⟨counted', closed'⟩ := second a g'
    rw [closed] at counted' closed'
    refine ⟨fun m member ↦ ?_, closed'⟩
    exact (List.mem_append.1 member).elim (counted m) (counted' m)
  · rw [Counted.bind_error made]
    exact ⟨counted, nofun⟩

private theorem map {f : α → β} (h : Counts n n' x) : Counts n n' (f <$> x) :=
  h.bind fun _ ↦ pure _

private theorem step {stack : Stack r} {x : Step α} :
    Counts stack.constructs stack.constructs (Counted.step stack x) := by
  intro g
  constructor
  · intro m member
    rw [List.mem_singleton.1 member]
  · intro a g' made
    simp only [Counted.step] at made
    cases result : x g.cursor with
    | ok a' c =>
      rw [result] at made
      cases made
      rfl
    | error e c =>
      rw [result] at made
      cases made

private theorem enter {limit : Option Nat} {stack : Stack r} :
    Counts (stack.constructs - 1) stack.constructs (Counted.enter limit stack) := by
  intro g
  constructor
  · intro m member
    rw [List.mem_singleton.1 member]
    show g.depth + 1 - stack.constructs = g.depth - (stack.constructs - 1)
    omega
  · intro a g' made
    simp only [Counted.enter] at made
    split at made
    · cases made
    · cases made
      show g.depth + 1 - stack.constructs = g.depth - (stack.constructs - 1)
      omega

private theorem leave {stack : Stack r} (last : stack.caller.2.constructs + 1 = stack.constructs) :
    Counts stack.constructs (stack.constructs - 1) (Counted.leave stack) := by
  intro g
  constructor
  · intro m member
    rw [List.mem_singleton.1 member]
    show g.depth - 1 - stack.caller.2.constructs = g.depth - stack.constructs
    omega
  · intro a g' made
    cases made
    show g.depth - 1 - (stack.constructs - 1) = g.depth - stack.constructs
    omega

/-! Each function leaves the counter as it was before the constructs that it opens. -/

private theorem argumentsWithin {stack : Stack .call} {nested : Counted Value}
    (h : Counts stack.constructs stack.constructs nested) (name : String) (rounds : Nat) :
    Counts stack.constructs stack.constructs
      (Counted.argumentsWithin stack nested name rounds) := by
  induction rounds with
  | zero => exact pure _
  | succ rounds ih =>
    refine h.bind fun value ↦ step.bind fun place ↦ step.bind fun found ↦ ?_
    split
    · exact ih.map
    · exact pure _
    · exact step

private theorem call {query : Query} {stack : Stack .call} {nested : Counted Value}
    (h : Counts stack.constructs stack.constructs nested) (name : String) (position : Nat) :
    Counts stack.constructs stack.constructs
      (Counted.call query stack nested name position) := by
  refine step.bind fun _ ↦ step.bind fun found ↦ ?_
  by_cases closing : found = some .rightParen
  · rw [if_pos closing]
    exact step.bind fun _ ↦ step
  · rw [if_neg closing]
    exact step.bind fun rounds ↦ (argumentsWithin h name _).bind fun args ↦ step

private theorem primary {query : Query} {stack : Stack .primary}
    {nested : Stack .expression → Counted Value}
    (h : ∀ stack, Counts (stack.constructs - 1) (stack.constructs - 1) (nested stack)) :
    Counts stack.constructs stack.constructs (Counted.primary query stack nested) := by
  have inside (inner : Stack .expression) (below : inner.constructs = stack.constructs + 1) :
      Counts stack.constructs stack.constructs (nested inner) := by
    have h := h inner
    rw [below] at h
    simpa using h
  refine step.bind fun place ↦ step.bind fun found ↦ ?_
  split
  · exact pure _
  · exact pure _
  · refine step.bind fun opening ↦ ?_
    split
    · exact call (inside _ rfl) _ _
    · exact pure _
  · refine (inside _ rfl).bind fun value ↦ step.bind fun closing ↦ ?_
    split
    · exact step.bind fun _ ↦ pure _
    · exact step
  · exact step

private theorem climbWithin {stack : Stack .expression} {operand : Nat → Counted Value}
    (h : ∀ least, Counts stack.constructs stack.constructs (operand least)) (least : Nat)
    (left : Value) (rounds : Nat) :
    Counts stack.constructs stack.constructs
      (Counted.climbWithin stack operand least left rounds) := by
  induction rounds generalizing left with
  | zero => exact pure _
  | succ rounds ih =>
    refine step.bind fun place ↦ step.bind fun found ↦ ?_
    split
    · split
      · exact pure _
      · exact step.bind fun _ ↦ (h _).bind fun right ↦ step.bind fun value ↦ ih value
    · exact pure _

private theorem climb {limit : Option Nat} {stack : Stack .expression} {first : Counted Value}
    {operand : Nat → Counted Value} (start : Counts stack.constructs stack.constructs first)
    (h : ∀ least, Counts stack.constructs stack.constructs (operand least)) (least : Nat) :
    Counts (stack.constructs - 1) (stack.constructs - 1)
      (Counted.climb limit stack first operand least) := by
  refine enter.bind fun _ ↦ start.bind fun left ↦ step.bind fun rounds ↦ ?_
  refine (climbWithin h least left rounds).bind fun value ↦ ?_
  exact (leave stack.constructs_caller).bind fun _ ↦ pure value

private theorem prefixed {limit : Option Nat} {stack : Stack .unary} {inner primary : Counted Value}
    (inside : Counts (stack.constructs + 1) (stack.constructs + 1) inner)
    (h : Counts stack.constructs stack.constructs primary) :
    Counts stack.constructs stack.constructs (Counted.prefixed limit stack inner primary) := by
  have opened : Counts stack.constructs (stack.constructs + 1)
      (Counted.enter limit (.prefixed stack)) := by
    have h : Counts _ _ (Counted.enter limit (.prefixed stack)) := enter
    simpa [Stack.constructs] using h
  have closed : Counts (stack.constructs + 1) stack.constructs
      (Counted.leave (.prefixed stack)) := by
    have h : Counts _ _ (Counted.leave (.prefixed stack)) := leave rfl
    simpa [Stack.constructs] using h
  refine step.bind fun found ↦ ?_
  split
  · exact step.bind fun _ ↦ opened.bind fun _ ↦ inside.bind fun operand ↦ closed.bind fun _ ↦ step
  · exact step.bind fun _ ↦ opened.bind fun _ ↦ inside.bind fun operand ↦ closed.bind fun _ ↦ step
  · exact h

/-- An expression opens a construct and closes it; an operand closes what it opens. -/
theorem expression_unary (query : Query) (limit : Option Nat) (calls : Nat) :
    (∀ (stack : Stack .expression) (least : Nat),
      Counts (stack.constructs - 1) (stack.constructs - 1)
        (Counted.expression query limit calls stack least)) ∧
    ∀ stack : Stack .unary,
      Counts stack.constructs stack.constructs (Counted.unary query limit calls stack) := by
  induction calls with
  | zero => exact ⟨fun _ _ ↦ cut, fun _ ↦ cut⟩
  | succ calls ih =>
    obtain ⟨expression, unary⟩ := ih
    constructor
    · intro stack least
      refine climb (unary (.operand stack)) (fun least ↦ ?_) least
      simpa [Stack.constructs] using expression (.right stack) least
    · intro stack
      refine prefixed ?_ (primary fun nested ↦ expression nested 0)
      simpa [Stack.constructs] using unary (.prefixed stack)

/-- Throughout the evaluation of a token stream the counter is the number of open constructs. -/
theorem evaluateTokens (query : Query) (limit : Option Nat) (calls : Nat) :
    Counts 0 0 (Counted.evaluateTokens query limit calls) := by
  have look : Counts 0 0 (Counted.step .source Step.ahead?) := step
  refine look.bind fun found ↦ ?_
  split
  · exact pure _
  · refine ((expression_unary query limit calls).1 (.whole .source) 0).bind fun value ↦ ?_
    refine look.bind fun found ↦ ?_
    split
    · exact pure _
    · exact step

end Counts

/-! ### The calls -/

/-- The calls that the function may have made inside one another before the next construct is
opened. -/
def Routine.callsLeft : Routine → Nat
  | source => 0
  | expression => 3
  | unary => 2
  | primary => 1
  | call => 0

namespace Stack

/-- Each construct pays for four calls: those of an expression, an operand, a primary and a
function. -/
private theorem frames_add_callsLeft {r : Routine} (stack : Stack r) :
    stack.frames + r.callsLeft ≤ 4 * stack.constructs := by
  induction stack with
  | source => exact Nat.le_refl _
  | whole | brackets | argument | right | operand | prefixed | primary | call =>
    simp only [frames, constructs, Routine.callsLeft] at *
    omega

/-- There are at most four calls for each construct that is open. -/
theorem frames_le {r : Routine} (stack : Stack r) : stack.frames ≤ 4 * stack.constructs :=
  Nat.le_trans (Nat.le_add_right _ _) stack.frames_add_callsLeft

end Stack

end StoryEngine.Expression
