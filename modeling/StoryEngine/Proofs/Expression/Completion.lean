import StoryEngine.Proofs.Expression.Acceptance
import StoryEngine.Proofs.Expression.Counter

/-!
# Completion

The evaluation with a counter is not cut off when it may make two calls inside one another for each
token ahead, and two more: an expression goes on to an operand at the same place, and an operand to
others only past a token. Without a limit it does not fail for the depth either. So without a limit
a run tells of the constructs of the whole evaluation, however deep they are nested.
-/

namespace StoryEngine.Expression

/-- The failure of an expression that is nested too deeply, wherever that shows. -/
def Failure.IsTooDeep (e : Failure) : Prop :=
  ∃ position, e = .badGrammar .nestedTooDeeply position

variable {α β : Type} {limit : Option Nat} {r : Routine}

/-! ### Failures of other kinds -/

private theorem Value.toNumber_not_isTooDeep {v : Value} {e : Failure}
    (failed : v.toNumber = .error e) :
    ¬ e.IsTooDeep := by
  obtain ⟨s, rfl⟩ := Value.toNumber_error failed
  simp [Failure.IsTooDeep]

/-- No operator fails for the depth. -/
theorem Operator.apply_not_isTooDeep {op : Operator} {left right : Value} {place : Nat}
    {e : Failure} (failed : op.apply left right place = .error e) : ¬ e.IsTooDeep := by
  by_cases binary : op = .not
  · subst binary
    cases failed
    simp [Failure.IsTooDeep]
  · let connective : Connective := ⟨op, binary⟩
    obtain ⟨s, rfl⟩ := connective.apply_error failed
    simp [Failure.IsTooDeep]

/-- Looking a function up and applying it takes no token, and does not fail for the depth. -/
theorem triple_function_other (query : Query) (name : String) (place : Nat) (args : List Value)
    (before : List Symbol) :
    Triple (fun e ↦ ¬ e.IsTooDeep) before
      (match Builtin.ofName? name with
        | some function => function.apply query args
        | none => throw (.unknownFunction name place))
      fun _ after ↦ after = before := by
  have number (s : String) : ¬ (Failure.notANumber s).IsTooDeep := by simp [Failure.IsTooDeep]
  have unknown (name : String) (place : Nat) :
      ¬ (Failure.unknownFunction name place).IsTooDeep := by
    simp [Failure.IsTooDeep]
  exact triple_function number unknown query name place args

/-- Taking the negative takes no token, and does not fail for the depth. -/
theorem triple_negative_other (v : Value) (before : List Symbol) :
    Triple (fun e ↦ ¬ e.IsTooDeep) before
      (do return Value.number (-(← Step.ofExcept v.toNumber))) fun _ after ↦ after = before := by
  refine Triple.bind (P := fun _ after ↦ after = before) ?_ ?_
  · exact Triple.ofExcept (fun e ↦ Value.toNumber_not_isTooDeep) fun _ _ ↦ rfl
  · rintro x _ rfl
    exact Triple.pure rfl

/-! ### Where the cursor is -/

/-- Going on leaves one token fewer, if there was one. -/
theorem Cursor.length_advance (c : Cursor) : c.advance.rest.length = c.rest.length - 1 := by
  simp [advance]

/-- Going on past a token leaves fewer tokens. -/
theorem Cursor.length_advance_lt (c : Cursor) {s : Symbol} (found : c.ahead? = some s) :
    c.advance.rest.length < c.rest.length := by
  have some : c.rest ≠ [] := by
    intro nil
    simp [ahead?, nil] at found
  rw [c.length_advance]
  exact Nat.sub_one_lt (mt List.length_eq_zero_iff.1 some)

/-- The tokens ahead are as many as their symbols. -/
theorem Cursor.length_rest_of_symbols {c c' : Cursor} (same : c'.symbols = c.symbols) :
    c'.rest.length = c.rest.length := by
  simpa [symbols] using congrArg List.length same

/-! ### The steps -/

/-- What comes of a step with `ahead` tokens ahead that is not cut off: a result with the cursor no
further back, or a failure, which is not one for the depth if there is no limit. -/
inductive Complete (limit : Option Nat) (ahead : Nat) :
    Option (EStateM.Result Failure Gauge α) → Prop where
  | ok {a : α} {g : Gauge} (shorter : g.cursor.rest.length ≤ ahead) :
      Complete limit ahead (some (.ok a g))
  | error {e : Failure} {g : Gauge} (other : limit = none → ¬ e.IsTooDeep) :
      Complete limit ahead (some (.error e g))

/-- The step from the cursor on is not cut off, whatever the counter is. -/
def Completes (limit : Option Nat) (x : Counted α) (c : Cursor) : Prop :=
  ∀ depth, Complete limit c.rest.length (x ⟨c, depth⟩).1

private theorem Complete.mono {ahead ahead' : Nat} {x : Option (EStateM.Result Failure Gauge α)}
    (h : Complete limit ahead x) (shorter : ahead ≤ ahead') : Complete limit ahead' x := by
  cases h with
  | ok shorter' => exact .ok (Nat.le_trans shorter' shorter)
  | error other => exact .error other

namespace Completes

variable {x : Step α} {y : Counted α} {c c' : Cursor} {stack : Stack r}

private theorem pure (a : α) : Completes limit (Pure.pure a) c :=
  fun _ ↦ .ok (Nat.le_refl _)

private theorem bind {f : α → Counted β} (first : Completes limit y c)
    (second : ∀ a c', c'.rest.length ≤ c.rest.length → Completes limit (f a) c') :
    Completes limit (y >>= f) c := by
  intro depth
  have first := first depth
  generalize made : y ⟨c, depth⟩ = counted at first
  obtain ⟨result, moments⟩ := counted
  cases first with
  | @ok a g shorter =>
    rw [Counted.bind_ok made]
    exact (second a g.cursor shorter g.depth).mono shorter
  | error other =>
    rw [Counted.bind_error made]
    exact .error other

private theorem map {f : α → β} (h : Completes limit y c) : Completes limit (f <$> y) c :=
  h.bind fun a _ _ ↦ pure (f a)

/-- A step that opens and closes nothing, takes no token and does not fail for the depth. -/
private theorem step
    (h : Triple (fun e ↦ ¬ e.IsTooDeep) c.symbols x fun _ after ↦ after = c.symbols) :
    Completes limit (Counted.step stack x) c := by
  intro depth
  have h := h c rfl
  cases made : x c with
  | ok a c' =>
    rw [made] at h
    rw [Counted.step_ok made]
    exact .ok (Nat.le_of_eq (Cursor.length_rest_of_symbols h))
  | error e c' =>
    rw [made] at h
    rw [Counted.step_error made]
    exact .error fun _ ↦ h

/-- A step that looks at the tokens ahead or takes one. -/
private theorem next {f : α → Counted β} {a : α} (h : Completes limit (f a) c')
    (made : x c = .ok a c')
    (shorter : c'.rest.length ≤ c.rest.length) :
    Completes limit (Counted.step stack x >>= f) c := by
  intro depth
  have counted : Counted.step stack x ⟨c, depth⟩ = _ := Counted.step_ok made
  rw [Counted.bind_ok counted]
  exact (h depth).mono shorter

private theorem position {f : Nat → Counted β} (h : Completes limit (f c.position) c) :
    Completes limit (Counted.step stack Step.position >>= f) c :=
  h.next rfl (Nat.le_refl _)

private theorem remaining {f : Nat → Counted β} (h : Completes limit (f c.rest.length) c) :
    Completes limit (Counted.step stack Step.remaining >>= f) c :=
  h.next rfl (Nat.le_refl _)

private theorem ahead {f : Option Symbol → Counted β} (h : Completes limit (f c.ahead?) c) :
    Completes limit (Counted.step stack Step.ahead? >>= f) c :=
  h.next rfl (Nat.le_refl _)

private theorem read {f : Option Symbol → Counted β} (h : Completes limit (f c.ahead?) c.advance) :
    Completes limit (Counted.step stack Step.read? >>= f) c :=
  h.next rfl (by simp [Cursor.advance])

/-- Only with a limit may a construct be too deep. -/
private theorem enter {f : Unit → Counted β} (h : Completes limit (f ()) c) :
    Completes limit (Counted.enter limit stack >>= f) c := by
  intro depth
  cases limit with
  | none =>
    rw [Counted.bind_ok (Counted.enter_ok fun n member ↦ absurd member (Option.not_mem_none n))]
    exact h (depth + 1)
  | some n =>
    by_cases beyond : (n : Int) < depth + 1
    · rw [Counted.bind_error (Counted.enter_error rfl beyond)]
      exact .error nofun
    · rw [Counted.bind_ok (Counted.enter_ok fun n' same ↦ ?_)]
      · exact h (depth + 1)
      · cases same
        exact Int.not_lt.1 beyond

private theorem leave {f : Unit → Counted β} (h : Completes limit (f ()) c) :
    Completes limit (Counted.leave stack >>= f) c :=
  fun depth ↦ h (depth - 1)

private theorem fault {f : Fault} (other : f ≠ .nestedTooDeeply) :
    Completes limit (Counted.step stack (Step.fault (α := α) f)) c :=
  step (Triple.fault fun _ ⟨_, same⟩ ↦ other (by cases same; rfl))

/-! ### The functions of the evaluation -/

private theorem argumentsWithin {counted : Counted Value} {stack : Stack .call} {n : Nat}
    (h : ∀ c : Cursor, c.rest.length ≤ n → Completes limit counted c) (name : String)
    (rounds : Nat) (within : c.rest.length ≤ n) :
    Completes limit (Counted.argumentsWithin stack counted name rounds) c := by
  induction rounds generalizing c with
  | zero => exact pure _
  | succ rounds ih =>
    refine (h c within).bind fun value c' shorter ↦ position (read ?_)
    have more := ih (c := c'.advance) (by
      rw [c'.length_advance]
      omega)
    split
    · exact more.map
    · exact pure _
    · exact step (Triple.throw (by simp [Failure.IsTooDeep]))

private theorem call {query : Query} {counted : Counted Value} {stack : Stack .call} {n : Nat}
    (h : ∀ c : Cursor, c.rest.length ≤ n → Completes limit counted c) (name : String)
    (place : Nat) (within : c.rest.length ≤ n) :
    Completes limit (Counted.call query stack counted name place) c := by
  have applied (args : List Value) (c : Cursor) :=
    triple_function_other query name place args c.symbols
  refine read (ahead ?_)
  by_cases closing : c.advance.ahead? = some .rightParen
  · rw [if_pos closing]
    exact read ((pure []).bind fun args c' _ ↦ step (applied args c'))
  · rw [if_neg closing]
    have inside : c.advance.rest.length ≤ n := by
      rw [c.length_advance]
      omega
    exact remaining ((argumentsWithin h name _ inside).bind fun args c' _ ↦ step (applied args c'))

private theorem primary {query : Query} {counted : Stack .expression → Counted Value}
    {stack : Stack .primary}
    (h : ∀ (inner : Stack .expression) (c' : Cursor), c'.rest.length < c.rest.length →
      Completes limit (counted inner) c') :
    Completes limit (Counted.primary query stack counted) c := by
  refine position (read ?_)
  cases found : c.ahead? with
  | none => exact step (Triple.throw (by simp [Failure.IsTooDeep]))
  | some s =>
    have shorter := c.length_advance_lt found
    cases s with
    | number x => exact pure _
    | text s => exact pure _
    | name name =>
      refine ahead ?_
      by_cases opening : c.advance.ahead? = some .leftParen
      · rw [if_pos opening]
        refine call (fun c' within ↦ h _ c' ?_) name _ (Nat.le_refl _)
        exact Nat.lt_of_le_of_lt within shorter
      · rw [if_neg opening]
        exact pure _
    | leftParen =>
      refine (h _ _ shorter).bind fun value c' _ ↦ ahead ?_
      split
      · exact read (pure _)
      · exact fault (by simp)
    | operator | rightParen | comma => exact step (Triple.throw (by simp [Failure.IsTooDeep]))

private theorem climbWithin {counted : Nat → Counted Value} {stack : Stack .expression} {n : Nat}
    (h : ∀ (least : Nat) (c : Cursor), c.rest.length < n → Completes limit (counted least) c)
    (least : Nat) (left : Value) (rounds : Nat) (within : c.rest.length ≤ n) :
    Completes limit (Counted.climbWithin stack counted least left rounds) c := by
  induction rounds generalizing c left with
  | zero => exact pure _
  | succ rounds ih =>
    refine position (ahead ?_)
    cases found : c.ahead? with
    | none => exact pure _
    | some s =>
      have shorter := c.length_advance_lt found
      cases s with
      | operator op =>
        by_cases loose : op.precedence < least
        · simp only [if_pos loose]
          exact pure _
        · simp only [if_neg loose]
          refine read ((h _ _ (by omega)).bind fun right c' shorter' ↦ ?_)
          refine (step ?_).bind fun value c'' _ ↦ ih value (by omega)
          exact Triple.ofExcept (fun e ↦ Operator.apply_not_isTooDeep) fun _ _ ↦ rfl
      | number | text | name | leftParen | rightParen | comma => exact pure _

private theorem prefixed {inner primary : Counted Value} {stack : Stack .unary}
    (inside : ∀ c' : Cursor, c'.rest.length < c.rest.length → Completes limit inner c')
    (h : Completes limit primary c) :
    Completes limit (Counted.prefixed limit stack inner primary) c := by
  refine ahead ?_
  cases found : c.ahead? with
  | none => exact h
  | some s =>
    have shorter := c.length_advance_lt found
    cases s with
    | operator op =>
      cases op with
      | not =>
        refine read (enter ((inside _ shorter).bind fun operand c' _ ↦ leave (step ?_)))
        exact Triple.pure rfl
      | sub =>
        refine read (enter ((inside _ shorter).bind fun operand c' _ ↦ leave (step ?_)))
        exact triple_negative_other operand c'.symbols
      | equal | unequal | atMost | atLeast | and | or | add | mul | div | mod | less | greater =>
        exact h
    | number | text | name | leftParen | rightParen | comma => exact h

/-- Two calls for each token ahead suffice: an operand needs one more, an expression two. -/
private theorem expression_unary (query : Query) (calls : Nat) :
    (∀ (stack : Stack .expression) (least : Nat) (c : Cursor), 2 * c.rest.length + 2 ≤ calls →
      Completes limit (Counted.expression query limit calls stack least) c) ∧
    ∀ (stack : Stack .unary) (c : Cursor), 2 * c.rest.length + 1 ≤ calls →
      Completes limit (Counted.unary query limit calls stack) c := by
  -- an expression goes on to an operand at the same place, and an operand to others past a token
  induction calls with
  | zero => exact ⟨fun _ _ _ _ ↦ by omega, fun _ _ _ ↦ by omega⟩
  | succ calls ih =>
    obtain ⟨expression, unary⟩ := ih
    constructor
    · intro stack least c enough
      refine enter ((unary _ c (by omega)).bind fun left c' shorter ↦ remaining ?_)
      have tighter (least : Nat) (c' : Cursor) (shorter : c'.rest.length < c.rest.length) :=
        expression (.right stack) least c' (by omega)
      exact (climbWithin tighter least left _ shorter).bind fun value c'' _ ↦ leave (pure value)
    · intro stack c enough
      refine prefixed (fun c' shorter ↦ unary _ c' (by omega)) (primary fun inner c' shorter ↦ ?_)
      exact expression inner 0 c' (by omega)

/-- With two calls for each token ahead and two more, the evaluation is not cut off. -/
theorem evaluateTokens (query : Query) {calls : Nat} (enough : 2 * c.rest.length + 2 ≤ calls) :
    Completes limit (Counted.evaluateTokens query limit calls) c := by
  refine ahead ?_
  by_cases nothing : c.ahead?.isNone
  · rw [if_pos nothing]
    exact pure _
  · rw [if_neg nothing]
    refine ((expression_unary query calls).1 _ 0 c enough).bind fun value c' _ ↦ ahead ?_
    split
    · exact pure _
    · exact fault (by simp)

end Completes

end StoryEngine.Expression
