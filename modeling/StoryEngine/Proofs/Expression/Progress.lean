import StoryEngine.Proofs.Expression.Meaning
import StoryEngine.Proofs.Expression.Walk

/-!
# Progress

A walk over a token list compared with the evaluation at the same place. The recursion follows the
room that is left for constructs, and the rounds of the two loops follow the tokens that are left:
a round that goes on has passed one. So a walk comes to an end from any place within the list, with
what the evaluation gives there, and further on whenever that is a value. The calls inside one
another are at most three for each token that is left, and six more.
-/

namespace StoryEngine.Expression

variable {α β : Type} {stream : TokenStream} {w : Walker}

/-- A walk `x` does what the step `y` of the evaluation does at the same place: it comes to the
same result or failure with the same draws left, and to a place that is not further back. With a
result it comes to the same cursor, with as many constructs open as before, and the index there
meets `Q`. -/
def Tracks (stream : TokenStream) (w : Walker) (x : Walk α) (y : Step α)
    (Q : α → Nat → Prop) : Prop :=
  match y (w.cursor stream) with
  | .ok a c => ∃ w', x w = some (.ok a, w') ∧ w'.cursor stream = c ∧ w'.depth = w.depth ∧
      Onward stream w w' ∧ Q a w'.index
  | .error e c => ∃ w', x w = some (.error e, w') ∧ w'.draws = c.draws ∧ Onward stream w w'

namespace Tracks

variable {x : Walk α} {y : Step α} {f : α → Walk β} {g : α → Step β} {P Q : α → Nat → Prop}
  {R : β → Nat → Prop}

private theorem pure {a : α} (within : w.index ≤ stream.last) (h : Q a w.index) :
    Tracks stream w (Pure.pure a) (Pure.pure a) Q :=
  ⟨w, rfl, rfl, rfl, .refl within, h⟩

private theorem throw {e : Failure} (within : w.index ≤ stream.last) :
    Tracks (α := α) stream w (MonadExcept.throw e) (MonadExcept.throw e) Q :=
  ⟨w, rfl, rfl, .refl within⟩

private theorem fault {f : Fault} (within : w.index ≤ stream.last) :
    Tracks (α := α) stream w (MonadExcept.throw (.badGrammar f (w.cursor stream).position))
      (Step.fault f) Q :=
  ⟨w, rfl, rfl, .refl within⟩

/-- A walk that has got from `w` to `w'` goes on from there. -/
private theorem resume {w' : Walker} {x' : Walk α} {y' : Step α} (on : Onward stream w w')
    (depth : w'.depth = w.depth) (walk : x w = x' w')
    (step : y (w.cursor stream) = y' (w'.cursor stream)) (h : Tracks stream w' x' y' Q) :
    Tracks stream w x y Q := by
  unfold Tracks at h ⊢
  rw [step, walk]
  cases made : y' (w'.cursor stream) with
  | error e c =>
    rw [made] at h
    obtain ⟨w'', run, draws, on'⟩ := h
    exact ⟨w'', run, draws, on.trans on'⟩
  | ok a c =>
    rw [made] at h
    obtain ⟨w'', run, place, depth', on', post⟩ := h
    exact ⟨w'', run, place, depth'.trans depth, on.trans on', post⟩

/-- Walks one after another do what the steps one after another do. -/
private theorem bind (first : Tracks stream w x y P)
    (second : ∀ a w', Onward stream w w' → w'.depth = w.depth → P a w'.index →
      Tracks stream w' (f a) (g a) R) : Tracks stream w (x >>= f) (y >>= g) R := by
  unfold Tracks at first
  cases made : y (w.cursor stream) with
  | error e c =>
    rw [made] at first
    obtain ⟨w', run, draws, on⟩ := first
    have failed : (y >>= g) (w.cursor stream) = .error e c := by
      simp only [Bind.bind, EStateM.bind, made]
    unfold Tracks
    rw [failed]
    exact ⟨w', Walk.bind_error run, draws, on⟩
  | ok a c =>
    rw [made] at first
    obtain ⟨w', run, rfl, depth, on, post⟩ := first
    refine resume on depth (Walk.bind_ok run) ?_ (second a w' on depth post)
    simp only [Bind.bind, EStateM.bind, made]

private theorem mono (h : Tracks stream w x y P) (imp : ∀ a i, P a i → Q a i) :
    Tracks stream w x y Q := by
  unfold Tracks at h ⊢
  cases made : y (w.cursor stream) with
  | error e c =>
    rw [made] at h
    exact h
  | ok a c =>
    rw [made] at h
    obtain ⟨w', run, place, depth, on, post⟩ := h
    exact ⟨w', run, place, depth, on, imp a _ post⟩

/-- A result that does not depend on the place. -/
private theorem ofExcept {r : Except Failure α} (within : w.index ≤ stream.last)
    (h : ∀ a, Q a w.index) : Tracks stream w (MonadExcept.ofExcept r) (Step.ofExcept r) Q := by
  cases r with
  | ok a => exact pure within (h a)
  | error e => exact throw within

/-- A computation that knows no tokens. -/
private theorem ofDrawing {z : Drawing α} (reads : ∀ tokens, Reads y z tokens tokens)
    (within : w.index ≤ stream.last) (h : ∀ a, Q a w.index) :
    Tracks stream w (Walk.ofDrawing z) y Q := by
  have same := reads (w.cursor stream).rest stream.stop w.draws
  unfold Tracks
  cases made : z w.draws with
  | ok a draws =>
    rw [made] at same
    rw [show y (w.cursor stream) = _ from same]
    refine ⟨{ w with draws }, ?_, rfl, rfl, ⟨Nat.le_refl _, within⟩, h a⟩
    simp only [Walk.ofDrawing, made]
  | error e draws =>
    rw [made] at same
    obtain ⟨rest, same⟩ := same
    rw [show y (w.cursor stream) = _ from same]
    refine ⟨{ w with draws }, ?_, rfl, Nat.le_refl _, within⟩
    simp only [Walk.ofDrawing, made]

/-- A walk looks at what is ahead. -/
private theorem peek {f : TokenOrEnd → Walk α} (within : w.index ≤ stream.last)
    (h : Tracks stream w (f ⟨(w.cursor stream).ahead?, (w.cursor stream).position⟩) y Q) :
    Tracks stream w (Walk.peek stream >>= f) y Q := by
  rw [← Walker.entry_eq within] at h
  exact h

/-! What a step learns of its place. -/

private theorem position {g : Nat → Step α}
    (h : Tracks stream w x (g (w.cursor stream).position) Q) :
    Tracks stream w x (Step.position >>= g) Q :=
  h

private theorem ahead {g : Option Symbol → Step α}
    (h : Tracks stream w x (g (w.cursor stream).ahead?) Q) :
    Tracks stream w x (Step.ahead? >>= g) Q :=
  h

private theorem remaining {g : Nat → Step α} (h : Tracks stream w x (g (stream.last - w.index)) Q) :
    Tracks stream w x (Step.remaining >>= g) Q := by
  rw [← Walker.length_rest] at h
  exact h

/-- A walk passes what is ahead where the step reads it. -/
private theorem advance {f : TokenOrEnd → Walk α} {g : Option Symbol → Step α}
    (within : w.index ≤ stream.last)
    (h : Tracks stream (w.advance stream)
      (f ⟨(w.cursor stream).ahead?, (w.cursor stream).position⟩) (g (w.cursor stream).ahead?) Q) :
    Tracks stream w (Walk.advance stream >>= f) (Step.read? >>= g) Q := by
  rw [← Walker.entry_eq within] at h
  refine resume (Onward.advance within) Walker.depth_advance rfl ?_ h
  rw [Walker.cursor_advance]
  rfl

end Tracks

namespace Tracks

variable {limit : Nat} {x : Walk α} {y : Step α} {Q : α → Nat → Prop}

/-- With no room left, a construct fails where it starts. -/
private theorem nested_full (within : w.index ≤ stream.last) (full : limit ≤ w.depth) :
    Tracks stream w (Walk.nested stream limit x) (Step.fault .nestedTooDeeply) Q := by
  refine ⟨{ w with depth := w.depth + 1 }, ?_, rfl, Nat.le_refl _, within⟩
  rw [Walk.nested, Walk.bind_error (Walk.enter_error full), Walker.entry_eq within]

/-- A construct is closed where it was opened. -/
private theorem nested (room : w.depth < limit)
    (h : Tracks stream { w with depth := w.depth + 1 } x y Q) :
    Tracks stream w (Walk.nested stream limit x) y Q := by
  have place : Walker.cursor stream { w with depth := w.depth + 1 } = w.cursor stream := rfl
  unfold Tracks at h ⊢
  rw [place] at h
  rw [Walk.nested, Walk.bind_ok (Walk.enter_ok room)]
  cases made : y (w.cursor stream) with
  | error e c =>
    rw [made] at h
    obtain ⟨w', run, draws, on⟩ := h
    exact ⟨w', Walk.bind_error run, draws, on.le, on.within⟩
  | ok a c =>
    rw [made] at h
    obtain ⟨w', run, place, depth, on, post⟩ := h
    refine ⟨{ w' with depth := w'.depth - 1 }, ?_, place, ?_, ⟨on.le, on.within⟩, post⟩
    · rw [Walk.bind_ok run]
      rfl
    · show w'.depth - 1 = w.depth
      rw [depth]
      rfl

end Tracks

/-! ### The functions of the evaluation -/

section

variable {limit calls least : Nat} {query : Query} {operand : Nat → Step Value}
  {nested : Step Value}

/-- One round of the operators, as a step of the evaluation. -/
def climbRound (operand : Nat → Step Value) (least : Nat) (left : Value) : Step (Round Value) := do
  let position ← Step.position
  match ← Step.ahead? with
  | some (.operator op) =>
      if op.precedence < least then return .leave left
      else do
        let _ ← Step.read?
        let right ← operand (op.precedence + 1)
        let value ← Step.ofExcept (op.apply left right position)
        return .again value
  | _ => return .leave left

/-- The operators go round after round. -/
private theorem climbWithin_succ (operand : Nat → Step Value) (least : Nat) (left : Value)
    (rounds : Nat) :
    climbWithin operand least left (rounds + 1) = (do
      match ← climbRound operand least left with
      | .leave value => return value
      | .again value => climbWithin operand least value rounds) := by
  rw [climbWithin, climbRound]
  simp only [bind_assoc]
  congr
  funext position
  congr
  funext found
  rcases found with _ | _ | _ | _ | op
  case some.operator =>
    by_cases loose : op.precedence < least
    · simp only [if_pos loose, pure_bind]
    · simp only [if_neg loose, bind_assoc, pure_bind]
  all_goals rfl

/-- One round of the arguments, as a step of the evaluation. -/
def argumentsRound (nested : Step Value) (name : String) (args : List Value) :
    Step (Round (List Value)) := do
  let value ← nested
  let position ← Step.position
  match ← Step.read? with
  | some .comma => return .again (args ++ [value])
  | some .rightParen => return .leave (args ++ [value])
  | found => throw (.badGrammar (.expectedArgumentEnd name found) position)

/-- The arguments go round after round. -/
private theorem argumentsWithin_succ (nested : Step Value) (name : String) (args : List Value)
    (rounds : Nat) :
    (args ++ ·) <$> argumentsWithin nested name (rounds + 1) = (do
      match ← argumentsRound nested name args with
      | .leave args => return args
      | .again args => (args ++ ·) <$> argumentsWithin nested name rounds) := by
  rw [argumentsWithin, argumentsRound]
  simp only [bind_assoc, map_bind]
  congr
  funext value
  congr
  funext position
  congr
  funext found
  rcases found with _ | _ | _ | _ | _ | _ | _ | _
  case some.comma => simp
  case some.rightParen => simp
  all_goals rfl

/-- From `w` on, with as many constructs open, and with three calls for each token that is left and
`spare` more, a walk does what the step `y` does, and a value takes a token. -/
def TracksWithin (stream : TokenStream) (w : Walker) (spare : Nat) (x : Nat → Walk Value)
    (y : Step Value) : Prop :=
  ∀ calls w', Onward stream w w' → w'.depth = w.depth →
    3 * (stream.last - w'.index) + spare ≤ calls →
    Tracks stream w' (x calls) y fun _ i ↦ w'.index < i

/-- A walk goes on as well from any place that it may come to. -/
private theorem TracksWithin.onward {w' : Walker} {spare : Nat} {x : Nat → Walk Value}
    {y : Step Value}
    (on : Onward stream w w') (depth : w'.depth = w.depth) (h : TracksWithin stream w spare x y) :
    TracksWithin stream w' spare x y :=
  fun calls w'' on' depth' ↦ h calls w'' (on.trans on') (depth'.trans depth)

namespace Tracks

/-- A round of the operators that goes on has passed the operator. -/
private theorem operatorRound {left : Value} (within : w.index ≤ stream.last)
    (h : ∀ least, TracksWithin stream w 3 (Walk.expression stream limit query · least)
      (operand least))
    (enough : 3 * (stream.last - w.index) + 1 ≤ calls) :
    Tracks stream w (Walk.operatorRound stream limit query calls least left)
      (climbRound operand least left) fun round i ↦ (∃ v, round = .again v) → w.index < i := by
  obtain _ | calls := calls
  · omega
  rw [Walk.operatorRound, climbRound]
  refine peek within (position (ahead ?_))
  cases found : (w.cursor stream).ahead? with
  | none => exact pure within (absurd · (Round.leave_not_again left))
  | some s =>
    cases s with
    | operator op =>
      by_cases loose : op.precedence < least
      · simp only [if_pos loose]
        exact pure within (absurd · (Round.leave_not_again left))
      · simp only [if_neg loose]
        have last := Walker.lt_last found
        have before := Walker.lt_advance last
        refine advance within
          ((h _ calls _ (.advance within) Walker.depth_advance (by omega)).bind ?_)
        intro right w' on depth _
        refine (ofExcept on.within fun _ ↦ trivial).bind (P := fun _ _ ↦ True) ?_
        intro value w'' on' depth' _
        exact pure on'.within fun _ ↦ Nat.lt_of_lt_of_le before (Nat.le_trans on.le on'.le)
    | number | text | name | leftParen | rightParen | comma =>
      exact pure within (absurd · (Round.leave_not_again left))

/-- The loop of the operators. The bound on the rounds of the step is never reached, as each round
passes a token. -/
private theorem operators (rounds : Nat) : ∀ {w : Walker} {calls : Nat} {left : Value},
    w.index ≤ stream.last →
    (∀ least, TracksWithin stream w 3 (Walk.expression stream limit query · least)
      (operand least)) →
    3 * (stream.last - w.index) + 2 ≤ calls → stream.last - w.index ≤ rounds →
    Tracks stream w (Walk.operators stream limit query calls least left)
      (climbWithin operand least left rounds) fun _ i ↦ w.index ≤ i := by
  induction rounds with
  | zero =>
    -- With no rounds left the walk is at the end, where it finds no operator either.
    intro w calls left within _ enough stop
    obtain _ | _ | calls := calls
    · omega
    · omega
    rw [Walk.operators, Walk.operatorRound, bind_assoc, climbWithin]
    refine peek within ?_
    cases found : (w.cursor stream).ahead? with
    | none => exact pure within (Nat.le_refl _)
    | some s =>
      have := Walker.lt_last found
      omega
  | succ rounds ih =>
    intro w calls left within h enough more
    obtain _ | calls := calls
    · omega
    rw [Walk.operators, climbWithin_succ]
    refine (operatorRound within h (by omega)).bind fun round w' on depth moved ↦ ?_
    cases round with
    | leave value => exact pure on.within on.le
    | again value =>
      have moved := moved ⟨value, rfl⟩
      have := on.within
      refine (ih on.within (fun least ↦ (h least).onward on depth) (by omega) (by omega)).mono ?_
      exact fun _ _ further ↦ Nat.le_trans on.le further

/-- A round of the arguments passes the argument and what stands after it. -/
private theorem argumentRound {name : String} {args : List Value} (within : w.index ≤ stream.last)
    (h : TracksWithin stream w 3 (Walk.expression stream limit query · 0) nested)
    (enough : 3 * (stream.last - w.index) + 4 ≤ calls) :
    Tracks stream w (Walk.argumentRound stream limit query calls name args)
      (argumentsRound nested name args) fun _ i ↦ w.index < i := by
  obtain _ | calls := calls
  · omega
  rw [Walk.argumentRound, argumentsRound]
  refine (h calls w (.refl within) rfl (by omega)).bind fun value w' on _ moved ↦
    position (advance on.within ?_)
  have on' := Onward.advance on.within
  have moved' := Nat.lt_of_lt_of_le moved on'.le
  rcases found : (w'.cursor stream).ahead? with _ | _ | _ | _ | _ | _ | _ | _
  case some.comma => exact pure on'.within moved'
  case some.rightParen => exact pure on'.within moved'
  all_goals exact throw on'.within

/-- The loop of the arguments, whose first round must find one. -/
private theorem arguments (name : String) (rounds : Nat) :
    ∀ {w : Walker} {calls : Nat} (args : List Value), w.index ≤ stream.last →
      TracksWithin stream w 3 (Walk.expression stream limit query · 0) nested →
      3 * (stream.last - w.index) + 5 ≤ calls → stream.last - w.index < rounds →
      Tracks stream w (Walk.arguments stream limit query calls name args)
        ((args ++ ·) <$> argumentsWithin nested name rounds) fun _ i ↦ w.index < i := by
  induction rounds with
  | zero => exact fun _ _ _ _ none ↦ absurd none (Nat.not_lt_zero _)
  | succ rounds ih =>
    intro w calls args within h enough more
    obtain _ | calls := calls
    · omega
    rw [Walk.arguments, argumentsWithin_succ]
    refine (argumentRound within h (by omega)).bind fun round w' on depth moved ↦ ?_
    cases round with
    | leave args => exact pure on.within moved
    | again args =>
      have := on.within
      refine (ih args on.within (h.onward on depth) (by omega) (by omega)).mono ?_
      exact fun _ _ further ↦ Nat.lt_trans moved further

/-- A call passes its opening bracket, and at the end it finds no argument. -/
private theorem call (name : String) (place : Nat) (within : w.index ≤ stream.last)
    (h : TracksWithin stream w 3 (Walk.expression stream limit query · 0) nested)
    (enough : 3 * (stream.last - (w.advance stream).index) + 6 ≤ calls) :
    Tracks stream w (Walk.call stream limit query calls name place)
      (Expression.call query nested name place) fun _ i ↦ w.index < i := by
  obtain _ | calls := calls
  · omega
  rw [Walk.call, Expression.call]
  have on := Onward.advance within
  refine advance within (peek on.within (ahead ?_))
  by_cases closed : ((w.advance stream).cursor stream).ahead? = some .rightParen
  · simp only [if_pos closed]
    have moved := Nat.lt_of_le_of_lt on.le (Walker.lt_advance (Walker.lt_last closed))
    have on' := Onward.advance on.within
    exact advance on.within (ofDrawing (reads_function name place []) on'.within fun _ ↦ moved)
  · simp only [if_neg closed]
    have args := arguments name (stream.last - (w.advance stream).index + 1) [] on.within
      (h.onward on Walker.depth_advance) (Nat.le_of_succ_le_succ enough) (Nat.lt_succ_self _)
    simp only [List.nil_append, id_map'] at args
    refine remaining (args.bind fun args w' on' _ moved ↦ ?_)
    exact ofDrawing (reads_function name place args) on'.within fun _ ↦
      Nat.lt_of_le_of_lt on.le moved

private theorem primary (within : w.index ≤ stream.last)
    (h : TracksWithin stream w 3 (Walk.expression stream limit query · 0) nested)
    (enough : 3 * (stream.last - w.index) + 1 ≤ calls) :
    Tracks stream w (Walk.primary stream limit query calls) (Expression.primary query nested)
      fun _ i ↦ w.index < i := by
  obtain _ | calls := calls
  · omega
  rw [Walk.primary, Expression.primary]
  have on := Onward.advance within
  refine position (advance within ?_)
  cases found : (w.cursor stream).ahead? with
  | none => exact throw on.within
  | some s =>
    have last := Walker.lt_last found
    have before := Walker.lt_advance last
    cases s with
    | number x | text s => exact pure on.within before
    | name name =>
      refine peek on.within (ahead ?_)
      by_cases opening : ((w.advance stream).cursor stream).ahead? = some .leftParen
      · simp only [if_pos opening]
        have bracket := Walker.lt_advance (Walker.lt_last opening)
        have := Walker.advance_le on.within
        refine (call name _ on.within (h.onward on Walker.depth_advance) (by omega)).mono ?_
        exact fun _ _ further ↦ Nat.lt_trans before further
      · simp only [if_neg opening]
        exact pure on.within before
    | leftParen =>
      refine (h calls _ on Walker.depth_advance (by omega)).bind fun value w' on' _ moved ↦
        peek on'.within (ahead ?_)
      have further := Nat.lt_of_lt_of_le before (Nat.le_of_lt moved)
      cases closing : (w'.cursor stream).ahead? with
      | none => exact fault on'.within
      | some s =>
        cases s with
        | rightParen =>
          have on'' := Onward.advance on'.within
          exact advance on'.within (pure on''.within (Nat.lt_of_lt_of_le further on''.le))
        | number | text | name | operator | leftParen | comma => exact fault on'.within
    | operator | rightParen | comma => exact throw on.within

/-- An operand with the operators before it, each of which opens a construct. -/
private theorem prefixed {inner : Step Value} (within : w.index ≤ stream.last)
    (opened : ∀ calls w', Onward stream w w' → w'.depth = w.depth →
      3 * (stream.last - w'.index) + 2 ≤ calls →
      Tracks stream w' (Walk.nested stream limit (Walk.unary stream limit query calls)) inner
        fun _ _ ↦ True)
    (h : TracksWithin stream w 3 (Walk.expression stream limit query · 0) nested)
    (enough : 3 * (stream.last - w.index) + 2 ≤ calls) :
    Tracks stream w (Walk.unary stream limit query calls)
      (Expression.prefixed inner (Expression.primary query nested)) fun _ i ↦ w.index < i := by
  obtain _ | calls := calls
  · omega
  have primary := primary within h (Nat.le_of_succ_le_succ enough)
  have on := Onward.advance within
  rw [Walk.unary, Expression.prefixed]
  refine peek within (ahead ?_)
  cases found : (w.cursor stream).ahead? with
  | none => exact primary
  | some s =>
    have last := Walker.lt_last found
    have before := Walker.lt_advance last
    have opened := opened calls _ on Walker.depth_advance (by omega)
    cases s with
    | operator op =>
      cases op with
      | not =>
        refine advance within ?_
        simp only [← Walk.nested_bind (Walk.unary stream limit query calls)]
        refine opened.bind fun operand w' on' _ _ ↦ ?_
        exact pure on'.within (Nat.lt_of_lt_of_le before on'.le)
      | sub =>
        refine advance within ?_
        simp only [← Walk.nested_bind (Walk.unary stream limit query calls)]
        refine opened.bind fun operand w' on' _ _ ↦ ?_
        refine (ofExcept on'.within fun _ ↦ trivial).bind (P := fun _ _ ↦ True) ?_
        intro x w'' on'' _ _
        exact pure on''.within (Nat.lt_of_lt_of_le before (Nat.le_trans on'.le on''.le))
      | add | mul | div | mod | less | greater | atMost | atLeast | equal | unequal | and | or =>
        exact primary
    | number | text | name | leftParen | rightParen | comma => exact primary

end Tracks

/-- Expressions and operands, by the room that is left for constructs. -/
theorem tracks_evaluation (stream : TokenStream) (limit : Nat) (query : Query) (room : Nat) :
    ∀ w : Walker, limit - w.depth = room →
      (∀ least, TracksWithin stream w 3 (Walk.expression stream limit query · least)
        (expression query room least)) ∧
      TracksWithin stream w 2 (Walk.unary stream limit query) (unary query room) := by
  induction room with
  | zero =>
    intro w full
    have full := Nat.le_of_sub_eq_zero full
    have expressions (least : Nat) :
        TracksWithin stream w 3 (Walk.expression stream limit query · least)
          (expression query 0 least) := by
      intro calls w' on depth enough
      obtain _ | calls := calls
      · omega
      simp only [Walk.expression_succ, expression]
      exact .nested_full on.within (depth ▸ full)
    refine ⟨expressions, fun calls w' on depth enough ↦ ?_⟩
    rw [unary_zero]
    refine .prefixed on.within (fun _ w'' on' depth' _ ↦ ?_) ((expressions 0).onward on depth)
      enough
    exact .nested_full on'.within (by omega)
  | succ room ih =>
    intro w left
    let inside : Walker := { w with depth := w.depth + 1 }
    have less : limit - inside.depth = room := by
      show limit - (w.depth + 1) = room
      omega
    obtain ⟨expressions, operand⟩ := ih inside less
    -- What is inside of the construct that is opened at `w'`.
    have operand (calls : Nat) {w' : Walker} (on : Onward stream w w') (depth : w'.depth = w.depth)
        (enough : 3 * (stream.last - w'.index) + 2 ≤ calls) :
        Tracks stream { w' with depth := w'.depth + 1 } (Walk.unary stream limit query calls)
          (unary query room) fun _ i ↦ w'.index < i :=
      operand calls _ ⟨on.le, on.within⟩ (congrArg (· + 1) depth) enough
    have outer (least : Nat) :
        TracksWithin stream w 3 (Walk.expression stream limit query · least)
          (expression query (room + 1) least) := by
      intro calls w' on depth enough
      obtain _ | calls := calls
      · omega
      simp only [Walk.expression_succ, expression, climb]
      refine .nested (by omega) ((operand calls on depth (Nat.le_of_succ_le_succ enough)).bind
        fun _ w'' on' depth' moved ↦ .remaining ?_)
      have further : Onward stream inside w'' := ⟨Nat.le_trans on.le on'.le, on'.within⟩
      have level : w''.depth = inside.depth := depth'.trans (congrArg (· + 1) depth)
      refine (Tracks.operators _ on'.within (fun least ↦ (expressions least).onward further level)
        (by omega) (Nat.le_refl _)).mono ?_
      exact fun _ _ later ↦ Nat.lt_of_lt_of_le moved later
    refine ⟨outer, fun calls w' on depth enough ↦ ?_⟩
    rw [unary_succ]
    refine .prefixed on.within (fun calls w'' on' depth' enough ↦ ?_) ((outer 0).onward on depth)
      enough
    exact .nested (by omega) ((operand calls (on.trans on') (depth'.trans depth) enough).mono
      fun _ _ _ ↦ trivial)

/-- The token list as a whole, from a place outside of all constructs. -/
theorem tracks_evaluateTokens (stream : TokenStream) (query : Query)
    (within : w.index ≤ stream.last) (closed : w.depth = 0)
    (enough : 3 * (stream.last - w.index) + 3 ≤ calls) :
    Tracks stream w (Walk.evaluateTokens stream nestingLimit query calls) (evaluateTokens query)
      fun _ _ ↦ True := by
  rw [Walk.evaluateTokens, evaluateTokens]
  refine .peek within (.ahead ?_)
  cases found : (w.cursor stream).ahead? with
  | none => exact .pure within trivial
  | some s =>
    have whole := (tracks_evaluation stream nestingLimit query nestingLimit w
      (by rw [closed, Nat.sub_zero])).1 0 calls w (.refl within) rfl enough
    refine whole.bind fun value w' on _ _ ↦ .peek on.within (.ahead ?_)
    cases trailing : (w'.cursor stream).ahead? with
    | none => exact .pure on.within trivial
    | some s => exact .fault on.within

/-- With enough calls for its tokens, a source is walked to the end, with what the evaluation
gives. -/
theorem walk_eq {source : String} (query : Query) (draws : Draws)
    (enough : ∀ stream, lex source = .ok stream → 3 * stream.last + 3 ≤ calls) :
    walk calls source query draws = some (evaluate source query draws) := by
  rw [walk, evaluate]
  cases read : lex source with
  | error e => rfl
  | ok stream =>
    have tracks := tracks_evaluateTokens stream query (w := ⟨0, 0, draws⟩) (Nat.zero_le _) rfl
      (enough stream read)
    have start : Walker.cursor stream ⟨0, 0, draws⟩ = ⟨stream.tokens, stream.stop, draws⟩ := rfl
    unfold Tracks at tracks
    rw [start] at tracks
    simp only [EStateM.run]
    cases made : evaluateTokens query ⟨stream.tokens, stream.stop, draws⟩ with
    | error e c =>
      rw [made] at tracks
      obtain ⟨w, run, left, -⟩ := tracks
      simp only [run, left, Option.map_some]
    | ok value c =>
      rw [made] at tracks
      obtain ⟨w, run, rfl, -⟩ := tracks
      simp only [run, Option.map_some]
      rfl

/-- Every source is walked to the end, if there are enough calls. -/
theorem exists_walk_eq (source : String) (query : Query) (draws : Draws) :
    ∃ enough, ∀ calls, enough ≤ calls →
      walk calls source query draws = some (evaluate source query draws) := by
  cases read : lex source with
  | error e =>
    refine ⟨0, fun calls _ ↦ walk_eq query draws fun stream same ↦ ?_⟩
    cases read.symm.trans same
  | ok stream =>
    refine ⟨3 * stream.last + 3, fun calls enough ↦ walk_eq query draws fun stream' same ↦ ?_⟩
    cases read.symm.trans same
    exact enough

/-- From where it starts, a walk comes to an end at a place within the list that is not further
back, and with a result that meets `moves` the place is further on. -/
def Progresses (stream : TokenStream) (w : Walker) (x : Walk α) (moves : α → Prop) : Prop :=
  ∃ result w', x w = some (result, w') ∧ w.index ≤ w'.index ∧ w'.index ≤ stream.last ∧
    ∀ a, result = .ok a → moves a → w.index < w'.index

/-- What does as the evaluation does comes to an end, since the evaluation does. -/
theorem Tracks.progresses {x : Walk α} {y : Step α} {Q : α → Nat → Prop} {moves : α → Prop}
    (h : Tracks stream w x y Q) (further : ∀ a i, Q a i → moves a → w.index < i) :
    Progresses stream w x moves := by
  unfold Tracks at h
  cases made : y (w.cursor stream) with
  | error e c =>
    rw [made] at h
    obtain ⟨w', run, -, on⟩ := h
    exact ⟨_, w', run, on.le, on.within, nofun⟩
  | ok a c =>
    rw [made] at h
    obtain ⟨w', run, -, -, on, post⟩ := h
    refine ⟨_, w', run, on.le, on.within, fun b same moved ↦ ?_⟩
    cases same
    exact further a _ post moved

/-- Nothing is further on than the end. -/
private theorem Progresses.error {x : Walk α} (h : Progresses stream w x fun _ ↦ True)
    (stop : w.index = stream.last) : ∃ e w', x w = some (.error e, w') := by
  obtain ⟨result, w', run, -, within, moved⟩ := h
  cases result with
  | error e => exact ⟨e, w', run⟩
  | ok a =>
    have := moved a rfl trivial
    omega

/-- What a walk to a value does at a place, beside a step of the evaluation. -/
structure ReadsValue (stream : TokenStream) (w : Walker) (x : Walk Value) (y : Step Value) :
    Prop where
  /-- It does what the evaluation does there, and a value comes with the index further on. -/
  tracks : Tracks stream w x y fun _ i ↦ w.index < i
  /-- It comes to an end within the list and not further back, and with a value further on. -/
  progresses : Progresses stream w x fun _ ↦ True
  /-- At the end there is no value. -/
  fails_last : w.index = stream.last → ∃ e w', x w = some (.error e, w')

private theorem Tracks.readsValue {x : Walk Value} {y : Step Value}
    (h : Tracks stream w x y fun _ i ↦ w.index < i) : ReadsValue stream w x y where
  tracks := h
  progresses := h.progresses fun _ _ moved _ ↦ moved
  fails_last := (h.progresses fun _ _ moved _ ↦ moved).error

/-- What the functions of a walk do at a place. Those that read a value do what the evaluation does
with the room that is left for constructs. -/
structure WalkProgresses (stream : TokenStream) (limit : Nat) (query : Query) (w : Walker)
    (calls : Nat) : Prop where
  /-- Passing what is ahead goes on by a place, and stays at the end. -/
  advance : Progresses stream w (Walk.advance stream) fun _ ↦ w.index < stream.last
  /-- An expression reads a value. -/
  expression : ∀ least, ReadsValue stream w (Walk.expression stream limit query calls least)
    (Expression.expression query (limit - w.depth) least)
  /-- An operand reads a value. -/
  unary : ReadsValue stream w (Walk.unary stream limit query calls)
    (Expression.unary query (limit - w.depth))
  /-- A primary reads a value. -/
  primary : ReadsValue stream w (Walk.primary stream limit query calls)
    (Expression.primary query (Expression.expression query (limit - w.depth) 0))
  /-- A call reads a value. -/
  call : ∀ name place, ReadsValue stream w (Walk.call stream limit query calls name place)
    (Expression.call query (Expression.expression query (limit - w.depth) 0) name place)
  /-- The loop of the operators comes to an end, where it started if there is none. -/
  operators : ∀ least left,
    Progresses stream w (Walk.operators stream limit query calls least left) fun _ ↦ False
  /-- A round of the operators that goes on has passed a token. -/
  operatorRound : ∀ least left,
    Progresses stream w (Walk.operatorRound stream limit query calls least left)
      fun round ↦ ∃ v, round = .again v
  /-- The loop of the arguments comes to an end, and has passed a token. -/
  arguments : ∀ name args,
    Progresses stream w (Walk.arguments stream limit query calls name args) fun _ ↦ True
  /-- A round of the arguments has passed a token. -/
  argumentRound : ∀ name args,
    Progresses stream w (Walk.argumentRound stream limit query calls name args) fun _ ↦ True
  /-- Every source is walked to the end, with what the evaluation gives. -/
  walk_eq : ∀ source draws, ∃ enough, ∀ calls, enough ≤ calls →
    walk calls source query draws = some (evaluate source query draws)

/-- From every place within a token list, with three calls for each token that is left and six
more, each function of a walk comes to an end, within the list and never further back. A value comes
with the index further on, so that at the end there is none, and a round of a loop that does not
leave it has passed a token. -/
theorem walk_progresses (stream : TokenStream) (limit : Nat) (query : Query) (w : Walker)
    (within : w.index ≤ stream.last) (calls : Nat)
    (enough : 3 * (stream.last - w.index) + 6 ≤ calls) :
    WalkProgresses stream limit query w calls := by
  obtain ⟨expressions, operand⟩ := tracks_evaluation stream limit query _ w rfl
  have := (Onward.advance within).le
  exact {
    advance := ⟨_, w.advance stream, rfl, Walker.le_advance, Walker.advance_le within,
      fun _ _ before ↦ Walker.lt_advance before⟩
    expression := fun least ↦ (expressions least calls w (.refl within) rfl (by omega)).readsValue
    unary := (operand calls w (.refl within) rfl (by omega)).readsValue
    primary := (Tracks.primary within (expressions 0) (by omega)).readsValue
    call := fun name place ↦ (Tracks.call name place within (expressions 0) (by omega)).readsValue
    operators := fun least left ↦
      (Tracks.operators _ within expressions (by omega) (Nat.le_refl _)).progresses
        fun _ _ _ ↦ nofun
    operatorRound := fun least left ↦
      (Tracks.operatorRound within expressions (by omega)).progresses fun _ _ moved ↦ moved
    arguments := fun name args ↦
      (Tracks.arguments name _ args within (expressions 0) (by omega)
        (Nat.lt_succ_self _)).progresses fun _ _ moved _ ↦ moved
    argumentRound := fun name args ↦
      (Tracks.argumentRound within (expressions 0) (by omega)).progresses fun _ _ moved _ ↦ moved
    walk_eq := fun source draws ↦ exists_walk_eq source query draws }

/-- In `min(1,` an argument is read from its place on, and at the end there is no further one. -/
theorem walk_progresses_unclosed :
    let stream : TokenStream :=
      ⟨[⟨.name "min", 0⟩, ⟨.leftParen, 3⟩, ⟨.number 1, 4⟩, ⟨.comma, 5⟩], 6⟩
    ((2 ≤ stream.last ∧ 3 * (stream.last - 2) + 6 ≤ 12) ∧ ∃ w,
      Walk.expression stream nestingLimit .blank 12 0 ⟨2, 1, .fixed 0⟩ = some (.ok (.number 1), w) ∧
        2 < w.index ∧ w.index ≤ stream.last) ∧
    (4 ≤ stream.last ∧ 3 * (stream.last - 4) + 6 ≤ 6) ∧ ∃ e w,
      Walk.expression stream nestingLimit .blank 6 0 ⟨4, 1, .fixed 0⟩ = some (.error e, w) := by
  intro stream
  refine ⟨⟨⟨by decide, by decide⟩, ?_⟩, ⟨by decide, by decide⟩, ?_⟩
  · have reads :=
      walk_progresses stream nestingLimit .blank ⟨2, 1, .fixed 0⟩ (by decide) 12 (by decide)
    have tracks := (reads.expression 0).tracks
    have value : expression .blank (nestingLimit - 1) 0 (Walker.cursor stream ⟨2, 1, .fixed 0⟩) =
        .ok (.number 1) ⟨[⟨.comma, 5⟩], 6, .fixed 0⟩ := rfl
    unfold Tracks at tracks
    rw [value] at tracks
    obtain ⟨w, run, -, -, on, further⟩ := tracks
    exact ⟨w, run, further, on.within⟩
  · have reads :=
      walk_progresses stream nestingLimit .blank ⟨4, 1, .fixed 0⟩ (by decide) 6 (by decide)
    exact (reads.expression 0).fails_last rfl

end

end StoryEngine.Expression
