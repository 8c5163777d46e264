import StoryEngine.Proofs.Expression.Completion
import StoryEngine.Proofs.Expression.Levels

/-!
# The depth of an evaluation

The evaluation with a counter beside the one that takes the room that is left. As long as there is
room, both come to the same, and the counter and the room are together the limit. Where the one
finds no room left, the counter of the other is beyond the limit. So the room measures what the
counter does, and the counter is the number of the constructs that are open.
-/

namespace StoryEngine.Expression

/-- The evaluation of the tokens ahead fails because they are nested too deeply. -/
def TooDeep (query : Query) (c : Cursor) : Prop :=
  ∃ e c', evaluateTokens query c = .error e c' ∧ e.IsTooDeep

/-- What comes of a step with `ahead` tokens ahead, beside what comes of it with a counter, which
is `depth` after a result. They agree, and the counter does not pass `most`; or the one finds no
room left, the counter of the other passes `most`, and with `most` as its limit it fails alike. -/
inductive Outcome {α : Type} (most : Nat) (limit : Option Nat) (ahead : Nat) (depth : Int) :
    EStateM.Result Failure Cursor α → Option (EStateM.Result Failure Gauge α) × List Moment →
      Prop where
  | ok {a : α} {c : Cursor} {moments : List Moment} (shorter : c.rest.length ≤ ahead)
      (within : ∀ m ∈ moments, m.depth ≤ most) :
      Outcome most limit ahead depth (.ok a c) (some (.ok a ⟨c, depth⟩), moments)
  | error {e : Failure} {c : Cursor} {d : Int} {moments : List Moment} (other : ¬ e.IsTooDeep)
      (within : ∀ m ∈ moments, m.depth ≤ most) :
      Outcome most limit ahead depth (.error e c) (some (.error e ⟨c, d⟩), moments)
  | deep {e : Failure} {c : Cursor} {result : Option (EStateM.Result Failure Gauge α)}
      {moments : List Moment} (deep : e.IsTooDeep) (beyond : ∃ m ∈ moments, most < m.depth)
      (stops : limit = some most →
        (∃ d, result = some (.error e ⟨c, d⟩)) ∧ ∀ m ∈ moments, m.depth ≤ most + 1) :
      Outcome most limit ahead depth (.error e c) (result, moments)

/-- With `room` left and the counter at `most - room`, the step with a counter comes to the same as
the one without, and after a result `room'` is left. -/
def Follows {α : Type} (most : Nat) (limit : Option Nat) (room room' : Nat) (x : Step α)
    (y : Counted α) (c : Cursor) : Prop :=
  Outcome most limit c.rest.length (most - room') (x c) (y ⟨c, most - room⟩)

variable {α β : Type} {most : Nat} {limit : Option Nat} {r : Routine}

namespace Outcome

variable {ahead ahead' : Nat} {depth : Int} {x : EStateM.Result Failure Cursor α}
  {y : Option (EStateM.Result Failure Gauge α) × List Moment} {before : List Moment}

private theorem mono (h : Outcome most limit ahead depth x y) (shorter : ahead ≤ ahead') :
    Outcome most limit ahead' depth x y := by
  cases h with
  | ok shorter' within => exact .ok (Nat.le_trans shorter' shorter) within
  | error other within => exact .error other within
  | deep deep beyond stops => exact .deep deep beyond stops

/-- Moments before it that are not too deep. -/
private theorem prepend (h : Outcome most limit ahead depth x y)
    (within : ∀ m ∈ before, m.depth ≤ most) :
    Outcome most limit ahead depth x (y.1, before ++ y.2) := by
  cases h with
  | ok shorter within' => exact .ok shorter (List.forall_mem_append.2 ⟨within, within'⟩)
  | error other within' => exact .error other (List.forall_mem_append.2 ⟨within, within'⟩)
  | deep deep beyond stops =>
    obtain ⟨m, member, beyond⟩ := beyond
    refine .deep deep ⟨m, List.mem_append_right _ member, beyond⟩ fun bounded ↦ ?_
    obtain ⟨failed, within'⟩ := stops bounded
    refine ⟨failed, List.forall_mem_append.2 ⟨fun m member ↦ ?_, within'⟩⟩
    have := within m member
    omega

end Outcome

/-- The counter at `most - room` is not beyond `most`. -/
private theorem Moment.within (stack : Stack r) (most room : Nat) :
    ∀ m ∈ [(⟨stack, most - room⟩ : Moment)], m.depth ≤ most := by
  intro m member
  rw [List.mem_singleton.1 member]
  show (most : Int) - room ≤ most
  omega

namespace Follows

variable {room room' room'' : Nat} {x : Step α} {y : Counted α} {c : Cursor} {stack : Stack r}

private theorem pure (a : α) : Follows most limit room room (Pure.pure a) (Pure.pure a) c :=
  .ok (Nat.le_refl _) fun _ member ↦ absurd member List.not_mem_nil

private theorem bind {f : α → Step β} {g : α → Counted β}
    (first : Follows most limit room room' x y c)
    (second : ∀ a c', c'.rest.length ≤ c.rest.length →
      Follows most limit room' room'' (f a) (g a) c') :
    Follows most limit room room'' (x >>= f) (y >>= g) c := by
  unfold Follows at first ⊢
  show Outcome _ _ _ _ (EStateM.bind x f c) _
  unfold EStateM.bind
  generalize hx : x c = made, hy : y ⟨c, most - room⟩ = counted at first
  cases first with
  | @ok a c' moments shorter within =>
    rw [Counted.bind_ok hy]
    exact ((second a c' shorter).prepend within).mono shorter
  | error other within =>
    rw [Counted.bind_error hy]
    exact .error other within
  | @deep e c' result moments deep beyond stops =>
    -- a result after the counter was beyond `most` is only possible without a limit
    obtain ⟨m, member, beyond⟩ := beyond
    rcases result with _ | ⟨a, g'⟩ | ⟨e', g'⟩
    · rw [Counted.bind_cut hy]
      refine .deep deep ⟨m, member, beyond⟩ fun bounded ↦ ?_
      obtain ⟨⟨d, impossible⟩, -⟩ := stops bounded
      cases impossible
    · rw [Counted.bind_ok hy]
      refine .deep deep ⟨m, List.mem_append_left _ member, beyond⟩ fun bounded ↦ ?_
      obtain ⟨⟨d, impossible⟩, -⟩ := stops bounded
      cases impossible
    · rw [Counted.bind_error hy]
      refine .deep deep ⟨m, member, beyond⟩ fun bounded ↦ ?_
      obtain ⟨⟨d, same⟩, within⟩ := stops bounded
      cases same
      exact ⟨⟨d, rfl⟩, within⟩

private theorem map {f : α → β} (h : Follows most limit room room' x y c) :
    Follows most limit room room' (f <$> x) (f <$> y) c := by
  rw [map_eq_pure_bind]
  exact h.bind fun a c' _ ↦ pure (f a)

/-- A step that opens and closes nothing, takes no token and does not fail for the depth. -/
private theorem step
    (h : Triple (fun e ↦ ¬ e.IsTooDeep) c.symbols x fun _ after ↦ after = c.symbols) :
    Follows most limit room room x (Counted.step stack x) c := by
  have h := h c rfl
  unfold Follows
  cases made : x c with
  | ok a c' =>
    rw [made] at h
    rw [Counted.step_ok made]
    exact .ok (Nat.le_of_eq (Cursor.length_rest_of_symbols h)) (Moment.within stack most room)
  | error e c' =>
    rw [made] at h
    rw [Counted.step_error made]
    exact .error h (Moment.within stack most room)

/-- A step that looks at the tokens ahead or takes one. -/
private theorem next {f : α → Step β} {g : α → Counted β} {a : α} {c' : Cursor}
    (h : Follows most limit room room' (f a) (g a) c') (made : x c = .ok a c')
    (shorter : c'.rest.length ≤ c.rest.length) :
    Follows most limit room room' (x >>= f) (Counted.step stack x >>= g) c := by
  have counted : Counted.step stack x ⟨c, most - room⟩ = _ := Counted.step_ok made
  unfold Follows at h ⊢
  show Outcome _ _ _ _ (EStateM.bind x f c) _
  simp only [EStateM.bind, made]
  rw [Counted.bind_ok counted]
  exact (h.prepend (Moment.within stack most room)).mono shorter

private theorem position {f : Nat → Step β} {g : Nat → Counted β}
    (h : Follows most limit room room' (f c.position) (g c.position) c) :
    Follows most limit room room' (Step.position >>= f)
      (Counted.step stack Step.position >>= g) c :=
  h.next rfl (Nat.le_refl _)

private theorem remaining {f : Nat → Step β} {g : Nat → Counted β}
    (h : Follows most limit room room' (f c.rest.length) (g c.rest.length) c) :
    Follows most limit room room' (Step.remaining >>= f)
      (Counted.step stack Step.remaining >>= g) c :=
  h.next rfl (Nat.le_refl _)

private theorem ahead {f : Option Symbol → Step β} {g : Option Symbol → Counted β}
    (h : Follows most limit room room' (f c.ahead?) (g c.ahead?) c) :
    Follows most limit room room' (Step.ahead? >>= f) (Counted.step stack Step.ahead? >>= g) c :=
  h.next rfl (Nat.le_refl _)

private theorem read {f : Option Symbol → Step β} {g : Option Symbol → Counted β}
    (h : Follows most limit room room' (f c.ahead?) (g c.ahead?) c.advance) :
    Follows most limit room room' (Step.read? >>= f) (Counted.step stack Step.read? >>= g) c :=
  h.next rfl (by simp [Cursor.advance])

/-- A construct is opened in the room that is left. With none left the step without a counter
fails, and the other goes too deep. -/
private theorem enter {g : Unit → Counted α} (bound : ∀ n ∈ limit, n = most)
    (full : room = 0 → x c = .error (.badGrammar .nestedTooDeeply c.position) c)
    (inside : ∀ less, room = less + 1 → Follows most limit less room' x (g ()) c) :
    Follows most limit room room' x (Counted.enter limit stack >>= g) c := by
  unfold Follows at inside ⊢
  cases room with
  | zero =>
    rw [full rfl]
    have tooDeep : Failure.IsTooDeep (.badGrammar .nestedTooDeeply c.position) := ⟨_, rfl⟩
    cases limit with
    | none =>
      have entered : Counted.enter none stack ⟨c, most - (0 : Nat)⟩ = _ :=
        Counted.enter_ok fun n member ↦ absurd member (Option.not_mem_none n)
      rw [Counted.bind_ok entered]
      refine .deep tooDeep ⟨_, List.mem_append_left _ (List.mem_singleton_self _), ?_⟩ nofun
      show (most : Int) < most - (0 : Nat) + 1
      omega
    | some n =>
      obtain rfl := bound n rfl
      have beyond : (n : Int) < n - (0 : Nat) + 1 := by omega
      rw [Counted.bind_error (Counted.enter_error rfl beyond)]
      refine .deep tooDeep ⟨_, List.mem_singleton_self _, beyond⟩ fun _ ↦ ⟨⟨_, rfl⟩, ?_⟩
      intro m member
      rw [List.mem_singleton.1 member]
      show (n : Int) - (0 : Nat) + 1 ≤ n + 1
      omega
  | succ less =>
    have opened : (most : Int) - (less + 1 : Nat) + 1 = most - less := by omega
    have entered : Counted.enter limit stack ⟨c, most - (less + 1 : Nat)⟩ =
        (some (.ok () ⟨c, most - less⟩), [⟨stack, most - less⟩]) := by
      rw [Counted.enter_ok fun n member ↦ ?_, opened]
      rw [bound n member, opened]
      omega
    rw [Counted.bind_ok entered]
    exact (inside less rfl).prepend (Moment.within stack most less)

/-- A construct is closed, and leaves its room. -/
private theorem leave {g : Unit → Counted α} (h : Follows most limit (room + 1) room' x (g ()) c) :
    Follows most limit room room' x (Counted.leave stack >>= g) c := by
  unfold Follows at h ⊢
  have closed : (most : Int) - (room + 1 : Nat) = most - room - 1 := by omega
  have left : Counted.leave stack ⟨c, most - room⟩ =
      (some (.ok () ⟨c, most - (room + 1 : Nat)⟩),
        [⟨stack.caller.2, most - (room + 1 : Nat)⟩]) := by
    rw [closed]
    rfl
  rw [Counted.bind_ok left]
  exact h.prepend (Moment.within stack.caller.2 most (room + 1))

/-- A step inside a construct of its own. -/
private theorem enclosed {f : α → Step β} {g : α → Counted β} (bound : ∀ n ∈ limit, n = most)
    (full : room = 0 → x = Step.fault .nestedTooDeeply)
    (inside : ∀ less, room = less + 1 → Follows most limit less less x y c)
    (after : ∀ a c', Follows most limit room room' (f a) (g a) c') :
    Follows most limit room room' (x >>= f)
      (Counted.enter limit stack >>= fun _ ↦ y >>= fun a ↦ Counted.leave stack >>= fun _ ↦ g a)
      c := by
  refine enter bound (fun none ↦ ?_) fun less some ↦ ?_
  · rw [full none]
    rfl
  · subst some
    exact (inside less rfl).bind fun a c' _ ↦ leave (after a c')

/-- The last step inside a construct. -/
private theorem closed (h : Follows most limit room room x y c) :
    Follows most limit room (room + 1) x
      (y >>= fun a ↦ Counted.leave stack >>= fun _ ↦ Pure.pure a) c := by
  rw [← bind_pure x]
  exact h.bind fun a c' _ ↦ leave (pure a)

/-! Each function follows the one without a counter. -/

private theorem fault {f : Fault} (other : f ≠ .nestedTooDeeply) :
    Follows most limit room room (Step.fault f) (Counted.step stack (Step.fault (α := α) f)) c :=
  step (Triple.fault fun _ ⟨_, same⟩ ↦ other (by cases same; rfl))

private theorem argumentsWithin {nested : Step Value} {counted : Counted Value}
    {stack : Stack .call}
    {n : Nat} (h : ∀ c : Cursor, c.rest.length ≤ n → Follows most limit room room nested counted c)
    (name : String) (rounds : Nat) (within : c.rest.length ≤ n) :
    Follows most limit room room (Expression.argumentsWithin nested name rounds)
      (Counted.argumentsWithin stack counted name rounds) c := by
  induction rounds generalizing c with
  | zero => exact pure _
  | succ rounds ih =>
    refine (h c within).bind fun value c' shorter ↦ position (read ?_)
    have failed (found : Option Symbol) : Follows most limit room room
        (throw (.badGrammar (.expectedArgumentEnd name found) c'.position))
        (Counted.step stack (throw (.badGrammar (.expectedArgumentEnd name found) c'.position)) :
          Counted (List Value)) c'.advance :=
      step (Triple.throw (by simp [Failure.IsTooDeep]))
    have more := ih (c := c'.advance) (by
      rw [c'.length_advance]
      omega)
    generalize c'.ahead? = found
    rcases found with _ | s
    · exact failed none
    · cases s with
      | comma => exact more.map
      | rightParen => exact pure _
      | number | text | name | operator | leftParen => exact failed _

private theorem call {query : Query} {nested : Step Value} {counted : Counted Value}
    {stack : Stack .call} {n : Nat}
    (h : ∀ c : Cursor, c.rest.length ≤ n → Follows most limit room room nested counted c)
    (name : String) (place : Nat) (within : c.rest.length ≤ n) :
    Follows most limit room room (Expression.call query nested name place)
      (Counted.call query stack counted name place) c := by
  refine read (ahead ?_)
  by_cases closing : c.advance.ahead? = some .rightParen
  · rw [if_pos closing, if_pos closing]
    refine read ((pure []).bind fun args c' _ ↦ ?_)
    exact step (triple_function_other query name place args c'.symbols)
  · rw [if_neg closing, if_neg closing]
    have inside : c.advance.rest.length ≤ n := by
      rw [c.length_advance]
      omega
    refine remaining ((argumentsWithin h name _ inside).bind fun args c' _ ↦ ?_)
    exact step (triple_function_other query name place args c'.symbols)

private theorem primary {query : Query} {nested : Step Value}
    {counted : Stack .expression → Counted Value}
    {stack : Stack .primary}
    (h : ∀ (inner : Stack .expression) (c' : Cursor), c'.rest.length < c.rest.length →
      Follows most limit room room nested (counted inner) c') :
    Follows most limit room room (Expression.primary query nested)
      (Counted.primary query stack counted) c := by
  refine position (read ?_)
  have failed (found : Option Symbol) : Follows most limit room room
      (throw (.badGrammar (.unexpected found) c.position))
      (Counted.step stack (throw (.badGrammar (.unexpected found) c.position)) : Counted Value)
      c.advance :=
    step (Triple.throw (by simp [Failure.IsTooDeep]))
  cases found : c.ahead? with
  | none => exact failed none
  | some s =>
    have shorter := c.length_advance_lt found
    cases s with
    | number x => exact pure _
    | text s => exact pure _
    | name name =>
      refine ahead ?_
      by_cases opening : c.advance.ahead? = some .leftParen
      · rw [if_pos opening, if_pos opening]
        refine call (fun c' within ↦ h _ c' ?_) name _ (Nat.le_refl _)
        exact Nat.lt_of_le_of_lt within shorter
      · rw [if_neg opening, if_neg opening]
        exact pure _
    | leftParen =>
      refine (h _ _ shorter).bind fun value c' _ ↦ ahead ?_
      generalize c'.ahead? = closing
      rcases closing with _ | s
      · exact fault (by simp)
      · cases s with
        | rightParen => exact read (pure _)
        | number | text | name | operator | leftParen | comma => exact fault (by simp)
    | operator | rightParen | comma => exact failed _

private theorem climbWithin {operand : Nat → Step Value} {counted : Nat → Counted Value}
    {stack : Stack .expression} {n : Nat}
    (h : ∀ (least : Nat) (c : Cursor), c.rest.length < n →
      Follows most limit room room (operand least) (counted least) c)
    (least : Nat) (left : Value) (rounds : Nat) (within : c.rest.length ≤ n) :
    Follows most limit room room (Expression.climbWithin operand least left rounds)
      (Counted.climbWithin stack counted least left rounds) c := by
  induction rounds generalizing c left with
  | zero => exact pure _
  | succ rounds ih =>
    refine position (ahead ?_)
    cases found : c.ahead? with
    | none => exact pure _
    | some s =>
      have shorter := c.length_advance_lt found
      cases s with
      | operator op =>
        by_cases loose : op.precedence < least
        · simp only [if_pos loose]
          exact pure _
        · simp only [if_neg loose]
          refine read ((h _ _ (by omega)).bind fun right c' shorter' ↦ ?_)
          refine (step ?_).bind fun value c'' _ ↦ ih value (by omega)
          exact Triple.ofExcept (fun e ↦ Operator.apply_not_isTooDeep) fun _ _ ↦ rfl
      | number | text | name | leftParen | rightParen | comma => exact pure _

private theorem prefixed {inner primary : Step Value} {countedInner countedPrimary : Counted Value}
    {stack : Stack .unary} (bound : ∀ n ∈ limit, n = most)
    (full : room = 0 → inner = Step.fault .nestedTooDeeply)
    (inside : ∀ less, room = less + 1 → ∀ c' : Cursor, c'.rest.length < c.rest.length →
      Follows most limit less less inner countedInner c')
    (h : Follows most limit room room primary countedPrimary c) :
    Follows most limit room room (Expression.prefixed inner primary)
      (Counted.prefixed limit stack countedInner countedPrimary) c := by
  refine ahead ?_
  cases found : c.ahead? with
  | none => exact h
  | some s =>
    have shorter := c.length_advance_lt found
    cases s with
    | operator op =>
      cases op with
      | not =>
        refine read (enclosed bound full (fun less some ↦ inside less some _ shorter) ?_)
        exact fun operand c' ↦ step (Triple.pure rfl)
      | sub =>
        refine read (enclosed bound full (fun less some ↦ inside less some _ shorter) ?_)
        exact fun operand c' ↦ step (triple_negative_other operand c'.symbols)
      | equal | unequal | atMost | atLeast | and | or | add | mul | div | mod | less | greater =>
        exact h
    | number | text | name | leftParen | rightParen | comma => exact h

/-- Both an expression and an operand follow, with as many calls as the tokens ahead may need: at
most two for each token, and those of the first expression and its operand. -/
theorem expression_unary (query : Query) (bound : ∀ n ∈ limit, n = most) (calls : Nat) :
    (∀ (room : Nat) (stack : Stack .expression) (least : Nat) (c : Cursor),
      2 * c.rest.length + 2 ≤ calls →
        Follows most limit room room (Expression.expression query room least)
          (Counted.expression query limit calls stack least) c) ∧
    ∀ (room : Nat) (stack : Stack .unary) (c : Cursor), 2 * c.rest.length + 1 ≤ calls →
      Follows most limit room room (Expression.unary query room)
        (Counted.unary query limit calls stack) c := by
  -- an expression goes on to an operand at the same place, and an operand to others past a token
  induction calls with
  | zero => exact ⟨fun _ _ _ _ _ ↦ by omega, fun _ _ _ _ ↦ by omega⟩
  | succ calls ih =>
    obtain ⟨expression, unary⟩ := ih
    constructor
    · intro room stack least c enough
      refine enter bound ?_ ?_
      · rintro rfl
        rw [Expression.expression]
        rfl
      · rintro less rfl
        rw [Expression.expression]
        refine (unary less _ c (by omega)).bind fun left c' shorter ↦ remaining (closed ?_)
        refine climbWithin (n := c.rest.length) (fun least c' shorter ↦ ?_) least left _ shorter
        exact expression less _ least c' (by omega)
    · intro room stack c enough
      have nested : Follows most limit room room
          (Expression.primary query (Expression.expression query room 0))
          (Counted.primary query (.primary stack) fun nested ↦
            Counted.expression query limit calls nested 0) c :=
        primary fun inner c' shorter ↦ expression room inner 0 c' (by omega)
      cases room with
      | zero =>
        rw [unary_zero]
        exact prefixed bound (fun _ ↦ rfl) (fun less some ↦ by omega) nested
      | succ less =>
        rw [unary_succ]
        refine prefixed bound (fun none ↦ by omega) (fun less' same c' shorter ↦ ?_) nested
        cases same
        exact unary less _ c' (by omega)

private theorem evaluateTokens (query : Query) (bound : ∀ n ∈ limit, n = nestingLimit) {calls : Nat}
    (enough : 2 * c.rest.length + 2 ≤ calls) :
    Follows nestingLimit limit nestingLimit nestingLimit (Expression.evaluateTokens query)
      (Counted.evaluateTokens query limit calls) c := by
  refine ahead ?_
  by_cases nothing : c.ahead?.isNone
  · rw [if_pos nothing, if_pos nothing]
    exact pure _
  · rw [if_neg nothing, if_neg nothing]
    refine ((expression_unary query bound calls).1 _ _ 0 c enough).bind fun value c' _ ↦ ahead ?_
    cases c'.ahead? with
    | none => exact pure _
    | some s => exact fault (by simp)

end Follows

/-! ### Whole token streams -/

namespace Outcome

variable {ahead : Nat} {depth : Int} {x : EStateM.Result Failure Cursor α}
  {y : Option (EStateM.Result Failure Gauge α) × List Moment}

/-- The step without a counter finds no room left if and only if the counter passes `most`. -/
private theorem tooDeep_iff (h : Outcome most limit ahead depth x y) :
    (∃ e c, x = .error e c ∧ e.IsTooDeep) ↔ ∃ m ∈ y.2, most < m.depth := by
  cases h with
  | ok shorter within =>
    refine ⟨nofun, fun ⟨m, member, beyond⟩ ↦ ?_⟩
    exact absurd (within m member) (Int.not_le.2 beyond)
  | error other within =>
    refine ⟨fun ⟨e, c, same, tooDeep⟩ ↦ ?_, fun ⟨m, member, beyond⟩ ↦ ?_⟩
    · cases same
      exact absurd tooDeep other
    · exact absurd (within m member) (Int.not_le.2 beyond)
  | deep failed beyond stops => exact ⟨fun _ ↦ beyond, fun _ ↦ ⟨_, _, rfl, failed⟩⟩

/-- With `most` as its limit the counter does not go further beyond it. -/
private theorem depth_le (h : Outcome most (some most) ahead depth x y) {m : Moment}
    (member : m ∈ y.2) :
    m.depth ≤ most + 1 := by
  cases h with
  | ok shorter within => exact Int.le_trans (within m member) (Int.le_of_lt (Int.lt_succ _))
  | error other within => exact Int.le_trans (within m member) (Int.le_of_lt (Int.lt_succ _))
  | deep failed beyond stops => exact (stops rfl).2 m member

end Outcome

namespace Counted

variable {c : Cursor} {calls : Nat} {m : Moment}

private theorem outcome (query : Query) (bound : ∀ n ∈ limit, n = nestingLimit)
    (enough : 2 * c.rest.length + 2 ≤ calls) :
    Outcome nestingLimit limit c.rest.length 0 (Expression.evaluateTokens query c)
      (evaluateTokens query limit calls ⟨c, 0⟩) := by
  have h := Follows.evaluateTokens query bound enough
  unfold Follows at h
  rw [Int.sub_self] at h
  exact h

private theorem depth_eq {query : Query} (member : m ∈ moments query limit calls c) :
    m.depth = m.stack.constructs :=
  Int.sub_eq_zero.1 ((Counts.evaluateTokens query limit calls ⟨c, 0⟩).1 m member)

private theorem result_eq (query : Query) (enough : 2 * c.rest.length + 2 ≤ calls) :
    result query (some nestingLimit) calls c = some (Expression.evaluateTokens query c) := by
  have h := outcome query (fun n same ↦ (Option.some.inj same).symm) enough
  unfold result
  generalize Expression.evaluateTokens query c = x,
    evaluateTokens query (some nestingLimit) calls ⟨c, 0⟩ = y at h
  cases h with
  | ok shorter within => rfl
  | error other within => rfl
  | deep failed beyond stops =>
    obtain ⟨⟨d, rfl⟩, -⟩ := stops rfl
    rfl

/-- With or without a limit the evaluation is not cut off. -/
theorem exists_result_eq (query : Query) (enough : 2 * c.rest.length + 2 ≤ calls) :
    ∃ made, result query limit calls c = some made := by
  have h : Completes limit (evaluateTokens query limit calls) c :=
    Completes.evaluateTokens query enough
  have h := h 0
  unfold result
  generalize (evaluateTokens query limit calls ⟨c, 0⟩).1 = made at h
  cases h with
  | ok shorter => exact ⟨_, rfl⟩
  | error other => exact ⟨_, rfl⟩

/-- Without a limit it does not fail for the depth. -/
theorem not_isTooDeep {e : Failure} {c' : Cursor} (query : Query)
    (enough : 2 * c.rest.length + 2 ≤ calls)
    (failed : result query none calls c = some (.error e c')) : ¬ e.IsTooDeep := by
  have h : Completes none (evaluateTokens query none calls) c :=
    Completes.evaluateTokens query enough
  have h := h 0
  unfold result at failed
  generalize (evaluateTokens query none calls ⟨c, 0⟩).1 = made at h failed
  cases h with
  | ok shorter => cases failed
  | error other =>
    cases failed
    exact other rfl

private theorem tooDeep_iff (query : Query) (enough : 2 * c.rest.length + 2 ≤ calls) :
    TooDeep query c ↔ ∃ m ∈ moments query none calls c, nestingLimit < m.stack.constructs := by
  unfold TooDeep
  rw [(outcome query (fun n none ↦ absurd none (Option.not_mem_none n)) enough).tooDeep_iff]
  refine exists_congr fun m ↦ and_congr_right fun member ↦ ?_
  rw [depth_eq member, Int.ofNat_lt]

/-- With the limit, the calls inside one another are bounded whatever the tokens are. -/
theorem frames_le (query : Query) (enough : 2 * c.rest.length + 2 ≤ calls)
    (member : m ∈ moments query (some nestingLimit) calls c) :
    m.stack.frames ≤ 4 * (nestingLimit + 1) := by
  have h := outcome query (fun n same ↦ (Option.some.inj same).symm) enough
  have deepest := h.depth_le member
  have same := depth_eq member
  have := m.stack.frames_le
  omega

end Counted

/-- A phrase of few levels is not nested too deeply, however long it is. -/
theorem Phrase.not_tooDeep {p : Phrase} {c : Cursor} (query : Query) (same : p.symbols = c.symbols)
    (levels : 7 * p.levels ≤ nestingLimit) : ¬ TooDeep query c := by
  rintro ⟨e, c', failed, place, rfl⟩
  have within : GrammaticalWithin nestingLimit c.symbols :=
    .inr ⟨p, same, Nat.le_trans p.nesting_le levels⟩
  have passes : Passes (evaluateTokens query) c.symbols [] := passes_evaluateTokens within
  have passes := passes c rfl
  rw [failed] at passes
  exact passes

/-- A source fails for the depth if and only if its tokens do. -/
theorem evaluate_tooDeep_iff {source : String} {c : Cursor} (query : Query)
    (read : lex source = .ok ⟨c.rest, c.stop⟩) :
    (∃ e, (evaluate source query c.draws).1 = .error e ∧ e.IsTooDeep) ↔ TooDeep query c := by
  simp only [TooDeep, evaluate, read, EStateM.run]
  cases evaluateTokens query c with
  | ok v c' =>
    constructor
    · rintro ⟨_, impossible, -⟩
      cases impossible
    · rintro ⟨_, _, impossible, -⟩
      cases impossible
  | error e c' =>
    constructor
    · rintro ⟨_, same, tooDeep⟩
      cases same
      exact ⟨e, c', rfl, tooDeep⟩
    · rintro ⟨_, _, same, tooDeep⟩
      cases same
      exact ⟨e, rfl, tooDeep⟩

/-- The counter of an evaluation is its nesting: what the counter says of a token stream. -/
structure Counted.IsNesting (query : Query) (c : Cursor) (calls : Nat) : Prop where
  /-- At each moment, with a limit or without, the counter is the number of the constructs that are
  open, and so it is not below zero. -/
  depth_eq : ∀ limit, ∀ m ∈ moments query limit calls c, m.depth = m.stack.constructs
  /-- An expression that comes to a result leaves the counter as it was. -/
  expression_balanced : ∀ limit n stack least g v g',
    (expression query limit n stack least g).1 = some (.ok v g') → g'.depth = g.depth
  /-- An operand that comes to a result leaves the counter as it was. -/
  unary_balanced : ∀ limit n stack g v g',
    (unary query limit n stack g).1 = some (.ok v g') → g'.depth = g.depth
  /-- With a limit or without, the evaluation is not cut off. -/
  completes : ∀ limit, ∃ made, result query limit calls c = some made
  /-- With the limit, the evaluation with the counter is the evaluation. -/
  result_eq : result query (some nestingLimit) calls c = some (Expression.evaluateTokens query c)
  /-- Without a limit, a failure is not one for the depth. -/
  not_isTooDeep : ∀ e c', result query none calls c = some (.error e c') → ¬ e.IsTooDeep
  /-- The evaluation fails for the depth if and only if the one without a limit has a moment at
  which more constructs are open than may be. -/
  tooDeep_iff : TooDeep query c ↔
    ∃ m ∈ moments query none calls c, nestingLimit < m.stack.constructs
  /-- A source fails for the depth if and only if its tokens do. -/
  evaluate_tooDeep_iff : ∀ source, lex source = .ok ⟨c.rest, c.stop⟩ →
    ((∃ e, (evaluate source query c.draws).1 = .error e ∧ e.IsTooDeep) ↔ TooDeep query c)
  /-- With the limit, the calls inside one another are bounded, whatever the tokens are. -/
  frames_le : ∀ m ∈ moments query (some nestingLimit) calls c,
    m.stack.frames ≤ 4 * (nestingLimit + 1)
  /-- A phrase whose shape has few levels does not fail for the depth, however many operands and
  arguments are side by side in it. -/
  not_tooDeep : ∀ p : Phrase, p.symbols = c.symbols → 7 * p.levels ≤ nestingLimit →
    ¬ TooDeep query c

/-- With two calls for each token ahead and two more, the counter of the evaluation is its
nesting. -/
theorem counter_isNesting (query : Query) (c : Cursor) (calls : Nat)
    (enough : 2 * c.rest.length + 2 ≤ calls) : Counted.IsNesting query c calls where
  depth_eq limit m := Counted.depth_eq
  expression_balanced limit n stack least g v g' made := by
    have := ((Counts.expression_unary query limit n).1 stack least g).2 v g' made
    omega
  unary_balanced limit n stack g v g' made := by
    have := ((Counts.expression_unary query limit n).2 stack g).2 v g' made
    omega
  completes limit := Counted.exists_result_eq query enough
  result_eq := Counted.result_eq query enough
  not_isTooDeep e c' := Counted.not_isTooDeep query enough
  tooDeep_iff := Counted.tooDeep_iff query enough
  evaluate_tooDeep_iff source := evaluate_tooDeep_iff query
  frames_le m := Counted.frames_le query enough
  not_tooDeep p := Phrase.not_tooDeep query

-- The sixty-four operators are read one inside another.
set_option maxRecDepth 4000 in
/-- Sixty-four operators that stand before an operand are one too many, and one is not. -/
theorem counter_isNesting_nots :
    (∀ query draws, ∃ m ∈ Counted.moments query none 130
        ⟨List.replicate 64 ⟨.operator .not, 0⟩, 64, draws⟩,
      nestingLimit < m.stack.constructs) ∧
    ∀ query draws, ¬ ∃ e, (evaluate "! true" query draws).1 = .error e ∧ e.IsTooDeep := by
  constructor
  · intro query draws
    have nesting := counter_isNesting query
      ⟨List.replicate 64 ⟨.operator .not, 0⟩, 64, draws⟩ 130 (by simp)
    exact nesting.tooDeep_iff.1 ⟨_, _, rfl, _, rfl⟩
  · intro query draws
    let lexemes : List Lexeme := [Operator.not.lexeme, (Identifier.ofBool true).lexeme]
    have separable : ∀ l ∈ lexemes, l.Separable :=
      List.forall_mem_cons.2 ⟨Operator.separable _,
        List.forall_mem_singleton.2 (Identifier.separable _)⟩
    have source : String.ofList (spaced lexemes) = "! true" := by decide
    have read := lex_spaced separable
    rw [source] at read
    have nesting := counter_isNesting query
      ⟨placed 0 lexemes, width (spaced lexemes), draws⟩ 6 (Nat.le_refl _)
    rw [nesting.evaluate_tooDeep_iff "! true" read]
    exact nesting.not_tooDeep (.mk (.not (.name "true")) .nil) rfl (by decide)

end StoryEngine.Expression
