import StoryEngine.Proofs.Expression.Tree

/-!
# Walking over a token list

The evaluation with the whole token list at hand and an index into it, in the place of the tokens
that are left. The list ends in a single end; reading at the end finds the end and stays there. The
nesting is counted, and the two loops go on until they are left, whatever the number of tokens.

Nothing here says that a walk comes to an end by itself. It may make so many calls inside one
another, where a further round of a loop is a call as well, and is cut off when they are used up.
-/

namespace StoryEngine.Expression

/-- What stands at a place of a token list: a symbol or the end, and where in the source. -/
structure TokenOrEnd where
  symbol : Option Symbol
  position : Nat

namespace TokenStream

/-- The tokens as a list that ends in a single end. -/
def entries (stream : TokenStream) : List TokenOrEnd :=
  stream.tokens.map (fun t ↦ ⟨some t.symbol, t.position⟩) ++ [⟨none, stream.stop⟩]

/-- The index of the end. -/
def last (stream : TokenStream) : Nat :=
  stream.entries.length - 1

private theorem last_lt (stream : TokenStream) : stream.last < stream.entries.length := by
  simp [last, entries]

private theorem last_eq (stream : TokenStream) : stream.last = stream.tokens.length := by
  simp [last, entries]

/-- What stands at an index, the end if the index is beyond the list. -/
def entry (stream : TokenStream) (index : Nat) : TokenOrEnd :=
  have within : min index stream.last < stream.entries.length :=
    Nat.lt_of_le_of_lt (Nat.min_le_right index stream.last) stream.last_lt
  stream.entries[min index stream.last]

end TokenStream

/-- How far a walk has got: the index of what is ahead, the number of open constructs, and the
random draws. -/
structure Walker where
  index : Nat
  depth : Nat
  draws : Draws

/-- The walker past what is ahead; at the end it stays. -/
def Walker.advance (stream : TokenStream) (w : Walker) : Walker :=
  if w.index < stream.last then { w with index := w.index + 1 } else w

/-- A walk over a token list. It comes to a result or a failure, or it is cut off. -/
abbrev Walk (α : Type) := ExceptT Failure (StateT Walker Option) α

/-- How a round of a loop ends: the loop is left, or it goes on. -/
inductive Round (α : Type) where
  | leave (result : α)
  | again (state : α)

/-- A round that leaves the loop does not go on. -/
theorem Round.leave_not_again {α : Type} (a : α) : ¬ ∃ b, Round.leave a = .again b := by
  rintro ⟨b, same⟩
  cases same

namespace Walk

variable (stream : TokenStream)

/-- What is ahead. -/
def peek : Walk TokenOrEnd := do
  return stream.entry (← get).index

/-- Passes what is ahead, unless it is the end. -/
def advance : Walk TokenOrEnd := do
  let entry ← peek stream
  modify (Walker.advance stream)
  return entry

/-- Fails because the tokens do not fit the grammar at the place ahead. -/
def fault {α : Type} (f : Fault) : Walk α := do
  throw (.badGrammar f (← peek stream).position)

/-- Opens a construct, which fails beyond the limit. -/
def enter (limit : Nat) : Walk Unit := do
  modify fun w ↦ { w with depth := w.depth + 1 }
  if limit < (← get).depth then fault stream .nestedTooDeeply

/-- Closes a construct. -/
def leave : Walk Unit :=
  modify fun w ↦ { w with depth := w.depth - 1 }

/-- The walk is cut off. -/
def cut {α : Type} : Walk α := fun _ ↦ none

/-- A computation that knows no tokens. -/
def ofDrawing {α : Type} (x : Drawing α) : Walk α := fun w ↦
  match x w.draws with
  | .ok a draws => some (.ok a, { w with draws })
  | .error e draws => some (.error e, { w with draws })

variable (limit : Nat) (query : Query)

mutual

/-- An expression whose operators bind at least as tightly as `least`. -/
def expression : Nat → Nat → Walk Value
  | 0, _ => cut
  | calls + 1, least => do
      enter stream limit
      let left ← unary calls
      let value ← operators calls least left
      leave
      return value

/-- The operators after the value read so far, round after round. -/
def operators : Nat → Nat → Value → Walk Value
  | 0, _, _ => cut
  | calls + 1, least, left => do
      match ← operatorRound calls least left with
      | .leave value => return value
      | .again value => operators calls least value

/-- One round of the operators: the next one with its right operand, if it binds tightly enough. -/
def operatorRound : Nat → Nat → Value → Walk (Round Value)
  | 0, _, _ => cut
  | calls + 1, least, left => do
      let found ← peek stream
      match found.symbol with
      | some (.operator op) =>
          if op.precedence < least then return .leave left
          else do
            let _ ← advance stream
            let right ← expression calls (op.precedence + 1)
            let value ← MonadExcept.ofExcept (op.apply left right found.position)
            return .again value
      | _ => return .leave left

/-- An operand with the operators before it. -/
def unary : Nat → Walk Value
  | 0 => cut
  | calls + 1 => do
      match (← peek stream).symbol with
      | some (.operator .not) => do
          let _ ← advance stream
          enter stream limit
          let operand ← unary calls
          leave
          return .bool !operand.isTrue
      | some (.operator .sub) => do
          let _ ← advance stream
          enter stream limit
          let operand ← unary calls
          leave
          let x ← MonadExcept.ofExcept operand.toNumber
          return .number (-x)
      | _ => primary calls

/-- A literal, a name, a call or an expression in brackets. -/
def primary : Nat → Walk Value
  | 0 => cut
  | calls + 1 => do
      let found ← advance stream
      match found.symbol with
      | some (.number x) => return .number x
      | some (.text s) => return .text s
      | some (.name name) =>
          if (← peek stream).symbol = some .leftParen then call calls name found.position
          else return nameValue query name
      | some .leftParen => do
          let value ← expression calls 0
          let closing ← peek stream
          match closing.symbol with
          | some .rightParen => do
              let _ ← advance stream
              return value
          | other => throw (.badGrammar (.expectedClosing other) closing.position)
      | other => throw (.badGrammar (.unexpected other) found.position)

/-- A call from its opening bracket on. -/
def call : Nat → String → Nat → Walk Value
  | 0, _, _ => cut
  | calls + 1, name, position => do
      let _ ← advance stream
      let args ←
        if (← peek stream).symbol = some .rightParen then do
          let _ ← advance stream
          pure []
        else arguments calls name []
      ofDrawing (Drawing.call query name position args)

/-- The arguments after those read so far, round after round. -/
def arguments : Nat → String → List Value → Walk (List Value)
  | 0, _, _ => cut
  | calls + 1, name, args => do
      match ← argumentRound calls name args with
      | .leave args => return args
      | .again args => arguments calls name args

/-- One round of the arguments: the next one and what stands after it. -/
def argumentRound : Nat → String → List Value → Walk (Round (List Value))
  | 0, _, _ => cut
  | calls + 1, name, args => do
      let value ← expression calls 0
      let next ← advance stream
      match next.symbol with
      | some .comma => return .again (args ++ [value])
      | some .rightParen => return .leave (args ++ [value])
      | other => throw (.badGrammar (.expectedArgumentEnd name other) next.position)

end

/-- The value of the token list: an empty one is zero, and any other must be one expression. -/
def evaluateTokens (calls : Nat) : Walk Value := do
  if (← peek stream).symbol = none then return .number 0
  else do
    let value ← expression stream limit query calls 0
    let trailing ← peek stream
    match trailing.symbol with
    | none => return value
    | found => throw (.badGrammar (.unexpected found) trailing.position)

end Walk

/-- The value of an expression by a walk over its tokens from the first on, unless that is cut
off. -/
def walk (calls : Nat) (source : String) (query : Query) (draws : Draws) :
    Option (Except Failure Value × Draws) :=
  match lex source with
  | .error e => some (.error e, draws)
  | .ok stream =>
      (Walk.evaluateTokens stream nestingLimit query calls ⟨0, 0, draws⟩).map
        fun (result, walker) ↦ (result, walker.draws)

/-! ### Places -/

variable {α β : Type} {stream : TokenStream} {w : Walker}

namespace Walker

/-- The cursor of the evaluation where a walk has got to. -/
def cursor (stream : TokenStream) (w : Walker) : Cursor :=
  ⟨stream.tokens.drop w.index, stream.stop, w.draws⟩

/-- What stands at a place within the list is what the cursor has ahead. -/
theorem entry_eq (within : w.index ≤ stream.last) :
    stream.entry w.index = ⟨(w.cursor stream).ahead?, (w.cursor stream).position⟩ := by
  simp only [TokenStream.entry, Nat.min_eq_left within]
  rw [stream.last_eq] at within
  -- The end is no token; there the cursor has nothing ahead.
  rcases Nat.lt_or_eq_of_le within with before | stop
  · simp [TokenStream.entries, cursor, Cursor.ahead?, Cursor.position, before]
  · simp [TokenStream.entries, cursor, Cursor.ahead?, Cursor.position, stop]

/-- Going on over the list is going on with the cursor. -/
theorem cursor_advance : (w.advance stream).cursor stream = (w.cursor stream).advance := by
  unfold advance
  split
  · simp [cursor, Cursor.advance]
  · next stays =>
    have all : stream.tokens.length ≤ w.index := stream.last_eq ▸ Nat.le_of_not_lt stays
    simp [cursor, Cursor.advance, List.drop_of_length_le all]

/-- Going on opens and closes nothing. -/
theorem depth_advance : (w.advance stream).depth = w.depth := by
  unfold advance
  split <;> rfl

/-- Going on does not go back. -/
theorem le_advance : w.index ≤ (w.advance stream).index := by
  unfold advance
  split
  · exact Nat.le_succ w.index
  · exact Nat.le_refl w.index

/-- Going on stays within the list. -/
theorem advance_le (within : w.index ≤ stream.last) : (w.advance stream).index ≤ stream.last := by
  unfold advance
  split
  · next before => exact before
  · exact within

/-- Before the end, going on gets further. -/
theorem lt_advance (before : w.index < stream.last) : w.index < (w.advance stream).index := by
  rw [advance, if_pos before]
  exact Nat.lt_succ_self w.index

/-- Where a symbol is ahead, the end is further on. -/
theorem lt_last {s : Symbol} (found : (w.cursor stream).ahead? = some s) :
    w.index < stream.last := by
  rw [stream.last_eq]
  refine Nat.lt_of_not_le fun beyond ↦ ?_
  simp [cursor, Cursor.ahead?, List.drop_of_length_le beyond] at found

/-- The tokens that are left are those from the index on. -/
theorem length_rest : (w.cursor stream).rest.length = stream.last - w.index := by
  rw [stream.last_eq]
  exact List.length_drop

end Walker

/-- One place may follow another in a walk: it is not further back, and not past the end. -/
structure Onward (stream : TokenStream) (w w' : Walker) : Prop where
  le : w.index ≤ w'.index
  within : w'.index ≤ stream.last

namespace Onward

/-- A walker that stays within the list is not further back. -/
theorem refl (within : w.index ≤ stream.last) : Onward stream w w :=
  ⟨Nat.le_refl _, within⟩

/-- Going on and going on again is going on. -/
theorem trans {w' w'' : Walker} (first : Onward stream w w') (second : Onward stream w' w'') :
    Onward stream w w'' :=
  ⟨Nat.le_trans first.le second.le, second.within⟩

/-- Passing what is ahead is going on. -/
theorem advance (within : w.index ≤ stream.last) : Onward stream w (w.advance stream) :=
  ⟨Walker.le_advance, Walker.advance_le within⟩

end Onward

/-! ### Walks one after another -/

namespace Walk

/-- After a result the second walk goes on from its state. -/
theorem bind_ok {x : Walk α} {f : α → Walk β} {a : α} {w' : Walker}
    (h : x w = some (.ok a, w')) : (x >>= f) w = f a w' := by
  show (x w).bind _ = _
  rw [h]
  rfl

/-- After a failure the second walk is skipped. -/
theorem bind_error {x : Walk α} {f : α → Walk β} {e : Failure} {w' : Walker}
    (h : x w = some (.error e, w')) : (x >>= f) w = some (.error e, w') := by
  show (x w).bind _ = _
  rw [h]
  rfl

/-! A construct is opened and closed by the same function. -/

variable {limit calls : Nat} {query : Query} {least : Nat}

/-- A construct from its opening to its closing. -/
def nested (stream : TokenStream) (limit : Nat) (x : Walk α) : Walk α := do
  enter stream limit
  let a ← x
  leave
  return a

/-- What comes after a construct comes after its closing. -/
theorem nested_bind (x : Walk α) (f : α → Walk β) :
    nested stream limit x >>= f = (do
      enter stream limit
      let a ← x
      leave
      f a) := by
  simp only [nested, bind_assoc, pure_bind]

/-- With room left, a construct is opened. -/
theorem enter_ok (room : w.depth < limit) :
    enter stream limit w = some (.ok (), { w with depth := w.depth + 1 }) := by
  have below : ¬ limit < w.depth + 1 := Nat.not_lt_of_ge room
  show (if limit < w.depth + 1 then fault stream .nestedTooDeeply else Pure.pure () : Walk Unit)
    { w with depth := w.depth + 1 } = _
  rw [if_neg below]
  rfl

/-- With no room left, opening a construct fails at the place ahead. -/
theorem enter_error (full : limit ≤ w.depth) :
    enter stream limit w = some (.error (.badGrammar .nestedTooDeeply
      (stream.entry w.index).position), { w with depth := w.depth + 1 }) := by
  have beyond : limit < w.depth + 1 := Nat.lt_succ_of_le full
  show (if limit < w.depth + 1 then fault stream .nestedTooDeeply else Pure.pure () : Walk Unit)
    { w with depth := w.depth + 1 } = _
  rw [if_pos beyond]
  rfl

/-- An expression is a construct. -/
theorem expression_succ : expression stream limit query (calls + 1) least =
    nested stream limit (do
      let left ← unary stream limit query calls
      operators stream limit query calls least left) := by
  rw [expression]
  simp only [nested, bind_assoc]

end Walk

end StoryEngine.Expression
