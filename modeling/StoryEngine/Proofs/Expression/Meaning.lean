import StoryEngine.Proofs.Expression.Lexing
import StoryEngine.Proofs.Expression.Reading

/-!
# The meaning of a source

Evaluating the source of a tree gives the value of the tree. Nothing in the evaluation is a tree:
operands are read one after another, and each operator takes what has been read so far as its
left operand. So the induction over trees says how a tree is read in front of any tokens that may
follow it, and what is still to be done when its last operand has been read.

Specification: `SPEC_FULL.md` §4.1 (grammar) and §8 (precedence, left-associativity).
-/

namespace StoryEngine.Expression

variable {query : Query} {room least : Nat}

/-! ### What may follow -/

/-- The tokens do not turn a name before them into a call. -/
def NoCall (rest : List Token) : Prop :=
  ∀ t ∈ rest.head?, t.symbol ≠ .leftParen

/-- The tokens neither turn a name before them into a call, nor go on with an operator that binds
at least as tightly as `least`. -/
def Ends (least : Nat) (rest : List Token) : Prop :=
  ∀ t ∈ rest.head?, t.symbol ≠ .leftParen ∧
    ∀ op, t.symbol = .operator op → op.precedence < least

private theorem Ends.noCall {rest : List Token} (h : Ends least rest) : NoCall rest :=
  fun t member ↦ (h t member).1

private theorem Ends.mono {least' : Nat} {rest : List Token} (h : Ends least rest)
    (le : least ≤ least') : Ends least' rest :=
  fun t member ↦ ⟨(h t member).1, fun op same ↦ Nat.lt_of_lt_of_le ((h t member).2 op same) le⟩

private theorem ends_nil : Ends least [] := by
  simp [Ends]

private theorem ends_rightParen (position : Nat) (rest : List Token) :
    Ends least (⟨.rightParen, position⟩ :: rest) := by
  simp [Ends]

private theorem ends_comma (position : Nat) (rest : List Token) :
    Ends least (⟨.comma, position⟩ :: rest) := by
  simp [Ends]

/-! ### Connectives -/

/-- Applying an operator follows the rule of the operator. -/
theorem Connective.apply_eq (op : Connective) (left right : Value) (position : Nat) :
    MonadExcept.ofExcept (op.1.apply left right position) =
      Drawing.applyRule left right op.rule := by
  obtain ⟨op, binary⟩ := op
  cases op with
  | not => exact absurd rfl binary
  | add | sub | mul | div | mod | less | greater | atMost | atLeast =>
    simp only [Operator.apply, Operator.apply.arithmetic, Operator.apply.comparison,
      Operator.apply.numbers, Connective.rule, Drawing.applyRule, Drawing.number]
    cases left.toNumber with
    | error e => rfl
    | ok x => cases right.toNumber <;> rfl
  | equal | unequal | and | or => rfl

/-! ### Operands -/

/-- Whatever stands before the operand of an operator is read with one room less, and brackets and
arguments with the room itself. -/
theorem unary_zero : unary query 0 =
    prefixed (Step.fault .nestedTooDeeply) (primary query (expression query 0 0)) := by
  rw [unary, expression]

/-- With room left, the operand of an operator before it is read with less room. -/
theorem unary_succ : unary query (room + 1) =
    prefixed (unary query room) (primary query (expression query (room + 1) 0)) := by
  rw [unary, expression]

/-- A token that is no operator starts a primary. -/
private theorem Reads.unary_primary {t : Token} {rest after : List Token} {y : Drawing Value}
    (primary : Reads (primary query (expression query room 0)) y (t :: rest) after)
    (other : ∀ op, t.symbol ≠ .operator op) : Reads (unary query room) y (t :: rest) after := by
  have prefixed (inner : Step Value) :
      Reads (prefixed inner (Expression.primary query (expression query room 0))) y (t :: rest)
        after := by
    apply Reads.next (Reads.ahead t rest)
    split
    · next same => exact absurd (Option.some.inj same) (other _)
    · next same => exact absurd (Option.some.inj same) (other _)
    · exact primary
  cases room with
  | zero => rw [unary_zero]; exact prefixed _
  | succ room => rw [unary_succ]; exact prefixed _

/-- What is read inside brackets is read with them. -/
private theorem Reads.brackets {start stop : Nat} {tokens rest : List Token} {y : Drawing Value}
    (h : Reads (expression query room 0) y (tokens ++ ⟨.rightParen, stop⟩ :: rest)
      (⟨.rightParen, stop⟩ :: rest)) :
    Reads (unary query room) y (⟨.leftParen, start⟩ :: (tokens ++ ⟨.rightParen, stop⟩ :: rest))
      rest := by
  refine Reads.unary_primary ?_ (by simp)
  apply Reads.next (Reads.position _ _)
  apply Reads.next (Reads.read _ _)
  rw [← bind_pure y]
  apply h.bind
  intro v
  exact Reads.next (Reads.ahead _ _) (Reads.next (Reads.read _ _) (Reads.pure v rest))

/-! ### Chains of operators -/

/-- Where `tokens` are followed by operators that bind at most as tightly as `own`, they are read
with the value of `y`, and those operators are then applied to it. -/
def Leads (query : Query) (room own : Nat) (tokens : List Token) (y : Drawing Value) : Prop :=
  ∀ least ≤ own, ∀ (rest after : List Token) (g : Value → Drawing Value), Ends (own + 1) rest →
    (∀ v rounds, rest.length ≤ rounds →
      Reads (climbWithin (expression query room) least v rounds) (g v) rest after) →
    Reads (climb (unary query room) (expression query room) least) (y >>= g) (tokens ++ rest) after

/-- An operand leads any operators. -/
private theorem Leads.of_operand {own : Nat} {tokens : List Token} {y : Drawing Value}
    (h : ∀ rest, NoCall rest → Reads (unary query room) y (tokens ++ rest) rest) :
    Leads query room own tokens y := by
  intro least _ rest after g ends next
  apply (h rest ends.noCall).bind
  intro v
  exact Reads.next (Reads.remaining rest) (next v _ (Nat.le_refl _))

/-- Operators that bind less tightly are left alone. -/
private theorem Reads.climbWithin_ends {operand : Nat → Step Value} {rest : List Token}
    (ends : Ends least rest) (v : Value) (rounds : Nat) :
    Reads (climbWithin operand least v rounds) (Pure.pure v) rest rest := by
  cases rounds with
  | zero => exact Reads.pure v rest
  | succ rounds =>
    cases rest with
    | nil => exact fun _ _ ↦ rfl
    | cons t rest =>
      apply Reads.next (Reads.position t rest)
      apply Reads.next (Reads.ahead t rest)
      split
      · next op same =>
        rw [if_pos ((ends t rfl).2 op (Option.some.inj same))]
        exact Reads.pure v _
      · exact Reads.pure v _

/-- What leads is read as an expression where no operator goes on with it. -/
private theorem Leads.expression {tokens rest : List Token} {y : Drawing Value}
    (h : Leads query room least tokens y) (ends : Ends least rest) :
    Reads (expression query (room + 1) least) y (tokens ++ rest) rest := by
  rw [Expression.expression, ← bind_pure y]
  exact h least (Nat.le_refl _) rest rest Pure.pure (ends.mono (Nat.le_succ _))
    fun v rounds _ ↦ Reads.climbWithin_ends ends v rounds

/-- A left operand, an operator and a right operand lead together. -/
private theorem Leads.binary {op : Connective} {own position : Nat} {before rest : List Token}
    {left right : Drawing Value} (tight : own ≤ op.1.precedence)
    (first : Leads query room op.1.precedence before left)
    (second : ∀ after, Ends (op.1.precedence + 1) after →
      Reads (Expression.expression query room (op.1.precedence + 1)) right (rest ++ after) after) :
    Leads query room own (before ++ ⟨.operator op.1, position⟩ :: rest)
      (left >>= fun x ↦ right >>= fun y ↦ Drawing.applyRule x y op.rule) := by
  intro least low following after g ends next
  have operator : Ends (op.1.precedence + 1)
      (⟨.operator op.1, position⟩ :: (rest ++ following)) := by
    intro t member
    obtain rfl := Option.some.inj member
    exact ⟨by simp, fun op' same ↦ by cases same; exact Nat.lt_succ_self _⟩
  rw [List.append_assoc, List.cons_append, bind_assoc]
  refine first least (Nat.le_trans low tight) _ after _ operator fun x rounds enough ↦ ?_
  have some : 0 < rounds := by
    simp only [List.length_cons] at enough
    omega
  obtain ⟨rounds, rfl⟩ := Nat.exists_eq_add_one.2 some
  apply Reads.next (Reads.position _ _)
  apply Reads.next (Reads.ahead _ _)
  dsimp only
  rw [if_neg (by omega), bind_assoc]
  apply Reads.next (Reads.read _ _)
  apply (second following (ends.mono (by omega))).bind
  intro y
  rw [← op.apply_eq x y position]
  refine (Reads.ofExcept _ following).bind fun v ↦ next v rounds ?_
  simp at enough
  omega

/-! ### Trees -/

/-- No operator binds less tightly than the least strength. -/
private theorem Tree.looserThan_zero (t : Tree) : t.looserThan 0 = false := by
  cases t <;> simp [looserThan]

private theorem placed_bracket_true (start : Nat) (lexemes : List Lexeme) :
    placed start (bracket true lexemes) = ⟨.leftParen, start⟩ :: (placed (inside true start) lexemes
      ++ [⟨.rightParen, inside true start + extent lexemes⟩]) := by
  rw [bracket, List.cons_append, placed, placed_append]
  rfl

/-- How a tree is read: as an operand unless its outermost operator is a connective, and before
any operators that bind at most as tightly as that. -/
structure Tree.Readable (t : Tree) : Prop where
  operand : ∀ query start room rest, t.looserThan Operator.not.precedence = false →
    t.level ≤ room → NoCall rest →
    Reads (unary query room) (t.evaluate query start) (placed start t.lexemes ++ rest) rest
  leads : ∀ query start room own, t.looserThan own = false → t.level ≤ room →
    Leads query room own (placed start t.lexemes) (t.evaluate query start)

namespace Tree.Readable

variable {t : Tree} {start : Nat}

/-- A tree without an outermost connective leads as the operand that it is. -/
private theorem of_operand (h : ∀ query start room rest, t.level ≤ room → NoCall rest →
    Reads (unary query room) (t.evaluate query start) (placed start t.lexemes ++ rest) rest) :
    t.Readable where
  operand query start room rest _ := h query start room rest
  leads query start room _ _ level := Leads.of_operand fun rest ↦ h query start room rest level

/-- A tree in brackets is an operand. -/
private theorem brackets (h : t.Readable) (level : t.level + 1 ≤ room) (rest : List Token) :
    Reads (unary query room) (t.evaluate query (inside true start))
      (placed start (bracket true t.lexemes) ++ rest) rest := by
  obtain ⟨room, rfl⟩ := Nat.exists_eq_add_one.2 (show 0 < room by omega)
  have leads := h.leads query (inside true start) room 0 t.looserThan_zero (by omega)
  rw [placed_bracket_true, List.cons_append, List.append_assoc]
  exact Reads.brackets (leads.expression (ends_rightParen _ rest))

/-- A tree is an operand, with brackets if it needs them. -/
private theorem operand_bracket (h : t.Readable) {rest : List Token} (noCall : NoCall rest)
    (level : inBrackets (t.looserThan Operator.not.precedence) t.level ≤ room) :
    Reads (unary query room)
      (t.evaluate query (inside (t.looserThan Operator.not.precedence) start))
      (placed start (bracket (t.looserThan Operator.not.precedence) t.lexemes) ++ rest) rest := by
  cases looser : t.looserThan Operator.not.precedence with
  | true =>
    rw [looser] at level
    exact h.brackets level rest
  | false =>
    rw [looser] at level
    exact h.operand query start room rest looser level noCall

/-- A tree leads any operators, with brackets if it needs them. -/
private theorem leads_bracket {own : Nat} (h : t.Readable)
    (level : inBrackets (t.looserThan own) t.level ≤ room) :
    Leads query room own (placed start (bracket (t.looserThan own) t.lexemes))
      (t.evaluate query (inside (t.looserThan own) start)) := by
  cases looser : t.looserThan own with
  | true =>
    rw [looser] at level
    exact Leads.of_operand fun rest _ ↦ h.brackets level rest
  | false =>
    rw [looser] at level
    exact h.leads query start room own looser level

/-- A number, a truth value, a text or a variable is one token. -/
private theorem of_token (l : Lexeme) (lexemes : t.lexemes = [l])
    (other : ∀ op, l.symbol ≠ .operator op)
    (value : ∀ query start, ∃ v, t.evaluate query start = pure v ∧
      ∀ nested rest, NoCall rest →
        Reads (primary query nested) (pure v) (⟨l.symbol, start⟩ :: rest) rest) :
    t.Readable := by
  refine of_operand fun query start room rest _ noCall ↦ ?_
  obtain ⟨v, evaluate, read⟩ := value query start
  rw [lexemes, evaluate]
  exact Reads.unary_primary (read _ rest noCall) other

end Tree.Readable

/-- A name that is not called is read as the value of the name. -/
private theorem reads_primary_name (query : Query) (nested : Step Value) (name : String)
    (start : Nat)
    {rest : List Token} (noCall : NoCall rest) :
    Reads (primary query nested) (pure (nameValue query name)) (⟨.name name, start⟩ :: rest)
      rest := by
  apply Reads.next (Reads.position _ _)
  apply Reads.next (Reads.read _ _)
  cases rest with
  | nil => exact fun _ _ ↦ rfl
  | cons t rest =>
    apply Reads.next (Reads.ahead t rest)
    rw [if_neg fun same ↦ noCall t rfl (Option.some.inj same)]
    exact Reads.pure _ _

private theorem Tree.readable_number (literal : DecimalLiteral) : (Tree.number literal).Readable :=
  .of_token literal.lexeme rfl (by simp [DecimalLiteral.lexeme]) fun _ _ ↦ ⟨_, rfl, fun _ rest _ ↦
    Reads.next (Reads.position _ _) (Reads.next (Reads.read _ _) (Reads.pure _ rest))⟩

private theorem Tree.readable_text (quotation : Quotation) : (Tree.text quotation).Readable :=
  .of_token quotation.lexeme rfl (by simp [Quotation.lexeme]) fun _ _ ↦ ⟨_, rfl, fun _ rest _ ↦
    Reads.next (Reads.position _ _) (Reads.next (Reads.read _ _) (Reads.pure _ rest))⟩

private theorem Tree.readable_bool (b : Bool) : (Tree.bool b).Readable := by
  refine .of_token (Identifier.ofBool b).lexeme rfl (by simp [Identifier.lexeme])
    fun query start ↦ ⟨.bool b, rfl, fun nested rest noCall ↦ ?_⟩
  have read := reads_primary_name query nested (Identifier.ofBool b).text start noCall
  cases b with
  | true => exact read
  | false => exact read

private theorem Tree.readable_name (identifier : Identifier)
    (free : ∀ b, identifier.text ≠ (Identifier.ofBool b).text) :
    (Tree.name identifier free).Readable := by
  refine .of_token identifier.lexeme rfl (by simp [Identifier.lexeme])
    fun query start ↦ ⟨_, rfl, fun nested rest noCall ↦ ?_⟩
  have value : nameValue query identifier.text = .number (query.value identifier.text) := by
    rw [nameValue]
    · exact free true
    · exact free false
  rw [← value]
  exact reads_primary_name query nested identifier.text start noCall

private theorem Tree.readable_not {operand : Tree} (h : operand.Readable) :
    (Tree.not operand).Readable := by
  refine .of_operand fun query start room rest level noCall ↦ ?_
  have some : 0 < room := by
    simp only [Tree.level] at level
    omega
  obtain ⟨room, rfl⟩ := Nat.exists_eq_add_one.2 some
  rw [unary_succ, Tree.lexemes, Tree.evaluate]
  apply Reads.next (Reads.ahead _ _)
  apply Reads.next (Reads.read _ _)
  refine Reads.bind (h.operand_bracket noCall ?_) fun v ↦ Reads.pure _ rest
  simpa [Tree.level] using level

private theorem Tree.readable_negate {operand : Tree} (h : operand.Readable) :
    (Tree.negate operand).Readable := by
  refine .of_operand fun query start room rest level noCall ↦ ?_
  have some : 0 < room := by
    simp only [Tree.level] at level
    omega
  obtain ⟨room, rfl⟩ := Nat.exists_eq_add_one.2 some
  rw [unary_succ, Tree.lexemes, Tree.evaluate]
  apply Reads.next (Reads.ahead _ _)
  apply Reads.next (Reads.read _ _)
  refine Reads.bind (h.operand_bracket noCall ?_) fun v ↦ ?_
  · simpa [Tree.level] using level
  · exact (Reads.ofExcept _ rest).bind fun x ↦ Reads.pure _ rest

private theorem Tree.readable_binary (op : Connective) {left right : Tree} (first : left.Readable)
    (second : right.Readable) : (Tree.binary op left right).Readable where
  operand query start room rest looser := by
    obtain ⟨op, binary⟩ := op
    cases op <;> simp [Tree.looserThan, Operator.precedence] at looser binary
  leads query start room own looser level := by
    simp only [Tree.looserThan, decide_eq_false_iff_not, Nat.not_lt] at looser
    simp only [Tree.level, Nat.max_le] at level
    obtain ⟨room, rfl⟩ := Nat.exists_eq_add_one.2 (show 0 < room by omega)
    rw [Tree.lexemes, placed_append, placed, Tree.evaluate]
    refine Leads.binary looser (first.leads_bracket level.1) fun after ends ↦ ?_
    rw [extent_append, ← Nat.add_assoc]
    exact (second.leads_bracket (by omega)).expression ends

/-! ### Calls -/

/-- The first lexeme of a tree is no closing bracket. -/
private theorem Tree.lexemes_eq_cons : (t : Tree) →
    ∃ l rest, t.lexemes = l :: rest ∧ l.symbol ≠ .rightParen
  | .number literal => ⟨_, _, rfl, by simp [DecimalLiteral.lexeme]⟩
  | .bool b => ⟨_, _, rfl, by simp [Identifier.lexeme]⟩
  | .text quotation => ⟨_, _, rfl, by simp [Quotation.lexeme]⟩
  | .name identifier _ => ⟨_, _, rfl, by simp [Identifier.lexeme]⟩
  | .not _ => ⟨_, _, rfl, by simp [Operator.lexeme]⟩
  | .negate _ => ⟨_, _, rfl, by simp [Operator.lexeme]⟩
  | .binary op left _ => by
    obtain ⟨l, rest, lexemes, other⟩ := left.lexemes_eq_cons
    rw [Tree.lexemes]
    cases left.looserThan op.1.precedence with
    | true => exact ⟨opening, _, rfl, by simp [opening]⟩
    | false => exact ⟨l, _, by rw [bracket, lexemes]; rfl, other⟩
  | .call function _ => ⟨_, _, rfl, by simp [Identifier.lexeme]⟩

/-- Each argument has at least one lexeme. -/
private theorem length_le_length_argumentLexemes (args : List Tree) :
    args.length ≤ (argumentLexemes args).length := by
  induction args with
  | nil => exact Nat.le_refl 0
  | cons t args ih =>
    obtain ⟨l, more, lexemes, -⟩ := t.lexemes_eq_cons
    cases args with
    | nil => simp [argumentLexemes, lexemes]
    | cons u args =>
      simp only [argumentLexemes, List.length_append, List.length_cons, lexemes] at ih ⊢
      omega

/-- Arguments are read up to the closing bracket after them. -/
private theorem reads_argumentsWithin (query : Query) {args : List Tree}
    (h : ∀ t ∈ args, t.Readable)
    (name : String) (some : args ≠ []) (level : argumentsLevel args ≤ room) (start stop : Nat)
    (rest : List Token) {rounds : Nat} (enough : args.length ≤ rounds) :
    Reads (argumentsWithin (expression query room 0) name rounds)
      (evaluateArguments query args start)
      (placed start (argumentLexemes args) ++ ⟨.rightParen, stop⟩ :: rest) rest := by
  induction args generalizing start rounds with
  | nil => exact absurd rfl some
  | cons t args ih =>
    have rounded : 0 < rounds := by
      simp only [List.length_cons] at enough
      omega
    obtain ⟨rounds, rfl⟩ := Nat.exists_eq_add_one.2 rounded
    simp only [argumentsLevel, Nat.max_le] at level
    obtain ⟨room, rfl⟩ := Nat.exists_eq_add_one.2 (show 0 < room by omega)
    have leads := (h t (by simp)).leads query start room 0 t.looserThan_zero (by omega)
    rw [argumentsWithin, evaluateArguments]
    cases args with
    | nil =>
      refine Reads.bind (leads.expression (ends_rightParen stop rest)) fun v ↦ ?_
      exact Reads.next (Reads.position _ _) (Reads.next (Reads.read _ _) (Reads.pure _ rest))
    | cons u args =>
      rw [argumentLexemes, placed_append, placed, List.append_assoc, List.cons_append]
      refine Reads.bind (leads.expression (ends_comma _ _)) fun v ↦ ?_
      apply Reads.next (Reads.position _ _)
      apply Reads.next (Reads.read _ _)
      have others := ih (fun t member ↦ h t (by simp [member])) (by simp) level.2
        (start + extent (t.lexemes ++ [separator])) (Nat.le_of_succ_le_succ enough)
      rw [extent_append, ← Nat.add_assoc] at others ⊢
      exact others.map (v :: ·)

/-- A call looks up its function after its arguments. -/
theorem reads_function (name : String) (position : Nat) (values : List Value)
    (rest : List Token) :
    Reads
      (match Builtin.ofName? name with
        | some function => function.apply query values
        | none => throw (.unknownFunction name position))
      (Drawing.call query name position values) rest rest := by
  rw [Drawing.call]
  cases Builtin.ofName? name with
  | some function => exact blind_apply query values function rest
  | none => exact Reads.throw _

/-- A call is read from its opening bracket to its closing one. -/
private theorem reads_call {args : List Tree} (h : ∀ t ∈ args, t.Readable) (name : String)
    (level : argumentsLevel args ≤ room) (position start before after : Nat) (rest : List Token) :
    Reads (call query (expression query room 0) name position)
      (evaluateArguments query args start >>= Drawing.call query name position)
      (⟨.leftParen, before⟩ ::
        (placed start (argumentLexemes args) ++ ⟨.rightParen, after⟩ :: rest)) rest := by
  apply Reads.next (Reads.read _ _)
  cases args with
  | nil =>
    apply Reads.next (Reads.ahead _ _)
    simp only [if_pos, evaluateArguments, pure_bind]
    exact Reads.next (Reads.read _ _) (reads_function name position [] rest)
  | cons t args =>
    obtain ⟨l, more, lexemes, other⟩ : ∃ l more, argumentLexemes (t :: args) = l :: more ∧
        l.symbol ≠ .rightParen := by
      obtain ⟨l, more, lexemes, other⟩ := t.lexemes_eq_cons
      cases args with
      | nil => exact ⟨l, more, lexemes, other⟩
      | cons u args => exact ⟨l, _, by rw [argumentLexemes, lexemes]; rfl, other⟩
    have enough : (t :: args).length ≤
        (placed start (argumentLexemes (t :: args)) ++ ⟨.rightParen, after⟩ :: rest).length +
          1 := by
      have := length_le_length_argumentLexemes (t :: args)
      rw [List.length_append, length_placed]
      omega
    have arguments := reads_argumentsWithin query h name (by simp) level start after rest enough
    rw [lexemes, placed, List.cons_append] at arguments ⊢
    apply Reads.next (Reads.ahead _ _)
    rw [if_neg fun same ↦ other (Option.some.inj same)]
    apply Reads.next (Reads.remaining _)
    exact arguments.bind fun values ↦ reads_function name position values rest

private theorem Tree.readable_call (function : Identifier) {args : List Tree}
    (h : ∀ t ∈ args, t.Readable) : (Tree.call function args).Readable := by
  refine .of_operand fun query start room rest level _ ↦ ?_
  have tokens : placed start (Tree.call function args).lexemes ++ rest =
      ⟨.name function.text, start⟩ :: ⟨.leftParen, start + extent [function.lexeme]⟩ ::
        (placed (start + extent [function.lexeme, opening]) (argumentLexemes args) ++
          ⟨.rightParen, start + extent (function.lexeme :: opening :: argumentLexemes args)⟩ ::
            rest) := by
    simp [Tree.lexemes, placed, placed_append, extent, Nat.add_assoc, Identifier.lexeme, opening,
      closing]
  rw [tokens, Tree.evaluate]
  refine Reads.unary_primary ?_ (by simp)
  apply Reads.next (Reads.position _ _)
  apply Reads.next (Reads.read _ _)
  apply Reads.next (Reads.ahead _ _)
  exact reads_call h function.text level start _ _ _ rest

mutual

/-- Every tree is read as it is written. -/
theorem Tree.readable : (t : Tree) → t.Readable
  | .number literal => Tree.readable_number literal
  | .bool b => Tree.readable_bool b
  | .text quotation => Tree.readable_text quotation
  | .name identifier free => Tree.readable_name identifier free
  | .not operand => Tree.readable_not operand.readable
  | .negate operand => Tree.readable_negate operand.readable
  | .binary op left right => Tree.readable_binary op left.readable right.readable
  | .call function args => Tree.readable_call function (readable_arguments args)

private theorem readable_arguments : (args : List Tree) → ∀ t ∈ args, t.Readable
  | t :: args, u, member => by
    rcases List.mem_cons.1 member with same | member
    · rw [same]
      exact t.readable
    · exact readable_arguments args u member

end

/-! ### Sources -/

/-- Evaluating the source of a tree gives the value of the tree, or the failure that it has
instead, and makes the draws that the tree makes, as long as the source is not nested too deeply. -/
theorem evaluate_source (t : Tree) (nesting : t.nesting ≤ nestingLimit) (query : Query)
    (draws : Draws) : evaluate t.source query draws = t.outcome query draws := by
  obtain ⟨stop, read⟩ := t.lex_source
  obtain ⟨l, more, lexemes, -⟩ := t.lexemes_eq_cons
  have leads := t.readable.leads query 0 63 0 t.looserThan_zero (Nat.le_of_succ_le_succ nesting)
  have whole : Reads (evaluateTokens query) (t.evaluate query 0) (placed 0 t.lexemes) [] := by
    have value := leads.expression ends_nil
    rw [List.append_nil, lexemes, placed] at value
    rw [lexemes, placed]
    apply Reads.next (Reads.ahead _ _)
    rw [if_neg (by simp), ← bind_pure (t.evaluate query 0)]
    exact value.bind fun v _ _ ↦ rfl
  have whole := whole stop draws
  simp only [evaluate, read, Tree.outcome, EStateM.run]
  cases made : t.evaluate query 0 draws with
  | ok v draws' =>
    rw [made] at whole
    simp only [whole]
  | error e draws' =>
    rw [made] at whole
    obtain ⟨rest, whole⟩ := whole
    simp only [whole]

/-- The tree of `2 * ( 8 - - 3 ) - f ( 'a' , x )`. -/
private def bracketedDifference : Tree :=
  .binary ⟨.sub, nofun⟩
    (.binary ⟨.mul, nofun⟩ (digit '2' rfl)
      (.binary ⟨.sub, nofun⟩ (digit '8' rfl) (.negate (digit '3' rfl))))
    (.call ⟨'f', [], rfl, nofun⟩
      [.text ⟨'\'', ['a'], rfl, by decide⟩, .name ⟨'x', [], rfl, nofun⟩ (by decide)])
where
  digit (c : Char) (h : c.isDigit = true) : Tree :=
    .number ⟨[c], none, by simp, by simpa using h, by simp⟩

/-- The brackets around a difference stay, and the unknown function is found at its place after
its arguments were evaluated. -/
theorem evaluate_source_bracketedDifference :
    bracketedDifference.nesting ≤ nestingLimit ∧
      bracketedDifference.source = "2 * ( 8 - - 3 ) - f ( 'a' , x )" ∧
      ∀ query draws, evaluate bracketedDifference.source query draws =
        bracketedDifference.outcome query draws :=
  ⟨by decide, by decide, evaluate_source bracketedDifference (by decide)⟩

end StoryEngine.Expression
