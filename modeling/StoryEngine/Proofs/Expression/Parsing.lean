import StoryEngine.Proofs.Expression.Grammar
import StoryEngine.Proofs.Expression.Meaning

/-!
# What is read is grammatical

A step of the evaluation as a reader of symbols: which symbols it takes when it comes to a result.
Operands, chains and arguments are read as the grammar has them, whatever the values are, so that
an expression that has a value is a phrase.
-/

namespace StoryEngine.Expression

variable {α β : Type} {E : Failure → Prop} {before : List Symbol}

/-- The symbols ahead. -/
def Cursor.symbols (c : Cursor) : List Symbol :=
  c.rest.map Token.symbol

/-- Wherever the symbols `before` are ahead, the step `x` comes to a result that meets `Q` together
with the symbols then ahead, or to a failure that meets `E`. -/
def Triple (E : Failure → Prop) (before : List Symbol) (x : Step α)
    (Q : α → List Symbol → Prop) : Prop :=
  ∀ c : Cursor, c.symbols = before →
    match x c with
    | .ok a c' => Q a c'.symbols
    | .error e _ => E e

namespace Triple

variable {x : Step α} {f : α → Step β} {P Q : α → List Symbol → Prop} {R : β → List Symbol → Prop}

/-- A result takes no symbols. -/
theorem pure {a : α} (h : Q a before) : Triple E before (Pure.pure a) Q := by
  intro c ahead
  show Q a c.symbols
  rw [ahead]
  exact h

/-- A failure takes no symbols. -/
theorem throw {e : Failure} (h : E e) : Triple E before (MonadExcept.throw e) Q :=
  fun _ _ ↦ h

/-- One step after another. -/
theorem bind (first : Triple E before x P)
    (second : ∀ a mid, P a mid → Triple E mid (f a) R) : Triple E before (x >>= f) R := by
  intro c ahead
  have first := first c ahead
  simp only [Bind.bind, EStateM.bind]
  cases made : x c with
  | ok a c' =>
    rw [made] at first
    exact second a _ first c' rfl
  | error e c' =>
    rw [made] at first
    exact first

/-- What is said of a result may be weakened. -/
theorem mono (h : Triple E before x P) (imp : ∀ a after, P a after → Q a after) :
    Triple E before x Q := by
  intro c ahead
  have h := h c ahead
  cases made : x c with
  | ok a c' =>
    rw [made] at h
    exact imp a _ h
  | error e c' =>
    rw [made] at h
    exact h

/-- A function of the result takes no symbols. -/
theorem map {g : α → β} (h : Triple E before x fun a ↦ R (g a)) :
    Triple E before (g <$> x) R := by
  intro c ahead
  have h := h c ahead
  simp only [Functor.map, EStateM.map]
  cases made : x c with
  | ok a c' =>
    rw [made] at h
    exact h
  | error e c' =>
    rw [made] at h
    exact h

/-! A step that looks at the symbols ahead, or takes one. -/

/-- Looking ahead takes no symbols. -/
theorem ahead {g : Option Symbol → Step β} (h : Triple E before (g before.head?) R) :
    Triple E before (Step.ahead? >>= g) R := by
  intro c ahead
  have h := h c ahead
  rw [← ahead, Cursor.symbols, List.head?_map] at h
  exact h

private theorem read {g : Option Symbol → Step β} (h : Triple E before.tail (g before.head?) R) :
    Triple E before (Step.read? >>= g) R := by
  intro c ahead
  have after : c.advance.symbols = before.tail := by
    rw [← ahead, Cursor.symbols, Cursor.symbols, Cursor.advance, List.map_tail]
  have h := h c.advance after
  rw [← ahead, Cursor.symbols, List.head?_map] at h
  exact h

/-- Reading takes the first symbol. -/
theorem read_cons {s : Symbol} {rest : List Symbol} {g : Option Symbol → Step β}
    (h : Triple E rest (g (some s)) R) : Triple E (s :: rest) (Step.read? >>= g) R :=
  read h

/-- Counting the tokens that are left takes no symbols. -/
theorem remaining {g : Nat → Step β} (h : Triple E before (g before.length) R) :
    Triple E before (Step.remaining >>= g) R := by
  intro c ahead
  have h := h c ahead
  rw [← ahead, Cursor.symbols, List.length_map] at h
  exact h

/-- Asking for the place takes no symbols, and the place may be any. -/
theorem position {g : Nat → Step β} (h : ∀ place, Triple E before (g place) R) :
    Triple E before (Step.position >>= g) R :=
  fun c ahead ↦ h c.position c ahead

/-- A fault is a failure, wherever it shows. -/
theorem fault {f : Fault} (h : ∀ place, E (.badGrammar f place)) :
    Triple E before (Step.fault f) Q :=
  fun c _ ↦ h c.position

/-- A result that does not depend on the cursor. -/
theorem ofExcept {r : Except Failure α} (failed : ∀ e, r = .error e → E e)
    (h : ∀ a, r = .ok a → Q a before) : Triple E before (Step.ofExcept r) Q := by
  cases r with
  | ok a => exact pure (h a rfl)
  | error e => exact throw (failed e rfl)

end Triple

/-! ### Values -/

/-- The only failure of a conversion. -/
theorem Value.toNumber_error {v : Value} {e : Failure} (h : v.toNumber = .error e) :
    ∃ s, e = .notANumber s := by
  cases v with
  | number x => cases h
  | bool b => cases h
  | text s =>
    simp only [toNumber] at h
    split at h
    · cases h
    · cases h
      exact ⟨s, rfl⟩

private theorem Operator.numbers_error {left right : Value} {e : Failure}
    (h : Operator.apply.numbers left right = .error e) : ∃ s, e = .notANumber s := by
  unfold Operator.apply.numbers at h
  cases first : left.toNumber with
  | error e' =>
    rw [first] at h
    cases h
    exact Value.toNumber_error first
  | ok x =>
    cases second : right.toNumber with
    | error e' =>
      rw [first, second] at h
      cases h
      exact Value.toNumber_error second
    | ok y =>
      rw [first, second] at h
      cases h

/-- The only failure of a connective. -/
theorem Connective.apply_error {op : Connective} {left right : Value} {position : Nat}
    {e : Failure} (h : op.1.apply left right position = .error e) : ∃ s, e = .notANumber s := by
  obtain ⟨op, binary⟩ := op
  cases op with
  | not => exact absurd rfl binary
  | equal | unequal | and | or => cases h
  | add | sub | mul | div | mod | less | greater | atMost | atLeast =>
    simp only [Operator.apply, Operator.apply.arithmetic, Operator.apply.comparison] at h
    cases made : Operator.apply.numbers left right with
    | error e' =>
      rw [made] at h
      cases h
      exact Operator.numbers_error made
    | ok xy =>
      rw [made] at h
      cases h

section

variable (number : ∀ s, E (.notANumber s))
include number

private theorem triple_number? (args : List Value) (index : Nat) :
    Triple E before (Builtin.number? args index) fun _ after ↦ after = before := by
  unfold Builtin.number?
  split
  · refine Triple.map (Triple.ofExcept (fun e failed ↦ ?_) fun _ _ ↦ rfl)
    obtain ⟨s, rfl⟩ := Value.toNumber_error failed
    exact number s
  · exact Triple.pure rfl

/-- A function takes no symbols, and at most finds that a text is no number. -/
private theorem triple_apply (query : Query) (args : List Value) (f : Builtin) :
    Triple E before (f.apply query args) fun _ after ↦ after = before := by
  have argument {β : Type} {R : β → List Symbol → Prop} {g : Option Float → Step β} (index : Nat)
      (next : ∀ x, Triple E before (g x) R) :
      Triple E before (Builtin.number? args index >>= g) R := by
    apply (triple_number? number args index).bind
    rintro x _ rfl
    exact next x
  cases f with
  | itemCount | hasStatus | eventOccurred | getAttributeValue => exact Triple.pure rfl
  | randi =>
    apply argument 0
    intro range c ahead
    exact ahead
  | min | max => exact argument 0 fun _ ↦ argument 1 fun _ ↦ Triple.pure rfl
  | floor => exact argument 0 fun _ ↦ Triple.pure rfl
  | clip =>
    refine argument 0 fun x ↦ argument 1 fun low ↦ argument 2 fun high ↦ ?_
    split <;> exact Triple.pure rfl

/-- Looking a function up and calling it takes no symbols. -/
theorem triple_function (unknown : ∀ name place, E (.unknownFunction name place)) (query : Query)
    (name : String) (place : Nat) (args : List Value) :
    Triple E before
      (match Builtin.ofName? name with
        | some function => function.apply query args
        | none => throw (.unknownFunction name place)) fun _ after ↦ after = before := by
  split
  · exact triple_apply number query args _
  · exact Triple.throw (unknown name place)

end

/-! ### Sentences -/

/-- Wherever the step `x` comes to a result, it has read the symbols of a sentence. -/
def Recognizes {σ : Type} (x : Step α) (symbols : σ → List Symbol) : Prop :=
  ∀ before, Triple (fun _ ↦ True) before x fun _ after ↦ ∃ s, before = symbols s ++ after

/-- The loop over connectives reads a chain: the right operand of each is read as a phrase, whose
own chain goes on with it. -/
private theorem recognizes_climbWithin {operand : Nat → Step Value}
    (h : ∀ least, Recognizes (operand least) Phrase.symbols) (least : Nat) (left : Value)
    (rounds : Nat) : Recognizes (climbWithin operand least left rounds) Chain.symbols := by
  induction rounds generalizing left with
  | zero => exact fun before ↦ Triple.pure ⟨.nil, rfl⟩
  | succ rounds ih =>
    intro before
    rw [climbWithin]
    apply Triple.position
    intro place
    apply Triple.ahead
    split
    · next op found =>
      obtain ⟨rest, rfl⟩ := List.head?_eq_some_iff.1 found
      split
      · exact Triple.pure ⟨.nil, rfl⟩
      · apply Triple.read
        apply (h _ rest).bind
        rintro right mid ⟨⟨first, chain⟩, rfl⟩
        by_cases unary : op = .not
        · subst unary
          exact fun _ _ ↦ trivial
        · apply (Triple.ofExcept (Q := fun _ after ↦ after = mid) (fun _ _ ↦ trivial)
            fun _ _ ↦ rfl).bind
          rintro value _ rfl
          refine (ih value _).mono fun _ after ⟨more, split⟩ ↦ ?_
          refine ⟨.cons ⟨op, unary⟩ first (chain.append more), ?_⟩
          simp [split, Phrase.symbols, Chain.symbols, Chain.symbols_append]
    · exact Triple.pure ⟨.nil, rfl⟩

private theorem recognizes_climb {first : Step Value} {operand : Nat → Step Value}
    (start : Recognizes first Operand.symbols)
    (h : ∀ least, Recognizes (operand least) Phrase.symbols) (least : Nat) :
    Recognizes (climb first operand least) Phrase.symbols := by
  intro before
  apply (start before).bind
  rintro left mid ⟨o, rfl⟩
  apply Triple.remaining
  refine (recognizes_climbWithin h least left _ mid).mono fun _ after ⟨chain, split⟩ ↦ ?_
  refine ⟨.mk o chain, ?_⟩
  rw [split, Phrase.symbols, List.append_assoc]

/-- Arguments are read up to a closing bracket. There are enough rounds, as each takes a comma. -/
private theorem triple_argumentsWithin {nested : Step Value} (h : Recognizes nested Phrase.symbols)
    (name : String) {rounds : Nat} (enough : before.length < rounds) :
    Triple (fun _ ↦ True) before (argumentsWithin nested name rounds) fun _ after ↦
      ∃ args : Arguments, before = args.symbols ++ .rightParen :: after := by
  induction rounds generalizing before with
  | zero => exact absurd enough (Nat.not_lt_zero _)
  | succ rounds ih =>
    apply (h before).bind
    rintro value mid ⟨p, rfl⟩
    apply Triple.position
    intro place
    apply Triple.read
    split
    · next found =>
      obtain ⟨rest, rfl⟩ := List.head?_eq_some_iff.1 found
      have enough : rest.length < rounds := by
        simp only [List.length_append, List.length_cons] at enough
        omega
      refine Triple.map ((ih enough).mono fun _ after ⟨args, split⟩ ↦ ⟨.cons p args, ?_⟩)
      rw [split, Arguments.symbols, List.append_assoc, List.cons_append]
    · next found =>
      obtain ⟨rest, rfl⟩ := List.head?_eq_some_iff.1 found
      exact Triple.pure ⟨.last p, rfl⟩
    · exact Triple.throw trivial

/-- A call is read from its opening bracket to its closing one. -/
private theorem triple_call {nested : Step Value} (h : Recognizes nested Phrase.symbols)
    (query : Query)
    (name : String) (position : Nat) (rest : List Symbol) :
    Triple (fun _ ↦ True) (.leftParen :: rest) (call query nested name position) fun _ after ↦
      ∃ o : Operand, .name name :: .leftParen :: rest = o.symbols ++ after := by
  have function (mid : List Symbol) (values : List Value) :
      Triple (fun _ ↦ True) mid _ fun _ after ↦ after = mid :=
    triple_function (fun _ ↦ trivial) (fun _ _ ↦ trivial) query name position values
  apply Triple.read
  rw [List.tail_cons]
  apply Triple.ahead
  by_cases closed : rest.head? = some .rightParen
  · simp only [if_pos closed]
    obtain ⟨after, rfl⟩ := List.head?_eq_some_iff.1 closed
    apply Triple.read
    refine (function _ []).mono fun _ after same ↦ ⟨.emptyCall name, ?_⟩
    rw [same]
    rfl
  · simp only [if_neg closed]
    apply Triple.remaining
    apply (triple_argumentsWithin h name (Nat.lt_succ_self _)).bind
    rintro values mid ⟨args, rfl⟩
    refine (function _ values).mono fun _ after same ↦ ⟨.call name args, ?_⟩
    rw [same, Operand.symbols, List.cons_append, List.cons_append, List.append_assoc]
    rfl

private theorem recognizes_primary {nested : Step Value} (h : Recognizes nested Phrase.symbols)
    (query : Query) : Recognizes (primary query nested) Operand.symbols := by
  intro before
  apply Triple.position
  intro place
  apply Triple.read
  split
  · next x found =>
    obtain ⟨rest, rfl⟩ := List.head?_eq_some_iff.1 found
    exact Triple.pure ⟨.number x, rfl⟩
  · next s found =>
    obtain ⟨rest, rfl⟩ := List.head?_eq_some_iff.1 found
    exact Triple.pure ⟨.text s, rfl⟩
  · next name found =>
    obtain ⟨rest, rfl⟩ := List.head?_eq_some_iff.1 found
    apply Triple.ahead
    split
    · next opens =>
      obtain ⟨rest, rfl⟩ := List.head?_eq_some_iff.1 opens
      exact triple_call h query name place rest
    · exact Triple.pure ⟨.name name, rfl⟩
  · next found =>
    obtain ⟨rest, rfl⟩ := List.head?_eq_some_iff.1 found
    apply (h rest).bind
    rintro value mid ⟨p, rfl⟩
    apply Triple.ahead
    split
    · next closes =>
      obtain ⟨after, rfl⟩ := List.head?_eq_some_iff.1 closes
      refine Triple.read (Triple.pure ⟨.brackets p, ?_⟩)
      simp [Operand.symbols]
    · exact Triple.fault fun _ ↦ trivial
  · exact Triple.throw trivial

private theorem recognizes_prefixed {inner primary : Step Value}
    (first : Recognizes inner Operand.symbols) (second : Recognizes primary Operand.symbols) :
    Recognizes (prefixed inner primary) Operand.symbols := by
  intro before
  apply Triple.ahead
  split
  · next found =>
    obtain ⟨rest, rfl⟩ := List.head?_eq_some_iff.1 found
    apply Triple.read
    apply (first rest).bind
    rintro value mid ⟨o, rfl⟩
    exact Triple.pure ⟨.not o, rfl⟩
  · next found =>
    obtain ⟨rest, rfl⟩ := List.head?_eq_some_iff.1 found
    apply Triple.read
    apply (first rest).bind
    rintro value mid ⟨o, rfl⟩
    apply (Triple.ofExcept (Q := fun _ after ↦ after = mid) (fun _ _ ↦ trivial) fun _ _ ↦ rfl).bind
    rintro x _ rfl
    exact Triple.pure ⟨.negate o, rfl⟩
  · exact second before

private theorem recognizes_fault {σ : Type} (f : Fault) (symbols : σ → List Symbol) :
    Recognizes (α := α) (Step.fault f) symbols :=
  fun _ ↦ Triple.fault fun _ ↦ trivial

/-- Expressions are read as phrases, and operands as operands, whatever room is left. -/
theorem recognizes_expression_unary (query : Query) (room : Nat) :
    (∀ least, Recognizes (expression query room least) Phrase.symbols) ∧
      Recognizes (unary query room) Operand.symbols := by
  induction room with
  | zero =>
    have expressions (least : Nat) : Recognizes (expression query 0 least) Phrase.symbols := by
      rw [expression]
      exact recognizes_fault _ _
    refine ⟨expressions, ?_⟩
    rw [unary_zero]
    exact recognizes_prefixed (recognizes_fault _ _) (recognizes_primary (expressions 0) query)
  | succ room ih =>
    obtain ⟨expressions, operands⟩ := ih
    have longer (least : Nat) : Recognizes (expression query (room + 1) least) Phrase.symbols := by
      rw [expression]
      exact recognizes_climb operands expressions least
    refine ⟨longer, ?_⟩
    rw [unary_succ]
    exact recognizes_prefixed operands (recognizes_primary (longer 0) query)

/-- What has a value is grammatical. -/
theorem triple_evaluateTokens (query : Query) (before : List Symbol) :
    Triple (fun _ ↦ True) before (evaluateTokens query) fun _ _ ↦ Grammatical before := by
  apply Triple.ahead
  split
  · next nothing =>
    rw [Option.isNone_iff_eq_none, List.head?_eq_none_iff] at nothing
    exact Triple.pure (.inl nothing)
  · apply ((recognizes_expression_unary query nestingLimit).1 0 before).bind
    rintro value mid ⟨p, rfl⟩
    apply Triple.ahead
    split
    · next nothing =>
      rw [List.head?_eq_none_iff] at nothing
      rw [nothing, List.append_nil]
      exact Triple.pure (.inr ⟨p, rfl⟩)
    · exact Triple.fault fun _ ↦ trivial

end StoryEngine.Expression
