import StoryEngine.Proofs.Expression.Tree

/-!
# What steps read

A step of the evaluation compared with a computation that knows no tokens: from the tokens before
to the tokens after, the step does to the draws what the computation does, with the same result.
The comparison goes through every way in which steps are put together, so that a part of an
expression can be compared with the value of a tree.
-/

namespace StoryEngine.Expression

variable {α β : Type}

/-- Where the tokens `before` are ahead, the step `x` does what `y` does and leaves the tokens
`after`. If `y` fails then `x` fails alike, wherever it has got to. -/
def Reads (x : Step α) (y : Drawing α) (before after : List Token) : Prop :=
  ∀ stop draws,
    match y draws with
    | .ok a draws' => x ⟨before, stop, draws⟩ = .ok a ⟨after, stop, draws'⟩
    | .error e draws' => ∃ rest, x ⟨before, stop, draws⟩ = .error e ⟨rest, stop, draws'⟩

namespace Reads

variable {before mid after : List Token}

/-- A result takes no tokens. -/
theorem pure (a : α) (tokens : List Token) : Reads (Pure.pure a) (Pure.pure a) tokens tokens :=
  fun _ _ ↦ rfl

/-- A failure may come at any place. -/
theorem throw (e : Failure) :
    Reads (α := α) (MonadExcept.throw e) (MonadExcept.throw e) before after :=
  fun _ _ ↦ ⟨before, rfl⟩

/-- One step after another reads what the two read. -/
theorem bind {x : Step α} {y : Drawing α} {f : α → Step β} {g : α → Drawing β}
    (first : Reads x y before mid) (second : ∀ a, Reads (f a) (g a) mid after) :
    Reads (x >>= f) (y >>= g) before after := by
  intro stop draws
  have first := first stop draws
  simp only [Bind.bind, EStateM.bind]
  cases made : y draws with
  | ok a draws' =>
    rw [made] at first
    simp only [first]
    exact second a stop draws'
  | error e draws' =>
    rw [made] at first
    obtain ⟨rest, first⟩ := first
    exact ⟨rest, by simp only [first]⟩

/-- A step whose result is known from the tokens ahead. -/
theorem next {x : Step α} {a : α} {f : α → Step β} {y : Drawing β}
    (first : Reads x (Pure.pure a) before mid) (second : Reads (f a) y mid after) :
    Reads (x >>= f) y before after := by
  have both := first.bind (g := fun _ ↦ y) (f := fun _ ↦ f a) fun _ ↦ second
  intro stop draws
  have first : x ⟨before, stop, draws⟩ = .ok a ⟨mid, stop, draws⟩ := first stop draws
  have both := both stop draws
  simp only [Bind.bind, EStateM.bind, Pure.pure, EStateM.pure, first] at both ⊢
  exact both

/-- A function of the result. -/
theorem map {x : Step α} {y : Drawing α} (f : α → β) (h : Reads x y before after) :
    Reads (f <$> x) (y >>= fun a ↦ Pure.pure (f a)) before after := by
  intro stop draws
  have h := h stop draws
  simp only [Functor.map, EStateM.map, Bind.bind, EStateM.bind]
  cases made : y draws with
  | ok a draws' =>
    rw [made] at h
    simp only [h]
    rfl
  | error e draws' =>
    rw [made] at h
    obtain ⟨rest, h⟩ := h
    exact ⟨rest, by simp only [h]⟩

/-- A result that does not depend on the cursor. -/
theorem ofExcept (r : Except Failure α) (tokens : List Token) :
    Reads (Step.ofExcept r) (MonadExcept.ofExcept r) tokens tokens := by
  cases r with
  | ok a => exact pure a tokens
  | error e => exact throw e

/-- A draw takes no tokens. -/
private theorem draw (tokens : List Token) :
    Reads Step.draw (fun draws ↦ .ok draws.next.1 draws.next.2) tokens tokens :=
  fun _ _ ↦ rfl

/-! ### Steps at a token -/

/-- Looking ahead takes no tokens. -/
theorem ahead (t : Token) (rest : List Token) :
    Reads Step.ahead? (Pure.pure (some t.symbol)) (t :: rest) (t :: rest) :=
  fun _ _ ↦ rfl

/-- Asking for the place takes no tokens. -/
theorem position (t : Token) (rest : List Token) :
    Reads Step.position (Pure.pure t.position) (t :: rest) (t :: rest) :=
  fun _ _ ↦ rfl

/-- Reading takes the first token. -/
theorem read (t : Token) (rest : List Token) :
    Reads Step.read? (Pure.pure (some t.symbol)) (t :: rest) rest :=
  fun _ _ ↦ rfl

/-- Counting the tokens that are left takes none. -/
theorem remaining (tokens : List Token) :
    Reads Step.remaining (Pure.pure tokens.length) tokens tokens :=
  fun _ _ ↦ rfl

end Reads

/-! ### Functions -/

/-- A step that does the same whatever tokens are ahead, and takes none. -/
def Blind (x : Step α) : Prop :=
  ∀ tokens, Reads x (Drawing.ofStep x) tokens tokens

/-- What a step does without tokens ahead tells what it does with any. -/
private theorem Blind.of_reads {x : Step α} {y : Drawing α}
    (h : ∀ tokens, Reads x y tokens tokens) :
    Blind x := by
  have same : Drawing.ofStep x = y := by
    funext draws
    have h := h [] 0 draws
    rw [Drawing.ofStep]
    cases made : y draws with
    | ok a draws' =>
      rw [made] at h
      simp only [h]
    | error e draws' =>
      rw [made] at h
      obtain ⟨rest, h⟩ := h
      simp only [h]
  rw [Blind, same]
  exact h

private theorem Blind.bind {x : Step α} {f : α → Step β} (first : Blind x)
    (second : ∀ a, Blind (f a)) :
    Blind (x >>= f) :=
  .of_reads fun tokens ↦ (first tokens).bind fun a ↦ second a tokens

private theorem blind_pure (a : α) : Blind (pure a : Step α) :=
  .of_reads (Reads.pure a)

private theorem blind_draw : Blind Step.draw :=
  .of_reads Reads.draw

/-- Reading an argument as a number needs no tokens. -/
private theorem blind_number? (args : List Value) (index : Nat) :
    Blind (Builtin.number? args index) := by
  unfold Builtin.number?
  split
  · exact .of_reads fun tokens ↦ (Reads.ofExcept _ tokens).map some
  · exact blind_pure none

/-- A function needs no tokens. -/
theorem blind_apply (query : Query) (args : List Value) (f : Builtin) :
    Blind (f.apply query args) := by
  cases f with
  | itemCount | hasStatus | eventOccurred | getAttributeValue => exact blind_pure _
  | randi =>
    exact (blind_number? args 0).bind fun _ ↦ blind_draw.bind fun _ ↦ blind_pure _
  | min | max =>
    exact (blind_number? args 0).bind fun _ ↦ (blind_number? args 1).bind fun _ ↦ blind_pure _
  | floor => exact (blind_number? args 0).bind fun _ ↦ blind_pure _
  | clip =>
    refine (blind_number? args 0).bind fun x ↦ (blind_number? args 1).bind fun low ↦
      (blind_number? args 2).bind fun high ↦ ?_
    split <;> exact blind_pure _

end StoryEngine.Expression
