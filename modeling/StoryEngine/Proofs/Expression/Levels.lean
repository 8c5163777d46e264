import StoryEngine.Proofs.Expression.Grammar

/-!
# Levels

How deep a phrase is nested by its shape alone, without its length: brackets, calls and operators
before an operand count, and neither the number of operands nor that of arguments does. The nesting
is at most seven times the levels, as the connectives that wait for their right operands bind more
and more tightly, and there are six strengths of them.
-/

namespace StoryEngine.Expression

mutual

/-- One level more than the deepest operand has. A chain of literals, names and empty calls is flat,
with one level, and a call with flat arguments has two. -/
def Phrase.levels : Phrase → Nat
  | .mk first rest => max first.levels rest.levels + 1

/-- The levels of the deepest operand of a chain. -/
def Chain.levels : Chain → Nat
  | .nil => 0
  | .cons _ operand rest => max operand.levels rest.levels

/-- The levels of an operand; each operator before it adds one. -/
def Operand.levels : Operand → Nat
  | .number _ | .text _ | .name _ | .emptyCall _ => 0
  | .not operand | .negate operand => operand.levels + 1
  | .brackets inner => inner.levels
  | .call _ args => args.levels

/-- The levels of the deepest argument. -/
def Arguments.levels : Arguments → Nat
  | .last phrase => phrase.levels
  | .cons phrase rest => max phrase.levels rest.levels

end

/-- Strengths of connectives that wait, the last of them first: each binds more tightly than those
before it. -/
structure Waiting (waiting : List Nat) : Prop where
  descending : waiting.Pairwise (· > ·)
  positive : ∀ p ∈ waiting, 0 < p

/-- Descending positive numbers are at most as many as the largest may be. -/
private theorem Waiting.length_le {waiting : List Nat} (h : Waiting waiting) {most : Nat}
    (within : ∀ p ∈ waiting, p ≤ most) : waiting.length ≤ most := by
  obtain ⟨descending, positive⟩ := h
  induction waiting generalizing most with
  | nil => exact Nat.zero_le _
  | cons p waiting ih =>
    obtain ⟨below, descending⟩ := List.pairwise_cons.1 descending
    obtain ⟨positive, others⟩ := List.forall_mem_cons.1 positive
    have shorter := ih (fun q member ↦ Nat.le_sub_one_of_lt (below q member)) descending others
    have := (List.forall_mem_cons.1 within).1
    rw [List.length_cons]
    omega

/-- What waits after a connective of strength `p` besides it binds less tightly than it. -/
private theorem Waiting.lt_of_mem_dropWhile {waiting : List Nat} (h : waiting.Pairwise (· > ·))
    {p q : Nat}
    (member : q ∈ waiting.dropWhile (p ≤ ·)) : q < p := by
  induction waiting with
  | nil => cases member
  | cons r waiting ih =>
    obtain ⟨below, descending⟩ := List.pairwise_cons.1 h
    by_cases tight : p ≤ r
    · rw [List.dropWhile_cons_of_pos (by simpa using tight)] at member
      exact ih descending member
    · rw [List.dropWhile_cons_of_neg (by simpa using tight)] at member
      have loose := Nat.lt_of_not_le tight
      rcases List.mem_cons.1 member with rfl | member
      · exact loose
      · exact Nat.lt_trans (below q member) loose

private theorem Waiting.awaiting {waiting : List Nat} (h : Waiting waiting) {p : Nat}
    (positive : 0 < p) :
    Waiting (awaiting p waiting) := by
  have others := List.dropWhile_sublist (p ≤ ·) (l := waiting)
  constructor
  · refine List.pairwise_cons.2 ⟨fun q member ↦ ?_, h.descending.sublist others⟩
    exact lt_of_mem_dropWhile h.descending member
  · exact List.forall_mem_cons.2 ⟨positive, fun q member ↦ h.positive q (others.subset member)⟩

/-- The strengths of connectives. -/
private theorem Connective.precedence_mem (op : Connective) :
    0 < op.1.precedence ∧ op.1.precedence ≤ 6 := by
  obtain ⟨op, binary⟩ := op
  cases op with
  | not => exact absurd rfl binary
  | _ => simp [Operator.precedence]

mutual

/-- A phrase nests at most seven constructs for each of its levels. -/
theorem Phrase.nesting_le : (p : Phrase) → p.nesting ≤ 7 * p.levels
  | .mk first rest => by
    have := first.nesting_le
    have := rest.nesting_le [] ⟨.nil, nofun⟩ nofun
    simp only [Phrase.nesting, Phrase.levels]
    omega

private theorem Chain.nesting_le : (chain : Chain) → (waiting : List Nat) → Waiting waiting →
    (∀ p ∈ waiting, p ≤ 6) → chain.nesting waiting ≤ 7 * chain.levels + 6
  | .nil, _, _, _ => Nat.zero_le _
  | .cons op operand rest, waiting, h, within => by
    obtain ⟨positive, loosest⟩ := op.precedence_mem
    have h := h.awaiting positive
    have within : ∀ p ∈ awaiting op.1.precedence waiting, p ≤ 6 :=
      List.forall_mem_cons.2 ⟨loosest, fun p member ↦
        within p ((List.dropWhile_sublist _).subset member)⟩
    have := h.length_le within
    have := operand.nesting_le
    have := rest.nesting_le _ h within
    simp only [Chain.nesting, Chain.levels]
    omega

private theorem Operand.nesting_le : (o : Operand) → o.nesting ≤ 7 * o.levels
  | .number _ | .text _ | .name _ | .emptyCall _ => Nat.zero_le _
  | .not operand | .negate operand => by
    have := operand.nesting_le
    simp only [Operand.nesting, Operand.levels]
    omega
  | .brackets inner => inner.nesting_le
  | .call _ args => args.nesting_le

private theorem Arguments.nesting_le : (args : Arguments) → args.nesting ≤ 7 * args.levels
  | .last phrase => phrase.nesting_le
  | .cons phrase rest => by
    have := phrase.nesting_le
    have := rest.nesting_le
    simp only [Arguments.nesting, Arguments.levels]
    omega

end

/-- The call `max(a + b, c)` has the two levels of the whole and of its arguments. -/
example : Phrase.levels (.mk (.call "max" (.cons (.mk (.name "a") (.cons ⟨.add, by decide⟩
    (.name "b") .nil)) (.last (.mk (.name "c") .nil)))) .nil) = 2 := rfl

end StoryEngine.Expression
