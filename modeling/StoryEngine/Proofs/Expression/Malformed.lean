import StoryEngine.Proofs.Expression.Grammar

/-!
# Malformed sources

Shapes that no phrase has: brackets that do not match, operands that are missing, and operands
side by side. All of them show in what may come next at a place, which the symbols before it tell.
-/

namespace StoryEngine.Expression

namespace Symbol

/-- The symbols with which an operand can start. -/
def startsOperand : Symbol → Bool
  | number _ | text _ | name _ | leftParen | operator .not | operator .sub => true
  | _ => false

/-- The symbols with which an operand can end. -/
def endsOperand : Symbol → Bool
  | number _ | text _ | name _ | rightParen => true
  | _ => false

end Symbol

/-- Symbols that are no phrase. -/
inductive Malformed : List Symbol → Prop
  /-- As many brackets are not closed as opened. -/
  | unbalanced {symbols : List Symbol}
      (h : symbols.count .leftParen ≠ symbols.count .rightParen) : Malformed symbols
  /-- A bracket is closed that was not opened. -/
  | extraClosing {before : List Symbol} (after : List Symbol)
      (h : before.count .leftParen < before.count .rightParen) : Malformed (before ++ after)
  /-- The first operand is missing. -/
  | missingFirst {s : Symbol} (after : List Symbol) (h : s.startsOperand = false) :
      Malformed (s :: after)
  /-- The last operand is missing. -/
  | missingLast (before : List Symbol) {s : Symbol} (h : s.endsOperand = false) :
      Malformed (before ++ [s])
  /-- An operand is missing after an operator, a comma or an opening bracket. -/
  | missing (before : List Symbol) {s t : Symbol} (after : List Symbol)
      (first : s.endsOperand = false) (second : t.startsOperand = false)
      (other : ¬ (s = .leftParen ∧ t = .rightParen)) : Malformed (before ++ s :: t :: after)
  /-- Nothing is in brackets that are not those of a call. -/
  | emptyBrackets {before : List Symbol} (after : List Symbol)
      (h : ∀ name, before.getLast? ≠ some (.name name)) :
      Malformed (before ++ .leftParen :: .rightParen :: after)
  /-- Operands are side by side, or an operator that stands before one operand is after another. -/
  | adjacent (before : List Symbol) {s t : Symbol} (after : List Symbol)
      (first : s.endsOperand = true) (second : t.startsOperand = true)
      (minus : t ≠ .operator .sub) (call : ∀ name, ¬ (s = .name name ∧ t = .leftParen)) :
      Malformed (before ++ s :: t :: after)

private theorem Malformed.ne_nil {symbols : List Symbol} (h : Malformed symbols) :
    symbols ≠ [] := by
  cases h with
  | unbalanced h =>
    rintro rfl
    exact h rfl
  | extraClosing after h =>
    intro nil
    rw [(List.append_eq_nil_iff.1 nil).1] at h
    exact absurd h (by simp)
  | _ => simp

/-! ### Brackets -/

/-- Every bracket that is opened is closed, and none is closed before. -/
structure Balanced (symbols : List Symbol) : Prop where
  count : symbols.count .leftParen = symbols.count .rightParen
  starts : ∀ before, before <+: symbols → before.count .rightParen ≤ before.count .leftParen

namespace Balanced

variable {symbols more : List Symbol}

private theorem nil : Balanced [] := by
  refine ⟨rfl, fun before starts ↦ ?_⟩
  rw [List.prefix_nil.1 starts]
  exact Nat.le_refl _

private theorem append (first : Balanced symbols) (second : Balanced more) :
    Balanced (symbols ++ more) := by
  constructor
  · rw [List.count_append, List.count_append, first.count, second.count]
  · rintro before ⟨after, split⟩
    rcases List.append_eq_append_iff.1 split with ⟨rest, within, -⟩ | ⟨rest, beyond, within⟩
    · exact first.starts before ⟨rest, within.symm⟩
    · rw [beyond, List.count_append, List.count_append, first.count]
      exact Nat.add_le_add_left (second.starts rest ⟨after, within.symm⟩) _

/-- A symbol other than a bracket. -/
private theorem cons {s : Symbol} (left : s ≠ .leftParen) (right : s ≠ .rightParen)
    (h : Balanced symbols) : Balanced (s :: symbols) := by
  constructor
  · rw [List.count_cons_of_ne left, List.count_cons_of_ne right, h.count]
  · intro before starts
    cases before with
    | nil => exact Nat.le_refl _
    | cons t before =>
      obtain ⟨same, within⟩ := List.cons_prefix_cons.1 starts
      rw [same, List.count_cons_of_ne left, List.count_cons_of_ne right]
      exact h.starts before within

private theorem brackets (h : Balanced symbols) :
    Balanced (.leftParen :: (symbols ++ [.rightParen])) := by
  constructor
  · simp [h.count]
  · intro before starts
    cases before with
    | nil => exact Nat.le_refl _
    | cons t before =>
      obtain ⟨same, within⟩ := List.cons_prefix_cons.1 starts
      rw [same]
      rcases List.prefix_concat_iff.1 within with whole | within
      · rw [whole]
        simp [h.count]
      · have := h.starts before within
        simp
        omega

end Balanced

mutual

private theorem Phrase.balanced : (p : Phrase) → Balanced p.symbols
  | .mk first chain => first.balanced.append chain.balanced

private theorem Chain.balanced : (chain : Chain) → Balanced chain.symbols
  | .nil => .nil
  | .cons _ operand chain => .cons nofun nofun (operand.balanced.append chain.balanced)

private theorem Operand.balanced : (o : Operand) → Balanced o.symbols
  | .number _ | .text _ | .name _ => .cons nofun nofun .nil
  | .not operand | .negate operand => .cons nofun nofun operand.balanced
  | .brackets inner => .brackets inner.balanced
  | .emptyCall _ => .cons nofun nofun (.brackets .nil)
  | .call _ args => .cons nofun nofun (.brackets args.balanced)

private theorem Arguments.balanced : (args : Arguments) → Balanced args.symbols
  | .last phrase => phrase.balanced
  | .cons phrase args => phrase.balanced.append (.cons nofun nofun args.balanced)

end

/-! ### Neighbours -/

/-- What may come at a place: an operand, an operand or the end of a call, what comes after an
operand, or this or the opening bracket of a call. -/
inductive Expected where
  | operand
  | argument
  | sequel
  | opening
deriving DecidableEq

namespace Expected

/-- Whether an operand may come. -/
def isOperand : Expected → Bool
  | operand | argument => true
  | sequel | opening => false

/-- Whether a symbol may come. -/
def admits (e : Expected) : Symbol → Bool
  | .number _ | .text _ | .name _ => e.isOperand
  | .operator op => op == .sub || e.isOperand == (op == .not)
  | .leftParen => e != sequel
  | .rightParen => e != operand
  | .comma => !e.isOperand

/-- What may come after a symbol. -/
def after (e : Expected) : Symbol → Expected
  | .number _ | .text _ | .rightParen => sequel
  | .name _ => opening
  | .operator _ | .comma => operand
  | .leftParen => if e == opening then argument else operand

/-- Symbols lead from what may come before them to what may come after them, and each of them may
come where it does. -/
def Leads : Expected → List Symbol → Expected → Prop
  | e, [], e' => e = e'
  | e, s :: rest, e' => e.admits s = true ∧ (e.after s).Leads rest e'

variable {e e' : Expected} {s : Symbol} {symbols : List Symbol}

private theorem leads_append {more : List Symbol} :
    e.Leads (symbols ++ more) e' ↔ ∃ mid : Expected, e.Leads symbols mid ∧ mid.Leads more e' := by
  induction symbols generalizing e with
  | nil => exact ⟨fun h ↦ ⟨e, rfl, h⟩, fun ⟨mid, same, h⟩ ↦ same ▸ h⟩
  | cons s rest ih =>
    constructor
    · rintro ⟨admits, h⟩
      obtain ⟨mid, first, second⟩ := ih.1 h
      exact ⟨mid, ⟨admits, first⟩, second⟩
    · rintro ⟨mid, ⟨admits, first⟩, second⟩
      exact ⟨admits, ih.2 ⟨mid, first, second⟩⟩

private theorem isOperand_after : (e.after s).isOperand = !s.endsOperand := by
  cases s with
  | leftParen => cases e <;> rfl
  | _ => rfl

/-- Where an operand may come, nothing else may but the end of a call. -/
private theorem starts_of_admits (h : e.admits s = true) (operand : e.isOperand = true) :
    s.startsOperand = true ∨ e = .argument ∧ s = .rightParen := by
  cases s with
  | operator op =>
    cases op <;> simp_all [admits, Symbol.startsOperand]
  | comma => simp [admits, operand] at h
  | rightParen => cases e <;> simp_all [admits, isOperand]
  | _ => exact .inl rfl

/-- Where no operand may come, nothing may that starts one, but a minus sign and the opening
bracket of a call. -/
private theorem not_starts_of_admits (h : e.admits s = true) (sequel : e.isOperand = false) :
    s.startsOperand = false ∨ s = .operator .sub ∨ e = .opening ∧ s = .leftParen := by
  cases s with
  | number | text | name => simp [admits, sequel] at h
  | operator op =>
    cases op <;> simp_all [admits, Symbol.startsOperand]
  | leftParen => cases e <;> simp_all [admits, isOperand]
  | _ => exact .inl rfl

/-- A call may end at once only after its opening bracket. -/
private theorem of_after_argument (h : e.after s = .argument) : s = .leftParen ∧ e = .opening := by
  cases s with
  | leftParen => cases e <;> simp_all [after]
  | _ => cases h

/-- A call may be opened only after a name. -/
private theorem of_after_opening (h : e.after s = .opening) : ∃ name, s = .name name := by
  cases s with
  | name name => exact ⟨name, rfl⟩
  | leftParen => cases e <;> cases h
  | _ => cases h

/-- The last symbol before the opening bracket of a call. -/
private theorem getLast?_of_leads_opening (h : operand.Leads symbols opening) :
    ∃ name, symbols.getLast? = some (.name name) := by
  rcases List.eq_nil_or_concat symbols with rfl | ⟨before, s, rfl⟩
  · cases h
  · rw [List.concat_eq_append] at h ⊢
    obtain ⟨mid, -, -, same⟩ := leads_append.1 h
    obtain ⟨name, rfl⟩ := of_after_opening same
    exact ⟨name, by simp⟩

/-! Neighbours among symbols that lead somewhere: the first tells what the second may be. -/

private theorem starts_of_leads {before rest : List Symbol} {t : Symbol}
    (leads : e.Leads (before ++ s :: t :: rest) e') (ends : s.endsOperand = false) :
    t.startsOperand = true ∨ s = .leftParen ∧ t = .rightParen := by
  obtain ⟨mid, -, -, admits, -⟩ := leads_append.1 leads
  have operand : (mid.after s).isOperand = true := by
    rw [isOperand_after, ends]
    rfl
  rcases starts_of_admits admits operand with starts | ⟨argument, closes⟩
  · exact .inl starts
  · exact .inr ⟨(of_after_argument argument).1, closes⟩

private theorem not_starts_of_leads {before rest : List Symbol} {t : Symbol}
    (leads : e.Leads (before ++ s :: t :: rest) e') (ends : s.endsOperand = true) :
    t.startsOperand = false ∨ t = .operator .sub ∨ ∃ name, s = .name name ∧ t = .leftParen := by
  obtain ⟨mid, -, -, admits, -⟩ := leads_append.1 leads
  have sequel : (mid.after s).isOperand = false := by
    rw [isOperand_after, ends]
    rfl
  rcases not_starts_of_admits admits sequel with starts | minus | ⟨opening, opens⟩
  · exact .inl starts
  · exact .inr (.inl minus)
  · obtain ⟨name, same⟩ := of_after_opening opening
    exact .inr (.inr ⟨name, same, opens⟩)

/-- Brackets with nothing in them come after a name. -/
private theorem getLast?_of_leads_empty {before rest : List Symbol}
    (leads : operand.Leads (before ++ .leftParen :: .rightParen :: rest) e') :
    ∃ name, before.getLast? = some (.name name) := by
  obtain ⟨mid, first, -, admits, -⟩ := leads_append.1 leads
  cases mid with
  | opening => exact getLast?_of_leads_opening first
  | _ => cases admits

/-- Symbols complete an operand. -/
def Completes (e : Expected) (symbols : List Symbol) : Prop :=
  ∃ e' : Expected, e'.isOperand = false ∧ e.Leads symbols e'

/-- What comes after a complete operand may complete another. -/
private theorem Completes.append {more : List Symbol} (first : e.Completes symbols)
    (second : ∀ mid : Expected, mid.isOperand = false → mid.Completes more) :
    e.Completes (symbols ++ more) := by
  obtain ⟨mid, sequel, before⟩ := first
  obtain ⟨e', sequel, after⟩ := second mid sequel
  exact ⟨e', sequel, leads_append.2 ⟨mid, before, after⟩⟩

private theorem Completes.cons (admits : e.admits s = true) (rest : (e.after s).Completes symbols) :
    e.Completes (s :: symbols) := by
  obtain ⟨e', sequel, after⟩ := rest
  exact ⟨e', sequel, admits, after⟩

/-- A closing bracket may come after an operand, and completes another. -/
private theorem Completes.closing (h : e.Completes symbols) :
    e.Completes (symbols ++ [.rightParen]) := by
  apply h.append
  intro mid sequel
  refine .cons ?_ ⟨.sequel, rfl, rfl⟩
  cases mid <;> first | rfl | cases sequel

end Expected

mutual

/-- The symbols of a phrase complete an operand, and so do those of its parts. -/
private theorem Phrase.completes : (p : Phrase) → ∀ e : Expected, e.isOperand = true →
    e.Completes p.symbols
  | .mk first chain, e, h => (first.completes e h).append chain.completes

private theorem Chain.completes : (chain : Chain) → ∀ e : Expected, e.isOperand = false →
    e.Completes chain.symbols
  | .nil, e, h => ⟨e, h, rfl⟩
  | .cons op operand chain, e, h => by
    have binary : (op.1 == .not) = false := by simpa using op.2
    refine .cons ?_ ((operand.completes .operand rfl).append chain.completes)
    simp [Expected.admits, h, binary]

private theorem Operand.completes : (o : Operand) → ∀ e : Expected, e.isOperand = true →
    e.Completes o.symbols
  | .number _, _, h | .text _, _, h => .cons h ⟨.sequel, rfl, rfl⟩
  | .name _, _, h => .cons h ⟨.opening, rfl, rfl⟩
  | .not operand, e, h => .cons (by simp [Expected.admits, h]) (operand.completes .operand rfl)
  | .negate operand, e, h => .cons (by simp [Expected.admits]) (operand.completes .operand rfl)
  | .brackets inner, e, h => by
    refine .cons ?_ (inner.completes _ ?_).closing
    · cases e <;> first | rfl | cases h
    · cases e <;> rfl
  | .emptyCall _, _, h => .cons h (.cons rfl (.cons rfl ⟨.sequel, rfl, rfl⟩))
  | .call _ args, _, h => .cons h (.cons rfl (args.completes .argument rfl).closing)

private theorem Arguments.completes : (args : Arguments) → ∀ e : Expected, e.isOperand = true →
    e.Completes args.symbols
  | .last phrase, e, h => phrase.completes e h
  | .cons phrase args, e, h => by
    refine (phrase.completes e h).append fun mid sequel ↦ ?_
    exact .cons (by simp [Expected.admits, sequel]) (args.completes .operand rfl)

end

/-- Malformed symbols are those of no phrase. -/
private theorem Malformed.not_phrase {p : Phrase} (h : Malformed p.symbols) : False := by
  have balanced := p.balanced
  obtain ⟨e, sequel, leads⟩ := p.completes .operand rfl
  generalize p.symbols = symbols at h balanced leads
  cases h with
  | unbalanced h => exact h balanced.count
  | extraClosing after h =>
    exact absurd (balanced.starts _ (List.prefix_append _ _)) (Nat.not_le_of_lt h)
  | missingFirst after h =>
    rcases Expected.starts_of_admits leads.1 rfl with starts | ⟨impossible, -⟩
    · exact absurd starts (by simp [h])
    · cases impossible
  | missingLast before h =>
    obtain ⟨mid, -, -, same⟩ := Expected.leads_append.1 leads
    rw [← same, Expected.isOperand_after, h] at sequel
    cases sequel
  | missing before after first second other =>
    rcases Expected.starts_of_leads leads first with starts | empty
    · exact absurd starts (by simp [second])
    · exact other empty
  | emptyBrackets after h =>
    obtain ⟨name, last⟩ := Expected.getLast?_of_leads_empty leads
    exact h name last
  | adjacent before after first second minus call =>
    rcases Expected.not_starts_of_leads leads first with starts | same | ⟨name, opens⟩
    · exact absurd second (by simp [starts])
    · exact minus same
    · exact call name opens

/-- Malformed symbols are not grammatical. -/
theorem Malformed.not_grammatical {symbols : List Symbol} (h : Malformed symbols) :
    ¬ Grammatical symbols := by
  rintro (nil | ⟨p, rfl⟩)
  · exact h.ne_nil nil
  · exact h.not_phrase

end StoryEngine.Expression
