import StoryEngine.Proofs.Expression.Longest

/-!
# Splitting a source into the longest tokens

When a source is made of the longest tokens and the white space between them. The lexer splits a
source in that way and in no other, and where it fails no token starts.

Specification: `SPEC_FULL.md` §4.1 (token rules).
-/

namespace StoryEngine.Expression

/-! ### Lengths -/

/-- The widths of texts add up. -/
theorem width_append (first second : List Char) :
    width (first ++ second) = width first + width second := by
  induction first with
  | nil => exact (Nat.zero_add _).symm
  | cons c rest ih =>
    show c.utf8Size + width (rest ++ second) = c.utf8Size + width rest + width second
    rw [ih, Nat.add_assoc]

/-- A text that is not empty has a width. -/
theorem width_pos {text : List Char} (h : text ≠ []) : 0 < width text := by
  cases text with
  | nil => exact absurd rfl h
  | cons c rest => exact Nat.lt_of_lt_of_le c.utf8Size_pos (Nat.le_add_right _ _)

/-- The width of a text is its size in bytes. -/
theorem width_eq_utf8ByteSize (text : List Char) :
    width text = (String.ofList text).utf8ByteSize := by
  induction text with
  | nil => rfl
  | cons c rest ih =>
    rw [String.ofList_cons, String.utf8ByteSize_append, String.utf8ByteSize_singleton, ← ih]
    rfl

/-- Of two ways to split a text the one that comes first is told by its length in bytes. -/
theorem exists_append_of_width_le {first after other rest : List Char}
    (same : first ++ after = other ++ rest) (le : width first ≤ width other) :
    ∃ between, other = first ++ between ∧ after = between ++ rest := by
  rcases List.append_eq_append_iff.1 same with ⟨between, split, tail⟩ | ⟨between, split, tail⟩
  · exact ⟨between, split, tail⟩
  · have nil : between = [] := by
      apply Classical.byContradiction
      intro some
      have pos := width_pos some
      rw [split, width_append] at le
      omega
    refine ⟨[], ?_, ?_⟩
    · rw [split, nil, List.append_nil, List.append_nil]
    · rw [tail, nil]
      rfl

/-! ### Slices -/

/-- A token with the byte offset at which its characters start. -/
structure Slice where
  position : Nat
  lexeme : Lexeme

namespace Slice

/-- The byte offset at which what comes after the slice starts. -/
def stop (s : Slice) : Nat :=
  s.position + width s.lexeme.text

/-- The token without its characters. -/
def token (s : Slice) : Token :=
  ⟨s.lexeme.symbol, s.position⟩

/-- The slice is what a source has between two of its characters' boundaries. -/
def LiesIn (s : Slice) (source : String) : Prop :=
  ∃ before after : String, source = before ++ String.ofList s.lexeme.text ++ after ∧
    before.utf8ByteSize = s.position

end Slice

/-- A text that starts at the byte offset `start` and has `ahead` after it is made of slices: each
is the longest token at its place, none is empty or overlaps another, and a character that none of
them covers is white space. -/
structure Munched (start : Nat) (text ahead : List Char) (slices : List Slice) : Prop where
  longest : ∀ s ∈ slices, ∃ before after, text = before ++ s.lexeme.text ++ after ∧
    s.position = start + width before ∧ s.lexeme.LongestIn (s.lexeme.text ++ after ++ ahead)
  filled : ∀ s ∈ slices, s.position < s.stop
  apart : slices.Pairwise fun s t ↦ s.stop ≤ t.position
  covered : ∀ before c after, text = before ++ c :: after → isSpace c = false →
    ∃ s ∈ slices, s.position ≤ start + width before ∧ start + width before < s.stop

namespace Munched

variable {start : Nat} {text ahead : List Char} {slices : List Slice}

/-- Nothing is made of no slices. -/
theorem nil (start : Nat) (ahead : List Char) : Munched start [] ahead [] := by
  constructor
  · intro s member
    cases member
  · intro s member
    cases member
  · exact .nil
  · intro before c after split
    simp at split

/-- White space in front. -/
theorem space {c : Char} (space : isSpace c = true)
    (munched : Munched (start + c.utf8Size) text ahead slices) :
    Munched start (c :: text) ahead slices := by
  refine ⟨?_, munched.filled, munched.apart, ?_⟩
  · intro s member
    obtain ⟨before, after, split, position, longest⟩ := munched.longest s member
    refine ⟨c :: before, after, by rw [split]; rfl, ?_, longest⟩
    rw [position, Nat.add_assoc]
    rfl
  · intro before d after split visible
    cases before with
    | nil =>
      obtain ⟨rfl, -⟩ := List.cons.inj split
      rw [space] at visible
      cases visible
    | cons e before =>
      obtain ⟨rfl, rest⟩ := List.cons.inj split
      obtain ⟨s, member, covers⟩ := munched.covered before d after rest visible
      rw [Nat.add_assoc] at covers
      exact ⟨s, member, covers⟩

/-- A token in front. -/
theorem cons {l : Lexeme} (longest : l.LongestIn (l.text ++ text ++ ahead))
    (munched : Munched (start + width l.text) text ahead slices) :
    Munched start (l.text ++ text) ahead (⟨start, l⟩ :: slices) := by
  have pos := width_pos longest.isToken.text_ne_nil
  constructor
  · intro s member
    rcases List.mem_cons.1 member with rfl | member
    · exact ⟨[], text, rfl, rfl, longest⟩
    · obtain ⟨before, after, split, position, longest⟩ := munched.longest s member
      refine ⟨l.text ++ before, after, by simp [split], ?_, longest⟩
      rw [position, width_append, Nat.add_assoc]
  · intro s member
    rcases List.mem_cons.1 member with rfl | member
    · exact Nat.lt_add_of_pos_right pos
    · exact munched.filled s member
  · refine List.pairwise_cons.2 ⟨?_, munched.apart⟩
    intro s member
    obtain ⟨before, after, -, position, -⟩ := munched.longest s member
    rw [position]
    exact Nat.le_add_right _ _
  · intro before c after split visible
    by_cases within : width before < width l.text
    · exact ⟨_, List.mem_cons_self, Nat.le_add_right _ _, Nat.add_lt_add_left within start⟩
    · obtain ⟨between, rfl, rest⟩ := exists_append_of_width_le split (Nat.le_of_not_lt within)
      obtain ⟨s, member, covers⟩ := munched.covered between c after rest visible
      rw [width_append, ← Nat.add_assoc]
      exact ⟨s, List.mem_cons_of_mem _ member, covers⟩

/-- Nothing is made of no slices only. -/
private theorem eq_nil (munched : Munched start [] ahead slices) : slices = [] := by
  cases slices with
  | nil => rfl
  | cons s rest =>
    obtain ⟨before, after, split, -, longest⟩ := munched.longest s List.mem_cons_self
    have empty := (List.append_eq_nil_iff.1 (List.append_eq_nil_iff.1 split.symm).1).2
    exact absurd empty longest.isToken.text_ne_nil

/-- White space in front belongs to no slice. -/
theorem of_space {c : Char} (space : isSpace c = true)
    (munched : Munched start (c :: text) ahead slices) :
    Munched (start + c.utf8Size) text ahead slices := by
  refine ⟨?_, munched.filled, munched.apart, ?_⟩
  · intro s member
    obtain ⟨before, after, split, position, longest⟩ := munched.longest s member
    cases before with
    | nil =>
      obtain ⟨first, more, written, visible⟩ := longest.isToken.separable.starts
      rw [written] at split
      obtain ⟨rfl, -⟩ := List.cons.inj split
      rw [space] at visible
      cases visible
    | cons d before =>
      obtain ⟨rfl, rest⟩ := List.cons.inj split
      refine ⟨before, after, rest, ?_, longest⟩
      rw [position, Nat.add_assoc]
      rfl
  · intro before d after split visible
    obtain ⟨s, member, covers⟩ := munched.covered (c :: before) d after (by rw [split]; rfl) visible
    rw [Nat.add_assoc]
    exact ⟨s, member, covers⟩

/-- What is after a token in front. -/
private theorem of_cons {l : Lexeme}
    (munched : Munched start (l.text ++ text) ahead (⟨start, l⟩ :: slices)) :
    Munched (start + width l.text) text ahead slices := by
  obtain ⟨after_first, apart⟩ := List.pairwise_cons.1 munched.apart
  constructor
  · intro s member
    obtain ⟨before, later, split, position, longest⟩ :=
      munched.longest s (List.mem_cons_of_mem _ member)
    have le : start + width l.text ≤ s.position := after_first s member
    rw [position] at le
    rw [List.append_assoc] at split
    obtain ⟨between, rfl, rest⟩ := exists_append_of_width_le split (Nat.le_of_add_le_add_left le)
    refine ⟨between, later, by rw [rest, List.append_assoc], ?_, longest⟩
    rw [position, width_append, Nat.add_assoc]
  · exact fun s member ↦ munched.filled s (List.mem_cons_of_mem _ member)
  · exact apart
  · intro before c later split visible
    obtain ⟨s, member, covers⟩ :=
      munched.covered (l.text ++ before) c later (by rw [split, List.append_assoc]) visible
    rw [width_append, ← Nat.add_assoc] at covers
    rcases List.mem_cons.1 member with rfl | member
    · have : start + width l.text + width before < start + width l.text := covers.2
      omega
    · exact ⟨s, member, covers⟩

/-- A slice that starts where the text does is the first: one before it would be empty. -/
private theorem eq_cons {s : Slice} (munched : Munched start text ahead slices)
    (member : s ∈ slices)
    (here : s.position = start) : ∃ others, slices = s :: others := by
  cases slices with
  | nil => cases member
  | cons first others =>
    rcases List.mem_cons.1 member with rfl | member
    · exact ⟨others, rfl⟩
    · obtain ⟨_, _, -, position, -⟩ := munched.longest first List.mem_cons_self
      have filled := munched.filled first List.mem_cons_self
      have := (List.pairwise_cons.1 munched.apart).1 s member
      omega

/-- Any other character in front starts the first slice. -/
theorem exists_cons {c : Char} (visible : isSpace c = false)
    (munched : Munched start (c :: text) ahead slices) :
    ∃ l rest others, c :: text = l.text ++ rest ∧ slices = ⟨start, l⟩ :: others ∧
      l.LongestIn (c :: text ++ ahead) ∧ Munched (start + width l.text) rest ahead others := by
  obtain ⟨s, member, le, -⟩ := munched.covered [] c text rfl visible
  obtain ⟨before, after, split, position, longest⟩ := munched.longest s member
  have before_nil : before = [] := by
    apply Classical.byContradiction
    intro some
    have := width_pos some
    have le : s.position ≤ start := le
    omega
  subst before_nil
  rw [List.nil_append] at split
  rw [← split] at longest
  obtain ⟨others, rfl⟩ := munched.eq_cons member position
  obtain ⟨place, l⟩ := s
  obtain rfl : start = place := position.symm
  rw [split] at munched
  exact ⟨l, after, others, split, rfl, longest, munched.of_cons⟩

/-- What comes after the text only matters for how far its tokens might go on. -/
theorem alone (munched : Munched start text ahead slices) : Munched start text [] slices := by
  refine ⟨?_, munched.filled, munched.apart, munched.covered⟩
  intro s member
  obtain ⟨before, after, split, position, longest⟩ := munched.longest s member
  refine ⟨before, after, split, position, ?_⟩
  rw [List.append_nil]
  exact longest.of_append (List.prefix_append _ _)

/-- Each slice starts after the one before it. -/
theorem increasing (munched : Munched start text ahead slices) :
    (slices.map Slice.token).Pairwise fun a b ↦ a.position < b.position := by
  rw [List.pairwise_map]
  refine munched.apart.imp_of_mem ?_
  intro s t member _ le
  exact Nat.lt_of_lt_of_le (munched.filled s member) le

/-- Slices lie between the boundaries of characters. -/
theorem liesIn {source : String} (munched : Munched 0 text ahead slices)
    (split : source.toList = text ++ ahead) : ∀ s ∈ slices, s.LiesIn source := by
  intro s member
  obtain ⟨before, after, within, position, -⟩ := munched.longest s member
  refine ⟨.ofList before, .ofList (after ++ ahead), ?_, ?_⟩
  · rw [← String.ofList_append, ← String.ofList_append, ← String.ofList_toList (s := source), split,
      within, List.append_assoc]
  · rw [position, Nat.zero_add, width_eq_utf8ByteSize]

/-- The tokens that are read are those of the slices, and then those ahead. -/
theorem tokensFrom_append {start : Nat} {text : List Char} {slices : List Slice}
    (munched : Munched start text ahead slices) :
    tokensFrom start (text ++ ahead) =
      (tokensFrom (start + width text) ahead).map (slices.map Slice.token ++ ·) := by
  match text, munched with
  | [], munched =>
    rw [munched.eq_nil]
    show tokensFrom start ahead = (tokensFrom start ahead).map id
    rw [Except.map_id]
    rfl
  | c :: text, munched =>
    cases space : isSpace c with
    | true =>
      rw [List.cons_append, tokensFrom_space _ _ space, (munched.of_space space).tokensFrom_append,
        Nat.add_assoc]
      rfl
    | false =>
      obtain ⟨l, rest, others, split, rfl, longest, munched⟩ := munched.exists_cons space
      have shorter : rest.length < text.length + 1 := by
        have := List.length_pos_iff.2 longest.isToken.text_ne_nil
        rw [← List.length_cons, split, List.length_append]
        omega
      rw [List.cons_append] at longest
      have read := tokensFrom_lexeme start space (scan?_eq_some_iff.2 longest)
      have after : (c :: (text ++ ahead)).drop l.text.length = rest ++ ahead := by
        rw [← List.cons_append, split, List.append_assoc, List.drop_left]
      rw [List.cons_append, read, after, munched.tokensFrom_append, split, width_append,
        Nat.add_assoc]
      cases tokensFrom (start + (width l.text + width rest)) ahead <;> rfl
termination_by text.length

end Munched

/-! ### Reading a whole source -/

/-- The lexer fails where no token starts, with the character and its offset. -/
theorem tokensFrom_stuck {c : Char} {ahead : List Char} (start : Nat)
    (visible : isSpace c = false) (stuck : Stuck (c :: ahead)) :
    tokensFrom start (c :: ahead) = .error (.badCharacter c start) := by
  have none := scan?_eq_none_iff.2 stuck
  rw [tokensFrom, if_neg (by simp [visible])]
  split
  · rfl
  · next l some =>
    rw [none] at some
    cases some

/-- Every source is made of slices up to its end or to a character that starts no token. -/
theorem exists_munched (start : Nat) (source : List Char) :
    ∃ text ahead slices, source = text ++ ahead ∧ Munched start text ahead slices ∧
      (∀ c ∈ ahead.head?, isSpace c = false) ∧ Stuck ahead := by
  match source with
  | [] => exact ⟨[], [], [], rfl, .nil _ _, by simp, stuck_nil⟩
  | c :: rest =>
    cases space : isSpace c with
    | true =>
      obtain ⟨text, ahead, slices, rfl, munched, others⟩ :=
        exists_munched (start + c.utf8Size) rest
      exact ⟨c :: text, ahead, slices, rfl, munched.space space, others⟩
    | false =>
      cases read : scan? (c :: rest) with
      | none =>
        refine ⟨[], c :: rest, [], rfl, .nil _ _, ?_, scan?_eq_none_iff.1 read⟩
        intro d first
        cases first
        exact space
      | some l =>
        have longest := scan?_eq_some_iff.1 read
        obtain ⟨after, split⟩ := longest.starts
        have shorter : after.length < rest.length + 1 := by
          have := List.length_pos_iff.2 longest.isToken.text_ne_nil
          rw [← List.length_cons, ← split, List.length_append]
          omega
        obtain ⟨text, ahead, slices, rfl, munched, others⟩ :=
          exists_munched (start + width l.text) after
        rw [← split, ← List.append_assoc] at longest
        refine ⟨l.text ++ text, ahead, _, ?_, munched.cons longest, others⟩
        rw [← split, List.append_assoc]
termination_by source.length

/-- The tokens of a source break off after `before`, at a character that is no white space and that
starts no token; if it is a quote, no such quote comes after it. -/
structure BreaksOff (source before : String) (c : Char) (slices : List Slice) : Prop where
  splits : ∃ ahead, source.toList = before.toList ++ c :: ahead ∧ Stuck (c :: ahead) ∧
    (isQuote c = true → c ∉ ahead) ∧ Munched 0 before.toList (c :: ahead) slices
  visible : isSpace c = false

/-- A source whose beginning is made of slices has their tokens first. -/
theorem lex_of_munched {source : String} {text ahead : List Char} {slices : List Slice}
    (split : source.toList = text ++ ahead) (munched : Munched 0 text ahead slices) :
    lex source = (tokensFrom (width text) ahead).map fun tokens ↦
      ⟨slices.map Slice.token ++ tokens, source.utf8ByteSize⟩ := by
  have size : width source.toList = source.utf8ByteSize := by
    rw [width_eq_utf8ByteSize, String.ofList_toList]
  rw [lex, size, split, munched.tokensFrom_append, Nat.zero_add]
  cases tokensFrom (width text) ahead <;> rfl

/-- A source that is made of slices has just their tokens. -/
theorem lex_eq_ok {source : String} {slices : List Slice}
    (munched : Munched 0 source.toList [] slices) :
    lex source = .ok ⟨slices.map Slice.token, source.utf8ByteSize⟩ := by
  rw [lex_of_munched (List.append_nil _).symm munched, tokensFrom_nil, Except.map,
    List.append_nil]

/-- A source that breaks off fails with the character at which it does. -/
theorem BreaksOff.lex_eq_error {source before : String} {c : Char} {slices : List Slice}
    (breaks : BreaksOff source before c slices) :
    lex source = .error (.badCharacter c before.utf8ByteSize) := by
  obtain ⟨⟨ahead, split, stuck, -, munched⟩, visible⟩ := breaks
  rw [lex_of_munched split munched, tokensFrom_stuck _ visible stuck, width_eq_utf8ByteSize,
    String.ofList_toList]
  rfl

/-- One of the two is the case. -/
theorem munched_or_breaksOff (source : String) :
    (∃ slices, Munched 0 source.toList [] slices) ∨
      ∃ before c slices, BreaksOff source before c slices := by
  obtain ⟨text, ahead, slices, split, munched, visible, stuck⟩ := exists_munched 0 source.toList
  cases ahead with
  | nil =>
    rw [List.append_nil] at split
    exact .inl ⟨slices, split ▸ munched⟩
  | cons c ahead =>
    refine .inr ⟨.ofList text, c, slices, ⟨ahead, ?_, stuck, stuck.notMem, ?_⟩, visible c rfl⟩
    · rw [split, String.toList_ofList]
    · rw [String.toList_ofList]
      exact munched

/-- A source has tokens exactly where the longest tokens and the white space between them make it
up: these are then its tokens, at increasing offsets, and they end at its length. It has none
exactly where they break off: the failure then names the character at which they do and its offset,
and what is before it has the tokens read so far. No number is refused. -/
theorem lex_munches (source : String) :
    (∀ stream, lex source = .ok stream ↔
      ∃ slices, Munched 0 source.toList [] slices ∧ (∀ s ∈ slices, s.LiesIn source) ∧
        stream = ⟨slices.map Slice.token, source.utf8ByteSize⟩ ∧
        stream.tokens.Pairwise fun a b ↦ a.position < b.position) ∧
    (∀ failure, lex source = .error failure ↔
      ∃ before c slices, BreaksOff source before c slices ∧ (∀ s ∈ slices, s.LiesIn source) ∧
        failure = .badCharacter c before.utf8ByteSize ∧
        lex before = .ok ⟨slices.map Slice.token, before.utf8ByteSize⟩) ∧
    ∀ l : Lexeme, l.IsToken → ∀ x, l.symbol = .number x →
      Number.ofNumeral? l.text = some x := by
  refine ⟨fun stream ↦ ?_, fun failure ↦ ?_, fun l token x ↦ token.ofNumeral?⟩
  · constructor
    · intro read
      rcases munched_or_breaksOff source with ⟨slices, munched⟩ | ⟨before, c, slices, breaks⟩
      · rw [lex_eq_ok munched] at read
        cases read
        exact ⟨slices, munched, munched.liesIn (List.append_nil _).symm, rfl, munched.increasing⟩
      · rw [breaks.lex_eq_error] at read
        cases read
    · rintro ⟨slices, munched, -, rfl, -⟩
      exact lex_eq_ok munched
  · constructor
    · intro read
      rcases munched_or_breaksOff source with ⟨slices, munched⟩ | ⟨before, c, slices, breaks⟩
      · rw [lex_eq_ok munched] at read
        cases read
      · rw [breaks.lex_eq_error] at read
        cases read
        obtain ⟨ahead, split, -, -, munched⟩ := breaks.splits
        exact ⟨before, c, slices, breaks, munched.liesIn split, rfl, lex_eq_ok munched.alone⟩
    · rintro ⟨before, c, slices, breaks, -, rfl, -⟩
      exact breaks.lex_eq_error

end StoryEngine.Expression
