import StoryEngine.Proofs.Expression.Munch

/-!
# Sources joined by white space

No token that is read before white space goes on after it, except a text, and a text ends at its
quote. So two sources with white space between them have the tokens of both, and the white space
between two tokens may be any.

Specification: `SPEC_FULL.md` §4.1 (white space is insignificant).
-/

namespace StoryEngine.Expression

/-! ### Moved tokens -/

/-- The token moved on by some bytes. -/
def Token.shift (k : Nat) (t : Token) : Token :=
  { t with position := t.position + k }

/-- The failure with its place moved on by some bytes, if it has one. -/
def Failure.shift (k : Nat) : Failure → Failure
  | badCharacter char position => badCharacter char (position + k)
  | badGrammar fault position => badGrammar fault (position + k)
  | unknownOperator operator position => unknownOperator operator (position + k)
  | unknownFunction name position => unknownFunction name (position + k)
  | notANumber text => notANumber text

/-- What is read does not depend on where the source starts, except for the places. -/
theorem tokensFrom_shift (start k : Nat) (source : List Char) :
    tokensFrom (start + k) source =
      ((tokensFrom start source).map (·.map (Token.shift k))).mapError (Failure.shift k) := by
  match source with
  | [] =>
    rw [tokensFrom_nil, tokensFrom_nil]
    rfl
  | c :: rest =>
    cases space : isSpace c with
    | true =>
      rw [tokensFrom_space _ _ space, tokensFrom_space _ _ space, Nat.add_right_comm,
        tokensFrom_shift]
    | false =>
      cases read : scan? (c :: rest) with
      | none =>
        have stuck := scan?_eq_none_iff.1 read
        rw [tokensFrom_stuck _ space stuck, tokensFrom_stuck _ space stuck]
        rfl
      | some l =>
        have shorter : rest.length + 1 - l.text.length < rest.length + 1 := by
          have := List.length_pos_iff.2 (scan?_text_ne_nil read)
          omega
        rw [tokensFrom_lexeme _ space read, tokensFrom_lexeme _ space read, Nat.add_right_comm,
          tokensFrom_shift]
        cases tokensFrom (start + width l.text) ((c :: rest).drop l.text.length) <;> rfl
termination_by source.length

private theorem tokensFrom_of_shift {start k : Nat} {source : List Char} {tokens : List Token}
    (read : tokensFrom (start + k) source = .ok tokens) :
    ∃ unmoved, tokensFrom start source = .ok unmoved ∧ tokens = unmoved.map (Token.shift k) := by
  rw [tokensFrom_shift] at read
  cases here : tokensFrom start source with
  | error failure =>
    rw [here] at read
    cases read
  | ok unmoved =>
    rw [here] at read
    cases read
    exact ⟨unmoved, rfl, rfl⟩

private theorem symbol_shift (k : Nat) (tokens : List Token) :
    (tokens.map (Token.shift k)).map Token.symbol = tokens.map Token.symbol :=
  List.map_map

/-- White space in front is passed over. -/
private theorem tokensFrom_spaces {w : List Char} (space : ∀ c ∈ w, isSpace c = true) (start : Nat)
    (rest : List Char) : tokensFrom start (w ++ rest) = tokensFrom (start + width w) rest := by
  induction w generalizing start with
  | nil => rfl
  | cons c w ih =>
    obtain ⟨first, others⟩ := List.forall_mem_cons.1 space
    rw [List.cons_append, tokensFrom_space _ _ first, ih others, Nat.add_assoc]
    rfl

/-! ### Reading one token before white space -/

section

variable {c : Char} (space : isSpace c = true) (text more : List Char)

private theorem takeWhile_append_cons {p : Char → Bool} (stops : p c = false) :
    (text ++ c :: more).takeWhile p = text.takeWhile p := by
  induction text with
  | nil => simp [stops]
  | cons d text ih => simp only [List.cons_append, List.takeWhile_cons, ih]

private theorem dropWhile_append_cons {p : Char → Bool} (stops : p c = false) :
    (text ++ c :: more).dropWhile p = text.dropWhile p ++ c :: more := by
  induction text with
  | nil => simp [stops]
  | cons d text ih =>
    simp only [List.cons_append, List.dropWhile_cons, ih]
    split
    · rfl
    · rfl

private theorem isPrefixOf_append_cons {spelling : List Char} (outside : c ∉ spelling) :
    spelling.isPrefixOf (text ++ c :: more) = spelling.isPrefixOf text := by
  induction spelling generalizing text with
  | nil => rfl
  | cons d spelling ih =>
    obtain ⟨other, outside⟩ := List.ne_and_not_mem_of_not_mem_cons outside
    cases text with
    | nil => simp [List.isPrefixOf, Ne.symm other]
    | cons e text => simp only [List.cons_append, List.isPrefixOf, ih text outside]

/-- A text ends at its quote, whatever comes after it. -/
private theorem scanText?_append {quote : Char} {rest : List Char} {l : Lexeme}
    (opens : isQuote quote = true) (more : List Char) (read : scanText? quote rest = some l) :
    scanText? quote (rest ++ more) = some l := by
  obtain ⟨q, after, split, rfl⟩ := scanText?_eq_lexeme opens read
  rw [← scan?_of_isQuote opens, ← List.cons_append, split, List.append_assoc, q.scan?_append]

include space

/-- What holds of the five spaces holds of every space. -/
private theorem of_isSpace {p : Char → Bool} (each : [' ', '\t', '\n', '\x0c', '\r'].all p = true) :
    p c = true := by
  apply List.all_eq_true.1 each
  simpa [isSpace, or_assoc] using space

private theorem isDigit_of_isSpace : c.isDigit = false := by
  simpa using of_isSpace space (p := (!·.isDigit)) (by decide)

private theorem continuesName_of_isSpace : continuesName c = false := by
  simpa using of_isSpace space (p := (!continuesName ·)) (by decide)

private theorem ne_point_of_isSpace : c ≠ '.' := by
  rintro rfl
  cases space

private theorem notMem_spelling_of_isSpace (op : Operator) : c ∉ op.spelling := by
  have absent : (!op.spelling.contains c) = true :=
    of_isSpace space (p := (!op.spelling.contains ·)) (by cases op <;> decide)
  simpa using absent

private theorem scanNumber_append_cons : scanNumber (text ++ c :: more) = scanNumber text := by
  have digit := isDigit_of_isSpace space
  unfold scanNumber
  rw [takeWhile_append_cons text more digit, dropWhile_append_cons text more digit]
  rcases text.dropWhile Char.isDigit with _ | ⟨d, rest⟩
  · have point := ne_point_of_isSpace space
    simp [point]
  · by_cases point : d = '.'
    · subst point
      simp only [List.cons_append, takeWhile_append_cons rest more digit]
    · simp [point]

private theorem scanName_append_cons : scanName (text ++ c :: more) = scanName text := by
  unfold scanName
  rw [takeWhile_append_cons text more (continuesName_of_isSpace space)]

private theorem starting?_append_cons :
    Operator.starting? (text ++ c :: more) = Operator.starting? text := by
  unfold Operator.starting?
  congr 1
  funext op
  exact isPrefixOf_append_cons text more (notMem_spelling_of_isSpace space op)

/-- A token that is read before white space is read whatever comes after the white space. -/
theorem scan?_append_cons {l : Lexeme} (read : scan? text = some l) :
    scan? (text ++ c :: more) = some l := by
  cases text with
  | nil => cases read
  | cons d rest =>
    have number := scanNumber_append_cons space (d :: rest) more
    have name := scanName_append_cons space (d :: rest) more
    have operator := starting?_append_cons space (d :: rest) more
    rw [List.cons_append] at number name operator ⊢
    rw [scan?] at read ⊢
    rw [number, name, operator]
    by_cases digit : d.isDigit = true
    · simpa only [if_pos digit] using read
    · rw [if_neg digit] at read ⊢
      by_cases quote : isQuote d = true
      · rw [if_pos quote] at read ⊢
        exact scanText?_append quote (c :: more) read
      · rwa [if_neg quote] at read ⊢

end

namespace Munched

variable {start : Nat} {text ahead : List Char} {slices : List Slice}

/-- White space may come after the longest tokens: none of them goes on into it. -/
private theorem before_space {w more : List Char} (munched : Munched start text [] slices)
    (space : ∀ c ∈ w, isSpace c = true) (some : w ≠ []) :
    Munched start text (w ++ more) slices := by
  obtain ⟨c, w, rfl⟩ := List.exists_cons_of_ne_nil some
  refine ⟨?_, munched.filled, munched.apart, munched.covered⟩
  intro s member
  obtain ⟨before, after, split, position, longest⟩ := munched.longest s member
  refine ⟨before, after, split, position, ?_⟩
  rw [List.append_nil] at longest
  exact scan?_eq_some_iff.1
    (scan?_append_cons (space c List.mem_cons_self) _ _ (scan?_eq_some_iff.2 longest))

/-- White space in front belongs to no slice. -/
private theorem of_spaces {w : List Char} (space : ∀ c ∈ w, isSpace c = true)
    (munched : Munched start (w ++ text) ahead slices) :
    Munched (start + width w) text ahead slices := by
  induction w generalizing start with
  | nil => exact munched
  | cons c w ih =>
    obtain ⟨first, others⟩ := List.forall_mem_cons.1 space
    have rest := ih others (munched.of_space first)
    rw [Nat.add_assoc] at rest
    exact rest

/-- Where no slice reaches over a place, the slices are those before it and those after it. -/
private theorem split {start : Nat} {text rest : List Char} {slices : List Slice}
    (munched : Munched start (text ++ rest) ahead slices)
    (clear : ∀ s ∈ slices, s.stop ≤ start + width text ∨ start + width text ≤ s.position) :
    ∃ firsts seconds, slices = firsts ++ seconds ∧ Munched start text (rest ++ ahead) firsts ∧
      Munched (start + width text) rest ahead seconds := by
  match text with
  | [] => exact ⟨[], slices, rfl, .nil _ _, munched⟩
  | c :: text =>
    rw [List.cons_append] at munched
    cases space : isSpace c with
    | true =>
      have moved : start + width (c :: text) = start + c.utf8Size + width text :=
        (Nat.add_assoc _ _ _).symm
      rw [moved] at clear ⊢
      obtain ⟨firsts, seconds, rfl, before, after⟩ := (munched.of_space space).split clear
      exact ⟨firsts, seconds, rfl, before.space space, after⟩
    | false =>
      obtain ⟨l, rest', others, parts, rfl, longest, tail⟩ := munched.exists_cons space
      obtain ⟨within, clear⟩ := List.forall_mem_cons.1 clear
      have ends : width l.text ≤ width (c :: text) := by
        have pos : 0 < width (c :: text) := width_pos (List.cons_ne_nil c text)
        rcases within with within | within
        · exact Nat.le_of_add_le_add_left within
        · have : start + width (c :: text) ≤ start := within
          omega
      obtain ⟨between, whole, rfl⟩ :=
        exists_append_of_width_le (parts.symm.trans List.cons_append.symm) ends
      have shorter : between.length < text.length + 1 := by
        have := List.length_pos_iff.2 longest.isToken.text_ne_nil
        rw [← List.length_cons, whole, List.length_append]
        omega
      rw [whole, width_append, ← Nat.add_assoc] at clear ⊢
      obtain ⟨firsts, seconds, rfl, before, after⟩ := tail.split clear
      refine ⟨⟨start, l⟩ :: firsts, seconds, rfl, before.cons ?_, after⟩
      rw [← whole]
      simpa using longest
termination_by text.length

end Munched

/-! ### Whole sources -/

/-- The tokens of one source, and then those of another that starts some bytes later. -/
def TokenStream.join (first : TokenStream) (k : Nat) (second : TokenStream) : TokenStream :=
  ⟨first.tokens ++ second.tokens.map (Token.shift k), second.stop + k⟩

/-- A source is made of tokens, none of which reaches over the end of `before`: the white space
after `before` stands between two of them. -/
def SplitsAfter (before source : String) : Prop :=
  ∃ slices, Munched 0 source.toList [] slices ∧
    ∀ s ∈ slices, s.stop ≤ before.utf8ByteSize ∨ before.utf8ByteSize ≤ s.position

private theorem exists_munched_of_lex {source : String} {stream : TokenStream}
    (read : lex source = .ok stream) : ∃ slices, Munched 0 source.toList [] slices ∧
      stream.tokens = slices.map Slice.token := by
  rcases munched_or_breaksOff source with ⟨slices, munched⟩ | ⟨before, c, slices, breaks⟩
  · rw [lex_eq_ok munched] at read
    cases read
    exact ⟨slices, munched, rfl⟩
  · rw [breaks.lex_eq_error] at read
    cases read

variable {a w b : String}

/-- A source that is made of tokens, white space and anything. -/
theorem lex_append {slices : List Slice} (munched : Munched 0 a.toList [] slices)
    (space : ∀ c ∈ w.toList, isSpace c = true) (some : w ≠ "") :
    lex (a ++ w ++ b) =
      ((lex b).map (TokenStream.join ⟨slices.map Slice.token, a.utf8ByteSize⟩
        (a ++ w).utf8ByteSize)).mapError (Failure.shift (a ++ w).utf8ByteSize) := by
  have text : (a ++ w ++ b).toList = a.toList ++ (w.toList ++ b.toList) := by
    rw [String.toList_append, String.toList_append, List.append_assoc]
  have size (s : String) : width s.toList = s.utf8ByteSize := by
    rw [width_eq_utf8ByteSize, String.ofList_toList]
  have some : w.toList ≠ [] := mt String.toList_eq_nil_iff.1 some
  rw [lex_of_munched text (munched.before_space space some), tokensFrom_spaces space, size, size,
    ← String.utf8ByteSize_append, ← Nat.zero_add (a ++ w).utf8ByteSize, tokensFrom_shift, lex,
    size, String.utf8ByteSize_append, Nat.add_comm _ b.utf8ByteSize, Nat.zero_add]
  cases tokensFrom 0 b.toList with
  | error failure => rfl
  | ok tokens => rfl

/-- Where white space stands between two tokens, what comes before and what comes after it have
the tokens of the source. -/
theorem SplitsAfter.symbols {stream : TokenStream} (splits : SplitsAfter a (a ++ w ++ b))
    (space : ∀ c ∈ w.toList, isSpace c = true) (read : lex (a ++ w ++ b) = .ok stream) :
    ∃ slices second, Munched 0 a.toList [] slices ∧ lex b = .ok second ∧
      stream.tokens.map Token.symbol =
        (slices.map Slice.token ++ second.tokens).map Token.symbol := by
  obtain ⟨slices, munched, clear⟩ := splits
  rw [lex_eq_ok munched] at read
  cases read
  have text : (a ++ w ++ b).toList = a.toList ++ (w.toList ++ b.toList) := by
    rw [String.toList_append, String.toList_append, List.append_assoc]
  have size : width a.toList = a.utf8ByteSize := by
    rw [width_eq_utf8ByteSize, String.ofList_toList]
  rw [text] at munched
  obtain ⟨firsts, seconds, rfl, before, after⟩ := munched.split (by
    intro s member
    rw [size, Nat.zero_add]
    exact clear s member)
  have rest := (after.of_spaces space).tokensFrom_append
  rw [List.append_nil, tokensFrom_nil, Except.map, List.append_nil, Nat.add_assoc] at rest
  obtain ⟨unmoved, readAfter, moved⟩ := tokensFrom_of_shift rest
  refine ⟨firsts, ⟨unmoved, width b.toList⟩, before.alone, ?_, ?_⟩
  · rw [lex, readAfter]
    rfl
  · rw [List.map_append, List.map_append, List.map_append, moved, symbol_shift]

/-- A source that is read, white space and another source have the tokens of the two, those of the
other moved on by what comes before it; where the other breaks off they break off. So the white
space between two tokens of a source may be replaced by any: the symbols stay. -/
theorem lex_append_spaces (a w b : String) (space : ∀ c ∈ w.toList, isSpace c = true) :
    (∀ first, lex a = .ok first → w ≠ "" →
      (∀ second, lex b = .ok second →
        lex (a ++ w ++ b) = .ok (first.join (a ++ w).utf8ByteSize second)) ∧
      ∀ c position, lex b = .error (.badCharacter c position) →
        lex (a ++ w ++ b) = .error (.badCharacter c (position + (a ++ w).utf8ByteSize))) ∧
    ∀ stream, lex (a ++ w ++ b) = .ok stream → SplitsAfter a (a ++ w ++ b) →
      ∀ w' : String, (∀ c ∈ w'.toList, isSpace c = true) → w' ≠ "" →
        ∃ other, lex (a ++ w' ++ b) = .ok other ∧
          other.tokens.map Token.symbol = stream.tokens.map Token.symbol := by
  constructor
  · intro first readFirst some
    obtain ⟨slices, munched, tokens⟩ := exists_munched_of_lex readFirst
    rw [lex_append munched space some]
    constructor
    · intro second readSecond
      rw [readSecond]
      show Except.ok _ = Except.ok _
      rw [TokenStream.join, TokenStream.join, tokens]
    · intro c position failed
      rw [failed]
      rfl
  · intro stream read splits w' space' some'
    obtain ⟨slices, second, munched, readSecond, symbols⟩ := splits.symbols space read
    refine ⟨_, (lex_append munched space' some').trans (by rw [readSecond]; rfl), ?_⟩
    rw [symbols, TokenStream.join, List.map_append, List.map_append, symbol_shift]

/-- A tab keeps two characters apart that are one operator without it, and offsets count the bytes
of what comes before. A line may be broken before the arguments of a function. -/
theorem lex_append_spaces_parted :
    let before := "'é' <"
    let tokens : TokenStream := ⟨[⟨.text "é", 0⟩, ⟨.operator .less, 5⟩], 6⟩
    (∀ c ∈ "\t".toList, isSpace c = true) ∧ "\t" ≠ "" ∧ lex before = .ok tokens ∧
      lex "x" = .ok ⟨[⟨.name "x", 0⟩], 1⟩ ∧
      lex (before ++ "\t" ++ "x") =
        .ok ⟨[⟨.text "é", 0⟩, ⟨.operator .less, 5⟩, ⟨.name "x", 7⟩], 8⟩ ∧
      lex "= 2" = .error (.badCharacter '=' 0) ∧
      lex (before ++ "\t" ++ "= 2") = .error (.badCharacter '=' 7) ∧
      lex ("f" ++ "" ++ "(") = .ok ⟨[⟨.name "f", 0⟩, ⟨.leftParen, 1⟩], 2⟩ ∧
      SplitsAfter "f" ("f" ++ "" ++ "(") ∧ (∀ c ∈ "\r\n".toList, isSpace c = true) ∧
      ∃ other, lex ("f" ++ "\r\n" ++ "(") = .ok other ∧
        other.tokens.map Token.symbol = [.name "f", .leftParen] := by
  intro before tokens
  have tab : ∀ c ∈ "\t".toList, isSpace c = true := List.all_eq_true.1 (by decide)
  have line : ∀ c ∈ "\r\n".toList, isSpace c = true := List.all_eq_true.1 (by decide)
  have nothing : ∀ c ∈ "".toList, isSpace c = true := List.all_eq_true.1 (by decide)
  have first : lex before = .ok tokens := by
    let quoted : Lexeme := ⟨.text "é", ['\'', 'é', '\'']⟩
    let less : Lexeme := ⟨.operator .less, ['<']⟩
    have quotedLongest : quoted.LongestIn ['\'', 'é', '\'', ' ', '<'] := scan?_eq_some_iff.1 rfl
    have lessLongest : less.LongestIn ['<'] := scan?_eq_some_iff.1 rfl
    have operator : Munched 5 (less.text ++ []) [] [⟨5, less⟩] := .cons lessLongest (.nil _ _)
    have munched :
        Munched 0 (quoted.text ++ ' ' :: (less.text ++ [])) [] [⟨0, quoted⟩, ⟨5, less⟩] :=
      .cons quotedLongest (.space rfl operator)
    have text : "'é' <".toList = quoted.text ++ ' ' :: (less.text ++ []) := rfl
    rw [← text] at munched
    exact lex_eq_ok munched
  have second : lex "x" = .ok ⟨[⟨.name "x", 0⟩], 1⟩ := by
    let name : Lexeme := ⟨.name "x", ['x']⟩
    have longest : name.LongestIn ['x'] := scan?_eq_some_iff.1 rfl
    have munched : Munched 0 (name.text ++ []) [] [⟨0, name⟩] := .cons longest (.nil _ _)
    have text : "x".toList = name.text ++ [] := rfl
    rw [← text] at munched
    exact lex_eq_ok munched
  have failed : lex "= 2" = .error (.badCharacter '=' 0) := by
    have stuck : Stuck ['=', ' ', '2'] := scan?_eq_none_iff.1 rfl
    show (tokensFrom 0 ['=', ' ', '2']).map _ = _
    rw [tokensFrom_stuck 0 rfl stuck]
    rfl
  let name : Lexeme := ⟨.name "f", ['f']⟩
  have call : Munched 0 ("f" ++ "" ++ "(").toList [] [⟨0, name⟩, ⟨1, opening⟩] := by
    have nameLongest : name.LongestIn ['f', '('] := scan?_eq_some_iff.1 rfl
    have openingLongest : opening.LongestIn ['('] := scan?_eq_some_iff.1 rfl
    have rest : Munched (0 + width name.text) (opening.text ++ []) [] [⟨1, opening⟩] :=
      .cons openingLongest (.nil _ _)
    exact .cons nameLongest rest
  have splits : SplitsAfter "f" ("f" ++ "" ++ "(") := ⟨_, call, by decide⟩
  have applied : lex ("f" ++ "" ++ "(") = .ok ⟨[⟨.name "f", 0⟩, ⟨.leftParen, 1⟩], 2⟩ :=
    lex_eq_ok call
  obtain ⟨-, breaks⟩ := (lex_append_spaces before "\t" "= 2" tab).1 tokens first (by decide)
  obtain ⟨joins, -⟩ := (lex_append_spaces before "\t" "x" tab).1 tokens first (by decide)
  obtain ⟨other, read, symbols⟩ := (lex_append_spaces "f" "" "(" nothing).2 _ applied splits
    "\r\n" line (by decide)
  exact ⟨tab, by decide, first, second, joins _ second, failed, breaks _ _ failed, applied, splits,
    line, other, read, symbols⟩

end StoryEngine.Expression
