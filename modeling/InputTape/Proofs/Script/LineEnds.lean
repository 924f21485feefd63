import InputTape.Proofs.Script.Lexing

/-! Line ends.

Line feed, carriage return, and carriage return with line feed each end a line, and which of them a
script uses does not matter: with other line ends every token is the same and stands in the same
place.
-/

set_option autoImplicit false

namespace InputTape.Script

/-- The text with a line feed for every line end. -/
def unifyLineEnds : List Char → List Char
  | [] => []
  | '\r' :: '\n' :: rest => '\n' :: unifyLineEnds rest
  | '\r' :: rest => '\n' :: unifyLineEnds rest
  | c :: rest => c :: unifyLineEnds rest

example : unifyLineEnds ['a', '\n', '\r', '\r', '\n', 'b'] = ['a', '\n', '\n', '\n', 'b'] := rfl

def InLine (span : List Char) : Prop := ∀ c ∈ span, isLineEnd c = false

theorem isLineEnd_iff {c : Char} : isLineEnd c = true ↔ c = '\n' ∨ c = '\r' := by
  simp [isLineEnd]

theorem unifyLineEnds_cons {c : Char} (inLine : isLineEnd c = false) (rest : List Char) :
    unifyLineEnds (c :: rest) = c :: unifyLineEnds rest := by
  have other : ¬ c = '\n' ∧ ¬ c = '\r' := by simpa [isLineEnd] using inLine
  rw [unifyLineEnds]
  · exact fun _ same _ => other.2 same
  · exact fun same => other.2 same

theorem unifyLineEnds_return {rest : List Char} (stops : Stops (· == '\n') rest) :
    unifyLineEnds ('\r' :: rest) = '\n' :: unifyLineEnds rest := by
  rw [unifyLineEnds]
  rintro more rfl
  exact absurd (stops_cons.mp stops) (by simp)

theorem unifyLineEnds_append {span : List Char} (inLine : InLine span) (after : List Char) :
    unifyLineEnds (span ++ after) = span ++ unifyLineEnds after := by
  induction span with
  | nil => rfl
  | cons c more ih =>
    obtain ⟨here, later⟩ := List.forall_mem_cons.mp inLine
    rw [List.cons_append, unifyLineEnds_cons here, ih later, List.cons_append]

theorem head?_unifyLineEnds {after : List Char} {c : Char}
    (first : c ∈ (unifyLineEnds after).head?) : c ∈ after.head? ∨ c = '\n' := by
  unfold unifyLineEnds at first
  split at first
  · cases first
  · exact .inr (Option.some.inj first).symm
  · exact .inr (Option.some.inj first).symm
  · exact .inl first

/-- No line end is of a kind of characters if neither of the two is. -/
def Refuses (takes : Char → Bool) : Prop := takes '\n' = false ∧ takes '\r' = false

theorem Refuses.of_isLineEnd {takes : Char → Bool} (refuses : Refuses takes) {c : Char}
    (ends : isLineEnd c = true) : takes c = false := by
  rcases isLineEnd_iff.mp ends with rfl | rfl
  · exact refuses.1
  · exact refuses.2

theorem Refuses.inLine {takes : Char → Bool} (refuses : Refuses takes) {span : List Char}
    (inside : ∀ c ∈ span, takes c = true) : InLine span := by
  intro c member
  rw [← Bool.not_eq_true]
  intro ends
  exact absurd (inside c member) (by simp [refuses.of_isLineEnd ends])

theorem InLine.cons {c : Char} {rest : List Char} (here : isLineEnd c = false)
    (later : InLine rest) : InLine (c :: rest) := List.forall_mem_cons.mpr ⟨here, later⟩

theorem InLine.singleton {c : Char} (here : isLineEnd c = false) : InLine [c] := .cons here nofun

theorem InLine.append {first second : List Char} (left : InLine first) (right : InLine second) :
    InLine (first ++ second) := List.forall_mem_append.mpr ⟨left, right⟩

section

variable {span after : List Char} {reading : Reading} {takes : Char → Bool}

theorem mark_inLine {c : Char} {kind : TokenKind} (marked : (c, kind) ∈ marks) :
    isLineEnd c = false ∧ kind ≠ .lineEnd := by
  have all : ∀ mark ∈ marks, isLineEnd mark.1 = false ∧ mark.2 ≠ .lineEnd := by decide
  exact all _ marked

theorem Spells.lineEnd (spells : Spells span reading takes)
    (ends : Position.isLineEndReading reading = true) : reading = .token .lineEnd ['\n'] ∧
      (span = ['\n'] ∨ span = ['\r', '\n'] ∨ span = ['\r'] ∧ takes = (· == '\n')) := by
  cases spells with
  | lineFeed => exact ⟨rfl, .inl rfl⟩
  | returnFeed => exact ⟨rfl, .inr (.inl rfl)⟩
  | carriageReturn => exact ⟨rfl, .inr (.inr ⟨rfl, rfl⟩)⟩
  | @mark c kind marked =>
    cases kind with
    | lineEnd => exact absurd rfl (mark_inLine marked).2
    | _ => cases ends
  | word =>
    unfold wordKind at ends
    split at ends <;> cases ends
  | _ => cases ends

/-- No other lexeme has a line end in it or takes one. -/
theorem Spells.inLine (spells : Spells span reading takes)
    (other : Position.isLineEndReading reading = false) : InLine span ∧ Refuses takes := by
  have digits : Refuses Char.isDigit := ⟨rfl, rfl⟩
  have words : Refuses isWordChar := ⟨rfl, rfl⟩
  have quotables : Refuses isQuotable := ⟨rfl, rfl⟩
  -- Only the readings of line ends take one.
  cases spells with
  | lineFeed | returnFeed | carriageReturn => cases other
  | slash | assign | bang => exact ⟨.singleton rfl, rfl, rfl⟩
  | equal | notEqual => exact ⟨.cons rfl (.singleton rfl), rfl, rfl⟩
  | blank blank blanks =>
    have refuses : Refuses isBlankChar := ⟨rfl, rfl⟩
    exact ⟨refuses.inLine (List.forall_mem_cons.mpr ⟨blank, blanks⟩), refuses⟩
  | comment inLine => exact ⟨.cons rfl (.cons rfl inLine), rfl, rfl⟩
  | mark marked => exact ⟨.singleton (mark_inLine marked).1, rfl, rfl⟩
  | string quotable =>
    exact ⟨.cons rfl (.append (quotables.inLine quotable) (.singleton rfl)), rfl, rfl⟩
  | unterminated quotable => exact ⟨.cons rfl (quotables.inLine quotable), rfl, rfl⟩
  | named letter word =>
    exact ⟨.cons rfl (words.inLine
      (List.forall_mem_cons.mpr ⟨isWordChar_of_isLetter letter, word⟩)), words⟩
  | nameless word => exact ⟨.cons rfl (words.inLine word), words⟩
  | whole digit rest =>
    exact ⟨digits.inLine (List.forall_mem_cons.mpr ⟨digit, rest⟩), rfl, rfl⟩
  | point digit rest further =>
    exact ⟨.append (digits.inLine (List.forall_mem_cons.mpr ⟨digit, rest⟩))
      (.cons rfl (digits.inLine further)), digits⟩
  | word letter word =>
    exact ⟨words.inLine (List.forall_mem_cons.mpr ⟨isWordChar_of_isLetter letter, word⟩), words⟩
  | unknown unopened =>
    refine ⟨.singleton ?_, rfl, rfl⟩
    rw [← Bool.not_eq_true]
    intro ends
    rcases isLineEnd_iff.mp ends with rfl | rfl <;> exact absurd (by decide) unopened

/-- A lexeme keeps to itself, and is read the same, if line ends are written otherwise. -/
theorem Spells.unify (spells : Spells span reading takes) (stops : Stops takes after) :
    unifyLineEnds (span ++ after) = unifyLineEnds span ++ unifyLineEnds after ∧
      ∃ others, Spells (unifyLineEnds span) reading others ∧
        Stops others (unifyLineEnds after) := by
  cases ends : Position.isLineEndReading reading with
  | true =>
    obtain ⟨rfl, rfl | rfl | ⟨rfl, rfl⟩⟩ := spells.lineEnd ends
    · exact ⟨rfl, _, .lineFeed, stops_nothing _⟩
    · exact ⟨rfl, _, .lineFeed, stops_nothing _⟩
    · exact ⟨unifyLineEnds_return stops, _, .lineFeed, stops_nothing _⟩
  | false =>
    obtain ⟨inLine, refuses⟩ := spells.inLine ends
    have same : unifyLineEnds span = span := by
      simpa [unifyLineEnds] using unifyLineEnds_append inLine []
    rw [same]
    refine ⟨unifyLineEnds_append inLine after, takes, spells, fun c first => ?_⟩
    rcases head?_unifyLineEnds first with first | rfl
    · exact stops c first
    · exact refuses.1

end

theorem Position.after_unifyLineEnds {lexeme : Lexeme} {takes : Char → Bool}
    (spells : Spells lexeme.span lexeme.reading takes) (position : Position) :
    position.after ⟨unifyLineEnds lexeme.span, lexeme.reading⟩ = position.after lexeme := by
  cases ends : isLineEndReading lexeme.reading with
  | true => simp only [after, ends, if_true]
  | false =>
    have same := unifyLineEnds_append (spells.inLine ends).1 []
    rw [List.append_nil] at same
    simp only [after, same, unifyLineEnds, List.append_nil]

theorem eq_nil_of_lexemes {text : List Char} (none : lexemes text = []) : text = [] := by
  rw [← flatMap_span_lexemes text, none, List.flatMap_nil]

theorem placeFrom_unifyLineEnds (text : List Char) (position : Position) :
    placeFrom position (lexemes (unifyLineEnds text)) = placeFrom position (lexemes text) := by
  generalize cut : lexemes text = found
  induction found generalizing text position with
  | nil =>
    cases eq_nil_of_lexemes cut
    exact congrArg (placeFrom position) cut
  | cons lexeme more ih =>
    obtain ⟨after, takes, rfl, spells, stops, rest⟩ := lexemes_eq_cons.mp cut
    obtain ⟨apart, others, spelled, stopped⟩ := spells.unify stops
    rw [apart, lexemes_append spelled stopped]
    simp only [placeFrom, Position.after_unifyLineEnds spells, ih after _ rest]

/-- Scripts that differ in how their lines end compile to the same, or fail with the same problem on
the same line. -/
theorem compile_unifyLineEnds (text : String) :
    compile (String.ofList (unifyLineEnds text.toList)) = compile text := by
  unfold compile lines items
  rw [String.toList_ofList, placeFrom_unifyLineEnds]

end InputTape.Script
