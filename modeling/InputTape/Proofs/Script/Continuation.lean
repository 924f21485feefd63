import InputTape.Proofs.Script.Diagnostics
import InputTape.Proofs.Script.Positions

/-! Texts that go on.

Behind a line feed nothing depends on what is in front of it: a text that goes on there is cut where
it was, and has the lines that it had with more behind them. So the first problem of a line stays the
first. Every problem is on a line that the text has.
-/

set_option autoImplicit false

namespace InputTape.Script

/-! ## Cutting -/

/-- A lexeme that ends with a line feed is a line end, and takes nothing more. -/
theorem Spells.lineFed {span : List Char} {reading : Reading} {takes : Char → Bool}
    (spells : Spells span reading takes) (fed : span.getLast? = some '\n') :
    reading = .token .lineEnd ['\n'] ∧ Spells span reading nothing := by
  have member : '\n' ∈ span := List.mem_of_getLast? fed
  cases ends : Position.isLineEndReading reading with
  | true =>
    obtain ⟨rfl, rfl | rfl | ⟨rfl, -⟩⟩ := spells.lineEnd ends
    · exact ⟨rfl, .lineFeed⟩
    · exact ⟨rfl, .returnFeed⟩
    · cases fed
  | false => exact absurd ((spells.inLine ends).1 _ member) (by simp [isLineEnd])

/-- A text that goes on behind a line feed is cut as before, and its continuation by itself. -/
theorem lexemes_append_lineFed {text : List Char} (fed : text.getLast? = some '\n')
    (more : List Char) : lexemes (text ++ more) = lexemes text ++ lexemes more := by
  generalize cut : lexemes text = found
  induction found generalizing text with
  | nil =>
    cases eq_nil_of_lexemes cut
    cases fed
  | cons lexeme later ih =>
    obtain ⟨after, takes, rfl, spells, stops, rest⟩ := lexemes_eq_cons.mp cut
    rw [List.append_assoc, List.cons_append]
    cases after with
    | nil =>
      rw [List.append_nil] at fed
      cases rest
      rw [List.nil_append, lexemes_append (spells.lineFed fed).2 (stops_nothing more)]
      simp [lexemes]
    | cons c others =>
      have fed' : (c :: others).getLast? = some '\n' := by
        rwa [List.getLast?_append_of_ne_nil _ (List.cons_ne_nil _ _)] at fed
      have stops' : Stops takes (c :: others ++ more) := stops_cons.mpr (stops_cons.mp stops)
      rw [lexemes_append spells stops', ih fed' rest]

theorem placeFrom_cons (position : Position) (lexeme : Lexeme) (more : List Lexeme) :
    placeFrom position (lexeme :: more) =
      lexeme.itemAt position :: placeFrom (position.after lexeme) more := rfl

theorem placeFrom_append (position : Position) (front back : List Lexeme) :
    placeFrom position (front ++ back) =
      placeFrom position front ++ placeFrom (front.foldl Position.after position) back := by
  induction front generalizing position with
  | nil => rfl
  | cons lexeme more ih => simp only [List.cons_append, placeFrom_cons, ih, List.foldl_cons]

/-! ## Lines -/

theorem addItem_append (item : Item) (first : Line) (more tail : List Line) :
    addItem item (first :: more ++ tail) = addItem item (first :: more) ++ tail := by
  simp only [addItem, List.cons_append]
  repeat' split
  all_goals rfl

theorem exists_addItem (item : Item) (found : List Line) :
    ∃ first more, addItem item found = first :: more := by
  unfold addItem
  dsimp only
  repeat' split
  all_goals exact ⟨_, _, rfl⟩

theorem exists_lines (found : List Item) :
    ∃ first more, found.foldr addItem [Line.empty] = first :: more := by
  cases found with
  | nil => exact ⟨_, _, rfl⟩
  | cons item more => exact exists_addItem item _

theorem lines_lineFed {text : List Char} (fed : text.getLast? = some '\n') (position : Position) :
    ∃ first ended, ∀ next tail, (placeFrom position (lexemes text)).foldr addItem (next :: tail) =
      first :: ended ++ next :: tail := by
  generalize cut : lexemes text = found
  induction found generalizing text position with
  | nil =>
    cases eq_nil_of_lexemes cut
    cases fed
  | cons lexeme later ih =>
    obtain ⟨after, takes, rfl, spells, -, rest⟩ := lexemes_eq_cons.mp cut
    cases after with
    | nil =>
      rw [List.append_nil] at fed
      have reading := (spells.lineFed fed).1
      cases rest
      refine ⟨Line.empty, [], fun next tail => ?_⟩
      simp only [lexemes, placeFrom, reading, List.foldr_cons, List.foldr_nil]
      rfl
    | cons c others =>
      have fed' : (c :: others).getLast? = some '\n' := by
        rwa [List.getLast?_append_of_ne_nil _ (List.cons_ne_nil _ _)] at fed
      obtain ⟨first, ended, all⟩ := ih fed' (position.after lexeme) rest
      rw [placeFrom_cons]
      obtain ⟨first', ended', same⟩ := exists_addItem (lexeme.itemAt position) (first :: ended)
      refine ⟨first', ended', fun next tail => ?_⟩
      rw [List.foldr_cons, all, addItem_append, same]

/-- A text that ends with a line feed has its lines whatever follows, and then an empty one. -/
theorem exists_ended {text : String} (fed : text.toList.getLast? = some '\n') :
    ∃ ended, lines text = ended ++ [Line.empty] ∧
      ∀ more, ∃ tail, lines (text ++ more) = ended ++ tail := by
  obtain ⟨first, ended, all⟩ := lines_lineFed fed .start
  refine ⟨first :: ended, all _ _, fun more => ?_⟩
  unfold lines items
  rw [String.toList_append, lexemes_append_lineFed fed, placeFrom_append, List.foldr_append]
  obtain ⟨next, tail, same⟩ := exists_lines
    (placeFrom ((lexemes text.toList).foldl Position.after .start) (lexemes more.toList))
  rw [same]
  exact ⟨next :: tail, all next tail⟩

theorem length_addItem (lexeme : Lexeme) (position : Position) (first : Line) (more : List Line) :
    (addItem (lexeme.itemAt position) (first :: more)).length =
      (if Position.isLineEndReading lexeme.reading then 1 else 0) + (first :: more).length := by
  obtain ⟨span, ⟨kind, text⟩ | _⟩ := lexeme
  · by_cases ends : kind = .lineEnd
    · subst ends
      exact Nat.add_comm _ _
    · have other : Position.isLineEndReading (.token kind text) = false := by
        cases kind <;> first | rfl | exact absurd rfl ends
      simp only [Lexeme.itemAt, addItem, other, beq_iff_eq, if_neg ends]
      split <;> simp
  · exact (Nat.zero_add _).symm

theorem length_lines (text : String) : (lines text).length = 1 + lineEndCount text.toList := by
  unfold lines items
  generalize Position.start = position
  generalize text.toList = text
  generalize cut : lexemes text = found
  induction found generalizing text position with
  | nil =>
    cases eq_nil_of_lexemes cut
    rfl
  | cons lexeme later ih =>
    obtain ⟨after, takes, rfl, spells, stops, rest⟩ := lexemes_eq_cons.mp cut
    have length := ih (position.after lexeme) after rest
    obtain ⟨first, more, same⟩ := exists_lines (placeFrom (position.after lexeme) later)
    rw [same] at length
    rw [spells.lineEndCount_append stops, placeFrom_cons, List.foldr_cons, same, length_addItem,
      length]
    omega

/-! ## Problems -/

namespace Draft

theorem addLines_append (draft : Draft) (number : Nat) (front back : List Line) :
    draft.addLines number (front ++ back) =
      draft.addLines number front >>= fun between =>
        between.addLines (number + front.length) back := by
  induction front generalizing draft number with
  | nil => rfl
  | cons line more ih =>
    rw [List.cons_append, addLines, addLines, bind_assoc]
    refine bind_congr fun between => ?_
    rw [ih, List.length_cons, Nat.add_right_comm, Nat.add_assoc]

theorem line_of_addLines {draft : Draft} {number : Nat} {found : List Line} {error : CompileError}
    (fails : draft.addLines number found = .error error) :
    number ≤ error.line ∧ error.line < number + found.length := by
  induction found generalizing draft number with
  | nil => cases fails
  | cons line more ih =>
    rw [addLines] at fails
    rw [List.length_cons]
    cases added : draft.addLine number line with
    | error problem =>
      rw [added] at fails
      cases fails
      rw [line_of_addLine added]
      omega
    | ok between =>
      rw [added] at fails
      have behind := ih fails
      omega

end Draft

theorem addLines_of_compile {text : String} {error : CompileError}
    (fails : compile text = .error error) :
    Draft.empty.addLines 1 (lines text) = .error error ∨
      ∃ draft, Draft.empty.addLines 1 (lines text) = .ok draft ∧ draft.finish = .error error := by
  unfold compile at fails
  cases added : Draft.empty.addLines 1 (lines text) with
  | error problem =>
    rw [added] at fails
    cases fails
    exact .inl rfl
  | ok draft =>
    rw [added] at fails
    exact .inr ⟨draft, rfl, fails⟩

theorem Parses.number {text : String} {numbered : List (Nat × Statement)} {blocks : List Opening}
    (parses : Parses text numbered blocks) {each : Nat × Statement} (member : each ∈ numbered) :
    1 ≤ each.1 ∧ each.1 ≤ (lines text).length := by
  obtain ⟨line, inside, bears⟩ := exists_of_mem_right parses.bears member
  obtain ⟨above, below, -⟩ := List.mem_zipIdx (List.mem_filter.mp inside).1
  rw [bears.number]
  omega

theorem Parses.line_of_compile {text : String} {numbered : List (Nat × Statement)}
    {blocks : List Opening} (parses : Parses text numbered blocks) {error : CompileError}
    (fails : compile text = .error error) :
    1 ≤ error.line ∧ error.line ≤ (lines text).length := by
  have diagnosis := fails ▸ parses.diagnosis
  cases diagnosis with
  | unterminated =>
    obtain ⟨statement, stands⟩ := parses.leaves.exists_line _ List.mem_cons_self
    exact parses.number stands
  | undefined first =>
    obtain ⟨front, back, rfl, -⟩ := first
    exact parses.number (List.mem_append_right _ List.mem_cons_self)

/-- The first problem of a text that ends with a line feed stays the first wherever the text goes
on, unless it is one of the end. A problem is always on a line of the text. -/
theorem compile_goesOn (text : String) :
    (text.toList.getLast? = some '\n' → ∀ error, compile text = .error error →
      ¬ error.problem.IsOfEnd → ∀ more, compile (text ++ more) = .error error) ∧
    ∀ error, compile text = .error error →
      1 ≤ error.line ∧ error.line ≤ 1 + lineEndCount text.toList := by
  refine ⟨fun fed error fails early more => ?_, fun error fails => ?_⟩
  · obtain ⟨ended, whole, longer⟩ := exists_ended fed
    obtain ⟨tail, grown⟩ := longer more
    rcases addLines_of_compile fails with added | ⟨draft, -, finished⟩
    · apply compile_of_addLines
      rw [grown, Draft.addLines_append]
      rw [whole, Draft.addLines_append] at added
      cases first : Draft.empty.addLines 1 ended with
      | error problem =>
        rw [first] at added
        cases added
        rfl
      -- The empty line behind the last line feed has no problem.
      | ok draft =>
        rw [first] at added
        cases added
    · exact absurd (Draft.finish_isOfEnd finished) early
  · rw [← length_lines]
    rcases addLines_of_compile fails with added | ⟨draft, added, -⟩
    · have within := Draft.line_of_addLines added
      omega
    · obtain ⟨numbered, parses⟩ := exists_parses added
      exact parses.line_of_compile fails

/-- No quote on a later line closes a string. -/
theorem compile_goesOn_quote :
    compile "exit\nScript(`a\n" = .error ⟨.unterminatedString, 2⟩ ∧
      compile ("exit\nScript(`a\n" ++ "b`)") = .error ⟨.unterminatedString, 2⟩ := by
  have fails : compile "exit\nScript(`a\n" = .error ⟨.unterminatedString, 2⟩ := by
    have cut : lines "exit\nScript(`a\n" =
        [⟨[⟨.keyword .exit, "exit", 1, 1⟩], false⟩,
          ⟨[⟨.keyword .script, "Script", 2, 1⟩, ⟨.openParen, "(", 2, 7⟩], true⟩, ⟨[], false⟩] := by
      decide +kernel
    apply compile_of_addLines
    rw [cut]
    rfl
  exact ⟨fails, (compile_goesOn _).1 (by decide +kernel) _ fails id _⟩

end InputTape.Script
