import InputTape.Proofs.Script.Agreement
import InputTape.Proofs.Script.LineEnds
import InputTape.Proofs.Script.Refinement
import Mathlib.Logic.Relation

/-! Spacing.

Blanks between tokens, comments behind a line and empty lines may be put into a script as one likes.
What is left of it by the time that it is compiled is an outline: the tokens of every line that is
not blank. To put spacing in changes no outline.
-/

set_option autoImplicit false

namespace InputTape.Script

def Lexeme.isLineEnd (lexeme : Lexeme) : Bool := Position.isLineEndReading lexeme.reading

/-- The second text is the first with a run of characters put in between two lexemes. -/
structure Inserts (text : String) (front : List Lexeme) (run : List Char) (back : List Lexeme)
    (other : String) : Prop where
  cut : lexemes text.toList = front ++ back
  whole : other.toList = front.flatMap Lexeme.span ++ (run ++ back.flatMap Lexeme.span)

/-- The second text is the first with more spacing in one place. -/
inductive Spaced (text other : String) : Prop where
  | blanks {front back : List Lexeme} {run : List Char} : Inserts text front run back other →
      (∀ c ∈ run, isBlankChar c = true) → Spaced text other
  | comment {front back : List Lexeme} {comment : List Char} :
      Inserts text front (' ' :: '/' :: '/' :: comment) back other → InLine comment →
      (∀ next ∈ back.head?, next.isLineEnd = true) → Spaced text other
  | lineEnds {front back : List Lexeme} {run : List Char} : Inserts text front run back other →
      (∀ c ∈ run, isLineEnd c = true) →
      (front = [] ∨ back = [] ∨ ∃ last ∈ front.getLast?, last.isLineEnd = true) → Spaced text other

def AllClosed (text : String) : Prop := ∀ number, .unterminated number ∉ items text

/-! ## Outlines -/

structure Row where
  said : List (TokenKind × String)
  isUnterminated : Bool
  deriving DecidableEq, Repr

def Row.empty : Row := ⟨[], false⟩

def Row.isBlank (row : Row) : Bool := row.said.isEmpty && !row.isUnterminated

structure Outline where
  current : Row
  later : List Row
  deriving DecidableEq, Repr

namespace Outline

def empty : Outline := ⟨.empty, []⟩

def rows (outline : Outline) : List Row :=
  if outline.current.isBlank then outline.later else outline.current :: outline.later

def add (outline : Outline) : Reading → Outline
  | .unterminated => ⟨⟨outline.current.said, true⟩, outline.later⟩
  | .token kind text =>
    if kind == .lineEnd then ⟨.empty, outline.rows⟩
    else if kind.isSpacing then outline
    else ⟨⟨(kind, String.ofList text) :: outline.current.said, outline.current.isUnterminated⟩,
      outline.later⟩

def ofLexemes (found : List Lexeme) : Outline :=
  found.foldr (fun lexeme outline => outline.add lexeme.reading) .empty

end Outline

def outline (text : List Char) : Outline := .ofLexemes (lexemes text)

def Line.row (line : Line) : Row :=
  ⟨line.tokens.map fun token => (token.kind, token.text), line.isUnterminated⟩

theorem Line.isBlank_row (line : Line) : line.row.isBlank = line.isBlank := by
  obtain ⟨_ | _, isUnterminated⟩ := line <;> rfl

def Outline.Covers (outline : Outline) (found : List Line) : Prop :=
  ∃ first more, found = first :: more ∧ first.row = outline.current ∧
    (more.filter (!·.isBlank)).map Line.row = outline.later

theorem Outline.Covers.rows {outline : Outline} {found : List Line}
    (covers : outline.Covers found) :
    (found.filter (!·.isBlank)).map Line.row = outline.rows := by
  obtain ⟨first, more, rfl, here, later⟩ := covers
  rw [Outline.rows, ← here, first.isBlank_row, ← later, List.filter_cons]
  cases first.isBlank <;> rfl

theorem covers_placeFrom (found : List Lexeme) (position : Position) :
    (Outline.ofLexemes found).Covers ((placeFrom position found).foldr addItem [Line.empty]) := by
  induction found generalizing position with
  | nil => exact ⟨Line.empty, [], rfl, rfl, rfl⟩
  | cons lexeme more ih =>
    obtain ⟨span, reading⟩ := lexeme
    have covers := ih (position.after ⟨span, reading⟩)
    have rows := covers.rows
    obtain ⟨first, further, same, here, later⟩ := covers
    change ((Outline.ofLexemes more).add reading).Covers
      (addItem _ ((placeFrom (position.after ⟨span, reading⟩) more).foldr addItem [Line.empty]))
    rw [same] at rows ⊢
    cases reading with
    | unterminated => exact ⟨_, further, rfl, by rw [Outline.add, ← here]; rfl, later⟩
    | token kind text =>
      simp only [addItem, Outline.add]
      split
      · exact ⟨_, _, rfl, rfl, rows⟩
      · split
        · exact ⟨first, further, rfl, here, later⟩
        · exact ⟨_, further, rfl, by rw [← here]; rfl, later⟩

theorem rows_outline (text : String) :
    ((lines text).filter (!·.isBlank)).map Line.row = (outline text.toList).rows :=
  (covers_placeFrom (lexemes text.toList) .start).rows

theorem row_busyLines (text : String) :
    (busyLines text).map (·.1.row) = (outline text.toList).rows := by
  have numbered (number : Nat) (found : List Line) :
      ((found.zipIdx number).filter (!·.1.isBlank)).map (·.1.row) =
        (found.filter (!·.isBlank)).map Line.row := by
    induction found generalizing number with
    | nil => rfl
    | cons line more ih =>
      rw [List.zipIdx_cons, List.filter_cons, List.filter_cons]
      split <;> simp [ih]
  rw [busyLines, numbered, rows_outline]

theorem alike_of_row {first second : Line} (same : first.row = second.row) :
    Line.Alike (· = ·) first second where
  tokens := by
    have said := congrArg Row.said same
    change first.tokens.map _ = second.tokens.map _ at said
    rw [← List.forall₂_eq_eq_eq, List.forall₂_map_left_iff, List.forall₂_map_right_iff] at said
    exact said.imp fun _ _ equal => ⟨congrArg Prod.fst equal, fun _ => congrArg Prod.snd equal,
      fun _ => congrArg Prod.snd equal⟩
  isUnterminated := congrArg Row.isUnterminated same

theorem compile_of_rows {text other : String}
    (same : (outline text.toList).rows = (outline other.toList).rows) (sequence : Sequence) :
    compile text = .ok sequence ↔ compile other = .ok sequence := by
  rw [← row_busyLines, ← row_busyLines, ← List.forall₂_eq_eq_eq, List.forall₂_map_left_iff,
    List.forall₂_map_right_iff] at same
  have lines : List.Forall₂ (Line.Corresponds (· = ·) fun _ _ => True) (busyLines text)
      (busyLines other) := same.imp fun _ _ equal => ⟨alike_of_row equal, trivial⟩
  exact (compile_agree isLikeness_eq lines).ok_iff (fun _ _ alike => alike.eq) sequence

theorem allClosed_iff (text : String) :
    AllClosed text ↔ ∀ row ∈ (outline text.toList).rows, row.isUnterminated = false := by
  have said : AllClosed text ↔ ∀ line ∈ lines text, line.isUnterminated = false := by
    simpa [AllClosed] using not_congr (@exists_isUnterminated text).symm
  rw [said, ← rows_outline, List.forall_mem_map]
  refine ⟨fun closed line member => closed line (List.mem_filter.mp member).1,
    fun closed line member => ?_⟩
  by_cases blank : line.isBlank = true
  · simpa using (Bool.and_eq_true_iff.mp blank).2
  · exact closed line (List.mem_filter.mpr ⟨member, by simpa using blank⟩)

theorem unterminated_mem_placeFrom {found : List Lexeme} {lexeme : Lexeme} (member : lexeme ∈ found)
    (unclosed : lexeme.reading = .unterminated) (position : Position) :
    ∃ number, .unterminated number ∈ placeFrom position found := by
  induction found generalizing position with
  | nil => cases member
  | cons first more ih =>
    rcases List.mem_cons.mp member with rfl | member
    · obtain ⟨span, reading⟩ := lexeme
      cases unclosed
      exact ⟨position.line, List.mem_cons_self⟩
    · obtain ⟨number, found⟩ := ih member (position.after first)
      exact ⟨number, List.mem_cons_of_mem _ found⟩

/-! ## Spacing in outlines -/

section

variable {span after : List Char} {reading : Reading} {takes : Char → Bool}

theorem outline_nil : outline [] = .empty := by
  rw [outline, lexemes]
  rfl

theorem outline_append (spells : Spells span reading takes) (stops : Stops takes after) :
    outline (span ++ after) = (outline after).add reading := by
  rw [outline, lexemes_append spells stops]
  rfl

theorem outline_run (blanks : ∀ c ∈ span, isBlankChar c = true) (stops : Stops isBlankChar after) :
    outline (span ++ after) = outline after := by
  cases span with
  | nil => rfl
  | cons first rest =>
    obtain ⟨blank, blanks⟩ := List.forall_mem_cons.mp blanks
    exact outline_append (.blank blank blanks) stops

theorem outline_blanks (blanks : ∀ c ∈ span, isBlankChar c = true) (after : List Char) :
    outline (span ++ after) = outline after := by
  -- The run goes on as long as blanks follow.
  obtain ⟨run, rest, rfl, more, stops⟩ := exists_run isBlankChar after
  rw [outline_run more stops, ← List.append_assoc]
  exact outline_run (List.forall_mem_append.mpr ⟨blanks, more⟩) stops

theorem outline_comment {text : List Char} (inLine : InLine text)
    (stops : Stops (!isLineEnd ·) after) : outline ('/' :: '/' :: text ++ after) = outline after :=
  outline_append (.comment inLine) stops

theorem outline_lineEnd {c : Char} (ends : isLineEnd c = true) (after : List Char) :
    outline (c :: after) = ⟨.empty, (outline after).rows⟩ := by
  rcases isLineEnd_iff.mp ends with rfl | rfl
  · exact outline_append .lineFeed (stops_nothing after)
  · rcases eq_cons_or_stops '\n' after with ⟨more, rfl⟩ | stops
    · -- Both characters are one line end, or the second is the end of a blank line.
      have feed : outline ('\n' :: more) = ⟨.empty, (outline more).rows⟩ :=
        outline_append .lineFeed (stops_nothing more)
      rw [feed]
      exact outline_append .returnFeed (stops_nothing more)
    · exact outline_append .carriageReturn stops

theorem rows_lineEnds (ends : ∀ c ∈ span, isLineEnd c = true) (after : List Char) :
    (outline (span ++ after)).rows = (outline after).rows := by
  induction span with
  | nil => rfl
  | cons c more ih =>
    obtain ⟨here, later⟩ := List.forall_mem_cons.mp ends
    rw [List.cons_append, outline_lineEnd here]
    exact ih later

theorem outline_lineEnds (nonempty : span ≠ []) (ends : ∀ c ∈ span, isLineEnd c = true)
    (after : List Char) : outline (span ++ after) = ⟨.empty, (outline after).rows⟩ := by
  obtain ⟨c, more, rfl⟩ := List.exists_cons_of_ne_nil nonempty
  obtain ⟨here, later⟩ := List.forall_mem_cons.mp ends
  rw [List.cons_append, outline_lineEnd here, rows_lineEnds later]

/-- Blanks are taken by blanks and by comments only. -/
theorem Spells.takes_blank (spells : Spells span reading takes) (closed : reading ≠ .unterminated) :
    (∀ c ∈ span, isBlankChar c = true) ∨
      (∃ text, span = '/' :: '/' :: text ∧ InLine text ∧ takes = (!isLineEnd ·)) ∨
      ∀ c, isBlankChar c = true → takes c = false := by
  have refuses {takes : Char → Bool} (space : takes ' ' = false) (tab : takes '\t' = false) :
      ∀ c, isBlankChar c = true → takes c = false := by
    intro c blank
    simp only [isBlankChar, Bool.or_eq_true, beq_iff_eq] at blank
    rcases blank with rfl | rfl
    · exact space
    · exact tab
  cases spells with
  | blank blank blanks => exact .inl (List.forall_mem_cons.mpr ⟨blank, blanks⟩)
  | comment inLine => exact .inr (.inl ⟨_, rfl, inLine, rfl⟩)
  | unterminated => exact absurd rfl closed
  | _ => exact .inr (.inr (refuses rfl rfl))

/-- What does not matter by itself does not matter behind a lexeme, if a blank sets it off. -/
theorem Spells.outline_spaced (spells : Spells span reading takes) (stops : Stops takes after)
    (closed : reading ≠ .unterminated) {run : List Char} (inLine : InLine run)
    (setOff : ∀ c ∈ run.head?, isBlankChar c = true)
    (same : outline (run ++ after) = outline after) :
    outline (span ++ (run ++ after)) = outline (span ++ after) := by
  rcases spells.takes_blank closed with blanks | ⟨text, rfl, inside, rfl⟩ | refuses
  · rw [outline_blanks blanks, outline_blanks blanks, same]
  · have longer : InLine (text ++ run) := inside.append inLine
    rw [outline_comment inside stops, ← outline_comment longer stops]
    simp
  · have set : Stops takes (run ++ after) := by
      cases run with
      | nil => exact stops
      | cons c more => exact stops_cons.mpr (refuses c (setOff c rfl))
    rw [outline_append spells set, outline_append spells stops, same]

theorem Spells.outline_ended (spells : Spells span reading takes) {run : List Char}
    (ends : ∀ c ∈ run, isLineEnd c = true)
    (behind : Position.isLineEndReading reading = true ∨ after = []) :
    outline (span ++ (run ++ after)) = outline (span ++ after) := by
  cases isEnd : Position.isLineEndReading reading with
  | true =>
    have lineEnds : ∀ c ∈ span, isLineEnd c = true := by
      obtain ⟨-, rfl | rfl | ⟨rfl, -⟩⟩ := spells.lineEnd isEnd <;> simp [isLineEnd]
    rw [outline_lineEnds spells.ne_nil lineEnds, rows_lineEnds ends,
      outline_lineEnds spells.ne_nil lineEnds]
  | false =>
    cases behind.resolve_left (by simp [isEnd])
    rw [List.append_nil]
    cases run with
    | nil => rw [List.append_nil]
    | cons c more =>
      have stops : Stops takes (c :: more) :=
        stops_cons.mpr ((spells.inLine isEnd).2.of_isLineEnd (ends c List.mem_cons_self))
      have alone := outline_lineEnds (List.cons_ne_nil c more) ends []
      rw [List.append_nil, outline_nil] at alone
      rw [outline_append spells stops, outline_append spells (stops_nil takes), alone, outline_nil]
      rfl

end

/-! ## Texts with more spacing -/

theorem Stops.of_head {takes : Char → Bool} {span after other : List Char} (nonempty : span ≠ [])
    (stops : Stops takes (span ++ after)) : Stops takes (span ++ other) := by
  obtain ⟨c, more, rfl⟩ := List.exists_cons_of_ne_nil nonempty
  exact stops_cons.mpr (stops_cons.mp stops)

/-- Nothing in front of a lexeme is read otherwise because of what stands behind it. -/
theorem outline_behind {text other : List Char} {front back : List Lexeme} {lexeme : Lexeme}
    (cut : lexemes text = front ++ lexeme :: back)
    (same : outline (lexeme.span ++ other) = outline (lexeme.span ++ back.flatMap Lexeme.span)) :
    outline (front.flatMap Lexeme.span ++ (lexeme.span ++ other)) = outline text := by
  have nonempty : lexeme.span ≠ [] := by
    obtain ⟨takes, spells, -⟩ := spells_of_cut cut
    exact spells.ne_nil
  -- Every lexeme in front of it is followed by the same character as before.
  induction front generalizing text with
  | nil =>
    rw [List.nil_append] at cut
    rw [List.flatMap_nil, List.nil_append, same, ← List.flatMap_cons, ← cut, flatMap_span_lexemes]
  | cons first more ih =>
    rw [List.cons_append] at cut
    obtain ⟨after, takes, rfl, spells, stops, rest⟩ := lexemes_eq_cons.mp cut
    have whole := flatMap_span_lexemes after
    rw [rest, List.flatMap_append, List.flatMap_cons, ← List.append_assoc] at whole
    have begins : more.flatMap Lexeme.span ++ lexeme.span ≠ [] :=
      List.append_ne_nil_of_right_ne_nil _ nonempty
    have stops' : Stops takes (more.flatMap Lexeme.span ++ (lexeme.span ++ other)) := by
      rw [← List.append_assoc]
      rw [← whole] at stops
      exact stops.of_head begins
    rw [List.flatMap_cons, List.append_assoc, outline_append spells stops', ih rest,
      outline_append spells stops]

/-- A run of characters does not matter if it does not by itself and not behind what is in front of
it. -/
theorem Inserts.rows {text other : String} {front back : List Lexeme} {run : List Char}
    (inserts : Inserts text front run back other)
    (alone : (outline (run ++ back.flatMap Lexeme.span)).rows =
      (outline (back.flatMap Lexeme.span)).rows)
    (behind : ∀ last ∈ front.getLast?, ∀ takes, Spells last.span last.reading takes →
      Stops takes (back.flatMap Lexeme.span) →
      outline (last.span ++ (run ++ back.flatMap Lexeme.span)) =
        outline (last.span ++ back.flatMap Lexeme.span)) :
    (outline other.toList).rows = (outline text.toList).rows := by
  obtain ⟨cut, whole⟩ := inserts
  rw [whole]
  -- With nothing in front the rows are the same, but a line end may have opened another line.
  rcases List.eq_nil_or_concat front with rfl | ⟨earlier, last, rfl⟩
  · rw [List.flatMap_nil, List.nil_append, alone, ← flatMap_span_lexemes text.toList, cut,
      List.nil_append]
  · have split : lexemes text.toList = earlier ++ last :: back := by rw [cut]; simp
    obtain ⟨takes, spells, stops⟩ := spells_of_cut split
    have same := outline_behind split (behind last (by simp) takes spells stops)
    simp only [List.concat_eq_append, List.flatMap_append, List.flatMap_singleton,
      List.append_assoc]
    rw [same]

theorem AllClosed.reading_ne {text : String} (closed : AllClosed text) {lexeme : Lexeme}
    (member : lexeme ∈ lexemes text.toList) : lexeme.reading ≠ .unterminated := fun unclosed =>
  let ⟨number, found⟩ := unterminated_mem_placeFrom member unclosed .start
  closed number found

theorem stops_of_isLineEnd {text : List Char} {front back : List Lexeme}
    (cut : lexemes text = front ++ back) (ends : ∀ next ∈ back.head?, next.isLineEnd = true) :
    Stops (!isLineEnd ·) (back.flatMap Lexeme.span) := by
  cases back with
  | nil => exact stops_nil _
  | cons next more =>
    obtain ⟨takes, spells, -⟩ := spells_of_cut cut
    rw [List.flatMap_cons]
    obtain ⟨-, same | same | ⟨same, -⟩⟩ := spells.lineEnd (ends next rfl) <;>
      exact same ▸ stops_cons.mpr rfl

theorem Spaced.rows {text other : String} (closed : AllClosed text) (spaced : Spaced text other) :
    (outline other.toList).rows = (outline text.toList).rows := by
  have closes {front back : List Lexeme} {run : List Char}
      (inserts : Inserts text front run back other) {last : Lexeme}
      (member : last ∈ front.getLast?) : last.reading ≠ .unterminated :=
    closed.reading_ne (inserts.cut ▸ List.mem_append_left back (List.mem_of_mem_getLast? member))
  -- An unterminated string would swallow what is inserted, so all are closed.
  cases spaced with
  | @blanks front back run inserts blanks =>
    have same := outline_blanks blanks (back.flatMap Lexeme.span)
    have refuses : Refuses isBlankChar := ⟨rfl, rfl⟩
    refine inserts.rows (congrArg Outline.rows same) fun last member takes spells stops => ?_
    exact spells.outline_spaced stops (closes inserts member) (refuses.inLine blanks)
      (fun c first => blanks c (List.mem_of_mem_head? first)) same
  | @comment front back comment inserts inLine ends =>
    have same : outline (' ' :: '/' :: '/' :: comment ++ back.flatMap Lexeme.span) =
        outline (back.flatMap Lexeme.span) :=
      (outline_blanks (List.forall_mem_singleton.mpr rfl : ∀ c ∈ [' '], isBlankChar c = true)
        _).trans (outline_comment inLine (stops_of_isLineEnd inserts.cut ends))
    refine inserts.rows (congrArg Outline.rows same) fun last member takes spells stops => ?_
    refine spells.outline_spaced stops (closes inserts member) ?_ ?_ same
    · exact .cons rfl (.cons rfl (.cons rfl inLine))
    · rintro c ⟨⟩
      rfl
  | @lineEnds front back run inserts ends place =>
    refine inserts.rows (rows_lineEnds ends _) fun last member takes spells stops => ?_
    refine spells.outline_ended ends ?_
    rcases place with rfl | rfl | ⟨other, member', isEnd⟩
    · cases member
    · exact .inr rfl
    · cases Option.mem_unique member member'
      exact .inl isEnd

/-- Texts that differ in spacing only compile to the same sequence, if to any. -/
theorem compile_spaced {text other : String} (closed : AllClosed text)
    (spaced : Relation.ReflTransGen Spaced text other) (sequence : Sequence) :
    compile text = .ok sequence ↔ compile other = .ok sequence := by
  have same : (outline other.toList).rows = (outline text.toList).rows := by
    induction spaced with
    | refl => rfl
    | tail _ step ih =>
      -- Rows tell whether strings are closed, so the next step starts from such a text too.
      have closed' := (allClosed_iff _).mpr (ih ▸ (allClosed_iff text).mp closed)
      exact (step.rows closed').trans ih
  exact compile_of_rows same.symm sequence

theorem inserts_take (text : String) (count : Nat) (run : List Char) {other : String}
    (whole : other.toList = ((lexemes text.toList).take count).flatMap Lexeme.span ++
      (run ++ ((lexemes text.toList).drop count).flatMap Lexeme.span)) :
    Inserts text ((lexemes text.toList).take count) run ((lexemes text.toList).drop count) other :=
  ⟨(List.take_append_drop count _).symm, whole⟩

/-- A comment behind the first line, an empty line and an indent. -/
theorem compile_spaced_loop :
    AllClosed loopText ∧
      Relation.ReflTransGen Spaced loopText "while (Custom(`x`)) // a ` b\n\r\n\tbreak\nendwhile" ∧
      compile "while (Custom(`x`)) // a ` b\n\r\n\tbreak\nendwhile" = .ok loopSequence := by
  have closed : AllClosed loopText := by
    rw [allClosed_iff, ← rows_outline, lines_loopText]
    decide
  have inLine : InLine [' ', 'a', ' ', '`', ' ', 'b'] := by
    simp [InLine, isLineEnd]
  have comment : Spaced loopText "while (Custom(`x`)) // a ` b\nbreak\nendwhile" :=
    .comment (inserts_take loopText 8 _ (by decide +kernel)) inLine (by decide +kernel)
  have lineEnd : Spaced "while (Custom(`x`)) // a ` b\nbreak\nendwhile"
      "while (Custom(`x`)) // a ` b\n\r\nbreak\nendwhile" :=
    .lineEnds (inserts_take _ 11 ['\r', '\n'] (by decide +kernel)) (by simp [isLineEnd])
      (by decide +kernel)
  have indent : Spaced "while (Custom(`x`)) // a ` b\n\r\nbreak\nendwhile"
      "while (Custom(`x`)) // a ` b\n\r\n\tbreak\nendwhile" :=
    .blanks (inserts_take _ 12 ['\t'] (by decide +kernel)) (by simp [isBlankChar])
  have spaced := ((Relation.ReflTransGen.single comment).tail lineEnd).tail indent
  exact ⟨closed, spaced, (compile_spaced closed spaced loopSequence).mp compile_loopText⟩

end InputTape.Script
