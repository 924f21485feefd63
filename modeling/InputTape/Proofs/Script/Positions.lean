import InputTape.Proofs.Script.LineEnds
import Mathlib.Data.List.DropRight

/-! Where tokens stand.

Every character of a text belongs to one item. The line of an item is counted from the line ends in
front of it, its column from the characters behind the last of them, and what it says is what
stands there.
-/

set_option autoImplicit false

namespace InputTape.Script

/-- How many line ends a text has, each counted once. -/
def lineEndCount (text : List Char) : Nat := (unifyLineEnds text).count '\n'

def lastLine (text : List Char) : List Char := text.rtakeWhile (!isLineEnd ·)

def TokenKind.textOf (span : List Char) : TokenKind → List Char
  | .lineEnd => ['\n']
  | .string => (span.drop 1).dropLast
  | .variable => span.drop 1
  | _ => span

def TokenKind.run? : TokenKind → Option (List Char → Char → Bool)
  | .blank => some fun _ c => isBlankChar c
  | .comment => some fun _ c => !isLineEnd c
  | .word | .keyword _ => some fun _ c => isWordChar c
  | .number => some fun run c => c.isDigit || c == '.' && !run.contains '.'
  | _ => none

/-- Every character goes on with those in front of it, and what follows does not. -/
structure IsMaximal (goesOn : List Char → Char → Bool) (span after : List Char) : Prop where
  inside : ∀ front c back, front ≠ [] → span = front ++ c :: back → goesOn front c = true
  stops : Stops (goesOn span) after

/-- A quote that no other follows on its line. -/
def OpensUnclosed (text : List Char) : Prop :=
  ∃ more, text = '`' :: more ∧ '`' ∉ more.takeWhile (!isLineEnd ·)

def Item.reading : Item → Reading
  | .token found => .token found.kind found.text.toList
  | .unterminated _ => .unterminated

def Item.line : Item → Nat
  | .token found => found.line
  | .unterminated number => number

/-- An item stands for a span of the text, between what is in front of it and behind it. -/
structure Item.Stands (item : Item) (before span after : List Char) : Prop where
  nonempty : span ≠ []
  spelled : ∃ takes, Spells span item.reading takes ∧ Stops takes after
  line : item.line = 1 + lineEndCount before
  column : ∀ token, item = .token token → token.column = 1 + (lastLine before).length
  text : ∀ token, item = .token token → token.text.toList = token.kind.textOf span
  runs : ∀ token goesOn, item = .token token → token.kind.run? = some goesOn →
    IsMaximal goesOn span after
  unclosed : item.reading = .unterminated ↔ OpensUnclosed (span ++ after)
  /-- Apart from strings that are not closed, quotes stand in strings and comments only. -/
  quotes : '`' ∈ span → item.reading = .unterminated ∨
    ∃ text, item.reading = .token .string text ∨ item.reading = .token .comment text

inductive AllStand : List Char → List Item → List (List Char) → Prop where
  | nil {before : List Char} : AllStand before [] []
  | cons {before span : List Char} {item : Item} {items : List Item} {spans : List (List Char)} :
      item.Stands before span spans.flatten → AllStand (before ++ span) items spans →
      AllStand before (item :: items) (span :: spans)

section

variable {span after : List Char} {reading : Reading} {takes : Char → Bool}

theorem Stops.of_append {front back : List Char} (stops : Stops takes (front ++ back)) :
    Stops takes front := by
  cases front with
  | nil => exact stops_nil takes
  | cons c more => exact stops

/-! ## What is read -/

theorem Spells.text {kind : TokenKind} {text : List Char}
    (spells : Spells span (.token kind text) takes) : text = kind.textOf span := by
  generalize same : Reading.token kind text = reading at spells
  cases spells with
  | string =>
    cases same
    simp [TokenKind.textOf]
  | mark marked =>
    cases same
    have all : ∀ mark ∈ marks, [mark.1] = mark.2.textOf [mark.1] := by decide
    exact all _ marked
  | word =>
    unfold wordKind at same
    split at same <;> cases same <;> rfl
  | unterminated => cases same
  | _ =>
    cases same
    rfl

theorem Spells.quoted {body : List Char} (spells : Spells ('`' :: body) reading takes) :
    (∃ content, body = content ++ ['`'] ∧ InLine content ∧ reading = .token .string content) ∨
      reading = .unterminated ∧ (∀ c ∈ body, isQuotable c = true) ∧ takes = (!isLineEnd ·) := by
  cases spells with
  | @string content quotable =>
    have inLine : InLine content := Refuses.inLine ⟨rfl, rfl⟩ quotable
    exact .inl ⟨content, rfl, inLine, rfl⟩
  | unterminated quotable => exact .inr ⟨rfl, quotable, rfl⟩
  | blank blank => cases blank
  | mark marked => simp [marks] at marked
  | whole digit | point digit => cases digit
  | word letter => cases letter
  | unknown unopened => exact absurd (by decide) unopened

theorem Spells.unclosed (spells : Spells span reading takes) (stops : Stops takes after) :
    reading = .unterminated ↔ OpensUnclosed (span ++ after) := by
  constructor
  · rintro rfl
    generalize same : Reading.unterminated = reading at spells
    cases spells with
    | @unterminated content quotable =>
      have inLine : ∀ c ∈ content, (!isLineEnd c) = true := fun c member => by
        simpa using (Bool.and_eq_true_iff.mp (quotable c member)).2
      refine ⟨content ++ after, rfl, ?_⟩
      rw [(takeWhile_run inLine stops).1]
      exact fun member => absurd (quotable _ member) (by decide)
    | _ => cases same
  · rintro ⟨more, same, unclosed⟩
    obtain ⟨first, body, rfl⟩ := List.exists_cons_of_ne_nil spells.ne_nil
    rw [List.cons_append] at same
    obtain ⟨rfl, rfl⟩ := List.cons.inj same
    rcases spells.quoted with ⟨content, rfl, inLine, -⟩ | ⟨rfl, -⟩
    · refine absurd ?_ unclosed
      rw [List.append_assoc, List.takeWhile_append_of_pos (by simpa [InLine] using inLine)]
      exact List.mem_append_right _ List.mem_cons_self
    · rfl

theorem Spells.quotes (spells : Spells span reading takes) (quote : '`' ∈ span) :
    reading = .unterminated ∨
      ∃ text, reading = .token .string text ∨ reading = .token .comment text := by
  have noWord {rest : List Char} (word : ∀ c ∈ rest, isWordChar c = true) : '`' ∉ rest :=
    fun member => by cases word _ member
  have noDigit {rest : List Char} (digits : ∀ c ∈ rest, c.isDigit = true) : '`' ∉ rest :=
    noWord fun c member => isWordChar_of_isDigit (digits c member)
  -- Outside of strings and comments no character is a quote.
  cases spells with
  | string => exact .inr ⟨_, .inl rfl⟩
  | comment => exact .inr ⟨_, .inr rfl⟩
  | unterminated => exact .inl rfl
  | lineFeed | carriageReturn | returnFeed | slash | assign | equal | bang | notEqual =>
    simp at quote
  | blank blank blanks =>
    have all : ∀ c ∈ _ :: _, isBlankChar c = true := List.forall_mem_cons.mpr ⟨blank, blanks⟩
    cases all _ quote
  | mark marked =>
    cases List.mem_singleton.mp quote
    simp [marks] at marked
  | named letter word =>
    rcases List.mem_cons.mp quote with same | quote
    · cases same
    · exact absurd quote (noWord (List.forall_mem_cons.mpr ⟨isWordChar_of_isLetter letter, word⟩))
  | nameless word =>
    rcases List.mem_cons.mp quote with same | quote
    · cases same
    · exact absurd quote (noWord word)
  | whole digit digits =>
    exact absurd quote (noDigit (List.forall_mem_cons.mpr ⟨digit, digits⟩))
  | point digit digits further =>
    rcases List.mem_cons.mp quote with rfl | quote
    · cases digit
    · rcases List.mem_append.mp quote with quote | quote
      · exact absurd quote (noDigit digits)
      · rcases List.mem_cons.mp quote with same | quote
        · cases same
        · exact absurd quote (noDigit further)
  | word letter word =>
    exact absurd quote (noWord (List.forall_mem_cons.mpr ⟨isWordChar_of_isLetter letter, word⟩))
  | unknown unopened =>
    cases List.mem_singleton.mp quote
    exact absurd (by decide) unopened

theorem IsMaximal.of_class {takes : Char → Bool} {first : Char} {rest : List Char}
    (inside : ∀ c ∈ rest, takes c = true) (stops : Stops takes after) :
    IsMaximal (fun _ c => takes c) (first :: rest) after where
  inside front c back nonempty same := by
    obtain ⟨head, more, rfl⟩ := List.exists_cons_of_ne_nil nonempty
    obtain ⟨rfl, rfl⟩ := List.cons.inj same
    exact inside c (by simp)
  stops := stops

theorem Spells.isMaximal {kind : TokenKind} {text : List Char}
    (spells : Spells span (.token kind text) takes) (stops : Stops takes after)
    {goesOn : List Char → Char → Bool} (run : kind.run? = some goesOn) :
    IsMaximal goesOn span after := by
  generalize same : Reading.token kind text = reading at spells
  cases spells with
  | blank blank blanks =>
    cases same
    cases run
    exact .of_class blanks stops
  | comment inLine =>
    cases same
    cases run
    exact .of_class (by simpa [InLine] using ⟨rfl, inLine⟩) stops
  | whole digit digits =>
    cases same
    cases run
    refine ⟨fun front c back nonempty same => ?_, fun c next => ?_⟩
    · have digit :=
        (IsMaximal.of_class digits (stops_nil Char.isDigit)).inside front c back nonempty same
      simp [digit]
    · obtain ⟨noDigit, noPoint⟩ := Bool.or_eq_false_iff.mp (stops c next)
      simp [noDigit, noPoint]
  | @point first rest places digit digits further =>
    cases same
    cases run
    -- The one point there is has no other in front of it.
    have noPoint {run : List Char} (digits : ∀ c ∈ run, c.isDigit = true) : run.count '.' = 0 :=
      List.count_eq_zero.mpr fun member => by cases digits _ member
    have once : (first :: (rest ++ '.' :: places)).count '.' = 1 := by
      rw [← List.cons_append, List.count_append, List.count_cons_self, noPoint further,
        noPoint (List.forall_mem_cons.mpr ⟨digit, digits⟩)]
    have either : ∀ c ∈ rest ++ '.' :: places, (c.isDigit || c == '.') = true :=
      List.forall_mem_append.mpr ⟨fun c member => by simp [digits c member],
        List.forall_mem_cons.mpr ⟨rfl, fun c member => by simp [further c member]⟩⟩
    refine ⟨fun front c back nonempty same => ?_, fun c next => by simp [stops c next]⟩
    have found := (IsMaximal.of_class either (stops_nil _)).inside front c back nonempty same
    rcases Bool.or_eq_true_iff.mp found with digit | point
    · simp [digit]
    · cases eq_of_beq point
      rw [same, List.count_append, List.count_cons_self] at once
      simp [List.count_eq_zero.mp (by omega : front.count '.' = 0)]
  | word letter word =>
    unfold wordKind at same
    split at same <;> cases same <;> cases run <;> exact .of_class word stops
  | mark marked =>
    cases same
    have all : ∀ mark ∈ marks, mark.2.run?.isNone = true := by decide
    have none := all _ marked
    rw [run] at none
    cases none
  | unterminated => cases same
  | _ =>
    cases same
    cases run

/-! ## Where it stands -/

theorem Spells.lineEndCount_append (spells : Spells span reading takes)
    (stops : Stops takes after) : lineEndCount (span ++ after) =
      (if Position.isLineEndReading reading then 1 else 0) + lineEndCount after := by
  rw [lineEndCount, (spells.unify stops).1, List.count_append, lineEndCount]
  congr 1
  cases ends : Position.isLineEndReading reading with
  | true =>
    obtain ⟨-, rfl | rfl | ⟨rfl, -⟩⟩ := spells.lineEnd ends <;> rfl
  | false =>
    have inLine := (spells.inLine ends).1
    have same := unifyLineEnds_append inLine []
    rw [List.append_nil] at same
    rw [same]
    have : '\n' ∉ span := fun member => by cases inLine _ member
    simp [unifyLineEnds, List.count_eq_zero_of_not_mem this]

theorem line_foldl_after {text : List Char} {front back : List Lexeme}
    (cut : lexemes text = front ++ back) (position : Position) :
    (front.foldl Position.after position).line =
      position.line + lineEndCount (front.flatMap Lexeme.span) := by
  induction front generalizing text position with
  | nil => rfl
  | cons lexeme more ih =>
    rw [List.cons_append] at cut
    obtain ⟨after, takes, -, spells, stops, rest⟩ := lexemes_eq_cons.mp cut
    have same := flatMap_span_lexemes after
    rw [rest, List.flatMap_append] at same
    rw [← same] at stops
    rw [List.foldl_cons, ih rest, List.flatMap_cons, spells.lineEndCount_append stops.of_append,
      ← Nat.add_assoc, Position.after]
    split <;> rfl

theorem lastLine_append_inLine (before : List Char) (inLine : InLine span) :
    lastLine (before ++ span) = lastLine before ++ span := by
  have within : ∀ c ∈ span.reverse, (!isLineEnd c) = true := by simpa [InLine] using inLine
  simp only [lastLine, List.rtakeWhile, List.reverse_append, List.reverse_reverse,
    List.takeWhile_append_of_pos within]

theorem lastLine_concat (before : List Char) {c : Char} (ends : isLineEnd c = true) :
    lastLine (before ++ [c]) = [] :=
  List.rtakeWhile_concat_neg _ _ _ (by simp [ends])

theorem column_foldl_after {front : List Lexeme}
    (spelled : ∀ lexeme ∈ front, ∃ takes, Spells lexeme.span lexeme.reading takes) :
    (front.foldl Position.after .start).column =
      1 + (lastLine (front.flatMap Lexeme.span)).length := by
  induction front using List.reverseRecOn with
  | nil => rfl
  | append_singleton front lexeme ih =>
    obtain ⟨earlier, here⟩ := List.forall_mem_append.mp spelled
    obtain ⟨takes, spells⟩ := here lexeme List.mem_cons_self
    rw [List.foldl_append, List.foldl_cons, List.foldl_nil, List.flatMap_append,
      List.flatMap_singleton, Position.after]
    split
    · next ends =>
      obtain ⟨-, same | same | ⟨same, -⟩⟩ := spells.lineEnd ends <;> rw [same]
      · rw [lastLine_concat _ rfl, List.length_nil]
      · rw [← List.singleton_append, ← List.append_assoc, lastLine_concat _ rfl, List.length_nil]
      · rw [lastLine_concat _ rfl, List.length_nil]
    · next other =>
      rw [lastLine_append_inLine _ (spells.inLine (by simpa using other)).1, ih earlier,
        List.length_append, Nat.add_assoc]

end

/-! ## Items -/

def Lexeme.itemAt (lexeme : Lexeme) (position : Position) : Item :=
  match lexeme.reading with
  | .token kind text => .token ⟨kind, String.ofList text, position.line, position.column⟩
  | .unterminated => .unterminated position.line

theorem Lexeme.reading_itemAt (lexeme : Lexeme) (position : Position) :
    (lexeme.itemAt position).reading = lexeme.reading := by
  obtain ⟨span, _ | _⟩ := lexeme
  · exact congrArg (Reading.token _) String.toList_ofList
  · rfl

theorem Lexeme.line_itemAt (lexeme : Lexeme) (position : Position) :
    (lexeme.itemAt position).line = position.line := by
  obtain ⟨span, _ | _⟩ := lexeme <;> rfl

theorem Lexeme.column_itemAt {lexeme : Lexeme} {position : Position} {token : Token}
    (found : lexeme.itemAt position = .token token) : token.column = position.column := by
  obtain ⟨span, _ | _⟩ := lexeme
  · cases found
    rfl
  · cases found

theorem Spells.stands {lexeme : Lexeme} {before after : List Char} {position : Position}
    {takes : Char → Bool} (spells : Spells lexeme.span lexeme.reading takes)
    (stops : Stops takes after) (line : position.line = 1 + lineEndCount before)
    (column : position.column = 1 + (lastLine before).length) :
    (lexeme.itemAt position).Stands before lexeme.span after := by
  have unclosed := spells.unclosed stops
  have quotes := spells.quotes
  rw [← lexeme.reading_itemAt position] at spells unclosed quotes
  refine ⟨spells.ne_nil, ⟨takes, spells, stops⟩, (lexeme.line_itemAt position).trans line, ?_, ?_,
    ?_, unclosed, quotes⟩
  · intro token found
    exact (Lexeme.column_itemAt found).trans column
  · intro token found
    rw [found] at spells
    exact spells.text
  · intro token goesOn found run
    rw [found] at spells
    exact spells.isMaximal stops run

theorem allStand_placeFrom {text : List Char} {front back : List Lexeme}
    (cut : lexemes text = front ++ back) :
    AllStand (front.flatMap Lexeme.span) (placeFrom (front.foldl Position.after .start) back)
      (back.map Lexeme.span) := by
  induction back generalizing front with
  | nil => exact .nil
  | cons lexeme more ih =>
    have longer := ih (by rw [cut, List.append_assoc]; rfl : _ = (front ++ [lexeme]) ++ more)
    rw [List.foldl_append, List.flatMap_append, List.flatMap_singleton] at longer
    obtain ⟨takes, spells, stops⟩ := spells_of_cut cut
    refine .cons ?_ longer
    rw [← List.flatMap_def]
    refine spells.stands stops ?_ ?_
    · rw [line_foldl_after cut]
      rfl
    · exact column_foldl_after fun other member =>
        spells_of_mem_lexemes (cut ▸ List.mem_append_left _ member)

/-- Items stand one behind the other for the whole text. -/
theorem items_stand (text : String) :
    ((lexemes text.toList).map Lexeme.span).flatten = text.toList ∧
      AllStand [] (items text) ((lexemes text.toList).map Lexeme.span) := by
  refine ⟨?_, ?_⟩
  · rw [← List.flatMap_def, flatMap_span_lexemes]
  · exact @allStand_placeFrom text.toList [] _ rfl

end InputTape.Script
