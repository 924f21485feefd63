import InputTape.Proofs.Script.Names
import Mathlib.Data.List.TakeWhile

/-! The lexical grammar, apart from how text is cut.

`Spells` says of every lexeme what its characters are, what they are read as, and which characters
it would take besides. Text is cut by that: a lexeme is spelled, and what follows is none that it
would take.
-/

set_option autoImplicit false

namespace InputTape.Script

def openers : List Char :=
  [' ', '\t', '\n', '\r', '/', '=', '!', '+', '-', '*', '(', ')', ',', '`', '$']

def marks : List (Char × TokenKind) :=
  [('+', .operator .plus), ('-', .operator .minus), ('*', .operator .times), ('(', .openParen),
    (')', .closeParen), (',', .comma)]

def isQuotable (c : Char) : Bool := c != '`' && !isLineEnd c

def nothing (_ : Char) : Bool := false

/-- These characters are read so, and would take such characters besides. -/
inductive Spells : List Char → Reading → (Char → Bool) → Prop where
  | blank {first : Char} {rest : List Char} : isBlankChar first = true →
      (∀ c ∈ rest, isBlankChar c = true) →
      Spells (first :: rest) (.token .blank (first :: rest)) isBlankChar
  | lineFeed : Spells ['\n'] (.token .lineEnd ['\n']) nothing
  | carriageReturn : Spells ['\r'] (.token .lineEnd ['\n']) (· == '\n')
  | returnFeed : Spells ['\r', '\n'] (.token .lineEnd ['\n']) nothing
  | slash : Spells ['/'] (.token (.operator .divide) ['/']) (· == '/')
  | comment {text : List Char} : (∀ c ∈ text, isLineEnd c = false) →
      Spells ('/' :: '/' :: text) (.token .comment ('/' :: '/' :: text)) (!isLineEnd ·)
  | assign : Spells ['='] (.token (.operator .assign) ['=']) (· == '=')
  | equal : Spells ['=', '='] (.token (.operator .equal) ['=', '=']) nothing
  | bang : Spells ['!'] (.token .unknown ['!']) (· == '=')
  | notEqual : Spells ['!', '='] (.token (.operator .notEqual) ['!', '=']) nothing
  | mark {c : Char} {kind : TokenKind} : (c, kind) ∈ marks → Spells [c] (.token kind [c]) nothing
  | string {content : List Char} : (∀ c ∈ content, isQuotable c = true) →
      Spells ('`' :: (content ++ ['`'])) (.token .string content) nothing
  | unterminated {content : List Char} : (∀ c ∈ content, isQuotable c = true) →
      Spells ('`' :: content) .unterminated (!isLineEnd ·)
  | named {first : Char} {rest : List Char} : isLetter first = true →
      (∀ c ∈ rest, isWordChar c = true) →
      Spells ('$' :: first :: rest) (.token .variable (first :: rest)) isWordChar
  | nameless {name : List Char} : (∀ c ∈ name, isWordChar c = true) →
      (∀ c ∈ name.head?, c.isDigit = true) →
      Spells ('$' :: name) (.token .unknown ('$' :: name)) isWordChar
  | whole {first : Char} {rest : List Char} : first.isDigit = true →
      (∀ c ∈ rest, c.isDigit = true) →
      Spells (first :: rest) (.token .number (first :: rest)) fun c => c.isDigit || c == '.'
  | point {first : Char} {rest places : List Char} : first.isDigit = true →
      (∀ c ∈ rest, c.isDigit = true) → (∀ c ∈ places, c.isDigit = true) →
      Spells (first :: (rest ++ '.' :: places)) (.token .number (first :: (rest ++ '.' :: places)))
        Char.isDigit
  | word {first : Char} {rest : List Char} : isLetter first = true →
      (∀ c ∈ rest, isWordChar c = true) →
      Spells (first :: rest) (.token (wordKind (first :: rest)) (first :: rest)) isWordChar
  | unknown {c : Char} : c ∉ openers → c.isDigit = false → isLetter c = false →
      Spells [c] (.token .unknown [c]) nothing

/-- What follows does not begin with a character that would be taken. -/
def Stops (takes : Char → Bool) (after : List Char) : Prop := ∀ c ∈ after.head?, takes c = false

theorem stops_nil (takes : Char → Bool) : Stops takes [] := nofun

theorem stops_cons {takes : Char → Bool} {c : Char} {more : List Char} :
    Stops takes (c :: more) ↔ takes c = false := by
  simp [Stops]

theorem stops_nothing (after : List Char) : Stops nothing after := fun _ _ => rfl

/-! ## Every text begins with a lexeme -/

theorem exists_run (takes : Char → Bool) (rest : List Char) :
    ∃ run after, rest = run ++ after ∧ (∀ c ∈ run, takes c = true) ∧ Stops takes after := by
  refine ⟨rest.takeWhile takes, rest.dropWhile takes, List.takeWhile_append_dropWhile.symm,
    fun c => List.all_eq_true.mp List.all_takeWhile c, fun c first => ?_⟩
  rw [← List.find?_not_eq_head?_dropWhile] at first
  simpa using List.find?_some first

theorem eq_cons_or_stops (wanted : Char) (rest : List Char) :
    (∃ more, rest = wanted :: more) ∨ Stops (· == wanted) rest := by
  cases rest with
  | nil => exact .inr (stops_nil _)
  | cons c more =>
    by_cases same : c = wanted
    · exact .inl ⟨more, same ▸ rfl⟩
    · exact .inr (stops_cons.mpr (beq_eq_false_iff_ne.mpr same))

theorem isDigit_of_isWordChar {c : Char} (isWord : isWordChar c = true)
    (noLetter : isLetter c = false) : c.isDigit = true := by
  simp only [isWordChar, Char.isAlphanum, isLetter, Bool.or_eq_true, Bool.or_eq_false_iff] at *
  simp_all

theorem not_isDigit_of_isLetter {c : Char} (letter : isLetter c = true) : c.isDigit = false := by
  rw [← Bool.not_eq_true]
  intro digit
  obtain ⟨low, high⟩ : 48 ≤ c.toNat ∧ c.toNat ≤ 57 := by
    simpa [Char.isDigit, UInt32.le_iff_toNat_le] using digit
  change ((decide ('A'.val ≤ c.val ∧ c.val ≤ 'Z'.val) ||
    (decide ('a'.val ≤ c.val) && decide (c.val ≤ 'z'.val))) || c == '_') = true at letter
  simp only [Bool.or_eq_true, Bool.and_eq_true, decide_eq_true_eq, beq_iff_eq,
    UInt32.le_iff_toNat_le] at letter
  rcases letter with range | rfl
  · change (65 ≤ c.toNat ∧ c.toNat ≤ 90) ∨ (97 ≤ c.toNat ∧ c.toNat ≤ 122) at range
    omega
  · cases digit

def Begins (text : List Char) : Prop :=
  ∃ span after reading takes, text = span ++ after ∧ Spells span reading takes ∧ Stops takes after

theorem Spells.begins {span after : List Char} {reading : Reading} {takes : Char → Bool}
    (spells : Spells span reading takes) (stops : Stops takes after) : Begins (span ++ after) :=
  ⟨span, after, reading, takes, rfl, spells, stops⟩

theorem begins_string (rest : List Char) : Begins ('`' :: rest) := by
  obtain ⟨content, after, rfl, quotable, stops⟩ := exists_run isQuotable rest
  rcases eq_cons_or_stops '`' after with ⟨more, rfl⟩ | noQuote
  · have closed := (Spells.string quotable).begins (stops_nothing more)
    rwa [List.cons_append, List.append_assoc] at closed
  · refine (Spells.unterminated quotable).begins fun c next => ?_
    have other : (c == '`') = false := noQuote c next
    simpa [isQuotable, bne, other] using stops c next

theorem begins_name (rest : List Char) : Begins ('$' :: rest) := by
  obtain ⟨name, after, rfl, word, stops⟩ := exists_run isWordChar rest
  by_cases nameless : ∀ c ∈ name.head?, c.isDigit = true
  · exact (Spells.nameless word nameless).begins stops
  · cases name with
    | nil => exact absurd nofun nameless
    | cons first more =>
      obtain ⟨here, later⟩ := List.forall_mem_cons.mp word
      have letter : isLetter first = true := by
        rw [← Bool.not_eq_false]
        intro noLetter
        refine nameless fun c same => ?_
        cases same
        exact isDigit_of_isWordChar here noLetter
      exact (Spells.named letter later).begins stops

theorem begins_number {first : Char} (digit : first.isDigit = true) (rest : List Char) :
    Begins (first :: rest) := by
  obtain ⟨run, after, rfl, digits, stops⟩ := exists_run Char.isDigit rest
  rcases eq_cons_or_stops '.' after with ⟨more, rfl⟩ | noPoint
  · obtain ⟨places, after, rfl, further, ends⟩ := exists_run Char.isDigit more
    have pointed := (Spells.point digit digits further).begins ends
    rwa [List.cons_append, List.append_assoc] at pointed
  · exact (Spells.whole digit digits).begins fun c next =>
      Bool.or_eq_false_iff.mpr ⟨stops c next, noPoint c next⟩

theorem begins_cons (first : Char) (rest : List Char) : Begins (first :: rest) := by
  have blank (isBlank : isBlankChar first = true) : Begins (first :: rest) := by
    obtain ⟨run, after, rfl, blanks, stops⟩ := exists_run isBlankChar rest
    exact (Spells.blank isBlank blanks).begins stops
  have mark {kind : TokenKind} (marks : (first, kind) ∈ marks) : Begins (first :: rest) :=
    (Spells.mark marks).begins (stops_nothing rest)
  -- The first character decides, with the next one where a mark may have two.
  by_cases opens : first ∈ openers
  · simp only [openers, List.mem_cons, List.not_mem_nil, or_false] at opens
    rcases opens with rfl | rfl | rfl | rfl | rfl | rfl | rfl | rfl | rfl | rfl | rfl | rfl | rfl |
      rfl | rfl
    · exact blank rfl
    · exact blank rfl
    · exact Spells.lineFeed.begins (stops_nothing rest)
    · rcases eq_cons_or_stops '\n' rest with ⟨more, rfl⟩ | stops
      · exact Spells.returnFeed.begins (stops_nothing more)
      · exact Spells.carriageReturn.begins stops
    · rcases eq_cons_or_stops '/' rest with ⟨more, rfl⟩ | stops
      · obtain ⟨text, after, rfl, inLine, stops⟩ := exists_run (!isLineEnd ·) more
        exact (Spells.comment (by simpa using inLine)).begins stops
      · exact Spells.slash.begins stops
    · rcases eq_cons_or_stops '=' rest with ⟨more, rfl⟩ | stops
      · exact Spells.equal.begins (stops_nothing more)
      · exact Spells.assign.begins stops
    · rcases eq_cons_or_stops '=' rest with ⟨more, rfl⟩ | stops
      · exact Spells.notEqual.begins (stops_nothing more)
      · exact Spells.bang.begins stops
    · exact @mark (.operator .plus) (by simp [marks])
    · exact @mark (.operator .minus) (by simp [marks])
    · exact @mark (.operator .times) (by simp [marks])
    · exact @mark .openParen (by simp [marks])
    · exact @mark .closeParen (by simp [marks])
    · exact @mark .comma (by simp [marks])
    · exact begins_string rest
    · exact begins_name rest
  · by_cases digit : first.isDigit = true
    · exact begins_number digit rest
    · by_cases letter : isLetter first = true
      · obtain ⟨run, after, rfl, word, stops⟩ := exists_run isWordChar rest
        exact (Spells.word letter word).begins stops
      · exact (Spells.unknown opens (by simpa using digit) (by simpa using letter)).begins
          (stops_nothing rest)

/-! ## Cutting -/

theorem takeWhile_run {takes : Char → Bool} {run after : List Char}
    (inside : ∀ c ∈ run, takes c = true) (stops : Stops takes after) :
    (run ++ after).takeWhile takes = run ∧ (run ++ after).dropWhile takes = after := by
  rw [List.takeWhile_append_of_pos inside, List.dropWhile_append_of_pos inside]
  cases after with
  | nil => exact ⟨List.append_nil run, rfl⟩
  | cons c more => simp [stops_cons.mp stops]

theorem head?_of_stops {wanted : Char} {after : List Char} (stops : Stops (· == wanted) after) :
    (after.head? == some wanted) = false := by
  cases after with
  | nil => rfl
  | cons c more => simpa [Stops] using stops

section

variable {first : Char} {rest : List Char}

theorem readFrom_blank (blank : isBlankChar first = true) :
    readFrom first rest = (.token .blank (first :: rest.takeWhile isBlankChar),
      (rest.takeWhile isBlankChar).length) := by
  simp only [isBlankChar, Bool.or_eq_true, beq_iff_eq] at blank
  rcases blank with rfl | rfl <;> rfl

theorem readFrom_other (unopened : first ∉ openers) :
    readFrom first rest =
      if first.isDigit then (.token .number (first :: numberRest rest), (numberRest rest).length)
      else if isLetter first then
        (.token (wordKind (first :: rest.takeWhile isWordChar))
          (first :: rest.takeWhile isWordChar), (rest.takeWhile isWordChar).length)
      else (.token .unknown [first], 0) := by
  unfold readFrom
  split
  case h_16 => rfl
  all_goals exact absurd (by decide) unopened

theorem notMem_openers (word : isWordChar first = true) : first ∉ openers := by
  intro opens
  simp only [openers, List.mem_cons, List.not_mem_nil, or_false] at opens
  rcases opens with rfl | rfl | rfl | rfl | rfl | rfl | rfl | rfl | rfl | rfl | rfl | rfl | rfl |
    rfl | rfl <;> cases word

theorem isWordChar_of_isDigit (digit : first.isDigit = true) : isWordChar first = true := by
  simp [isWordChar, Char.isAlphanum, digit]

theorem readFrom_digit (digit : first.isDigit = true) :
    readFrom first rest =
      (.token .number (first :: numberRest rest), (numberRest rest).length) := by
  rw [readFrom_other (notMem_openers (isWordChar_of_isDigit digit)), if_pos digit]

theorem readFrom_letter (letter : isLetter first = true) :
    readFrom first rest =
      (.token (wordKind (first :: rest.takeWhile isWordChar)) (first :: rest.takeWhile isWordChar),
        (rest.takeWhile isWordChar).length) := by
  rw [readFrom_other (notMem_openers (isWordChar_of_isLetter letter)),
    if_neg (by simp [not_isDigit_of_isLetter letter]), if_pos letter]

theorem readFrom_mark {kind : TokenKind} (marked : (first, kind) ∈ marks) :
    readFrom first rest = (.token kind [first], 0) := by
  simp only [marks, List.mem_cons, List.not_mem_nil, or_false, Prod.mk.injEq] at marked
  rcases marked with ⟨rfl, rfl⟩ | ⟨rfl, rfl⟩ | ⟨rfl, rfl⟩ | ⟨rfl, rfl⟩ | ⟨rfl, rfl⟩ |
    ⟨rfl, rfl⟩ <;> rfl

end

theorem numberRest_whole {digits after : List Char} (inside : ∀ c ∈ digits, c.isDigit = true)
    (stops : Stops (fun c => c.isDigit || c == '.') after) :
    numberRest (digits ++ after) = digits := by
  have noDigit : Stops Char.isDigit after := fun c next =>
    (Bool.or_eq_false_iff.mp (stops c next)).1
  obtain ⟨run, behind⟩ := takeWhile_run inside noDigit
  rw [numberRest, run, behind]
  cases after with
  | nil => rfl
  | cons c more =>
    have noPoint : c ≠ '.' := by simpa using (Bool.or_eq_false_iff.mp (stops c rfl)).2
    split
    · next same => exact absurd (List.cons.inj same).1 noPoint
    · rfl

theorem numberRest_point {whole places after : List Char} (inside : ∀ c ∈ whole, c.isDigit = true)
    (further : ∀ c ∈ places, c.isDigit = true) (stops : Stops Char.isDigit after) :
    numberRest (whole ++ '.' :: places ++ after) = whole ++ '.' :: places := by
  have point : Stops Char.isDigit ('.' :: (places ++ after)) := stops_cons.mpr (by decide)
  obtain ⟨run, behind⟩ := takeWhile_run inside point
  rw [numberRest, List.append_assoc, List.cons_append, run, behind]
  simp only [(takeWhile_run further stops).1]

theorem readFrom_quote {content after : List Char} (quotable : ∀ c ∈ content, isQuotable c = true)
    (stops : Stops isQuotable after) :
    readFrom '`' (content ++ after) =
      if after.head? == some '`' then (.token .string content, content.length + 1)
      else (.unterminated, content.length) := by
  have unfolded (rest : List Char) : readFrom '`' rest =
      if (rest.drop (rest.takeWhile isQuotable).length).head? == some '`' then
        (.token .string (rest.takeWhile isQuotable), (rest.takeWhile isQuotable).length + 1)
      else (.unterminated, (rest.takeWhile isQuotable).length) := rfl
  rw [unfolded, (takeWhile_run quotable stops).1, List.drop_left]

/-- What is spelled is read, if nothing follows that would be taken besides. -/
theorem Spells.readFrom_append {first : Char} {body after : List Char} {reading : Reading}
    {takes : Char → Bool} (spells : Spells (first :: body) reading takes)
    (stops : Stops takes after) : readFrom first (body ++ after) = (reading, body.length) := by
  -- What the span begins with chooses the reading, and what follows ends it.
  cases spells with
  | blank blank blanks => rw [readFrom_blank blank, (takeWhile_run blanks stops).1]
  | lineFeed | returnFeed | equal | notEqual => rfl
  | carriageReturn | slash | assign | bang =>
    simp only [readFrom, List.nil_append, head?_of_stops stops]
    rfl
  | @comment text inLine =>
    have all : ∀ c ∈ '/' :: text, (!isLineEnd c) = true :=
      List.forall_mem_cons.mpr ⟨rfl, by simpa using inLine⟩
    change (Reading.token .comment _, _) = _
    rw [(takeWhile_run all stops).1]
  | mark marked => exact readFrom_mark marked
  | @string content quotable =>
    have quote : Stops isQuotable ('`' :: after) := stops_cons.mpr rfl
    rw [List.append_assoc, List.singleton_append, readFrom_quote quotable quote]
    simp
  | unterminated quotable =>
    have lineEnds : ∀ c ∈ after.head?, isLineEnd c = true := by simpa [Stops] using stops
    have noQuote : Stops (· == '`') after := fun c next => by
      rw [beq_eq_false_iff_ne]
      rintro rfl
      cases lineEnds _ next
    rw [readFrom_quote quotable fun c next => by simp [isQuotable, lineEnds c next],
      head?_of_stops noQuote]
    rfl
  | @named head rest letter word =>
    have all : ∀ c ∈ head :: rest, isWordChar c = true :=
      List.forall_mem_cons.mpr ⟨isWordChar_of_isLetter letter, word⟩
    simp only [readFrom, (takeWhile_run all stops).1]
    simp [not_isDigit_of_isLetter letter]
  | nameless word digit =>
    simp only [readFrom, (takeWhile_run word stops).1]
    exact if_pos ((Option.all_eq_true _ _).mpr digit)
  | whole digit digits => rw [readFrom_digit digit, numberRest_whole digits stops]
  | point digit digits further => rw [readFrom_digit digit, numberRest_point digits further stops]
  | word letter word => rw [readFrom_letter letter, (takeWhile_run word stops).1]
  | unknown unopened noDigit noLetter =>
    rw [readFrom_other unopened]
    simp [noDigit, noLetter]

theorem Spells.ne_nil {span : List Char} {reading : Reading} {takes : Char → Bool}
    (spells : Spells span reading takes) : span ≠ [] := by
  cases spells <;> exact List.cons_ne_nil _ _

theorem lexemes_append {span after : List Char} {reading : Reading} {takes : Char → Bool}
    (spells : Spells span reading takes) (stops : Stops takes after) :
    lexemes (span ++ after) = ⟨span, reading⟩ :: lexemes after := by
  obtain ⟨first, body, rfl⟩ := List.exists_cons_of_ne_nil spells.ne_nil
  rw [List.cons_append, lexemes, spells.readFrom_append stops]
  simp

/-- How a text is cut, and the only way to cut it. -/
theorem lexemes_eq_cons {text : List Char} {lexeme : Lexeme} {more : List Lexeme} :
    lexemes text = lexeme :: more ↔ ∃ after takes, text = lexeme.span ++ after ∧
      Spells lexeme.span lexeme.reading takes ∧ Stops takes after ∧ lexemes after = more := by
  constructor
  · intro cut
    cases text with
    | nil => simp [lexemes] at cut
    | cons first rest =>
      obtain ⟨span, after, reading, takes, same, spells, stops⟩ := begins_cons first rest
      rw [same, lexemes_append spells stops] at cut
      cases cut
      exact ⟨after, takes, same, spells, stops, rfl⟩
  · rintro ⟨after, takes, rfl, spells, stops, rfl⟩
    exact lexemes_append spells stops

theorem lexemes_flatMap_span {text : List Char} {front back : List Lexeme}
    (cut : lexemes text = front ++ back) : lexemes (back.flatMap Lexeme.span) = back := by
  induction front generalizing text with
  | nil => rw [List.nil_append] at cut; rw [← cut, flatMap_span_lexemes]
  | cons lexeme more ih =>
    rw [List.cons_append] at cut
    obtain ⟨after, takes, -, -, -, rest⟩ := lexemes_eq_cons.mp cut
    exact ih rest

theorem spells_of_cut {text : List Char} {front back : List Lexeme} {lexeme : Lexeme}
    (cut : lexemes text = front ++ lexeme :: back) :
    ∃ takes, Spells lexeme.span lexeme.reading takes ∧ Stops takes (back.flatMap Lexeme.span) := by
  obtain ⟨after, takes, -, spells, stops, rest⟩ := lexemes_eq_cons.mp (lexemes_flatMap_span cut)
  have same := flatMap_span_lexemes after
  rw [rest] at same
  exact ⟨takes, spells, same ▸ stops⟩

theorem spells_of_mem_lexemes {text : List Char} {lexeme : Lexeme}
    (member : lexeme ∈ lexemes text) : ∃ takes, Spells lexeme.span lexeme.reading takes := by
  obtain ⟨front, back, cut⟩ := List.append_of_mem member
  obtain ⟨takes, spells, -⟩ := spells_of_cut cut
  exact ⟨takes, spells⟩

end InputTape.Script
