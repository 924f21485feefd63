import InputTape.Proofs.Script.Agreement
import InputTape.Proofs.Script.Lexing

/-! Letter case.

Outside strings it does not matter in which case a script is written. Only the names of labels keep
the case that they are written in, and those are found in any.
-/

set_option autoImplicit false

namespace InputTape.Script

def SameLetter (c other : Char) : Prop := c.toLower = other.toLower

instance : DecidableRel SameLetter := fun c other => decEq c.toLower other.toLower

def SameLetters (text again : List Char) : Prop := List.Forall₂ SameLetter text again

instance : DecidableRel SameLetters := fun text again =>
  inferInstanceAs (Decidable (List.Forall₂ SameLetter text again))

def Reading.isString : Reading → Bool
  | .token .string _ => true
  | _ => false

/-- What may stand where a lexeme stands: a string keeps its letters. -/
structure Lexeme.Recased (lexeme : Lexeme) (span : List Char) : Prop where
  letters : SameLetters lexeme.span span
  string : lexeme.reading.isString = true → span = lexeme.span

instance (lexeme : Lexeme) (span : List Char) : Decidable (lexeme.Recased span) :=
  decidable_of_iff (SameLetters lexeme.span span ∧
      (lexeme.reading.isString = true → span = lexeme.span))
    ⟨fun both => ⟨both.1, both.2⟩, fun recased => ⟨recased.letters, recased.string⟩⟩

/-- The texts differ in the case of letters outside strings only. -/
def Recased (first second : String) : Prop :=
  ∃ spans, List.Forall₂ Lexeme.Recased (lexemes first.toList) spans ∧ spans.flatten = second.toList

def SameName (first second : String) : Prop := first.toLower = second.toLower

/-! ## Letters -/

def Folds (takes : Char → Bool) : Prop := ∀ c other, SameLetter c other → takes c = takes other

section

variable {c other : Char}

theorem SameLetter.isAlpha (same : SameLetter c other) : c.isAlpha = other.isAlpha := by
  rw [← c.isAlpha_toLower_eq_isAlpha, same, other.isAlpha_toLower_eq_isAlpha]

theorem toLower_of_not_isAlpha (noLetter : c.isAlpha = false) : c.toLower = c :=
  Char.toLower_eq_of_not_isUpper (by simp [(Bool.or_eq_false_iff.mp noLetter).1])

theorem SameLetter.eq (same : SameLetter c other) (noLetter : c.isAlpha = false) : other = c := by
  rw [← toLower_of_not_isAlpha noLetter, same, toLower_of_not_isAlpha (same.isAlpha ▸ noLetter)]

end

theorem folds_nothing : Folds nothing := fun _ _ _ => rfl

theorem folds_isAlpha : Folds Char.isAlpha := fun _ _ same => same.isAlpha

theorem folds_isDigit : Folds Char.isDigit := by
  intro c other same
  by_cases letter : c.isAlpha = true
  · have digit {c : Char} (letter : c.isAlpha = true) : c.isDigit = false :=
      not_isDigit_of_isLetter (by simp [isLetter, letter])
    rw [digit letter, digit (same.isAlpha ▸ letter)]
  · rw [same.eq (by simpa using letter)]

theorem not_isAlpha_of_isDigit {c : Char} (digit : c.isDigit = true) : c.isAlpha = false := by
  rw [← Bool.not_eq_true]
  intro letter
  rw [not_isDigit_of_isLetter (by simp [isLetter, letter])] at digit
  cases digit

theorem not_isAlpha_of_isBlankChar {c : Char} (blank : isBlankChar c = true) :
    c.isAlpha = false := by
  simp only [isBlankChar, Bool.or_eq_true, beq_iff_eq] at blank
  rcases blank with rfl | rfl <;> rfl

theorem not_isAlpha_of_mem_marks {c : Char} {kind : TokenKind} (marked : (c, kind) ∈ marks) :
    c.isAlpha = false := by
  have all : ∀ mark ∈ marks, mark.1.isAlpha = false := by decide
  exact all _ marked

theorem folds_beq {wanted : Char} (noLetter : wanted.isAlpha = false) : Folds (· == wanted) := by
  intro c other same
  by_cases letter : c.isAlpha = true
  · have differs {c : Char} (letter : c.isAlpha = true) : (c == wanted) = false := by
      rw [beq_eq_false_iff_ne]
      rintro rfl
      rw [noLetter] at letter
      cases letter
    exact (differs letter).trans (differs (same.isAlpha ▸ letter)).symm
  · rw [same.eq (by simpa using letter)]

section

variable {takes others : Char → Bool}

theorem Folds.or (left : Folds takes) (right : Folds others) : Folds fun c => takes c || others c :=
  fun _ _ same => congrArg₂ Bool.or (left _ _ same) (right _ _ same)

theorem Folds.and (left : Folds takes) (right : Folds others) :
    Folds fun c => takes c && others c :=
  fun _ _ same => congrArg₂ Bool.and (left _ _ same) (right _ _ same)

theorem Folds.not (folds : Folds takes) : Folds fun c => !takes c :=
  fun _ _ same => congrArg Bool.not (folds _ _ same)

end

theorem folds_isLineEnd : Folds isLineEnd := (folds_beq rfl).or (folds_beq rfl)

theorem folds_isBlankChar : Folds isBlankChar := (folds_beq rfl).or (folds_beq rfl)

theorem folds_isQuotable : Folds isQuotable := (folds_beq rfl).not.and folds_isLineEnd.not

theorem folds_isLetter : Folds isLetter := folds_isAlpha.or (folds_beq rfl)

theorem folds_isWordChar : Folds isWordChar := (folds_isAlpha.or folds_isDigit).or (folds_beq rfl)

section

variable {text again : List Char}

theorem SameLetters.forall {takes : Char → Bool} (same : SameLetters text again)
    (folds : Folds takes) (inside : ∀ c ∈ text, takes c = true) : ∀ c ∈ again, takes c = true := by
  induction same with
  | nil => exact nofun
  | cons here _ ih =>
    obtain ⟨first, rest⟩ := List.forall_mem_cons.mp inside
    exact List.forall_mem_cons.mpr ⟨folds _ _ here ▸ first, ih rest⟩

theorem SameLetters.head? {takes : Char → Bool} {taken : Bool} (same : SameLetters text again)
    (folds : Folds takes) (first : ∀ c ∈ text.head?, takes c = taken) :
    ∀ c ∈ again.head?, takes c = taken := by
  intro c starts
  cases same with
  | nil => cases starts
  | cons here _ =>
    cases starts
    exact folds _ _ here ▸ first _ rfl

theorem SameLetters.eq (same : SameLetters text again)
    (letterless : ∀ c ∈ text, c.isAlpha = false) : again = text := by
  induction same with
  | nil => rfl
  | cons here _ ih =>
    obtain ⟨first, rest⟩ := List.forall_mem_cons.mp letterless
    rw [here.eq first, ih rest]

theorem SameLetters.exists_cons {c : Char} (same : SameLetters (c :: text) again) :
    ∃ other rest, again = other :: rest ∧ SameLetter c other ∧ SameLetters text rest := by
  obtain _ | ⟨here, later⟩ := same
  exact ⟨_, _, rfl, here, later⟩

theorem SameLetters.exists_of_not_isAlpha {c : Char} (same : SameLetters (c :: text) again)
    (noLetter : c.isAlpha = false) : ∃ rest, again = c :: rest ∧ SameLetters text rest := by
  obtain ⟨other, rest, rfl, here, later⟩ := same.exists_cons
  exact ⟨rest, by rw [here.eq noLetter], later⟩

theorem SameLetters.sameName (same : SameLetters text again) :
    SameName (String.ofList text) (String.ofList again) := by
  apply String.toList_injective
  change (String.map _ _).toList = (String.map _ _).toList
  simp only [String.toList_map, String.toList_ofList]
  induction same with
  | nil => rfl
  | cons here _ ih => rw [List.map_cons, List.map_cons, here, ih]

end

/-! ## Lexemes -/

def SameWord (first second : String) : Prop :=
  SameName first second ∧ Text.lower first = Text.lower second

theorem isLikeness_sameWord : IsLikeness SameWord where
  refl _ := ⟨rfl, rfl⟩
  symm same := ⟨same.1.symm, same.2.symm⟩
  lower same := same.2
  letters same := same.1

inductive Reading.Alike : Reading → Reading → Prop where
  | token {kind : TokenKind} {text again : List Char} :
      (kind.IsWordlike → SameWord (String.ofList text) (String.ofList again)) →
      (kind = .string ∨ kind = .number → text = again) →
      Alike (.token kind text) (.token kind again)
  | unterminated : Alike .unterminated .unterminated

theorem Reading.Alike.refl (reading : Reading) : Reading.Alike reading reading := by
  cases reading with
  | token => exact .token (fun _ => isLikeness_sameWord.refl _) fun _ => rfl
  | unterminated => exact .unterminated

theorem isWord_ofList {text : List Char} (nonempty : text ≠ [])
    (word : ∀ c ∈ text, isWordChar c = true) : Text.IsWord (String.ofList text) := by
  rw [Text.IsWord, String.toList_ofList]
  exact ⟨nonempty, word⟩

theorem alike_wordKind {text again : List Char} (same : SameLetters text again)
    (nonempty : text ≠ []) (word : ∀ c ∈ text, isWordChar c = true) :
    Reading.Alike (.token (wordKind text) text) (.token (wordKind again) again) := by
  have nonempty' : again ≠ [] := by
    rintro rfl
    exact nonempty (List.forall₂_nil_right_iff.mp same)
  have word' := same.forall folds_isWordChar word
  have names := same.sameName
  have kinds : wordKind again = wordKind text := by
    rw [wordKind, keyword_congr names.symm, wordKind]
  rw [kinds]
  refine .token (fun _ => ⟨names, ?_⟩) fun literal => ?_
  · rw [Text.lower_of_isWord (isWord_ofList nonempty word),
      Text.lower_of_isWord (isWord_ofList nonempty' word'), names]
  · unfold wordKind at literal
    split at literal <;> rcases literal with ⟨⟨⟩⟩ | ⟨⟨⟩⟩

section

variable {span again : List Char} {reading : Reading} {takes : Char → Bool}

theorem Spells.folds (spells : Spells span reading takes) : Folds takes := by
  cases spells with
  | blank => exact folds_isBlankChar
  | carriageReturn | slash | assign | bang => exact folds_beq rfl
  | comment | unterminated => exact folds_isLineEnd.not
  | named | nameless | word => exact folds_isWordChar
  | whole => exact folds_isDigit.or (folds_beq rfl)
  | point => exact folds_isDigit
  | _ => exact folds_nothing

/-- A lexeme in another case is a lexeme that takes the same characters. -/
theorem Spells.recase (spells : Spells span reading takes)
    (recased : Lexeme.Recased ⟨span, reading⟩ again) :
    ∃ other, Spells again other takes ∧ Reading.Alike reading other := by
  have same : SameLetters span again := recased.letters
  -- Most lexemes have no letters at all and stay as they are.
  have letterless (none : ∀ c ∈ span, c.isAlpha = false) :
      ∃ other, Spells again other takes ∧ Reading.Alike reading other :=
    ⟨reading, same.eq none ▸ spells, .refl reading⟩
  have digits {run : List Char} (digits : ∀ c ∈ run, c.isDigit = true) :
      ∀ c ∈ run, c.isAlpha = false := fun c member => not_isAlpha_of_isDigit (digits c member)
  cases spells with
  | lineFeed | carriageReturn | returnFeed | slash | assign | equal | bang | notEqual =>
    exact letterless (by simp)
  | blank blank blanks =>
    have run : ∀ c ∈ _ :: _, isBlankChar c = true := List.forall_mem_cons.mpr ⟨blank, blanks⟩
    exact letterless fun c member => not_isAlpha_of_isBlankChar (run c member)
  | mark marked =>
    exact letterless (List.forall_mem_singleton.mpr (not_isAlpha_of_mem_marks marked))
  | whole digit rest => exact letterless (digits (List.forall_mem_cons.mpr ⟨digit, rest⟩))
  | point digit rest further =>
    have before := digits (List.forall_mem_cons.mpr ⟨digit, rest⟩)
    have behind := digits further
    exact letterless (List.forall_mem_append.mpr ⟨before, List.forall_mem_cons.mpr ⟨rfl, behind⟩⟩)
  | unknown _ _ noLetter =>
    exact letterless (List.forall_mem_singleton.mpr (Bool.or_eq_false_iff.mp noLetter).1)
  | string quotable =>
    rw [recased.string rfl]
    exact ⟨_, .string quotable, .refl _⟩
  | @comment text inLine =>
    obtain ⟨_, rfl, slash⟩ := same.exists_of_not_isAlpha rfl
    obtain ⟨other, rfl, behind⟩ := slash.exists_of_not_isAlpha rfl
    have inside : ∀ c ∈ text, (!isLineEnd c) = true := by simpa using inLine
    have inside' := behind.forall folds_isLineEnd.not inside
    exact ⟨_, .comment fun c member => by simpa using inside' c member, .token nofun nofun⟩
  | unterminated quotable =>
    obtain ⟨content, rfl, behind⟩ := same.exists_of_not_isAlpha rfl
    exact ⟨_, .unterminated (behind.forall folds_isQuotable quotable), .unterminated⟩
  | named letter word =>
    obtain ⟨_, rfl, name⟩ := same.exists_of_not_isAlpha rfl
    obtain ⟨first, rest, rfl, here, later⟩ := name.exists_cons
    exact ⟨_, .named (folds_isLetter _ _ here ▸ letter) (later.forall folds_isWordChar word),
      .token nofun nofun⟩
  | nameless word digit =>
    obtain ⟨other, rfl, name⟩ := same.exists_of_not_isAlpha rfl
    exact ⟨_, .nameless (name.forall folds_isWordChar word) (name.head? folds_isDigit digit),
      .token nofun nofun⟩
  | @word first rest letter word =>
    have inside : ∀ c ∈ first :: rest, isWordChar c = true :=
      List.forall_mem_cons.mpr ⟨isWordChar_of_isLetter letter, word⟩
    have alike := alike_wordKind same (List.cons_ne_nil _ _) inside
    obtain ⟨_, _, rfl, here, later⟩ := same.exists_cons
    exact ⟨_, .word (folds_isLetter _ _ here ▸ letter) (later.forall folds_isWordChar word), alike⟩

end

theorem sameLetters_flatten {found : List Lexeme} {spans : List (List Char)}
    (recased : List.Forall₂ Lexeme.Recased found spans) :
    SameLetters (found.flatMap Lexeme.span) spans.flatten := by
  induction recased with
  | nil => exact .nil
  | cons here _ ih => exact List.rel_append here.letters ih

theorem lexemes_recase {text : List Char} {spans : List (List Char)}
    (recased : List.Forall₂ Lexeme.Recased (lexemes text) spans) :
    List.Forall₂ (fun first second => Reading.Alike first.reading second.reading) (lexemes text)
      (lexemes spans.flatten) := by
  generalize cut : lexemes text = found at recased ⊢
  induction recased generalizing text with
  | nil =>
    rw [List.flatten_nil, lexemes]
    exact .nil
  | @cons lexeme span more spans here later ih =>
    obtain ⟨after, takes, rfl, spells, stops, rfl⟩ := lexemes_eq_cons.mp cut
    obtain ⟨other, spelled, alike⟩ := spells.recase here
    have same : SameLetters ((lexemes after).flatMap Lexeme.span) spans.flatten :=
      sameLetters_flatten later
    rw [flatMap_span_lexemes] at same
    -- What follows begins with the same letter, so the lexeme ends where it did.
    rw [List.flatten_cons, lexemes_append spelled (same.head? spells.folds stops)]
    exact .cons alike (ih rfl)

/-! ## Lines -/

inductive Item.Alike : Item → Item → Prop where
  | token {first second : Token} : Token.Alike SameWord first second →
      Alike (.token first) (.token second)
  | unterminated {line other : Nat} : Alike (.unterminated line) (.unterminated other)

theorem placeFrom_alike {found others : List Lexeme} (position other : Position)
    (all : List.Forall₂ (fun first second => Reading.Alike first.reading second.reading) found
      others) :
    List.Forall₂ Item.Alike (placeFrom position found) (placeFrom other others) := by
  induction all generalizing position other with
  | nil => exact .nil
  | @cons first second _ _ here _ ih =>
    obtain ⟨span, reading⟩ := first
    obtain ⟨span', reading'⟩ := second
    refine .cons ?_ (ih _ _)
    cases here with
    | token word literal =>
      exact .token ⟨rfl, word, fun is => congrArg String.ofList (literal is)⟩
    | unterminated => exact .unterminated

theorem addItem_alike {item other : Item} (alike : Item.Alike item other) {found others : List Line}
    (all : List.Forall₂ (Line.Alike SameWord) found others) :
    List.Forall₂ (Line.Alike SameWord) (addItem item found) (addItem other others) := by
  have cons {first second : Line} {more further : List Line}
      (here : Line.Alike SameWord first second)
      (later : List.Forall₂ (Line.Alike SameWord) more further) :
      List.Forall₂ (Line.Alike SameWord) (addItem item (first :: more))
        (addItem other (second :: further)) := by
    cases alike with
    | unterminated => exact .cons ⟨here.tokens, rfl⟩ later
    | @token token again same =>
      simp only [addItem, same.kind]
      split
      · exact .cons ⟨.nil, rfl⟩ (.cons here later)
      · split
        · exact .cons here later
        · exact .cons ⟨.cons same here.tokens, here.isUnterminated⟩ later
  cases all with
  | nil => exact cons ⟨.nil, rfl⟩ .nil
  | cons here later => exact cons here later

theorem Line.Alike.isBlank {alike : String → String → Prop} {first second : Line}
    (same : Line.Alike alike first second) : first.isBlank = second.isBlank := by
  obtain ⟨tokens, isUnterminated⟩ := first
  obtain ⟨others, isUnterminated'⟩ := second
  obtain ⟨_ | _, ⟨⟩⟩ := same <;> rfl

theorem busy_of_alike {alike : String → String → Prop} {found others : List Line}
    (all : List.Forall₂ (Line.Alike alike) found others) (number : Nat) :
    List.Forall₂ (Line.Corresponds alike (· = ·)) ((found.zipIdx number).filter (!·.1.isBlank))
      ((others.zipIdx number).filter (!·.1.isBlank)) := by
  induction all generalizing number with
  | nil => exact .nil
  | cons here _ ih =>
    rw [List.zipIdx_cons, List.zipIdx_cons, List.filter_cons, List.filter_cons, here.isBlank]
    split
    · exact .cons ⟨here, rfl⟩ (ih (number + 1))
    · exact ih (number + 1)

theorem busyLines_recase {first second : String} (recased : Recased first second) :
    List.Forall₂ (Line.Corresponds SameWord (· = ·)) (busyLines first) (busyLines second) := by
  obtain ⟨spans, each, same⟩ := recased
  have placed := placeFrom_alike .start .start (lexemes_recase each)
  rw [same] at placed
  have step : Relator.LiftFun Item.Alike (Relator.LiftFun (List.Forall₂ (Line.Alike SameWord))
      (List.Forall₂ (Line.Alike SameWord))) addItem addItem :=
    fun _ _ alike _ _ all => addItem_alike alike all
  exact busy_of_alike (List.rel_foldr step (.cons ⟨.nil, rfl⟩ .nil) placed) 1

/-- Texts that differ only in the case of letters outside strings compile to sequences that differ
only in the case of names, or both fail on the same line. -/
theorem compile_recase {first second : String} (recased : Recased first second) :
    Agree (fun problem other => problem.line = other.line) (Sequence.Alike SameName) (compile first)
      (compile second) :=
  (compile_agree isLikeness_sameWord (busyLines_recase recased)).imp fun _ _ same =>
    same.mono fun _ _ names => names.1

/-- Strings apart, every letter is in another case. -/
theorem compile_recase_loop :
    Recased "Label A // Here\nscript(`A`)\nGOTO a" "lABEL a // hERE\nSCRIPT(`A`)\ngoto A" ∧
      Agree (fun problem other => problem.line = other.line) (Sequence.Alike SameName)
        (compile "Label A // Here\nscript(`A`)\nGOTO a")
        (compile "lABEL a // hERE\nSCRIPT(`A`)\ngoto A") := by
  have recased : Recased "Label A // Here\nscript(`A`)\nGOTO a"
      "lABEL a // hERE\nSCRIPT(`A`)\ngoto A" := by
    refine ⟨(lexemes "lABEL a // hERE\nSCRIPT(`A`)\ngoto A".toList).map Lexeme.span, ?_, ?_⟩
    · decide +kernel
    · rw [← List.flatMap_def, flatMap_span_lexemes]
  exact ⟨recased, compile_recase recased⟩

end InputTape.Script
