import InputTape.Proofs.Script.Acceptance

/-! Scripts that say the same.

Tokens are alike if they are of one kind, and strings and numbers among them have one text; of names
it depends on what is asked which count as the same. Lines of such tokens are statements that are
alike, wherever their tokens stand.
-/

set_option autoImplicit false

namespace InputTape.Script

/-- Which names count as the same. No script can tell such names apart. -/
structure IsLikeness (alike : String → String → Prop) : Prop where
  refl : ∀ name, alike name name
  symm : ∀ {first second}, alike first second → alike second first
  lower : ∀ {first second}, alike first second → Text.lower first = Text.lower second
  letters : ∀ {first second}, alike first second → first.toLower = second.toLower

theorem isLikeness_eq : IsLikeness (· = ·) where
  refl _ := rfl
  symm same := same.symm
  lower same := congrArg Text.lower same
  letters same := congrArg String.toLower same

section

variable (alike : String → String → Prop)

structure Token.Alike (first second : Token) : Prop where
  kind : first.kind = second.kind
  word : first.kind.IsWordlike → alike first.text second.text
  literal : first.kind = .string ∨ first.kind = .number → first.text = second.text

inductive Parameter.Alike : Parameter → Parameter → Prop where
  | same {parameter : Parameter} : Alike parameter parameter
  | word {first second : String} : alike first second → Alike (.word first) (.word second)

inductive Statement.Alike : Statement → Statement → Prop where
  | same {statement : Statement} : Alike statement statement
  | label {first second : String} : alike first second → Alike (.label first) (.label second)
  | goto {first second : String} : alike first second → Alike (.goto first) (.goto second)

structure Line.Alike (first second : Line) : Prop where
  tokens : List.Forall₂ (Token.Alike alike) first.tokens second.tokens
  isUnterminated : first.isUnterminated = second.isUnterminated

end

variable {alike : String → String → Prop}

theorem Token.Alike.symm (likeness : IsLikeness alike) {first second : Token}
    (same : Token.Alike alike first second) : Token.Alike alike second first where
  kind := same.kind.symm
  word wordlike := likeness.symm (same.word (same.kind ▸ wordlike))
  literal is := (same.literal (same.kind ▸ is)).symm

theorem Statement.Alike.symm (likeness : IsLikeness alike) {first second : Statement}
    (same : Statement.Alike alike first second) : Statement.Alike alike second first := by
  cases same with
  | same => exact .same
  | label names => exact .label (likeness.symm names)
  | goto names => exact .goto (likeness.symm names)

theorem Line.Alike.symm (likeness : IsLikeness alike) {first second : Line}
    (same : Line.Alike alike first second) : Line.Alike alike second first where
  tokens := List.Forall₂.flip (same.tokens.imp fun _ _ here => here.symm likeness)
  isUnterminated := same.isUnterminated.symm

/-! ## Statements -/

theorem exists_append_of_forall₂ {α β : Type} {related : α → β → Prop} {first second : List α}
    {others : List β} (all : List.Forall₂ related (first ++ second) others) :
    ∃ front back, others = front ++ back ∧ List.Forall₂ related first front ∧
      List.Forall₂ related second back := by
  induction first generalizing others with
  | nil => exact ⟨[], others, rfl, .nil, all⟩
  | cons head rest ih =>
    rw [List.cons_append] at all
    obtain _ | ⟨here, later⟩ := all
    obtain ⟨front, back, rfl, left, right⟩ := ih later
    exact ⟨_ :: front, back, rfl, .cons here left, right⟩

theorem keyword_congr {first second : String} (same : first.toLower = second.toLower) :
    Keyword.ofWord? first = Keyword.ofWord? second := by
  rw [Keyword.ofWord?, same, Keyword.ofWord?]

namespace Parameter.Alike

variable {parameter other : Parameter}

theorem isInteger (same : Alike alike parameter other) {n : Int32}
    (integer : parameter.IsInteger n) : other.IsInteger n := by
  cases same with
  | same => exact integer
  | word =>
    obtain ⟨_, ⟨⟩, -⟩ := integer

theorem isComponent (same : Alike alike parameter other) {n : UInt8}
    (component : parameter.IsComponent n) : other.IsComponent n := by
  cases same with
  | same => exact component
  | word =>
    obtain ⟨_, ⟨⟩, -⟩ := component

theorem isKey (likeness : IsLikeness alike) (same : Alike alike parameter other) {code : KeyCode}
    (key : parameter.IsKey code) : other.IsKey code := by
  cases same with
  | same => exact key
  | word names =>
    cases key with
    | named member spells => exact .named member (spells.trans (likeness.letters names))
    | coded whole =>
      obtain ⟨_, ⟨⟩, -⟩ := whole

theorem eq_number {value : Float} (same : Alike alike (.number value) other) :
    other = .number value := by
  cases same
  rfl

theorem eq_string {text : String} (same : Alike alike (.string text) other) :
    other = .string text := by
  cases same
  rfl

theorem exists_word (likeness : IsLikeness alike) {name : String}
    (same : Alike alike (.word name) other) : ∃ again, other = .word again ∧ alike name again := by
  cases same with
  | same => exact ⟨name, rfl, likeness.refl name⟩
  | word names => exact ⟨_, rfl, names⟩

end Parameter.Alike

section

variable {tokens others : List Token}

theorem IsParameter.respell {parameter : Parameter} (derives : IsParameter tokens parameter)
    (same : List.Forall₂ (Token.Alike alike) tokens others) :
    ∃ other, IsParameter others other ∧ Parameter.Alike alike parameter other := by
  cases derives with
  | number kind reads =>
    obtain _ | ⟨token, ⟨⟩⟩ := same
    rw [token.literal (.inr kind)] at reads
    exact ⟨_, .number (token.kind ▸ kind) reads, .same⟩
  | negative minus kind reads =>
    obtain _ | ⟨sign, _ | ⟨token, ⟨⟩⟩⟩ := same
    rw [token.literal (.inr kind)] at reads
    exact ⟨_, .negative (sign.kind ▸ minus) (token.kind ▸ kind) reads, .same⟩
  | string kind =>
    obtain _ | ⟨token, ⟨⟩⟩ := same
    rw [token.literal (.inl kind)]
    exact ⟨_, .string (token.kind ▸ kind), .same⟩
  | word wordlike =>
    obtain _ | ⟨token, ⟨⟩⟩ := same
    exact ⟨_, .word (token.kind ▸ wordlike), .word (token.word wordlike)⟩

theorem AreParameters.respell {parameters : List Parameter}
    (derive : AreParameters tokens parameters)
    (same : List.Forall₂ (Token.Alike alike) tokens others) :
    ∃ again, AreParameters others again ∧
      List.Forall₂ (Parameter.Alike alike) parameters again := by
  induction derive generalizing others with
  | last isParameter closes =>
    obtain ⟨front, _, rfl, left, _ | ⟨closing, ⟨⟩⟩⟩ := exists_append_of_forall₂ same
    obtain ⟨other, derives, names⟩ := isParameter.respell left
    exact ⟨[other], .last derives (closing.kind ▸ closes), .cons names .nil⟩
  | more isParameter separates _ ih =>
    obtain ⟨front, _, rfl, left, _ | ⟨comma, right⟩⟩ := exists_append_of_forall₂ same
    obtain ⟨other, derives, names⟩ := isParameter.respell left
    obtain ⟨again, derive, more⟩ := ih right
    exact ⟨other :: again, .more derives (comma.kind ▸ separates) derive, .cons names more⟩

theorem InParentheses.respell {parameters : List Parameter}
    (derive : InParentheses tokens parameters)
    (same : List.Forall₂ (Token.Alike alike) tokens others) :
    ∃ again, InParentheses others again ∧
      List.Forall₂ (Parameter.Alike alike) parameters again := by
  cases derive with
  | none opens closes =>
    obtain _ | ⟨opening, _ | ⟨closing, ⟨⟩⟩⟩ := same
    exact ⟨[], .none (opening.kind ▸ opens) (closing.kind ▸ closes), .nil⟩
  | some opens are =>
    obtain _ | ⟨opening, inner⟩ := same
    obtain ⟨again, are, names⟩ := are.respell inner
    exact ⟨again, .some (opening.kind ▸ opens) are, names⟩

theorem IsTolerance.respell {parameters again : List Parameter} {n : UInt8}
    (tolerance : IsTolerance parameters n)
    (same : List.Forall₂ (Parameter.Alike alike) parameters again) : IsTolerance again n := by
  cases tolerance with
  | none =>
    cases same
    exact .none
  | some component =>
    obtain _ | ⟨first, ⟨⟩⟩ := same
    exact .some (first.isComponent component)

theorem AreChannels.respell {hasAlpha : Bool} {parameters again : List Parameter} {color : Color}
    {tolerance : UInt8} (channels : AreChannels hasAlpha parameters color tolerance)
    (same : List.Forall₂ (Parameter.Alike alike) parameters again) :
    AreChannels hasAlpha again color tolerance := by
  cases channels with
  | rgb red green blue tolerance =>
    obtain _ | ⟨first, _ | ⟨second, _ | ⟨third, more⟩⟩⟩ := same
    exact .rgb (first.isComponent red) (second.isComponent green) (third.isComponent blue)
      (tolerance.respell more)
  | argb alpha red green blue tolerance =>
    obtain _ | ⟨first, _ | ⟨second, _ | ⟨third, _ | ⟨fourth, more⟩⟩⟩⟩ := same
    exact .argb (first.isComponent alpha) (second.isComponent red) (third.isComponent green)
      (fourth.isComponent blue) (tolerance.respell more)

theorem IsColor.respell {color : Color} {tolerance : UInt8}
    (derives : IsColor tokens color tolerance)
    (same : List.Forall₂ (Token.Alike alike) tokens others) : IsColor others color tolerance := by
  cases derives with
  | channels kind isList are =>
    obtain _ | ⟨name, inner⟩ := same
    obtain ⟨again, isList, names⟩ := isList.respell inner
    exact .channels (name.kind ▸ kind) isList (are.respell names)

theorem IsCondition.respell {condition : Condition} {negated : Bool}
    (derives : IsCondition tokens condition negated)
    (same : List.Forall₂ (Token.Alike alike) tokens others) :
    IsCondition others condition negated := by
  cases derives with
  | pixel kind isPlace isX isY compares isColor =>
    rw [List.cons_append] at same
    obtain _ | ⟨name, inner⟩ := same
    obtain ⟨place, _, rfl, left, _ | ⟨operator, right⟩⟩ := exists_append_of_forall₂ inner
    obtain ⟨_, isPlace, _ | ⟨first, _ | ⟨second, ⟨⟩⟩⟩⟩ := isPlace.respell left
    exact .pixel (name.kind ▸ kind) isPlace (first.isInteger isX) (second.isInteger isY)
      (operator.kind ▸ compares) (isColor.respell right)
  | expression kind isList =>
    obtain _ | ⟨name, inner⟩ := same
    obtain ⟨_, isList, _ | ⟨source, ⟨⟩⟩⟩ := isList.respell inner
    rw [source.eq_string] at isList
    exact .expression (name.kind ▸ kind) isList

theorem eq_strings {texts : List String} {again : List Parameter}
    (same : List.Forall₂ (Parameter.Alike alike) (texts.map .string) again) :
    again = texts.map .string := by
  induction texts generalizing again with
  | nil =>
    cases same
    rfl
  | cons text more ih =>
    obtain _ | ⟨first, rest⟩ := same
    rw [first.eq_string, ih rest, List.map_cons]

/-- Tokens that are alike are statements that are alike. -/
theorem IsStatement.respell (likeness : IsLikeness alike) {statement : Statement}
    (derives : IsStatement tokens statement)
    (same : List.Forall₂ (Token.Alike alike) tokens others) :
    ∃ other, IsStatement others other ∧ Statement.Alike alike statement other := by
  -- Each rule applies to the other tokens as well: only the words in it are spelled otherwise.
  cases derives with
  | delay kind isList low high =>
    obtain _ | ⟨command, inner⟩ := same
    obtain ⟨_, isList, _ | ⟨number, ⟨⟩⟩⟩ := isList.respell inner
    rw [number.eq_number] at isList
    exact ⟨_, .delay (command.kind ▸ kind) isList low high, .same⟩
  | mouse kind isList acts isX isY =>
    obtain _ | ⟨command, inner⟩ := same
    obtain ⟨_, isList, _ | ⟨action, _ | ⟨first, _ | ⟨second, ⟨⟩⟩⟩⟩⟩ := isList.respell inner
    obtain ⟨name, rfl, names⟩ := action.exists_word likeness
    have acts := acts.trans (likeness.letters names)
    exact ⟨_, .mouse (command.kind ▸ kind) isList acts (first.isInteger isX) (second.isInteger isY),
      .same⟩
  | wheel kind isList acts isX isY isAmount =>
    obtain _ | ⟨command, inner⟩ := same
    obtain ⟨_, isList, _ | ⟨action, _ | ⟨first, _ | ⟨second, _ | ⟨third, ⟨⟩⟩⟩⟩⟩⟩ :=
      isList.respell inner
    obtain ⟨name, rfl, names⟩ := action.exists_word likeness
    have acts := acts.trans (likeness.letters names)
    exact ⟨_, .wheel (command.kind ▸ kind) isList acts (first.isInteger isX) (second.isInteger isY)
      (third.isInteger isAmount), .same⟩
  | key kind isList acts isKey =>
    obtain _ | ⟨command, inner⟩ := same
    obtain ⟨_, isList, _ | ⟨action, _ | ⟨key, ⟨⟩⟩⟩⟩ := isList.respell inner
    obtain ⟨name, rfl, names⟩ := action.exists_word likeness
    have acts := acts.trans (likeness.letters names)
    exact ⟨_, .key (command.kind ▸ kind) isList acts (key.isKey likeness isKey), .same⟩
  | script kind isList nonempty =>
    obtain _ | ⟨command, inner⟩ := same
    obtain ⟨again, isList, names⟩ := isList.respell inner
    rw [eq_strings names] at isList
    exact ⟨_, .script (command.kind ▸ kind) isList nonempty, .same⟩
  | exit kind =>
    obtain _ | ⟨command, ⟨⟩⟩ := same
    exact ⟨_, .exit (command.kind ▸ kind), .same⟩
  | ifBlock kind opens isCondition closes =>
    simp only [List.cons_append] at same
    obtain _ | ⟨command, _ | ⟨opening, inner⟩⟩ := same
    obtain ⟨front, _, rfl, left, _ | ⟨closing, ⟨⟩⟩⟩ := exists_append_of_forall₂ inner
    exact ⟨_, .ifBlock (command.kind ▸ kind) (opening.kind ▸ opens) (isCondition.respell left)
      (closing.kind ▸ closes), .same⟩
  | elseBlock kind =>
    obtain _ | ⟨command, ⟨⟩⟩ := same
    exact ⟨_, .elseBlock (command.kind ▸ kind), .same⟩
  | endIf kind =>
    obtain _ | ⟨command, ⟨⟩⟩ := same
    exact ⟨_, .endIf (command.kind ▸ kind), .same⟩
  | whileBlock kind opens isCondition closes =>
    simp only [List.cons_append] at same
    obtain _ | ⟨command, _ | ⟨opening, inner⟩⟩ := same
    obtain ⟨front, _, rfl, left, _ | ⟨closing, ⟨⟩⟩⟩ := exists_append_of_forall₂ inner
    exact ⟨_, .whileBlock (command.kind ▸ kind) (opening.kind ▸ opens) (isCondition.respell left)
      (closing.kind ▸ closes), .same⟩
  | endWhile kind =>
    obtain _ | ⟨command, ⟨⟩⟩ := same
    exact ⟨_, .endWhile (command.kind ▸ kind), .same⟩
  | leave kind =>
    obtain _ | ⟨command, ⟨⟩⟩ := same
    exact ⟨_, .leave (command.kind ▸ kind), .same⟩
  | label kind wordlike =>
    obtain _ | ⟨command, _ | ⟨name, ⟨⟩⟩⟩ := same
    exact ⟨_, .label (command.kind ▸ kind) (name.kind ▸ wordlike), .label (name.word wordlike)⟩
  | goto kind wordlike =>
    obtain _ | ⟨command, _ | ⟨name, ⟨⟩⟩⟩ := same
    exact ⟨_, .goto (command.kind ▸ kind) (name.kind ▸ wordlike), .goto (name.word wordlike)⟩

end

end InputTape.Script
