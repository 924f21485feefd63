import InputTape.Script.Statement

/-! What reading a statement complains of.

A line is read without regard to the lines in front of it. So nothing that is wrong with it has to do
with what is laid out already; in particular no label can be there twice. And a number is complained of
only if it stands on the line and has no value.
-/

set_option autoImplicit false

namespace InputTape.Script

def Unreadable (tokens : List Token) (spelled : String) : Prop :=
  ∃ token ∈ tokens, token.kind = .number ∧ token.text = spelled ∧ Decimal.readFloat? spelled = none

def Problem.IsOfLine (tokens : List Token) : Problem → Prop
  | .duplicateLabel _ | .unterminatedBlock _ _ | .undefinedLabel _ _ => False
  | .elseUnmatched | .endIfUnmatched | .endWhileUnmatched | .breakOutsideLoop => False
  | .invalidNumber spelled => Unreadable tokens spelled
  | _ => True

/-- What goes wrong is a problem of a line by itself. -/
def Complains {α : Type} (tokens : List Token) (result : Except Problem α) : Prop :=
  ∀ problem, result = .error problem → problem.IsOfLine tokens

variable {tokens : List Token}

namespace Complains

variable {α β : Type}

theorem ok {value : α} : Complains tokens (.ok value) := nofun

theorem error {problem : Problem} (ofLine : problem.IsOfLine tokens) :
    Complains tokens (.error problem : Except Problem α) := by
  rintro _ ⟨⟩
  exact ofLine

theorem bind {first : Except Problem α} {second : α → Except Problem β}
    (complains : Complains tokens first) (next : ∀ value, Complains tokens (second value)) :
    Complains tokens (first >>= second) := by
  cases first with
  | error problem => exact .error (complains problem rfl)
  | ok value => exact next value

theorem mapM {each : α → Except Problem β} (complains : ∀ value, Complains tokens (each value))
    (values : List α) : Complains tokens (values.mapM each) := by
  induction values with
  | nil => exact .ok
  | cons first more ih =>
    rw [List.mapM_cons]
    exact (complains first).bind fun _ => ih.bind fun _ => .ok

end Complains

theorem complains_int32 (what : String) (parameter : Parameter) :
    Complains tokens (parameter.int32 what) := by
  unfold Parameter.int32
  repeat' first | exact .ok | exact .error trivial | split

theorem complains_component (color : String) (parameter : Parameter) :
    Complains tokens (parameter.component color) := by
  unfold Parameter.component
  repeat' first | exact .ok | exact .error trivial | split

section

variable (parameters : List Parameter)

theorem complains_ofDelay : Complains tokens (Statement.ofDelay parameters) := by
  unfold Statement.ofDelay
  repeat' first | exact .ok | exact .error trivial | split

theorem complains_wheelAmount (action : MouseAction) :
    Complains tokens (Statement.wheelAmount action parameters) := by
  unfold Statement.wheelAmount
  repeat' first | exact .ok | exact .error trivial | exact complains_int32 _ _ | split

theorem complains_ofMouse : Complains tokens (Statement.ofMouse parameters) := by
  unfold Statement.ofMouse
  repeat' first
    | exact .ok
    | exact .error trivial
    | exact complains_int32 _ _
    | exact complains_wheelAmount _ _
    | refine .bind ?_ fun _ => ?_
    | split

theorem complains_ofKey : Complains tokens (Statement.ofKey parameters) := by
  unfold Statement.ofKey
  repeat' first | exact .ok | exact .error trivial | refine .bind ?_ fun _ => ?_ | split

theorem complains_ofScript : Complains tokens (Statement.ofScript parameters) := by
  unfold Statement.ofScript
  repeat' first
    | exact .ok
    | exact .error trivial
    | refine .mapM (fun _ => ?_) _
    | refine .bind ?_ fun _ => ?_
    | split

theorem complains_colorOf (hasAlpha : Bool) : Complains tokens (colorOf hasAlpha parameters) := by
  unfold colorOf
  dsimp only
  repeat' first
    | exact .ok
    | exact .error trivial
    | exact .mapM (complains_component _) _
    | refine .bind ?_ fun _ => ?_
    | split

end

namespace LineReader

/-- What a reader leaves of a line with such tokens are such tokens, and what it complains of is the line
itself. -/
structure Complains {α : Type} (tokens : List Token) (reader : LineReader α) : Prop where
  ofLine : ∀ line, line.tokens ⊆ tokens → Script.Complains tokens (reader.run line)
  keeps : ∀ line value rest, line.tokens ⊆ tokens → reader.run line = .ok (value, rest) →
    rest.tokens ⊆ tokens

namespace Complains

variable {α β : Type}

theorem pure {value : α} : Complains tokens (Pure.pure value) where
  ofLine _ _ := .ok
  keeps := by
    rintro line _ _ inside ⟨⟩
    exact inside

theorem throw {problem : Problem} (ofLine : problem.IsOfLine tokens) :
    Complains tokens (throw problem : LineReader α) where
  ofLine _ _ := .error ofLine
  keeps := nofun

theorem andThen {reached : α → Prop} {first : LineReader α} {second : α → LineReader β}
    (complains : Complains tokens first)
    (reaches : ∀ line value rest, line.tokens ⊆ tokens → first.run line = .ok (value, rest) →
      reached value)
    (next : ∀ value, reached value → Complains tokens (second value)) :
    Complains tokens (first >>= second) where
  ofLine line inside := by
    rw [StateT.run_bind]
    cases read : first.run line with
    | error problem => exact .error (complains.ofLine line inside problem read)
    | ok value =>
      obtain ⟨value, rest⟩ := value
      have holds := reaches line value rest inside read
      exact (next value holds).ofLine rest (complains.keeps line value rest inside read)
  keeps line value last inside ran := by
    rw [StateT.run_bind] at ran
    cases read : first.run line with
    | error problem =>
      rw [read] at ran
      cases ran
    | ok between =>
      obtain ⟨between, rest⟩ := between
      rw [read] at ran
      have holds := reaches line between rest inside read
      exact (next between holds).keeps rest value last
        (complains.keeps line between rest inside read) ran

theorem bind {first : LineReader α} {second : α → LineReader β} (complains : Complains tokens first)
    (next : ∀ value, Complains tokens (second value)) : Complains tokens (first >>= second) := by
  have anything (line : Line) (value : α) (rest : Line) : line.tokens ⊆ tokens →
      first.run line = .ok (value, rest) → True := fun _ _ => trivial
  exact complains.andThen anything fun value _ => next value

theorem discard {reader : LineReader α} (complains : Complains tokens reader) :
    Complains tokens (Functor.discard reader) :=
  complains.bind fun _ => pure

theorem lift {result : Except Problem α} (complains : Script.Complains tokens result) :
    Complains tokens (liftM result : LineReader α) where
  ofLine _ _ := complains.bind fun _ => .ok
  keeps line value rest inside ran := by
    cases result with
    | error problem => cases ran
    | ok given =>
      cases ran
      exact inside

end Complains

variable {β : Type}

theorem complains_next? : Complains tokens next? where
  ofLine := by rintro ⟨_ | ⟨token, rest⟩, _ | _⟩ _ <;> first | exact .ok | exact .error trivial
  keeps := by
    rintro ⟨_ | ⟨token, rest⟩, _ | _⟩ value rest inside ran <;> cases ran
    · exact inside
    · exact List.subset_of_cons_subset inside
    · exact List.subset_of_cons_subset inside

theorem complains_peek? : Complains tokens peek? where
  ofLine := by rintro ⟨_ | ⟨token, rest⟩, _ | _⟩ _ <;> first | exact .ok | exact .error trivial
  keeps := by rintro ⟨_ | ⟨token, rest⟩, _ | _⟩ value rest inside ran <;> cases ran <;> exact inside

theorem complains_expectAny (what : String) : Complains tokens (expectAny what) := by
  refine complains_next?.bind fun found => ?_
  cases found with
  | none => exact .throw trivial
  | some token => exact .pure

theorem complains_behind {what : String} {next : Token → LineReader β}
    (complains : ∀ token ∈ tokens, Complains tokens (next token)) :
    Complains tokens (expectAny what >>= next) := by
  refine (complains_expectAny what).andThen ?_ complains
  rintro ⟨_ | ⟨token, rest⟩, _ | _⟩ value last inside ran <;> cases ran
  · exact inside List.mem_cons_self
  · exact inside List.mem_cons_self

theorem complains_behindKind {kind : TokenKind} {what : String} {next : Token → LineReader β}
    (complains : ∀ token ∈ tokens, token.kind = kind → Complains tokens (next token)) :
    Complains tokens (expect kind what >>= next) := by
  unfold expect
  rw [bind_assoc]
  refine complains_behind fun token member => ?_
  split
  · next same => exact complains token member (eq_of_beq same)
  · have refused : Complains tokens (throw (.expectedNot what token.text) : LineReader Token) :=
      .throw trivial
    have nothing (line : Line) (value : Token) (rest : Line) : line.tokens ⊆ tokens →
        (throw (.expectedNot what token.text) : LineReader Token).run line = .ok (value, rest) →
        False := nofun
    exact refused.andThen nothing nofun

theorem complains_expect (kind : TokenKind) (what : String) :
    Complains tokens (expect kind what) := by
  refine (complains_expectAny what).bind fun token => ?_
  split
  · exact .pure
  · exact .throw trivial

theorem complains_finish : Complains tokens finish := by
  refine complains_next?.bind fun found => ?_
  cases found with
  | none => exact .pure
  | some token => exact .throw trivial

theorem complains_number {token : Token} (member : token ∈ tokens) (kind : token.kind = .number) :
    Complains tokens (number token) := by
  unfold number
  split
  · exact .pure
  · next unread => exact .throw ⟨token, member, kind, rfl, unread⟩

section

variable (command : String)

theorem complains_parameter : Complains tokens (parameter command) := by
  refine complains_behind fun token member => ?_
  split
  · exact complains_behindKind fun digits among kind =>
      (complains_number among kind).bind fun _ => .pure
  · next kind => exact (complains_number member kind).bind fun _ => .pure
  · exact .pure
  · exact .pure
  · exact .pure
  · exact .throw trivial

theorem complains_parametersFrom (limit : Nat) :
    Complains tokens (parametersFrom command limit) := by
  induction limit with
  | zero => exact (complains_parameter command).bind fun _ => .pure
  | succ limit ih =>
    refine (complains_parameter command).bind fun first => ?_
    refine (complains_expectAny _).bind fun token => ?_
    split
    · exact ih.bind fun _ => .pure
    · exact .pure
    · exact .throw trivial

theorem complains_parameters : Complains tokens (parameters command) := by
  refine (complains_expect _ _).discard.bind fun _ => complains_peek?.bind fun kind => ?_
  split
  · exact complains_next?.discard.bind fun _ => .pure
  -- How many there may be depends on the line.
  · exact {
      ofLine := fun line => (complains_parametersFrom command line.tokens.length).ofLine line
      keeps := fun line => (complains_parametersFrom command line.tokens.length).keeps line }

end
end LineReader

open LineReader

theorem complains_pixelCondition : pixelCondition.Complains tokens := by
  refine (complains_parameters _).bind fun parameters => ?_
  split
  · refine .bind (.lift (complains_int32 _ _)) fun x => ?_
    refine .bind (.lift (complains_int32 _ _)) fun y => ?_
    refine (complains_expectAny _).bind fun sign => ?_
    extract_lets behindSign
    have complains (negated : Bool) : (behindSign negated).Complains tokens := by
      refine (complains_expectAny _).bind fun color => ?_
      extract_lets behindColor
      have complains (hasAlpha : Bool) : (behindColor hasAlpha).Complains tokens :=
        (complains_parameters _).bind fun _ =>
          (LineReader.Complains.lift (complains_colorOf _ _)).bind fun _ => .pure
      split
      · exact .bind .pure complains
      · exact .bind .pure complains
      · exact .bind (.throw trivial) complains
    split
    · exact .bind .pure complains
    · exact .bind .pure complains
    · exact .bind (.throw trivial) complains
  · exact .throw trivial

theorem complains_parenthesisedCondition : parenthesisedCondition.Complains tokens := by
  refine (complains_expect _ _).discard.bind fun _ => (complains_expectAny _).bind fun token => ?_
  extract_lets behindCondition
  have complains (condition : Condition × Bool) : (behindCondition condition).Complains tokens :=
    (complains_expect _ _).discard.bind fun _ => .pure
  split
  · exact complains_pixelCondition.bind complains
  · refine (complains_parameters _).bind fun _ => ?_
    split
    · exact .bind .pure complains
    · exact .bind (.throw trivial) complains
  · exact .bind (.throw trivial) complains

theorem complains_labelName (command : String) : (labelName command).Complains tokens := by
  refine (complains_expectAny _).bind fun token => ?_
  extract_lets behindName behindKind
  have complains (checked : Unit) : (behindKind checked).Complains tokens := by
    unfold behindKind
    split
    · exact .bind (.throw trivial) fun _ => .pure
    · exact .pure
  split
  · exact .bind (.throw trivial) complains
  · exact complains ()

theorem complains_read (token : Token) (keyword : Keyword) :
    (Statement.read token keyword).Complains tokens := by
  cases keyword with
  | delay => exact (complains_parameters _).bind fun _ => .lift (complains_ofDelay _)
  | mouse => exact (complains_parameters _).bind fun _ => .lift (complains_ofMouse _)
  | key => exact (complains_parameters _).bind fun _ => .lift (complains_ofKey _)
  | script => exact (complains_parameters _).bind fun _ => .lift (complains_ofScript _)
  | label | goto => exact (complains_labelName _).bind fun _ => .pure
  | ifBlock | whileBlock => exact complains_parenthesisedCondition.bind fun _ => .pure
  | exit | elseBlock | endIf | endWhile | leave => exact .pure
  | pixelColor | rgb | argb | custom => exact .throw trivial

theorem complains_statement? : statement?.Complains tokens := by
  refine complains_next?.bind fun found => ?_
  split
  · exact .pure
  · split
    · exact (complains_read _ _).bind fun _ => .pure
    · exact .throw trivial
    · exact .throw trivial

end InputTape.Script
