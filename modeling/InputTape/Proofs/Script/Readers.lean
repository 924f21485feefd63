import InputTape.Proofs.Decimal.Words
import InputTape.Proofs.Input.Names
import InputTape.Proofs.Script.Grammar
import Mathlib.Data.List.Forall2

/-! What readers read.

A reader takes tokens from the front of a line. `Reads` says which tokens it takes and what it makes
of them, and that it takes nothing else: it is at once that nothing is read that should not be, and
that everything is read that should be.
-/

set_option autoImplicit false

namespace InputTape.Script

open LineReader

/-- Reads tokens of a shape from the front of any line, and nothing else. -/
def Reads {α : Type} (reader : LineReader α) (shape : List Token → α → Prop) : Prop :=
  ∀ line value rest, reader.run line = .ok (value, rest) ↔
    ∃ front, line = ⟨front ++ rest.tokens, rest.isUnterminated⟩ ∧ shape front value

section

variable {α β : Type} {reader first : LineReader α} {second : α → LineReader β}
  {shape : List Token → α → Prop}

theorem run_bind_eq_ok {line rest : Line} {value : β} :
    (first >>= second).run line = .ok (value, rest) ↔
      ∃ between middle, first.run line = .ok (between, middle) ∧
        (second between).run middle = .ok (value, rest) := by
  rw [StateT.run_bind]
  cases first.run line with
  | error problem => simp [bind, Except.bind]
  | ok read =>
    obtain ⟨between, middle⟩ := read
    constructor
    · intro ran
      exact ⟨between, middle, rfl, ran⟩
    · rintro ⟨_, _, ⟨⟩, ran⟩
      exact ran

theorem Reads.congr {other : List Token → α → Prop} (reads : Reads reader shape)
    (same : ∀ tokens value, shape tokens value ↔ other tokens value) : Reads reader other := by
  intro line value rest
  simp only [reads line value rest, same]

theorem Reads.andThen {next : α → List Token → β → Prop} (reads : Reads first shape)
    (later : ∀ value, Reads (second value) (next value)) :
    Reads (first >>= second) fun tokens value => ∃ between front back,
      tokens = front ++ back ∧ shape front between ∧ next between back value := by
  intro line value rest
  simp only [run_bind_eq_ok, reads _ _ _, later _ _ _ _]
  constructor
  · rintro ⟨between, middle, ⟨front, rfl, left⟩, back, rfl, right⟩
    exact ⟨front ++ back, by rw [List.append_assoc], between, front, back, rfl, left, right⟩
  · rintro ⟨_, rfl, between, front, back, rfl, left, right⟩
    exact ⟨between, ⟨back ++ rest.tokens, rest.isUnterminated⟩,
      ⟨front, by rw [List.append_assoc], left⟩, back, rfl, right⟩

theorem reads_lift (made : Except Problem α) :
    Reads (liftM made) fun tokens value => tokens = [] ∧ made = .ok value := by
  intro line value rest
  obtain ⟨tokens, isUnterminated⟩ := line
  obtain ⟨others, other⟩ := rest
  change (made >>= fun given => Except.ok (given, _)) = _ ↔ _
  cases made with
  | error problem => simp [bind, Except.bind]
  | ok given =>
    constructor
    · rintro ⟨⟩
      exact ⟨[], rfl, rfl, rfl⟩
    · rintro ⟨_, ⟨⟩, rfl, ⟨⟩⟩
      rfl

theorem reads_pure (given : α) :
    Reads (pure given) fun tokens value => tokens = [] ∧ value = given :=
  (reads_lift (.ok given)).congr fun tokens value => by simp [eq_comm]

theorem reads_throw (problem : Problem) :
    Reads (throw problem : LineReader α) fun _ _ => False :=
  (reads_lift (.error problem)).congr fun tokens value => by simp

theorem reads_expectAny (what : String) :
    Reads (expectAny what) fun tokens token => tokens = [token] := by
  rintro ⟨tokens, isUnterminated⟩ value ⟨others, other⟩
  cases tokens with
  | nil =>
    constructor
    · intro ran
      cases isUnterminated <;> cases ran
    · rintro ⟨_, same, rfl⟩
      cases same
  | cons token more =>
    constructor
    · intro ran
      cases ran
      exact ⟨[_], rfl, rfl⟩
    · rintro ⟨_, same, rfl⟩
      cases same
      rfl

theorem Reads.behind {what : String} {next : Token → LineReader β}
    {shape : List Token → β → Prop} (nonempty : ∀ value, ¬ shape [] value)
    (later : ∀ token, Reads (next token) fun tokens value => shape (token :: tokens) value) :
    Reads (expectAny what >>= next) shape := by
  refine ((reads_expectAny what).andThen later).congr fun tokens value => ?_
  constructor
  · rintro ⟨token, _, back, rfl, rfl, shaped⟩
    exact shaped
  · intro shaped
    cases tokens with
    | nil => exact absurd shaped (nonempty value)
    | cons token back => exact ⟨token, [token], back, rfl, rfl, shaped⟩

theorem reads_expect (kind : TokenKind) (what : String) :
    Reads (expect kind what) fun tokens token => tokens = [token] ∧ token.kind = kind := by
  refine Reads.behind (fun token same => by cases same.1) fun token => ?_
  by_cases same : token.kind = kind
  · simp only [same, beq_self_eq_true, if_true]
    refine (reads_pure token).congr fun tokens value => ?_
    constructor
    · rintro ⟨rfl, rfl⟩
      exact ⟨rfl, same⟩
    · rintro ⟨⟨⟩, -⟩
      exact ⟨rfl, rfl⟩
  · simp only [beq_iff_eq, same, if_false]
    refine (reads_throw _).congr fun tokens value => ⟨nofun, ?_⟩
    rintro ⟨⟨⟩, kinds⟩
    exact same kinds

theorem reads_number (token : Token) :
    Reads (number token) fun tokens value =>
      tokens = [] ∧ Decimal.readFloat? token.text = some value := by
  unfold number
  cases Decimal.readFloat? token.text with
  | none => exact (reads_throw _).congr fun tokens value => by simp
  | some given => exact (reads_pure given).congr fun tokens value => by simp [eq_comm]

/-! ## Parameters -/

theorem reads_parameter (command : String) : Reads (parameter command) IsParameter := by
  refine Reads.behind nofun fun token => ?_
  obtain ⟨kind, text, line, column⟩ := token
  have refused {kind : TokenKind} {problem : Problem} (number : kind ≠ .number)
      (minus : kind ≠ .operator .minus) (string : kind ≠ .string) (word : ¬ kind.IsWordlike) :
      Reads (throw problem : LineReader Parameter) fun tokens value =>
        IsParameter (⟨kind, text, line, column⟩ :: tokens) value := by
    refine (reads_throw _).congr fun tokens value => ⟨nofun, fun derives => ?_⟩
    cases derives <;> contradiction
  have worded {kind : TokenKind} (word : kind.IsWordlike) :
      Reads (pure (.word text)) fun tokens value =>
        IsParameter (⟨kind, text, line, column⟩ :: tokens) value := by
    refine (reads_pure _).congr fun tokens value => ?_
    constructor
    · rintro ⟨rfl, rfl⟩
      exact .word word
    · intro derives
      cases derives <;> first | exact ⟨rfl, rfl⟩ | simp_all [TokenKind.IsWordlike]
  -- The first token decides which rule can apply.
  cases kind with
  | number =>
    refine ((reads_number _).andThen fun _ => reads_pure _).congr fun tokens value => ?_
    constructor
    · rintro ⟨value, _, _, rfl, ⟨rfl, reads⟩, rfl, rfl⟩
      exact .number rfl reads
    · intro derives
      cases derives with
      | number _ reads => exact ⟨_, [], [], rfl, ⟨rfl, reads⟩, rfl, rfl⟩
      | negative minus => cases minus
      | string string => cases string
      | word word => cases word
  | string =>
    refine (reads_pure _).congr fun tokens value => ?_
    constructor
    · rintro ⟨rfl, rfl⟩
      exact .string rfl
    · intro derives
      cases derives with
      | number number => cases number
      | negative minus => cases minus
      | string => exact ⟨rfl, rfl⟩
      | word word => cases word
  | operator operator =>
    by_cases minus : operator = .minus
    · subst minus
      refine ((reads_expect .number "a number after '-'").andThen fun digits =>
        (reads_number digits).andThen fun _ => reads_pure _).congr fun tokens value => ?_
      constructor
      · rintro ⟨digits, _, _, rfl, ⟨rfl, number⟩, value, _, _, rfl, ⟨rfl, reads⟩, rfl, rfl⟩
        exact .negative rfl number reads
      · intro derives
        cases derives with
        | negative _ number reads =>
          exact ⟨_, [_], [], rfl, ⟨rfl, number⟩, _, [], [], rfl, ⟨rfl, reads⟩, rfl, rfl⟩
        | number number => cases number
        | string string => cases string
        | word word => cases word
    · have other := @refused (.operator operator) (.malformedParameters command text) nofun
        (fun same => minus (TokenKind.operator.inj same)) nofun id
      cases operator <;> first | exact absurd rfl minus | exact other
  | word => exact worded trivial
  | keyword => exact worded trivial
  | _ => exact refused nofun nofun nofun id

theorem IsParameter.ne_nil {tokens : List Token} {parameter : Parameter}
    (derives : IsParameter tokens parameter) : tokens ≠ [] := by
  cases derives <;> exact List.cons_ne_nil _ _

theorem reads_behindParameter {command : String} {token : Token} {first : Parameter}
    {more : LineReader (List Parameter)} {line rest : Line} {value : List Parameter}
    (reads : ∀ parameters, more.run line = .ok (parameters, rest) ↔
      ∃ front, line = ⟨front ++ rest.tokens, rest.isUnterminated⟩ ∧
        AreParameters front parameters) :
    (match token.kind with
      | .comma => do return first :: (← more)
      | .closeParen => return [first]
      | _ => throw (.malformedParameters command token.text) : LineReader (List Parameter)).run line =
        .ok (value, rest) ↔
      (token.kind = .closeParen ∧ line = rest ∧ value = [first]) ∨
      ∃ front parameters, token.kind = .comma ∧ value = first :: parameters ∧
        line = ⟨front ++ rest.tokens, rest.isUnterminated⟩ ∧ AreParameters front parameters := by
  obtain ⟨kind, text, number, column⟩ := token
  cases kind with
  | comma =>
    change (more >>= fun parameters => pure (first :: parameters)).run line = _ ↔ _
    rw [run_bind_eq_ok]
    constructor
    · rintro ⟨parameters, _, ran, ⟨⟩⟩
      obtain ⟨front, rfl, are⟩ := (reads parameters).mp ran
      exact .inr ⟨front, parameters, rfl, rfl, rfl, are⟩
    · rintro (⟨⟨⟩, -⟩ | ⟨front, parameters, -, rfl, same, are⟩)
      exact ⟨parameters, rest, (reads parameters).mpr ⟨front, same, are⟩, rfl⟩
  | closeParen =>
    constructor
    · rintro ⟨⟩
      exact .inl ⟨rfl, rfl, rfl⟩
    · rintro (⟨-, rfl, rfl⟩ | ⟨_, _, ⟨⟩, -⟩)
      rfl
  | _ =>
    constructor
    · rintro ⟨⟩
    · rintro (⟨⟨⟩, -⟩ | ⟨_, _, ⟨⟩, -⟩)

theorem AreParameters.ne_nil {tokens : List Token} {parameters : List Parameter}
    (derives : AreParameters tokens parameters) : tokens ≠ [] := by
  cases derives <;> simp

/-- The bound is the number of tokens that are left, so it is never what ends the list. -/
theorem reads_parametersFrom (command : String) (limit : Nat) {line rest : Line}
    {value : List Parameter} (bound : line.tokens.length ≤ limit) :
    (parametersFrom command limit).run line = .ok (value, rest) ↔
      ∃ front, line = ⟨front ++ rest.tokens, rest.isUnterminated⟩ ∧ AreParameters front value := by
  -- Every parameter takes a token at least, so the bound keeps the list from being cut short.
  induction limit generalizing line value with
  | zero =>
    obtain ⟨tokens, isUnterminated⟩ := line
    cases List.length_eq_zero_iff.mp (Nat.le_zero.mp bound)
    unfold parametersFrom
    simp only [run_bind_eq_ok, reads_parameter command _ _ _]
    constructor
    · rintro ⟨_, _, ⟨front, same, derives⟩, -⟩
      have none := congrArg Line.tokens same
      exact absurd (List.append_eq_nil_iff.mp none.symm).1 derives.ne_nil
    · rintro ⟨front, same, are⟩
      have none := congrArg Line.tokens same
      exact absurd (List.append_eq_nil_iff.mp none.symm).1 are.ne_nil
  | succ limit ih =>
    unfold parametersFrom
    simp only [run_bind_eq_ok]
    constructor
    · rintro ⟨first, _, ran, token, after, took, goes⟩
      obtain ⟨front, rfl, isFirst⟩ := (reads_parameter command _ _ _).mp ran
      obtain ⟨_, ⟨⟩, rfl⟩ := (reads_expectAny _ _ _ _).mp took
      have fewer : after.tokens.length ≤ limit := by
        simp only [List.length_append, List.length_singleton] at bound
        omega
      rcases (reads_behindParameter fun parameters => ih fewer).mp goes with
        ⟨closing, rfl, rfl⟩ | ⟨back, parameters, comma, rfl, same, are⟩
      · exact ⟨front ++ [token], by rw [List.append_assoc], .last isFirst closing⟩
      · rw [same]
        exact ⟨front ++ token :: back, by simp, .more isFirst comma are⟩
    · rintro ⟨front, rfl, are⟩
      cases are with
      | @last tokens first closing isFirst closes =>
        refine ⟨first, ⟨closing :: rest.tokens, rest.isUnterminated⟩,
          (reads_parameter command _ _ _).mpr ⟨tokens, by simp, isFirst⟩, closing, rest,
          (reads_expectAny _ _ _ _).mpr ⟨[closing], rfl, rfl⟩, ?_⟩
        rw [closes]
        rfl
      | @more tokens back first parameters comma isFirst separates are =>
        have fewer : (back ++ rest.tokens).length ≤ limit := by
          simp only [List.length_append, List.length_cons] at bound ⊢
          omega
        refine ⟨first, ⟨comma :: back ++ rest.tokens, rest.isUnterminated⟩,
          (reads_parameter command _ _ _).mpr ⟨tokens, by simp, isFirst⟩, comma,
          ⟨back ++ rest.tokens, rest.isUnterminated⟩,
          (reads_expectAny _ _ _ _).mpr ⟨[comma], rfl, rfl⟩, ?_⟩
        exact (reads_behindParameter fun parameters => ih fewer).mpr
          (.inr ⟨back, parameters, separates, rfl, rfl, are⟩)

theorem IsParameter.head {first : Token} {more : List Token} {parameter : Parameter}
    (derives : IsParameter (first :: more) parameter) : first.kind ≠ .closeParen := by
  intro closing
  cases derives with
  | number kind | negative kind | string kind => cases closing.symm.trans kind
  | word kind => exact absurd kind (by rw [closing]; exact id)

theorem AreParameters.head {first : Token} {more : List Token} {parameters : List Parameter}
    (derives : AreParameters (first :: more) parameters) : first.kind ≠ .closeParen := by
  generalize same : first :: more = tokens at derives
  cases derives with
  | @last front _ _ isParameter _ | @more front _ _ _ _ isParameter _ _ =>
    obtain ⟨again, others, rfl⟩ := List.exists_cons_of_ne_nil isParameter.ne_nil
    cases same
    exact isParameter.head

/-- What stands behind the opening parenthesis. Before anything else it is looked whether the list
is empty. -/
theorem reads_list (command : String) :
    Reads (do
      if (← peek?) == some .closeParen then
        discard next?
        return []
      parametersFrom command (← get).tokens.length) fun tokens value =>
        (∃ closing, tokens = [closing] ∧ closing.kind = .closeParen ∧ value = []) ∨
          AreParameters tokens value := by
  rintro ⟨tokens, isUnterminated⟩ value rest
  cases tokens with
  | nil =>
    cases isUnterminated with
    | true =>
      constructor
      · rintro ⟨⟩
      · rintro ⟨front, same, ⟨_, rfl, _⟩ | are⟩
        · cases same
        · exact absurd (List.append_eq_nil_iff.mp (congrArg Line.tokens same).symm).1 are.ne_nil
    | false =>
      change (parametersFrom command 0).run ⟨[], false⟩ = _ ↔ _
      rw [@reads_parametersFrom command 0 ⟨[], false⟩ _ _ (Nat.le_refl 0)]
      constructor
      · rintro ⟨front, same, are⟩
        exact ⟨front, same, .inr are⟩
      · rintro ⟨front, same, ⟨_, rfl, _⟩ | are⟩
        · cases same
        · exact ⟨front, same, are⟩
  | cons first more =>
    change (if (some first.kind == some TokenKind.closeParen) = true then
      (do discard next?; return [] : LineReader (List Parameter))
      else (do parametersFrom command (← get).tokens.length)).run ⟨first :: more, isUnterminated⟩ =
        _ ↔ _
    -- An empty list is told by looking one token ahead.
    by_cases closes : first.kind = .closeParen
    · rw [if_pos (by rw [closes]; rfl)]
      constructor
      · intro ran
        cases ran
        exact ⟨[first], rfl, .inl ⟨first, rfl, closes, rfl⟩⟩
      · rintro ⟨front, same, ⟨_, rfl, _, rfl⟩ | are⟩
        · cases same
          rfl
        · obtain ⟨again, others, rfl⟩ := List.exists_cons_of_ne_nil are.ne_nil
          cases same
          exact absurd closes are.head
    · rw [if_neg (by simp [closes])]
      change (parametersFrom command (first :: more).length).run ⟨first :: more, isUnterminated⟩ =
        _ ↔ _
      rw [@reads_parametersFrom command _ ⟨first :: more, isUnterminated⟩ _ _ (Nat.le_refl _)]
      constructor
      · rintro ⟨front, same, are⟩
        exact ⟨front, same, .inr are⟩
      · rintro ⟨front, same, ⟨closing, rfl, kind, _⟩ | are⟩
        · cases same
          exact absurd kind closes
        · exact ⟨front, same, are⟩

theorem reads_parameters (command : String) : Reads (parameters command) InParentheses := by
  have discards : Reads (discard (expect .openParen ("'(' after " ++ command))) fun tokens _ =>
      ∃ opening, tokens = [opening] ∧ opening.kind = .openParen :=
    ((reads_expect _ _).andThen fun _ => reads_pure ()).congr fun tokens value => by
      simp
  refine (discards.andThen fun _ => reads_list command).congr fun tokens value => ?_
  constructor
  · rintro ⟨_, _, back, rfl, ⟨opening, rfl, opens⟩, ⟨closing, rfl, closes, rfl⟩ | are⟩
    · exact .none opens closes
    · exact .some opens are
  · intro derives
    cases derives with
    | none opens closes =>
      exact ⟨(), [_], [_], rfl, ⟨_, rfl, opens⟩, .inl ⟨_, rfl, closes, rfl⟩⟩
    | some opens are => exact ⟨(), [_], _, rfl, ⟨_, rfl, opens⟩, .inr are⟩

end

/-! ## What is made of parameters -/

section

variable {ε α β : Type}

theorem bind_eq_ok {first : Except ε α} {second : α → Except ε β} {value : β} :
    first >>= second = .ok value ↔ ∃ between, first = .ok between ∧ second between = .ok value := by
  cases first with
  | error problem => simp [bind, Except.bind]
  | ok between => simp [bind, Except.bind]

theorem mapM_eq_ok {make : α → Except ε β} {list : List α} {made : List β} :
    list.mapM make = .ok made ↔
      List.Forall₂ (fun first second => make first = .ok second) list made := by
  induction list generalizing made with
  | nil => simp [pure, Except.pure, eq_comm]
  | cons first rest ih =>
    simp only [List.mapM_cons, bind_eq_ok, ih]
    constructor
    · rintro ⟨given, one, others, more, ⟨⟩⟩
      exact .cons one more
    · rintro (_ | ⟨one, more⟩)
      exact ⟨_, one, _, more, rfl⟩

end

section

variable {parameter : Parameter} {parameters : List Parameter} {statement : Statement}

theorem Parameter.isWhole_number {value : Float} {low high n : Int} (atLeast : low ≤ n)
    (atMost : n ≤ high) : (Parameter.number value).IsWhole low high n ↔
      wholeNumber? value = some n := by
  constructor
  · rintro ⟨_, ⟨⟩, whole, -⟩
    exact whole
  · exact fun whole => ⟨value, rfl, whole, atLeast, atMost⟩

theorem Parameter.isInteger_number {value : Float} {n : Int32} :
    (Parameter.number value).IsInteger n ↔ int32? value = some n := by
  have high := n.toInt_lt
  exact (isWhole_number n.le_toInt (by omega)).trans int32?_eq_some.symm

theorem Parameter.isComponent_number {value : Float} {n : UInt8} :
    (Parameter.number value).IsComponent n ↔ uint8? value = some n := by
  have high := n.toNat_lt
  exact (isWhole_number (by omega) (by omega)).trans uint8?_eq_some.symm

theorem Parameter.isKey_number {value : Float} {code : UInt16} :
    (Parameter.number value).IsKey ⟨code⟩ ↔ uint16? value = some code := by
  have high := code.toNat_lt
  rw [uint16?_eq_some, ← @isWhole_number value 0 65535 code.toNat (by omega) (by omega)]
  constructor
  · rintro (_ | whole)
    exact whole
  · exact .coded

theorem Parameter.isKey_word {name : String} {key : KeyCode} :
    (Parameter.word name).IsKey key ↔ KeyCode.ofName? name = some key := by
  rw [KeyCode.ofName?_eq_some]
  constructor
  · rintro (⟨member, spells⟩ | ⟨_, ⟨⟩, -⟩)
    exact ⟨_, member, spells, rfl⟩
  · rintro ⟨row, member, spells, rfl⟩
    exact .named member spells

theorem int32_eq_ok {what : String} {n : Int32} :
    parameter.int32 what = .ok n ↔ parameter.IsInteger n := by
  cases parameter with
  | number value =>
    rw [Parameter.isInteger_number, Parameter.int32]
    cases found : int32? value <;> simp
  | string | word => simp [Parameter.int32, Parameter.IsInteger, Parameter.IsWhole]

theorem component_eq_ok {color : String} {n : UInt8} :
    parameter.component color = .ok n ↔ parameter.IsComponent n := by
  cases parameter with
  | number value =>
    rw [Parameter.isComponent_number, Parameter.component]
    cases found : uint8? value <;> simp
  | string | word => simp [Parameter.component, Parameter.IsComponent, Parameter.IsWhole]

theorem ofDelay_eq_ok :
    Statement.ofDelay parameters = .ok statement ↔ ∃ milliseconds,
      parameters = [.number milliseconds] ∧ ¬ milliseconds < 0 ∧ ¬ longestDelay < milliseconds ∧
        statement = .delay milliseconds := by
  unfold Statement.ofDelay
  split
  · next milliseconds =>
    by_cases negative : milliseconds < 0
    · simp [negative]
    · by_cases long : longestDelay < milliseconds
      · simp [negative, long]
      · simp [negative, long, eq_comm]
  · next other =>
    constructor
    · rintro ⟨⟩
    · rintro ⟨milliseconds, rfl, -⟩
      exact absurd rfl (other milliseconds)

theorem ofScript_eq_ok :
    Statement.ofScript parameters = .ok statement ↔ ∃ texts : List String,
      parameters = texts.map .string ∧ texts ≠ [] ∧ statement = .script texts := by
  unfold Statement.ofScript
  cases parameters with
  | nil =>
    constructor
    · rintro ⟨⟩
    · rintro ⟨texts, same, nonempty, -⟩
      exact absurd (List.map_eq_nil_iff.mp same.symm) nonempty
  | cons first rest =>
    rw [if_neg (by simp)]
    simp only [bind_eq_ok, mapM_eq_ok]
    constructor
    · rintro ⟨texts, made, same⟩
      cases same
      refine ⟨texts, ?_, fun none => (by cases none; cases made), rfl⟩
      refine List.forall₂_eq_eq_eq ▸ (List.forall₂_map_right_iff.mpr (made.imp ?_))
      intro parameter text one
      cases parameter with
      | string =>
        cases one
        rfl
      | _ => cases one
    · rintro ⟨texts, same, -, rfl⟩
      refine ⟨texts, ?_, rfl⟩
      rw [same, List.forall₂_map_left_iff]
      exact List.forall₂_same.mpr fun _ _ => rfl

theorem ofKey_eq_ok :
    Statement.ofKey parameters = .ok statement ↔ ∃ name second action code,
      parameters = [.word name, second] ∧ action.name.toLower = name.toLower ∧
        second.IsKey code ∧ statement = .key action code := by
  unfold Statement.ofKey
  constructor
  · intro made
    split at made
    · next first second =>
      rcases first with _ | _ | name
      case word =>
        cases acts : KeyAction.ofName? name with
        | none =>
          simp only [acts] at made
          cases made
        | some action =>
          simp only [acts] at made
          cases second with
          | number value =>
            cases found : uint16? value <;> simp only [found] at made <;> cases made
            exact ⟨_, _, _, _, rfl, KeyAction.ofName?_eq_some.mp acts,
              Parameter.isKey_number.mpr found, rfl⟩
          | word key =>
            cases found : KeyCode.ofName? key <;> simp only [found] at made <;> cases made
            exact ⟨_, _, _, _, rfl, KeyAction.ofName?_eq_some.mp acts,
              Parameter.isKey_word.mpr found, rfl⟩
          | string => cases made
      all_goals cases made
    · cases made
  · rintro ⟨name, second, action, code, rfl, acts, keys, rfl⟩
    simp only [KeyAction.ofName?_eq_some.mpr acts]
    cases second with
    | word key =>
      simp only [Parameter.isKey_word.mp keys]
      rfl
    | number value =>
      simp only [Parameter.isKey_number.mp keys]
      rfl
    | string =>
      obtain _ | ⟨_, ⟨⟩, -⟩ := keys

theorem wheelAmount_eq_ok {action : MouseAction} {n : Int32} :
    Statement.wheelAmount action parameters = .ok n ↔ parameters = [] ∧ n = 0 ∨
      ∃ amount more, parameters = amount :: more ∧ action = .wheel ∧ amount.IsInteger n := by
  cases parameters with
  | nil => simp [Statement.wheelAmount, eq_comm]
  | cons amount more =>
    by_cases wheel : action = .wheel
    · simp [Statement.wheelAmount, wheel, int32_eq_ok]
    · simp [Statement.wheelAmount, wheel]

theorem ofMouse_eq_ok :
    Statement.ofMouse parameters = .ok statement ↔
      (∃ name first second action x y, parameters = [.word name, first, second] ∧
        action.name.toLower = name.toLower ∧ first.IsInteger x ∧ second.IsInteger y ∧
        statement = .mouse action x y 0) ∨
      ∃ name first second third x y amount, parameters = [.word name, first, second, third] ∧
        MouseAction.wheel.name.toLower = name.toLower ∧ first.IsInteger x ∧ second.IsInteger y ∧
        third.IsInteger amount ∧ statement = .mouse .wheel x y amount := by
  unfold Statement.ofMouse
  constructor
  · intro made
    split at made
    · next first x y more =>
      by_cases many : 1 < more.length
      · rw [if_pos many] at made
        cases made
      rw [if_neg many] at made
      rcases first with _ | _ | name
      case neg.word =>
        cases acts : MouseAction.ofName? name with
        | none =>
          simp only [acts] at made
          cases made
        | some action =>
          simp only [acts, bind_eq_ok, pure_bind, int32_eq_ok, wheelAmount_eq_ok] at made
          -- With three parameters there is no amount, and with four the wheel is turned.
          obtain ⟨x, isX, y, isY, amount, ⟨rfl, rfl⟩ | ⟨third, _, rfl, rfl, isAmount⟩, same⟩ := made
          · cases same
            exact .inl ⟨_, _, _, _, _, _, rfl, MouseAction.ofName?_eq_some.mp acts, isX, isY, rfl⟩
          · cases same
            cases List.length_eq_zero_iff.mp (by simpa using many : _ = 0)
            exact .inr ⟨_, _, _, _, _, _, _, rfl, MouseAction.ofName?_eq_some.mp acts, isX, isY,
              isAmount, rfl⟩
      all_goals cases made
    · cases made
  · rintro (⟨name, first, second, action, x, y, rfl, acts, isX, isY, rfl⟩ |
      ⟨name, first, second, third, x, y, amount, rfl, acts, isX, isY, isAmount, rfl⟩)
    · simp only [MouseAction.ofName?_eq_some.mpr acts]
      rw [if_neg (by simp)]
      simp only [bind_eq_ok, pure_bind, int32_eq_ok]
      exact ⟨x, isX, y, isY, 0, wheelAmount_eq_ok.mpr (.inl ⟨rfl, rfl⟩), rfl⟩
    · simp only [MouseAction.ofName?_eq_some.mpr acts]
      rw [if_neg (by simp)]
      simp only [bind_eq_ok, pure_bind, int32_eq_ok]
      exact ⟨x, isX, y, isY, amount, wheelAmount_eq_ok.mpr (.inr ⟨_, _, rfl, rfl, isAmount⟩), rfl⟩

end

end InputTape.Script
