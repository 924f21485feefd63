import InputTape.Proofs.Expression.Statements
import InputTape.Proofs.Expression.Walks

/-! Reading always goes forward.

Readers take the tokens of a line as walks do: whatever is answered, the same is asked, and the value and
the tokens left, or the error, are the same. A walk never has to give up if it may repeat things once more
than there are tokens, because every value in it takes a token. So the limits of the readers are never
reached, every line is evaluated to an end, and on the way no token is taken and no call carried out twice.
-/

set_option autoImplicit false

namespace InputTape.Expression

open Script (Token TokenKind Operator)

variable {α β : Type} {tokens : List Token} {scope : Scope} {course : Course}

/-- What a walk has come to: a value and the tokens left, or why there is none. -/
def left (tokens : List Token) :
    Except Interruption α × Course → Except Interruption (α × List Token)
  | (.ok value, after) => .ok (value, tokens.drop after.place)
  | (.error interruption, _) => .error interruption

/-- A walk from somewhere on asks what is asked in an evaluation, and comes to the same. -/
def Matches (tokens : List Token) (course : Course) (walk : Walk α)
    (evaluation : Evaluation (α × List Token)) : Prop :=
  (walk.goFrom course).bind (.done ∘ left tokens) =
    evaluation.run.bind (.done ∘ Except.mapError .failed)

theorem run_bind (first : Evaluation α) (next : α → Evaluation β) :
    (first >>= next).run = first.run.bind fun
      | .ok value => (next value).run
      | .error error => .done (.error error) := by
  refine congrArg (Interaction.bind first.run) (funext fun ending => ?_)
  cases ending <;> rfl

namespace Matches

theorem pure {value : α} :
    Matches tokens course (Pure.pure value) (Pure.pure (value, tokens.drop course.place)) := rfl

theorem settle (result : Except EvaluationError α) : Matches tokens course (Walk.settle result) (do
    let value ← ExceptT.mk (Pure.pure result)
    return (value, tokens.drop course.place)) := by
  cases result <;> rfl

theorem settle_bind {result : Except EvaluationError α} {next : α → Walk β}
    {more : α → Evaluation (β × List Token)}
    (rest : ∀ value, Matches tokens course (next value) (more value)) :
    Matches tokens course (Walk.settle result >>= next) (ExceptT.mk (Pure.pure result) >>= more) := by
  cases result with
  | error error => rfl
  | ok value => exact rest value

theorem failHere (problem : SyntaxProblem) :
    Matches tokens course (Walk.failHere tokens scope problem : Walk α)
      (failAt scope (tokens.drop course.place) problem) := by
  unfold failAt
  rw [List.head?_drop]
  rfl

theorem bind {walk : Walk α} {next : α → Walk β} {evaluation : Evaluation (α × List Token)}
    {more : α × List Token → Evaluation (β × List Token)}
    {reached : Except Interruption α × Course → Prop} (first : Matches tokens course walk evaluation)
    (always : (walk.goFrom course).Always (fun _ => True) reached)
    (rest : ∀ value after, reached (.ok value, after) →
      Matches tokens after (next value) (more (value, tokens.drop after.place))) :
    Matches tokens course (walk >>= next) (evaluation >>= more) := by
  -- What comes behind depends only on what both come to in the first part.
  let behind : Except Interruption (α × List Token) →
      Interaction Request Request.Answer (Except Interruption (β × List Token))
    | .ok result => (more result).run.bind (.done ∘ Except.mapError .failed)
    | .error interruption => .done (.error interruption)
  have walked : ((walk >>= next).goFrom course).bind (.done ∘ left tokens) =
      (walk.goFrom course).bind fun ending => behind (left tokens ending) := by
    rw [Walk.goFrom_bind, Interaction.bind_assoc]
    refine always.bind_congr fun (ending, after) holds => ?_
    cases ending with
    | error interruption => rfl
    | ok value => exact rest value after holds
  have evaluated : (evaluation >>= more).run.bind (.done ∘ Except.mapError .failed) =
      evaluation.run.bind fun ending => behind (ending.mapError .failed) := by
    rw [run_bind, Interaction.bind_assoc]
    refine congrArg (Interaction.bind evaluation.run) (funext fun ending => ?_)
    cases ending <;> rfl
  have through := congrArg (Interaction.bind · behind) first
  simp only [Interaction.bind_assoc] at through
  exact walked.trans (through.trans evaluated.symm)

section

variable {accept : Token → Option β} {next : Option β → Walk α}
  {evaluation : Evaluation (α × List Token)}

theorem takeIf? (within : course.place ≤ tokens.length)
    (taken : ∀ token accepted, course.place < tokens.length →
      tokens.drop course.place = token :: tokens.drop course.passed.place →
      accept token = some accepted →
      Matches tokens course.passed (next (some accepted)) evaluation)
    (other : (∀ token ∈ (tokens.drop course.place).head?, accept token = none) →
      Matches tokens course (next none) evaluation) :
    Matches tokens course (Walk.takeIf? tokens accept >>= next) evaluation := by
  unfold Matches
  rw [Walk.goFrom_takeIf?]
  -- The walk looks a token up by its place, the reader at the front of what is left.
  rcases Nat.lt_or_eq_of_le within with inside | ended
  · have front := List.drop_eq_getElem_cons inside
    rw [List.getElem?_eq_getElem inside, Option.bind_some]
    cases accepts : accept tokens[course.place] with
    | some accepted => exact taken _ accepted inside front accepts
    | none =>
      refine other fun token first => ?_
      rw [front] at first
      cases first
      exact accepts
  · have none : tokens.drop course.place = [] := by rw [ended, List.drop_length]
    rw [List.getElem?_eq_none (Nat.le_of_eq ended.symm)]
    exact other fun token first => by rw [none] at first; cases first

end

theorem eat {kind : TokenKind} {next : Option Unit → Walk α}
    {evaluation : Evaluation (α × List Token)} (within : course.place ≤ tokens.length)
    (taken : ∀ token, course.place < tokens.length →
      tokens.drop course.place = token :: tokens.drop course.passed.place → token.kind = kind →
      Matches tokens course.passed (next (some ())) evaluation)
    (other : (∀ token ∈ (tokens.drop course.place).head?, token.kind ≠ kind) →
      Matches tokens course (next none) evaluation) :
    Matches tokens course (Walk.eat tokens kind >>= next) evaluation := by
  refine takeIf? within (fun token accepted inside front accepts => ?_) fun refuses => ?_
  · refine taken token inside front ?_
    split at accepts
    · assumption
    · cases accepts
  · refine other fun token first same => ?_
    have refused := refuses token first
    rw [if_pos same] at refused
    cases refused

end Matches

/-! ## Readers -/

/-- With fewer tokens left than this a walk reads what a reader reads. -/
def Agrees (tokens : List Token) (room : Nat) (walk : Walk α) (reader : Reader α) : Prop :=
  ∀ course, course.place ≤ tokens.length → tokens.length < course.place + room →
    Matches tokens course walk (reader (tokens.drop course.place))

section

variable {room limit : Nat} {operand : Walk Value} {reader : Reader Value}

theorem kind_of_joins {level : Operator → Option Combination} {combine : Combination}
    {token : Token} (joins : Walk.joins level token = some combine) :
    ∃ operator, token.kind = .operator operator ∧ level operator = some combine := by
  unfold Walk.joins at joins
  split at joins
  · next operator kind => exact ⟨operator, kind, joins⟩
  · cases joins

theorem apart_of_joins {level : Operator → Option Combination} {token : Token} {operator : Operator}
    (apart : Walk.joins level token = none) (kind : token.kind = .operator operator) :
    level operator = none := by
  unfold Walk.joins at apart
  rw [kind] at apart
  exact apart

/-- Every time takes a token, so the times do not run out. -/
theorem matches_operators {level : Operator → Option Combination} (moves : Moves tokens 1 operand)
    (agrees : Agrees tokens room operand reader) {more : Nat} (value : Value)
    (within : course.place ≤ tokens.length) (few : tokens.length < course.place + room)
    (times : tokens.length < course.place + limit) (rest : tokens.length ≤ course.place + more) :
    Matches tokens course (Walk.operators tokens level operand limit value)
      (applyOperators level reader more value (tokens.drop course.place)) := by
  induction limit generalizing course more value with
  | zero => omega
  | succ limit ih =>
    refine .takeIf? within (fun token combine inside front joins => ?_) fun apart => ?_
    · obtain ⟨more, rfl⟩ : ∃ fewer, more = fewer + 1 := ⟨more - 1, by omega⟩
      obtain ⟨operator, kind, joins⟩ := kind_of_joins joins
      rw [front, applyOperators_joins kind joins]
      have past : course.passed.place = course.place + 1 := rfl
      refine (agrees course.passed inside (by omega)).bind (moves course.passed inside) ?_
      intro right after ⟨went, further⟩
      have onward : course.passed.place + 1 ≤ after.place := further right rfl
      refine .settle_bind fun value => ?_
      exact ih value went.within (by omega) (by omega) (by omega)
    · rw [applyOperators_apart fun token first operator => apart_of_joins (apart token first)]
      exact .pure

theorem agrees_leftToRight {level : Operator → Option Combination} (moves : Moves tokens 1 operand)
    (enough : room ≤ limit) (agrees : Agrees tokens room operand reader) :
    Agrees tokens room (Walk.leftToRight tokens level operand limit) (leftToRight level reader) := by
  intro course within few
  refine (agrees course within few).bind (moves course within) fun value after ⟨went, further⟩ => ?_
  have onward : course.place + 1 ≤ after.place := further value rfl
  refine matches_operators moves agrees value went.within (by omega) (by omega) ?_
  rw [List.length_drop]
  omega

theorem matches_negation (moves : Moves tokens 1 operand)
    (agrees : Agrees tokens room operand reader) {more : Nat} (within : course.place ≤ tokens.length)
    (few : tokens.length < course.place + room) (times : tokens.length < course.place + limit)
    (rest : tokens.length ≤ course.place + more) :
    Matches tokens course (Walk.negation tokens operand limit)
      (negation reader more (tokens.drop course.place)) := by
  induction limit generalizing course more with
  | zero => omega
  | succ limit ih =>
    refine .eat within (fun minus inside front kind => ?_) fun other => ?_
    · obtain ⟨more, rfl⟩ : ∃ fewer, more = fewer + 1 := ⟨more - 1, by omega⟩
      rw [front, negation_minus kind]
      have past : course.passed.place = course.place + 1 := rfl
      have onward : Moves tokens 1 (Walk.negation tokens operand limit) := .negation moves
      refine (@ih course.passed more inside (by omega) (by omega) (by omega)).bind
        (onward course.passed inside) ?_
      exact fun value after _ => .settle _
    · rw [negation_other other]
      exact agrees course within few

theorem agrees_negation (moves : Moves tokens 1 operand) (enough : room ≤ limit)
    (agrees : Agrees tokens room operand reader) :
    Agrees tokens room (Walk.negation tokens operand limit)
      (fun tokens => negation reader tokens.length tokens) := by
  intro course within few
  refine matches_negation moves agrees within few (by omega) ?_
  rw [List.length_drop]
  omega

theorem matches_argumentsFrom (moves : Moves tokens 1 operand)
    (agrees : Agrees tokens room operand reader) {more : Nat} (within : course.place ≤ tokens.length)
    (few : tokens.length < course.place + room) (times : tokens.length < course.place + limit)
    (rest : tokens.length ≤ course.place + more) :
    Matches tokens course (Walk.argumentsFrom tokens scope operand limit)
      (argumentsFrom scope reader more (tokens.drop course.place)) := by
  induction limit generalizing course more with
  | zero => omega
  | succ limit ih =>
    cases more with
    | zero =>
      -- No token is left, so no value is read either.
      refine (agrees course within few).bind (moves course within) fun value after moved => ?_
      have onward : course.place + 1 ≤ after.place := moved.2 value rfl
      have inside : after.place ≤ tokens.length := moved.1.within
      omega
    | succ more =>
      refine (agrees course within few).bind (moves course within) fun value after moved => ?_
      have onward : course.place + 1 ≤ after.place := moved.2 value rfl
      have inside : after.place ≤ tokens.length := moved.1.within
      refine .eat inside (fun comma next front kind => ?_) fun other => ?_
      · obtain ⟨_, text, line, column⟩ := comma
        subst kind
        have past : after.passed.place = after.place + 1 := rfl
        have onward : Moves tokens 1 (Walk.argumentsFrom tokens scope operand limit) :=
          .argumentsFrom moves
        simp only [front]
        refine (@ih after.passed more next (by omega) (by omega) (by omega)).bind
          (onward after.passed next) fun values last _ => .pure
      · refine .eat inside (fun closing next front kind => ?_) fun another => ?_
        · obtain ⟨_, text, line, column⟩ := closing
          subst kind
          simp only [front]
          exact .pure
        · simp only
          split
          · next same => exact absurd rfl (other _ (by rw [same]; rfl))
          · next same => exact absurd rfl (another _ (by rw [same]; rfl))
          · exact .failHere _

theorem matches_carryOut (place : Nat) (name : String) (values : List Value) :
    Matches tokens course (Walk.carryOut place name values) (do
      let value ← call name.toLower values
      return (value, tokens.drop course.place)) := by
  unfold Matches
  rw [Walk.goFrom_carryOut, run_bind, Interaction.bind_assoc, Interaction.bind_assoc]
  refine congrArg (Interaction.bind (call name.toLower values).run) (funext fun ending => ?_)
  cases ending <;> rfl

theorem callOf_eq {name : String} {rest : List Token} :
    callOf scope reader name rest =
      (match rest with
        | ⟨.closeParen, _, _, _⟩ :: behind => pure ([], behind)
        | _ => argumentsFrom scope reader rest.length rest :
          Evaluation (List Value × List Token)) >>= fun (values, behind) => do
        let value ← call name.toLower values
        return (value, behind) := by
  cases rest with
  | nil => rfl
  | cons token behind =>
    obtain ⟨kind, text, line, column⟩ := token
    cases kind <;> rfl

theorem matches_callOf (moves : Moves tokens 1 operand) (agrees : Agrees tokens room operand reader)
    (within : course.place ≤ tokens.length) (few : tokens.length < course.place + room)
    (times : tokens.length < course.place + limit) (place : Nat) (name : String) :
    Matches tokens course (Walk.callOf tokens scope operand limit place name)
      (callOf scope reader name (tokens.drop course.place)) := by
  have moved : ((Walk.argumentsOf tokens scope operand limit).goFrom course).Always
      (fun _ => True) (Reaches tokens 1 course) := Moves.argumentsOf moves course within
  rw [callOf_eq]
  refine Matches.bind ?_ moved fun values after _ => matches_carryOut place name values
  refine .eat within (fun closing inside front kind => ?_) fun other => ?_
  · obtain ⟨_, text, line, column⟩ := closing
    subst kind
    rw [front]
    exact .pure
  · change Matches tokens course (Walk.argumentsFrom tokens scope operand limit) _
    split
    · next same => exact absurd rfl (other _ (by rw [same]; rfl))
    · refine matches_argumentsFrom moves agrees within few times ?_
      rw [List.length_drop]
      omega

theorem matches_parentheses (moves : Moves tokens 1 operand)
    (agrees : Agrees tokens room operand reader) {opening : Token}
    (kind : opening.kind = .openParen) (within : course.place ≤ tokens.length)
    (few : tokens.length < course.place + room) :
    Matches tokens course (Walk.parentheses tokens scope operand)
      (primary scope reader (opening :: tokens.drop course.place)) := by
  obtain ⟨_, text, line, column⟩ := opening
  subst kind
  refine (agrees course within few).bind (moves course within) fun value after moved => ?_
  refine .eat moved.1.within (fun closing inside front kind => ?_) fun other => ?_
  · obtain ⟨_, text, line, column⟩ := closing
    subst kind
    simp only [front]
    exact .pure
  · simp only
    split
    · next same => exact absurd rfl (other _ (by rw [same]; rfl))
    · exact .failHere _

theorem primary_worth {token : Token} {rest : List Token} (other : token.kind ≠ .openParen)
    (uncalled : IsName token.kind → Level.primary.Stops rest) :
    primary scope reader (token :: rest) = (do
      let value ← ExceptT.mk (pure (Walk.worth scope token))
      return (value, rest)) := by
  have names (isName : IsName token.kind) := uncalled isName
  obtain ⟨kind, text, line, column⟩ := token
  cases kind with
  | number =>
    simp only [primary, Walk.worth]
    cases Decimal.readFloat? text <;> rfl
  | «variable» =>
    simp only [primary, Walk.worth]
    cases scope.store.get? text <;> rfl
  | word =>
    rw [primary_word rfl (names trivial)]
    simp only [Walk.worth]
    cases constant? text <;> rfl
  | keyword keyword => rw [primary_keyword rfl (names trivial)]; rfl
  | openParen => exact absurd rfl other
  | _ => rfl

theorem matches_named (moves : Moves tokens 1 operand) (agrees : Agrees tokens room operand reader)
    {name : Token} (isName : IsName name.kind) (within : course.place ≤ tokens.length)
    (few : tokens.length < course.place + room) (times : tokens.length < course.place + limit)
    (place : Nat) :
    Matches tokens course (Walk.named tokens scope operand limit place name)
      (primary scope reader (name :: tokens.drop course.place)) := by
  refine .eat within (fun opening inside front kind => ?_) fun other => ?_
  · rw [front, primary_call isName kind]
    have within : course.passed.place ≤ tokens.length := inside
    have past : course.passed.place = course.place + 1 := rfl
    exact matches_callOf moves agrees within (by omega) (by omega) place name.text
  · have word : name.kind ≠ .openParen := by
      intro kind
      rw [kind] at isName
      exact isName
    have stops : Level.primary.Stops (tokens.drop course.place) := by
      rcases Level.called_or_stops (tokens.drop course.place) with ⟨opening, rest, same, opens⟩ | stops
      · exact absurd opens (other opening (by rw [same]; rfl))
      · exact stops
    rw [primary_worth word fun _ => stops]
    exact .settle _

theorem agrees_primary (moves : Moves tokens 1 operand) (enough : room ≤ limit)
    (agrees : Agrees tokens room operand reader) :
    Agrees tokens (room + 1) (Walk.primary tokens scope operand limit) (primary scope reader) := by
  intro course within few
  unfold Matches Walk.primary
  rw [Walk.goFrom_get]
  refine Matches.takeIf? within (fun token _ inside front accepts => ?_) fun absent => ?_
  · cases accepts
    rw [front]
    have past : course.passed.place = course.place + 1 := rfl
    have within : course.passed.place ≤ tokens.length := inside
    have few : tokens.length < course.passed.place + room := by omega
    have named (isName : IsName token.kind) :
        Matches tokens course.passed
          (Walk.named tokens scope operand limit course.place token)
          (primary scope reader (token :: tokens.drop course.passed.place)) :=
      matches_named moves agrees isName within few (by omega) course.place
    dsimp only
    split
    · next kind => exact matches_parentheses moves agrees kind within few
    · next kind => exact named (by rw [kind]; trivial)
    · next kind => exact named (by rw [kind]; trivial)
    · next opens word keyword =>
      rw [primary_worth opens fun isName => ?_]
      · exact .settle _
      -- No kind is left that could be the name of a call.
      · exfalso
        cases kind : token.kind with
        | word => exact word kind
        | keyword which => exact keyword which kind
        | _ => rw [kind] at isName; exact isName
  · have ended : tokens.drop course.place = [] := by
      cases same : tokens.drop course.place with
      | nil => rfl
      | cons token rest => exact absurd (absent token (by rw [same]; rfl)) (by simp)
    have failed : Matches tokens course (Walk.failHere tokens scope .valueMissing)
        (failAt scope (tokens.drop course.place) .valueMissing : Evaluation (Value × List Token)) :=
      .failHere _
    rw [ended] at failed ⊢
    exact failed

theorem agrees_ofLevel {more : Nat} (moves : Moves tokens 1 operand) (enough : room < limit)
    (agrees : Agrees tokens room operand (expression scope more)) (level : Level) :
    Agrees tokens (room + 1) (Walk.ofLevel tokens scope operand limit level)
      (Expression.reader scope more level) := by
  have goes (level : Level) : Moves tokens 1 (Walk.ofLevel tokens scope operand limit level) :=
    .ofLevel moves level
  have primary : Agrees tokens (room + 1) (Walk.ofLevel tokens scope operand limit .primary)
      (Expression.reader scope more .primary) :=
    agrees_primary moves (Nat.le_of_lt enough) agrees
  have unary : Agrees tokens (room + 1) (Walk.ofLevel tokens scope operand limit .unary)
      (Expression.reader scope more .unary) := agrees_negation (goes .primary) enough primary
  have product : Agrees tokens (room + 1) (Walk.ofLevel tokens scope operand limit .product)
      (Expression.reader scope more .product) := agrees_leftToRight (goes .unary) enough unary
  have sum : Agrees tokens (room + 1) (Walk.ofLevel tokens scope operand limit .sum)
      (Expression.reader scope more .sum) := agrees_leftToRight (goes .product) enough product
  cases level with
  | comparison => exact agrees_leftToRight (goes .sum) enough sum
  | sum => exact sum
  | product => exact product
  | unary => exact unary
  | primary => exact primary

end

theorem agrees_nowhere {walk : Walk α} {reader : Reader α} : Agrees tokens 0 walk reader :=
  fun _ within few => absurd few (Nat.not_lt.mpr within)

theorem agrees_expression {limit more room : Nat} (enough : room ≤ limit) (deep : room ≤ more + 1) :
    Agrees tokens room (Walk.expression tokens scope limit) (expression scope more) := by
  induction limit generalizing more room with
  | zero =>
    cases Nat.le_zero.mp enough
    exact agrees_nowhere
  | succ limit ih =>
    cases room with
    | zero => exact agrees_nowhere
    | succ room =>
      cases more with
      | succ more =>
        have inner : Agrees tokens room (Walk.expression tokens scope limit) (expression scope more) :=
          ih (Nat.le_of_succ_le_succ enough) (Nat.le_of_succ_le_succ deep)
        exact agrees_ofLevel (.expression limit) enough inner .comparison
      | zero =>
        -- With no times left a reader fails as it does where there are no tokens, and there are none.
        cases Nat.le_zero.mp (Nat.le_of_succ_le_succ deep)
        intro course within few
        have ended : tokens.drop course.place = [] :=
          List.drop_eq_nil_of_le (Nat.le_of_lt_succ few)
        have empty : reader scope 0 .comparison [] = expression scope 0 [] := rfl
        have agrees : Matches tokens course (Walk.expression tokens scope (limit + 1))
            (reader scope 0 .comparison (tokens.drop course.place)) :=
          agrees_ofLevel (.expression limit) enough agrees_nowhere .comparison course within few
        rw [ended, empty] at agrees
        rw [ended]
        exact agrees

/-! ## Lines -/

namespace Walk

def read (tokens : List Token) (scope : Scope) (limit : Nat) (level : Level) : Walk Value :=
  ofLevel tokens scope (expression tokens scope limit) (limit + 1) level

def statement (tokens : List Token) (scope : Scope) (limit : Nat) : Walk (Value × Store) :=
  match tokens with
  | [] => failHere tokens scope .empty
  | ⟨.variable, name, _, _⟩ :: ⟨.operator .assign, _, _, _⟩ :: _ => do
    let _ ← takeIf? tokens some
    let _ ← takeIf? tokens some
    let value ← expression tokens scope limit
    return (value, scope.store.set name value)
  | _ => do
    let value ← expression tokens scope limit
    return (value, scope.store)

def ended (tokens : List Token) (store : Store) :
    Except Interruption (Value × Store) × Course → Except Interruption Value × Store × Course
  | (.ok (value, assigned), after) =>
    ((finish value (tokens.drop after.place)).mapError .failed, assigned, after)
  | (.error interruption, after) => (.error interruption, store, after)

def evaluate (store : Store) (line : String) (limit : Nat) :
    Interaction Request Request.Answer (Except Interruption Value × Store × Course) :=
  match significantTokens? line with
  | none => .done (.error (.failed (.badSyntax 1 .unterminatedString)), store, .start)
  | some tokens =>
    ((statement tokens ⟨store, line.length + 1⟩ limit).goFrom .start).bind (.done ∘ ended tokens store)

end Walk

theorem Moves.read (limit : Nat) (level : Level) :
    Moves tokens 1 (Walk.read tokens scope limit level) := .ofLevel (.expression limit) level

theorem Moves.statement (limit : Nat) : Moves tokens 0 (Walk.statement tokens scope limit) := by
  have read (assigned : Value → Store) : Moves tokens 0 (do
      let value ← Walk.expression tokens scope limit
      return (value, assigned value)) :=
    ((Moves.expression limit).mono (Nat.zero_le 1)).bind fun value => .pure
  unfold Walk.statement
  split
  · exact .failHere _
  · refine .takeIf? (fun _ => .takeIf? (fun _ => read _) (read _)) ?_
    exact .takeIf? (fun _ => read _) (read _)
  · exact read _

theorem agrees_read (limit : Nat) (level : Level) :
    Agrees tokens (limit + 1) (Walk.read tokens scope limit level) (reader scope limit level) :=
  agrees_ofLevel (.expression limit) (Nat.lt_succ_self limit)
    (agrees_expression (Nat.le_refl limit) (Nat.le_succ limit)) level

theorem Matches.ended {walk : Walk Value} {evaluation : Evaluation (Value × List Token)}
    (same : Matches tokens course walk evaluation) (store : Store) (assigned : Value → Store) :
    ((walk >>= fun value => Pure.pure (value, assigned value)).goFrom course).bind
        (.done ∘ Prod.map id Prod.fst ∘ Walk.ended tokens store) =
      Prod.map (Except.mapError .failed) id <$> do
        match ← evaluation.run with
        | .error error => return (.error error, store)
        | .ok (value, rest) => return (finish value rest, assigned value) := by
  let behind : Except Interruption (Value × List Token) →
      Interaction Request Request.Answer (Except Interruption Value × Store)
    | .ok (value, rest) => .done ((finish value rest).mapError .failed, assigned value)
    | .error interruption => .done (.error interruption, store)
  have through := congrArg (Interaction.bind · behind) same
  simp only [Interaction.bind_assoc] at through
  have walked : ((walk >>= fun value => Pure.pure (value, assigned value)).goFrom course).bind
      (.done ∘ Prod.map id Prod.fst ∘ Walk.ended tokens store) =
      (walk.goFrom course).bind fun ending => behind (left tokens ending) := by
    rw [Walk.goFrom_bind, Interaction.bind_assoc]
    refine congrArg (Interaction.bind (walk.goFrom course)) (funext fun (ending, after) => ?_)
    cases ending <;> rfl
  refine walked.trans (through.trans ?_)
  refine Eq.trans ?_ (Interaction.bind_assoc evaluation.run _ _).symm
  refine congrArg (Interaction.bind evaluation.run) (funext fun ending => ?_)
  cases ending <;> rfl

theorem statement_assignment {name sign : Token} {body : List Token} {limit : Nat}
    (kind : name.kind = .variable) (assigns : sign.kind = .operator .assign) :
    (Walk.statement (name :: sign :: body) scope limit).goFrom .start =
      (do
        let value ← Walk.expression (name :: sign :: body) scope limit
        return (value, scope.store.set name.text value)).goFrom Course.start.passed.passed := by
  obtain ⟨_, text, line, column⟩ := name
  subst kind
  obtain ⟨_, text', line', column'⟩ := sign
  subst assigns
  rfl

theorem statement_expression {limit : Nat} (nonempty : tokens ≠ [])
    (other : ¬ StartsAssignment tokens) :
    Walk.statement tokens scope limit = (do
      let value ← Walk.expression tokens scope limit
      return (value, scope.store)) := by
  unfold Walk.statement
  split
  · exact absurd rfl nonempty
  · exact absurd ⟨_, _, _, rfl, rfl, rfl⟩ other
  · rfl

/-- A walk that may repeat things more often than there are tokens asks what is asked when a line is
evaluated, and comes to the same. -/
theorem walk_evaluate (store : Store) (line : String) {limit : Nat}
    (enough : ∀ tokens ∈ significantTokens? line, tokens.length < limit) :
    Prod.map id Prod.fst <$> Walk.evaluate store line limit =
      Prod.map (Except.mapError .failed) id <$> evaluate store line := by
  cases significant : significantTokens? line with
  | none =>
    unfold Walk.evaluate evaluate
    rw [significant]
    rfl
  | some tokens =>
    have enough := enough tokens significant
    have walked : Prod.map id Prod.fst <$> Walk.evaluate store line limit =
        ((Walk.statement tokens ⟨store, line.length + 1⟩ limit).goFrom .start).bind
          (.done ∘ Prod.map id Prod.fst ∘ Walk.ended tokens store) := by
      unfold Walk.evaluate
      rw [significant]
      exact Interaction.bind_assoc _ _ _
    rw [walked]
    by_cases assignment : StartsAssignment tokens
    -- Behind the name and the sign the walk is at the second place, and the reader has the body.
    · obtain ⟨name, sign, body, rfl, kind, assigns⟩ := assignment
      rw [evaluate_assignment significant kind assigns, statement_assignment kind assigns]
      simp only [List.length_cons] at enough
      have agrees : Agrees (name :: sign :: body) (body.length + 1)
          (Walk.expression (name :: sign :: body) ⟨store, line.length + 1⟩ limit)
          (expression ⟨store, line.length + 1⟩ body.length) :=
        agrees_expression (by omega) (Nat.le_refl _)
      have behind : body.length + 2 < 2 + (body.length + 1) := by omega
      have within : 2 ≤ body.length + 2 := Nat.le_add_left _ _
      exact (agrees Course.start.passed.passed within behind).ended store _
    · by_cases empty : tokens = []
      · subst empty
        unfold evaluate
        rw [significant]
        rfl
      · rw [evaluate_expression significant empty assignment, statement_expression empty assignment]
        have agrees : Agrees tokens (tokens.length + 1)
            (Walk.expression tokens ⟨store, line.length + 1⟩ limit)
            (expression ⟨store, line.length + 1⟩ tokens.length) :=
          agrees_expression enough (Nat.le_refl _)
        have behind : tokens.length < 0 + (tokens.length + 1) := by omega
        exact (agrees .start (Nat.zero_le _) behind).ended store _

theorem walk_evaluate_went (store : Store) (line : String) (limit : Nat) :
    (Walk.evaluate store line limit).Always (fun _ => True) fun (_, _, course) =>
      Went ((significantTokens? line).getD []) .start course := by
  unfold Walk.evaluate
  cases significant : significantTokens? line with
  | none => exact Went.refl (Nat.le_refl 0)
  | some tokens =>
    refine (Moves.statement limit .start (Nat.zero_le _)).bind fun (ending, after) ⟨went, _⟩ => ?_
    cases ending <;> exact went

theorem not_exhausted (store : Store) (line : String) {limit : Nat}
    (enough : ∀ tokens ∈ significantTokens? line, tokens.length < limit) :
    (Walk.evaluate store line limit).Always (fun _ => True) fun (ending, _) =>
      ending ≠ .error .exhausted := by
  have evaluated : (Prod.map (Except.mapError .failed) id <$> evaluate store line).Always
      (fun _ => True) fun ending => ending.1 ≠ .error Interruption.exhausted :=
    (Interaction.always_anything (evaluate store line)).bind fun (ending, _) _ => by
      cases ending <;> exact nofun
  rw [← walk_evaluate store line enough] at evaluated
  exact evaluated.of_map

/-- Reading goes forward at every level, from every place, whatever is answered: the cursor does not go
back, nor behind the last token, and with a value it is further on. A walk that may repeat and nest
things as often as there are tokens left reads as the reader of that level does. So a line is evaluated
to an end, no token of it is taken twice, and no call that is written on it is carried out twice. -/
theorem evaluate_goesForward :
    (∀ (tokens : List Token) (scope : Scope) (limit : Nat) (level : Level) (course : Course),
      course.place ≤ tokens.length →
      (((Walk.read tokens scope limit level).goFrom course).Always (fun _ => True)
        fun (ending, after) => course.place ≤ after.place ∧ after.place ≤ tokens.length ∧
          ∀ value, ending = .ok value → course.place < after.place) ∧
      (tokens.length ≤ course.place + limit →
        left tokens <$> (Walk.read tokens scope limit level).goFrom course =
          Except.mapError .failed <$> (reader scope limit level (tokens.drop course.place)).run)) ∧
    ∀ (store : Store) (line : String) (limit : Nat),
      ((significantTokens? line).getD []).length < limit →
      Prod.map id Prod.fst <$> Walk.evaluate store line limit =
        Prod.map (Except.mapError .failed) id <$> evaluate store line ∧
      (Walk.evaluate store line limit).Always (fun _ => True) fun (ending, _, course) =>
        ending ≠ .error .exhausted ∧
        course.place ≤ ((significantTokens? line).getD []).length ∧
        course.taken = List.range course.place ∧ course.called.Nodup ∧
        ∀ place ∈ course.called,
          place < course.place ∧ IsCallAt ((significantTokens? line).getD []) place := by
  refine ⟨fun tokens scope limit level course within => ⟨?_, fun few => ?_⟩,
    fun store line limit some => ?_⟩
  · refine (Moves.read limit level course within).mono (fun _ => id) fun (ending, after) moved => ?_
    exact ⟨moved.1.onward, moved.1.within, moved.2⟩
  · exact agrees_read limit level course within (Nat.lt_succ_of_le few)
  -- No line is longer than the limit, so the walk is never cut short.
  · have enough : ∀ tokens ∈ significantTokens? line, tokens.length < limit := by
      intro tokens same
      rw [same] at some
      exact some
    refine ⟨walk_evaluate store line enough, ?_⟩
    refine ((walk_evaluate_went store line limit).and (not_exhausted store line enough)).mono
      (fun _ => id) fun (ending, _, course) ⟨went, ends⟩ => ?_
    obtain ⟨calls, same, once, inside⟩ := went.called
    have taken := went.taken
    simp only [Course.start, List.nil_append, Nat.sub_zero] at same taken
    refine ⟨ends, went.within, taken.trans List.range_eq_range'.symm, same ▸ once, ?_⟩
    exact fun place member => (inside place (same ▸ member)).2

/-- A text behind a minus sign, read from its place on, and a line on which a call is an operand. -/
theorem evaluate_goesForward_call :
    let tokens : List Token := [⟨.operator .minus, "-", 1, 1⟩, ⟨.string, "x", 1, 2⟩]
    let scope : Scope := ⟨.empty, 5⟩
    let line := "clipboard() + `x`"
    (((Walk.read tokens scope 1 .unary).goFrom ⟨1, [0], []⟩).Always (fun _ => True)
      fun (ending, after) => 1 ≤ after.place ∧ after.place ≤ 2 ∧
        ∀ value, ending = .ok value → 1 < after.place) ∧
    left tokens <$> (Walk.read tokens scope 1 .unary).goFrom ⟨1, [0], []⟩ =
      Except.mapError .failed <$> (reader scope 1 .unary [⟨.string, "x", 1, 2⟩]).run ∧
    ((significantTokens? line).getD []).length < 6 ∧
    Prod.map id Prod.fst <$> Walk.evaluate .empty line 6 =
      Prod.map (Except.mapError .failed) id <$> evaluate .empty line := by
  intro tokens scope line
  have few : ((significantTokens? line).getD []).length < 6 := by decide +kernel
  have reads := evaluate_goesForward.1 tokens scope 1 .unary ⟨1, [0], []⟩ (by decide)
  exact ⟨reads.1, reads.2 (by decide), few, (evaluate_goesForward.2 .empty line 6 few).1⟩

end InputTape.Expression
