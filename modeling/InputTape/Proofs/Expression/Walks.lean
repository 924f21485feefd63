import InputTape.Proofs.Expression.Recognition

/-! Reading with a cursor.

A walk reads the tokens of a line by their places. It keeps a cursor, and a record of the tokens that it
has taken and of the calls that it has carried out, and both stay where it fails. All that it repeats or
nests it does so many times at most, and having no times left is an end of its own.

Wherever a walk ends, it has taken the tokens from where it started up to the cursor, each of them once,
and has carried out calls that are written among them, each of them once.
-/

set_option autoImplicit false

namespace InputTape.Expression

open Script (Token TokenKind Operator)

inductive Interruption where
  | failed (error : EvaluationError)
  | exhausted
  deriving DecidableEq, Repr

/-- How far a walk has come. Tokens, and the names of calls, are told by their places. -/
structure Course where
  place : Nat
  /-- The tokens that were taken, in order. -/
  taken : List Nat
  /-- The calls that were carried out, in order. -/
  called : List Nat
  deriving DecidableEq, Repr

namespace Course

def start : Course := ⟨0, [], []⟩

def passed (course : Course) : Course :=
  { course with place := course.place + 1, taken := course.taken ++ [course.place] }

end Course

abbrev Walk (α : Type) := ExceptT Interruption (StateT Course (Interaction Request Request.Answer)) α

namespace Walk

variable {α β : Type}

def settle (result : Except EvaluationError α) : Walk α :=
  ExceptT.mk (pure (result.mapError .failed))

def carryOut (place : Nat) (name : String) (arguments : List Value) : Walk Value := do
  modify fun course => { course with called := course.called ++ [place] }
  ExceptT.mk (StateT.lift ((call name.toLower arguments).run.bind (.done ∘ Except.mapError .failed)))

def giveUp : Walk α := throw .exhausted

def worth (scope : Scope) (token : Token) : Except EvaluationError Value :=
  let refused (problem : SyntaxProblem) : Except EvaluationError Value :=
    .error (.badSyntax token.column problem)
  match token.kind with
  | .number => match Decimal.readFloat? token.text with
    | some value => .ok (.number value)
    | none => refused (.invalidNumber token.text)
  | .string => .ok (.text token.text)
  | .variable => match scope.store.get? token.text with
    | some value => .ok value
    | none => .error (.undefinedVariable token.text)
  | .word => match constant? token.text with
    | some value => .ok value
    | none => refused (.unexpectedWord token.text)
  | _ => refused (.unexpected token.text)

section

variable (tokens : List Token) (scope : Scope)

def takeIf? (accept : Token → Option β) : Walk (Option β) := do
  let course ← get
  match tokens[course.place]?.bind accept with
  | some accepted => set course.passed; return some accepted
  | none => return none

def eat (kind : TokenKind) : Walk (Option Unit) :=
  takeIf? tokens fun token => if token.kind = kind then some () else none

def failHere (problem : SyntaxProblem) : Walk α := do
  settle (failure (← get).place)
where
  failure (place : Nat) : Except EvaluationError α :=
    .error (.badSyntax ((tokens[place]?.map Token.column).getD scope.endColumn) problem)

def joins (level : Operator → Option Combination) (token : Token) : Option Combination :=
  match token.kind with
  | .operator operator => level operator
  | _ => none

def operators (level : Operator → Option Combination) (operand : Walk Value) :
    Nat → Value → Walk Value
  | 0, _ => giveUp
  | limit + 1, left => do
    match ← takeIf? tokens (joins level) with
    | some combine =>
      let right ← operand
      let value ← settle (combine left right)
      operators level operand limit value
    | none => return left

def leftToRight (level : Operator → Option Combination) (operand : Walk Value) (limit : Nat) :
    Walk Value := do
  let first ← operand
  operators tokens level operand limit first

def negation (primary : Walk Value) : Nat → Walk Value
  | 0 => giveUp
  | limit + 1 => do
    match ← eat tokens (.operator .minus) with
    | some () =>
      let value ← negation primary limit
      settle (negate value)
    | none => primary

def argumentsFrom (expression : Walk Value) : Nat → Walk (List Value)
  | 0 => giveUp
  | limit + 1 => do
    let value ← expression
    match ← eat tokens .comma with
    | some () =>
      let values ← argumentsFrom expression limit
      return value :: values
    | none => match ← eat tokens .closeParen with
      | some () => return [value]
      | none => failHere tokens scope .separatorMissing

def argumentsOf (expression : Walk Value) (limit : Nat) : Walk (List Value) := do
  match ← eat tokens .closeParen with
  | some () => return []
  | none => argumentsFrom tokens scope expression limit

def callOf (expression : Walk Value) (limit place : Nat) (name : String) : Walk Value := do
  let values ← argumentsOf tokens scope expression limit
  carryOut place name values

def parentheses (expression : Walk Value) : Walk Value := do
  let value ← expression
  match ← eat tokens .closeParen with
  | some () => return value
  | none => failHere tokens scope .closingMissing

def named (expression : Walk Value) (limit place : Nat) (token : Token) : Walk Value := do
  match ← eat tokens .openParen with
  | some () => callOf tokens scope expression limit place token.text
  | none => settle (worth scope token)

def primary (expression : Walk Value) (limit : Nat) : Walk Value := do
  let place := (← get).place
  match ← takeIf? tokens some with
  | none => failHere tokens scope .valueMissing
  | some token => match token.kind with
    | .openParen => parentheses tokens scope expression
    | .word | .keyword _ => named tokens scope expression limit place token
    | _ => settle (worth scope token)

def ofLevel (expression : Walk Value) (limit : Nat) (level : Level) : Walk Value :=
  let unary := negation tokens (primary tokens scope expression limit) limit
  match level with
  | .comparison => leftToRight tokens comparison? (leftToRight tokens summation?
      (leftToRight tokens multiplication? unary limit) limit) limit
  | .sum => leftToRight tokens summation? (leftToRight tokens multiplication? unary limit) limit
  | .product => leftToRight tokens multiplication? unary limit
  | .unary => unary
  | .primary => primary tokens scope expression limit

def expression : Nat → Walk Value
  | 0 => giveUp
  | limit + 1 => ofLevel tokens scope (expression limit) (limit + 1) .comparison

end

/-! ## Running a walk -/

/-- What a walk asks and comes to from somewhere on. -/
def goFrom (walk : Walk α) (course : Course) :
    Interaction Request Request.Answer (Except Interruption α × Course) := walk.run.run course

theorem goFrom_bind (walk : Walk α) (next : α → Walk β) (course : Course) :
    (walk >>= next).goFrom course = (walk.goFrom course).bind fun
      | (.ok value, after) => (next value).goFrom after
      | (.error interruption, after) => .done (.error interruption, after) := by
  refine congrArg (Interaction.bind (walk.goFrom course)) (funext fun ⟨ending, after⟩ => ?_)
  cases ending <;> rfl

theorem goFrom_get (next : Course → Walk α) (course : Course) :
    (get >>= next).goFrom course = (next course).goFrom course := by
  rw [goFrom_bind]
  rfl

theorem goFrom_takeIf? {tokens : List Token} {accept : Token → Option β}
    (next : Option β → Walk α) (course : Course) :
    (takeIf? tokens accept >>= next).goFrom course =
      match tokens[course.place]?.bind accept with
      | some accepted => (next (some accepted)).goFrom course.passed
      | none => (next none).goFrom course := by
  have taken : (takeIf? tokens accept).goFrom course = .done
      (match tokens[course.place]?.bind accept with
        | some accepted => (.ok (some accepted), course.passed)
        | none => (.ok none, course)) := by
    unfold takeIf?
    rw [goFrom_get]
    split <;> rfl
  rw [goFrom_bind, taken]
  split <;> rfl

theorem goFrom_carryOut (place : Nat) (name : String) (arguments : List Value) (course : Course) :
    (carryOut place name arguments).goFrom course =
      (call name.toLower arguments).run.bind fun result =>
        .done (result.mapError .failed, { course with called := course.called ++ [place] }) := by
  unfold carryOut
  rw [goFrom_bind]
  exact Interaction.bind_assoc (call name.toLower arguments).run _ fun result =>
    .done (result, { course with called := course.called ++ [place] })

end Walk

/-! ## Where a walk has been -/

def IsCallAt (tokens : List Token) (place : Nat) : Prop :=
  ∃ name opening, tokens[place]? = some name ∧ tokens[place + 1]? = some opening ∧
    IsName name.kind ∧ opening.kind = .openParen

/-- Between two points of a course the tokens between them were taken, and calls among them were
carried out, in any order but each of them once. -/
structure Went (tokens : List Token) (before after : Course) : Prop where
  onward : before.place ≤ after.place
  within : after.place ≤ tokens.length
  taken : after.taken = before.taken ++ List.range' before.place (after.place - before.place)
  called : ∃ calls, after.called = before.called ++ calls ∧ calls.Nodup ∧
    ∀ place ∈ calls, before.place ≤ place ∧ place < after.place ∧ IsCallAt tokens place

namespace Went

variable {tokens : List Token} {before between after course : Course}

theorem refl (within : course.place ≤ tokens.length) : Went tokens course course where
  onward := Nat.le_refl _
  within := within
  taken := by simp
  called := ⟨[], by simp, .nil, nofun⟩

theorem trans (first : Went tokens before between) (second : Went tokens between after) :
    Went tokens before after where
  onward := Nat.le_trans first.onward second.onward
  within := second.within
  taken := by
    have left := first.onward
    have right := second.onward
    rw [second.taken, first.taken, List.append_assoc]
    congr 1
    rw [show between.place = before.place + (between.place - before.place) by omega,
      Nat.add_sub_cancel_left, List.range'_append_1]
    congr 1
    omega
  called := by
    obtain ⟨one, same, once, inside⟩ := first.called
    obtain ⟨more, same', once', inside'⟩ := second.called
    have left := first.onward
    have right := second.onward
    refine ⟨one ++ more, by rw [same', same, List.append_assoc], ?_, ?_⟩
    -- The calls of the one part are in front of the cursor that the other starts with.
    · refine List.nodup_append.mpr ⟨once, once', fun place here other there => ?_⟩
      have low := (inside place here).2.1
      have high := (inside' other there).1
      omega
    · intro place member
      rcases List.mem_append.mp member with here | there
      · obtain ⟨low, high, isCall⟩ := inside place here
        exact ⟨low, by omega, isCall⟩
      · obtain ⟨low, high, isCall⟩ := inside' place there
        exact ⟨by omega, high, isCall⟩

theorem passed (inside : course.place < tokens.length) : Went tokens course course.passed where
  onward := Nat.le_succ _
  within := inside
  taken := by simp [Course.passed]
  called := ⟨[], by simp [Course.passed], .nil, nofun⟩

/-- A call is carried out when all behind its name was read, so no call there is the same. -/
theorem calling (isCall : IsCallAt tokens course.place)
    (went : Went tokens course.passed.passed after) :
    Went tokens course { after with called := after.called ++ [course.place] } where
  onward := Nat.le_of_succ_le (Nat.le_of_succ_le went.onward)
  within := went.within
  taken := by
    have onward : course.place + 2 ≤ after.place := went.onward
    have taken := went.taken
    simp only [Course.passed, List.append_assoc] at taken
    rw [taken, show after.place - course.place = after.place - (course.place + 1 + 1) + 2 by omega]
    simp [List.range'_succ]
  called := by
    have onward : course.place + 2 ≤ after.place := went.onward
    obtain ⟨calls, same, once, inside⟩ := went.called
    have behind : ∀ place ∈ calls, course.place + 2 ≤ place := fun place member =>
      (inside place member).1
    refine ⟨calls ++ [course.place], by simp [same, Course.passed], ?_, ?_⟩
    · refine List.nodup_append.mpr ⟨once, by simp, fun place here other there => ?_⟩
      have low := behind place here
      rw [List.mem_singleton.mp there]
      omega
    · intro place member
      rcases List.mem_append.mp member with here | there
      · have low := behind place here
        obtain ⟨-, high, isCall⟩ := inside place here
        exact ⟨by omega, high, isCall⟩
      · rw [List.mem_singleton.mp there]
        exact ⟨Nat.le_refl _, by simp only; omega, isCall⟩

end Went

section

variable {α β : Type} (tokens : List Token)

/-- Where a walk ends it has gone on, and with a value by so many tokens at least. -/
def Reaches (least : Nat) (before : Course) (ending : Except Interruption α × Course) : Prop :=
  Went tokens before ending.2 ∧ ∀ value, ending.1 = .ok value → before.place + least ≤ ending.2.place

/-- From wherever a walk starts and whatever is answered, it goes on. -/
def Moves (least : Nat) (walk : Walk α) : Prop :=
  ∀ course, course.place ≤ tokens.length →
    (walk.goFrom course).Always (fun _ => True) (Reaches tokens least course)

end

namespace Moves

variable {α β : Type} {tokens : List Token} {scope : Scope} {least : Nat}

theorem mono {walk : Walk α} {fewer : Nat} (moves : Moves tokens least walk) (le : fewer ≤ least) :
    Moves tokens fewer walk := fun course within =>
  (moves course within).mono (fun _ => id) fun _ ⟨went, further⟩ =>
    ⟨went, fun value same => Nat.le_trans (Nat.add_le_add_left le _) (further value same)⟩

theorem pure {value : α} : Moves tokens 0 (Pure.pure value) := fun _ within =>
  ⟨.refl within, fun _ _ => Nat.le_refl _⟩

theorem settle (result : Except EvaluationError α) : Moves tokens 0 (Walk.settle result) :=
  fun _ within => ⟨.refl within, fun _ _ => Nat.le_refl _⟩

theorem giveUp : Moves tokens least (Walk.giveUp : Walk α) := fun _ within =>
  ⟨.refl within, nofun⟩

theorem failHere (problem : SyntaxProblem) :
    Moves tokens least (Walk.failHere tokens scope problem : Walk α) := fun _ within =>
  ⟨.refl within, nofun⟩

theorem bind {walk : Walk α} {next : α → Walk β} (moves : Moves tokens least walk)
    (rest : ∀ value, Moves tokens 0 (next value)) : Moves tokens least (walk >>= next) := by
  intro course within
  rw [Walk.goFrom_bind]
  refine (moves course within).bind fun ⟨ending, between⟩ ⟨went, further⟩ => ?_
  cases ending with
  | error interruption => exact ⟨went, nofun⟩
  | ok value =>
    have here : course.place + least ≤ between.place := further value rfl
    refine (rest value between went.within).mono (fun _ => id) fun _ ⟨goes, _⟩ => ?_
    exact ⟨went.trans goes, fun _ _ => Nat.le_trans here goes.onward⟩

theorem takeIf? {accept : Token → Option β} {next : Option β → Walk α}
    (taken : ∀ accepted, Moves tokens (least - 1) (next (some accepted)))
    (other : Moves tokens least (next none)) :
    Moves tokens least (Walk.takeIf? tokens accept >>= next) := by
  intro course within
  rw [Walk.goFrom_takeIf?]
  split
  · next accepted found =>
    obtain ⟨token, there, -⟩ := Option.bind_eq_some_iff.mp found
    have inside : course.place < tokens.length := (List.getElem?_eq_some_iff.mp there).1
    refine (taken accepted course.passed inside).mono (fun _ => id) fun _ ⟨went, further⟩ => ?_
    refine ⟨(Went.passed inside).trans went, fun value same => ?_⟩
    have later : course.place + 1 + (least - 1) ≤ _ := further value same
    omega
  · exact other course within

theorem eat {kind : TokenKind} {next : Option Unit → Walk α}
    (taken : Moves tokens (least - 1) (next (some ()))) (other : Moves tokens least (next none)) :
    Moves tokens least (Walk.eat tokens kind >>= next) := takeIf? (fun _ => taken) other

section

variable {operand : Walk Value} {limit : Nat}

theorem operators {level : Operator → Option Combination} (moves : Moves tokens 1 operand)
    (left : Value) : Moves tokens 0 (Walk.operators tokens level operand limit left) := by
  induction limit generalizing left with
  | zero => exact giveUp
  | succ limit ih =>
    refine takeIf? (fun combine => ?_) pure
    exact (moves.bind fun right => (settle _).bind fun value => ih value).mono (Nat.zero_le _)

theorem leftToRight {level : Operator → Option Combination} (moves : Moves tokens 1 operand) :
    Moves tokens 1 (Walk.leftToRight tokens level operand limit) :=
  moves.bind fun first => operators moves first

theorem negation (moves : Moves tokens 1 operand) :
    Moves tokens 1 (Walk.negation tokens operand limit) := by
  induction limit with
  | zero => exact giveUp
  | succ limit ih =>
    exact eat ((ih.bind fun value => settle _).mono (Nat.zero_le _)) moves

theorem argumentsFrom (moves : Moves tokens 1 operand) :
    Moves tokens 1 (Walk.argumentsFrom tokens scope operand limit) := by
  induction limit with
  | zero => exact giveUp
  | succ limit ih =>
    refine moves.bind fun value => eat ?_ (eat pure (failHere _))
    exact (ih.bind fun values => pure).mono (Nat.zero_le _)

theorem argumentsOf (moves : Moves tokens 1 operand) :
    Moves tokens 1 (Walk.argumentsOf tokens scope operand limit) :=
  eat pure (argumentsFrom moves)

theorem parentheses (moves : Moves tokens 1 operand) :
    Moves tokens 1 (Walk.parentheses tokens scope operand) :=
  moves.bind fun _ => eat pure (failHere _)

theorem reaches_callOf (moves : Moves tokens 1 operand) {course : Course}
    (isCall : IsCallAt tokens course.place) (name : String) :
    ((Walk.callOf tokens scope operand limit course.place name).goFrom
      course.passed.passed).Always (fun _ => True) (Reaches tokens 1 course) := by
  have within : course.passed.passed.place ≤ tokens.length := by
    obtain ⟨_, opening, -, there, -⟩ := isCall
    exact (List.getElem?_eq_some_iff.mp there).1
  unfold Walk.callOf
  rw [Walk.goFrom_bind]
  refine (argumentsOf moves course.passed.passed within).bind fun ⟨ending, between⟩ ⟨went, _⟩ => ?_
  have here : Went tokens course course.passed.passed :=
    (Went.passed (Nat.lt_of_succ_lt within)).trans (.passed within)
  cases ending with
  | error interruption => exact ⟨here.trans went, nofun⟩
  | ok values =>
    change ((Walk.carryOut course.place name values).goFrom between).Always _ _
    rw [Walk.goFrom_carryOut]
    refine Interaction.Always.bind (returns_anything _) fun result _ => ?_
    refine ⟨went.calling isCall, fun _ _ => ?_⟩
    have onward : course.place + 2 ≤ between.place := went.onward
    exact Nat.le_of_succ_le onward

theorem reaches_named (moves : Moves tokens 1 operand) {course : Course} {token : Token}
    (there : tokens[course.place]? = some token) (isName : IsName token.kind) :
    ((Walk.named tokens scope operand limit course.place token).goFrom course.passed).Always
      (fun _ => True) (Reaches tokens 1 course) := by
  have inside : course.place < tokens.length := (List.getElem?_eq_some_iff.mp there).1
  unfold Walk.named Walk.eat
  rw [Walk.goFrom_takeIf?]
  split
  · next found =>
    obtain ⟨opening, behind, opens⟩ := Option.bind_eq_some_iff.mp found
    have kind : opening.kind = .openParen := by
      split at opens
      · assumption
      · cases opens
    exact reaches_callOf moves ⟨token, opening, there, behind, isName, kind⟩ token.text
  · exact ⟨.passed inside, fun _ _ => Nat.le_refl _⟩

theorem primary (moves : Moves tokens 1 operand) :
    Moves tokens 1 (Walk.primary tokens scope operand limit) := by
  intro course within
  unfold Walk.primary
  rw [Walk.goFrom_get, Walk.goFrom_takeIf?]
  cases there : tokens[course.place]? with
  | none => exact ⟨.refl within, nofun⟩
  | some token =>
    have inside : course.place < tokens.length := (List.getElem?_eq_some_iff.mp there).1
    have passed {walk : Walk Value} (onward : Moves tokens 0 walk) :
        (walk.goFrom course.passed).Always (fun _ => True) (Reaches tokens 1 course) :=
      (onward course.passed inside).mono (fun _ => id) fun _ ⟨went, further⟩ =>
        ⟨(Went.passed inside).trans went, further⟩
    simp only [Option.bind_some]
    split
    · exact passed ((parentheses moves).mono (Nat.zero_le _))
    · next kind => exact reaches_named moves there (by rw [kind]; trivial)
    · next kind => exact reaches_named moves there (by rw [kind]; trivial)
    · exact passed (settle _)

theorem ofLevel (moves : Moves tokens 1 operand) (level : Level) :
    Moves tokens 1 (Walk.ofLevel tokens scope operand limit level) := by
  have unary : Moves tokens 1 (Walk.negation tokens (Walk.primary tokens scope operand limit) limit) :=
    negation (primary moves)
  cases level with
  | comparison => exact leftToRight (leftToRight (leftToRight unary))
  | sum => exact leftToRight (leftToRight unary)
  | product => exact leftToRight unary
  | unary => exact unary
  | primary => exact primary moves

end

theorem expression (limit : Nat) : Moves tokens 1 (Walk.expression tokens scope limit) := by
  induction limit with
  | zero => exact giveUp
  | succ limit ih => exact ofLevel ih .comparison

end Moves
end InputTape.Expression
