import InputTape.Proofs.Script.Readers

/-! What is read as a condition.

A condition stands in parentheses, and what decides between its forms is its first token.
-/

set_option autoImplicit false

namespace InputTape.Script

open LineReader

/-! ## Colours -/

section

variable {first second third fourth : Parameter} {more parameters : List Parameter}
  {color : Color} {tolerance : UInt8}

theorem IsTolerance.length_le (is : IsTolerance more tolerance) : more.length ≤ 1 := by
  cases is <;> simp

theorem isTolerance_iff (name : String) (few : more.length ≤ 1) :
    IsTolerance more tolerance ↔ ∃ made, made.head?.getD 0 = tolerance ∧
      List.Forall₂ (fun parameter component => parameter.component name = .ok component)
        more made := by
  rcases more with _ | ⟨parameter, _ | ⟨another, rest⟩⟩
  · constructor
    · rintro ⟨⟩
      exact ⟨[], rfl, .nil⟩
    · rintro ⟨_, rfl, ⟨⟩⟩
      exact .none
  · constructor
    · rintro (_ | is)
      exact ⟨[tolerance], rfl, .cons (component_eq_ok.mpr is) .nil⟩
    · rintro ⟨_, rfl, _ | ⟨made, ⟨⟩⟩⟩
      exact .some (component_eq_ok.mp made)
  · simp at few

theorem colorOf_eq_ok {hasAlpha : Bool} :
    colorOf hasAlpha parameters = .ok (color, tolerance) ↔
      AreChannels hasAlpha parameters color tolerance := by
  constructor
  · intro made
    unfold colorOf at made
    -- The parameters are counted before any of them is looked at.
    by_cases fits : parameters.length = (if hasAlpha then 4 else 3) ∨
      parameters.length = (if hasAlpha then 4 else 3) + 1
    · rw [if_neg (by simpa using fun not => fits.resolve_left not)] at made
      obtain ⟨components, each, made⟩ := bind_eq_ok.mp made
      have each := mapM_eq_ok.mp each
      cases hasAlpha with
      | false =>
        obtain _ | ⟨isRed, _ | ⟨isGreen, _ | ⟨isBlue, others⟩⟩⟩ := each
        case cons.cons.cons =>
          cases made
          refine .rgb (component_eq_ok.mp isRed) (component_eq_ok.mp isGreen)
            (component_eq_ok.mp isBlue) ((isTolerance_iff _ ?_).mpr ⟨_, rfl, others⟩)
          simp only [List.length_cons, Bool.false_eq_true, if_false] at fits
          omega
        all_goals cases made
      | true =>
        obtain _ | ⟨isAlpha, _ | ⟨isRed, _ | ⟨isGreen, _ | ⟨isBlue, others⟩⟩⟩⟩ := each
        case cons.cons.cons.cons =>
          cases made
          refine .argb (component_eq_ok.mp isAlpha) (component_eq_ok.mp isRed)
            (component_eq_ok.mp isGreen) (component_eq_ok.mp isBlue)
            ((isTolerance_iff _ ?_).mpr ⟨_, rfl, others⟩)
          simp only [List.length_cons, if_true] at fits
          omega
        all_goals cases made
    · rw [if_pos (by simpa using fits)] at made
      cases made
  · intro channels
    cases channels with
    | rgb isRed isGreen isBlue is =>
      have few := is.length_le
      obtain ⟨rest, rfl, others⟩ := (isTolerance_iff "RGB" few).mp is
      unfold colorOf
      rw [if_neg (by
        simp only [Bool.false_eq_true, if_false, List.length_cons, bne_iff_ne, Bool.and_eq_true]
        omega)]
      exact bind_eq_ok.mpr ⟨_, mapM_eq_ok.mpr (.cons (component_eq_ok.mpr isRed)
        (.cons (component_eq_ok.mpr isGreen) (.cons (component_eq_ok.mpr isBlue) others))), rfl⟩
    | argb isAlpha isRed isGreen isBlue is =>
      have few := is.length_le
      obtain ⟨rest, rfl, others⟩ := (isTolerance_iff "ARGB" few).mp is
      unfold colorOf
      rw [if_neg (by simp only [if_true, List.length_cons, bne_iff_ne, Bool.and_eq_true]; omega)]
      exact bind_eq_ok.mpr ⟨_, mapM_eq_ok.mpr (.cons (component_eq_ok.mpr isAlpha)
        (.cons (component_eq_ok.mpr isRed) (.cons (component_eq_ok.mpr isGreen)
          (.cons (component_eq_ok.mpr isBlue) others)))), rfl⟩

end

section

variable {x y : Int32} {negated : Bool} {name : Token}

theorem reads_channels {hasAlpha : Bool}
    (isName : name.kind = .keyword (if hasAlpha then .argb else .rgb)) :
    Reads (do
        let (color, tolerance) ← colorOf hasAlpha
          (← parameters (if hasAlpha then "ARGB" else "RGB"))
        return (.pixel x y color tolerance, negated) : LineReader (Condition × Bool))
      fun tokens value => ∃ color tolerance, IsColor (name :: tokens) color tolerance ∧
        value = (.pixel x y color tolerance, negated) := by
  refine ((reads_parameters (if hasAlpha then "ARGB" else "RGB")).andThen fun found =>
    (reads_lift (colorOf hasAlpha found)).andThen fun made =>
      reads_pure (Condition.pixel x y made.1 made.2, negated)).congr fun tokens value => ?_
  constructor
  · rintro ⟨_, front, _, rfl, isList, ⟨color, tolerance⟩, _, _, rfl, ⟨rfl, made⟩, rfl, rfl⟩
    rw [List.append_nil, List.append_nil]
    exact ⟨_, _, .channels isName isList (colorOf_eq_ok.mp made), rfl⟩
  · rintro ⟨color, tolerance, @⟨other, _, _, _, _, _, kind, isList, channels⟩, rfl⟩
    obtain rfl : other = hasAlpha := by
      cases other <;> cases hasAlpha <;> first | rfl | cases isName.symm.trans kind
    exact ⟨_, tokens, [], by simp, isList, _, [], [], rfl, ⟨rfl, colorOf_eq_ok.mpr channels⟩,
      rfl, rfl⟩

theorem reads_color :
    Reads (do
        let hasAlpha ← match (← expectAny "RGB(...) or ARGB(...)").kind with
          | .keyword .rgb => pure false
          | .keyword .argb => pure true
          | _ => throw .colorMissing
        let (color, tolerance) ← colorOf hasAlpha
          (← parameters (if hasAlpha then "ARGB" else "RGB"))
        return (.pixel x y color tolerance, negated) : LineReader (Condition × Bool))
      fun tokens value => ∃ color tolerance, IsColor tokens color tolerance ∧
        value = (.pixel x y color tolerance, negated) := by
  refine Reads.behind nofun fun name => ?_
  have refused (rgb : name.kind ≠ .keyword .rgb) (argb : name.kind ≠ .keyword .argb)
      {problem : Problem} : Reads (throw problem : LineReader (Condition × Bool))
        fun tokens value => ∃ color tolerance, IsColor (name :: tokens) color tolerance ∧
          value = (Condition.pixel x y color tolerance, negated) := by
    refine (reads_throw _).congr fun tokens value => ⟨nofun, ?_⟩
    rintro ⟨color, tolerance, @⟨hasAlpha, _, _, _, _, _, kind, isList, channels⟩, rfl⟩
    cases hasAlpha <;> contradiction
  obtain ⟨kind, text, line, column⟩ := name
  rcases kind with _ | _ | _ | _ | _ | _ | _ | _ | _ | _ | keyword | _ | _
  case keyword =>
    cases keyword with
    | rgb => exact @reads_channels x y negated _ false rfl
    | argb => exact @reads_channels x y negated _ true rfl
    | _ => exact refused nofun nofun
  all_goals exact refused nofun nofun

end

/-! ## Conditions -/

inductive IsComparison (x y : Int32) : List Token → Condition × Bool → Prop where
  | compared {operator : Token} {colors : List Token} {color : Color} {tolerance : UInt8}
      {negated : Bool} : operator.kind = .operator (if negated then .notEqual else .equal) →
      IsColor colors color tolerance →
      IsComparison x y (operator :: colors) (.pixel x y color tolerance, negated)

theorem reads_comparison {x y : Int32} :
    Reads (do
        let negated ← match (← expectAny "'==' or '!='").kind with
          | .operator .equal => pure false
          | .operator .notEqual => pure true
          | _ => throw .comparisonMissing
        let hasAlpha ← match (← expectAny "RGB(...) or ARGB(...)").kind with
          | .keyword .rgb => pure false
          | .keyword .argb => pure true
          | _ => throw .colorMissing
        let (color, tolerance) ← colorOf hasAlpha
          (← parameters (if hasAlpha then "ARGB" else "RGB"))
        return (.pixel x y color tolerance, negated) : LineReader (Condition × Bool))
      (IsComparison x y) := by
  refine Reads.behind nofun fun operator => ?_
  have refused (equal : operator.kind ≠ .operator .equal)
      (notEqual : operator.kind ≠ .operator .notEqual) {problem : Problem} :
      Reads (throw problem : LineReader (Condition × Bool))
        fun tokens value => IsComparison x y (operator :: tokens) value := by
    refine (reads_throw _).congr fun tokens value => ⟨nofun, ?_⟩
    rintro @⟨_, _, _, _, negated, kind, -⟩
    cases negated <;> contradiction
  have accepted (negated : Bool)
      (kind : operator.kind = .operator (if negated then .notEqual else .equal)) tokens value :
      (∃ color tolerance, IsColor tokens color tolerance ∧
        value = (Condition.pixel x y color tolerance, negated)) ↔
        IsComparison x y (operator :: tokens) value := by
    constructor
    · rintro ⟨color, tolerance, isColor, rfl⟩
      exact .compared kind isColor
    · rintro @⟨_, _, color, tolerance, other, again, isColor⟩
      obtain rfl : other = negated := by
        cases other <;> cases negated <;> first | rfl | cases kind.symm.trans again
      exact ⟨color, tolerance, isColor, rfl⟩
  obtain ⟨kind, text, line, column⟩ := operator
  -- Of all tokens only the two comparisons are taken.
  rcases kind with _ | _ | _ | operator | _ | _ | _ | _ | _ | _ | _ | _ | _
  case operator =>
    cases operator with
    | equal => exact reads_color.congr (accepted false rfl)
    | notEqual => exact reads_color.congr (accepted true rfl)
    | _ => exact refused nofun nofun
  all_goals exact refused nofun nofun

theorem reads_pixelCondition {name : Token} (isName : name.kind = .keyword .pixelColor) :
    Reads pixelCondition fun tokens value => IsCondition (name :: tokens) value.1 value.2 := by
  refine (@Reads.andThen _ _ _ _ _ (fun found tokens value => ∃ first second x y,
    found = [first, second] ∧ Parameter.IsInteger first x ∧ Parameter.IsInteger second y ∧
      IsComparison x y tokens value) (reads_parameters "PixelColor") fun found => ?_).congr
    fun tokens value => ?_
  · split
    · next first second =>
      refine ((reads_lift _).andThen fun x => (reads_lift _).andThen fun y =>
        reads_comparison).congr fun tokens value => ?_
      constructor
      · rintro ⟨x, _, _, rfl, ⟨rfl, isX⟩, y, _, _, rfl, ⟨rfl, isY⟩, compares⟩
        exact ⟨_, _, x, y, rfl, int32_eq_ok.mp isX, int32_eq_ok.mp isY, compares⟩
      · rintro ⟨_, _, x, y, ⟨⟩, isX, isY, compares⟩
        exact ⟨x, [], tokens, rfl, ⟨rfl, int32_eq_ok.mpr isX⟩, y, [], tokens, rfl,
          ⟨rfl, int32_eq_ok.mpr isY⟩, compares⟩
    · next other =>
      refine (reads_throw _).congr fun tokens value => ⟨nofun, ?_⟩
      rintro ⟨_, _, _, _, rfl, -⟩
      exact other _ _ rfl
  · constructor
    · rintro ⟨_, place, _, rfl, isPlace, _, _, x, y, rfl, isX, isY, ⟨kind, isColor⟩⟩
      exact .pixel isName isPlace isX isY kind isColor
    · obtain ⟨condition, negated⟩ := value
      intro derives
      generalize same : name :: tokens = all at derives
      cases derives with
      | @pixel _ operator place colors _ _ x y _ _ _ _ isPlace isX isY kind isColor =>
        cases same
        exact ⟨_, place, operator :: colors, rfl, isPlace, _, _, x, y, rfl, isX, isY,
          .compared kind isColor⟩
      | expression kind =>
        cases same
        cases isName.symm.trans kind

inductive IsClosed : List Token → Condition × Bool → Prop where
  | closed {tokens : List Token} {closing : Token} {condition : Condition} {negated : Bool} :
      IsCondition tokens condition negated → closing.kind = .closeParen →
      IsClosed (tokens ++ [closing]) (condition, negated)

theorem IsClosed.eq_append {tokens : List Token} {value : Condition × Bool}
    (closed : IsClosed tokens value) : ∃ inner closing, tokens = inner ++ [closing] ∧
      IsCondition inner value.1 value.2 ∧ closing.kind = .closeParen := by
  obtain ⟨isCondition, closes⟩ := closed
  exact ⟨_, _, rfl, isCondition, closes⟩

theorem IsClosed.eq_cons {name : Token} {tokens : List Token} {value : Condition × Bool}
    (closed : IsClosed (name :: tokens) value) : ∃ more closing, tokens = more ++ [closing] ∧
      IsCondition (name :: more) value.1 value.2 ∧ closing.kind = .closeParen := by
  obtain ⟨_ | ⟨first, more⟩, closing, same, isCondition, closes⟩ := closed.eq_append
  · cases isCondition
  · cases same
    exact ⟨more, closing, rfl, isCondition, closes⟩

theorem reads_closing (condition : Condition × Bool) :
    Reads (do
        discard <| expect .closeParen "')' after the condition"
        return condition) fun tokens value =>
      ∃ closing, tokens = [closing] ∧ closing.kind = .closeParen ∧ value = condition := by
  refine (((reads_expect _ _).andThen fun _ => reads_pure ()).andThen fun _ =>
    reads_pure condition).congr fun tokens value => ?_
  constructor
  · rintro ⟨_, _, _, rfl, ⟨closing, _, _, rfl, ⟨rfl, closes⟩, rfl, -⟩, rfl, rfl⟩
    exact ⟨closing, rfl, closes, rfl⟩
  · rintro ⟨closing, rfl, closes, rfl⟩
    exact ⟨(), [closing], [], rfl, ⟨closing, [closing], [], rfl, ⟨rfl, closes⟩, rfl, rfl⟩, rfl, rfl⟩

theorem reads_custom {name : Token} (isName : name.kind = .keyword .custom) :
    Reads (do
        let condition ← match ← parameters "Custom" with
          | [.string source] => pure (.expression source, false)
          | _ => throw .customParameters
        discard <| expect .closeParen "')' after the condition"
        return condition) fun tokens value => IsClosed (name :: tokens) value := by
  refine (@Reads.andThen _ _ _ _ _ (fun found tokens value => ∃ source closing,
    found = [.string source] ∧ tokens = [closing] ∧ closing.kind = .closeParen ∧
      value = (.expression source, false)) (reads_parameters "Custom") fun found => ?_).congr
    fun tokens value => ?_
  · split
    · next source =>
      refine (reads_closing (.expression source, false)).congr fun tokens value => ?_
      constructor
      · rintro ⟨closing, rfl, closes, rfl⟩
        exact ⟨source, closing, rfl, rfl, closes, rfl⟩
      · rintro ⟨_, closing, ⟨⟩, rfl, closes, rfl⟩
        exact ⟨closing, rfl, closes, rfl⟩
    · next other =>
      refine (reads_throw _).congr fun tokens value => ⟨nofun, ?_⟩
      rintro ⟨_, _, rfl, -⟩
      exact other _ rfl
  · constructor
    · rintro ⟨_, inner, _, rfl, isList, source, closing, rfl, rfl, closes, rfl⟩
      exact .closed (.expression isName isList) closes
    · intro closed
      obtain ⟨more, closing, rfl, isCondition, closes⟩ := closed.eq_cons
      obtain ⟨condition, negated⟩ := value
      generalize same : name :: more = tokens at isCondition
      cases isCondition with
      | pixel kind =>
        cases same
        cases isName.symm.trans kind
      | expression _ isList =>
        cases same
        exact ⟨_, more, [closing], rfl, isList, _, closing, rfl, rfl, closes, rfl⟩

theorem reads_parenthesisedCondition :
    Reads parenthesisedCondition fun tokens value => ∃ opening closed,
      tokens = opening :: closed ∧ opening.kind = .openParen ∧ IsClosed closed value := by
  have opens : Reads (discard (expect .openParen "'(' before the condition")) fun tokens _ =>
      ∃ opening, tokens = [opening] ∧ opening.kind = .openParen :=
    ((reads_expect _ _).andThen fun _ => reads_pure ()).congr fun tokens value => by
      simp
  refine (opens.andThen fun _ => @Reads.behind _ _ _ IsClosed ?_ fun name => ?_).congr
    fun tokens value => ?_
  -- Nothing but a closing parenthesis ends it, so it cannot be empty.
  · rintro value closed
    obtain ⟨inner, closing, same, -⟩ := closed.eq_append
    simp at same
  · have refused (pixel : name.kind ≠ .keyword .pixelColor) (custom : name.kind ≠ .keyword .custom)
        {problem : Problem} : Reads (throw problem : LineReader (Condition × Bool))
          fun tokens value => IsClosed (name :: tokens) value := by
      refine (reads_throw _).congr fun tokens value => ⟨nofun, fun closed => ?_⟩
      obtain ⟨condition, negated⟩ := value
      obtain ⟨more, closing, rfl, isCondition, closes⟩ := closed.eq_cons
      cases isCondition <;> contradiction
    obtain ⟨kind, text, line, column⟩ := name
    rcases kind with _ | _ | _ | _ | _ | _ | _ | _ | _ | _ | keyword | _ | _
    case keyword =>
      cases keyword with
      | pixelColor =>
        refine ((@reads_pixelCondition ⟨.keyword .pixelColor, text, line, column⟩ rfl).andThen
          reads_closing).congr fun tokens value => ?_
        constructor
        · rintro ⟨_, inner, _, rfl, isCondition, closing, rfl, closes, rfl⟩
          exact .closed isCondition closes
        · intro closed
          obtain ⟨more, closing, rfl, isCondition, closes⟩ := closed.eq_cons
          exact ⟨_, more, [closing], rfl, isCondition, closing, rfl, closes, rfl⟩
      | custom => exact reads_custom rfl
      | _ => exact refused nofun nofun
    all_goals exact refused nofun nofun
  · constructor
    · rintro ⟨_, _, closed, rfl, ⟨opening, rfl, opens⟩, isClosed⟩
      exact ⟨opening, closed, rfl, opens, isClosed⟩
    · rintro ⟨opening, closed, rfl, opens, isClosed⟩
      exact ⟨(), [opening], closed, rfl, ⟨opening, rfl, opens⟩, isClosed⟩

end InputTape.Script
