import InputTape.Proofs.Expression.Refusals
import InputTape.Proofs.Script.Aims
import InputTape.Proofs.Script.Diagnostics

/-! Checks that never find anything.

Compiling and evaluating ask again for what was seen to elsewhere: whether a number has a value, which
the lexer has seen to; whether a jump is where it was put down as pending; and whether there is a
component for each channel of a colour, when they have been counted. All of that is so whatever text is
read.
-/

set_option autoImplicit false

namespace InputTape.Script

open Expression (evaluate IsNumeral isNumeral_of_mem_items evaluate_refusesNone)

/-! ## Numbers -/

theorem not_unreadable {text : String} {line : Line} (member : line ∈ lines text) (spelled : String) :
    ¬ Unreadable line.tokens spelled := by
  rintro ⟨token, inside, kind, rfl, unread⟩
  obtain ⟨value, read⟩ :=
    (isNumeral_of_mem_items (mem_items_of_mem_lines member inside) kind).readFloat?
  rw [unread] at read
  cases read

theorem compile_refusesNone (text spelled : String) (line : Nat) :
    compile text ≠ .error ⟨.invalidNumber spelled, line⟩ := by
  intro fails
  cases added : Draft.empty.addLines 1 (lines text) with
  | error error =>
    cases (compile_of_addLines added).symm.trans fails
    obtain ⟨line, member, ofLine | ofLayout⟩ := Draft.addLines_error added
    · exact not_unreadable member spelled ofLine
    · exact ofLayout
  | ok draft =>
    unfold compile at fails
    rw [added] at fails
    exact Draft.finish_isOfEnd fails

/-! ## Pending jumps -/

theorem eq_jump_of_unaimed {instruction : Instruction} {target : Option String}
    (same : unaimed instruction = .plain (.jump target none)) :
    ∃ place, instruction = .plain (.jump target place) := by
  obtain ⟨gap, name, operation⟩ := instruction
  cases operation with
  | jump name place =>
    cases same
    exact ⟨place, rfl⟩
  | _ => cases same

/-- Each pending jump is at its place in the draft, and is still there when those in front of it have
been given their places. -/
structure Draft.Expects (draft : Draft) : Prop where
  laid : ∀ jump ∈ draft.jumps,
    draft.instructions[jump.instruction]? = some (.plain (.jump (some jump.target) none))
  resolving : ∀ front jump back, draft.jumps = front ++ jump :: back →
    ∀ instructions, ({ draft with jumps := front }).resolve = .ok instructions →
      ∃ place, instructions[jump.instruction]? = some (.plain (.jump (some jump.target) place))

theorem Draft.Awaits.expects {draft : Draft} (awaits : draft.Awaits) : draft.Expects where
  laid := awaits.pending
  resolving front jump back split instructions resolved := by
    have laid := awaits.pending jump (split ▸ List.mem_append_right front List.mem_cons_self)
    -- Resolving changes nothing but the places of jumps.
    have same := congrArg (·[jump.instruction]?) (resolve_ok resolved).1
    simp only [List.getElem?_map, Array.getElem?_toList, laid, Option.map_some] at same
    obtain ⟨instruction, there, unaimed⟩ := Option.map_eq_some_iff.mp same
    obtain ⟨place, rfl⟩ := eq_jump_of_unaimed unaimed
    exact ⟨place, there⟩

theorem isSome_of_compile {text : String} {sequence : Sequence} (compiled : compile text = .ok sequence)
    {index : Nat} {instruction : Instruction} (there : sequence.get? index = some instruction)
    {target : Option String} {place : Option Nat}
    (jumps : instruction.operation = .jump target place) : place.isSome := by
  obtain ⟨draft, operations, added, resolved, records, -, -⟩ := compile_records compiled
  obtain ⟨_, _, -, rfl, -, -⟩ := records.aimed (.of_lines added) resolved there jumps
  rfl

/-! ## Colours -/

def colorAt? (hasAlpha : Bool) (components : List UInt8) : Option (Color × UInt8) := do
  if hasAlpha then
    let alpha ← components[0]?
    let red ← components[1]?
    let green ← components[2]?
    let blue ← components[3]?
    return (⟨alpha, red, green, blue⟩, components[4]?.getD 0)
  else
    let red ← components[0]?
    let green ← components[1]?
    let blue ← components[2]?
    return (.opaqueRgb red green blue, components[3]?.getD 0)

def colorName (hasAlpha : Bool) : String := if hasAlpha then "ARGB" else "RGB"

def channelCount (hasAlpha : Bool) : Nat := if hasAlpha then 4 else 3

/-- A colour takes so many parameters. There may be a tolerance behind its channels. -/
def IsColorCount (hasAlpha : Bool) (count : Nat) : Prop :=
  count = channelCount hasAlpha ∨ count = channelCount hasAlpha + 1

section

variable {hasAlpha : Bool} {parameters : List Parameter}

theorem colorOf_miscounted (counts : ¬ IsColorCount hasAlpha parameters.length) :
    colorOf hasAlpha parameters =
      .error (.colorParameters (colorName hasAlpha) (channelCount hasAlpha)) := by
  have wrong : (parameters.length != channelCount hasAlpha &&
      parameters.length != channelCount hasAlpha + 1) = true := by
    simpa [IsColorCount] using counts
  exact if_pos wrong

/-- Behind the counting nothing but the conversion of a component can fail. -/
theorem colorOf_counted (counts : IsColorCount hasAlpha parameters.length)
    {components : List UInt8}
    (converts : parameters.mapM (·.component (colorName hasAlpha)) = .ok components) :
    ∃ color, colorAt? hasAlpha components = some color ∧ colorOf hasAlpha parameters = .ok color := by
  have right : ¬ (parameters.length != channelCount hasAlpha &&
      parameters.length != channelCount hasAlpha + 1) = true := by
    simpa [IsColorCount, Classical.or_iff_not_imp_left] using counts
  rw [(mapM_eq_ok.mp converts).length_eq] at counts
  cases hasAlpha with
  | false =>
    obtain _ | ⟨red, _ | ⟨green, _ | ⟨blue, more⟩⟩⟩ := components
    case cons.cons.cons =>
      refine ⟨_, rfl, (if_neg right).trans (bind_eq_ok.mpr ⟨_, converts, ?_⟩)⟩
      cases more <;> rfl
    all_goals simp [IsColorCount, channelCount] at counts
  | true =>
    obtain _ | ⟨alpha, _ | ⟨red, _ | ⟨green, _ | ⟨blue, more⟩⟩⟩⟩ := components
    case cons.cons.cons.cons =>
      refine ⟨_, rfl, (if_neg right).trans (bind_eq_ok.mpr ⟨_, converts, ?_⟩)⟩
      cases more <;> rfl
    all_goals simp [IsColorCount, channelCount] at counts

end

/-! ## All of them -/

/-- Numbers of a text are digits, maybe with a point, and have values, so that neither compiling nor
evaluating refuses one. Pending jumps are where they are looked for after any number of lines, and no
jump is left without its place. A colour is refused for the number of its parameters only where they are
counted; behind that there is a component for every channel. -/
theorem checks_findNothing :
    (∀ text token, .token token ∈ items text → token.kind = .number →
      IsNumeral token.text.toList ∧ ∃ value, Decimal.readFloat? token.text = some value) ∧
    (∀ text spelled line, compile text ≠ .error ⟨.invalidNumber spelled, line⟩) ∧
    (∀ store line, (evaluate store line).Always (fun _ => True) fun ending =>
      ∀ column spelled, ending.1 ≠ .error (.badSyntax column (.invalidNumber spelled))) ∧
    (∀ text count draft, Draft.empty.addLines 1 ((lines text).take count) = .ok draft →
      draft.Expects) ∧
    (∀ text sequence, compile text = .ok sequence → ∀ index instruction target place,
      sequence.get? index = some instruction → instruction.operation = .jump target place →
      place.isSome) ∧
    ∀ hasAlpha parameters,
      (¬ IsColorCount hasAlpha parameters.length → colorOf hasAlpha parameters =
        .error (.colorParameters (colorName hasAlpha) (channelCount hasAlpha))) ∧
      (IsColorCount hasAlpha parameters.length → ∀ components,
        parameters.mapM (·.component (colorName hasAlpha)) = .ok components →
        ∃ color, colorAt? hasAlpha components = some color ∧
          colorOf hasAlpha parameters = .ok color) := by
  refine ⟨fun text token member kind => ?_, compile_refusesNone, evaluate_refusesNone,
    fun text count draft added => ?_, fun text sequence compiled _ _ _ _ there jumps => ?_,
    fun hasAlpha parameters => ⟨colorOf_miscounted, fun counts _ => colorOf_counted counts⟩⟩
  · have numeral := isNumeral_of_mem_items member kind
    exact ⟨numeral, numeral.readFloat?⟩
  · exact (Draft.Awaits.of_lines added).expects
  · exact isSome_of_compile compiled there jumps

/-- A number with its point at the end, a jump out of a loop that is still open, the same jump when all
is compiled, and a colour without its last channel and with it. -/
theorem checks_findNothing_loop :
    (∃ value, Decimal.readFloat? "1." = some value) ∧
    (∃ draft, Draft.empty.addLines 1 ((lines loopText).take 2) = .ok draft ∧ draft.Expects ∧
      draft.jumps = [⟨3, "__dsl_endwhile_0", 2⟩]) ∧
    (compile loopText = .ok loopSequence ∧ (some 5).isSome) ∧
    colorOf false [.number 1, .number 2] = .error (.colorParameters "RGB" 3) ∧
    ∀ components, [.number 1, .number 2, .number 3].mapM (Parameter.component "RGB") =
        .ok components →
      ∃ color, colorAt? false components = some color ∧
        colorOf false [.number 1, .number 2, .number 3] = .ok color := by
  obtain ⟨numbers, -, -, expects, places, colors⟩ := checks_findNothing
  have spelled : .token ⟨.number, "1.", 1, 1⟩ ∈ items "1." := by decide +kernel
  have opened : ∃ draft, Draft.empty.addLines 1 ((lines loopText).take 2) = .ok draft ∧
      draft.jumps = [⟨3, "__dsl_endwhile_0", 2⟩] := by
    rw [lines_loopText]
    exact ⟨_, rfl, rfl⟩
  obtain ⟨draft, added, jumps⟩ := opened
  refine ⟨(numbers _ _ spelled rfl).2, ⟨draft, added, expects loopText 2 draft added, jumps⟩,
    ⟨compile_loopText, ?_⟩, (colors false _).1 ?_, (colors false _).2 ?_⟩
  · exact places _ _ compile_loopText 3 _ _ _ rfl rfl
  · simp [IsColorCount, channelCount]
  · exact .inl rfl

end InputTape.Script
