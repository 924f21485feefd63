import InputTape.Document.Decoding
import InputTape.Document.Encoding
import InputTape.Proofs.Json.Nodes

/-! Written instructions are read back.

Every record is written with its kind first and without the fields it has no value for. Reading
takes a missing field for no value, so nothing is lost.
-/

set_option autoImplicit false

namespace InputTape

open Json

/-! ## Machine words -/

theorem integerIn?_of_mem {low high n : Int} (least : low ≤ n) (most : n ≤ high) :
    integerIn? low high (integer n) = some n := by
  simp [integerIn?, integer, least, most]

theorem int32?_toInt (x : Int32) : Json.int32? (integer x.toInt) = some x := by
  have low := x.le_toInt
  have high := x.toInt_lt
  rw [Json.int32?, integerIn?_of_mem (by omega) (by omega), Option.map_some, Int32.ofInt_toInt]

theorem uint8?_toNat (x : UInt8) : Json.uint8? (integer x.toNat) = some x := by
  have high := x.toNat_lt
  rw [Json.uint8?, integerIn?_of_mem (by omega) (by omega), Option.map_some, Int.toNat_natCast,
    UInt8.ofNat_toNat]

theorem uint16?_toNat (x : UInt16) : Json.uint16? (integer x.toNat) = some x := by
  have high := x.toNat_lt
  rw [Json.uint16?, integerIn?_of_mem (by omega) (by omega), Option.map_some, Int.toNat_natCast,
    UInt16.ofNat_toNat]

theorem index?_natCast {n : Nat} (fits : n < 2 ^ 64) : Json.index? (integer n) = some n := by
  have most : (n : Int) ≤ Nat.pow 2 64 - 1 := by
    rw [Nat.pow_eq]
    omega
  rw [Json.index?, integerIn?_of_mem (by omega) most, Option.map_some, Int.toNat_natCast]

/-! ## Records -/

theorem ofJson?_color (color : Color) : Color.ofJson? color.toJson = some color := by
  have fields : color.toJson.fields? ["a", "r", "g", "b"] =
      some [some (integer color.alpha.toNat), some (integer color.red.toNat),
        some (integer color.green.toNat), some (integer color.blue.toNat)] := rfl
  simp [Color.ofJson?, fields, uint8?_toNat]

theorem ofJson?_condition (condition : Condition) :
    Condition.ofJson? condition.toJson = some condition := by
  cases condition with
  | pixel x y color tolerance =>
    let members := [("x", integer x.toInt), ("y", integer y.toInt), ("color", color.toJson),
      ("tolerance", integer tolerance.toNat)]
    have fields : Json.fields? ["x", "y", "color", "tolerance"] (.object members) =
        some [some (integer x.toInt), some (integer y.toInt), some color.toJson,
          some (integer tolerance.toNat)] := rfl
    change Condition.ofTagged? "pixel" (.object members) = _
    simp [Condition.ofTagged?, fields, int32?_toInt, ofJson?_color, optional?, uint8?_toNat]
  | expression source => rfl

theorem ofJson?_target (target : BranchTarget) :
    BranchTarget.ofJson? target.toJson = some target := by
  rcases target with ⟨_ | name, _ | file⟩ <;> rfl

/-! ## Operations -/

namespace Operation

def tag : Operation → String
  | .label _ => "label"
  | .delay _ => "delay"
  | .mouse .. => "mouse"
  | .key .. => "key"
  | .script _ => "script"
  | .jump .. => "jump"
  | .branch .. => "branch"
  | .exit => "break"

def members : Operation → List (String × Json)
  | .label name => [("name", .string name)]
  | .delay milliseconds => [("duration_ms", real milliseconds)]
  | .mouse action x y wheel =>
    [("action", .string action.name), ("x", integer x.toInt), ("y", integer y.toInt),
      ("wheel_delta", integer wheel.toInt)]
  | .key action code => [("action", .string action.name), ("key", integer code.code.toNat)]
  | .script lines => [("lines", .array (lines.map .string))]
  | .jump name index =>
    optionalMember "target_name" .string name
      ++ optionalMember "target_index" (fun i : Nat => integer i) index
  | .branch condition onTrue onFalse =>
    [("condition", condition.toJson), ("true_target", onTrue.toJson),
      ("false_target", onFalse.toJson)]
  | .exit => []

theorem toJson_eq (operation : Operation) :
    operation.toJson = .object ((tagName, .string operation.tag) :: operation.members) := by
  cases operation <;> rfl

theorem tag_mem (operation : Operation) : operation.tag ∈ tags := by
  cases operation <;> simp [tag, tags]

/-- The index of a jump is a machine word. -/
def IsSized : Operation → Prop
  | .jump _ (some index) => index < 2 ^ 64
  | _ => True

theorem list?_strings (lines : List String) :
    Json.list? Json.string? (.array (lines.map .string)) = some lines := by
  rw [Json.list?]
  induction lines with
  | nil => rfl
  | cons line lines ih => rw [List.map_cons, List.mapM_cons, ih]; rfl

theorem ofTagged?_members {operation : Operation} (sized : operation.IsSized) :
    ofTagged? operation.tag (.object operation.members) = some operation := by
  -- Every member is found under its name, and read back as what was written.
  cases operation with
  | label name => rfl
  | delay milliseconds => rfl
  | mouse action x y wheel =>
    have known : word? MouseAction.all MouseAction.name (.string action.name) = some action := by
      cases action <;> rfl
    have fields : Json.fields? ["action", "x", "y", "wheel_delta"]
        (.object (members (.mouse action x y wheel))) =
          some [some (.string action.name), some (integer x.toInt), some (integer y.toInt),
            some (integer wheel.toInt)] := rfl
    simp [ofTagged?, tag, fields, known, optional?, int32?_toInt]
  | key action code =>
    have known : word? KeyAction.all KeyAction.name (.string action.name) = some action := by
      cases action <;> rfl
    have fields : Json.fields? ["action", "key"] (.object (members (.key action code))) =
        some [some (.string action.name), some (integer code.code.toNat)] := rfl
    simp [ofTagged?, tag, fields, known, uint16?_toNat]
  | script lines =>
    have fields : Json.fields? ["lines"] (.object (members (.script lines))) =
        some [some (.array (lines.map .string))] := rfl
    simp [ofTagged?, tag, fields, list?_strings]
  | jump name index =>
    have known :
        optional? (orNull? Json.string?) none (name.map .string) = some name := by
      cases name <;> rfl
    have reached :
        optional? (orNull? Json.index?) none (index.map fun i : Nat => integer i) = some index := by
      cases index with
      | none => rfl
      | some index => exact congrArg (Option.map some) (index?_natCast sized)
    have fields : Json.fields? ["target_name", "target_index"]
        (.object (members (.jump name index))) =
          some [name.map .string, index.map fun i : Nat => integer i] := by
      cases name <;> cases index <;> rfl
    simp [ofTagged?, tag, fields, known, reached]
  | branch condition onTrue onFalse =>
    have fields : Json.fields? ["condition", "true_target", "false_target"]
        (.object (members (.branch condition onTrue onFalse))) =
          some [some condition.toJson, some onTrue.toJson, some onFalse.toJson] := rfl
    simp [ofTagged?, tag, fields, optional?, ofJson?_condition, ofJson?_target]
  | exit => rfl

theorem members_untagged (operation : Operation) :
    ∀ member ∈ operation.members, member.1 ≠ tagName := by
  cases operation with
  | jump name index => cases name <;> cases index <;> simp [members, optionalMember, tagName]
  | _ => simp [members, tagName]

theorem nesting_condition (condition : Condition) : nesting condition.toJson ≤ 2 := by
  cases condition <;> simp [Condition.toJson, Color.toJson, nesting, memberNesting, integer]

theorem nesting_target (target : BranchTarget) : nesting target.toJson ≤ 1 := by
  rcases target with ⟨_ | name, _ | file⟩ <;>
    simp [BranchTarget.toJson, optionalMember, nesting, memberNesting]

theorem itemNesting_strings (lines : List String) : itemNesting (lines.map .string) = 0 := by
  induction lines with
  | nil => rfl
  | cons line lines ih => simp [itemNesting, nesting, ih]

theorem nesting_members (operation : Operation) : memberNesting operation.members ≤ 2 := by
  cases operation with
  | script lines => simp [members, memberNesting, nesting, itemNesting_strings]
  | jump name index =>
    cases name <;> cases index <;> simp [members, optionalMember, memberNesting, nesting, integer]
  | branch condition onTrue onFalse =>
    have := nesting_condition condition
    have := nesting_target onTrue
    have := nesting_target onFalse
    simp only [members, memberNesting]
    omega
  | _ => simp [members, memberNesting, nesting, integer, real]

end Operation

/-! ## Reading -/

theorem readTaggedMembers_memberNodes {tags : List String} {depth : Nat} {tag : Option String}
    {members : List (String × Json)} (untagged : ∀ member ∈ members, member.1 ≠ tagName)
    (shallow : memberNesting members ≤ depth) :
    readTaggedMembers tags depth (memberNodes members) tag = .ok (tag, members) := by
  induction members with
  | nil => rfl
  | cons member members ih =>
    obtain ⟨name, value⟩ := member
    obtain ⟨other, untagged⟩ := List.forall_mem_cons.mp untagged
    rw [memberNesting] at shallow
    have different : (name == tagName) = false := beq_false_of_ne other
    simp only [memberNodes, readTaggedMembers, Node.present, bind, Except.bind, different,
      value_nodeOf value depth (by omega), ih untagged (by omega)]
    rfl

theorem readTagged_nodeOf {tags : List String} {depth : Nat} {tag : String} (known : tag ∈ tags)
    {members : List (String × Json)} (untagged : ∀ member ∈ members, member.1 ≠ tagName)
    (shallow : memberNesting members ≤ depth) :
    readTagged tags depth (nodeOf (.object ((tagName, .string tag) :: members))) =
      .ok (tag, .object members) := by
  have first : readTag tags (nodeOf (.string tag)) = .ok tag := by
    simp [readTag, nodeOf, Node.expect, Node.value, Node.present, Json.string?, known, bind,
      Except.bind, pure, Except.pure]
  rw [nodeOf] at first
  simp [nodeOf, memberNodes, readTagged, readTaggedMembers, Node.present, bind, Except.bind, first,
    readTaggedMembers_memberNodes untagged shallow]
  rfl

namespace Instruction

theorem readField_kind {operation : Operation} (sized : operation.IsSized) {depth : Nat}
    (deep : 2 ≤ depth) (fields : InstructionFields) :
    readField depth "kind" (nodeOf operation.toJson) fields =
      .ok { fields with operation := some operation } := by
  have tagged := readTagged_nodeOf operation.tag_mem operation.members_untagged
    (operation.nesting_members.trans deep)
  rw [← Operation.toJson_eq] at tagged
  simp [readField, tagged, bind, Except.bind, Operation.ofTagged?_members sized]
  rfl

theorem readField_gap (depth : Nat) (gap : Float) (fields : InstructionFields) :
    readField depth "time_since_previous_ms" (nodeOf (real gap)) fields =
      .ok { fields with gap } := rfl

theorem readField_name (depth : Nat) (name : String) (fields : InstructionFields) :
    readField depth "name" (nodeOf (.string name)) fields =
      .ok { fields with name := some name } := rfl

theorem read_nodeOf {instruction : Instruction} (sized : instruction.operation.IsSized)
    {outer : Nat} (shallow : outer ≤ 123) :
    read outer (nodeOf instruction.toJson) = .ok instruction := by
  obtain ⟨gap, name, operation⟩ := instruction
  have deep : 2 ≤ nestingLimit - outer - 2 := by
    rw [nestingLimit]
    omega
  have kind := readField_kind sized deep
  have ending (fields : InstructionFields) (seen : List String) (fresh : "kind" ∉ seen) :
      Node.recordMembers ["time_since_previous_ms", "name", "kind"]
        (readField (nestingLimit - outer - 2)) (memberNodes [("kind", operation.toJson)]) seen
        fields = .ok { fields with operation := some operation } :=
    (recordMembers_known (by simp) fresh (kind fields)).trans rfl
  have members : Node.recordMembers ["time_since_previous_ms", "name", "kind"]
      (readField (nestingLimit - outer - 2))
      (memberNodes (("time_since_previous_ms", real gap) :: optionalMember "name" .string name
        ++ [("kind", operation.toJson)])) [] ⟨0, none, none⟩ = .ok ⟨gap, name, some operation⟩ := by
    refine (recordMembers_known (by simp) (by simp) (readField_gap ..)).trans ?_
    cases name with
    | none => exact ending _ _ (by simp)
    | some name =>
      exact (recordMembers_known (by simp) (by simp) (readField_name ..)).trans
        (ending _ _ (by simp))
  rw [read, toJson, record_nodeOf members]
  rfl

end Instruction

end InputTape
