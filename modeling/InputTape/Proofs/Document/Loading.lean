import InputTape.Document.Basic
import InputTape.Proofs.Document.Instructions
import InputTape.Proofs.Script.Names
import InputTape.Proofs.Script.Readers

/-! What is read from documents, whatever they hold.

Records are read member by member, and what is true of a record in the beginning and kept by every
field is true in the end. So whatever instructions a document holds, the indices of jumps that are
read from it are machine words. A document is read only if it is an object with one version, which is
the one that is known.
-/

set_option autoImplicit false

namespace InputTape

open Json
open Script (Yields bind_eq_ok)

/-! ## Records -/

section

variable {Partial : Type} {names : List String}
  {field : String → Node → Partial → Reading Partial} {kept : Partial → Prop}

section Members

variable {key : String} {value : Node} {more : List (Option String × Node)} {seen : List String}
  {record : Partial}

theorem recordMembers_first (known : key ∈ names) (fresh : key ∉ seen) :
    Node.recordMembers names field ((some key, value) :: more) seen record =
      field key value record >>= Node.recordMembers names field more (key :: seen) := by
  simp [Node.recordMembers, Node.present, known, fresh, bind, Except.bind]

theorem recordMembers_twice (known : key ∈ names) (there : key ∈ seen) :
    Node.recordMembers names field ((some key, value) :: more) seen record =
      .error .mistyped := by
  simp [Node.recordMembers, Node.present, known, there, bind, Except.bind]
  rfl

theorem recordMembers_skipped (unknown : key ∉ names) :
    Node.recordMembers names field ((some key, value) :: more) seen record =
      value.skip >>= fun _ => Node.recordMembers names field more seen record := by
  simp [Node.recordMembers, Node.present, unknown, bind, Except.bind]

end Members

theorem yields_recordMembers
    (keeps : ∀ name node record, kept record → Yields kept (field name node record))
    (members : List (Option String × Node)) (seen : List String) {record : Partial}
    (holds : kept record) : Yields kept (Node.recordMembers names field members seen record) := by
  induction members generalizing seen record with
  | nil => exact .ok holds
  | cons member more ih =>
    refine .behind fun key => ?_
    dsimp only
    split
    · split
      · exact .error
      · exact (keeps key member.2 record holds).bind fun longer held => ih _ held
    · exact .behind fun _ => ih _ holds

theorem yields_recordItems
    (keeps : ∀ name node record, kept record → Yields kept (field name node record))
    (ending : Option Fault) (names : List String) (items : List Node) {record : Partial}
    (holds : kept record) : Yields kept (Node.recordItems field ending names items record) := by
  induction items generalizing names record with
  | nil =>
    unfold Node.recordItems
    exact .behind fun _ => .ok holds
  | cons item more ih =>
    cases names with
    | nil => exact .error
    | cons name names => exact (keeps name item record holds).bind fun _ held => ih names held

theorem yields_record
    (keeps : ∀ name node record, kept record → Yields kept (field name node record))
    {start : Partial} (holds : kept start) (node : Node) :
    Yields kept (node.record names field start) := by
  cases node with
  | object members ending =>
    exact (yields_recordMembers keeps members [] holds).bind fun _ held => .behind fun _ => .ok held
  | array items ending => exact yields_recordItems keeps ending names items holds
  | unreadable | null | bool => exact .error
  | number value | string value => cases value <;> exact .error

end

theorem yields_mapM {α β : Type} {kept : β → Prop} {each : α → Reading β}
    (yields : ∀ value, Yields kept (each value)) (values : List α) :
    Yields (fun found => ∀ value ∈ found, kept value) (values.mapM each) := by
  induction values with
  | nil => exact .ok nofun
  | cons first more ih =>
    rw [List.mapM_cons]
    exact (yields first).bind fun _ here => ih.bind fun _ others =>
      .ok (List.forall_mem_cons.mpr ⟨here, others⟩)

theorem yields_readText {α : Type} {kept : α → Prop} {reader : Node → Reading α} {text : String}
    (yields : Yields kept (reader (Node.ofText text).1)) : Yields kept (readText reader text) := by
  refine yields.bind fun value held => ?_
  split
  · exact .ok held
  · exact .error

/-! ## Indices of jumps -/

theorem integerIn?_eq_some {value : Json} {low high n : Int}
    (found : value.integerIn? low high = some n) :
    value = .number (.integer n) ∧ low ≤ n ∧ n ≤ high := by
  unfold Json.integerIn? at found
  split at found
  · split at found
    · next inside =>
      cases found
      simpa using inside
    · cases found
  · cases found

theorem index?_lt {value : Json} {index : Nat} (found : value.index? = some index) :
    index < 2 ^ 64 := by
  obtain ⟨n, inside, rfl⟩ := Option.map_eq_some_iff.mp found
  obtain ⟨-, least, most⟩ := integerIn?_eq_some inside
  change n ≤ 2 ^ 64 - 1 at most
  omega

theorem isSized_jump {name : Option String} {value : Option Json} {index : Option Nat}
    (found : optional? (orNull? Json.index?) none value = some index) :
    (Operation.jump name index).IsSized := by
  cases index with
  | none => trivial
  | some index =>
    cases value with
    | none => cases found
    | some value =>
      change orNull? Json.index? value = some (some index) at found
      unfold orNull? at found
      split at found
      · cases found
      · obtain ⟨_, within, ⟨⟩⟩ := Option.map_eq_some_iff.mp found
        exact index?_lt within

theorem isSized_ofTagged? {tag : String} {value : Json} {operation : Operation}
    (found : Operation.ofTagged? tag value = some operation) : operation.IsSized := by
  cases operation with
  | jump name index =>
    unfold Operation.ofTagged? at found
    split at found
    case h_6 =>
      simp only [Option.bind_eq_bind, Option.bind_eq_some_iff] at found
      obtain ⟨fields, -, found⟩ := found
      split at found
      · simp only [Option.bind_eq_some_iff] at found
        obtain ⟨_, -, _, place, ⟨⟩⟩ := found
        exact isSized_jump place
      · cases found
    -- No other tag is that of a jump.
    case h_8 => split at found <;> cases found
    all_goals
      simp only [Option.bind_eq_bind, Option.bind_eq_some_iff] at found
      obtain ⟨fields, -, found⟩ := found
      split at found <;> simp [Option.bind_eq_some_iff] at found
  | _ => trivial

def InstructionFields.AreSized (fields : InstructionFields) : Prop :=
  ∀ operation, fields.operation = some operation → operation.IsSized

theorem areSized_readField (depth : Nat) (field : String) (node : Node)
    (fields : InstructionFields) (sized : fields.AreSized) :
    Yields InstructionFields.AreSized (Instruction.readField depth field node fields) := by
  unfold Instruction.readField
  split
  · exact .behind fun _ => .ok sized
  · exact .behind fun _ => .ok sized
  · refine .behind fun read => ?_
    dsimp only
    split
    · next operation found =>
      refine .ok ?_
      rintro _ ⟨⟩
      exact isSized_ofTagged? found
    · exact .error

theorem isSized_read (outer : Nat) (node : Node) :
    Yields (fun instruction => instruction.operation.IsSized) (Instruction.read outer node) := by
  have start : InstructionFields.AreSized ⟨0, none, none⟩ := nofun
  refine (yields_record (areSized_readField _) start node).bind fun fields sized => ?_
  split
  · next operation found => exact .ok (sized operation found)
  · exact .error

namespace Document

theorem yields_readOnly {α : Type} {kept : α → Prop} {reader : Node → Reading α}
    (yields : ∀ node, Yields kept (reader node)) (name : String) (node : Node) :
    Yields kept (readOnly name reader node) := by
  have reads (field : String) (node : Node) (found : Option α)
      (_ : ∀ value ∈ found, kept value) : Yields (fun found => ∀ value ∈ found, kept value)
      (do return some (← reader node) : Reading (Option α)) := by
    refine (yields node).bind fun value held => .ok ?_
    rintro _ ⟨⟩
    exact held
  have start : ∀ value ∈ (none : Option α), kept value := nofun
  refine (yields_record reads start node).bind fun found holds => ?_
  split
  · next value => exact .ok (holds value rfl)
  · exact .error

theorem isSized_readInstructions (text : String) :
    Yields (fun instructions => ∀ instruction ∈ instructions, instruction.operation.IsSized)
      (readInstructions text) := by
  refine yields_readText (yields_readOnly (fun node => ?_) _ _)
  cases node with
  | array items ending =>
    exact (yields_mapM (isSized_read 2) items).bind fun _ sized => .behind fun _ => .ok sized
  | unreadable | null | bool | object => exact .error
  | number value | string value => cases value <;> exact .error

/-! ## Versions -/

/-- The text is an object with one member for the version, which is this number. -/
def HasVersion (text : String) (n : Int) : Prop :=
  ∃ members ending, (Node.ofText text).1 = .object members ending ∧
    members.filter (·.1 == some "version") = [(some "version", .number (some (.integer n)))]

section

variable {α : Type} {name : String} {reader : Node → Reading α}
  {members : List (Option String × Node)}

theorem recordMembers_again {record found : Option α}
    (read : Node.recordMembers [name] (fun _ value _ => return some (← reader value)) members
      [name] record = .ok found) :
    found = record ∧ members.filter (·.1 == some name) = [] := by
  induction members with
  | nil =>
    cases read
    exact ⟨rfl, rfl⟩
  | cons member more ih =>
    obtain ⟨_ | key, value⟩ := member
    · cases read
    · by_cases same : key ∈ [name]
      · rw [recordMembers_twice same same] at read
        cases read
      · rw [recordMembers_skipped same] at read
        obtain ⟨_, -, rest⟩ := bind_eq_ok.mp read
        rw [List.filter_cons_of_neg (by simpa using same)]
        exact ih rest

theorem recordMembers_once {found : α}
    (read : Node.recordMembers [name] (fun _ value _ => return some (← reader value)) members
      [] none = .ok (some found)) :
    ∃ value, reader value = .ok found ∧ members.filter (·.1 == some name) = [(some name, value)] := by
  induction members with
  | nil => cases read
  | cons member more ih =>
    obtain ⟨_ | key, value⟩ := member
    · cases read
    · by_cases same : key ∈ [name]
      · rw [recordMembers_first same List.not_mem_nil] at read
        cases List.mem_singleton.mp same
        obtain ⟨_, first, rest⟩ := bind_eq_ok.mp read
        obtain ⟨_, here, ⟨⟩⟩ := bind_eq_ok.mp first
        obtain ⟨⟨⟩, none⟩ := recordMembers_again rest
        exact ⟨value, here, by simp [none]⟩
      · rw [recordMembers_skipped same] at read
        obtain ⟨_, -, rest⟩ := bind_eq_ok.mp read
        rw [List.filter_cons_of_neg (by simpa using same)]
        exact ih rest

theorem readOnly_ok {node : Node} {found : α} (read : readOnly name reader node = .ok found) :
    (∃ members ending value, node = .object members ending ∧ reader value = .ok found ∧
      members.filter (·.1 == some name) = [(some name, value)]) ∨
    ∃ value ending, node = .array [value] ending ∧ reader value = .ok found := by
  obtain ⟨_ | value, record, goes⟩ := bind_eq_ok.mp read
  · cases goes
  · cases goes
    cases node with
    | object members ending =>
      obtain ⟨_, inside, rest⟩ := bind_eq_ok.mp record
      obtain ⟨_, -, ⟨⟩⟩ := bind_eq_ok.mp rest
      obtain ⟨value, here, once⟩ := recordMembers_once inside
      exact .inl ⟨members, ending, value, rfl, here, once⟩
    | array items ending =>
      obtain _ | ⟨first, _ | ⟨second, more⟩⟩ := items
      · obtain ⟨_, -, ⟨⟩⟩ := bind_eq_ok.mp record
      · obtain ⟨_, inside, rest⟩ := bind_eq_ok.mp record
        obtain ⟨_, here, ⟨⟩⟩ := bind_eq_ok.mp inside
        obtain ⟨_, -, ⟨⟩⟩ := bind_eq_ok.mp rest
        exact .inr ⟨first, ending, rfl, here⟩
      · obtain ⟨_, -, ⟨⟩⟩ := bind_eq_ok.mp record
    | unreadable | null | bool => cases record
    | number value | string value => cases value <;> cases record

end

theorem uint32?_ok {node : Node} {n : UInt32} (read : node.expect Json.uint32? = .ok n) :
    node = .number (some (.integer n.toNat)) := by
  have formed {value : Json} (form : Json.uint32? value = some n) :
      value = .number (.integer n.toNat) := by
    obtain ⟨number, inside, rfl⟩ := Option.map_eq_some_iff.mp form
    obtain ⟨rfl, least, most⟩ := integerIn?_eq_some inside
    have small : number.toNat < 2 ^ 32 := by omega
    rw [UInt32.toNat_ofNat_of_lt' small, Int.toNat_of_nonneg least]
  cases node with
  | array | object | unreadable | null | bool => cases read
  | string text => cases text <;> cases read
  | number number =>
    cases number with
    | none => cases read
    | some number =>
      obtain ⟨_, ⟨⟩, goes⟩ := bind_eq_ok.mp read
      split at goes
      · next form =>
        cases goes
        cases formed form
        rfl
      · cases goes

theorem readText_ok {α : Type} {reader : Node → Reading α} {text : String} {found : α}
    (read : readText reader text = .ok found) : reader (Node.ofText text).1 = .ok found := by
  obtain ⟨value, here, goes⟩ := bind_eq_ok.mp read
  split at goes
  · cases goes
    exact here
  · cases goes

/-- A document is read in steps: its version, its instructions, their times. -/
theorem read_eq {text : String} (versioned : readVersion text = .ok version)
    {instructions : List Instruction} (found : readInstructions text = .ok instructions) :
    read text = accept instructions := by
  rw [read, versioned, found]
  rfl

theorem read_ok {text : String} {sequence : Sequence} (loaded : read text = .ok sequence) :
    readVersion text = .ok version ∧ ∃ instructions, readInstructions text = .ok instructions ∧
      accept instructions = .ok sequence := by
  unfold read at loaded
  cases versioned : readVersion text with
  | error fault =>
    rw [versioned] at loaded
    cases loaded
  | ok found =>
    rw [versioned] at loaded
    by_cases known : found = version
    · subst known
      cases listed : readInstructions text with
      | error fault =>
        rw [listed] at loaded
        cases loaded
      | ok instructions =>
        rw [listed] at loaded
        exact ⟨rfl, instructions, rfl, loaded⟩
    · have other : (found != version) = true := bne_iff_ne.mpr known
      change (if (found != version) = true then _ else _) = _ at loaded
      rw [if_pos other] at loaded
      cases loaded

theorem hasVersion_of_read {text : String} {sequence : Sequence}
    (loaded : read text = .ok sequence) : HasVersion text version.toNat := by
  obtain ⟨versioned, instructions, listed, -⟩ := read_ok loaded
  rcases readOnly_ok (readText_ok versioned) with
    ⟨members, ending, value, same, here, once⟩ | ⟨value, ending, same, here⟩
  · rw [uint32?_ok here] at once
    exact ⟨members, ending, same, once⟩
  -- The one item of an array is no version and list of instructions at once.
  · rcases readOnly_ok (readText_ok listed) with
      ⟨members, ending, _, other, -⟩ | ⟨again, _, other, list⟩
    · rw [same] at other
      cases other
    · rw [same] at other
      cases other
      rw [uint32?_ok here] at list
      cases list

end Document

end InputTape
