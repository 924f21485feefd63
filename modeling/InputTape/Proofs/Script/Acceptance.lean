import InputTape.Proofs.Script.Growth
import InputTape.Proofs.Script.Landing
import InputTape.Proofs.Script.Nesting
import InputTape.Proofs.Script.Statements

/-! Which scripts are compiled.

Lines are read one by one, and a statement is added to the draft as soon as it is read. That comes to
the same as reading all lines and looking at the statements as a whole: whether they are nested, and
whether labels and jumps fit.
-/

set_option autoImplicit false

namespace InputTape.Script

/-! ## Lines -/

theorem isGenuine_of_mem_lines {text : String} {line : Line} (member : line ∈ lines text) :
    ∀ token ∈ line.tokens, token.IsGenuine := fun _ inside =>
  read_of_mem_items (mem_items_of_mem_lines member inside)

theorem isUnterminated_addItem {item : Item} {found : List Line} :
    (∃ line ∈ addItem item found, line.isUnterminated = true) ↔
      (∃ number, .unterminated number = item) ∨ ∃ line ∈ found, line.isUnterminated = true := by
  have cons (first : Line) (more : List Line) :
      (∃ line ∈ addItem item (first :: more), line.isUnterminated = true) ↔
        (∃ number, .unterminated number = item) ∨
          ∃ line ∈ first :: more, line.isUnterminated = true := by
    simp only [addItem]
    split
    · simp
    · split
      · simp [Line.empty]
      · split <;> simp
  cases found with
  | nil =>
    -- Without a line there is an empty one to add to.
    change (∃ line ∈ addItem item [Line.empty], line.isUnterminated = true) ↔ _
    rw [cons]
    simp [Line.empty]
  | cons first more => exact cons first more

/-- A string that is not closed stays with its line. -/
theorem exists_isUnterminated {text : String} :
    (∃ line ∈ lines text, line.isUnterminated = true) ↔
      ∃ number, .unterminated number ∈ items text := by
  unfold lines
  generalize items text = found
  induction found with
  | nil => simp [Line.empty]
  | cons item more ih =>
    rw [List.foldr_cons, isUnterminated_addItem, ih]
    simp only [List.mem_cons, exists_or, eq_comm]

theorem addLine_eq_ok {draft longer : Draft} {number : Nat} {line : Line}
    (genuine : ∀ token ∈ line.tokens, token.IsGenuine) :
    draft.addLine number line = .ok longer ↔ line.isUnterminated = false ∧
      (line.tokens = [] ∧ longer = draft ∨ ∃ statement, IsStatement line.tokens statement ∧
        statement.IsAllowed ∧ draft.add number statement = .ok longer) := by
  have mapped {result : Except Problem Draft} :
      result.mapError (CompileError.mk · number) = .ok longer ↔ result = .ok longer := by
    cases result <;> simp [Except.mapError]
  unfold Draft.addLine
  rw [mapped]
  simp only [bind_eq_ok]
  constructor
  -- The statement is added before the rest of its line is found to be empty.
  · rintro ⟨⟨_ | statement, rest⟩, read, goes⟩
    · obtain ⟨rfl, -⟩ := run_statement?_none.mp read
      cases goes
      exact ⟨rfl, .inl ⟨rfl, rfl⟩⟩
    · obtain ⟨grown, added, goes⟩ := bind_eq_ok.mp goes
      cases ends : LineReader.finish.run rest with
      | error problem =>
        simp only [ends] at goes
        cases goes
      | ok finished =>
        simp only [ends] at goes
        cases goes
        obtain ⟨⟨⟩, last⟩ := finished
        obtain ⟨rfl, rfl⟩ := run_finish.mp ends
        obtain ⟨terminated, derives, allowed⟩ := (run_statement?_some genuine).mp ⟨_, read, ends⟩
        exact ⟨terminated, .inr ⟨statement, derives, allowed, added⟩⟩
  · rintro ⟨terminated, ⟨blank, rfl⟩ | ⟨statement, derives, allowed, added⟩⟩
    · obtain ⟨_, _⟩ := line
      cases terminated
      cases blank
      exact ⟨_, run_statement?_none.mpr ⟨rfl, rfl⟩, rfl⟩
    · obtain ⟨rest, read, ends⟩ :=
        (run_statement?_some genuine).mpr ⟨terminated, derives, allowed⟩
      refine ⟨_, read, bind_eq_ok.mpr ⟨_, added, ?_⟩⟩
      rw [ends]
      rfl

/-- Statements stand on the lines that are not blank, one on each. -/
def Stand (found : List Line) (statements : List Statement) : Prop :=
  List.Forall₂ (fun line statement => IsStatement line.tokens statement ∧ statement.IsAllowed)
    (found.filter (!·.tokens.isEmpty)) statements

theorem addLines_ok {found : List Line} (genuine : ∀ line ∈ found, ∀ token ∈ line.tokens,
    token.IsGenuine) {draft longer : Draft} {number : Nat}
    (added : draft.addLines number found = .ok longer) :
    (∀ line ∈ found, line.isUnterminated = false) ∧
      ∃ numbered, Stand found (numbered.map Prod.snd) ∧ draft.addAll numbered = .ok longer := by
  induction found generalizing draft number with
  | nil =>
    cases added
    exact ⟨nofun, [], .nil, rfl⟩
  | cons line more ih =>
    obtain ⟨between, first, rest⟩ := bind_eq_ok.mp added
    obtain ⟨others, numbered, stand, all⟩ :=
      ih (fun line member => genuine line (List.mem_cons_of_mem _ member)) rest
    obtain ⟨terminated, ⟨blank, rfl⟩ | ⟨statement, derives, allowed, grown⟩⟩ :=
      (addLine_eq_ok (genuine line List.mem_cons_self)).mp first
    · refine ⟨List.forall_mem_cons.mpr ⟨terminated, others⟩, numbered, ?_, all⟩
      rwa [Stand, List.filter_cons_of_neg (by simp [blank])]
    · refine ⟨List.forall_mem_cons.mpr ⟨terminated, others⟩, (number, statement) :: numbered, ?_,
        (Draft.addAll_cons grown).trans all⟩
      obtain ⟨token, front, _, same, -⟩ := derives.eq_cons
      rw [Stand, List.filter_cons_of_pos (by simp [same])]
      exact .cons ⟨derives, allowed⟩ stand

/-- The numbers of its lines are all that is needed to add a script. -/
theorem addLines_of_stand {found : List Line} (genuine : ∀ line ∈ found, ∀ token ∈ line.tokens,
    token.IsGenuine) (terminated : ∀ line ∈ found, line.isUnterminated = false)
    {statements : List Statement} (stand : Stand found statements) (number : Nat) :
    ∃ numbered : List (Nat × Statement), numbered.map Prod.snd = statements ∧
      ∀ {draft longer : Draft}, draft.addAll numbered = .ok longer →
        draft.addLines number found = .ok longer := by
  induction found generalizing statements number with
  | nil =>
    cases stand
    exact ⟨[], rfl, fun added => by cases added; rfl⟩
  | cons line more ih =>
    have rest {statements : List Statement} (stand : Stand more statements) :=
      ih (fun line member => genuine line (List.mem_cons_of_mem _ member))
        (fun line member => terminated line (List.mem_cons_of_mem _ member)) stand (number + 1)
    have goesOn {draft between : Draft} := @addLine_eq_ok draft between number line
      (genuine line List.mem_cons_self)
    by_cases blank : line.tokens = []
    · rw [Stand, List.filter_cons_of_neg (by simp [blank])] at stand
      obtain ⟨numbered, same, all⟩ := rest stand
      exact ⟨numbered, same, fun added => bind_eq_ok.mpr ⟨_, goesOn.mpr
        ⟨terminated line List.mem_cons_self, .inl ⟨blank, rfl⟩⟩, all added⟩⟩
    · rw [Stand, List.filter_cons_of_pos (by simp [blank])] at stand
      obtain _ | ⟨⟨derives, allowed⟩, stand⟩ := stand
      obtain ⟨numbered, same, all⟩ := rest stand
      refine ⟨(number, _) :: numbered, congrArg (List.cons _) same, fun added => ?_⟩
      obtain ⟨between, first, later⟩ := bind_eq_ok.mp added
      exact bind_eq_ok.mpr ⟨between, goesOn.mpr
        ⟨terminated line List.mem_cons_self, .inr ⟨_, derives, allowed, first⟩⟩, all later⟩

/-! ## Whole scripts -/

theorem exists_resolve {draft : Draft}
    (lands : ∀ jump ∈ draft.jumps, draft.Has (Text.lower jump.target)) :
    ∃ instructions, draft.resolve = .ok instructions := by
  unfold Draft.resolve
  generalize draft.instructions = first
  generalize draft.jumps = jumps at lands ⊢
  induction jumps generalizing first with
  | nil => exact ⟨first, rfl⟩
  | cons jump more ih =>
    obtain ⟨here, later⟩ := List.forall_mem_cons.mp lands
    obtain ⟨index, member⟩ := here
    have looked : (draft.find? jump.target).isSome = true :=
      List.lookup_isSome_iff.mpr ⟨_, member, beq_self_eq_true _⟩
    obtain ⟨index, looked⟩ := Option.isSome_iff_exists.mp looked
    obtain ⟨instructions, resolved⟩ := ih (first.modify jump.instruction (Draft.aim index)) later
    refine ⟨instructions, ?_⟩
    rw [List.foldlM_cons, looked]
    exact resolved

theorem compiles {text : String} (terminated : ∀ line ∈ lines text, line.isUnterminated = false)
    {statements : List Statement} (stand : Stand (lines text) statements)
    (nested : Nested false statements) (labels : LabelsAllowed statements)
    (jumps : JumpsLand statements) : ∃ sequence, compile text = .ok sequence := by
  obtain ⟨numbered, same, all⟩ :=
    addLines_of_stand (fun _ => isGenuine_of_mem_lines) terminated stand 1
  have room : Draft.Room statements .empty :=
    { visible name member := isHidden_eq_false.mpr (labels.visible name member)
      distinct := labels.distinct
      fresh _ _ := nofun
      ahead _ _ _ := nofun }
  obtain ⟨longer, completes⟩ := Draft.exists_completes nested same room nofun
  have lands : ∀ jump ∈ longer.jumps, longer.Has (Text.lower jump.target) := by
    intro jump member
    rcases completes.grows.jumps jump member with none | goes | there | ⟨_, none, -⟩
    · cases none
    · rw [same] at goes
      obtain ⟨label, defined, lower⟩ := jumps _ goes
      rw [← lower]
      exact completes.grows.named label (same ▸ defined)
    · exact there
    · cases none
  obtain ⟨instructions, resolved⟩ := exists_resolve lands
  refine ⟨⟨instructions⟩, bind_eq_ok.mpr ⟨longer, all completes.added, ?_⟩⟩
  unfold Draft.finish
  rw [completes.blocks]
  exact bind_eq_ok.mpr ⟨instructions, resolved, rfl⟩

theorem Stand.isAllowed {found : List Line} {statements : List Statement}
    (stand : Stand found statements) : ∀ statement ∈ statements, statement.IsAllowed := by
  unfold Stand at stand
  generalize found.filter (!·.tokens.isEmpty) = busy at stand
  induction stand with
  | nil => exact nofun
  | cons here _ ih => exact List.forall_mem_cons.mpr ⟨here.2, ih⟩

theorem Stand.filterMap {found : List Line} (genuine : ∀ line ∈ found, ∀ token ∈ line.tokens,
    token.IsGenuine) (terminated : ∀ line ∈ found, line.isUnterminated = false)
    {statements : List Statement} (stand : Stand found statements) :
    found.filterMap Line.statement? = statements := by
  induction found generalizing statements with
  | nil =>
    cases stand
    rfl
  | cons line more ih =>
    have rest {statements : List Statement} (stand : Stand more statements) :=
      ih (fun line member => genuine line (List.mem_cons_of_mem _ member))
        (fun line member => terminated line (List.mem_cons_of_mem _ member)) stand
    have closed := terminated line List.mem_cons_self
    -- Blank lines stand for no statement.
    by_cases blank : line.tokens = []
    · rw [Stand, List.filter_cons_of_neg (by simp [blank])] at stand
      have nothing : line.statement? = none := by
        obtain ⟨_, _⟩ := line
        cases blank
        cases closed
        rfl
      rw [List.filterMap_cons_none nothing, rest stand]
    · rw [Stand, List.filter_cons_of_pos (by simp [blank])] at stand
      cases stand with
      | @cons _ statement _ _ here stand =>
        obtain ⟨last, read, -⟩ := (run_statement?_some (genuine line List.mem_cons_self)).mpr
          ⟨closed, here⟩
        have something : line.statement? = some statement := by
          unfold Line.statement?
          rw [read]
        rw [List.filterMap_cons_some something, rest stand]

/-! ## What is laid out -/

def Operation.label? : Operation → Option String
  | .label name => some name
  | _ => none

theorem labelNames_sublist {statements : List Statement} {before after : Nesting}
    {operations : List Operation} (layout : Layout statements before operations after) :
    (labelNames statements).Sublist (operations.filterMap Operation.label?) := by
  induction layout with
  | nil => exact .refl []
  | @cons statement _ _ _ _ _ _ lays _ ih =>
    rw [List.filterMap_append]
    refine (labelNames_append [statement] _).symm ▸ List.Sublist.append ?_ ih
    cases lays with
    | action acts =>
      have unnamed : labelNames [statement] = [] := by
        cases statement <;> first | rfl | cases acts
      rw [unnamed]
      exact List.nil_sublist _
    | label => exact .refl _
    | _ => exact List.nil_sublist _

theorem jump_of_goto {statements : List Statement} {before after : Nesting}
    {operations : List Operation} (layout : Layout statements before operations after)
    {name : String} (member : .goto name ∈ statements) :
    Operation.jump (some name) none ∈ operations := by
  induction layout with
  | nil => cases member
  | cons lays _ ih =>
    rw [List.mem_append]
    rcases List.mem_cons.mp member with rfl | later
    · cases lays with
      | action acts => cases acts
      | goto => exact .inl List.mem_cons_self
    · exact .inr (ih later)

theorem LaidOut.labelsAllowed {statements : List Statement} {operations : List Operation}
    (laid : LaidOut statements operations)
    (allowed : ∀ statement ∈ statements, statement.IsAllowed) : LabelsAllowed statements where
  unreserved _ member := Keyword.ofWord?_eq_none.mp (allowed _ (mem_labelNames.mp member)).1
  visible _ member := isHidden_eq_false.mp (allowed _ (mem_labelNames.mp member)).2
  distinct := by
    obtain ⟨next, layout⟩ := laid.layout
    refine ((labelNames_sublist layout).map _).nodup ?_
    rw [List.Nodup, List.pairwise_map, List.pairwise_filterMap, List.pairwise_iff_getElem]
    intro first second inside within order name marks other labels same
    have at' {index : Nat} (inside : index < operations.length) {name : String}
        (marks : Operation.label? operations[index] = some name) :
        operations[index]? = some (.label name) := by
      rw [List.getElem?_eq_getElem inside]
      cases found : operations[index] with
      | label => 
        rw [found] at marks
        cases marks
        rfl
      | _ =>
        rw [found] at marks
        cases marks
    exact absurd (laid.distinct (at' inside marks) (at' within labels) same) (Nat.ne_of_lt order)

theorem LaidOut.jumpsLand {statements : List Statement} {operations : List Operation}
    (laid : LaidOut statements operations)
    (allowed : ∀ statement ∈ statements, statement.IsAllowed) : JumpsLand statements := by
  intro name member
  obtain ⟨next, layout⟩ := laid.layout
  obtain ⟨_, index, other, ⟨⟩, marks, lower⟩ := laid.found (jump_of_goto layout member)
  rcases label_of_mem_layout layout (List.mem_of_getElem? marks) with ⟨landmark, block, rfl⟩ |
    written
  · exact absurd lower.symm (lower_ne_hiddenLabel (allowed _ member).2 landmark block)
  · exact ⟨other, mem_labelNames.mpr written, lower⟩

/-! ## What is accepted -/

theorem ofWord?_congr {first second : String} (left : Text.IsWord first) (right : Text.IsWord second)
    (same : Text.lower first = Text.lower second) :
    Keyword.ofWord? first = Keyword.ofWord? second := by
  rw [Text.lower_of_isWord left, Text.lower_of_isWord right] at same
  unfold Keyword.ofWord?
  rw [same]

theorem IsStatement.isWord {tokens : List Token} (genuine : ∀ token ∈ tokens, token.IsGenuine)
    {statement : Statement} (derives : IsStatement tokens statement) {name : String}
    (named : statement = .label name ∨ statement = .goto name) : Text.IsWord name := by
  have word {token : Token} (member : token ∈ tokens) (wordlike : token.kind.IsWordlike) :
      Text.IsWord token.text := by
    obtain ⟨first, rest, reading⟩ := genuine token member
    exact (readFrom_wordlike wordlike reading).2
  cases derives with
  | label _ wordlike =>
    obtain ⟨⟨⟩⟩ | ⟨⟨⟩⟩ := named
    exact word (by simp) wordlike
  | goto _ wordlike =>
    obtain ⟨⟨⟩⟩ | ⟨⟨⟩⟩ := named
    exact word (by simp) wordlike
  | _ => simp at named

theorem exists_of_mem_right {α β : Type} {related : α → β → Prop} {left : List α} {right : List β}
    (all : List.Forall₂ related left right) {second : β} (member : second ∈ right) :
    ∃ first ∈ left, related first second := by
  induction all with
  | nil => cases member
  | cons here _ ih =>
    rcases List.mem_cons.mp member with rfl | later
    · exact ⟨_, List.mem_cons_self, here⟩
    · obtain ⟨first, inside, holds⟩ := ih later
      exact ⟨first, List.mem_cons_of_mem _ inside, holds⟩

theorem IsScript.isAllowed {text : String} {statements : List Statement}
    (script : IsScript text statements) : ∀ statement ∈ statements, statement.IsAllowed := by
  have isWord {statement : Statement} (member : statement ∈ statements) {name : String}
      (named : statement = .label name ∨ statement = .goto name) : Text.IsWord name := by
    obtain ⟨line, inside, derives⟩ := exists_of_mem_right script.lines member
    exact ((derives statement).mpr rfl).isWord
      (isGenuine_of_mem_lines (List.mem_filter.mp inside).1) named
  have labelled {name : String} (member : name ∈ labelNames statements) :
      Keyword.ofWord? name = none ∧ isHidden name = false :=
    ⟨Keyword.ofWord?_eq_none.mpr (script.labels.unreserved name member),
      isHidden_eq_false.mpr (script.labels.visible name member)⟩
  intro statement member
  cases statement with
  | label name => exact labelled (mem_labelNames.mpr member)
  | goto name =>
    obtain ⟨label, defined, lower⟩ := script.jumps name member
    obtain ⟨unreserved, visible⟩ := labelled defined
    constructor
    · rw [← ofWord?_congr (isWord (mem_labelNames.mp defined) (.inl rfl)) (isWord member (.inr rfl))
        lower]
      exact unreserved
    · rwa [isHidden, ← lower]
  | _ => trivial

theorem IsScript.stand {text : String} {statements : List Statement}
    (script : IsScript text statements) : Stand (Script.lines text) statements := by
  obtain ⟨length, derives⟩ := List.forall₂_iff_zip.mp script.lines
  exact List.forall₂_iff_zip.mpr ⟨length, fun pair =>
    ⟨(derives pair _).mpr rfl, script.isAllowed _ (List.of_mem_zip pair).2⟩⟩

theorem Stand.lines {text : String} {statements : List Statement}
    (stand : Stand (lines text) statements) :
    List.Forall₂ (fun line statement => ∀ other, IsStatement line.tokens other ↔
      other = statement) ((Script.lines text).filter (!·.tokens.isEmpty)) statements := by
  obtain ⟨length, stands⟩ := List.forall₂_iff_zip.mp stand
  refine List.forall₂_iff_zip.mpr ⟨length, fun pair other => ⟨fun derives => ?_, ?_⟩⟩
  · have inside := (List.mem_filter.mp (List.of_mem_zip pair).1).1
    exact (stands pair).1.unique (isGenuine_of_mem_lines inside) derives
  · rintro rfl
    exact (stands pair).1

theorem isUnterminated_eq_false {text : String} :
    (∀ line ∈ lines text, line.isUnterminated = false) ↔
      ∀ number, .unterminated number ∉ items text := by
  rw [← not_exists, ← exists_isUnterminated]
  simp

/-- A text is compiled exactly if it is a script. -/
theorem compile_accepts (text : String) :
    (∃ sequence, compile text = .ok sequence) ↔ ∃ statements, IsScript text statements := by
  constructor
  · rintro ⟨sequence, compiled⟩
    obtain ⟨draft, added, -⟩ := bind_eq_ok.mp compiled
    obtain ⟨terminated, numbered, stand, -⟩ := addLines_ok (fun _ => isGenuine_of_mem_lines) added
    obtain ⟨operations, laid, -⟩ := compile_ok compiled
    have same := stand.filterMap (fun _ => isGenuine_of_mem_lines) terminated
    rw [statements, same] at laid
    obtain ⟨next, layout⟩ := laid.layout
    exact ⟨_, isUnterminated_eq_false.mp terminated, stand.lines, layout.nested,
      laid.labelsAllowed stand.isAllowed, laid.jumpsLand stand.isAllowed⟩
  · rintro ⟨statements, script⟩
    exact compiles (isUnterminated_eq_false.mpr script.closed) script.stand script.nested
      script.labels script.jumps

/-- The numbers stand at the ends of their ranges, and the goto is in another letter case. -/
def edgeText : String :=
  "label Start\nDelay(86400000)\nMouse(Wheel, -2147483648, 2147483647, -120)\nKey(Down, 65535)\n" ++
    "if (PixelColor(0, 1) != RGB(0, 255, 7, 9))\ngoto START\nendif"

def edgeStatements : List Statement :=
  [.label "Start", .delay 86400000, .mouse .wheel (-2147483648) 2147483647 (-120),
    .key .down ⟨65535⟩, .ifBlock (.pixel 0 1 (.opaqueRgb 0 255 7) 9) true, .goto "START", .endIf]

/-- Each is beyond what a script may be in one place. -/
def refusedTexts : List String :=
  ["Delay(86400001)", "Mouse(Wheel, 2147483648, 0, 0)", "Mouse(Move, 0.5, 0)",
    "Mouse(Move, 0, 0, 1)", "Key(Down, 65536)", "Script()", "label __DSL_a", "label a\nlabel A",
    "if (PixelColor(0, 0) == RGB(256, 0, 0))\nendif", "goto nowhere", "break", "`"]

theorem lines_edgeText : lines edgeText =
    [⟨[⟨.keyword .label, "label", 1, 1⟩, ⟨.word, "Start", 1, 7⟩], false⟩,
      ⟨[⟨.keyword .delay, "Delay", 2, 1⟩, ⟨.openParen, "(", 2, 6⟩, ⟨.number, "86400000", 2, 7⟩,
        ⟨.closeParen, ")", 2, 15⟩], false⟩,
      ⟨[⟨.keyword .mouse, "Mouse", 3, 1⟩, ⟨.openParen, "(", 3, 6⟩, ⟨.word, "Wheel", 3, 7⟩,
        ⟨.comma, ",", 3, 12⟩, ⟨.operator .minus, "-", 3, 14⟩, ⟨.number, "2147483648", 3, 15⟩,
        ⟨.comma, ",", 3, 25⟩, ⟨.number, "2147483647", 3, 27⟩, ⟨.comma, ",", 3, 37⟩,
        ⟨.operator .minus, "-", 3, 39⟩, ⟨.number, "120", 3, 40⟩, ⟨.closeParen, ")", 3, 43⟩], false⟩,
      ⟨[⟨.keyword .key, "Key", 4, 1⟩, ⟨.openParen, "(", 4, 4⟩, ⟨.word, "Down", 4, 5⟩,
        ⟨.comma, ",", 4, 9⟩, ⟨.number, "65535", 4, 11⟩, ⟨.closeParen, ")", 4, 16⟩], false⟩,
      ⟨[⟨.keyword .ifBlock, "if", 5, 1⟩, ⟨.openParen, "(", 5, 4⟩,
        ⟨.keyword .pixelColor, "PixelColor", 5, 5⟩, ⟨.openParen, "(", 5, 15⟩,
        ⟨.number, "0", 5, 16⟩, ⟨.comma, ",", 5, 17⟩, ⟨.number, "1", 5, 19⟩,
        ⟨.closeParen, ")", 5, 20⟩, ⟨.operator .notEqual, "!=", 5, 22⟩,
        ⟨.keyword .rgb, "RGB", 5, 25⟩, ⟨.openParen, "(", 5, 28⟩, ⟨.number, "0", 5, 29⟩,
        ⟨.comma, ",", 5, 30⟩, ⟨.number, "255", 5, 32⟩, ⟨.comma, ",", 5, 35⟩,
        ⟨.number, "7", 5, 37⟩, ⟨.comma, ",", 5, 38⟩, ⟨.number, "9", 5, 40⟩,
        ⟨.closeParen, ")", 5, 41⟩, ⟨.closeParen, ")", 5, 42⟩], false⟩,
      ⟨[⟨.keyword .goto, "goto", 6, 1⟩, ⟨.word, "START", 6, 6⟩], false⟩,
      ⟨[⟨.keyword .endIf, "endif", 7, 1⟩], false⟩] := by
  decide +kernel

theorem stand_edgeText : Stand (lines edgeText) edgeStatements := by
  rw [lines_edgeText]
  have named : (Statement.label "Start").IsAllowed := ⟨by decide +kernel, by decide +kernel⟩
  have aimed : (Statement.goto "START").IsAllowed := ⟨by decide +kernel, by decide +kernel⟩
  refine .cons ⟨.label rfl trivial, named⟩ (.cons ⟨?delay, trivial⟩ (.cons ⟨?mouse, trivial⟩
    (.cons ⟨?key, trivial⟩ (.cons ⟨?ifBlock, trivial⟩ (.cons ⟨.goto rfl trivial, aimed⟩
      (.cons ⟨.endIf rfl, trivial⟩ .nil))))))
  case delay =>
    exact .delay rfl (.some rfl (.last (.number rfl rfl) rfl)) (by decide +kernel)
      (by decide +kernel)
  case mouse =>
    refine @IsStatement.wheel _ _ "Wheel" (.number (-2147483648)) (.number 2147483647)
      (.number (-120)) _ _ _ rfl ?_ (by decide +kernel) ⟨_, rfl, by decide +kernel⟩
      ⟨_, rfl, by decide +kernel⟩ ⟨_, rfl, by decide +kernel⟩
    exact .some rfl (@AreParameters.more [_] _ _ _ _ (.word trivial) rfl
      (@AreParameters.more [_, _] _ _ _ _ (.negative rfl rfl rfl) rfl
        (@AreParameters.more [_] _ _ _ _ (.number rfl rfl) rfl
          (@AreParameters.last [_, _] _ _ (.negative rfl rfl rfl) rfl))))
  case key =>
    refine @IsStatement.key _ _ "Down" (.number 65535) _ _ rfl ?_ (by decide +kernel)
      (.coded ⟨_, rfl, by decide +kernel⟩)
    exact .some rfl (@AreParameters.more [_] _ _ _ _ (.word trivial) rfl
      (@AreParameters.last [_] _ _ (.number rfl rfl) rfl))
  case ifBlock =>
    -- Where the place ends and the colour begins is not found by unification.
    refine @IsStatement.ifBlock _ _ _ (_ :: [_, _, _, _, _] ++ _ :: [_, _, _, _, _, _, _, _, _, _])
      _ _ ?command ?opening ?condition ?closing
    case command => rfl
    case opening => rfl
    case closing => rfl
    refine @IsCondition.pixel _ _ _ _ (.number 0) (.number 1) _ _ _ _ true rfl ?place
      ⟨_, rfl, by decide +kernel⟩ ⟨_, rfl, by decide +kernel⟩ rfl ?color
    case place =>
      exact .some rfl (@AreParameters.more [_] _ _ _ _ (.number rfl rfl) rfl
        (@AreParameters.last [_] _ _ (.number rfl rfl) rfl))
    refine @IsColor.channels false _ _ [.number 0, .number 255, .number 7, .number 9] _ _ rfl ?_
      (.rgb ⟨_, rfl, by decide +kernel⟩ ⟨_, rfl, by decide +kernel⟩ ⟨_, rfl, by decide +kernel⟩
        (.some ⟨_, rfl, by decide +kernel⟩))
    exact .some rfl (@AreParameters.more [_] _ _ _ _ (.number rfl rfl) rfl
      (@AreParameters.more [_] _ _ _ _ (.number rfl rfl) rfl
        (@AreParameters.more [_] _ _ _ _ (.number rfl rfl) rfl
          (@AreParameters.last [_] _ _ (.number rfl rfl) rfl))))

theorem isScript_edgeText : IsScript edgeText edgeStatements where
  closed := by
    rw [← isUnterminated_eq_false, lines_edgeText]
    decide
  lines := stand_edgeText.lines
  nested := .plain trivial (.plain trivial (.plain trivial (.plain trivial
    (@Nested.conditional _ _ _ [.goto "START"] [] (.plain trivial .nil) .nil))))
  labels :=
    { unreserved := by
        intro name member keyword
        cases List.mem_singleton.mp member
        cases keyword <;> decide +kernel
      visible := by decide +kernel
      distinct := by decide +kernel }
  jumps := by
    intro name member
    have here : name = "START" := by simpa [edgeStatements] using member
    exact ⟨"Start", List.mem_singleton_self _, here ▸ by decide +kernel⟩

theorem compile_accepts_edges : IsScript edgeText edgeStatements ∧
    (∃ sequence, compile edgeText = .ok sequence) ∧
    ∀ text ∈ refusedTexts, ¬ ∃ statements, IsScript text statements := by
  have refused : ∀ text ∈ refusedTexts, (compile text).toOption.isSome = false := by
    decide +kernel
  refine ⟨isScript_edgeText, (compile_accepts edgeText).mpr ⟨_, isScript_edgeText⟩,
    fun text member accepted => ?_⟩
  obtain ⟨sequence, compiled⟩ := (compile_accepts text).mpr accepted
  have none := refused text member
  rw [compiled] at none
  cases none

end InputTape.Script
