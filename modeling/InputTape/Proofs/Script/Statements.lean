import InputTape.Proofs.Decimal.Comparison
import InputTape.Proofs.Decimal.Conversion
import InputTape.Proofs.Expression.Numbers
import InputTape.Proofs.Script.Conditions
import InputTape.Proofs.Script.HiddenLabels
import InputTape.Proofs.Script.Names

/-! What is read as a statement.

Readers know tokens only. Of tokens that stand in a text more is known: numbers are numbers, and a
word is no keyword. With that, statements are read exactly as the grammar says.
-/

set_option autoImplicit false

namespace InputTape.Script

open LineReader

/-! ## Commands -/

section

variable {token : Token}

theorem isStatement_label (kind : token.kind = .keyword .label) {tokens : List Token}
    {statement : Statement} : IsStatement (token :: tokens) statement ↔
      ∃ name : Token, tokens = [name] ∧ name.kind.IsWordlike ∧ statement = .label name.text := by
  constructor
  · intro derives
    cases derives with
    | label _ wordlike => exact ⟨_, rfl, wordlike, rfl⟩
    | _ other => cases kind.symm.trans other
  · rintro ⟨name, rfl, wordlike, rfl⟩
    exact .label kind wordlike

theorem isStatement_goto (kind : token.kind = .keyword .goto) {tokens : List Token}
    {statement : Statement} : IsStatement (token :: tokens) statement ↔
      ∃ name : Token, tokens = [name] ∧ name.kind.IsWordlike ∧ statement = .goto name.text := by
  constructor
  · intro derives
    cases derives with
    | goto _ wordlike => exact ⟨_, rfl, wordlike, rfl⟩
    | _ other => cases kind.symm.trans other
  · rintro ⟨name, rfl, wordlike, rfl⟩
    exact .goto kind wordlike

def IsHead (block : Condition → Bool → Statement) (tokens : List Token) (statement : Statement) :
    Prop :=
  ∃ opening inner closing condition negated, tokens = opening :: inner ++ [closing] ∧
    opening.kind = .openParen ∧ IsCondition inner condition negated ∧
    closing.kind = .closeParen ∧ statement = block condition negated

theorem isStatement_ifBlock (kind : token.kind = .keyword .ifBlock) {tokens : List Token}
    {statement : Statement} :
    IsStatement (token :: tokens) statement ↔ IsHead .ifBlock tokens statement := by
  constructor
  · intro derives
    generalize same : token :: tokens = all at derives
    cases derives with
    | ifBlock _ opens isCondition closes =>
      cases same
      exact ⟨_, _, _, _, _, rfl, opens, isCondition, closes, rfl⟩
    | _ other =>
      cases same
      cases kind.symm.trans other
  · rintro ⟨opening, inner, closing, condition, negated, rfl, opens, isCondition, closes, rfl⟩
    exact .ifBlock kind opens isCondition closes

theorem isStatement_whileBlock (kind : token.kind = .keyword .whileBlock) {tokens : List Token}
    {statement : Statement} :
    IsStatement (token :: tokens) statement ↔ IsHead .whileBlock tokens statement := by
  constructor
  · intro derives
    generalize same : token :: tokens = all at derives
    cases derives with
    | whileBlock _ opens isCondition closes =>
      cases same
      exact ⟨_, _, _, _, _, rfl, opens, isCondition, closes, rfl⟩
    | _ other =>
      cases same
      cases kind.symm.trans other
  · rintro ⟨opening, inner, closing, condition, negated, rfl, opens, isCondition, closes, rfl⟩
    exact .whileBlock kind opens isCondition closes

theorem reads_bare {bare : Statement} (derives : IsStatement [token] bare)
    (only : ∀ {tokens statement}, IsStatement (token :: tokens) statement →
      tokens = [] ∧ statement = bare) :
    Reads (pure bare) fun tokens statement => IsStatement (token :: tokens) statement :=
  (reads_pure bare).congr fun tokens statement => by
    constructor
    · rintro ⟨rfl, rfl⟩
      exact derives
    · exact only

theorem reads_mouse (kind : token.kind = .keyword .mouse) :
    Reads (Statement.read token .mouse) fun tokens statement =>
      IsStatement (token :: tokens) statement := by
  refine ((reads_parameters "Mouse").andThen fun found =>
    reads_lift (Statement.ofMouse found)).congr fun tokens statement => ?_
  constructor
  · rintro ⟨_, front, _, rfl, isList, rfl, made⟩
    rw [List.append_nil]
    rcases ofMouse_eq_ok.mp made with ⟨_, _, _, _, _, _, rfl, acts, isX, isY, rfl⟩ |
      ⟨_, _, _, _, _, _, _, rfl, acts, isX, isY, isAmount, rfl⟩
    · exact .mouse kind isList acts isX isY
    · exact .wheel kind isList acts isX isY isAmount
  · intro derives
    cases derives with
    | mouse _ isList acts isX isY =>
      exact ⟨_, tokens, [], (List.append_nil _).symm, isList, rfl,
        ofMouse_eq_ok.mpr (.inl ⟨_, _, _, _, _, _, rfl, acts, isX, isY, rfl⟩)⟩
    | wheel _ isList acts isX isY isAmount =>
      exact ⟨_, tokens, [], (List.append_nil _).symm, isList, rfl,
        ofMouse_eq_ok.mpr (.inr ⟨_, _, _, _, _, _, _, rfl, acts, isX, isY, isAmount, rfl⟩)⟩
    | _ other => cases kind.symm.trans other

theorem reads_key (kind : token.kind = .keyword .key) :
    Reads (Statement.read token .key) fun tokens statement =>
      IsStatement (token :: tokens) statement := by
  refine ((reads_parameters "Key").andThen fun found =>
    reads_lift (Statement.ofKey found)).congr fun tokens statement => ?_
  constructor
  · rintro ⟨_, front, _, rfl, isList, rfl, made⟩
    rw [List.append_nil]
    obtain ⟨_, _, _, _, rfl, acts, isKey, rfl⟩ := ofKey_eq_ok.mp made
    exact .key kind isList acts isKey
  · intro derives
    cases derives with
    | key _ isList acts isKey =>
      exact ⟨_, tokens, [], (List.append_nil _).symm, isList, rfl,
        ofKey_eq_ok.mpr ⟨_, _, _, _, rfl, acts, isKey, rfl⟩⟩
    | _ other => cases kind.symm.trans other

theorem reads_script (kind : token.kind = .keyword .script) :
    Reads (Statement.read token .script) fun tokens statement =>
      IsStatement (token :: tokens) statement := by
  refine ((reads_parameters "Script").andThen fun found =>
    reads_lift (Statement.ofScript found)).congr fun tokens statement => ?_
  constructor
  · rintro ⟨_, front, _, rfl, isList, rfl, made⟩
    rw [List.append_nil]
    obtain ⟨_, rfl, nonempty, rfl⟩ := ofScript_eq_ok.mp made
    exact .script kind isList nonempty
  · intro derives
    cases derives with
    | script _ isList nonempty =>
      exact ⟨_, tokens, [], (List.append_nil _).symm, isList, rfl,
        ofScript_eq_ok.mpr ⟨_, rfl, nonempty, rfl⟩⟩
    | _ other => cases kind.symm.trans other

theorem reads_delay :
    Reads (Statement.read token .delay) fun tokens statement => ∃ milliseconds,
      InParentheses tokens [.number milliseconds] ∧ ¬ milliseconds < 0 ∧
        ¬ longestDelay < milliseconds ∧ statement = .delay milliseconds := by
  refine ((reads_parameters "Delay").andThen fun found =>
    reads_lift (Statement.ofDelay found)).congr fun tokens statement => ?_
  constructor
  · rintro ⟨_, front, _, rfl, isList, rfl, made⟩
    rw [List.append_nil]
    obtain ⟨_, rfl, low, high, rfl⟩ := ofDelay_eq_ok.mp made
    exact ⟨_, isList, low, high, rfl⟩
  · rintro ⟨milliseconds, isList, low, high, rfl⟩
    exact ⟨_, tokens, [], (List.append_nil _).symm, isList, rfl,
      ofDelay_eq_ok.mpr ⟨_, rfl, low, high, rfl⟩⟩

theorem reads_block {block : Condition → Bool → Statement}
    (blocks : ∀ {tokens statement}, IsStatement (token :: tokens) statement ↔
      IsHead block tokens statement) :
    Reads (do
        let (condition, negated) ← parenthesisedCondition
        return block condition negated) fun tokens statement =>
      IsStatement (token :: tokens) statement := by
  refine (reads_parenthesisedCondition.andThen fun read =>
    reads_pure (block read.1 read.2)).congr fun tokens statement => ?_
  rw [blocks]
  constructor
  · rintro ⟨_, _, _, rfl, ⟨opening, _, rfl, opens, ⟨isCondition, closes⟩⟩, rfl, rfl⟩
    exact ⟨opening, _, _, _, _, by simp, opens, isCondition, closes, rfl⟩
  · rintro ⟨opening, inner, closing, condition, negated, rfl, opens, isCondition, closes, rfl⟩
    exact ⟨_, _, [], (List.append_nil _).symm, ⟨opening, _, rfl, opens,
      .closed isCondition closes⟩, rfl, rfl⟩

theorem reads_labelName (command : String) :
    Reads (labelName command) fun tokens name => ∃ token, tokens = [token] ∧ token.kind = .word ∧
      isHidden token.text = false ∧ name = token.text := by
  refine Reads.behind (fun value => by simp) fun token => ?_
  have refused {problem : Problem} (not : ¬ (token.kind = .word ∧ isHidden token.text = false)) :
      Reads (throw problem : LineReader String) fun tokens name => ∃ other,
        token :: tokens = [other] ∧ other.kind = .word ∧ isHidden other.text = false ∧
          name = other.text := by
    refine (reads_throw _).congr fun tokens name => ⟨nofun, ?_⟩
    rintro ⟨_, ⟨⟩, kind, visible, -⟩
    exact not ⟨kind, visible⟩
  change Reads (if (token.kind != .word) = true then _ else if isHidden token.text = true then _
    else _) _
  split
  · next other => exact refused fun both => absurd both.1 (bne_iff_ne.mp other)
  · next kind =>
    split
    · next hidden => exact refused fun both => by simp [both.2] at hidden
    · next visible =>
      refine (reads_pure _).congr fun tokens name => ?_
      constructor
      · rintro ⟨rfl, rfl⟩
        exact ⟨token, rfl, by simpa using kind, by simpa using visible, rfl⟩
      · rintro ⟨_, ⟨⟩, -, -, rfl⟩
        exact ⟨rfl, rfl⟩

end

/-! ## Tokens of a text -/

/-- Read somewhere in a text. -/
def Token.IsGenuine (token : Token) : Prop :=
  ∃ first rest, (readFrom first rest).1 = .token token.kind token.text.toList

/-- Digits are read as a decimal, since no word begins with one. -/
theorem exists_toFloat_of_isDigit {first : Char} {rest : List Char} (digit : first.isDigit = true)
    {value : Float} (reads : Decimal.readFloat? (String.ofList (first :: rest)) = some value) :
    ∃ decimal : Decimal, value = decimal.toFloat := by
  have other (word : String) {head : Char} {tail : List Char} (begins : word.toList = head :: tail)
      (letter : head.isDigit = false) :
      (String.ofList ((first :: rest).map Char.toLower) == word) = false := by
    rw [beq_eq_false_iff_ne]
    rintro rfl
    rw [String.toList_ofList, List.map_cons, (isLower_of_isDigit digit).2.1] at begins
    cases begins
    rw [digit] at letter
    cases letter
  rw [Decimal.readFloat?, String.toList_ofList] at reads
  split at reads
  · next same =>
    cases same
    cases digit
  · next same =>
    cases same
    cases digit
  · rw [Decimal.readMagnitude?, other "inf" rfl rfl, other "infinity" rfl rfl,
      other "nan" rfl rfl] at reads
    obtain ⟨decimal, -, rfl⟩ := Option.map_eq_some_iff.mp reads
    exact ⟨decimal, rfl⟩

theorem isNaN_of_number {token : Token} (genuine : token.IsGenuine) (kind : token.kind = .number)
    {value : Float} (reads : Decimal.readFloat? token.text = some value) :
    value.isNaN = false := by
  obtain ⟨first, rest, reading⟩ := genuine
  rw [kind] at reading
  obtain ⟨digit, text⟩ := Expression.readFrom_number reading
  rw [← String.ofList_toList (s := token.text), text] at reads
  obtain ⟨decimal, rfl⟩ := exists_toFloat_of_isDigit digit reads
  exact decimal.isNaN_toFloat

theorem isNaN_of_isParameter {tokens : List Token} (genuine : ∀ token ∈ tokens, token.IsGenuine)
    {value : Float} (derives : IsParameter tokens (.number value)) : value.isNaN = false := by
  cases derives with
  | number kind reads => exact isNaN_of_number (genuine _ List.mem_cons_self) kind reads
  | @negative minus token value _ kind reads =>
    rw [isNaN_neg]
    exact isNaN_of_number (genuine token (by simp)) kind reads

theorem isNaN_of_inParentheses {tokens : List Token}
    (genuine : ∀ token ∈ tokens, token.IsGenuine) {value : Float}
    (derives : InParentheses tokens [.number value]) : value.isNaN = false := by
  cases derives with
  | some _ are =>
    cases are with
    | last derives =>
      exact isNaN_of_isParameter (fun token member => genuine token (by simp [member])) derives
    | more _ _ are => cases are

def Statement.IsAllowed : Statement → Prop
  | .label name | .goto name => Keyword.ofWord? name = none ∧ isHidden name = false
  | _ => True

theorem isWord_iff {token : Token} (genuine : token.IsGenuine) :
    token.kind = .word ↔ token.kind.IsWordlike ∧ Keyword.ofWord? token.text = none := by
  obtain ⟨first, rest, reading⟩ := genuine
  constructor
  · intro kind
    have wordlike : token.kind.IsWordlike := kind ▸ trivial
    have same := (readFrom_wordlike wordlike reading).1
    rw [kind, wordKind, String.ofList_toList] at same
    split at same
    · cases same
    · next none => exact ⟨wordlike, none⟩
  · rintro ⟨wordlike, none⟩
    rw [(readFrom_wordlike wordlike reading).1, wordKind, String.ofList_toList, none]

theorem IsStatement.isAllowed {token : Token} {tokens : List Token} {statement : Statement}
    (derives : IsStatement (token :: tokens) statement) (label : token.kind ≠ .keyword .label)
    (goto : token.kind ≠ .keyword .goto) : statement.IsAllowed := by
  cases derives <;> trivial

theorem run_labelled {token : Token} {command : String} {made : String → Statement}
    {line rest : Line} (genuine : ∀ other ∈ line.tokens, other.IsGenuine) {statement : Statement}
    (makes : ∀ {tokens statement}, IsStatement (token :: tokens) statement ↔
      ∃ name : Token, tokens = [name] ∧ name.kind.IsWordlike ∧ statement = made name.text)
    (allows : ∀ {name}, (made name).IsAllowed ↔
      Keyword.ofWord? name = none ∧ isHidden name = false) :
    (do return made (← labelName command) : LineReader Statement).run line =
        .ok (statement, rest) ↔
      ∃ front, line = ⟨front ++ rest.tokens, rest.isUnterminated⟩ ∧
        IsStatement (token :: front) statement ∧ statement.IsAllowed := by
  have reads := (reads_labelName command).andThen fun name => reads_pure (made name)
  refine (reads line statement rest).trans (exists_congr fun front => and_congr_right ?_)
  rintro rfl
  rw [makes]
  constructor
  · rintro ⟨_, _, _, rfl, ⟨name, rfl, isWord, visible, rfl⟩, rfl, rfl⟩
    obtain ⟨wordlike, unreserved⟩ := (isWord_iff (genuine name (by simp))).mp isWord
    exact ⟨⟨name, rfl, wordlike, rfl⟩, allows.mpr ⟨unreserved, visible⟩⟩
  · rintro ⟨⟨name, rfl, wordlike, rfl⟩, allowed⟩
    obtain ⟨unreserved, visible⟩ := allows.mp allowed
    have isWord := (isWord_iff (genuine name (by simp))).mpr ⟨wordlike, unreserved⟩
    exact ⟨_, [name], [], rfl, ⟨name, rfl, isWord, visible, rfl⟩, rfl, rfl⟩

theorem run_delay {token : Token} (kind : token.kind = .keyword .delay) {line rest : Line}
    (genuine : ∀ other ∈ line.tokens, other.IsGenuine) {statement : Statement} :
    (Statement.read token .delay).run line = .ok (statement, rest) ↔
      ∃ front, line = ⟨front ++ rest.tokens, rest.isUnterminated⟩ ∧
        IsStatement (token :: front) statement ∧ statement.IsAllowed := by
  rw [reads_delay]
  refine exists_congr fun front => and_congr_right ?_
  rintro rfl
  have isNumber {milliseconds : Float} (isList : InParentheses front [.number milliseconds]) :=
    isNaN_of_inParentheses (fun other member => genuine other (List.mem_append_left _ member))
      isList
  constructor
  · rintro ⟨milliseconds, isList, low, high, rfl⟩
    exact ⟨.delay kind isList (le_of_not_lt (isNumber isList) rfl low)
      (le_of_not_lt rfl (isNumber isList) high), trivial⟩
  · rintro ⟨derives, -⟩
    cases derives with
    | delay _ isList low high =>
      exact ⟨_, isList, not_lt_of_le low, not_lt_of_le high, rfl⟩
    | _ other => cases kind.symm.trans other

theorem run_read {token : Token} {keyword : Keyword} (kind : token.kind = .keyword keyword)
    {line rest : Line} (genuine : ∀ other ∈ line.tokens, other.IsGenuine)
    {statement : Statement} :
    (Statement.read token keyword).run line = .ok (statement, rest) ↔
      ∃ front, line = ⟨front ++ rest.tokens, rest.isUnterminated⟩ ∧
        IsStatement (token :: front) statement ∧ statement.IsAllowed := by
  have plain {reader : LineReader Statement} (label : keyword ≠ .label) (goto : keyword ≠ .goto)
      (reads : Reads reader fun tokens statement => IsStatement (token :: tokens) statement) :
      reader.run line = .ok (statement, rest) ↔
        ∃ front, line = ⟨front ++ rest.tokens, rest.isUnterminated⟩ ∧
          IsStatement (token :: front) statement ∧ statement.IsAllowed := by
    rw [reads]
    refine exists_congr fun front => and_congr_right fun _ =>
      ⟨fun derives => ⟨derives, derives.isAllowed ?_ ?_⟩, And.left⟩
    · rw [kind]
      exact fun same => label (TokenKind.keyword.inj same)
    · rw [kind]
      exact fun same => goto (TokenKind.keyword.inj same)
  -- Labels and gotos are checked for their names, a delay for its time; all else is as derived.
  cases keyword with
  | mouse => exact plain nofun nofun (reads_mouse kind)
  | key => exact plain nofun nofun (reads_key kind)
  | script => exact plain nofun nofun (reads_script kind)
  | delay => exact run_delay kind genuine
  | exit | elseBlock | endIf | endWhile | leave =>
    refine plain nofun nofun (reads_bare (by constructor; exact kind) fun derives => ?_)
    cases derives <;> first | exact ⟨rfl, rfl⟩ | simp_all
  | ifBlock => exact plain nofun nofun (reads_block (isStatement_ifBlock kind))
  | whileBlock => exact plain nofun nofun (reads_block (isStatement_whileBlock kind))
  | pixelColor | rgb | argb | custom =>
    refine plain nofun nofun ((reads_throw _).congr fun tokens statement => ⟨nofun, ?_⟩)
    intro derives
    cases derives <;> simp_all
  | label => exact run_labelled genuine (isStatement_label kind) Iff.rfl
  | goto => exact run_labelled genuine (isStatement_goto kind) Iff.rfl

/-! ## Lines -/

theorem IsStatement.eq_cons {tokens : List Token} {statement : Statement}
    (derives : IsStatement tokens statement) : ∃ token front keyword,
      tokens = token :: front ∧ token.kind = .keyword keyword := by
  cases derives <;> exact ⟨_, _, _, rfl, ‹_›⟩

theorem run_finish {line rest : Line} : finish.run line = .ok ((), rest) ↔
    line = ⟨[], false⟩ ∧ rest = ⟨[], false⟩ := by
  obtain ⟨_ | ⟨token, more⟩, _ | _⟩ := line
  · constructor
    · rintro ⟨⟩
      exact ⟨rfl, rfl⟩
    · rintro ⟨-, rfl⟩
      rfl
  all_goals exact ⟨nofun, nofun⟩

theorem run_statement? {token : Token} {more : List Token} {isUnterminated : Bool}
    {keyword : Keyword} (kind : token.kind = .keyword keyword) :
    statement?.run ⟨token :: more, isUnterminated⟩ =
      (do return some (← Statement.read token keyword) : LineReader (Option Statement)).run
        ⟨more, isUnterminated⟩ := by
  obtain ⟨_, text, line, column⟩ := token
  cases kind
  rfl

theorem run_statement?_none {line rest : Line} :
    statement?.run line = .ok (none, rest) ↔ line = ⟨[], false⟩ ∧ rest = ⟨[], false⟩ := by
  obtain ⟨_ | ⟨⟨kind, text, number, column⟩, more⟩, isUnterminated⟩ := line
  · cases isUnterminated with
    | true => exact ⟨nofun, nofun⟩
    | false =>
      constructor
      · rintro ⟨⟩
        exact ⟨rfl, rfl⟩
      · rintro ⟨-, rfl⟩
        rfl
  · refine ⟨fun ran => ?_, nofun⟩
    cases kind with
    | keyword keyword =>
      rw [run_statement? rfl] at ran
      obtain ⟨_, _, -, ⟨⟩⟩ := run_bind_eq_ok.mp ran
    | _ => cases ran

/-- A line is a statement, and nothing else stands on it. -/
theorem run_statement?_some {line : Line} (genuine : ∀ token ∈ line.tokens, token.IsGenuine)
    {statement : Statement} :
    (∃ rest, statement?.run line = .ok (some statement, rest) ∧
      finish.run rest = .ok ((), ⟨[], false⟩)) ↔
      line.isUnterminated = false ∧ IsStatement line.tokens statement ∧ statement.IsAllowed := by
  obtain ⟨tokens, isUnterminated⟩ := line
  simp only [run_finish, and_true]
  rw [exists_eq_right]
  constructor
  · intro ran
    obtain _ | ⟨⟨kind, text, number, column⟩, more⟩ := tokens
    · cases isUnterminated <;> cases ran
    · cases kind with
      | keyword keyword =>
        rw [run_statement? rfl] at ran
        obtain ⟨read, _, ran, ⟨⟩⟩ := run_bind_eq_ok.mp ran
        obtain ⟨front, same, derives, allowed⟩ := (run_read rfl
          (fun other member => genuine other (List.mem_cons_of_mem _ member))).mp ran
        cases same
        exact ⟨rfl, by rwa [List.append_nil], allowed⟩
      | _ => cases ran
  · rintro ⟨rfl, derives, allowed⟩
    obtain ⟨token, front, keyword, rfl, kind⟩ := derives.eq_cons
    rw [run_statement? kind]
    exact run_bind_eq_ok.mpr ⟨statement, ⟨[], false⟩, (run_read kind
      (fun other member => genuine other (List.mem_cons_of_mem _ member))).mpr
        ⟨front, by rw [List.append_nil], derives, allowed⟩, rfl⟩

theorem IsStatement.unique {tokens : List Token} (genuine : ∀ token ∈ tokens, token.IsGenuine)
    {statement other : Statement} (derives : IsStatement tokens statement)
    (again : IsStatement tokens other) : other = statement := by
  obtain ⟨token, front, keyword, rfl, kind⟩ := derives.eq_cons
  by_cases label : keyword = .label
  · subst label
    obtain ⟨name, rfl, -, rfl⟩ := (isStatement_label kind).mp derives
    obtain ⟨_, ⟨⟩, -, rfl⟩ := (isStatement_label kind).mp again
    rfl
  by_cases goto : keyword = .goto
  · subst goto
    obtain ⟨name, rfl, -, rfl⟩ := (isStatement_goto kind).mp derives
    obtain ⟨_, ⟨⟩, -, rfl⟩ := (isStatement_goto kind).mp again
    rfl
  have allowed {statement : Statement} (derives : IsStatement (token :: front) statement) :=
    derives.isAllowed (fun same => label (TokenKind.keyword.inj (kind.symm.trans same)))
      fun same => goto (TokenKind.keyword.inj (kind.symm.trans same))
  have reads {statement : Statement} (derives : IsStatement (token :: front) statement) :
      statement?.run ⟨token :: front, false⟩ = .ok (some statement, ⟨[], false⟩) := by
    obtain ⟨rest, ran, ends⟩ := (@run_statement?_some ⟨token :: front, false⟩ genuine _).mpr
      ⟨rfl, derives, allowed derives⟩
    rw [(run_finish.mp ends).1] at ran
    exact ran
  cases (reads derives).symm.trans (reads again)
  rfl

end InputTape.Script
