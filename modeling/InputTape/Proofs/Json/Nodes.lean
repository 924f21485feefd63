import InputTape.Json.Reading
import InputTape.Proofs.Json.Tokens

/-! Written values as trees.

The tokens of a value make the tree of the value, with no fault anywhere in it. There are steps
enough for that, since an item takes one step more than its value and so at most two for each
token. What is kept of such a tree is the value itself, and nothing in it stops what is skipped.
-/

set_option autoImplicit false

namespace InputTape.Json

/-! ## Trees of values -/

mutual

def nodeOf : Json → Node
  | .null => .null
  | .bool value => .bool value
  | .number value => .number (some value)
  | .string text => .string (some text)
  | .array items => .array (itemNodes items) none
  | .object members => .object (memberNodes members) none

def itemNodes : List Json → List Node
  | [] => []
  | item :: more => nodeOf item :: itemNodes more

def memberNodes : List (String × Json) → List (Option String × Node)
  | [] => []
  | (name, value) :: more => (some name, nodeOf value) :: memberNodes more

end

theorem tokensOf_first (value : Json) :
    ∃ first more, tokensOf value = first :: more ∧ first ≠ .closeArray := by
  cases value <;> exact ⟨_, _, by rw [tokensOf], by simp⟩

def separated (items : List (List Token)) : List Token := List.intercalate [.comma] items

theorem tokensOf_array (items : List Json) :
    tokensOf (.array items) = .openArray :: (separated (itemTokens items) ++ [.closeArray]) := by
  rw [tokensOf, separated]

theorem tokensOf_object (members : List (String × Json)) :
    tokensOf (.object members) =
      .openObject :: (separated (memberTokens members) ++ [.closeObject]) := by
  rw [tokensOf, separated]

theorem separated_singleton (item : List Token) : separated [item] = item :=
  List.intercalate_singleton

theorem separated_cons (item next : List Token) (more : List (List Token)) :
    separated (item :: next :: more) = item ++ .comma :: separated (next :: more) := by
  rw [separated, List.intercalate_cons_cons, List.append_assoc]
  rfl

theorem separated_first (item : Json) (more : List (List Token)) :
    ∃ first behind, separated (tokensOf item :: more) = first :: behind ∧ first ≠ .closeArray := by
  obtain ⟨first, further, begins, inside⟩ := tokensOf_first item
  cases more with
  | nil => exact ⟨first, further, by rw [separated_singleton, begins], inside⟩
  | cons next more => exact ⟨first, _, by rw [separated_cons, begins]; rfl, inside⟩

theorem separated_key (name : String) (value : Json) (more : List (String × Json)) :
    ∃ behind, separated (memberTokens ((name, value) :: more)) = .string (some name) :: behind := by
  cases more with
  | nil => exact ⟨_, separated_singleton _⟩
  | cons => exact ⟨_, separated_cons ..⟩

theorem ofTokens_openArray {first : Token} (inside : first ≠ .closeArray) (limit : Nat)
    (more : List Token) :
    Node.ofTokens (limit + 1) (.openArray :: first :: more) =
      (.array (Node.itemsOfTokens limit (first :: more)).1
        (Node.itemsOfTokens limit (first :: more)).2.1,
        (Node.itemsOfTokens limit (first :: more)).2.2) := by
  cases first <;> first | contradiction | rfl

theorem ofTokens_openObject (key : Option String) (limit : Nat) (more : List Token) :
    Node.ofTokens (limit + 1) (.openObject :: .string key :: more) =
      (.object (Node.membersOfTokens limit (.string key :: more)).1
        (Node.membersOfTokens limit (.string key :: more)).2.1,
        (Node.membersOfTokens limit (.string key :: more)).2.2) := rfl

mutual

theorem ofTokens_tokensOf : ∀ (value : Json) (limit : Nat) (rest : List Token),
    2 * (tokensOf value).length ≤ limit + 1 →
      Node.ofTokens limit (tokensOf value ++ rest) = (nodeOf value, rest)
  | .null, limit + 1, rest, _ => rfl
  | .bool value, limit + 1, rest, _ => rfl
  | .number value, limit + 1, rest, _ => rfl
  | .string text, limit + 1, rest, _ => rfl
  | .array [], limit + 1, rest, _ => rfl
  | .object [], limit + 1, rest, _ => rfl
  | .array (item :: more), limit + 1, rest, enough => by
    rw [tokensOf_array, List.length_cons, List.length_append, List.length_singleton] at enough
    have items := itemsOfTokens_itemTokens item more limit rest (by omega)
    obtain ⟨first, behind, shape, inside⟩ := separated_first item (itemTokens more)
    change separated (itemTokens (item :: more)) = _ at shape
    rw [tokensOf_array, List.cons_append, List.append_assoc, List.singleton_append, shape,
      List.cons_append, ofTokens_openArray inside, ← List.cons_append, ← shape, items]
    rfl
  | .object ((name, value) :: more), limit + 1, rest, enough => by
    rw [tokensOf_object, List.length_cons, List.length_append, List.length_singleton] at enough
    have members := membersOfTokens_memberTokens name value more limit rest (by omega)
    obtain ⟨behind, shape⟩ := separated_key name value more
    rw [tokensOf_object, List.cons_append, List.append_assoc, List.singleton_append, shape,
      List.cons_append, ofTokens_openObject, ← List.cons_append, ← shape, members]
    rfl
  | value, 0, rest, enough => by
    obtain ⟨first, more, begins, -⟩ := tokensOf_first value
    rw [begins, List.length_cons] at enough
    omega

theorem itemsOfTokens_itemTokens : ∀ (item : Json) (more : List Json) (limit : Nat)
    (rest : List Token), 2 * (separated (itemTokens (item :: more))).length ≤ limit →
      Node.itemsOfTokens limit (separated (itemTokens (item :: more)) ++ .closeArray :: rest) =
        (itemNodes (item :: more), none, rest)
  | item, more, 0, rest, enough => by
    obtain ⟨first, behind, shape, -⟩ := separated_first item (itemTokens more)
    rw [itemTokens, shape, List.length_cons] at enough
    omega
  | item, [], limit + 1, rest, enough => by
    simp only [itemTokens, separated_singleton] at enough ⊢
    simp only [Node.itemsOfTokens, ofTokens_tokensOf item limit _ enough]
    rfl
  | item, next :: more, limit + 1, rest, enough => by
    simp only [itemTokens, separated_cons] at enough ⊢
    simp only [List.length_append, List.length_cons] at enough
    have others := itemsOfTokens_itemTokens next more limit rest (by rw [itemTokens]; omega)
    simp only [Node.itemsOfTokens, List.append_assoc, List.cons_append,
      ofTokens_tokensOf item limit _ (by omega)]
    rw [itemTokens] at others
    rw [others]
    rfl

theorem membersOfTokens_memberTokens : ∀ (name : String) (value : Json)
    (more : List (String × Json)) (limit : Nat) (rest : List Token),
    2 * (separated (memberTokens ((name, value) :: more))).length ≤ limit →
      Node.membersOfTokens limit
          (separated (memberTokens ((name, value) :: more)) ++ .closeObject :: rest) =
        (memberNodes ((name, value) :: more), none, rest)
  | name, value, more, 0, rest, enough => by
    obtain ⟨behind, shape⟩ := separated_key name value more
    rw [shape, List.length_cons] at enough
    omega
  | name, value, [], limit + 1, rest, enough => by
    simp only [memberTokens, separated_singleton, List.length_cons] at enough ⊢
    simp only [Node.membersOfTokens, List.cons_append, ofTokens_tokensOf value limit _ (by omega)]
    rfl
  | name, value, (nextName, next) :: more, limit + 1, rest, enough => by
    simp only [memberTokens, separated_cons, List.length_append, List.length_cons] at enough ⊢
    have others := membersOfTokens_memberTokens nextName next more limit rest
      (by rw [memberTokens]; omega)
    simp only [Node.membersOfTokens, List.append_assoc, List.cons_append,
      ofTokens_tokensOf value limit _ (by omega)]
    rw [memberTokens] at others
    rw [others]
    rfl

end

/-- A text that is written has the tree of its value, and nothing else. -/
theorem ofText_text {spacing : Spacing} (blank : spacing.IsBlank) {value : Json}
    (writable : IsWritable value) : Node.ofText (text spacing value) = (nodeOf value, true) := by
  have found := ofTokens_tokensOf value (2 * (tokensOf value).length) [] (Nat.le_succ _)
  rw [List.append_nil] at found
  simp only [Node.ofText, text, String.toList_ofList, tokens_write blank writable, found]
  rfl

theorem readText_text {α : Type} (reader : Node → Reading α) {spacing : Spacing}
    (blank : spacing.IsBlank) {value : Json} (writable : IsWritable value) :
    readText reader (text spacing value) = reader (nodeOf value) := by
  simp only [readText, ofText_text blank writable, if_true, bind_pure]

/-! ## Reading the trees -/

mutual

theorem skip_nodeOf : ∀ value : Json, (nodeOf value).skip = .ok ()
  | .null | .bool _ | .number _ | .string _ => rfl
  | .array items => by
    rw [nodeOf, Node.skip, skipItems_itemNodes items]
    rfl
  | .object members => by
    rw [nodeOf, Node.skip, skipMembers_memberNodes members]
    rfl

theorem skipItems_itemNodes : ∀ items : List Json, Node.skipItems (itemNodes items) = .ok ()
  | [] => rfl
  | item :: more => by
    rw [itemNodes, Node.skipItems, skip_nodeOf item]
    exact skipItems_itemNodes more

theorem skipMembers_memberNodes :
    ∀ members : List (String × Json), Node.skipMembers (memberNodes members) = .ok ()
  | [] => rfl
  | (name, value) :: more => by
    rw [memberNodes, Node.skipMembers, skip_nodeOf value]
    exact skipMembers_memberNodes more

end

mutual

def nesting : Json → Nat
  | .array items => itemNesting items + 1
  | .object members => memberNesting members + 1
  | _ => 0

def itemNesting : List Json → Nat
  | [] => 0
  | item :: more => max (nesting item) (itemNesting more)

def memberNesting : List (String × Json) → Nat
  | [] => 0
  | (_, value) :: more => max (nesting value) (memberNesting more)

end

mutual

theorem value_nodeOf : ∀ (value : Json) (depth : Nat), nesting value ≤ depth →
    (nodeOf value).value depth = .ok value
  | .null, _, _ | .bool _, _, _ | .number _, _, _ | .string _, _, _ => rfl
  | .array items, depth, shallow => by
    rw [nesting] at shallow
    have kept := valueItems_itemNodes items (depth - 1) (by omega)
    have some : (depth == 0) = false := by simp; omega
    rw [nodeOf, Node.value, kept, some]
    rfl
  | .object members, depth, shallow => by
    rw [nesting] at shallow
    have kept := valueMembers_memberNodes members (depth - 1) (by omega)
    have some : (depth == 0) = false := by simp; omega
    rw [nodeOf, Node.value, kept, some]
    rfl

theorem valueItems_itemNodes : ∀ (items : List Json) (depth : Nat), itemNesting items ≤ depth →
    Node.valueItems depth (itemNodes items) = .ok items
  | [], _, _ => rfl
  | item :: more, depth, shallow => by
    rw [itemNesting] at shallow
    rw [itemNodes, Node.valueItems, value_nodeOf item depth (by omega), 
      valueItems_itemNodes more depth (by omega)]
    rfl

theorem valueMembers_memberNodes : ∀ (members : List (String × Json)) (depth : Nat),
    memberNesting members ≤ depth → Node.valueMembers depth (memberNodes members) = .ok members
  | [], _, _ => rfl
  | (name, value) :: more, depth, shallow => by
    rw [memberNesting] at shallow
    rw [memberNodes, Node.valueMembers, value_nodeOf value depth (by omega), 
      valueMembers_memberNodes more depth (by omega)]
    rfl

end

section

variable {Partial : Type} {names : List String}
  {field : String → Node → Partial → Reading Partial} {name : String} {value : Json}
  {more : List (String × Json)} {seen : List String} {record : Partial}

theorem recordMembers_known (known : name ∈ names) (fresh : name ∉ seen) {next : Partial}
    (read : field name (nodeOf value) record = .ok next) :
    Node.recordMembers names field (memberNodes ((name, value) :: more)) seen record =
      Node.recordMembers names field (memberNodes more) (name :: seen) next := by
  simp [memberNodes, Node.recordMembers, Node.present, bind, Except.bind, known, fresh, read]

theorem recordMembers_unknown (unknown : name ∉ names) :
    Node.recordMembers names field (memberNodes ((name, value) :: more)) seen record =
      Node.recordMembers names field (memberNodes more) seen record := by
  simp [memberNodes, Node.recordMembers, Node.present, bind, Except.bind, unknown, skip_nodeOf]

theorem record_nodeOf {members : List (String × Json)} {found : Partial}
    (read : Node.recordMembers names field (memberNodes members) [] record = .ok found) :
    (nodeOf (.object members)).record names field record = .ok found := by
  rw [nodeOf, Node.record, read]
  rfl

end

end InputTape.Json
