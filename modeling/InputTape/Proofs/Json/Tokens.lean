import InputTape.Proofs.Json.Numbers

/-! Written values as tokens.

Every character of a string is escaped, if at all, on its own, so a string is read back one
character at a time, and nothing that is written is half of a surrogate pair. Around the tokens
there is nothing but blanks, and behind every value comes something that no number goes on with.
-/

set_option autoImplicit false

namespace InputTape.Json

/-! ## Strings -/

theorem join?_scalars (text : List Char) :
    StringUnit.join? (text.map .scalar) = some text := by
  induction text with
  | nil => rfl
  | cons c text ih => simp [StringUnit.join?, ih]

theorem hexNumber?_leftpad : ∀ n : Fin 32,
    ((Nat.toDigits 16 n.val).leftpad 4 '0').length = 4 ∧
      Text.hexNumber? ((Nat.toDigits 16 n.val).leftpad 4 '0') = some n.val := by
  decide

theorem scanString_control {c : Char} (control : c.toNat < 0x20) (rest : List Char) :
    scanString ('\\' :: 'u' :: (Nat.toDigits 16 c.toNat).leftpad 4 '0' ++ rest) =
      (scanString rest).cons (.scalar c) 6 := by
  obtain ⟨length, value⟩ := hexNumber?_leftpad ⟨c.toNat, control⟩
  obtain ⟨first, second, third, fourth, digits⟩ : ∃ first second third fourth,
      (Nat.toDigits 16 c.toNat).leftpad 4 '0' = [first, second, third, fourth] := by
    match (Nat.toDigits 16 c.toNat).leftpad 4 '0', length with
    | [first, second, third, fourth], _ => exact ⟨first, second, third, fourth, rfl⟩
  simp only [digits] at value ⊢
  have low : StringUnit.ofCode c.toNat = .scalar c := by
    rw [StringUnit.ofCode, if_neg (by simp; omega), if_neg (by simp; omega), Char.ofNat_toNat]
  simp [scanString, value, low]

theorem scanString_escape (c : Char) (rest : List Char) :
    scanString (escape c ++ rest) = (scanString rest).cons (.scalar c) (escape c).length := by
  unfold escape
  split
  case h_8 quote backslash _ _ _ _ _ =>
    split
    · next control =>
      have digits := (hexNumber?_leftpad ⟨c.toNat, control⟩).1
      rw [scanString_control control]
      simp only [List.length_cons, digits]
    · next visible =>
      rw [List.singleton_append, scanString.eq_def]
      split
      case h_6 same =>
        cases same
        rw [if_neg visible]
        rfl
      all_goals
        next same =>
        cases same <;> first | exact (quote rfl).elim | exact (backslash rfl).elim
  all_goals simp [scanString, escaped?]

theorem scanString_text (text rest : List Char) :
    scanString (text.flatMap escape ++ '"' :: rest) =
      ⟨text.map .scalar, none, (text.flatMap escape).length + 1⟩ := by
  induction text with
  | nil => simp [scanString]
  | cons c text ih =>
    rw [List.flatMap_cons, List.append_assoc, scanString_escape, ih, List.length_append,
      Nat.add_assoc]
    rfl

theorem reads_string (text : String) (rest : List Char) :
    Reads (writeString text) (.string (some text)) rest := by
  refine ⟨'"', _, rfl, rfl, ?_⟩
  change readString (text.toList.flatMap escape ++ ['"'] ++ rest) = _
  rw [List.append_assoc]
  simp [readString, scanString_text, join?_scalars]

/-! ## Texts and their tokens -/

/-- The text is cut into these tokens, whatever comes behind it that ends a number. -/
def LexesTo (text : List Char) (found : List Token) : Prop :=
  ∀ rest, Stops rest → tokens (text ++ rest) = found ++ tokens rest

theorem lexesTo_of_reads {text : List Char} {token : Token} (whole : token.isBroken = false)
    (reads : ∀ rest, Stops rest → Reads text token rest) : LexesTo text [token] := by
  intro rest stops
  obtain ⟨first, more, rfl, visible, read⟩ := reads rest stops
  rw [List.cons_append, tokens, if_neg (by simp [visible]), read]
  simp [whole]

theorem lexesTo_nil : LexesTo [] [] := fun _ _ => rfl

variable {text further : List Char} {found others : List Token}

theorem LexesTo.append (left : LexesTo text found) (right : LexesTo further others)
    (stops : Stops further) : LexesTo (text ++ further) (found ++ others) := by
  intro rest behind
  have inside : Stops (further ++ rest) := by
    cases further with
    | nil => exact behind
    | cons => exact stops
  rw [List.append_assoc, left _ inside, right _ behind, List.append_assoc]

theorem LexesTo.blanks (lexes : LexesTo text found) {blanks : List Char}
    (all : ∀ c ∈ blanks, isBlank c = true) : LexesTo (blanks ++ text) found := by
  induction blanks with
  | nil => exact lexes
  | cons c blanks ih =>
    intro rest behind
    rw [List.cons_append, List.cons_append, tokens, if_pos (all c List.mem_cons_self)]
    exact ih (fun d member => all d (List.mem_cons_of_mem c member)) rest behind

structure IsMark (c : Char) (token : Token) : Prop where
  visible : isBlank c = false
  read : ∀ rest, readToken c rest = (token, 0)
  whole : token.isBroken = false

theorem LexesTo.mark (lexes : LexesTo text found) {c : Char} {token : Token}
    (mark : IsMark c token) : LexesTo (c :: text) (token :: found) := by
  intro rest behind
  rw [List.cons_append, tokens, if_neg (by simp [mark.visible]), mark.read]
  simp [mark.whole, lexes rest behind]

theorem isMark_comma : IsMark ',' .comma := ⟨rfl, fun _ => rfl, rfl⟩

theorem isMark_colon : IsMark ':' .colon := ⟨rfl, fun _ => rfl, rfl⟩

theorem stops_comma : Stops (',' :: text) := by
  rintro c ⟨⟩
  decide

/-! ## Items -/

structure Spacing.IsBlank (spacing : Spacing) : Prop where
  lineBreak : ∀ depth, ∀ c ∈ spacing.lineBreak depth, isBlank c = true
  afterColon : ∀ c ∈ spacing.afterColon, isBlank c = true

theorem isBlank_indented : Spacing.indented.IsBlank where
  lineBreak := by
    intro depth c member
    rcases List.mem_cons.mp member with rfl | member
    · rfl
    · rw [List.eq_of_mem_replicate member]
      rfl
  afterColon := by
    intro c member
    rw [List.mem_singleton.mp member]
    rfl

theorem stops_of_isBlank {c : Char} (blank : isBlank c = true) : Stops (c :: text) := by
  rintro d ⟨⟩
  simp only [isBlank, Bool.or_eq_true, beq_iff_eq] at blank
  rcases blank with ((rfl | rfl) | rfl) | rfl <;> decide

theorem lexesTo_intercalate {blanks : List Char} (all : ∀ c ∈ blanks, isBlank c = true)
    {items : List (List Char)} {itemTokens : List (List Token)}
    (lexes : List.Forall₂ LexesTo items itemTokens) :
    LexesTo (List.intercalate [','] (items.map (blanks ++ ·)))
      (List.intercalate [.comma] itemTokens) := by
  induction lexes with
  | nil => exact lexesTo_nil
  | @cons item found items others first more ih =>
    cases more with
    | nil => simpa using first.blanks all
    | @cons next nextFound items others second more =>
      have joined := (first.append (ih.mark isMark_comma) stops_comma).blanks all
      simpa only [List.map_cons, List.intercalate_cons_cons, List.append_assoc,
        List.singleton_append] using joined

theorem lexesTo_enclose {spacing : Spacing} (blank : spacing.IsBlank) (depth : Nat)
    {opening closing : Char} {openToken closeToken : Token} (opens : IsMark opening openToken)
    (closes : IsMark closing closeToken) (stops : Stops [closing]) {items : List (List Char)}
    {itemTokens : List (List Token)} (lexes : List.Forall₂ LexesTo items itemTokens) :
    LexesTo (enclose spacing depth opening closing items)
      (openToken :: (List.intercalate [.comma] itemTokens ++ [closeToken])) := by
  have ending : LexesTo (spacing.lineBreak depth ++ [closing]) [closeToken] :=
    (lexesTo_nil.mark closes).blanks (blank.lineBreak depth)
  have behind : Stops (spacing.lineBreak depth ++ [closing]) := by
    cases shape : spacing.lineBreak depth with
    | nil => exact stops
    | cons c more =>
      exact stops_of_isBlank (blank.lineBreak depth c (shape ▸ List.mem_cons_self))
  have inner := lexesTo_intercalate (blank.lineBreak (depth + 1)) lexes
  unfold enclose
  cases lexes with
  | nil => exact (lexesTo_nil.mark closes).mark opens
  | cons first more =>
    rw [List.isEmpty_cons, if_neg (by decide), List.append_assoc]
    exact (inner.append ending behind).mark opens

/-! ## Values -/

mutual

/-- A document can hold all the numbers of the value. -/
def IsWritable : Json → Prop
  | .number value => Fits value
  | .array items => AreWritable items
  | .object members => HasWritable members
  | _ => True

def AreWritable : List Json → Prop
  | [] => True
  | item :: more => IsWritable item ∧ AreWritable more

def HasWritable : List (String × Json) → Prop
  | [] => True
  | (_, value) :: more => IsWritable value ∧ HasWritable more

end

mutual

def tokensOf : Json → List Token
  | .null => [.null]
  | .bool value => [.bool value]
  | .number value => [.number (some value)]
  | .string text => [.string (some text)]
  | .array items => .openArray :: (List.intercalate [.comma] (itemTokens items) ++ [.closeArray])
  | .object members =>
    .openObject :: (List.intercalate [.comma] (memberTokens members) ++ [.closeObject])

def itemTokens : List Json → List (List Token)
  | [] => []
  | item :: more => tokensOf item :: itemTokens more

def memberTokens : List (String × Json) → List (List Token)
  | [] => []
  | (name, value) :: more =>
    (.string (some name) :: .colon :: tokensOf value) :: memberTokens more

end

variable {spacing : Spacing}

theorem isMark_openArray : IsMark '[' .openArray := ⟨rfl, fun _ => rfl, rfl⟩

theorem isMark_closeArray : IsMark ']' .closeArray := ⟨rfl, fun _ => rfl, rfl⟩

theorem isMark_openObject : IsMark '{' .openObject := ⟨rfl, fun _ => rfl, rfl⟩

theorem isMark_closeObject : IsMark '}' .closeObject := ⟨rfl, fun _ => rfl, rfl⟩

theorem stops_closeArray : Stops [']'] := by
  rintro c ⟨⟩
  decide

theorem stops_closeObject : Stops ['}'] := by
  rintro c ⟨⟩
  decide

theorem stops_colon : Stops (':' :: text) := by
  rintro c ⟨⟩
  decide

theorem lexesTo_string (text : String) : LexesTo (writeString text) [.string (some text)] :=
  lexesTo_of_reads rfl fun rest _ => reads_string text rest

theorem lexesTo_null : LexesTo ['n', 'u', 'l', 'l'] [.null] :=
  lexesTo_of_reads rfl fun _ _ => ⟨'n', _, rfl, rfl, by simp [readToken, readWord]⟩

theorem lexesTo_true : LexesTo ['t', 'r', 'u', 'e'] [.bool true] :=
  lexesTo_of_reads rfl fun _ _ => ⟨'t', _, rfl, rfl, by simp [readToken, readWord]⟩

theorem lexesTo_false : LexesTo ['f', 'a', 'l', 's', 'e'] [.bool false] :=
  lexesTo_of_reads rfl fun _ _ => ⟨'f', _, rfl, rfl, by simp [readToken, readWord]⟩

mutual

/-- A value is cut into its tokens, however it is spaced. -/
theorem lexesTo_write (blank : spacing.IsBlank) (depth : Nat) :
    ∀ value : Json, IsWritable value → LexesTo (write spacing depth value) (tokensOf value)
  | .null, _ => lexesTo_null
  | .bool true, _ => lexesTo_true
  | .bool false, _ => lexesTo_false
  | .number _, writable => lexesTo_of_reads rfl fun _ stops => reads_number writable stops
  | .string text, _ => lexesTo_string text
  | .array items, writable =>
    lexesTo_enclose blank depth isMark_openArray isMark_closeArray stops_closeArray
      (lexesTo_writeItems blank (depth + 1) items writable)
  | .object members, writable =>
    lexesTo_enclose blank depth isMark_openObject isMark_closeObject stops_closeObject
      (lexesTo_writeMembers blank (depth + 1) members writable)

theorem lexesTo_writeItems (blank : spacing.IsBlank) (depth : Nat) :
    ∀ items : List Json, AreWritable items →
      List.Forall₂ LexesTo (writeItems spacing depth items) (itemTokens items)
  | [], _ => .nil
  | item :: more, writable =>
    .cons (lexesTo_write blank depth item writable.1)
      (lexesTo_writeItems blank depth more writable.2)

theorem lexesTo_writeMembers (blank : spacing.IsBlank) (depth : Nat) :
    ∀ members : List (String × Json), HasWritable members →
      List.Forall₂ LexesTo (writeMembers spacing depth members) (memberTokens members)
  | [], _ => .nil
  | (name, value) :: more, writable =>
    .cons
      ((lexesTo_string name).append
        (((lexesTo_write blank depth value writable.1).blanks blank.afterColon).mark isMark_colon)
        stops_colon)
      (lexesTo_writeMembers blank depth more writable.2)

end

theorem tokens_write (blank : spacing.IsBlank) {value : Json} (writable : IsWritable value) :
    tokens (write spacing 0 value) = tokensOf value := by
  have lexes := lexesTo_write blank 0 value writable [] (by rintro c ⟨⟩)
  have none : tokens [] = [] := by rw [tokens]
  rwa [List.append_nil, none, List.append_nil] at lexes

end InputTape.Json
