import InputTape.Expression.Evaluation
import InputTape.Proofs.Script.Tokens
import Mathlib.Data.List.TakeWhile

/-! Numbers among the tokens.

A number token consists of digits with at most one point among them, so it has a value.
-/

set_option autoImplicit false

namespace InputTape.Expression

open Script (Token TokenKind Item readFrom numberRest items)

theorem readFrom_number {first : Char} {rest text : List Char}
    (reading : (readFrom first rest).1 = .token .number text) :
    first.isDigit = true ∧ text = first :: numberRest rest := by
  simp only [readFrom] at reading
  split at reading
  case h_16 =>
    split at reading
    · next digit =>
      simp only [Script.Reading.token.injEq] at reading
      exact ⟨digit, reading.2.symm⟩
    · split at reading
      · simp only [Script.Reading.token.injEq, Script.wordKind] at reading
        split at reading <;> cases reading.1
      · cases reading
  all_goals first | cases reading | (split at reading <;> cases reading)

inductive IsNumeral : List Char → Prop where
  | whole {digits : List Char} : digits ≠ [] → (∀ c ∈ digits, c.isDigit = true) → IsNumeral digits
  | point {digits places : List Char} : digits ≠ [] → (∀ c ∈ digits, c.isDigit = true) →
      (∀ c ∈ places, c.isDigit = true) → IsNumeral (digits ++ '.' :: places)

theorem isNumeral_number {first : Char} (digit : first.isDigit = true) (rest : List Char) :
    IsNumeral (first :: numberRest rest) := by
  have whole : ∀ c ∈ first :: rest.takeWhile Char.isDigit, c.isDigit = true :=
    List.forall_mem_cons.mpr ⟨digit, fun c => List.all_eq_true.mp List.all_takeWhile c⟩
  simp only [numberRest]
  split
  · exact .point (List.cons_ne_nil _ _) whole fun c => List.all_eq_true.mp List.all_takeWhile c
  · exact .whole (List.cons_ne_nil _ _) whole

theorem isNumeral_of_mem_items {text : String} {token : Token} (member : .token token ∈ items text)
    (kind : token.kind = .number) : IsNumeral token.text.toList := by
  obtain ⟨first, rest, reading⟩ := Script.read_of_mem_items member
  rw [kind] at reading
  obtain ⟨digit, same⟩ := readFrom_number reading
  rw [same]
  exact isNumeral_number digit rest

namespace IsNumeral

variable {text : List Char}

theorem read? (numeral : IsNumeral text) : ∃ value, Decimal.read? text = some value := by
  cases numeral with
  | whole nonempty digits =>
    have front := List.takeWhile_eq_self_iff.mpr digits
    have behind := List.dropWhile_eq_nil_iff.mpr digits
    simp [Decimal.read?, Decimal.readExponent?, front, behind, nonempty]
  | @point whole places nonempty digits further =>
    have point : Char.isDigit '.' = false := by decide
    have front : (whole ++ '.' :: places).takeWhile Char.isDigit = whole := by
      simp [List.takeWhile_append_of_pos digits, point]
    have behind : (whole ++ '.' :: places).dropWhile Char.isDigit = '.' :: places := by
      simp [List.dropWhile_append_of_pos digits, point]
    have last := List.dropWhile_eq_nil_iff.mpr further
    simp [Decimal.read?, Decimal.readExponent?, front, behind, last, nonempty]

theorem head (numeral : IsNumeral text) :
    ∃ first rest, text = first :: rest ∧ first.isDigit = true := by
  cases numeral with
  | whole nonempty digits =>
    obtain ⟨first, rest, rfl⟩ := List.exists_cons_of_ne_nil nonempty
    exact ⟨first, rest, rfl, digits first List.mem_cons_self⟩
  | @point whole places nonempty digits further =>
    obtain ⟨first, rest, rfl⟩ := List.exists_cons_of_ne_nil nonempty
    exact ⟨first, rest ++ '.' :: places, rfl, digits first List.mem_cons_self⟩

theorem readFloat? {text : String} (numeral : IsNumeral text.toList) :
    ∃ value, Decimal.readFloat? text = some value := by
  obtain ⟨decimal, read⟩ := numeral.read?
  have magnitude : ∃ value, Decimal.readMagnitude? text.toList = some value := by
    simp only [Decimal.readMagnitude?, read, Option.map_some]
    split
    · exact ⟨_, rfl⟩
    · split <;> exact ⟨_, rfl⟩
  obtain ⟨first, rest, starts, digit⟩ := numeral.head
  simp only [Decimal.readFloat?]
  -- A digit is no sign.
  split
  · next same =>
    cases starts.symm.trans same
    cases digit
  · next same =>
    cases starts.symm.trans same
    cases digit
  · exact magnitude

end IsNumeral

theorem item_of_mem_significantTokens {line : String} {tokens : List Token}
    (significant : significantTokens? line = some tokens) {token : Token} (member : token ∈ tokens) :
    .token token ∈ items line := by
  unfold significantTokens? at significant
  generalize items line = found at significant ⊢
  induction found generalizing tokens with
  | nil =>
    cases significant
    cases member
  | cons item more ih =>
    rw [List.foldr_cons, Option.bind_eq_bind, Option.bind_eq_some_iff] at significant
    obtain ⟨later, significant, here⟩ := significant
    have behind (inside : token ∈ later) : .token token ∈ item :: more :=
      List.mem_cons_of_mem item (ih inside significant)
    cases item with
    -- Every item in front of an unclosed string leads to no tokens as well.
    | unterminated => cases here
    | token other =>
      simp only at here
      split at here
      · cases here
        exact behind member
      · cases here
        rcases List.mem_cons.mp member with rfl | member
        · exact List.mem_cons_self
        · exact behind member

theorem readFloat?_of_significant {line : String} {tokens : List Token}
    (significant : significantTokens? line = some tokens) {token : Token} (member : token ∈ tokens)
    (kind : token.kind = .number) : ∃ value, Decimal.readFloat? token.text = some value :=
  (isNumeral_of_mem_items (item_of_mem_significantTokens significant member) kind).readFloat?

end InputTape.Expression
