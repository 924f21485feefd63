import InputTape.Json.Printer
import InputTape.Json.Token
import InputTape.Proofs.Decimal.Numerals
import Mathlib.Data.List.TakeWhile

/-! Written numbers as tokens.

A number token ends where the numeral ends, if nothing follows that could be part of a number. An
integer is read as the same integer, and a finite double as the same double.
-/

set_option autoImplicit false

namespace InputTape.Json

open Decimal (Numeral ofDigits digitText)
open Decimal.Numeral (placesText powerText)

def Stops (rest : List Char) : Prop :=
  ∀ c ∈ rest.head?, c.isDigit = false ∧ c ≠ '.' ∧ c ≠ 'e' ∧ c ≠ 'E'

theorem takeWhile_digits {digits rest : List Char} (all : ∀ c ∈ digits, c.isDigit = true)
    (ends : ∀ c ∈ rest.head?, c.isDigit = false) :
    (digits ++ rest).takeWhile Char.isDigit = digits := by
  rw [List.takeWhile_append_of_pos all]
  cases rest with
  | nil => simp
  | cons c rest => simp [ends c rfl]

section

variable {rest : List Char} (stops : Stops rest)

include stops

theorem readExponent_powerText (power : Option Int) :
    readExponent (powerText power ++ rest) =
      match power with
      | none => .absent
      | some power => .present power (powerText (some power)).length := by
  cases power with
  | none =>
    cases rest with
    | nil => rfl
    | cons c rest =>
      obtain ⟨-, -, small, capital⟩ := stops c rfl
      simp [powerText, readExponent, small, capital]
  | some power =>
    have digits : (digitText power.natAbs ++ rest).takeWhile Char.isDigit =
        digitText power.natAbs :=
      takeWhile_digits (fun c => Decimal.isDigit_of_mem_digitText) fun c first => (stops c first).1
    have some : (digitText power.natAbs).isEmpty = false :=
      List.isEmpty_eq_false_iff.mpr (Decimal.digitText_ne_nil _)
    by_cases negative : power < 0
    · have magnitude : -(power.natAbs : Int) = power := by omega
      simp [powerText, negative, readExponent, digits, some, Decimal.ofDigits_digitText, magnitude,
        -Nat.cast_natAbs]
      omega
    · have magnitude : (power.natAbs : Int) = power := by omega
      simp [powerText, negative, readExponent, digits, some, Decimal.ofDigits_digitText, magnitude,
        -Nat.cast_natAbs]
      omega

theorem powerText_ends (power : Option Int) :
    ∀ c ∈ (powerText power ++ rest).head?, c.isDigit = false ∧ c ≠ '.' := by
  cases power with
  | none => exact fun c first => ⟨(stops c first).1, (stops c first).2.1⟩
  | some power =>
    rintro c ⟨⟩
    decide

theorem readPlaces_placesText {places : List Char} (all : ∀ c ∈ places, c.isDigit = true)
    (power : Option Int) :
    readPlaces (placesText places ++ (powerText power ++ rest)) =
      if places = [] then .absent else .present places (placesText places).length := by
  have ends := powerText_ends stops power
  generalize powerText power ++ rest = further at ends ⊢
  cases places with
  | nil =>
    cases further with
    | nil => rfl
    | cons c further =>
      have point : c ≠ '.' := (ends c rfl).2
      simp [placesText, readPlaces, point]
  | cons c places =>
    have digits := takeWhile_digits all fun c first => (ends c first).1
    simp only [placesText, List.cons_append] at digits ⊢
    simp [readPlaces, digits]

end

theorem wholeDigits_append {numeral : Numeral} (proper : numeral.IsProper) {rest : List Char}
    (ends : ∀ c ∈ rest.head?, c.isDigit = false) :
    wholeDigits (numeral.whole ++ rest) = numeral.whole := by
  rcases proper.leading with zero | leading
  · rw [zero]
    rfl
  · have digits := takeWhile_digits proper.wholeDigits ends
    cases shape : numeral.whole with
    | nil => exact absurd shape proper.nonempty
    | cons c whole =>
      rw [shape] at leading digits
      have some : c ≠ '0' := fun zero => leading (congrArg Option.some zero)
      rw [List.cons_append] at digits ⊢
      unfold wholeDigits
      split
      · next same => exact absurd (List.cons.inj same).1 some
      · exact digits

theorem readMagnitude_text {numeral : Numeral} (proper : numeral.IsProper) (negative : Bool)
    {rest : List Char} (stops : Stops rest) :
    readMagnitude negative (numeral.text ++ rest) =
      (.number (if numeral.places = [] ∧ numeral.power = none
          then wholeNumber? negative (ofDigits numeral.whole)
          else realNumber? negative numeral.decimal), numeral.text.length) := by
  have places := readPlaces_placesText stops proper.placeDigits numeral.power
  have exponent := readExponent_powerText stops numeral.power
  have ends : ∀ c ∈ (placesText numeral.places ++ (powerText numeral.power ++ rest)).head?,
      c.isDigit = false := by
    cases numeral.places with
    | nil => exact fun c first => (powerText_ends stops numeral.power c first).1
    | cons =>
      rintro c ⟨⟩
      rfl
  have whole := wholeDigits_append proper ends
  have nonempty : numeral.whole.isEmpty = false := List.isEmpty_eq_false_iff.mpr proper.nonempty
  simp only [Numeral.text, List.append_assoc] at whole ⊢
  -- No digit follows a leading zero.
  have free : (placesText numeral.places ++ (powerText numeral.power ++ rest)).head?.any
      Char.isDigit = false := by
    rw [Bool.eq_false_iff, ne_eq, Option.any_eq_true]
    rintro ⟨c, first, digit⟩
    rw [ends c first] at digit
    cases digit
  simp only [readMagnitude, whole, nonempty, List.drop_left, free, Bool.and_false, places,
    List.length_append, Numeral.decimal]
  -- Without a point and an exponent it is read as a whole number.
  by_cases pointless : numeral.places = []
  · simp only [pointless, if_true, NumberPart.length, List.drop_zero, placesText, List.nil_append,
      exponent]
    cases numeral.power with
    | none => simp [powerText]
    | some power => simp [NumberPart.getD]
  · simp only [pointless, if_false, NumberPart.length, List.drop_left, exponent]
    cases numeral.power with
    | none => simp [NumberPart.getD, powerText]
    | some power => simp [NumberPart.getD, Nat.add_assoc]

theorem readToken_digit {first : Char} (digit : first.isDigit = true) (rest : List Char) :
    readToken first rest =
      ((readMagnitude false (first :: rest)).1, (readMagnitude false (first :: rest)).2 - 1) := by
  unfold readToken
  split
  case h_12 => simp [digit]
  all_goals exact absurd digit (by decide)

theorem isBlank_of_isDigit {c : Char} (digit : c.isDigit = true) : isBlank c = false := by
  simp only [isBlank, Bool.or_eq_false_iff, beq_eq_false_iff_ne]
  refine ⟨⟨⟨?_, ?_⟩, ?_⟩, ?_⟩ <;> rintro rfl <;> exact absurd digit (by decide)

def Reads (text : List Char) (token : Token) (rest : List Char) : Prop :=
  ∃ first more, text = first :: more ∧ isBlank first = false ∧
    readToken first (more ++ rest) = (token, more.length)

theorem reads_numeral {numeral : Numeral} (proper : numeral.IsProper) (negative : Bool)
    {rest : List Char} (stops : Stops rest) :
    Reads ((if negative then ['-'] else []) ++ numeral.text)
      (.number (if numeral.places = [] ∧ numeral.power = none
          then wholeNumber? negative (ofDigits numeral.whole)
          else realNumber? negative numeral.decimal)) rest := by
  have magnitude := readMagnitude_text proper negative stops
  cases negative with
  | true => exact ⟨'-', numeral.text, rfl, rfl, magnitude⟩
  | false =>
    cases shape : numeral.whole with
    | nil => exact absurd shape proper.nonempty
    | cons first whole =>
      have digit : first.isDigit = true :=
        proper.wholeDigits first (shape ▸ List.mem_cons_self)
      have text : numeral.text =
          first :: (whole ++ placesText numeral.places ++ powerText numeral.power) := by
        rw [Numeral.text, shape]
        rfl
      refine ⟨first, _, text, isBlank_of_isDigit digit, ?_⟩
      rw [text, List.cons_append] at magnitude
      rw [readToken_digit digit, magnitude, shape]
      rfl

/-! ## Numbers -/

def Fits : JsonNumber → Prop
  | .integer n => -2 ^ 63 ≤ n ∧ n < 2 ^ 64
  | .real x => (ExactFloat.ofFloat? x).isSome

theorem realNumber?_eq {x : Float} {parts : ExactFloat} (known : ExactFloat.ofFloat? x = some parts)
    {d : Decimal} (same : d.toFloat = x.abs) : realNumber? parts.negative d = some (.real x) := by
  rw [realNumber?]
  simp only [same, isInf_abs known, signed_abs known]
  rfl

theorem reads_digitText (n : Nat) (negative : Bool) {rest : List Char} (stops : Stops rest) :
    Reads ((if negative then ['-'] else []) ++ digitText n) (.number (wholeNumber? negative n))
      rest := by
  have leading : digitText n = ['0'] ∨ (digitText n).head? ≠ some '0' := by
    rcases Nat.eq_zero_or_pos n with rfl | positive
    · exact .inl (Nat.toDigits_zero 10)
    · exact .inr (Decimal.head?_digitText positive)
  have proper : Numeral.IsProper ⟨digitText n, [], none⟩ :=
    ⟨fun c => Decimal.isDigit_of_mem_digitText, by simp, Decimal.digitText_ne_nil n, leading⟩
  have number := reads_numeral proper negative stops
  have text : Numeral.text ⟨digitText n, [], none⟩ = digitText n := by
    simp only [Numeral.text, placesText, powerText, List.append_nil]
  rw [text, if_pos (And.intro rfl rfl), Decimal.ofDigits_digitText] at number
  exact number

theorem reads_number {number : JsonNumber} (fits : Fits number) {rest : List Char}
    (stops : Stops rest) : Reads (writeNumber number) (.number (some number)) rest := by
  cases number with
  | integer n =>
    obtain ⟨low, high⟩ := fits
    cases n with
    | ofNat n =>
      have short : n < Nat.pow 2 64 := Int.ofNat_lt.mp high
      have whole := reads_digitText n false stops
      simp only [wholeNumber?, Bool.false_eq_true, if_false, short, if_true] at whole
      have text : (toString (Int.ofNat n)).toList = digitText n := Nat.toList_repr
      rw [writeNumber, text]
      exact whole
    | negSucc n =>
      have short : n + 1 ≤ Nat.pow 2 63 := by
        have : Nat.pow 2 63 = 9223372036854775808 := rfl
        omega
      have whole := reads_digitText (n + 1) true stops
      simp only [wholeNumber?, if_true, Nat.succ_pos, decide_true, Bool.true_and, short] at whole
      have text : (toString (Int.negSucc n)).toList = '-' :: digitText (n + 1) := by
        change ("-" ++ (n + 1).repr).toList = _
        rw [String.toList_append, Nat.toList_repr]
        rfl
      rw [writeNumber, text]
      exact whole
  | real x =>
    obtain ⟨parts, known⟩ := Option.isSome_iff_exists.mp fits
    obtain ⟨d, magnitude, ⟨numeral, proper, real, rfl, value⟩, same, written⟩ :=
      Decimal.write_document known
    have number := reads_numeral proper parts.negative stops
    have pointed : ¬ (numeral.places = [] ∧ numeral.power = none) := not_and_or.mpr real
    rw [if_neg pointed, realNumber?_eq known ((Decimal.toFloat_congr value).trans same)] at number
    rw [writeNumber, written]
    exact number

end InputTape.Json
