import InputTape.Proofs.Decimal.Parts

/-! How numbers are spelled.

A number is written as digits, further digits behind a point, and a power of ten, of which the
last two may be missing. The layout of saved documents always has one of them.
-/

set_option autoImplicit false

namespace InputTape.Decimal

open Float.Model.UnpackedFloat (pack unpack unpack_packedZero)

/-! ## Digits -/

theorem ofDigits_eq (digits : List Char) : ofDigits digits = Nat.ofDigitChars 10 digits 0 := by
  rw [Nat.ofDigitChars_eq_foldl]
  simp only [ofDigits, Nat.mul_comm]

theorem ofDigits_digitText (n : Nat) : ofDigits (digitText n) = n := by
  rw [ofDigits_eq]
  exact Nat.ofDigitChars_ten_toDigits

theorem isDigit_of_mem_digitText {n : Nat} {c : Char} (member : c ∈ digitText n) :
    c.isDigit = true :=
  Nat.isDigit_of_mem_toDigits (by decide) (by decide) member

theorem digitText_ne_nil (n : Nat) : digitText n ≠ [] := Nat.toDigits_ne_nil

theorem head?_digitText {n : Nat} (positive : 0 < n) : (digitText n).head? ≠ some '0' := by
  unfold digitText
  induction n using Nat.base_induction 10 (by decide) with
  | single n below =>
    rw [Nat.toDigits_of_lt_base below]
    simpa using positive.ne'
  | digit n last below some ih =>
    rw [← Nat.toDigits_append_toDigits (by decide) some below,
      List.head?_append_of_ne_nil _ Nat.toDigits_ne_nil]
    exact ih some

theorem ofDigits_append_zeros (digits : List Char) (count : Nat) :
    ofDigits (digits ++ List.replicate count '0') = ofDigits digits * 10 ^ count := by
  rw [ofDigits_eq, ofDigits_eq, Nat.ofDigitChars_append, Nat.ofDigitChars_replicate_zero,
    Nat.mul_comm]

theorem ofDigits_zeros_append (digits : List Char) (count : Nat) :
    ofDigits (List.replicate count '0' ++ digits) = ofDigits digits := by
  rw [ofDigits_eq, ofDigits_eq, Nat.ofDigitChars_append, Nat.ofDigitChars_replicate_zero,
    Nat.mul_zero]

/-! ## Numerals -/

structure Numeral where
  whole : List Char
  places : List Char
  power : Option Int

namespace Numeral

def placesText : List Char → List Char
  | [] => []
  | places => '.' :: places

def powerText : Option Int → List Char
  | none => []
  | some power => 'e' :: (if power < 0 then '-' else '+') :: digitText power.natAbs

def text (numeral : Numeral) : List Char :=
  numeral.whole ++ placesText numeral.places ++ powerText numeral.power

def decimal (numeral : Numeral) : Decimal :=
  ⟨ofDigits (numeral.whole ++ numeral.places),
    numeral.power.getD 0 - numeral.places.length⟩

structure IsProper (numeral : Numeral) : Prop where
  wholeDigits : ∀ c ∈ numeral.whole, c.isDigit = true
  placeDigits : ∀ c ∈ numeral.places, c.isDigit = true
  nonempty : numeral.whole ≠ []
  leading : numeral.whole = ['0'] ∨ numeral.whole.head? ≠ some '0'

def IsReal (numeral : Numeral) : Prop := numeral.places ≠ [] ∨ numeral.power ≠ none

end Numeral

theorem isDigit_of_mem_replicate {count : Nat} {c : Char}
    (member : c ∈ List.replicate count '0') : c.isDigit = true := by
  rw [List.eq_of_mem_replicate member]
  rfl

theorem Numeral.placesText_of_ne_nil {places : List Char} (some : places ≠ []) :
    placesText places = '.' :: places := by
  cases places with
  | nil => contradiction
  | cons => rfl

/-- The text is that of a number with a point or a power, and of the value of a decimal. -/
def Spells (text : List Char) (d : Decimal) : Prop :=
  ∃ numeral : Numeral, numeral.IsProper ∧ numeral.IsReal ∧ text = numeral.text ∧
    numeral.decimal.value = d.value

section

variable (d : Decimal)

theorem spells_whole (positive : 0 < d.digits) (nonneg : 0 ≤ d.exponent) :
    Spells (d.positional ".0").toList d := by
  let zeros := List.replicate d.exponent.toNat '0'
  refine ⟨⟨digitText d.digits ++ zeros, ['0'], none⟩, ⟨?_, ?_, ?_, ?_⟩, .inl (by simp), ?_, ?_⟩
  · exact fun c member => (List.mem_append.mp member).elim isDigit_of_mem_digitText
      isDigit_of_mem_replicate
  · exact fun c => @isDigit_of_mem_replicate 1 c
  · simp [digitText_ne_nil]
  · refine .inr ?_
    rw [List.head?_append_of_ne_nil _ (digitText_ne_nil _)]
    exact head?_digitText positive
  · simp [positional, nonneg, Numeral.text, Numeral.placesText, Numeral.powerText, zeros]
  · have digits : ofDigits (digitText d.digits ++ zeros ++ ['0']) =
        d.digits * 10 ^ (d.exponent.toNat + 1) := by
      rw [List.append_assoc, ← List.replicate_succ', ofDigits_append_zeros, ofDigits_digitText]
    have power : ((d.exponent.toNat + 1 : ℕ) : ℤ) + (0 - 1) = d.exponent := by omega
    simp only [Numeral.decimal, value, digits, Option.getD_none, List.length_singleton]
    rw [Nat.cast_mul, Nat.cast_pow, mul_assoc, ← zpow_natCast, Nat.cast_ofNat, Nat.cast_one,
      ← zpow_add₀ (by norm_num), power]

theorem spells_pointed (positive : 0 < d.digits) (negative : d.exponent < 0)
    (inside : d.exponent.natAbs < (digitText d.digits).length) :
    Spells (d.positional ".0").toList d := by
  let count := (digitText d.digits).length - d.exponent.natAbs
  let whole := (digitText d.digits).take count
  let places := (digitText d.digits).drop count
  have joined : whole ++ places = digitText d.digits := List.take_append_drop ..
  have length : places.length = d.exponent.natAbs := by
    rw [List.length_drop]
    omega
  have some : places ≠ [] := List.ne_nil_of_length_pos (by omega)
  have nonempty : whole ≠ [] := by
    refine List.ne_nil_of_length_pos ?_
    rw [List.length_take]
    omega
  refine ⟨⟨whole, places, none⟩, ⟨?_, ?_, nonempty, .inr ?_⟩, .inl some, ?_, ?_⟩
  · exact fun c member => isDigit_of_mem_digitText (List.mem_of_mem_take member)
  · exact fun c member => isDigit_of_mem_digitText (List.mem_of_mem_drop member)
  · have leading := head?_digitText positive
    rwa [← joined, List.head?_append_of_ne_nil _ nonempty] at leading
  · simp [positional, negative.not_ge, inside, Numeral.text, Numeral.placesText_of_ne_nil some,
      Numeral.powerText, whole, places, count]
  · simp only [Numeral.decimal, value, joined, ofDigits_digitText, length, Option.getD_none]
    congr 2
    omega

theorem spells_fraction (negative : d.exponent < 0)
    (outside : ¬ d.exponent.natAbs < (digitText d.digits).length) :
    Spells (d.positional ".0").toList d := by
  let count := d.exponent.natAbs - (digitText d.digits).length
  let places := List.replicate count '0' ++ digitText d.digits
  have some : places ≠ [] := by simp [places, digitText_ne_nil]
  have length : places.length = d.exponent.natAbs := by
    simp only [places, List.length_append, List.length_replicate]
    omega
  have digits : ofDigits ('0' :: places) = d.digits := by
    rw [← List.cons_append, ← List.replicate_succ, ofDigits_zeros_append, ofDigits_digitText]
  refine ⟨⟨['0'], places, none⟩, ⟨?_, ?_, by simp, .inl rfl⟩, .inl some, ?_, ?_⟩
  · exact fun c => @isDigit_of_mem_replicate 1 c
  · exact fun c member => (List.mem_append.mp member).elim isDigit_of_mem_replicate
      isDigit_of_mem_digitText
  · simp [positional, negative.not_ge, outside, Numeral.text, Numeral.placesText_of_ne_nil some,
      Numeral.powerText, places, count]
  · simp only [Numeral.decimal, value, List.singleton_append, digits, length, Option.getD_none]
    congr 2
    omega

theorem spells_positional (positive : 0 < d.digits) : Spells (d.positional ".0").toList d := by
  rcases lt_or_ge d.exponent 0 with negative | nonneg
  · by_cases inside : d.exponent.natAbs < (digitText d.digits).length
    · exact spells_pointed d positive negative inside
    · exact spells_fraction d negative inside
  · exact spells_whole d positive nonneg

theorem spells_scientific (positive : 0 < d.digits) : Spells d.scientific.toList d := by
  have all : ∀ c ∈ digitText d.digits, c.isDigit = true := fun c => isDigit_of_mem_digitText
  have leading := head?_digitText positive
  have back := ofDigits_digitText d.digits
  have power : Numeral.powerText (some d.leadingExponent) =
      (if d.leadingExponent < 0 then "e-" else "e+").toList ++
        digitText d.leadingExponent.natAbs := by
    rw [Numeral.powerText]
    split <;> rfl
  cases shape : digitText d.digits with
  | nil => exact absurd shape (digitText_ne_nil _)
  | cons digit rest =>
    rw [shape] at all leading back
    obtain ⟨first, further⟩ := List.forall_mem_cons.mp all
    refine ⟨⟨[digit], rest, some d.leadingExponent⟩, ⟨?_, further, by simp, .inr leading⟩,
      .inr (by simp), ?_, ?_⟩
    · exact List.forall_mem_singleton.mpr first
    · simp only [scientific, Numeral.text, power, shape, String.toList_append,
        String.toList_ofList, List.append_assoc]
      rw [← List.append_assoc [digit]]
      congr 1
      cases rest <;> rfl
    · simp only [Numeral.decimal, value, List.singleton_append, back, leadingExponent, shape,
        Option.getD_some, List.length_cons]
      congr 2
      push_cast
      ring

end

theorem spells_zero : Spells ['0', '.', '0'] ⟨0, 0⟩ :=
  ⟨⟨['0'], ['0'], none⟩,
    ⟨fun c => @isDigit_of_mem_replicate 1 c, fun c => @isDigit_of_mem_replicate 1 c,
      by decide, .inl rfl⟩,
    .inl (by decide), rfl, by simp [Numeral.decimal, value, ofDigits]⟩

/-! ## Numbers of documents -/

theorem toFloat_of_digits_eq_zero {d : Decimal} (none : d.digits = 0) :
    d.toFloat = .ofModel (.pack (.zero .positive)) := by
  rw [toFloat_eq, value, none, Nat.cast_zero, zero_mul, nearest_zero]

/-- A finite number is written as its sign and a decimal that is read as its magnitude. -/
theorem write_document {x : Float} {parts : ExactFloat}
    (known : ExactFloat.ofFloat? x = some parts) :
    ∃ (d : Decimal) (magnitude : List Char), Spells magnitude d ∧ d.toFloat = x.abs ∧
      (Layout.document.write x).toList = (if parts.negative then ['-'] else []) ++ magnitude := by
  have sign : (if parts.negative then "-" else "").toList =
      if parts.negative then ['-'] else [] := by split <;> rfl
  have zero := toFloat_exact known
  by_cases none : parts.mantissa = 0
  · refine ⟨⟨0, 0⟩, ['0', '.', '0'], spells_zero, ?_, ?_⟩
    · rw [← zero]
      refine toFloat_congr ?_
      rw [value_exact, none, value]
      simp
    · simp [Layout.write, known, none, Layout.document, sign]
  · let d := shortest x.abs { parts with negative := false } Layout.document.tie
    have same : d.toFloat = x.abs := toFloat_shortest zero
    have positive : 0 < d.digits := by
      refine Nat.pos_of_ne_zero fun nothing => ?_
      -- A number with a mantissa is not unpacked to zero.
      rw [toFloat_of_digits_eq_zero nothing] at same
      have unpacked := unpack_abs known
      obtain ⟨sign, -, ⟨-, missing⟩ | ⟨canonical, -, found⟩⟩ := unpack_of_ofFloat? known
      · exact none missing
      · rw [← same, found] at unpacked
        have packed : unpack .binary64 (pack .binary64 (.zero .positive)) = .zero .positive :=
          unpack_packedZero
        cases packed.symm.trans unpacked
    let text := if Layout.document.isPositional d.leadingExponent
      then d.positional Layout.document.wholeSuffix else d.scientific
    refine ⟨d, text.toList, ?_, same, ?_⟩
    · simp only [text]
      split
      · exact spells_positional d positive
      · exact spells_scientific d positive
    · simp only [Layout.write, known, beq_iff_eq, none, if_false, String.toList_append, sign]
      rfl

end InputTape.Decimal
