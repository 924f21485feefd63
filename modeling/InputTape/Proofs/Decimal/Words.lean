import InputTape.Decimal.Words

/-! A number is a word exactly if it is the number that the word stands for. -/

set_option autoImplicit false

namespace InputTape

variable {x : Float}

theorem wholeBetween?_eq_some {low high n : Int} :
    wholeBetween? low high x = some n ↔ wholeNumber? x = some n ∧ low ≤ n ∧ n ≤ high := by
  simp only [wholeBetween?, Option.filter_eq_some_iff, Bool.and_eq_true, decide_eq_true_eq]

theorem int32?_eq_some {n : Int32} : int32? x = some n ↔ wholeNumber? x = some n.toInt := by
  have low := n.le_toInt
  have high := n.toInt_lt
  simp only [int32?, Option.map_eq_some_iff, wholeBetween?_eq_some]
  constructor
  · rintro ⟨whole, ⟨found, atLeast, atMost⟩, rfl⟩
    rw [found, Int32.toInt_ofInt_of_le (by omega) (by omega)]
  · intro found
    exact ⟨n.toInt, ⟨found, by omega, by omega⟩, Int32.ofInt_toInt n⟩

theorem uint16?_eq_some {n : UInt16} :
    uint16? x = some n ↔ wholeNumber? x = some (n.toNat : Int) := by
  have high := n.toNat_lt
  simp only [uint16?, Option.map_eq_some_iff, wholeBetween?_eq_some]
  constructor
  · rintro ⟨whole, ⟨found, atLeast, atMost⟩, rfl⟩
    rw [found, UInt16.toNat_ofNat_of_lt' (by simp only [UInt16.size]; omega),
      Int.toNat_of_nonneg atLeast]
  · intro found
    refine ⟨n.toNat, ⟨found, by omega, by omega⟩, ?_⟩
    rw [Int.toNat_natCast, UInt16.ofNat_toNat]

theorem uint8?_eq_some {n : UInt8} :
    uint8? x = some n ↔ wholeNumber? x = some (n.toNat : Int) := by
  have high := n.toNat_lt
  simp only [uint8?, Option.map_eq_some_iff, wholeBetween?_eq_some]
  constructor
  · rintro ⟨whole, ⟨found, atLeast, atMost⟩, rfl⟩
    rw [found, UInt8.toNat_ofNat_of_lt' (by simp only [UInt8.size]; omega),
      Int.toNat_of_nonneg atLeast]
  · intro found
    refine ⟨n.toNat, ⟨found, by omega, by omega⟩, ?_⟩
    rw [Int.toNat_natCast, UInt8.ofNat_toNat]

end InputTape
