import InputTape.Settings

/-! Colours and their hexadecimal texts.

A colour is read from three pairs of digits, or from four with the alpha channel in front, behind at
most one mark. The one thing read besides is a plus sign in the place of the first digit, which then
counts as zero. What is written for a colour is read as that colour.
-/

set_option autoImplicit false

namespace InputTape

namespace Text

/-! ## Digits -/

def smallDigits : List Char := "0123456789abcdef".toList

def capitalDigits : List Char := "0123456789ABCDEF".toList

/-- The character is a digit, in either letter case, of that value. -/
def IsDigit (c : Char) (value : Nat) : Prop :=
  smallDigits[value]? = some c ∨ capitalDigits[value]? = some c

instance (c : Char) (value : Nat) : Decidable (IsDigit c value) :=
  inferInstanceAs (Decidable (_ ∨ _))

theorem IsDigit.lt {c : Char} {value : Nat} (digit : IsDigit c value) : value < 16 := by
  rcases digit with small | capital
  · exact (List.getElem?_eq_some_iff.mp small).1
  · exact (List.getElem?_eq_some_iff.mp capital).1

theorem exists_isDigit_iff {c : Char} :
    (∃ value, IsDigit c value) ↔ c ∈ smallDigits ∨ c ∈ capitalDigits := by
  simp only [IsDigit, exists_or, List.mem_iff_getElem?]

theorem hexDigit?_digits : ∀ value < 16, (smallDigits[value]?).bind hexDigit? = some value ∧
    (capitalDigits[value]?).bind hexDigit? = some value := by
  decide

theorem lt_of_hexDigit? {c : Char} {value : Nat} (reads : hexDigit? c = some value) :
    c.toNat < 128 := by
  unfold hexDigit? at reads
  simp only [Char.isDigit, Bool.and_eq_true, decide_eq_true_eq, Char.le_def,
    UInt32.le_iff_toNat_le, ge_iff_le] at reads
  change c.val.toNat < 128
  split at reads
  · next digit => exact Nat.lt_of_le_of_lt digit.2 (by decide)
  · split at reads
    · next small => exact Nat.lt_of_le_of_lt small.2 (by decide)
    · split at reads
      · next capital => exact Nat.lt_of_le_of_lt capital.2 (by decide)
      · cases reads

theorem isDigit_of_hexDigit? : ∀ code : Fin 128, ∀ value ∈ hexDigit? (Char.ofNat code.val),
    IsDigit (Char.ofNat code.val) value := by
  decide

theorem hexDigit?_eq_some_iff {c : Char} {value : Nat} :
    hexDigit? c = some value ↔ IsDigit c value := by
  constructor
  · intro reads
    have within := isDigit_of_hexDigit? ⟨c.toNat, lt_of_hexDigit? reads⟩ value
    rw [Char.ofNat_toNat] at within
    exact within reads
  · intro digit
    obtain ⟨small, capital⟩ := hexDigit?_digits value digit.lt
    rcases digit with same | same
    · rwa [same] at small
    · rwa [same] at capital

theorem IsDigit.utf8Size {c : Char} {value : Nat} (digit : IsDigit c value) : c.utf8Size = 1 := by
  have low := lt_of_hexDigit? (hexDigit?_eq_some_iff.mpr digit)
  have ascii : c.val ≤ 0x7F := UInt32.le_iff_toNat_le.mpr (Nat.le_of_lt_succ low)
  exact if_pos ascii

theorem utf8ByteSize_cons (c : Char) (more : List Char) :
    (String.ofList (c :: more)).utf8ByteSize = c.utf8Size + (String.ofList more).utf8ByteSize := by
  rw [← List.singleton_append, String.ofList_append, String.utf8ByteSize_append,
    ← String.singleton_eq_ofList, String.utf8ByteSize_singleton]

theorem utf8ByteSize_digits {digits : List Char} (all : ∀ c ∈ digits, ∃ value, IsDigit c value) :
    (String.ofList digits).utf8ByteSize = digits.length := by
  induction digits with
  | nil => rfl
  | cons c more ih =>
    obtain ⟨⟨value, digit⟩, later⟩ := List.forall_mem_cons.mp all
    rw [utf8ByteSize_cons, digit.utf8Size, ih later, List.length_cons, Nat.add_comm]

/-! ## Pairs of digits -/

/-- Pairs of digits stand for bytes. The first digit of a pair counts sixteen times. -/
inductive Pairs : List Char → List UInt8 → Prop where
  | nil : Pairs [] []
  | cons {high low : Char} {first second : Nat} {byte : UInt8} {more : List Char}
      {bytes : List UInt8} : IsDigit high first → IsDigit low second →
      byte.toNat = first * 16 + second → Pairs more bytes →
      Pairs (high :: low :: more) (byte :: bytes)

def bytesBehind (start : Nat) (bytes : List UInt8) : Nat :=
  bytes.foldl (fun value byte => value * 256 + byte.toNat) start

def digitBehind (value : Nat) (digit : Char) : Option Nat :=
  (hexDigit? digit).map (value * 16 + ·)

theorem foldlM_pairs {digits : List Char} {bytes : List UInt8} (pairs : Pairs digits bytes)
    (start : Nat) : digits.foldlM digitBehind start = some (bytesBehind start bytes) := by
  induction pairs generalizing start with
  | nil => rfl
  | cons high low value _ ih =>
    simp only [List.foldlM_cons, digitBehind, hexDigit?_eq_some_iff.mpr high,
      hexDigit?_eq_some_iff.mpr low, Option.map_some, Option.bind_eq_bind, Option.bind_some]
    rw [ih, bytesBehind, bytesBehind, List.foldl_cons, value]
    congr 2
    omega

theorem exists_foldlM_iff {digits : List Char} {start : Nat} :
    (∃ value, digits.foldlM digitBehind start = some value) ↔
      ∀ c ∈ digits, ∃ value, IsDigit c value := by
  induction digits generalizing start with
  | nil => simp
  | cons c more ih =>
    simp only [List.foldlM_cons, digitBehind, Option.bind_eq_bind, Option.bind_eq_some_iff,
      Option.map_eq_some_iff, hexDigit?_eq_some_iff, List.forall_mem_cons] at ih ⊢
    constructor
    · rintro ⟨value, _, ⟨first, digit, rfl⟩, reads⟩
      exact ⟨⟨first, digit⟩, ih.mp ⟨value, reads⟩⟩
    · rintro ⟨⟨first, digit⟩, later⟩
      obtain ⟨value, reads⟩ := ih.mpr later
      exact ⟨value, _, ⟨first, digit, rfl⟩, reads⟩

theorem exists_pairs (count : Nat) {digits : List Char} {start value : Nat}
    (length : digits.length = 2 * count)
    (reads : digits.foldlM digitBehind start = some value) :
    ∃ bytes, Pairs digits bytes ∧ bytes.length = count := by
  induction count generalizing digits start with
  | zero =>
    rw [List.eq_nil_of_length_eq_zero length]
    exact ⟨[], .nil, rfl⟩
  | succ count ih =>
    match digits, length with
    | high :: low :: more, length =>
      have rest : more.length = 2 * count := by
        simp only [List.length_cons] at length
        omega
      simp only [List.foldlM_cons, digitBehind, Option.bind_eq_bind, Option.bind_eq_some_iff,
        Option.map_eq_some_iff, hexDigit?_eq_some_iff] at reads
      obtain ⟨_, ⟨first, high, rfl⟩, _, ⟨second, low, rfl⟩, reads⟩ := reads
      obtain ⟨bytes, pairs, rfl⟩ := ih rest reads
      have value : (UInt8.ofNat (first * 16 + second)).toNat = first * 16 + second := by
        have := high.lt
        have := low.lt
        exact UInt8.toNat_ofNat_of_lt' (by simp only [UInt8.size]; omega)
      exact ⟨_ :: bytes, .cons high low value pairs, rfl⟩

theorem Pairs.isDigit {digits : List Char} {bytes : List UInt8} (pairs : Pairs digits bytes) :
    ∀ c ∈ digits, ∃ value, IsDigit c value := by
  induction pairs with
  | nil => exact nofun
  | cons high low _ _ ih =>
    exact List.forall_mem_cons.mpr ⟨⟨_, high⟩, List.forall_mem_cons.mpr ⟨⟨_, low⟩, ih⟩⟩

theorem Pairs.length {digits : List Char} {bytes : List UInt8} (pairs : Pairs digits bytes) :
    digits.length = 2 * bytes.length := by
  induction pairs with
  | nil => rfl
  | cons _ _ _ _ ih =>
    simp only [List.length_cons, ih]
    omega

end Text

namespace Color

open Text (Pairs)

def unmarked : List Char → List Char
  | '#' :: digits => digits
  | digits => digits

/-- Three pairs of digits stand for a colour, and four for one with its alpha channel in front. -/
inductive Spells : List Char → Color → Prop where
  | withoutAlpha {digits : List Char} {red green blue : UInt8} :
      Pairs digits [red, green, blue] → Spells digits ⟨255, red, green, blue⟩
  | withAlpha {digits : List Char} {alpha red green blue : UInt8} :
      Pairs digits [alpha, red, green, blue] → Spells digits ⟨alpha, red, green, blue⟩

def ofNumber? (value size : Nat) : Option Color :=
  let channel (place : Nat) : UInt8 := UInt8.ofNat (value / Nat.pow 256 place)
  match size with
  | 6 => some (opaqueRgb (channel 2) (channel 1) (channel 0))
  | 8 => some ⟨channel 3, channel 2, channel 1, channel 0⟩
  | _ => none

theorem ofNat_eq {n : Nat} {byte : UInt8} (same : n % 256 = byte.toNat) : UInt8.ofNat n = byte := by
  rw [← UInt8.toNat_inj, UInt8.toNat_ofNat', same]

theorem ofNumber?_three (red green blue : UInt8) :
    ofNumber? (Text.bytesBehind 0 [red, green, blue]) 6 = some ⟨255, red, green, blue⟩ := by
  have := red.toNat_lt
  have := green.toNat_lt
  have := blue.toNat_lt
  simp only [ofNumber?, opaqueRgb, Text.bytesBehind, List.foldl_cons, List.foldl_nil, Nat.pow_eq,
    Option.some.injEq, Color.mk.injEq, true_and]
  exact ⟨ofNat_eq (by omega), ofNat_eq (by omega), ofNat_eq (by omega)⟩

theorem ofNumber?_four (alpha red green blue : UInt8) :
    ofNumber? (Text.bytesBehind 0 [alpha, red, green, blue]) 8 = some ⟨alpha, red, green, blue⟩ := by
  have := alpha.toNat_lt
  have := red.toNat_lt
  have := green.toNat_lt
  have := blue.toNat_lt
  simp only [ofNumber?, Text.bytesBehind, List.foldl_cons, List.foldl_nil, Nat.pow_eq,
    Option.some.injEq, Color.mk.injEq]
  exact ⟨ofNat_eq (by omega), ofNat_eq (by omega), ofNat_eq (by omega), ofNat_eq (by omega)⟩

theorem size_of_ofNumber? {value size : Nat} {color : Color}
    (stands : ofNumber? value size = some color) : size = 6 ∨ size = 8 := by
  unfold ofNumber? at stands
  split at stands
  · exact .inl rfl
  · exact .inr rfl
  · cases stands

theorem spells_iff {digits : List Char} {color : Color} : Spells digits color ↔
    ∃ value, digits.foldlM Text.digitBehind 0 = some value ∧
      ofNumber? value digits.length = some color := by
  constructor
  · rintro (pairs | pairs)
    · exact ⟨_, Text.foldlM_pairs pairs 0, pairs.length ▸ ofNumber?_three ..⟩
    · exact ⟨_, Text.foldlM_pairs pairs 0, pairs.length ▸ ofNumber?_four ..⟩
  · rintro ⟨value, reads, stands⟩
    -- The size tells how many bytes the digits make.
    rcases size_of_ofNumber? stands with six | eight
    · obtain ⟨bytes, pairs, three⟩ := Text.exists_pairs 3 six reads
      match bytes, three with
      | [red, green, blue], _ =>
        rw [Text.foldlM_pairs pairs, Option.some.injEq] at reads
        rw [← reads, six, ofNumber?_three, Option.some.injEq] at stands
        exact stands ▸ .withoutAlpha pairs
    · obtain ⟨bytes, pairs, four⟩ := Text.exists_pairs 4 eight reads
      match bytes, four with
      | [alpha, red, green, blue], _ =>
        rw [Text.foldlM_pairs pairs, Option.some.injEq] at reads
        rw [← reads, eight, ofNumber?_four, Option.some.injEq] at stands
        exact stands ▸ .withAlpha pairs

theorem exists_spells_iff {digits : List Char} : (∃ color, Spells digits color) ↔
    (digits.length = 6 ∨ digits.length = 8) ∧
      ∀ c ∈ digits, c ∈ Text.smallDigits ∨ c ∈ Text.capitalDigits := by
  simp only [← Text.exists_isDigit_iff]
  constructor
  · rintro ⟨_, pairs | pairs⟩
    · exact ⟨.inl pairs.length, pairs.isDigit⟩
    · exact ⟨.inr pairs.length, pairs.isDigit⟩
  · rintro ⟨size, all⟩
    obtain ⟨value, reads⟩ := Text.exists_foldlM_iff.mpr all
    obtain ⟨color, stands⟩ : ∃ color, ofNumber? value digits.length = some color := by
      rcases size with six | eight
      · exact six ▸ ⟨_, rfl⟩
      · exact eight ▸ ⟨_, rfl⟩
    exact ⟨color, spells_iff.mpr ⟨value, reads, stands⟩⟩

/-! ## Reading -/

def unsigned : List Char → List Char
  | '+' :: digits => digits
  | digits => digits

theorem ofHex?_eq (text : String) : ofHex? text =
    (Text.hexNumber? (unsigned (unmarked text.toList))).bind fun value =>
      ofNumber? value (String.ofList (unmarked text.toList)).utf8ByteSize := rfl

theorem hexNumber?_eq_some_iff {digits : List Char} {value : Nat} :
    Text.hexNumber? digits = some value ↔
      digits ≠ [] ∧ digits.foldlM Text.digitBehind 0 = some value := by
  cases digits with
  | nil => simp [Text.hexNumber?]
  | cons c more => exact ⟨fun reads => ⟨nofun, reads⟩, And.right⟩

theorem read_unsigned {digits : List Char} {color : Color} :
    ((Text.hexNumber? digits).bind fun value =>
      ofNumber? value (String.ofList digits).utf8ByteSize) = some color ↔ Spells digits color := by
  rw [Option.bind_eq_some_iff, spells_iff]
  constructor
  · rintro ⟨value, reads, stands⟩
    have reads := (hexNumber?_eq_some_iff.mp reads).2
    rw [Text.utf8ByteSize_digits (Text.exists_foldlM_iff.mp ⟨value, reads⟩)] at stands
    exact ⟨value, reads, stands⟩
  · rintro ⟨value, reads, stands⟩
    have some : digits ≠ [] := by
      rintro rfl
      cases stands
    rw [← Text.utf8ByteSize_digits (Text.exists_foldlM_iff.mp ⟨value, reads⟩)] at stands
    exact ⟨value, hexNumber?_eq_some_iff.mpr ⟨some, reads⟩, stands⟩

/-- A plus sign has the size and the value of a zero. -/
theorem read_signed {digits : List Char} {color : Color} :
    ((Text.hexNumber? digits).bind fun value =>
      ofNumber? value (String.ofList ('+' :: digits)).utf8ByteSize) = some color ↔
      Spells ('0' :: digits) color := by
  rw [← read_unsigned]
  have size : (String.ofList ('+' :: digits)).utf8ByteSize =
      (String.ofList ('0' :: digits)).utf8ByteSize := by
    rw [Text.utf8ByteSize_cons, Text.utf8ByteSize_cons]
    rfl
  rw [size]
  cases digits with
  -- Neither a plus sign nor a zero is long enough by itself, though only the zero has a value.
  | nil =>
    have one : (String.ofList ['0']).utf8ByteSize = 1 := by decide
    rw [one]
    exact ⟨nofun, nofun⟩
  | cons c more => rfl

theorem ofHex?_eq_some_iff {text : String} {color : Color} : ofHex? text = some color ↔
    Spells (unmarked text.toList) color ∨
      ∃ digits, unmarked text.toList = '+' :: digits ∧ Spells ('0' :: digits) color := by
  rw [ofHex?_eq]
  generalize unmarked text.toList = body
  unfold unsigned
  split
  · next digits =>
    have signed : ¬ Spells ('+' :: digits) color := by
      intro spells
      obtain ⟨-, all⟩ := exists_spells_iff.mp ⟨color, spells⟩
      exact absurd (all '+' List.mem_cons_self) (by decide)
    simp only [read_signed, signed, false_or, List.cons.injEq, true_and, exists_eq_left']
  · next other =>
    rw [read_unsigned, or_iff_left]
    rintro ⟨digits, same, -⟩
    exact other digits same

/-! ## Writing -/

theorem hexText_digits : ∀ n : Fin 256,
    (((Nat.toDigits 16 n.val).map Char.toUpper).leftpad 2 '0').map some =
      [Text.capitalDigits[n.val / 16]?, Text.capitalDigits[n.val % 16]?] := by
  decide +kernel

theorem pairs_hexText (channel : UInt8) {more : List Char} {bytes : List UInt8}
    (pairs : Pairs more bytes) : Pairs ((hexText channel).toList ++ more) (channel :: bytes) := by
  have digits := hexText_digits ⟨channel.toNat, channel.toNat_lt⟩
  rw [hexText, String.toList_ofList]
  obtain ⟨high, rest, same, first, digits⟩ := List.map_eq_cons_iff.mp digits
  obtain ⟨low, _, rfl, second, none⟩ := List.map_eq_cons_iff.mp digits
  rw [List.map_eq_nil_iff.mp none] at same
  rw [same]
  exact .cons (.inr first.symm) (.inr second.symm) (Nat.div_add_mod' ..).symm pairs

theorem ofHex?_text (color : Color) : ofHex? color.text = some color := by
  rw [ofHex?_eq_some_iff]
  have marked : unmarked color.text.toList = (hexText color.alpha).toList ++
      ((hexText color.red).toList ++ ((hexText color.green).toList ++
        ((hexText color.blue).toList ++ []))) := by
    simp [text, unmarked]
  rw [marked]
  exact .inl (.withAlpha (pairs_hexText _ (pairs_hexText _ (pairs_hexText _ (pairs_hexText _ .nil)))))

end Color

/-! ## Settings -/

theorem Settings.problem?_eq_none_iff (settings : Settings) : settings.problem? = none ↔
    (Playback.Options.isPlayable settings.speed ∧ settings.coarseStep ≠ 0 ∧
      settings.screenWidth ≠ 0 ∧ settings.screenHeight ≠ 0) ∧
    ∃ color, Color.ofHex? settings.probe = some color := by
  unfold Settings.problem? Settings.probeColor?
  cases Playback.Options.isPlayable settings.speed with
  | false => simp
  | true =>
    by_cases step : settings.coarseStep = 0
    · simp [step]
    by_cases width : settings.screenWidth = 0
    · simp [step, width]
    by_cases height : settings.screenHeight = 0
    · simp [step, height]
    cases Color.ofHex? settings.probe <;> simp [step, width, height]

/-- A text is read as a colour if it is one or no mark with six or eight digits of either case behind
it; the digits in pairs are the channels, the first of eight being the alpha channel. It is read
besides if there is a plus sign in the place of the first digit, and the colour is then that of a
zero. What is written for a colour is read as that colour. Settings are accepted, if nothing else is
wrong with them, exactly if the colour in them is read. -/
theorem Color.ofHex?_reads (text : String) (color : Color) (settings : Settings) :
    let digits := unmarked text.toList
    (ofHex? text = some color ↔ Spells digits color ∨
      ∃ more, digits = '+' :: more ∧ Spells ('0' :: more) color) ∧
    ((∃ spelled, Spells digits spelled) ↔ (digits.length = 6 ∨ digits.length = 8) ∧
      ∀ c ∈ digits, c ∈ Text.smallDigits ∨ c ∈ Text.capitalDigits) ∧
    ofHex? color.text = some color ∧
    (settings.problem? = none ↔
      (Playback.Options.isPlayable settings.speed ∧ settings.coarseStep ≠ 0 ∧
        settings.screenWidth ≠ 0 ∧ settings.screenHeight ≠ 0) ∧
      ∃ probe, ofHex? settings.probe = some probe) := by
  intro digits
  exact ⟨ofHex?_eq_some_iff, exists_spells_iff, ofHex?_text color, settings.problem?_eq_none_iff⟩

/-- Five digits behind a plus sign spell no colour, but one is read, and settings with it are
accepted. -/
theorem Color.ofHex?_plus :
    (¬ ∃ color, Color.Spells (Color.unmarked "+12345".toList) color) ∧
    Color.ofHex? "+12345" = some ⟨255, 0x01, 0x23, 0x45⟩ ∧
    ({ Settings.default with probe := "+12345" } : Settings).problem? = none := by
  have body : unmarked "+12345".toList = ['+', '1', '2', '3', '4', '5'] := by decide
  refine ⟨?_, by decide, by decide⟩
  rw [body, exists_spells_iff]
  rintro ⟨-, all⟩
  exact absurd (all '+' List.mem_cons_self) (by decide)

end InputTape
