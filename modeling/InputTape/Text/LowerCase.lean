import InputTape.Text.CaseTable

/-! Lower case of whole texts.

Every letter goes to its lower-case form. Two letters need more than that: the capital
I with a dot becomes two characters, and the Greek capital sigma becomes a final sigma at the
end of a word.
-/

set_option autoImplicit false

namespace InputTape.Text

def inRanges (ranges : List (Nat × Nat)) (code : Nat) : Bool :=
  ranges.any fun range => range.1 ≤ code && code ≤ range.2

def CaseRange.covers (range : CaseRange) (code : Nat) : Bool :=
  range.first ≤ code && code ≤ range.last && (code - range.first) % range.step == 0

def isCased (c : Char) : Bool := inRanges casedRanges c.toNat

def isCaselessMark (c : Char) : Bool := inRanges caselessMarkRanges c.toNat

def lowerChar (c : Char) : Char :=
  if c.toNat < 0x80 then c.toLower
  else match lowerRanges.find? (·.covers c.toNat) with
    | some range => Char.ofNat (c.toNat + range.shift).toNat
    | none => c

def startsCased (text : List Char) : Bool :=
  match text.dropWhile isCaselessMark with
  | c :: _ => isCased c
  | [] => false

/-- The lower-case form of a character between what stands before it, nearest first, and what
follows it. -/
def lowerIn (before : List Char) (c : Char) (after : List Char) : List Char :=
  if c == 'Σ' then [if startsCased before && !startsCased after then 'ς' else 'σ']
  else if c == 'İ' then ['i', '\u0307']
  else [lowerChar c]

def lowerFrom (before : List Char) : List Char → List Char
  | [] => []
  | c :: after => lowerIn before c after ++ lowerFrom (c :: before) after

/-- The text in lower case. Names are compared in this form. -/
def lower (text : String) : String := String.ofList (lowerFrom [] text.toList)

end InputTape.Text
