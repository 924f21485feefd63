import InputTape.Proofs.Script.Grammar
import InputTape.Proofs.Script.Tokens
import InputTape.Proofs.Text.Words
import InputTape.Script.Compilation

/-! The names that a script may give to labels.

A token of a word is a word, so the name in a label or goto statement is one, and it does not
begin like the label of a block.
-/

set_option autoImplicit false

namespace InputTape.Script

open Text (IsWord)

/-! ## Words among the tokens -/

def Token.IsSpelled (token : Token) : Prop := token.kind = .word → IsWord token.text

theorem isWordChar_of_isLetter {c : Char} (letter : isLetter c = true) : isWordChar c = true := by
  simp only [isLetter, isWordChar, Char.isAlphanum, Bool.or_eq_true] at letter ⊢
  rcases letter with letter | underscore
  · exact .inl (.inl letter)
  · exact .inr underscore

theorem readFrom_wordlike {first : Char} {rest text : List Char} {kind : TokenKind}
    (wordlike : kind.IsWordlike) (reading : (readFrom first rest).1 = .token kind text) :
    kind = wordKind text ∧ text ≠ [] ∧ ∀ c ∈ text, isWordChar c = true := by
  simp only [readFrom] at reading
  split at reading
  case h_16 =>
    split at reading
    · cases reading
      cases wordlike
    · split at reading
      · next letter =>
        cases reading
        refine ⟨rfl, List.cons_ne_nil _ _, List.forall_mem_cons.mpr ⟨?_, fun c member => ?_⟩⟩
        · exact isWordChar_of_isLetter letter
        · exact List.all_eq_true.mp List.all_takeWhile c member
      · cases reading
        cases wordlike
  all_goals first
    | (cases reading; cases wordlike)
    | (split at reading <;> cases reading <;> cases wordlike)

theorem isSpelled_of_mem_items {text : String} {token : Token} (member : .token token ∈ items text) :
    token.IsSpelled := by
  intro isWord
  obtain ⟨first, rest, reading⟩ := read_of_mem_items member
  rw [isWord] at reading
  exact (@readFrom_wordlike _ _ _ .word trivial reading).2

theorem mem_of_mem_addItem_cons {item : Item} {first line : Line} {more : List Line} {token : Token}
    (member : line ∈ addItem item (first :: more)) (inside : token ∈ line.tokens) :
    .token token = item ∨ ∃ other ∈ first :: more, token ∈ other.tokens := by
  simp only [addItem] at member
  split at member
  · rcases List.mem_cons.mp member with rfl | member
    · exact .inr ⟨first, List.mem_cons_self, inside⟩
    · exact .inr ⟨line, List.mem_cons_of_mem _ member, inside⟩
  · split at member
    · rcases List.mem_cons.mp member with rfl | member
      · cases inside
      · exact .inr ⟨line, member, inside⟩
    · split at member
      · exact .inr ⟨line, member, inside⟩
      · rcases List.mem_cons.mp member with rfl | member
        · rcases List.mem_cons.mp inside with rfl | inside
          · exact .inl rfl
          · exact .inr ⟨first, List.mem_cons_self, inside⟩
        · exact .inr ⟨line, List.mem_cons_of_mem _ member, inside⟩

theorem mem_of_mem_addItem {item : Item} {found : List Line} {line : Line} {token : Token}
    (member : line ∈ addItem item found) (inside : token ∈ line.tokens) :
    .token token = item ∨ ∃ other ∈ found, token ∈ other.tokens := by
  cases found with
  | nil =>
    -- Without a line there is an empty one to add to.
    rcases @mem_of_mem_addItem_cons item Line.empty line [] token member inside with
      here | ⟨other, only, inside⟩
    · exact .inl here
    · rw [List.mem_singleton.mp only] at inside
      cases inside
  | cons first more => exact mem_of_mem_addItem_cons member inside

theorem mem_items_of_mem_lines {text : String} {line : Line} {token : Token}
    (member : line ∈ lines text) (inside : token ∈ line.tokens) : .token token ∈ items text := by
  have found : ∀ found : List Item, ∀ line ∈ found.foldr addItem [Line.empty],
      ∀ other ∈ line.tokens, .token other ∈ found := by
    intro found
    induction found with
    | nil =>
      intro line member other inside
      rw [List.foldr_nil, List.mem_singleton] at member
      subst member
      cases inside
    | cons item more ih =>
      intro line member other inside
      rcases mem_of_mem_addItem member inside with here | ⟨line, member, inside⟩
      · exact here ▸ List.mem_cons_self
      · exact List.mem_cons_of_mem _ (ih line member other inside)
  exact found (items text) line member token inside

theorem isSpelled_of_mem_lines {text : String} {line : Line} {token : Token}
    (member : line ∈ lines text) (inside : token ∈ line.tokens) : token.IsSpelled :=
  isSpelled_of_mem_items (mem_items_of_mem_lines member inside)

/-! ## Names in statements -/

def IsLabelName (name : String) : Prop := IsWord name ∧ isHidden name = false

def Statement.IsNamed : Statement → Prop
  | .label name | .goto name => IsLabelName name
  | _ => True

def Yields {ε α : Type} (wished : α → Prop) (result : Except ε α) : Prop :=
  ∀ value, result = .ok value → wished value

section Yields

variable {ε α β : Type} {wished : β → Prop}

theorem Yields.error {problem : ε} : Yields wished (.error problem : Except ε β) := nofun

theorem Yields.ok {value : β} (holds : wished value) : Yields wished (.ok value : Except ε β) := by
  rintro _ ⟨⟩
  exact holds

theorem Yields.bind {between : α → Prop} {first : Except ε α} {second : α → Except ε β}
    (yields : Yields between first) (next : ∀ value, between value → Yields wished (second value)) :
    Yields wished (first >>= second) := by
  cases first with
  | error problem => exact .error
  | ok value => exact next value (yields value rfl)

theorem Yields.behind {first : Except ε α} {second : α → Except ε β}
    (next : ∀ value, Yields wished (second value)) : Yields wished (first >>= second) := by
  have anything : Yields (fun _ => True) first := fun _ _ => trivial
  exact anything.bind fun value _ => next value

end Yields

theorem isNamed_ofDelay (parameters : List Parameter) :
    Yields Statement.IsNamed (Statement.ofDelay parameters) := by
  unfold Statement.ofDelay
  repeat' first | exact .ok trivial | exact .error | split

theorem isNamed_ofMouse (parameters : List Parameter) :
    Yields Statement.IsNamed (Statement.ofMouse parameters) := by
  unfold Statement.ofMouse
  repeat' first | exact .ok trivial | exact .error | refine .behind fun _ => ?_ | split

theorem isNamed_ofKey (parameters : List Parameter) :
    Yields Statement.IsNamed (Statement.ofKey parameters) := by
  unfold Statement.ofKey
  repeat' first | exact .ok trivial | exact .error | refine .behind fun _ => ?_ | split

theorem isNamed_ofScript (parameters : List Parameter) :
    Yields Statement.IsNamed (Statement.ofScript parameters) := by
  unfold Statement.ofScript
  repeat' first | exact .ok trivial | exact .error | refine .behind fun _ => ?_ | split

section Line

variable {line : Line} (spelled : ∀ token ∈ line.tokens, token.IsSpelled)

include spelled

theorem isLabelName_labelName (command : String) :
    Yields (fun read => IsLabelName read.1) ((labelName command).run line) := by
  obtain ⟨tokens, isUnterminated⟩ := line
  cases tokens with
  | nil => cases isUnterminated <;> exact .error
  | cons token more =>
    have isSpelled := spelled token List.mem_cons_self
    change Yields _ (StateT.run (if (token.kind != TokenKind.word) = true then _ else _) (_ : Line))
    split
    · exact .error
    · next word =>
      change Yields _ (StateT.run (if isHidden token.text = true then _ else _) (_ : Line))
      split
      · exact .error
      · next visible =>
        refine .ok ⟨isSpelled ?_, Bool.not_eq_true _ ▸ visible⟩
        simpa only [bne_iff_ne, ne_eq, Decidable.not_not] using word

theorem isNamed_read (token : Token) (keyword : Keyword) :
    Yields (fun read => read.1.IsNamed) ((Statement.read token keyword).run line) := by
  cases keyword with
  | delay => exact .behind fun _ => .bind (isNamed_ofDelay _) fun _ named => .ok named
  | mouse => exact .behind fun _ => .bind (isNamed_ofMouse _) fun _ named => .ok named
  | key => exact .behind fun _ => .bind (isNamed_ofKey _) fun _ named => .ok named
  | script => exact .behind fun _ => .bind (isNamed_ofScript _) fun _ named => .ok named
  | label | goto => exact .bind (isLabelName_labelName spelled _) fun _ named => .ok named
  | ifBlock | whileBlock => exact .behind fun _ => .ok trivial
  | exit | elseBlock | endIf | endWhile | leave => exact .ok trivial
  | pixelColor | rgb | argb | custom => exact .error

theorem isNamed_statement? :
    Yields (fun read => ∀ statement, read.1 = some statement → statement.IsNamed)
      (statement?.run line) := by
  obtain ⟨tokens, isUnterminated⟩ := line
  cases tokens with
  | nil =>
    cases isUnterminated with
    | false => exact .ok nofun
    | true => exact .error
  | cons token more =>
    have later : ∀ other ∈ more, other.IsSpelled := fun other member =>
      spelled other (List.mem_cons_of_mem _ member)
    obtain ⟨kind, text, number, column⟩ := token
    cases kind with
    | keyword keyword =>
      refine .bind (@isNamed_read ⟨more, isUnterminated⟩ later _ keyword) ?_
      rintro ⟨statement, rest⟩ named
      refine .ok ?_
      rintro _ ⟨⟩
      exact named
    | _ => exact .error

end Line

end InputTape.Script
