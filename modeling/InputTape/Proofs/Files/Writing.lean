import InputTape.Proofs.Files.Directories
import InputTape.Proofs.Script.Readers

/-! Files that are written.

A path is walked piece by piece. A file that is written stands where its path is walked to but for the
last piece, which is its name; so the same path leads to it afterwards, and no other file changes.
Pieces that name no step can be left out of a walk.
-/

set_option autoImplicit false

namespace InputTape.FileTree

open Script (bind_eq_ok)

/-! ## Walks -/

structure IsName (piece : List Char) : Prop where
  busy : FilePath.isIdle piece = false
  down : piece ≠ ['.', '.']
  short : (String.ofList piece).utf8ByteSize ≤ longestName

inductive Leads (tree : FileTree) (location : Location) : List Char → Location → Prop where
  | idle {piece : List Char} : FilePath.isIdle piece = true → Leads tree location piece location
  | up : Leads tree location ['.', '.'] location.dropLast
  | name {piece : List Char} : IsName piece →
      tree.exists? (location ++ [String.ofList piece]) = true →
      Leads tree location piece (location ++ [String.ofList piece])

inductive Walks (tree : FileTree) : Location → List (List Char) → Location → Prop where
  | done {location : Location} : Walks tree location [] location
  | step {first next last : Location} {piece : List Char} {more : List (List Char)} :
      tree.isDirectory first = true → Leads tree first piece next → Walks tree next more last →
      Walks tree first (piece :: more) last

section

variable {tree : FileTree} {current location first next last : Location} {path : FilePath}
  {piece : List Char} {pieces before : List (List Char)}

theorem step_eq_ok : tree.step location piece = .ok next ↔
    tree.isDirectory location = true ∧ tree.Leads location piece next := by
  unfold step
  cases lies : tree.isDirectory location with
  | false => simp
  | true =>
    simp only [Bool.not_true, Bool.false_eq_true, if_false, true_and]
    -- A piece leads nowhere, up, or to a name; each is tried in that order.
    constructor
    · intro leads
      split at leads
      · next idle =>
        cases leads
        exact .idle idle
      split at leads
      · next up =>
        cases leads
        exact beq_iff_eq.mp up ▸ .up
      split at leads
      · cases leads
      split at leads
      · next busy down long found =>
        cases leads
        exact .name ⟨Bool.not_eq_true _ ▸ busy, fun up => down (beq_iff_eq.mpr up), Nat.le_of_not_lt long⟩
          found
      · cases leads
    · rintro (idle | _ | ⟨named, found⟩)
      · rw [if_pos idle]
      · rfl
      · rw [named.busy, if_neg Bool.false_ne_true, if_neg (by simpa using named.down),
          if_neg (Nat.not_lt.mpr named.short), found]
        rfl

theorem foldlM_step_eq_ok : pieces.foldlM tree.step first = .ok last ↔
    tree.Walks first pieces last := by
  induction pieces generalizing first with
  | nil =>
    constructor
    · rintro ⟨⟩
      exact .done
    · rintro ⟨⟩
      rfl
  | cons piece more ih =>
    simp only [List.foldlM_cons, bind_eq_ok, step_eq_ok, ih]
    constructor
    · rintro ⟨next, ⟨lies, leads⟩, rest⟩
      exact .step lies leads rest
    · rintro ⟨⟩
      next next lies leads rest => exact ⟨next, ⟨lies, leads⟩, rest⟩

theorem Walks.unique {other : Location} (one : tree.Walks first pieces last)
    (two : tree.Walks first pieces other) : last = other := by
  have ends := foldlM_step_eq_ok.mpr one
  rw [foldlM_step_eq_ok.mpr two] at ends
  exact (Except.ok.inj ends).symm

theorem walks_append : tree.Walks first (before ++ pieces) last ↔
    ∃ between, tree.Walks first before between ∧ tree.Walks between pieces last := by
  simp only [← foldlM_step_eq_ok, List.foldlM_append, bind_eq_ok]

theorem walks_singleton : tree.Walks first [piece] last ↔
    tree.isDirectory first = true ∧ tree.Leads first piece last := by
  rw [← foldlM_step_eq_ok, ← step_eq_ok, List.foldlM_cons]
  exact ⟨fun leads => by simpa using leads, fun leads => by simpa using leads⟩

theorem Walks.busy (walks : tree.Walks first pieces last) :
    tree.Walks first (pieces.filter (!FilePath.isIdle ·)) last := by
  induction walks with
  | done => exact .done
  | @step first next last piece more lies leads rest ih =>
    cases leads with
    | idle idle =>
      rw [List.filter_cons_of_neg (by simp [idle])]
      exact ih
    | up => exact .step lies .up ih
    | name named found =>
      rw [List.filter_cons_of_pos (by simp [named.busy])]
      exact .step lies (.name named found) ih

theorem Walks.down (walks : tree.Walks first pieces last) (down : ['.', '.'] ∉ pieces) :
    last = first ++ (pieces.filter (!FilePath.isIdle ·)).map String.ofList := by
  induction walks with
  | done => simp
  | @step first next last piece more lies leads rest ih =>
    obtain ⟨here, later⟩ := not_or.mp (List.mem_cons.not.mp down)
    rw [ih later]
    cases leads with
    | idle idle => rw [List.filter_cons_of_neg (by simp [idle])]
    | up => exact absurd rfl here
    | name named found =>
      rw [List.filter_cons_of_pos (by simp [named.busy]), List.map_cons, List.append_assoc]
      rfl

theorem locate_eq_ok : tree.locate current path = .ok location ↔
    ∃ first, start current path = .ok first ∧
      tree.Walks first (FilePath.pieces path.toList) location := by
  simp only [locate, bind_eq_ok, foldlM_step_eq_ok]

/-! ## Places -/

inductive Takes (tree : FileTree) (first : Location) : List (List Char) → Location → Prop where
  | name {before : List (List Char)} {directory : Location} {name : List Char} : IsName name →
      tree.Walks first before directory → tree.isDirectory directory = true →
      tree.isDirectory (directory ++ [String.ofList name]) = false →
      Takes tree first (before ++ [name]) (directory ++ [String.ofList name])

theorem locateForWriting_ok (found : tree.locateForWriting current path = .ok location) :
    ∃ first, start current path = .ok first ∧
      tree.Takes first (FilePath.pieces path.toList) location := by
  obtain ⟨before, name, cut⟩ :=
    (List.eq_nil_or_concat (FilePath.pieces path.toList)).resolve_left (FilePath.pieces_ne_nil _)
  rw [List.concat_eq_append] at cut
  unfold locateForWriting at found
  rw [cut]
  simp only [cut, bind_eq_ok, foldlM_step_eq_ok] at found
  obtain ⟨first, starts, directory, walks, found⟩ := found
  refine ⟨first, starts, ?_⟩
  split at found
  · cases found
  next lies =>
  split at found
  · cases found
  next solid =>
  split at found
  · cases found
  next short =>
  split at found
  · cases found
  next free =>
  cases found
  cases name with
  -- Behind a slash at the end there is nothing, and the pieces in front are too few.
  | nil =>
    have few := (List.dropWhile_sublist (List.isEmpty (α := Char)) (l := before.reverse)).length_le
    simp only [List.reverse_append, List.reverse_singleton, List.singleton_append,
      List.dropWhile_cons, List.isEmpty_nil, if_true, List.length_reverse, List.length_append,
      List.length_singleton] at few solid
    exact absurd (by simp [Nat.lt_succ_of_le few]) solid
  | cons c rest =>
    have whole : ((before ++ [c :: rest]).reverse.dropWhile List.isEmpty).reverse =
        before ++ [c :: rest] := by simp
    simp only [whole, List.dropLast_concat] at walks
    simp only [whole, List.getLast?_concat, Option.getD_some] at solid short free ⊢
    simp only [Bool.or_eq_true, decide_eq_true_eq, beq_iff_eq, not_or] at solid
    refine .name ⟨?_, solid.2, Nat.le_of_not_lt short⟩ walks (by simpa using lies)
      (Bool.not_eq_true _ ▸ free)
    simpa [FilePath.isIdle] using solid.1.2

/-! ## Files -/

section

variable {place other : Location} {content : ByteArray}

theorem content?_put : (tree.put place content).content? place = some content :=
  List.lookup_cons_self

theorem content?_put_of_ne (differs : other ≠ place) :
    (tree.put place content).content? other = tree.content? other := by
  unfold content? put
  rw [List.lookup_cons, beq_false_of_ne differs]
  simp only
  induction tree.files with
  | nil => rfl
  | cons file more ih =>
    by_cases here : file.1 = place
    · rw [List.filter_cons_of_neg (by simp [here]), ih, List.lookup_cons,
        beq_false_of_ne (here ▸ differs)]
    · rw [List.filter_cons_of_pos (by simp [here]), List.lookup_cons, List.lookup_cons, ih]

theorem isDirectory_put : (tree.put place content).isDirectory location = tree.isDirectory location :=
  rfl

theorem exists?_put (found : tree.exists? location = true) :
    (tree.put place content).exists? location = true := by
  unfold exists? at found ⊢
  by_cases here : location = place
  · rw [here, content?_put]
    simp
  · rw [content?_put_of_ne here, isDirectory_put]
    exact found

/-- One more file hides no way. -/
theorem Walks.put (walks : tree.Walks first pieces last) :
    (tree.put place content).Walks first pieces last := by
  induction walks with
  | done => exact .done
  | step lies leads _ ih =>
    refine .step lies ?_ ih
    cases leads with
    | idle idle => exact .idle idle
    | up => exact .up
    | name named found => exact .name named (exists?_put found)

theorem Takes.walks (takes : tree.Takes first pieces location) :
    (tree.put location content).Walks first pieces location := by
  cases takes with
  | @name before directory name named below lies free =>
    refine walks_append.mpr ⟨directory, below.put, walks_singleton.mpr ⟨lies, .name named ?_⟩⟩
    simp [exists?, content?_put]

theorem write_ok {after : FileTree} (wrote : tree.write current path content = .ok after) :
    ∃ location, tree.locateForWriting current path = .ok location ∧
      after = tree.put location content := by
  obtain ⟨location, found, put⟩ := bind_eq_ok.mp wrote
  exact ⟨location, found, (Except.ok.inj put).symm⟩

theorem locate_put (found : tree.locateForWriting current path = .ok location) :
    (tree.put location content).locate current path = .ok location := by
  obtain ⟨first, starts, takes⟩ := locateForWriting_ok found
  exact locate_eq_ok.mpr ⟨first, starts, takes.walks⟩

theorem read_eq_ok : tree.read current path = .ok content ↔
    ∃ location, tree.locate current path = .ok location ∧ tree.content? location = some content := by
  unfold FileTree.read
  rw [bind_eq_ok]
  refine exists_congr fun location => and_congr_right fun _ => ?_
  cases tree.content? location with
  | none => exact ⟨nofun, nofun⟩
  | some found =>
    exact ⟨fun same => congrArg some (Except.ok.inj same),
      fun same => congrArg Except.ok (Option.some.inj same)⟩

theorem fromUTF8?_eq_some {text : String} :
    String.fromUTF8? content = some text ↔ content = text.toUTF8 := by
  unfold String.fromUTF8?
  constructor
  · intro decoded
    split at decoded
    · cases decoded
      rfl
    · cases decoded
  · rintro rfl
    exact dif_pos text.isValidUTF8

theorem readText_eq_ok {text : String} : tree.readText current path = .ok text ↔
    tree.read current path = .ok text.toUTF8 := by
  unfold readText
  rw [bind_eq_ok]
  constructor
  · rintro ⟨content, read, decoded⟩
    cases found : String.fromUTF8? content with
    | none =>
      rw [found] at decoded
      cases decoded
    | some other =>
      rw [found] at decoded
      cases decoded
      rwa [← fromUTF8?_eq_some.mp found]
  · intro read
    refine ⟨_, read, ?_⟩
    rw [fromUTF8?_eq_some.mpr rfl]
    rfl

end

end

end InputTape.FileTree
