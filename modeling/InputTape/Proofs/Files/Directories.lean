import Mathlib.Data.List.DropRight
import InputTape.SequenceFile

/-! Directories of files.

A path is the slash or dot that opens it and the steps behind that. Joining and cutting are done on
text, but the steps go with it: those of a file's directory are all but the last of the file. So the
directory of a file below a base is, step by step, what the directory of the file itself is below the
base. Only a path without steps has no such directory, and no file can be read from one.
-/

set_option autoImplicit false

namespace InputTape

namespace FilePath

/-! ## Pieces -/

section

variable {text : List Char}

theorem pieces_slash (text : List Char) : pieces ('/' :: text) = [] :: pieces text := rfl

theorem pieces_ne_nil (text : List Char) : pieces text ≠ [] := by
  cases text with
  | nil => simp [pieces]
  | cons c rest =>
    unfold pieces
    split
    · simp
    · split <;> simp

theorem pieces_cons {c : Char} (solid : c ≠ '/') (text : List Char) :
    ∃ piece more, pieces text = piece :: more ∧ pieces (c :: text) = (c :: piece) :: more := by
  obtain ⟨piece, more, here⟩ := List.exists_cons_of_ne_nil (pieces_ne_nil text)
  exact ⟨piece, more, here, by simp [pieces, solid, here]⟩

theorem pieces_append_slash (before after : List Char) :
    pieces (before ++ '/' :: after) = pieces before ++ pieces after := by
  induction before with
  | nil => rfl
  | cons c rest ih =>
    by_cases slash : c = '/'
    · subst slash
      rw [List.cons_append, pieces_slash, pieces_slash, ih, List.cons_append]
    · obtain ⟨piece, more, same, here⟩ := pieces_cons slash rest
      obtain ⟨_, _, joined, there⟩ := pieces_cons slash (rest ++ '/' :: after)
      rw [ih, same, List.cons_append] at joined
      obtain ⟨rfl, rfl⟩ := List.cons.inj joined
      rw [List.cons_append, there, here, List.cons_append]

theorem slash_notMem_pieces {piece : List Char} (member : piece ∈ pieces text) : '/' ∉ piece := by
  induction text generalizing piece with
  | nil => simp_all [pieces]
  | cons c rest ih =>
    by_cases slash : c = '/'
    · subst slash
      rcases List.mem_cons.mp member with rfl | later
      · exact List.not_mem_nil
      · exact ih later
    · obtain ⟨first, more, same, here⟩ := pieces_cons slash rest
      rw [here] at member
      rw [same] at ih
      rcases List.mem_cons.mp member with rfl | later
      · simpa [Ne.symm slash] using ih List.mem_cons_self
      · exact ih (List.mem_cons_of_mem _ later)

theorem pieces_eq_cons {first : List Char} {more : List (List Char)}
    (cut : pieces text = first :: more) :
    text = first ∧ more = [] ∨ ∃ rest, text = first ++ '/' :: rest ∧ more = pieces rest := by
  induction text generalizing first with
  | nil =>
    obtain ⟨rfl, rfl⟩ := List.cons.inj cut
    exact .inl ⟨rfl, rfl⟩
  | cons c rest ih =>
    by_cases slash : c = '/'
    · subst slash
      obtain ⟨rfl, rfl⟩ := List.cons.inj cut
      exact .inr ⟨rest, rfl, rfl⟩
    · obtain ⟨piece, others, same, here⟩ := pieces_cons slash rest
      obtain ⟨rfl, rfl⟩ := List.cons.inj (here.symm.trans cut)
      rcases ih same with ⟨rfl, rfl⟩ | ⟨later, rfl, rfl⟩
      · exact .inl ⟨rfl, rfl⟩
      · exact .inr ⟨later, rfl, rfl⟩

theorem pieces_of_notMem (solid : '/' ∉ text) : pieces text = [text] := by
  induction text with
  | nil => rfl
  | cons c rest ih =>
    obtain ⟨here, later⟩ := not_or.mp (List.mem_cons.not.mp solid)
    obtain ⟨_, _, same, result⟩ := pieces_cons (Ne.symm here) rest
    rw [ih later] at same
    obtain ⟨rfl, rfl⟩ := List.cons.inj same
    exact result

theorem pieces_intercalate {first : List Char} {more : List (List Char)}
    (solid : ∀ piece ∈ first :: more, '/' ∉ piece) :
    pieces (List.intercalate ['/'] (first :: more)) = first :: more := by
  induction more generalizing first with
  | nil => simpa using pieces_of_notMem (solid first List.mem_cons_self)
  | cons second more ih =>
    obtain ⟨here, later⟩ := List.forall_mem_cons.mp solid
    rw [List.intercalate_cons_cons, List.append_assoc, List.singleton_append, pieces_append_slash,
      pieces_of_notMem here, ih later, List.singleton_append]

end

/-! ## Steps -/

def lead (path : FilePath) : List Char := (opening path).1

def steps (path : FilePath) : List (List Char) := (opening path).2.filter (!isIdle ·)

theorem lead_eq_root (path : FilePath) : lead path = ['/'] ↔ isAbsolute path = true := by
  unfold lead opening isAbsolute
  split
  · next text => simp [text]
  · next text =>
    rw [text]
    split <;> simp
  · next none _ =>
    have relative : path.toList.head? ≠ some '/' := fun first => by
      obtain ⟨rest, slash⟩ := List.head?_eq_some_iff.mp first
      exact none rest slash
    simp [relative]

theorem same_of_steps {left right : FilePath} (opens : lead left = lead right)
    (alike : steps left = steps right) : same left right = true := by
  unfold same components
  simp only [lead, steps] at opens alike
  simp only [opens, alike, beq_self_eq_true]

inductive Opens : List Char → List Char → Prop where
  | root {first : List Char} : Opens ['/'] first
  | here : Opens ['.'] []
  | bare {first : List Char} : isIdle first = false → Opens [] first

theorem opening_root (rest : List Char) :
    opening (String.ofList ('/' :: rest)) = (['/'], pieces rest) := by
  simp [opening]

theorem opening_here : opening "." = (['.'], [[]]) := by decide

theorem opening_here_slash (rest : List Char) :
    opening (String.ofList ('.' :: '/' :: rest)) = (['.'], [] :: pieces rest) := by
  simp [opening, pieces_slash]

theorem opening_bare {text first : List Char} {more : List (List Char)}
    (cut : pieces text = first :: more) (solid : isIdle first = false) :
    opening (String.ofList text) = ([], first :: more) := by
  unfold opening
  rw [String.toList_ofList]
  split
  · rw [pieces_slash] at cut
    obtain ⟨rfl, -⟩ := List.cons.inj cut
    cases solid
  · next rest =>
    split
    · next idle =>
      cases rest with
      | nil =>
        obtain ⟨rfl, -⟩ := List.cons.inj (show [['.']] = first :: more from cut)
        cases solid
      | cons c rest =>
        obtain rfl : c = '/' := by simpa using idle
        obtain ⟨rfl, -⟩ := List.cons.inj (show ['.'] :: pieces rest = first :: more from cut)
        cases solid
    · rw [cut]
  · rw [cut]

theorem text_cases (text : List Char) : text = [] ∨ (∃ rest, text = '/' :: rest) ∨ text = ['.'] ∨
    (∃ rest, text = '.' :: '/' :: rest) ∨
    ∃ first more, pieces text = first :: more ∧ isIdle first = false := by
  obtain ⟨first, more, cut⟩ := List.exists_cons_of_ne_nil (pieces_ne_nil text)
  by_cases idle : isIdle first = false
  · exact .inr (.inr (.inr (.inr ⟨first, more, cut, idle⟩)))
  · have none : first = [] ∨ first = ['.'] := by simpa [isIdle, or_iff_not_imp_left] using idle
    rcases none with rfl | rfl <;> rcases pieces_eq_cons cut with ⟨rfl, -⟩ | ⟨rest, rfl, -⟩
    · exact .inl rfl
    · exact .inr (.inl ⟨rest, rfl⟩)
    · exact .inr (.inr (.inl rfl))
    · exact .inr (.inr (.inr (.inl ⟨rest, rfl⟩)))

theorem opening_cases (path : FilePath) : path = "" ∨
    ∃ opened first more, opening path = (opened, first :: more) ∧ Opens opened first ∧
      ∀ piece ∈ first :: more, '/' ∉ piece := by
  have solid (text : List Char) : ∀ piece ∈ pieces text, '/' ∉ piece := fun _ =>
    slash_notMem_pieces
  obtain ⟨text, rfl⟩ : ∃ text, path = String.ofList text :=
    ⟨path.toList, String.ofList_toList.symm⟩
  rcases text_cases text with rfl | ⟨rest, rfl⟩ | rfl | ⟨rest, rfl⟩ | ⟨first, more, cut, idle⟩
  · exact .inl rfl
  · obtain ⟨first, more, behind⟩ := List.exists_cons_of_ne_nil (pieces_ne_nil rest)
    rw [opening_root, behind]
    exact .inr ⟨_, _, _, rfl, .root, behind ▸ solid rest⟩
  · exact .inr ⟨_, _, _, opening_here, .here, by simp⟩
  · rw [opening_here_slash]
    exact .inr ⟨_, _, _, rfl, .here, List.forall_mem_cons.mpr ⟨List.not_mem_nil, solid rest⟩⟩
  · rw [opening_bare cut idle]
    exact .inr ⟨_, _, _, rfl, .bare idle, cut ▸ solid text⟩

theorem opening_fromPieces {opened first : List Char} {more : List (List Char)}
    (opens : Opens opened first) (solid : ∀ piece ∈ first :: more, '/' ∉ piece) :
    opening (fromPieces opened (first :: more)) = (opened, first :: more) := by
  have again := pieces_intercalate solid
  unfold fromPieces
  cases opens with
  | root =>
    rw [List.singleton_append, opening_root, again]
  | bare idle => exact opening_bare again idle
  | here =>
    cases more with
    | nil => exact opening_here
    | cons second more =>
      rw [List.intercalate_cons_cons] at again ⊢
      exact (opening_here_slash _).trans (Prod.ext rfl again)

theorem opening_alone {opened first : List Char} (opens : Opens opened first) :
    opening (fromPieces opened []) = (opened, [[]]) := by
  cases opens with
  | root => exact opening_root []
  | here => exact opening_here
  | bare => rfl

theorem steps_ofList (text : List Char) :
    steps (String.ofList text) = (pieces text).filter (!isIdle ·) := by
  rcases text_cases text with rfl | ⟨rest, rfl⟩ | rfl | ⟨rest, rfl⟩ | ⟨first, more, cut, idle⟩
  · rfl
  · rw [steps, opening_root, pieces_slash]
    rfl
  · rfl
  · rw [steps, opening_here_slash]
    rfl
  · rw [steps, opening_bare cut idle, cut]

/-! ## Joined paths -/

theorem join_of_isAbsolute {path : FilePath} (absolute : isAbsolute path = true)
    (directory : FilePath) : join directory path = path := if_pos absolute

/-- The text of a directory as it stands before a path in it. -/
def front (directory : FilePath) : List Char :=
  if directory == "" || directory.toList.getLast? == some '/' then directory.toList
  else directory.toList ++ ['/']

theorem join_eq (directory path : FilePath) : join directory path =
    if isAbsolute path then path else String.ofList (front directory ++ path.toList) := by
  rw [← String.toList_inj]
  unfold join front
  split
  · rfl
  · split <;> simp

theorem toList_join (directory : FilePath) {path : FilePath} (relative : isAbsolute path = false) :
    (join directory path).toList = front directory ++ path.toList := by
  rw [join_eq, relative, if_neg Bool.false_ne_true, String.toList_ofList]

theorem front_empty : front "" = [] := rfl

theorem empty_join (path : FilePath) : join "" path = path := by
  cases relative : isAbsolute path with
  | true => exact join_of_isAbsolute relative ""
  | false =>
    rw [← String.toList_inj, toList_join "" relative, front_empty, List.nil_append]

/-- One slash stands behind a directory, which may be its own. -/
theorem front_eq {directory : FilePath} (some : directory ≠ "") :
    ∃ text, front directory = text ++ ['/'] ∧
      (directory = String.ofList text ∨ directory = String.ofList (text ++ ['/'])) := by
  unfold front
  simp only [some, beq_iff_eq, Bool.or_eq_true, false_or]
  split
  · next ends =>
    obtain ⟨text, same⟩ := List.getLast?_eq_some_iff.mp ends
    exact ⟨text, same, .inr (by rw [← same, String.ofList_toList])⟩
  · exact ⟨directory.toList, rfl, .inl String.ofList_toList.symm⟩

theorem isAbsolute_join (directory path : FilePath) :
    isAbsolute (join directory path) = (isAbsolute path || isAbsolute directory) := by
  cases relative : isAbsolute path with
  | true => rw [join_of_isAbsolute relative, relative, Bool.true_or]
  | false =>
    rw [Bool.false_or, isAbsolute, toList_join directory relative]
    by_cases none : directory = ""
    · subst none
      exact relative
    · obtain ⟨text, same, rfl | rfl⟩ := front_eq none <;> rw [same]
      · cases text with
        | nil => exact absurd rfl none
        | cons c rest => simp [isAbsolute]
      · cases text <;> simp [isAbsolute]

theorem front_join (base : FilePath) {directory : FilePath}
    (relative : isAbsolute directory = false) :
    front (join base directory) = front base ++ front directory := by
  by_cases none : directory = ""
  · subst none
    have text := toList_join base relative
    rw [String.toList_empty, List.append_nil] at text
    by_cases none : base = ""
    · subst none
      rfl
    · obtain ⟨_, same, -⟩ := front_eq none
      simp [front_empty, front.eq_1 (base.join ""), text, same]
  · have text := toList_join base relative
    obtain ⟨before, last, ends⟩ := List.eq_nil_or_concat directory.toList |>.resolve_left (by simpa)
    rw [List.concat_eq_append] at ends
    rw [ends, ← List.append_assoc] at text
    have some : join base directory ≠ "" := by
      intro empty
      simp [empty] at text
    rw [front.eq_1 (join base directory), front.eq_1 directory]
    by_cases slash : last = '/' <;> simp [none, some, ends, text, slash]

theorem join_assoc (base directory path : FilePath) :
    (base.join directory).join path = base.join (directory.join path) := by
  cases relative : isAbsolute path with
  | true => simp only [join_of_isAbsolute relative]
  | false =>
    have lies := isAbsolute_join directory path
    rw [relative, Bool.false_or] at lies
    cases below : isAbsolute directory with
    | true => rw [join_of_isAbsolute below, join_of_isAbsolute (lies.trans below)]
    | false =>
      rw [← String.toList_inj, toList_join _ relative, toList_join base (lies.trans below),
        toList_join directory relative, front_join base below, List.append_assoc]

theorem lead_append_slash {text : List Char} (some : text ≠ []) (behind : List Char) :
    lead (String.ofList (text ++ '/' :: behind)) = lead (String.ofList text) := by
  rcases text_cases text with rfl | ⟨rest, rfl⟩ | rfl | ⟨rest, rfl⟩ | ⟨first, more, cut, idle⟩
  · exact absurd rfl some
  · rw [lead, lead, List.cons_append, opening_root, opening_root]
  · rw [lead, List.singleton_append, opening_here_slash]
    exact (congrArg Prod.fst opening_here).symm
  · rw [lead, lead, List.cons_append, List.cons_append, opening_here_slash, opening_here_slash]
  · have whole : pieces (text ++ '/' :: behind) = first :: (more ++ pieces behind) := by
      rw [pieces_append_slash, cut, List.cons_append]
    rw [lead, opening_bare whole idle, lead, opening_bare cut idle]

theorem exists_join_eq {base path : FilePath} (some : base ≠ "")
    (relative : isAbsolute path = false) :
    ∃ text, join base path = String.ofList (text ++ '/' :: path.toList) ∧
      (base = String.ofList text ∨ base = String.ofList (text ++ ['/'])) := by
  obtain ⟨text, before, alike⟩ := front_eq some
  refine ⟨text, ?_, alike⟩
  rw [← String.toList_inj, toList_join base relative, before]
  simp

theorem lead_join {base path : FilePath} (some : base ≠ "") (relative : isAbsolute path = false) :
    lead (join base path) = lead base := by
  obtain ⟨text, joined, alike⟩ := exists_join_eq some relative
  rw [joined]
  rcases alike with rfl | rfl
  · exact lead_append_slash (fun none => some (by rw [none])) _
  · cases text with
    | nil => simp only [List.nil_append, lead, opening_root]
    | cons c rest =>
      rw [lead_append_slash (List.cons_ne_nil c rest), lead_append_slash (List.cons_ne_nil c rest)]

theorem steps_join (base : FilePath) {path : FilePath} (relative : isAbsolute path = false) :
    steps (join base path) = steps base ++ steps path := by
  by_cases none : base = ""
  · subst none
    rw [empty_join]
    rfl
  · obtain ⟨text, joined, alike⟩ := exists_join_eq none relative
    have behind : steps path = (pieces path.toList).filter (!isIdle ·) := by
      rw [← steps_ofList, String.ofList_toList]
    have ahead : steps base = (pieces text).filter (!isIdle ·) := by
      rcases alike with rfl | rfl
      · exact steps_ofList text
      · rw [steps_ofList, pieces_append_slash, List.filter_append]
        exact List.append_nil _
    rw [joined, steps_ofList, pieces_append_slash, List.filter_append, behind, ahead]

/-! ## Directories -/

theorem filter_trimIdle (names : List (List Char)) :
    (trimIdle names).filter (!isIdle ·) = names.filter (!isIdle ·) := by
  have idle : (names.rtakeWhile isIdle).filter (!isIdle ·) = [] := by
    rw [List.filter_eq_nil_iff]
    intro name member
    rw [List.mem_rtakeWhile_imp member]
    decide
  calc (trimIdle names).filter (!isIdle ·)
      = (names.rdropWhile isIdle ++ names.rtakeWhile isIdle).filter (!isIdle ·) := by
        rw [List.filter_append, idle, List.append_nil]
        rfl
    _ = names.filter (!isIdle ·) := by rw [List.rdropWhile_append_rtakeWhile]

theorem trimIdle_cases (names : List (List Char)) : names.filter (!isIdle ·) = [] ∨
    ∃ before name, trimIdle names = before ++ [name] ∧ isIdle name = false ∧
      before ++ [name] <+: names := by
  rcases List.eq_nil_or_concat (trimIdle names) with none | ⟨before, name, same⟩
  · rw [← filter_trimIdle, none]
    exact .inl rfl
  · rw [List.concat_eq_append] at same
    refine .inr ⟨before, name, same, ?_, same ▸ List.rdropWhile_prefix isIdle names⟩
    have busy := List.rdropWhile_last_not isIdle names
      (show trimIdle names ≠ [] by rw [same]; simp)
    change ¬ isIdle ((trimIdle names).getLast _) = true at busy
    simpa [same] using busy

end FilePath

namespace SequenceFile

open FilePath

theorem directory_opening {path : FilePath} (some : steps path ≠ []) :
    lead (directory path) = lead path ∧ steps (directory path) = (steps path).dropLast := by
  rcases opening_cases path with rfl | ⟨opened, first, more, here, opens, solid⟩
  · exact absurd rfl some
  simp only [steps, lead, here] at some ⊢
  rcases trimIdle_cases (first :: more) with none | ⟨before, name, trimmed, busy, within⟩
  · exact absurd none some
  have parent : directory path = fromPieces opened (trimIdle before) := by
    unfold directory parent?
    simp [here, trimmed]
  have remain : ((first :: more).filter (!isIdle ·)).dropLast =
      (trimIdle before).filter (!isIdle ·) := by
    rw [← filter_trimIdle, trimmed, List.filter_append, filter_trimIdle]
    simp [busy]
  rw [remain, parent]
  cases rest : trimIdle before with
  | nil =>
    rw [opening_alone opens]
    exact ⟨rfl, rfl⟩
  | cons other others =>
    have inside : other :: others <+: first :: more :=
      rest ▸ (List.rdropWhile_prefix isIdle before).trans
        ((List.prefix_append before [name]).trans within)
    obtain ⟨rfl, -⟩ := List.cons_prefix_cons.mp inside
    rw [opening_fromPieces opens fun piece member => solid piece (inside.subset member)]
    exact ⟨rfl, rfl⟩

/-- The directory of a file below a base is that of the file, below the base. -/
theorem same_join_directory (base : FilePath) {path : FilePath} (some : steps path ≠ []) :
    FilePath.same (base.join (directory path)) (directory (base.join path)) = true := by
  obtain ⟨opens, cut⟩ := directory_opening some
  cases relative : isAbsolute path with
  | true =>
    have above : isAbsolute (directory path) = true := by
      rw [← lead_eq_root, opens, lead_eq_root, relative]
    rw [join_of_isAbsolute relative, join_of_isAbsolute above]
    exact beq_self_eq_true _
  | false =>
    by_cases none : base = ""
    · subst none
      rw [empty_join, empty_join]
      exact beq_self_eq_true _
    have below : isAbsolute (directory path) = false := by
      rw [← relative, Bool.eq_iff_iff, ← lead_eq_root, ← lead_eq_root, opens]
    have joined := steps_join base relative
    obtain ⟨whole, last⟩ := @directory_opening (base.join path) (by simp [joined, some])
    apply same_of_steps
    · rw [lead_join none below, whole, lead_join none relative]
    · rw [steps_join base below, last, joined, cut, List.dropLast_append_of_ne_nil some]

end SequenceFile

/-! ## Files that are read -/

/-- No location is that of a directory and of a file. -/
def FileTree.IsSound (tree : FileTree) : Prop :=
  ∀ location, tree.isDirectory location = true → tree.content? location = none

section

variable {tree : FileTree} {current : FileTree.Location} {path : FilePath}

/-- A path that ends with no step can only lead to a directory. -/
theorem FileTree.isDirectory_of_idle {location : FileTree.Location} {before : List (List Char)}
    {last : List Char} (cut : FilePath.pieces path.toList = before ++ [last])
    (idle : FilePath.isIdle last = true) (found : tree.locate current path = .ok location) :
    tree.isDirectory location = true := by
  unfold locate at found
  cases begins : start current path with
  | error error =>
    rw [begins] at found
    cases found
  | ok first =>
    rw [begins, cut] at found
    change (before ++ [last]).foldlM tree.step first = .ok location at found
    rw [List.foldlM_append] at found
    cases way : before.foldlM tree.step first with
    | error error =>
      rw [way] at found
      cases found
    | ok place =>
      rw [way] at found
      change tree.step place last >>= pure = .ok location at found
      unfold step at found
      cases lies : tree.isDirectory place with
      | false =>
        rw [lies] at found
        cases found
      | true =>
        rw [lies, idle] at found
        cases found
        exact lies

theorem FilePath.exists_idle (base : FilePath) (none : steps path = []) :
    ∃ before last, pieces (base.join path).toList = before ++ [last] ∧ isIdle last = true := by
  obtain ⟨before, last, cut⟩ :=
    (List.eq_nil_or_concat (pieces path.toList)).resolve_left (pieces_ne_nil _)
  rw [List.concat_eq_append] at cut
  have idle : isIdle last = true := by
    have all : (pieces path.toList).filter (!isIdle ·) = [] := by
      rw [← steps_ofList, String.ofList_toList, none]
    simpa using List.filter_eq_nil_iff.mp all last (by simp [cut])
  cases relative : isAbsolute path with
  | true => exact ⟨before, last, by rw [join_of_isAbsolute relative, cut], idle⟩
  | false =>
    by_cases none : base = ""
    · subst none
      exact ⟨before, last, by rw [empty_join, cut], idle⟩
    · obtain ⟨text, joined, -⟩ := exists_join_eq none relative
      refine ⟨pieces text ++ before, last, ?_, idle⟩
      rw [joined, String.toList_ofList, pieces_append_slash, cut, List.append_assoc]

/-- What is read from a file was found by a path that has steps. -/
theorem SequenceFile.steps_of_load {base : FilePath} {sequence : Sequence} (sound : tree.IsSound)
    (loads : load tree current base path = .ok sequence) : FilePath.steps path ≠ [] := by
  intro none
  obtain ⟨before, last, cut, idle⟩ := FilePath.exists_idle base none
  unfold load SequenceFile.read FileTree.readText FileTree.read at loads
  cases found : tree.locate current (base.join path) with
  | error error =>
    rw [found] at loads
    cases loads
  | ok location =>
    have lies := FileTree.isDirectory_of_idle cut idle found
    rw [found] at loads
    simp only [bind, Except.bind, sound location lies] at loads
    cases loads

end

end InputTape
