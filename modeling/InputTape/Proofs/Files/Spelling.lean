import InputTape.Proofs.Files.Writing

/-! Paths that are spelled differently.

Paths are compared by their components, among which the dots inside a path are not, but a dot in front
is. So two paths that differ in dots alone are the same exactly if both or neither of them open with one,
and yet lead to the same file.
-/

set_option autoImplicit false

namespace InputTape

namespace FilePath

def withoutDots (path : FilePath) : List Component := (components path).filter (· != .here)

def opensWithDot (path : FilePath) : Bool := (components path).contains .here

def component (step : List Char) : Component := if step == ['.', '.'] then .up else .name step

section

variable {path left right : FilePath}

theorem component_injective : Function.Injective component := by
  intro left right same
  unfold component at same
  split at same <;> split at same
  · next first second => rw [beq_iff_eq.mp first, beq_iff_eq.mp second]
  · cases same
  · cases same
  · exact Component.name.inj same

theorem component_ne_root (step : List Char) : component step ≠ .root := by
  unfold component
  split <;> exact nofun

theorem component_ne_here (step : List Char) : component step ≠ .here := by
  unfold component
  split <;> exact nofun

theorem lead_cases (path : FilePath) : (lead path = ['/'] ∧ isAbsolute path = true) ∨
    (lead path = ['.'] ∧ isAbsolute path = false) ∨ (lead path = [] ∧ isAbsolute path = false) := by
  have absolute := lead_eq_root path
  have other : lead path = ['/'] ∨ lead path = ['.'] ∨ lead path = [] := by
    unfold lead opening
    split
    · exact .inl rfl
    · split
      · exact .inr (.inl rfl)
      · exact .inr (.inr rfl)
    · exact .inr (.inr rfl)
  rcases other with opened | opened | opened <;> rw [opened] at absolute <;> simp_all

theorem components_eq (path : FilePath) : components path =
    (if lead path == ['/'] then [.root] else if lead path == ['.'] then [.here] else []) ++
      (steps path).map component := rfl

theorem withoutDots_eq (path : FilePath) : withoutDots path =
    (if isAbsolute path then [.root] else []) ++ (steps path).map component := by
  have solid : ((steps path).map component).filter (· != .here) = (steps path).map component := by
    rw [List.filter_eq_self]
    rintro _ member
    obtain ⟨step, -, rfl⟩ := List.mem_map.mp member
    simpa using component_ne_here step
  rw [withoutDots, components_eq, List.filter_append, solid]
  rcases lead_cases path with ⟨opened, absolute⟩ | ⟨opened, relative⟩ | ⟨opened, relative⟩
  · rw [opened, absolute]
    rfl
  · rw [opened, relative]
    rfl
  · rw [opened, relative]
    rfl

theorem opensWithDot_eq (path : FilePath) : opensWithDot path = (lead path == ['.']) := by
  have none : ((steps path).map component).contains .here = false := by
    simpa using fun step _ => component_ne_here step
  rw [opensWithDot, components_eq, List.contains_append, none, Bool.or_false]
  rcases lead_cases path with ⟨opened, -⟩ | ⟨opened, -⟩ | ⟨opened, -⟩ <;> rw [opened] <;> rfl

theorem withoutDots_eq_iff : withoutDots left = withoutDots right ↔
    isAbsolute left = isAbsolute right ∧ steps left = steps right := by
  have steps_inj : (steps left).map component = (steps right).map component ↔
      steps left = steps right := (List.map_injective_iff.mpr component_injective).eq_iff
  -- No step stands for the root.
  have rootless (steps : List (List Char)) : ∀ more, .root :: more ≠ steps.map component := by
    intro more same
    obtain ⟨step, -, root⟩ := List.mem_map.mp (same ▸ List.mem_cons_self : .root ∈ steps.map component)
    exact component_ne_root step root
  rw [withoutDots_eq, withoutDots_eq]
  cases isAbsolute left <;> cases isAbsolute right
  · simpa using steps_inj
  · simpa using (rootless (steps left) _).symm
  · simpa using rootless (steps right) _
  · simpa using steps_inj

/-- Paths are the same if they differ in no more than dots, and not in a dot in front. -/
theorem same_iff : same left right = true ↔
    withoutDots left = withoutDots right ∧ opensWithDot left = opensWithDot right := by
  constructor
  · intro alike
    have alike : components left = components right := beq_iff_eq.mp alike
    exact ⟨congrArg (·.filter (· != Component.here)) alike, congrArg (·.contains .here) alike⟩
  · rintro ⟨alike, opened⟩
    obtain ⟨absolute, alike⟩ := withoutDots_eq_iff.mp alike
    rw [opensWithDot_eq, opensWithDot_eq] at opened
    refine same_of_steps ?_ alike
    rcases lead_cases left with ⟨one, first⟩ | ⟨one, first⟩ | ⟨one, first⟩ <;>
      rcases lead_cases right with ⟨two, second⟩ | ⟨two, second⟩ | ⟨two, second⟩ <;>
      simp_all

end

end FilePath

namespace FileTree

variable {tree : FileTree} {current location place : Location} {left right path : FilePath}

theorem start_eq_ok {first : Location} (starts : start current path = .ok first) :
    first = if FilePath.isAbsolute path then [] else current := by
  unfold start at starts
  split at starts
  · cases starts
  split at starts
  · cases starts
  split at starts
  · cases starts
  exact (Except.ok.inj starts).symm

theorem walks_of_locate (found : tree.locate current path = .ok location) :
    tree.Walks (if FilePath.isAbsolute path then [] else current) (FilePath.steps path) location := by
  obtain ⟨first, starts, walks⟩ := locate_eq_ok.mp found
  have steps := FilePath.steps_ofList path.toList
  rw [String.ofList_toList] at steps
  rw [← start_eq_ok starts, steps]
  exact walks.busy

theorem locate_unique (alike : FilePath.withoutDots left = FilePath.withoutDots right)
    (one : tree.locate current left = .ok location) (other : tree.locate current right = .ok place) :
    location = place := by
  obtain ⟨absolute, steps⟩ := FilePath.withoutDots_eq_iff.mp alike
  have first := walks_of_locate one
  rw [absolute, steps] at first
  exact first.unique (walks_of_locate other)

theorem locate_down (down : .up ∉ FilePath.components path)
    (found : tree.locate current path = .ok location) :
    location = (if FilePath.isAbsolute path then [] else current) ++
      (FilePath.steps path).map String.ofList := by
  have names : ['.', '.'] ∉ FilePath.steps path := by
    intro member
    apply down
    rw [FilePath.components_eq]
    exact List.mem_append_right _ (List.mem_map.mpr ⟨_, member, rfl⟩)
  have busy : (FilePath.steps path).filter (!FilePath.isIdle ·) = FilePath.steps path := by
    simp [FilePath.steps]
  have walked := (walks_of_locate found).down names
  rwa [busy] at walked

/-- Paths that never lead up differ in more than dots only if they lead to different places. -/
theorem withoutDots_eq_of_locate (absolute : FilePath.isAbsolute left = FilePath.isAbsolute right)
    (left_down : .up ∉ FilePath.components left) (right_down : .up ∉ FilePath.components right)
    (one : tree.locate current left = .ok location)
    (other : tree.locate current right = .ok location) :
    FilePath.withoutDots left = FilePath.withoutDots right := by
  have same := (locate_down left_down one).symm.trans (locate_down right_down other)
  rw [absolute, List.append_cancel_left_eq] at same
  have injective : Function.Injective String.ofList := fun _ _ => String.ofList_injective
  exact FilePath.withoutDots_eq_iff.mpr ⟨absolute, List.map_injective_iff.mpr injective same⟩

end FileTree
end InputTape
