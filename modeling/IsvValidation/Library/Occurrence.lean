import Mathlib.Data.List.Infix

/-!
# The first occurrence of a block

A list is split around the first place where a block stands in it, and the block is taken out there.
-/

namespace IsvValidation.Library

variable {α : Type*} [DecidableEq α] {block text front back : List α}

/-- What stands before and after the first occurrence of a block. -/
def around? (block : List α) : List α → Option (List α × List α)
  | [] => if block = [] then some ([], []) else none
  | c :: rest =>
    if block <+: c :: rest then some ([], (c :: rest).drop block.length)
    else (around? block rest).map fun parts ↦ (c :: parts.1, parts.2)

/-- The list without the first occurrence of a block. -/
def takeOut (block text : List α) : List α :=
  ((around? block text).map fun parts ↦ parts.1 ++ parts.2).getD text

theorem append_of_around? (h : around? block text = some (front, back)) : text = front ++ block ++ back := by
  induction text generalizing front with
  | nil =>
    rw [around?] at h
    split_ifs at h with hblock
    obtain ⟨rfl, rfl⟩ := Prod.mk.inj (Option.some.inj h)
    rw [hblock, List.append_nil, List.append_nil]
  | cons c rest ih =>
    rw [around?] at h
    split_ifs at h with hblock
    · obtain ⟨rfl, rfl⟩ := Prod.mk.inj (Option.some.inj h)
      rw [List.nil_append, ← List.prefix_iff_eq_append.mp hblock]
      simp
    · obtain ⟨⟨found, after⟩, hfound, hparts⟩ := Option.map_eq_some_iff.mp h
      obtain ⟨rfl, rfl⟩ := Prod.mk.inj hparts
      rw [ih hfound]
      rfl

theorem exists_around? (h : block <:+: text) : ∃ front back, around? block text = some (front, back) := by
  induction text with
  | nil => exact ⟨[], [], if_pos (List.infix_nil.mp h)⟩
  | cons c rest ih =>
    rw [around?]
    split_ifs with hblock
    · exact ⟨_, _, rfl⟩
    · obtain ⟨front, back, hfound⟩ := ih ((List.infix_cons_iff.mp h).resolve_left hblock)
      rw [hfound]
      exact ⟨c :: front, back, rfl⟩

/-- Taking a block out takes out one occurrence of it. -/
theorem exists_takeOut (h : block <:+: text) :
    ∃ front back, text = front ++ block ++ back ∧ takeOut block text = front ++ back := by
  obtain ⟨front, back, hfound⟩ := exists_around? h
  exact ⟨front, back, append_of_around? hfound, by rw [takeOut, hfound]; rfl⟩

end IsvValidation.Library
