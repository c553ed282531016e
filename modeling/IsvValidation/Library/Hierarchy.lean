import Mathlib.Data.List.Infix
import IsvValidation.Library.OrderedMap

/-!
# Names in a hierarchy

A name is a sequence of segments with a separator between them, and the names before its separators
are the nodes above it. What is set on a node counts for everything below it, and the more specific
setting wins. Walking up from a name until a node has an entry finds the most specific one; merging
the bags of all nodes on the way, the nearest last, finds it for every key at once.
-/

namespace IsvValidation.Library.Hierarchy

variable {α β : Type*} [DecidableEq α] {sep : α} {name node : List α}

/-- The part of a name before its last separator. -/
def parent (sep : α) (name : List α) : Option (List α) :=
  match name.reverse.dropWhile (· ≠ sep) with
  | [] => none
  | _ :: rest => some rest.reverse

/-- The parts of a name before its separators, from the name reversed. -/
def cuts (sep : α) : List α → List (List α)
  | [] => []
  | a :: rest => if a = sep then rest.reverse :: cuts sep rest else cuts sep rest

/-- A name and the nodes above it, the nearest first. -/
def path (sep : α) (name : List α) : List (List α) := name :: cuts sep name.reverse

theorem length_parent_lt {up : List α} (h : parent sep name = some up) :
    up.length < name.length := by
  unfold parent at h
  have hle : (name.reverse.dropWhile (· ≠ sep)).length ≤ name.length := by
    simpa using (List.dropWhile_suffix (l := name.reverse) (· ≠ sep)).length_le
  split at h
  · cases h
  · rename_i first rest hdrop
    cases h
    rw [hdrop, List.length_cons] at hle
    rw [List.length_reverse]
    omega

/-- Walk up from a name until a node has an entry. -/
def climb (sep : α) (entry : List α → Option β) (name : List α) : Option β :=
  match entry name with
  | some value => some value
  | none =>
    match _h : parent sep name with
    | none => none
    | some up => climb sep entry up
termination_by name.length
decreasing_by exact length_parent_lt _h

/-! ## The path of a name -/

theorem cuts_eq (reversed : List α) :
    cuts sep reversed = match reversed.dropWhile (· ≠ sep) with
      | [] => []
      | _ :: rest => rest.reverse :: cuts sep rest := by
  induction reversed with
  | nil => rfl
  | cons a rest ih =>
    rw [cuts, List.dropWhile_cons]
    by_cases h : a = sep
    · simp [h]
    · simpa [h] using ih

/-- The path goes from a name to its parent and on. -/
theorem path_eq (sep : α) (name : List α) :
    path sep name = name :: ((parent sep name).map (path sep)).getD [] := by
  unfold path parent
  rw [cuts_eq]
  cases name.reverse.dropWhile (· ≠ sep) with
  | nil => rfl
  | cons first rest => simp

/-- Walking up looks at the nodes of the path in order. -/
theorem climb_eq (entry : List α → Option β) (name : List α) :
    climb sep entry name = (path sep name).findSome? entry := by
  induction name using climb.induct sep entry with
  | case1 name value hentry =>
    rw [climb, path_eq, List.findSome?_cons]
    simp only [hentry]
  | case2 name hentry hparent =>
    rw [climb, path_eq, List.findSome?_cons]
    simp only [hentry]
    split
    · rw [hparent]
      rfl
    · rename_i up hup
      rw [hparent] at hup
      cases hup
  | case3 name hentry up hparent ih =>
    rw [climb, path_eq, List.findSome?_cons]
    simp only [hentry]
    split
    · rename_i hnone
      rw [hparent] at hnone
      cases hnone
    · rename_i other hother
      rw [hparent, Option.some.injEq] at hother
      rw [← hother, hparent, ih]
      rfl

/-! ## Inherited bags -/

section Bags

variable {κ ν : Type*} [DecidableEq κ]

/-- Later bags win, so a path is merged from its far end. -/
theorem get?_foldl_update (bags : List (OrderedMap κ ν)) (key : κ) :
    (bags.reverse.foldl OrderedMap.update OrderedMap.empty).get? key =
      bags.findSome? fun bag ↦ bag.get? key := by
  induction bags with
  | nil => rfl
  | cons bag rest ih =>
    rw [List.reverse_cons, List.foldl_append, List.foldl_cons, List.foldl_nil,
      OrderedMap.get?_update, ih, List.findSome?_cons]
    cases bag.get? key <;> rfl

end Bags

end IsvValidation.Library.Hierarchy
