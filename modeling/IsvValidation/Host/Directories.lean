import IsvValidation.Host.Text

/-!
# The directory a path names

A path is followed component by component: a name goes down, two dots go up. What lies at or under a
directory is told from the components, so a sibling whose name extends another one's does not.
-/

namespace IsvValidation.Host.Directory

/-- Two dots go up, and stay where nothing is above; any other component is a name below. -/
def enter (place : List String) (part : String) : List String :=
  if part = ".." then place.dropLast else place ++ [part]

/-- Where the components lead to from a directory. -/
def walk (place parts : List String) : List String := parts.foldl enter place

/-- The directory an absolute path names, as the names on the way to it. -/
def named (path : String) : List String := walk [] (Text.pathParts path)

/-- A path names a directory at or under the one another path names. -/
def AtOrUnder (root path : String) : Prop := named root <+: named path

/-- A path which is followed from a root ends at or under it. -/
def Stays (root path : String) : Prop :=
  named root <+: walk (named root) (Text.pathParts path)

instance (root path : String) : Decidable (AtOrUnder root path) :=
  inferInstanceAs (Decidable (_ <+: _))

instance (root path : String) : Decidable (Stays root path) :=
  inferInstanceAs (Decidable (_ <+: _))

theorem walk_append (place front back : List String) :
    walk place (front ++ back) = walk (walk place front) back :=
  List.foldl_append

/-- Without two dots the components are the names. -/
theorem walk_of_notMem {parts : List String} (h : ".." ∉ parts) (place : List String) :
    walk place parts = place ++ parts := by
  induction parts generalizing place with
  | nil => exact (List.append_nil place).symm
  | cons part rest ih =>
    have hpart : part ≠ ".." := fun heq ↦ h (heq ▸ List.mem_cons_self)
    have hrest : ".." ∉ rest := fun hmem ↦ h (List.mem_cons_of_mem part hmem)
    calc
      walk place (part :: rest) = walk (place ++ [part]) rest := by
        rw [walk, List.foldl_cons, enter, if_neg hpart]
        rfl
      _ = place ++ part :: rest := by rw [ih hrest, List.append_assoc, List.singleton_append]

/-! ## Components of joined paths -/

theorem pathParts_join (front back : List Char) : Text.pathParts (.ofList (front ++ '/' :: back)) =
    Text.pathParts (.ofList front) ++ Text.pathParts (.ofList back) := by
  simp only [Text.pathParts, Text.split, String.toList_ofList]
  rw [List.splitOn_append_cons_self, List.map_append, List.filter_append]

theorem pathParts_nil : Text.pathParts (.ofList []) = [] := by decide

theorem pathParts_slash (text : List Char) :
    Text.pathParts (.ofList ('/' :: text)) = Text.pathParts (.ofList text) := by
  rw [← List.nil_append ('/' :: text), pathParts_join, pathParts_nil, List.nil_append]

/-- Slashes in front and behind do not add components. -/
theorem pathParts_dropWhile (text : List Char) :
    Text.pathParts (.ofList (text.dropWhile (· == '/'))) = Text.pathParts (.ofList text) := by
  induction text with
  | nil => rfl
  | cons c rest ih =>
    by_cases h : c = '/'
    · subst h
      rw [List.dropWhile_cons_of_pos (by decide), ih, pathParts_slash]
    · rw [List.dropWhile_cons_of_neg (by rwa [beq_iff_eq])]

theorem pathParts_rdropWhile (text : List Char) :
    Text.pathParts (.ofList (text.rdropWhile (· == '/'))) = Text.pathParts (.ofList text) := by
  induction text using List.reverseRecOn with
  | nil => rfl
  | append_singleton front c ih =>
    by_cases h : c = '/'
    · subst h
      rw [List.rdropWhile_concat_pos _ _ _ (by decide), ih, pathParts_join, pathParts_nil,
        List.append_nil]
    · rw [List.rdropWhile_concat_neg _ _ _ (by rwa [beq_iff_eq])]

end IsvValidation.Host.Directory
