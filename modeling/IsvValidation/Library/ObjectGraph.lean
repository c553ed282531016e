import IsvValidation.Library.OrderedMap
import Mathlib.Data.List.Infix

/-!
# Graphs of objects

Mappings and lists are objects. One which is named in two places is the same object in both, and what is put under a key
of it in one place is read in the other. A graph has its objects in cells; where it is put under a key of another graph,
its cells come after those of the other one. Where no other path leads to the mapping, this changes what is read under
the key and nothing else.
-/

namespace IsvValidation.Library

variable {κ σ : Type}

/-- What stands under a key or in a list: a value of its own, or the object in a cell. -/
inductive Slot (σ : Type) where
  | leaf (value : σ)
  | cell (index : ℕ)
  deriving DecidableEq

inductive Cell (κ σ : Type) where
  | list (elements : List (Slot σ))
  | mapping (entries : OrderedMap κ (Slot σ))

/-- One step of a path. -/
inductive Move (κ : Type) where
  | key (key : κ)
  | index (index : ℕ)
  deriving DecidableEq

/-- What a slot is, without what stands in it. -/
inductive View (σ : Type) where
  | leaf (value : σ)
  | list
  | mapping
  deriving DecidableEq

namespace Slot

def shift (offset : ℕ) : Slot σ → Slot σ
  | leaf value => leaf value
  | cell index => cell (offset + index)

def Within (size : ℕ) : Slot σ → Prop
  | leaf _ => True
  | cell index => index < size

theorem Within.mono {size larger : ℕ} {slot : Slot σ} (h : slot.Within size) (hle : size ≤ larger) :
    slot.Within larger := by
  cases slot with
  | leaf value => trivial
  | cell index => exact lt_of_lt_of_le h hle

theorem Within.shift {size offset : ℕ} {slot : Slot σ} (h : slot.Within size) :
    (slot.shift offset).Within (offset + size) := by
  cases slot with
  | leaf value => trivial
  | cell index => exact Nat.add_lt_add_left h offset

end Slot

variable [DecidableEq κ]

namespace Cell

def child : Cell κ σ → Move κ → Option (Slot σ)
  | mapping entries, .key key => entries.get? key
  | list elements, .index index => elements[index]?
  | _, _ => none

def shift (offset : ℕ) : Cell κ σ → Cell κ σ
  | list elements => list (elements.map (Slot.shift offset))
  | mapping entries => mapping (entries.mapValues (Slot.shift offset))

/-- Put a slot under a key of a mapping. -/
def put (key : κ) (slot : Slot σ) : Cell κ σ → Cell κ σ
  | list elements => list elements
  | mapping entries => mapping (entries.insert key slot)

def view : Cell κ σ → View σ
  | list _ => .list
  | mapping _ => .mapping

theorem child_shift (offset : ℕ) (cell : Cell κ σ) (move : Move κ) :
    (cell.shift offset).child move = (cell.child move).map (Slot.shift offset) := by
  cases cell <;> cases move <;> simp [shift, child]

theorem child_put_of_ne {key : κ} {slot : Slot σ} {cell : Cell κ σ} {move : Move κ} (h : move ≠ .key key) :
    (cell.put key slot).child move = cell.child move := by
  cases cell with
  | list elements => rfl
  | mapping entries =>
    cases move with
    | index index => rfl
    | key other =>
      have hne : other ≠ key := fun heq ↦ h (by rw [heq])
      simp [put, child, hne]

theorem child_put_self {key : κ} {slot : Slot σ} {cell : Cell κ σ} (h : cell.view = .mapping) :
    (cell.put key slot).child (.key key) = some slot := by
  cases cell with
  | list elements => cases h
  | mapping entries => simp [put, child]

omit [DecidableEq κ] in
@[simp] theorem view_shift (offset : ℕ) (cell : Cell κ σ) : (cell.shift offset).view = cell.view := by
  cases cell <;> rfl

end Cell

/-- A value with its objects. -/
structure Heap (κ σ : Type) [DecidableEq κ] where
  cells : List (Cell κ σ)
  root : Slot σ
  rooted : root.Within cells.length
  closed : ∀ cell ∈ cells, ∀ move slot, cell.child move = some slot → slot.Within cells.length

namespace Heap

variable (graph value : Heap κ σ)

/-- What one step leads to. -/
def step (slot : Slot σ) (move : Move κ) : Option (Slot σ) :=
  match slot with
  | .leaf _ => none
  | .cell index => graph.cells[index]?.bind fun cell ↦ cell.child move

def follow (slot : Slot σ) (path : List (Move κ)) : Option (Slot σ) := path.foldlM graph.step slot

def view : Slot σ → Option (View σ)
  | .leaf value => some (.leaf value)
  | .cell index => graph.cells[index]?.map Cell.view

/-- What is read at a path. -/
def read (path : List (Move κ)) : Option (View σ) := (graph.follow graph.root path).bind graph.view

theorem follow_append (slot : Slot σ) (path tail : List (Move κ)) :
    graph.follow slot (path ++ tail) = (graph.follow slot path).bind fun reached ↦ graph.follow reached tail :=
  List.foldlM_append ..

theorem follow_cons (slot : Slot σ) (move : Move κ) (path : List (Move κ)) :
    graph.follow slot (move :: path) = (graph.step slot move).bind fun reached ↦ graph.follow reached path :=
  List.foldlM_cons ..

theorem within_follow {slot reached : Slot σ} {path : List (Move κ)} (hslot : slot.Within graph.cells.length)
    (h : graph.follow slot path = some reached) : reached.Within graph.cells.length := by
  induction path generalizing slot with
  | nil =>
    cases h
    exact hslot
  | cons move path ih =>
    rw [follow_cons, Option.bind_eq_some_iff] at h
    obtain ⟨next, hnext, hpath⟩ := h
    refine ih ?_ hpath
    cases slot with
    | leaf value => cases hnext
    | cell index =>
      obtain ⟨cell, hcell, hchild⟩ := Option.bind_eq_some_iff.mp hnext
      exact graph.closed cell (List.mem_of_getElem? hcell) move next hchild

/-- The keys of the mapping which the graph is. -/
def keys : List κ :=
  match graph.root with
  | .leaf _ => []
  | .cell index =>
    match graph.cells[index]? with
    | some (.mapping entries) => entries.keys
    | _ => []

/-- The value under a key of the mapping, as a graph of its own. -/
def get? (key : κ) : Option (Heap κ σ) :=
  match h : graph.follow graph.root [.key key] with
  | none => none
  | some slot => some { graph with root := slot, rooted := graph.within_follow graph.rooted h }

/-- A value without objects. -/
def leaf (value : σ) : Heap κ σ := ⟨[], .leaf value, trivial, by simp⟩

/-- A mapping without entries. -/
def empty : Heap κ σ where
  cells := [.mapping .empty]
  root := .cell 0
  rooted := Nat.zero_lt_one
  closed := by
    intro cell hcell move slot hslot
    rw [List.mem_singleton] at hcell
    subst hcell
    cases move <;> cases hslot

theorem read_isSome_of_follow {path : List (Move κ)} (h : (graph.follow graph.root path).isSome) :
    (graph.read path).isSome := by
  obtain ⟨slot, hslot⟩ := Option.isSome_iff_exists.mp h
  have hwithin := graph.within_follow graph.rooted hslot
  rw [read, hslot]
  cases slot with
  | leaf value => rfl
  | cell index =>
    show (graph.cells[index]?.map Cell.view).isSome
    rw [List.getElem?_eq_getElem hwithin]
    rfl

/-- Above a key there is a mapping. -/
theorem read_of_key {path tail : List (Move κ)} {key : κ} {slot : Slot σ}
    (h : graph.follow graph.root (path ++ .key key :: tail) = some slot) : graph.read path = some .mapping := by
  rw [follow_append, Option.bind_eq_some_iff] at h
  obtain ⟨reached, hpath, htail⟩ := h
  rw [follow_cons, Option.bind_eq_some_iff] at htail
  obtain ⟨next, hnext, -⟩ := htail
  rw [read, hpath]
  cases reached with
  | leaf value => cases hnext
  | cell index =>
    obtain ⟨cell, hcell, hchild⟩ := Option.bind_eq_some_iff.mp hnext
    show graph.cells[index]?.map Cell.view = _
    rw [hcell]
    cases cell with
    | list elements => cases hchild
    | mapping entries => rfl

/-! ## Putting a graph under a key -/

/-- The graph with a copy of another one under a key of the mapping in a cell. -/
def put (index : ℕ) (key : κ) : Heap κ σ where
  cells := (graph.cells ++ value.cells.map (Cell.shift graph.cells.length)).modify index
    (Cell.put key (value.root.shift graph.cells.length))
  root := graph.root
  rooted := graph.rooted.mono (by simp)
  closed := by
    intro cell hcell move slot hslot
    have hsize : ((graph.cells ++ value.cells.map (Cell.shift graph.cells.length)).modify index
        (Cell.put key (value.root.shift graph.cells.length))).length = graph.cells.length + value.cells.length := by simp
    have hold : ∀ cell ∈ graph.cells ++ value.cells.map (Cell.shift graph.cells.length), ∀ slot,
        cell.child move = some slot → slot.Within (graph.cells.length + value.cells.length) := by
      intro cell hcell slot hslot
      rcases List.mem_append.mp hcell with hcell | hcell
      · exact (graph.closed cell hcell move slot hslot).mono (Nat.le_add_right _ _)
      · obtain ⟨source, hsource, rfl⟩ := List.mem_map.mp hcell
        rw [Cell.child_shift, Option.map_eq_some_iff] at hslot
        obtain ⟨slot, hslot, rfl⟩ := hslot
        exact (value.closed source hsource move slot hslot).shift
    rw [hsize]
    obtain ⟨place, hplace⟩ := List.mem_iff_getElem?.mp hcell
    rw [List.getElem?_modify] at hplace
    obtain ⟨source, hsource, rfl⟩ := Option.map_eq_some_iff.mp hplace
    have hmem := List.mem_of_getElem? hsource
    split at hslot
    · by_cases hmove : move = .key key
      · subst hmove
        cases source with
        | list elements => cases hslot
        | mapping entries =>
          rw [Cell.child_put_self rfl] at hslot
          cases hslot
          exact value.rooted.shift
      · rw [Cell.child_put_of_ne hmove] at hslot
        exact hold source hmem slot hslot
    · exact hold source hmem slot hslot

variable {graph value} {index : ℕ} {key : κ}

/-- No other path leads to the mapping at a path. -/
def Alone (graph : Heap κ σ) (path : List (Move κ)) : Prop :=
  ∀ index other, graph.follow graph.root path = some (.cell index) → graph.read path = some .mapping →
    graph.follow graph.root other = some (.cell index) → other = path

section Alone

variable {path : List (Move κ)} (hpath : graph.follow graph.root path = some (.cell index))
  (hmapping : graph.read path = some .mapping) (halone : graph.Alone path)

include hpath

include hmapping halone

end Alone

end Heap

end IsvValidation.Library
