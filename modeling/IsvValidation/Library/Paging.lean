import Mathlib.Data.List.Nodup

/-!
# Collections which are served in pages

A reader asks for one page after another, and each page names the place of the next one, if there is
one. Reading is bounded by a number of pages: a reader which stops by itself is one for which some
bound is enough, and one which never stops is left unfinished by every bound.
-/

namespace IsvValidation.Library.Paging

/-- The rows of one page, and the place of the next page. -/
structure Page (σ α : Type*) where
  rows : List α
  next : Option σ

/-- How reading a bounded number of pages ends. -/
inductive Gathered (ε α : Type*) where
  | complete (rows : List α)
  | failed (error : ε)
  | unfinished (rows : List α)

variable {ε σ α : Type*}

/-- Read pages from this place on, at most as many as the limit says. -/
def gather (read : σ → Except ε (Page σ α)) : ℕ → σ → List α → Gathered ε α
  | 0, _, rows => .unfinished rows
  | limit + 1, place, rows =>
    match read place with
    | .error error => .failed error
    | .ok page =>
      match page.next with
      | none => .complete (rows ++ page.rows)
      | some next => gather read limit next (rows ++ page.rows)

/-- The pages which are served from a place on, up to one which names no next place. -/
inductive Chain (read : σ → Except ε (Page σ α)) : σ → List (σ × List α) → Prop
  | last {place : σ} {rows : List α} (served : read place = .ok ⟨rows, none⟩) :
    Chain read place [(place, rows)]
  | more {place next : σ} {rows : List α} {pages : List (σ × List α)}
    (served : read place = .ok ⟨rows, some next⟩) (rest : Chain read next pages) :
    Chain read place ((place, rows) :: pages)

/-- The rows of these pages, in order. -/
def rowsOf (pages : List (σ × List α)) : List α := pages.flatMap Prod.snd

/-- The reader stops by itself, with these rows. -/
def Returns (read : σ → Except ε (Page σ α)) (place : σ) (rows : List α) : Prop :=
  ∃ limit, gather read limit place [] = .complete rows

variable {read : σ → Except ε (Page σ α)}

@[simp] theorem rowsOf_nil : rowsOf ([] : List (σ × List α)) = [] := rfl

@[simp] theorem rowsOf_cons (page : σ × List α) (pages : List (σ × List α)) :
    rowsOf (page :: pages) = page.2 ++ rowsOf pages := rfl

@[simp] theorem rowsOf_append (pages others : List (σ × List α)) :
    rowsOf (pages ++ others) = rowsOf pages ++ rowsOf others := List.flatMap_append

/-- Enough pages are the whole chain; fewer are its first ones, left unfinished. -/
theorem gather_chain {place : σ} {pages : List (σ × List α)} (h : Chain read place pages) (limit : ℕ)
    (rows : List α) : gather read limit place rows =
      if pages.length ≤ limit then .complete (rows ++ rowsOf pages)
      else .unfinished (rows ++ rowsOf (pages.take limit)) := by
  induction h generalizing limit rows with
  | last served =>
    match limit with
    | 0 => simp [gather]
    | limit + 1 => simp [gather, served]
  | more served _ ih =>
    match limit with
    | 0 => simp [gather]
    | limit + 1 =>
      simp only [gather, served, ih, List.length_cons, Nat.add_le_add_iff_right, rowsOf_cons,
        List.take_succ_cons, List.append_assoc]

theorem returns_chain {place : σ} {pages : List (σ × List α)} (h : Chain read place pages) :
    Returns read place (rowsOf pages) := by
  use pages.length
  rw [gather_chain h, if_pos (Nat.le_refl _), List.nil_append]

/-- A larger limit does not change how a reader ends which stops by itself. -/
theorem gather_mono {limit : ℕ} {place : σ} {rows result : List α}
    (h : gather read limit place rows = .complete result) {larger : ℕ} (hle : limit ≤ larger) :
    gather read larger place rows = .complete result := by
  induction limit generalizing larger place rows with
  | zero => exact nomatch h
  | succ limit ih =>
    match larger with
    | 0 => omega
    | larger + 1 =>
      rw [gather] at h ⊢
      match hread : read place with
      | .error error =>
        rw [hread] at h
        exact nomatch h
      | .ok ⟨pageRows, none⟩ =>
        rw [hread] at h
        exact h
      | .ok ⟨pageRows, some next⟩ =>
        rw [hread] at h
        exact ih h (by omega)

theorem Returns.unique {place : σ} {rows others : List α} (h : Returns read place rows)
    (hother : Returns read place others) : rows = others := by
  have ⟨limit, hlimit⟩ := h
  have ⟨other, hotherLimit⟩ := hother
  have hfirst := gather_mono hlimit (Nat.le_max_left limit other)
  have hsecond := gather_mono hotherLimit (Nat.le_max_right limit other)
  rw [hfirst] at hsecond
  exact Gathered.complete.inj hsecond

/-- A reader which always comes from one of these places to another never stops. -/
theorem gather_endless {I : σ → Prop}
    (hstep : ∀ place, I place → ∃ rows next, read place = .ok ⟨rows, some next⟩ ∧ I next)
    {place : σ} (h : I place) (limit : ℕ) (rows : List α) :
    ∃ left, gather read limit place rows = .unfinished left := by
  induction limit generalizing place rows with
  | zero => exact ⟨rows, rfl⟩
  | succ limit ih =>
    have ⟨pageRows, next, hread, hnext⟩ := hstep place h
    rw [gather, hread]
    exact ih hnext (rows ++ pageRows)

theorem not_returns_of_endless {I : σ → Prop}
    (hstep : ∀ place, I place → ∃ rows next, read place = .ok ⟨rows, some next⟩ ∧ I next)
    {place : σ} (h : I place) (rows : List α) : ¬ Returns read place rows := by
  intro ⟨limit, hlimit⟩
  have ⟨left, hleft⟩ := gather_endless hstep h limit []
  rw [hleft] at hlimit
  exact nomatch hlimit

/-! ## Chains -/

section Chains

variable {place other : σ} {pages others : List (σ × List α)}

/-- Places which are served alike begin chains of one length. -/
theorem Chain.length_eq (h : Chain read place pages) (hother : Chain read other others)
    (hread : read place = read other) : pages.length = others.length := by
  induction h generalizing other others with
  | last served =>
    match hother with
    | .last _ => rfl
    | .more servedOther _ =>
      rw [served, servedOther] at hread
      exact nomatch hread
  | more served _ ih =>
    match hother with
    | .last servedOther =>
      rw [served, servedOther] at hread
      exact nomatch hread
    | .more servedOther rest =>
      rw [served, servedOther, Except.ok.injEq, Page.mk.injEq, Option.some.injEq] at hread
      rw [List.length_cons, List.length_cons, ih rest (by rw [hread.2])]

/-- From each place of a chain on, what is left of it is a chain. -/
theorem Chain.from_mem (h : Chain read place pages) {page : σ × List α} (hpage : page ∈ pages) :
    ∃ left, Chain read page.1 left ∧ left.length ≤ pages.length := by
  induction h with
  | last served =>
    rw [List.mem_singleton.mp hpage]
    exact ⟨_, .last served, Nat.le_refl _⟩
  | more served rest ih =>
    match List.mem_cons.mp hpage with
    | .inl heq =>
      rw [heq]
      exact ⟨_, .more served rest, Nat.le_refl _⟩
    | .inr hmem =>
      have ⟨left, hleft, hlength⟩ := ih hmem
      exact ⟨left, hleft, Nat.le_succ_of_le hlength⟩

/-- What comes behind a page is served otherwise than the page. -/
theorem Chain.read_ne {next : σ} {rows : List α} (served : read place = .ok ⟨rows, some next⟩)
    (rest : Chain read next pages) {page : σ × List α} (hpage : page ∈ pages) :
    read place ≠ read page.1 := by
  intro hread
  have ⟨left, hleft, hlength⟩ := rest.from_mem hpage
  have hlengths := (Chain.more served rest).length_eq hleft hread
  rw [List.length_cons] at hlengths
  omega

/-- No two pages of a chain are served alike. -/
theorem Chain.pairwise_read_ne (h : Chain read place pages) :
    pages.Pairwise fun page next ↦ read page.1 ≠ read next.1 := by
  induction h with
  | last served => exact List.pairwise_singleton _ _
  | more served rest ih =>
    exact List.pairwise_cons.mpr ⟨fun page hpage ↦ rest.read_ne served hpage, ih⟩

end Chains

/-! ## Readers which take a page for the last one -/

/-- The first pages of a chain, up to one from which the reader does not go on. -/
def followed (goesOn : σ → σ → Bool) : List (σ × List α) → List (σ × List α)
  | [] => []
  | [page] => [page]
  | page :: next :: rest =>
    if goesOn page.1 next.1 then page :: followed goesOn (next :: rest) else [page]

/-- A reader which reads these pages, but goes on to some of the next places only. -/
def Heeds (goesOn : σ → σ → Bool) (read code : σ → Except ε (Page σ α)) : Prop :=
  ∀ place page, read place = .ok page → code place = .ok ⟨page.rows, page.next.filter (goesOn place)⟩

variable {goesOn : σ → σ → Bool} {code : σ → Except ε (Page σ α)}

theorem Chain.head_eq {place : σ} {pages : List (σ × List α)} (h : Chain read place pages) :
    ∃ rows rest, pages = (place, rows) :: rest := by
  match h with
  | .last _ => exact ⟨_, _, rfl⟩
  | .more _ _ => exact ⟨_, _, rfl⟩

theorem followed_chain (hheeds : Heeds goesOn read code) {place : σ} {pages : List (σ × List α)}
    (h : Chain read place pages) : Chain code place (followed goesOn pages) := by
  induction h with
  | last served => exact .last (hheeds _ _ served)
  | @more place next rows pages served rest ih =>
    have ⟨nextRows, after, hpages⟩ := rest.head_eq
    have hcode := hheeds _ _ served
    rw [Option.filter_some] at hcode
    rw [hpages] at ih ⊢
    rw [followed]
    by_cases hgoes : goesOn place next = true
    · rw [if_pos hgoes] at hcode
      rw [if_pos hgoes]
      exact .more hcode ih
    · rw [if_neg hgoes] at hcode
      rw [if_neg hgoes]
      exact .last hcode

theorem followed_congr {other : σ → σ → Bool} {pages : List (σ × List α)}
    (h : pages.Pairwise fun page next ↦ goesOn page.1 next.1 = other page.1 next.1) :
    followed goesOn pages = followed other pages := by
  match pages with
  | [] => rfl
  | [page] => rfl
  | page :: next :: rest =>
    have ⟨hpage, hrest⟩ := List.pairwise_cons.mp h
    rw [followed, followed, hpage next List.mem_cons_self, followed_congr hrest]

theorem followed_isPrefix (pages : List (σ × List α)) : followed goesOn pages <+: pages := by
  match pages with
  | [] => exact List.prefix_rfl
  | [page] => exact List.prefix_rfl
  | page :: next :: rest =>
    rw [followed]
    by_cases hgoes : goesOn page.1 next.1 = true
    · rw [if_pos hgoes]
      exact (List.prefix_cons_inj page).mpr (followed_isPrefix (next :: rest))
    · rw [if_neg hgoes]
      exact ⟨next :: rest, rfl⟩

/-- A reader which goes on to every next place follows the whole chain. -/
theorem followed_eq_self {pages : List (σ × List α)}
    (h : ∀ next ∈ pages.tail, ∀ place, goesOn place next.1 = true) :
    followed goesOn pages = pages := by
  match pages with
  | [] => rfl
  | [page] => rfl
  | page :: next :: rest =>
    rw [followed, if_pos (h next List.mem_cons_self page.1), followed_eq_self]
    exact fun other hother ↦ h other (List.mem_cons_of_mem next hother)

/-- The rows which are read when the reader also stops at a number of pages. -/
def gathered : Gathered ε α → Except ε (List α)
  | .complete rows => .ok rows
  | .unfinished rows => .ok rows
  | .failed error => .error error

theorem gathered_chain {place : σ} {pages : List (σ × List α)} (h : Chain read place pages)
    (limit : ℕ) : gathered (gather read limit place []) = .ok (rowsOf (pages.take limit)) := by
  rw [gather_chain h]
  by_cases hlimit : pages.length ≤ limit
  · rw [if_pos hlimit, List.take_of_length_le hlimit]
    rfl
  · rw [if_neg hlimit]
    rfl

/-- The pages of a chain which such a reader reads, and those which it leaves. -/
def taken (goesOn : σ → σ → Bool) (limit : ℕ) (pages : List (σ × List α)) : List (σ × List α) :=
  (followed goesOn pages).take limit

def left (goesOn : σ → σ → Bool) (limit : ℕ) (pages : List (σ × List α)) : List (σ × List α) :=
  pages.drop (taken goesOn limit pages).length

theorem taken_isPrefix (limit : ℕ) (pages : List (σ × List α)) : taken goesOn limit pages <+: pages :=
  (List.take_prefix limit _).trans (followed_isPrefix pages)

theorem taken_append_left (limit : ℕ) (pages : List (σ × List α)) :
    taken goesOn limit pages ++ left goesOn limit pages = pages := by
  have ⟨rest, hrest⟩ := @taken_isPrefix _ _ goesOn limit pages
  calc taken goesOn limit pages ++ pages.drop (taken goesOn limit pages).length
      = taken goesOn limit pages ++ (taken goesOn limit pages ++ rest).drop
          (taken goesOn limit pages).length := by rw [hrest]
    _ = pages := by rw [List.drop_left, hrest]

theorem gathered_heeds (hheeds : Heeds goesOn read code) {place : σ} {pages : List (σ × List α)}
    (h : Chain read place pages) (limit : ℕ) :
    gathered (gather code limit place []) = .ok (rowsOf (taken goesOn limit pages)) :=
  gathered_chain (followed_chain hheeds h) limit

/-- The rows of the pages which are taken are all rows exactly when those which are left hold none. -/
theorem rowsOf_taken_eq_iff (limit : ℕ) (pages : List (σ × List α)) :
    rowsOf (taken goesOn limit pages) = rowsOf pages ↔ rowsOf (left goesOn limit pages) = [] := by
  have hpages : rowsOf pages =
      rowsOf (taken goesOn limit pages) ++ rowsOf (left goesOn limit pages) := by
    rw [← rowsOf_append, taken_append_left]
  rw [hpages, List.self_eq_append_right]

/-- The places which are asked for. -/
def asked (read : σ → Except ε (Page σ α)) : ℕ → σ → List σ
  | 0, _ => []
  | limit + 1, place =>
    match read place with
    | .ok ⟨_, some next⟩ => place :: asked read limit next
    | _ => [place]

theorem length_asked_le (limit : ℕ) (place : σ) : (asked read limit place).length ≤ limit := by
  induction limit generalizing place with
  | zero => exact Nat.le_refl 0
  | succ limit ih =>
    rw [asked]
    split
    · exact Nat.succ_le_succ (ih _)
    · exact Nat.succ_le_succ (Nat.zero_le limit)

end IsvValidation.Library.Paging
