import Mathlib.Data.List.Find
import IsvValidation.Library.OrderedMap

/-!
# Greedy assignment

Seekers come one after the other, and each takes the first candidate it wants whose name nobody has taken
yet. No two of them get the same name, and what a seeker without a candidate wanted was taken. Where a
candidate has one seeker it belongs to, it depends on who comes first whether every seeker gets what is its
own: the first candidate which is spared by the others has to be.
-/

namespace IsvValidation.Library.Greedy

variable {α β κ : Type*} [DecidableEq α] [DecidableEq κ]

/-- What the seekers have found, and the names which are taken. -/
structure State (α κ : Type*) [DecidableEq α] where
  found : OrderedMap α κ := .empty
  claimed : List κ := []

section Run

variable (name : β → κ) (candidates : List β)

/-- The first candidate under a condition whose name is not taken. -/
def firstFree (wanted : β → Bool) (claimed : List κ) : Option β :=
  candidates.find? fun candidate ↦ !claimed.contains (name candidate) && wanted candidate

def step (wants : α → β → Bool) (state : State α κ) (seeker : α) : State α κ :=
  match firstFree name candidates (wants seeker) state.claimed with
  | none => state
  | some candidate =>
    ⟨state.found.insert seeker (name candidate), state.claimed ++ [name candidate]⟩

def run (wants : α → β → Bool) (seekers : List α) (state : State α κ) : State α κ :=
  seekers.foldl (step name candidates wants) state

end Run

variable {name : β → κ} {candidates : List β} {wants : α → β → Bool} {state : State α κ}
  {seeker other : α} {seekers : List α} {key : κ}

theorem firstFree_eq_some {wanted : β → Bool} {claimed : List κ} {candidate : β}
    (h : firstFree name candidates wanted claimed = some candidate) :
    candidate ∈ candidates ∧ name candidate ∉ claimed ∧ wanted candidate = true := by
  have hfound := List.find?_some h
  rw [Bool.and_eq_true, Bool.not_eq_true', List.contains_eq_mem, decide_eq_false_iff_not] at hfound
  exact ⟨List.mem_of_find?_eq_some h, hfound⟩

theorem firstFree_eq_none {wanted : β → Bool} {claimed : List κ}
    (h : firstFree name candidates wanted claimed = none) {candidate : β} (hmem : candidate ∈ candidates)
    (hwanted : wanted candidate = true) : name candidate ∈ claimed := by
  have hnone := List.find?_eq_none.mp h candidate hmem
  rw [hwanted, Bool.and_true, Bool.not_eq_true', Bool.not_eq_false, List.contains_eq_mem,
    decide_eq_true_eq] at hnone
  exact hnone

theorem get?_found_step : (step name candidates wants state seeker).found.get? other =
    if other = seeker then
      ((firstFree name candidates (wants seeker) state.claimed).map name).or (state.found.get? other)
    else state.found.get? other := by
  rw [step]
  cases firstFree name candidates (wants seeker) state.claimed with
  | none => simp
  | some candidate => simp

theorem mem_claimed_step : key ∈ (step name candidates wants state seeker).claimed ↔
    key ∈ state.claimed ∨ (firstFree name candidates (wants seeker) state.claimed).map name = some key := by
  rw [step]
  cases firstFree name candidates (wants seeker) state.claimed with
  | none => simp
  | some candidate => simp [eq_comm]

theorem run_append (front back : List α) : run name candidates wants (front ++ back) state =
    run name candidates wants back (run name candidates wants front state) := List.foldl_append

/-! ## Every run -/

theorem get?_found_run_of_notMem (h : other ∉ seekers) :
    (run name candidates wants seekers state).found.get? other = state.found.get? other := by
  induction seekers generalizing state with
  | nil => rfl
  | cons seeker rest ih =>
    rw [List.mem_cons, not_or] at h
    have hrest := @ih (step name candidates wants state seeker) h.2
    rwa [get?_found_step, if_neg h.1] at hrest

theorem mem_claimed_run (h : key ∈ state.claimed) : key ∈ (run name candidates wants seekers state).claimed := by
  induction seekers generalizing state with
  | nil => exact h
  | cons seeker rest ih => exact ih (mem_claimed_step.mpr (.inl h))

/-- What a seeker gets is its choice when its turn comes. -/
theorem get?_found_run {front back : List α} (hback : seeker ∉ back) :
    (run name candidates wants (front ++ seeker :: back) state).found.get? seeker =
      ((firstFree name candidates (wants seeker) (run name candidates wants front state).claimed).map name).or
        ((run name candidates wants front state).found.get? seeker) := by
  rw [run_append]
  have hrest := @get?_found_run_of_notMem _ _ _ _ _ name candidates wants
    (step name candidates wants (run name candidates wants front state) seeker) seeker back hback
  rw [get?_found_step, if_pos rfl] at hrest
  exact hrest

/-- What is found is wanted. -/
theorem wanted_of_found (hnew : state.found.get? seeker = none)
    (h : (run name candidates wants seekers state).found.get? seeker = some key) :
    ∃ candidate ∈ candidates, name candidate = key ∧ wants seeker candidate = true := by
  induction seekers using List.reverseRecOn with
  | nil =>
    rw [run, List.foldl_nil, hnew] at h
    cases h
  | append_singleton front last ih =>
    rw [run_append] at h
    change (step name candidates wants (run name candidates wants front state) last).found.get? seeker = _ at h
    rw [get?_found_step] at h
    by_cases hlast : seeker = last
    · rw [if_pos hlast, Option.or_eq_some_iff, ← hlast] at h
      rcases h with h | h
      · rw [Option.map_eq_some_iff] at h
        obtain ⟨candidate, hfree, hname⟩ := h
        have hspec := firstFree_eq_some hfree
        exact ⟨candidate, hspec.1, hname, hspec.2.2⟩
      · exact ih h.2
    · rw [if_neg hlast] at h
      exact ih h

/-- A seeker who finds nothing finds all it wanted taken. -/
theorem claimed_of_not_found (hmem : seeker ∈ seekers) (hnodup : seekers.Nodup)
    (h : (run name candidates wants seekers state).found.get? seeker = none) {candidate : β}
    (hcandidate : candidate ∈ candidates) (hwants : wants seeker candidate = true) :
    name candidate ∈ (run name candidates wants seekers state).claimed := by
  obtain ⟨front, back, rfl⟩ := List.append_of_mem hmem
  rw [get?_found_run (List.nodup_cons.mp hnodup.of_append_right).1, Option.or_eq_none_iff,
    Option.map_eq_none_iff] at h
  have hclaimed := firstFree_eq_none h.1 hcandidate hwants
  rw [run_append]
  exact mem_claimed_run hclaimed

/-- The names which are taken are those which were found, each by one seeker. -/
structure Sound (state : State α κ) : Prop where
  claimed : ∀ key, key ∈ state.claimed ↔ ∃ seeker, state.found.get? seeker = some key
  injective : ∀ first second key, state.found.get? first = some key → state.found.get? second = some key →
    first = second

omit [DecidableEq κ] in
theorem sound_empty : Sound ({} : State α κ) :=
  ⟨fun key ↦ by simp, fun first second key h ↦ by cases h⟩

theorem Sound.step (h : Sound state) (hnew : state.found.get? seeker = none) :
    Sound (step name candidates wants state seeker) := by
  cases hfree : firstFree name candidates (wants seeker) state.claimed with
  | none =>
    rw [Greedy.step, hfree]
    exact h
  | some candidate =>
    have hname : ∀ first, state.found.get? first ≠ some (name candidate) := fun first hfirst ↦
      (firstFree_eq_some hfree).2.1 ((h.claimed _).mpr ⟨first, hfirst⟩)
    constructor
    · intro key
      rw [mem_claimed_step, hfree, h.claimed]
      constructor
      · rintro (⟨first, hfirst⟩ | hkey)
        · have hne : first ≠ seeker := by
            rintro rfl
            rw [hnew] at hfirst
            cases hfirst
          exact ⟨first, by rw [get?_found_step, if_neg hne, hfirst]⟩
        · exact ⟨seeker, by rw [get?_found_step, if_pos rfl, hfree, hkey, Option.some_or]⟩
      · rintro ⟨first, hfirst⟩
        rw [get?_found_step] at hfirst
        by_cases heq : first = seeker
        · rw [if_pos heq, hfree, heq, hnew, Option.or_none] at hfirst
          exact .inr hfirst
        · rw [if_neg heq] at hfirst
          exact .inl ⟨first, hfirst⟩
    · intro first second key hfirst hsecond
      rw [get?_found_step, hfree, Option.map_some, Option.some_or] at hfirst hsecond
      by_cases hone : first = seeker
      · by_cases htwo : second = seeker
        · rw [hone, htwo]
        · rw [if_pos hone] at hfirst
          rw [if_neg htwo, ← hfirst] at hsecond
          exact absurd hsecond (hname second)
      · rw [if_neg hone] at hfirst
        by_cases htwo : second = seeker
        · rw [if_pos htwo] at hsecond
          rw [← hsecond] at hfirst
          exact absurd hfirst (hname first)
        · rw [if_neg htwo] at hsecond
          exact h.injective first second key hfirst hsecond

theorem Sound.run (h : Sound state) (hnodup : seekers.Nodup)
    (hnew : ∀ seeker ∈ seekers, state.found.get? seeker = none) :
    Sound (run name candidates wants seekers state) := by
  induction seekers generalizing state with
  | nil => exact h
  | cons seeker rest ih =>
    rw [List.nodup_cons] at hnodup
    rw [List.forall_mem_cons] at hnew
    refine ih (h.step hnew.1) hnodup.2 fun other hother ↦ ?_
    have hne : other ≠ seeker := ne_of_mem_of_not_mem hother hnodup.1
    rw [get?_found_step, if_neg hne]
    exact hnew.2 other hother

/-! ## Seekers who do not compete -/

section Disjoint

/-- Nobody wants what another one wants. -/
def Disjoint (name : β → κ) (candidates : List β) (wants : α → β → Bool) : Prop :=
  ∀ first second, ∀ one ∈ candidates, ∀ two ∈ candidates, wants first one = true → wants second two = true →
    name one = name two → first = second

/-- The first candidate each of the seekers wants. -/
def firstChoices (name : β → κ) (candidates : List β) (wants : α → β → Bool) (seekers : List α) : List κ :=
  seekers.filterMap fun seeker ↦ (candidates.find? (wants seeker)).map name

omit [DecidableEq α] [DecidableEq κ] in
theorem mem_firstChoices : key ∈ firstChoices name candidates wants seekers ↔
    ∃ seeker ∈ seekers, (candidates.find? (wants seeker)).map name = some key := List.mem_filterMap

omit [DecidableEq α] in
/-- Where a seeker wants no candidate of another one, its choice is not taken by the others. -/
theorem firstFree_firstChoices (h : Disjoint name candidates wants) (hseeker : seeker ∉ seekers) :
    firstFree name candidates (wants seeker) (firstChoices name candidates wants seekers) =
      candidates.find? (wants seeker) := by
  rw [firstFree]
  refine List.find?_congr fun candidate hcandidate ↦ ?_
  cases hwants : wants seeker candidate with
  | false => rw [Bool.and_false]
  | true =>
    rw [Bool.and_true, Bool.not_eq_true', List.contains_eq_mem, decide_eq_false_iff_not, mem_firstChoices]
    rintro ⟨other, hother, hchoice⟩
    rw [Option.map_eq_some_iff] at hchoice
    obtain ⟨two, hfind, hname⟩ := hchoice
    have heq := h seeker other candidate hcandidate two (List.mem_of_find?_eq_some hfind) hwants
      (List.find?_some hfind) hname.symm
    exact hseeker (heq ▸ hother)

theorem claimed_run_of_disjoint (h : Disjoint name candidates wants) (hnodup : seekers.Nodup) :
    (run name candidates wants seekers {}).claimed = firstChoices name candidates wants seekers := by
  induction seekers using List.reverseRecOn with
  | nil => rfl
  | append_singleton front last ih =>
    rw [List.nodup_append] at hnodup
    have hfront := ih hnodup.1
    have hlast : last ∉ front := fun hmem ↦ hnodup.2.2 last hmem last (List.mem_singleton_self last) rfl
    rw [run_append]
    change (step name candidates wants _ last).claimed = _
    rw [step, hfront, firstFree_firstChoices h hlast, firstChoices, firstChoices, List.filterMap_append]
    cases hfind : candidates.find? (wants last) with
    | none => simp [hfind, hfront, firstChoices]
    | some candidate => simp [hfind]

theorem get?_found_run_of_disjoint (h : Disjoint name candidates wants) (hnodup : seekers.Nodup)
    (hseeker : seeker ∈ seekers) : (run name candidates wants seekers {}).found.get? seeker =
      (candidates.find? (wants seeker)).map name := by
  obtain ⟨front, back, rfl⟩ := List.append_of_mem hseeker
  have hcons := List.nodup_cons.mp hnodup.of_append_right
  have hfront : seeker ∉ front := fun hmem ↦
    List.disjoint_of_nodup_append hnodup hmem List.mem_cons_self
  rw [get?_found_run hcons.1, claimed_run_of_disjoint h hnodup.of_append_left,
    firstFree_firstChoices h hfront, get?_found_run_of_notMem hfront, OrderedMap.get?_empty, Option.or_none]

end Disjoint

/-! ## Seekers with candidates of their own -/

/-- A candidate belongs to one of those who want it, and nobody before that one in line wants it. -/
structure Priority (candidates : List β) (wants own : α → β → Bool) (seekers : List α) : Prop where
  wants_of_own : ∀ seeker candidate, own seeker candidate = true → wants seeker candidate = true
  unique : ∀ first ∈ seekers, ∀ second ∈ seekers, ∀ candidate, own first candidate = true →
    own second candidate = true → first = second
  last : seekers.Pairwise fun first second ↦
    ∀ candidate ∈ candidates, wants first candidate = true → own second candidate = false

section Own

variable (name candidates wants)

/-- A candidate which is wanted and not taken at the start, and is not the first one of another seeker's own. -/
def spare (own : α → β → Bool) (seekers : List α) (claimed : List κ) (seeker : α) (candidate : β) : Bool :=
  wants seeker candidate && !claimed.contains (name candidate) &&
    seekers.all fun other ↦ other = seeker ||
      (firstFree name candidates (own other) claimed).map name ≠ some (name candidate)

/-- The first candidate the others spare. -/
def firstSpare (own : α → β → Bool) (seekers : List α) (claimed : List κ) (seeker : α) : Option β :=
  candidates.find? (spare name candidates wants own seekers claimed seeker)

end Own

variable {own : α → β → Bool} {claimed : List κ}

theorem spare_eq_true {candidate : β} :
    spare name candidates wants own seekers claimed seeker candidate = true ↔
      wants seeker candidate = true ∧ name candidate ∉ claimed ∧ ∀ other ∈ seekers, other ≠ seeker →
        (firstFree name candidates (own other) claimed).map name ≠ some (name candidate) := by
  rw [spare, Bool.and_eq_true, Bool.and_eq_true, List.all_eq_true, and_assoc]
  simp [or_iff_not_imp_left]

/-- The order of the seekers does not matter for what is spared. -/
theorem firstSpare_perm {others : List α} (h : seekers.Perm others) :
    firstSpare name candidates wants own seekers claimed seeker =
      firstSpare name candidates wants own others claimed seeker := by
  refine List.find?_congr fun candidate _ ↦ ?_
  rw [Bool.eq_iff_iff, spare_eq_true, spare_eq_true]
  simp only [h.mem_iff]

/-- What is one's own and free is spared by the others. -/
theorem spare_of_own (hpriority : Priority candidates wants own seekers)
    (hinj : ∀ one ∈ candidates, ∀ two ∈ candidates, name one = name two → one = two)
    (hseeker : seeker ∈ seekers) {candidate : β} (hcandidate : candidate ∈ candidates)
    (hown : own seeker candidate = true) (hfree : name candidate ∉ claimed) :
    spare name candidates wants own seekers claimed seeker candidate = true := by
  rw [spare_eq_true]
  refine ⟨hpriority.wants_of_own _ _ hown, hfree, ?_⟩
  intro other hother hne hfirst
  rw [Option.map_eq_some_iff] at hfirst
  obtain ⟨two, htwo, hname⟩ := hfirst
  have hspec := firstFree_eq_some htwo
  rw [hinj two hspec.1 candidate hcandidate hname] at hspec
  exact hne (hpriority.unique other hother seeker hseeker candidate hspec.2.2 hown)

/-- Where the first spared candidate is one's own, it is the first of one's own. -/
theorem firstSpare_eq_firstFree (hpriority : Priority candidates wants own seekers)
    (hinj : ∀ one ∈ candidates, ∀ two ∈ candidates, name one = name two → one = two)
    (hseeker : seeker ∈ seekers)
    (h : ∀ candidate, firstSpare name candidates wants own seekers claimed seeker = some candidate →
      own seeker candidate = true) :
    firstSpare name candidates wants own seekers claimed seeker =
      firstFree name candidates (own seeker) claimed := by
  have hspared : ∀ candidate ∈ candidates, own seeker candidate = true → name candidate ∉ claimed →
      spare name candidates wants own seekers claimed seeker candidate = true :=
    fun candidate hmem hown hfree ↦ spare_of_own hpriority hinj hseeker hmem hown hfree
  cases hspare : firstSpare name candidates wants own seekers claimed seeker with
  | none =>
    cases hfirst : firstFree name candidates (own seeker) claimed with
    | none => rfl
    | some candidate =>
      have hspec := firstFree_eq_some hfirst
      have hnot := List.find?_eq_none.mp hspare candidate hspec.1
      exact absurd (hspared candidate hspec.1 hspec.2.2 hspec.2.1) hnot
  | some candidate =>
    have hown := h candidate hspare
    rw [firstSpare, List.find?_eq_some_iff_append] at hspare
    obtain ⟨htrue, front, back, hsplit, hfront⟩ := hspare
    rw [spare_eq_true] at htrue
    symm
    rw [firstFree, List.find?_eq_some_iff_append]
    refine ⟨?_, front, back, hsplit, ?_⟩
    · rw [hown, Bool.and_true, Bool.not_eq_true', List.contains_eq_mem, decide_eq_false_iff_not]
      exact htrue.2.1
    · intro earlier hearlier
      have hnot := hfront earlier hearlier
      rw [Bool.not_eq_true', Bool.and_eq_false_iff]
      by_contra hfree
      rw [not_or, Bool.not_eq_false, Bool.not_eq_false, Bool.not_eq_true', List.contains_eq_mem,
        decide_eq_false_iff_not] at hfree
      have hmem : earlier ∈ candidates := hsplit ▸ List.mem_append_left _ hearlier
      rw [hspared earlier hmem hfree.2 hfree.1] at hnot
      cases hnot

/-- As long as those who came first got what is their own, the next one takes the first spared candidate. -/
theorem firstFree_run {front back : List α} (hpriority : Priority candidates wants own (front ++ seeker :: back))
    (hnodup : (front ++ seeker :: back).Nodup)
    (hclaimed : ∀ key, key ∈ (run name candidates wants front state).claimed ↔ key ∈ state.claimed ∨
      ∃ other ∈ front, (firstFree name candidates (own other) state.claimed).map name = some key)
    (hinj : ∀ one ∈ candidates, ∀ two ∈ candidates, name one = name two → one = two) :
    firstFree name candidates (wants seeker) (run name candidates wants front state).claimed =
      firstSpare name candidates wants own (front ++ seeker :: back) state.claimed seeker := by
  refine List.find?_congr fun candidate hcandidate ↦ ?_
  rw [Bool.eq_iff_iff, Bool.and_eq_true, Bool.not_eq_true', List.contains_eq_mem, decide_eq_false_iff_not,
    hclaimed, not_or, spare_eq_true]
  constructor
  · rintro ⟨⟨hfree, hfront⟩, hwants⟩
    refine ⟨hwants, hfree, fun other hother hne hfirst ↦ ?_⟩
    rw [List.mem_append, List.mem_cons] at hother
    rcases hother with hother | hother | hother
    · exact hfront ⟨other, hother, hfirst⟩
    · exact hne hother
    · -- who comes later has no candidate of its own which is wanted now
      have hlast := (List.pairwise_cons.mp (List.pairwise_append.mp hpriority.last).2.1).1 other hother
        candidate hcandidate hwants
      rw [Option.map_eq_some_iff] at hfirst
      obtain ⟨two, htwo, hname⟩ := hfirst
      have hspec := firstFree_eq_some htwo
      rw [hinj two hspec.1 candidate hcandidate hname, hlast] at hspec
      cases hspec.2.2
  · rintro ⟨hwants, hfree, hothers⟩
    refine ⟨⟨hfree, ?_⟩, hwants⟩
    rintro ⟨other, hother, hfirst⟩
    have hne : other ≠ seeker := by
      rintro rfl
      exact List.disjoint_of_nodup_append hnodup hother List.mem_cons_self
    exact hothers other (List.mem_append_left _ hother) hne hfirst

/-- Where the first spared candidate of each of the first seekers is its own, they take just these. -/
theorem mem_claimed_run_iff {seekers back : List α} (hpriority : Priority candidates wants own (seekers ++ back))
    (hnodup : (seekers ++ back).Nodup)
    (hinj : ∀ one ∈ candidates, ∀ two ∈ candidates, name one = name two → one = two)
    (h : ∀ seeker ∈ seekers, ∀ candidate,
      firstSpare name candidates wants own (seekers ++ back) state.claimed seeker = some candidate →
        own seeker candidate = true) :
    key ∈ (run name candidates wants seekers state).claimed ↔ key ∈ state.claimed ∨
      ∃ other ∈ seekers, (firstFree name candidates (own other) state.claimed).map name = some key := by
  induction seekers using List.reverseRecOn generalizing back key with
  | nil => simp [run]
  | append_singleton front last ih =>
    rw [List.append_assoc, List.singleton_append] at hpriority hnodup h
    have hfront : ∀ key, key ∈ (run name candidates wants front state).claimed ↔ key ∈ state.claimed ∨
        ∃ other ∈ front, (firstFree name candidates (own other) state.claimed).map name = some key :=
      fun key ↦ ih hpriority hnodup fun seeker hseeker ↦ h seeker (List.mem_append_left _ hseeker)
    have hfirst := firstFree_run hpriority hnodup hfront hinj
    have hlast : last ∈ front ++ last :: back := List.mem_append_right _ List.mem_cons_self
    rw [firstSpare_eq_firstFree hpriority hinj hlast (h last (by simp))] at hfirst
    rw [run_append]
    change key ∈ (step name candidates wants _ last).claimed ↔ _
    rw [mem_claimed_step, hfront, hfirst, or_assoc]
    simp [or_and_right, exists_or]

/-- Every seeker gets a candidate of its own, or none, exactly where the first spared one is its own. -/
theorem own_of_found_iff (hpriority : Priority candidates wants own seekers) (hnodup : seekers.Nodup)
    (hinj : ∀ one ∈ candidates, ∀ two ∈ candidates, name one = name two → one = two)
    (hnew : ∀ seeker ∈ seekers, state.found.get? seeker = none) :
    (∀ seeker ∈ seekers, ∀ candidate ∈ candidates,
      (run name candidates wants seekers state).found.get? seeker = some (name candidate) →
        own seeker candidate = true) ↔
    ∀ seeker ∈ seekers, ∀ candidate,
      firstSpare name candidates wants own seekers state.claimed seeker = some candidate →
        own seeker candidate = true := by
  -- the choice of a seeker is its first spared candidate, if those before it kept to their own
  have hchoice : ∀ front seeker back, seekers = front ++ seeker :: back →
      (∀ other ∈ front, ∀ candidate,
        firstSpare name candidates wants own seekers state.claimed other = some candidate →
          own other candidate = true) →
      (run name candidates wants seekers state).found.get? seeker =
        (firstSpare name candidates wants own seekers state.claimed seeker).map name := by
    rintro front seeker back rfl hfront
    have hclaimed := fun key ↦ @mem_claimed_run_iff _ _ _ _ _ name candidates wants state key own front
      (seeker :: back) hpriority hnodup hinj hfront
    have hback := (List.nodup_cons.mp hnodup.of_append_right).1
    have hnot : seeker ∉ front := fun hmem ↦ List.disjoint_of_nodup_append hnodup hmem List.mem_cons_self
    rw [get?_found_run hback, firstFree_run hpriority hnodup hclaimed hinj, get?_found_run_of_notMem hnot,
      hnew seeker (List.mem_append_right _ List.mem_cons_self), Option.or_none]
  constructor
  · intro h
    have hfronts : ∀ front back, seekers = front ++ back → ∀ seeker ∈ front, ∀ candidate,
        firstSpare name candidates wants own seekers state.claimed seeker = some candidate →
          own seeker candidate = true := by
      intro front
      induction front using List.reverseRecOn with
      | nil => exact fun back _ seeker hseeker ↦ absurd hseeker List.not_mem_nil
      | append_singleton front last ih =>
        intro back hsplit seeker hseeker candidate hspare
        rw [List.append_assoc, List.singleton_append] at hsplit
        have hfront := ih _ hsplit
        rw [List.mem_append, List.mem_singleton] at hseeker
        rcases hseeker with hseeker | hseeker
        · exact hfront seeker hseeker candidate hspare
        · rw [hseeker] at hspare ⊢
          have hfound := hchoice front last back hsplit hfront
          rw [hspare] at hfound
          exact h last (hsplit ▸ List.mem_append_right _ List.mem_cons_self) candidate
            (List.mem_of_find?_eq_some hspare) hfound
    exact hfronts seekers [] (List.append_nil _).symm
  · intro h seeker hseeker candidate hcandidate hfound
    obtain ⟨front, back, hsplit⟩ := List.append_of_mem hseeker
    have hfront := hchoice front seeker back hsplit fun other hother ↦
      h other (hsplit ▸ List.mem_append_left _ hother)
    rw [hfront, Option.map_eq_some_iff] at hfound
    obtain ⟨two, hspare, hname⟩ := hfound
    have heq := hinj two (List.mem_of_find?_eq_some hspare) candidate hcandidate hname
    exact heq ▸ h seeker hseeker two hspare

end IsvValidation.Library.Greedy
