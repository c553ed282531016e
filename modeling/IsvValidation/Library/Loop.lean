import Mathlib.Data.List.Basic

/-!
# Loops which may break or raise

A `for` loop over a list threads a state through its body. One iteration falls through to the
next item, breaks out of the loop, or raises an error; in each case the state reached so far is
kept, so that what was done before an error can still be observed. The rules below prove
properties of whole runs from one statement about the body.
-/

namespace IsvValidation.Library.Loop

/-- How one iteration, or a whole loop, ended. -/
inductive Signal (ε σ : Type*) where
  | next (state : σ)
  | halt (state : σ)
  | raise (error : ε) (state : σ)

variable {ε σ α : Type*}

namespace Signal

/-- The state reached, whichever way the iteration ended. -/
def state : Signal ε σ → σ
  | next state => state
  | halt state => state
  | raise _ state => state

/-- The error which ended the loop, if one did. -/
def error? : Signal ε σ → Option ε
  | raise error _ => some error
  | _ => none

@[simp] theorem state_next (s : σ) : (next s : Signal ε σ).state = s := rfl
@[simp] theorem state_halt (s : σ) : (halt s : Signal ε σ).state = s := rfl
@[simp] theorem state_raise (e : ε) (s : σ) : (raise e s).state = s := rfl
@[simp] theorem error?_next (s : σ) : (next s : Signal ε σ).error? = none := rfl
@[simp] theorem error?_halt (s : σ) : (halt s : Signal ε σ).error? = none := rfl
@[simp] theorem error?_raise (e : ε) (s : σ) : (raise e s).error? = some e := rfl

end Signal

/-- Run the body on each item in order until it breaks, raises or the items are used up. -/
def run (body : α → σ → Signal ε σ) : List α → σ → Signal ε σ
  | [], state => .next state
  | item :: rest, state =>
    match body item state with
    | .next state => run body rest state
    | stopped => stopped

variable {body : α → σ → Signal ε σ}

@[simp] theorem run_nil (state : σ) : run body [] state = .next state := rfl

theorem run_cons (item : α) (rest : List α) (state : σ) :
    run body (item :: rest) state =
      match body item state with
      | .next state => run body rest state
      | stopped => stopped := rfl

/-- Running two lists one after the other is running their concatenation. -/
theorem run_append (first second : List α) (state : σ) :
    run body (first ++ second) state =
      match run body first state with
      | .next state => run body second state
      | stopped => stopped := by
  induction first generalizing state with
  | nil => rfl
  | cons item rest ih =>
    simp only [List.cons_append, run_cons]
    cases body item state with
    | next after => exact ih after
    | halt after => rfl
    | raise error after => rfl

/-- What every iteration preserves holds of the final state, however the loop ended. -/
theorem run_invariant {I : σ → Prop} {items : List α} {state : σ} (initial : I state)
    (preserves : ∀ item ∈ items, ∀ s, I s → I (body item s).state) :
    I (run body items state).state := by
  induction items generalizing state with
  | nil => exact initial
  | cons item rest ih =>
    have hstep := preserves item (List.mem_cons_self ..) state initial
    rw [run_cons]
    cases hbody : body item state with
    | next after =>
      rw [hbody] at hstep
      exact ih hstep fun other hother ↦ preserves other (List.mem_cons_of_mem _ hother)
    | halt after => simpa [hbody] using hstep
    | raise error after => simpa [hbody] using hstep

/-- `P` holds at the start of every iteration the loop reaches. -/
def Always (body : α → σ → Signal ε σ) (P : α → σ → Prop) : List α → σ → Prop
  | [], _ => True
  | item :: rest, state =>
    P item state ∧
      match body item state with
      | .next after => Always body P rest after
      | _ => True

/-- A condition on the way an iteration goes on can be evaluated. -/
def decidableNext (signal : Signal ε σ) (P : σ → Prop) [DecidablePred P] :
    Decidable (match signal with
      | .next after => P after
      | _ => True) :=
  match signal with
  | .next after => inferInstanceAs (Decidable (P after))
  | .halt _ => isTrue trivial
  | .raise _ _ => isTrue trivial

instance decidableAlways (P : α → σ → Prop) [∀ item, DecidablePred (P item)] :
    (items : List α) → DecidablePred (Always body P items)
  | [], _ => isTrue trivial
  | item :: rest, state =>
    have := decidableAlways P rest
    have := decidableNext (body item state) (Always body P rest)
    inferInstanceAs (Decidable (P item state ∧ _))

/-- The rule for a whole loop: `P` holds at the start of every iteration, `I` speaks about the items
already processed, `Q` about the way the loop ended. -/
theorem Always.run_rule {P : α → σ → Prop} {I : List α → σ → Prop} {Q : Signal ε σ → Prop}
    {items : List α} {state : σ} (h : Always body P items state) (initial : I [] state)
    (step : ∀ done item rest s, items = done ++ item :: rest → P item s → I done s →
      match body item s with
      | .next after => I (done ++ [item]) after
      | stopped => Q stopped)
    (finish : ∀ s, I items s → Q (.next s)) : Q (run body items state) := by
  suffices hrest : ∀ rest done s, items = done ++ rest → Always body P rest s → I done s →
      Q (run body rest s) from hrest items [] state rfl h initial
  intro rest
  induction rest with
  | nil =>
    intro done s hitems _ hdone
    rw [List.append_nil] at hitems
    exact finish s (hitems ▸ hdone)
  | cons item rest ih =>
    intro done s hitems halways hdone
    have hstep := step done item rest s hitems halways.1 hdone
    have hafter := halways.2
    rw [run_cons]
    cases hbody : body item s with
    | next after =>
      rw [hbody] at hstep hafter
      exact ih (done ++ [item]) after (by simpa using hitems) hafter hstep
    | halt after => simpa only [hbody] using hstep
    | raise error after => simpa only [hbody] using hstep

/-- What an invariant implies holds at the start of every iteration. -/
theorem Always.of_invariant {P : α → σ → Prop} {I : σ → Prop} {items : List α} {state : σ}
    (initial : I state)
    (preserves : ∀ item ∈ items, ∀ s s', I s → body item s = .next s' → I s')
    (holds : ∀ item ∈ items, ∀ s, I s → P item s) : Always body P items state := by
  induction items generalizing state with
  | nil => trivial
  | cons item rest ih =>
    refine ⟨holds item (List.mem_cons_self ..) state initial, ?_⟩
    cases hbody : body item state with
    | next after =>
      apply ih (preserves item (List.mem_cons_self ..) state after initial hbody)
      · exact fun other hmem ↦ preserves other (List.mem_cons_of_mem item hmem)
      · exact fun other hmem ↦ holds other (List.mem_cons_of_mem item hmem)
    | halt after => trivial
    | raise error after => trivial

/-- The rule for a whole loop without a condition on the iterations. -/
theorem run_rule {I : List α → σ → Prop} {Q : Signal ε σ → Prop} {items : List α} {state : σ}
    (initial : I [] state)
    (step : ∀ done item rest s, items = done ++ item :: rest → I done s →
      match body item s with
      | .next after => I (done ++ [item]) after
      | stopped => Q stopped)
    (finish : ∀ s, I items s → Q (.next s)) : Q (run body items state) := by
  have htrivial : Always body (fun _ _ ↦ True) items state :=
    Always.of_invariant (I := fun _ ↦ True) trivial (fun _ _ _ _ _ _ ↦ trivial)
      fun _ _ _ _ ↦ trivial
  exact htrivial.run_rule initial (fun done item rest s hitems _ ↦ step done item rest s hitems)
    finish

theorem Always.mono {P Q : α → σ → Prop} (himp : ∀ item s, P item s → Q item s) {items : List α}
    {state : σ} (h : Always body P items state) : Always body Q items state := by
  induction items generalizing state with
  | nil => trivial
  | cons item rest ih =>
    refine ⟨himp item state h.1, ?_⟩
    have hrest := h.2
    cases hbody : body item state with
    | next after => exact ih (by simpa only [hbody] using hrest)
    | halt after => trivial
    | raise error after => trivial

theorem Always.and {P Q : α → σ → Prop} {items : List α} {state : σ}
    (hP : Always body P items state) (hQ : Always body Q items state) :
    Always body (fun item s ↦ P item s ∧ Q item s) items state := by
  induction items generalizing state with
  | nil => trivial
  | cons item rest ih =>
    refine ⟨⟨hP.1, hQ.1⟩, ?_⟩
    have hrestP := hP.2
    have hrestQ := hQ.2
    cases hbody : body item state with
    | next after =>
      rw [hbody] at hrestP hrestQ
      exact ih hrestP hrestQ
    | halt after => trivial
    | raise error after => trivial

/-- A defect which stays once it is there, and which an iteration adds exactly when its condition
fails, is absent after the loop exactly when every condition held. -/
theorem Always.iff_not_defect {P Q : α → σ → Prop} {I : σ → Prop} {D : σ → Prop}
    {items : List α} {state final : σ} (h : Always body Q items state) (initial : I state)
    (hclean : ¬D state)
    (step : ∀ item s s', Q item s → I s → body item s = .next s' →
      I s' ∧ (D s' ↔ D s ∨ ¬P item s))
    (hrun : run body items state = .next final) :
    Always body P items state ↔ ¬D final := by
  have hall : ∀ items state, Always body Q items state → I state →
      run body items state = .next final →
        (D final ↔ D state ∨ ¬Always body P items state) := by
    intro items
    induction items with
    | nil =>
      intro state _ _ hrun
      cases hrun
      simp [Always]
    | cons item rest ih =>
      intro state halways hI hrun
      have hrest := halways.2
      rw [run_cons] at hrun
      cases hbody : body item state with
      | next after =>
        rw [hbody] at hrest hrun
        obtain ⟨hafter, hdefect⟩ := step item state after halways.1 hI hbody
        calc
          D final ↔ D after ∨ ¬Always body P rest after := ih after hrest hafter hrun
          _ ↔ D state ∨ ¬(P item state ∧ Always body P rest after) := by
            rw [hdefect, not_and_or, or_assoc]
          _ ↔ D state ∨ ¬Always body P (item :: rest) state := by
            rw [Always, hbody]
      | halt after => rw [hbody] at hrun; cases hrun
      | raise error after => rw [hbody] at hrun; cases hrun
  rw [hall items state h initial hrun]
  simp [hclean]

/-- Two bodies which agree wherever `P` holds run alike where it always does. -/
theorem Always.run_congr {P : α → σ → Prop} {other : α → σ → Signal ε σ} {items : List α}
    {state : σ} (h : Always body P items state)
    (hagree : ∀ item ∈ items, ∀ s, P item s → body item s = other item s) :
    run body items state = run other items state := by
  induction items generalizing state with
  | nil => rfl
  | cons item rest ih =>
    have hitem := hagree item (List.mem_cons_self ..) state h.1
    have hrest := h.2
    rw [run_cons, run_cons, ← hitem]
    cases hbody : body item state with
    | next after =>
      rw [hbody] at hrest
      exact ih hrest fun other hmem ↦ hagree other (List.mem_cons_of_mem item hmem)
    | halt after => rfl
    | raise error after => rfl

/-- A defect which stays, and which an iteration adds where its condition fails, is absent only
where every condition held, however the loop ended. -/
theorem Always.of_not_defect {P : α → σ → Prop} {D : σ → Prop} {items : List α} {state : σ}
    (stays : ∀ item s, D s → D (body item s).state)
    (adds : ∀ item s, ¬P item s → D (body item s).state)
    (hclean : ¬D (run body items state).state) : Always body P items state := by
  induction items generalizing state with
  | nil => trivial
  | cons item rest ih =>
    have hbefore : ¬D (body item state).state := by
      intro hdefect
      apply hclean
      rw [run_cons]
      cases hbody : body item state with
      | next after =>
        rw [hbody] at hdefect
        exact run_invariant hdefect fun other _ s ↦ stays other s
      | halt after => simpa [hbody] using hdefect
      | raise error after => simpa [hbody] using hdefect
    constructor
    · by_contra hfails
      exact hbefore (adds item state hfails)
    · rw [run_cons] at hclean
      cases hbody : body item state with
      | next after =>
        rw [hbody] at hclean
        exact ih hclean
      | halt after => trivial
      | raise error after => trivial

end IsvValidation.Library.Loop
