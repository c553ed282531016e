import Mathlib.Data.List.Basic

/-!
# Stages and poll loops

A stage logs what it does, and ends with a value or stops what it is a stage of. A poll loop is a stage
which takes one reading after another until one decides it, and carries what it needs from reading to
reading. The rules say what a stage has logged when it returns a value.
-/

namespace IsvValidation.Library

/-- What a stage logged, and how it ended. -/
structure Staged (ω ε : Type*) (α : Type) where
  log : List ω
  outcome : Except ε α

namespace Staged

variable {ω ε ρ σ : Type*} {α β : Type}

instance : Monad (Staged ω ε) where
  pure value := ⟨[], .ok value⟩
  bind stage next :=
    match stage.outcome with
    | .ok value => ⟨stage.log ++ (next value).log, (next value).outcome⟩
    | .error stop => ⟨stage.log, .error stop⟩

/-- A stage which logs nothing. -/
def ofExcept (outcome : Except ε α) : Staged ω ε α := ⟨[], outcome⟩

/-- A stage of a single event. -/
def did (event : ω) (outcome : Except ε α) : Staged ω ε α := ⟨[event], outcome⟩

/-- The stage ended with a value, and this is what it logged. -/
def Returns (stage : Staged ω ε α) (log : List ω) (value : α) : Prop :=
  stage.log = log ∧ stage.outcome = .ok value

variable {log : List ω}

theorem returns_pure {value result : α} :
    (pure value : Staged ω ε α).Returns log result ↔ log = [] ∧ value = result := by
  change ([] = log ∧ Except.ok value = Except.ok result) ↔ _
  simp [eq_comm]

theorem returns_ofExcept {outcome : Except ε α} {result : α} :
    (ofExcept outcome : Staged ω ε α).Returns log result ↔ log = [] ∧ outcome = .ok result := by
  simp [Returns, ofExcept, eq_comm]

theorem returns_did {event : ω} {outcome : Except ε α} {result : α} :
    (did event outcome).Returns log result ↔ log = [event] ∧ outcome = .ok result := by
  simp [Returns, did, eq_comm]

/-- A sequence of two stages returns when both do, and logs one after the other. -/
theorem returns_bind {stage : Staged ω ε α} {next : α → Staged ω ε β} {result : β} :
    (stage >>= next).Returns log result ↔
      ∃ value before after, stage.Returns before value ∧ (next value).Returns after result ∧
        log = before ++ after := by
  obtain ⟨logged, outcome⟩ := stage
  cases outcome with
  | error stop => simp [Returns, bind]
  | ok value =>
    change (logged ++ (next value).log = log ∧ (next value).outcome = .ok result) ↔ _
    constructor
    · intro ⟨hlog, hresult⟩
      exact ⟨value, logged, (next value).log, ⟨rfl, rfl⟩, ⟨rfl, hresult⟩, hlog.symm⟩
    · intro ⟨found, before, after, ⟨hbefore, hfound⟩, ⟨hafter, hresult⟩, hlog⟩
      cases hfound
      exact ⟨by rw [hlog, hafter, ← hbefore], hresult⟩

theorem returns_ofExcept_bind {outcome : Except ε α} {next : α → Staged ω ε β} {result : β} :
    (ofExcept outcome >>= next).Returns log result ↔
      ∃ value, outcome = .ok value ∧ (next value).Returns log result := by
  rw [returns_bind]
  constructor
  · intro ⟨value, before, after, hvalue, hafter, hlog⟩
    have ⟨hbefore, houtcome⟩ := returns_ofExcept.mp hvalue
    rw [hlog, hbefore]
    exact ⟨value, houtcome, hafter⟩
  · intro ⟨value, houtcome, hafter⟩
    exact ⟨value, [], log, returns_ofExcept.mpr ⟨rfl, houtcome⟩, hafter, rfl⟩

/-! ## Poll loops -/

/-- What a reading does to a poll loop. -/
inductive Judgement (σ β : Type*) where
  | decided (result : β)
  | undecided (carried : σ)

variable (event : ρ → ω) (judge : σ → ρ → Judgement σ (Except ε α)) (expired : σ → Except ε α)

/-- Judge the readings in order until one decides; when they run out, `expired` does. -/
def poll : σ → List ρ → Staged ω ε α
  | carried, [] => ofExcept (expired carried)
  | carried, reading :: rest =>
    match judge carried reading with
    | .decided outcome => did (event reading) outcome
    | .undecided next => did (event reading) (.ok ()) >>= fun _ ↦ poll next rest

/-- The readings are undecided one after the other, and this is what is carried out of them. -/
inductive Carries : σ → List ρ → σ → Prop where
  | nil (carried : σ) : Carries carried [] carried
  | cons {carried next last : σ} {reading : ρ} {rest : List ρ}
      (undecided : judge carried reading = .undecided next) (onward : Carries next rest last) :
      Carries carried (reading :: rest) last

variable {event judge expired}

/-- A loop which cannot return by running out returns by a reading, after undecided ones. -/
theorem returns_poll {carried : σ} {readings : List ρ} {result : α}
    (fails : ∀ carried, expired carried ≠ .ok result)
    (h : (poll event judge expired carried readings).Returns log result) :
    ∃ before reading after last, readings = before ++ reading :: after ∧
      Carries judge carried before last ∧ judge last reading = .decided (.ok result) ∧
      log = before.map event ++ [event reading] := by
  induction readings generalizing carried log with
  | nil => exact absurd (returns_ofExcept.mp h).2 (fails carried)
  | cons reading rest ih =>
    rw [poll] at h
    cases hjudge : judge carried reading with
    | decided outcome =>
      rw [hjudge] at h
      have ⟨hlog, houtcome⟩ := returns_did.mp h
      exact ⟨[], reading, rest, carried, rfl, .nil carried, houtcome ▸ hjudge, hlog⟩
    | undecided next =>
      rw [hjudge] at h
      obtain ⟨_, first, later, hfirst, hlater, rfl⟩ := returns_bind.mp h
      obtain ⟨before, decisive, after, last, rfl, hcarries, hdecided, rfl⟩ := ih hlater
      refine ⟨reading :: before, decisive, after, last, rfl, .cons hjudge hcarries, hdecided, ?_⟩
      rw [(returns_did.mp hfirst).1]
      rfl

/-- What every undecided reading preserves is carried through all of them. -/
theorem Carries.invariant {P : σ → Prop}
    (preserves : ∀ carried reading next, judge carried reading = .undecided next → P carried → P next)
    {carried last : σ} {readings : List ρ} (h : Carries judge carried readings last)
    (initial : P carried) : P last := by
  induction h with
  | nil carried => exact initial
  | cons undecided _ ih => exact ih (preserves _ _ _ undecided initial)

/-- What holds of the last carried value, and holds before each reading for which it holds after,
comes with a fact about every reading. -/
theorem Carries.forall_readings {P : σ → Prop} {Q : ρ → Prop}
    (back : ∀ carried reading next, judge carried reading = .undecided next → P next →
      P carried ∧ Q reading)
    {carried last : σ} {readings : List ρ} (h : Carries judge carried readings last)
    (holds : P last) : P carried ∧ ∀ reading ∈ readings, Q reading := by
  induction h with
  | nil carried => exact ⟨holds, by simp⟩
  | cons undecided _ ih =>
    have ⟨hnext, hrest⟩ := ih holds
    have ⟨hcarried, hreading⟩ := back _ _ _ undecided hnext
    exact ⟨hcarried, List.forall_mem_cons.mpr ⟨hreading, hrest⟩⟩

end Staged

end IsvValidation.Library
