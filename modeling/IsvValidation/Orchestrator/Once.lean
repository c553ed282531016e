import IsvValidation.Orchestrator.Gating

/-!
# Nothing is executed twice

Validations are guarded by the map of settled entries: an entry which was handed to a session has a
record from then on, and only entries without a record are handed over. Steps have no such guard.
They are executed once where no phase with a live step is executed again.
-/

namespace IsvValidation.Orchestrator

open Config Host Junit Library Pytest Resolution

variable {env : RunEnv} {s s' : LoopState} {phase : String}

/-- Each step's command is launched, and each entry handed to a session, at most once. -/
def AtMostOnce (visits : List Visit) : Prop :=
  (visits.flatMap Visit.launched).Nodup ∧ (visits.flatMap Visit.handed).Nodup

instance (visits : List Visit) : Decidable (AtMostOnce visits) :=
  inferInstanceAs (Decidable (_ ∧ _))

/-- A phase with a live step which is about to be executed was not executed before. -/
def FirstExecution (env : RunEnv) (phase : String) (s : LoopState) : Prop :=
  env.plan.requests phase = true → gate env s phase = none →
    liveSteps (env.plan.phaseSteps env.world.host phase) ≠ [] →
      ∀ visit ∈ s.visits, visit.phase = phase → visit.log? = none

/-- The positions of the steps attempted in a visit. -/
def Visit.attempted (visit : Visit) : List ℕ := visit.attempts.map Attempt.index

theorem launched_sublist (visit : Visit) : List.Sublist visit.launched visit.attempted :=
  List.filter_sublist.map Attempt.index

/-- A step is bucketed under one phase. -/
theorem phase_of_mem_phaseSteps {plan : Plan} {host : Runtime} {other : String} {i : ℕ}
    (h : i ∈ (plan.phaseSteps host phase).map Prod.fst)
    (hother : i ∈ (plan.phaseSteps host other).map Prod.fst) : phase = other := by
  have hstep : ∀ name, i ∈ (plan.phaseSteps host name).map Prod.fst →
      ∃ step, plan.steps[i]? = some step ∧ stepPhase host step = name := by
    intro name hmem
    obtain ⟨item, hitem, rfl⟩ := List.mem_map.mp hmem
    obtain ⟨hzip, hphase⟩ := List.mem_filter.mp hitem
    obtain ⟨entry, hentry, rfl⟩ := List.mem_map.mp hzip
    exact ⟨entry.1, List.mem_zipIdx_iff_getElem?.mp hentry, of_decide_eq_true hphase⟩
  obtain ⟨step, hget, hphase⟩ := hstep phase h
  obtain ⟨step', hget', hphase'⟩ := hstep other hother
  rw [hget, Option.some.injEq] at hget'
  rw [← hphase, ← hphase', hget']

/-! ## What one iteration adds -/

/-- The record of the loop so far: attempts at distinct steps, entries handed over once, and a
record for each of these. -/
structure OnceSoFar (env : RunEnv) (s : LoopState) : Prop where
  steps : ∀ visit ∈ s.visits, visit.attempted.Sublist
    ((liveSteps (env.plan.phaseSteps env.world.host visit.phase)).map Prod.fst)
  attempted : (s.visits.flatMap Visit.attempted).Nodup
  handed : (s.visits.flatMap Visit.handed).Nodup
  recorded : ∀ i ∈ s.visits.flatMap Visit.handed, i ∈ s.resolved.keys

theorem nodup_flatMap_concat {f : Visit → List ℕ} {visits : List Visit} {visit : Visit}
    (hold : (visits.flatMap f).Nodup) (hnew : (f visit).Nodup)
    (hdisjoint : ∀ i ∈ f visit, i ∉ visits.flatMap f) : ((visits ++ [visit]).flatMap f).Nodup := by
  rw [List.flatMap_append, List.flatMap_singleton]
  apply hold.append hnew
  intro i hi hi'
  exact hdisjoint i hi' hi

theorem nodup_liveSteps (plan : Plan) (host : Runtime) (phase : String) :
    ((liveSteps (plan.phaseSteps host phase)).map Prod.fst).Nodup :=
  (List.filter_sublist.map Prod.fst).nodup (nodup_phaseSteps plan host phase)

/-- Entries are handed over only before they have a record, however the phase ends. -/
theorem OnceSoFar.handed_concat (h : OnceSoFar env s) {visit : Visit}
    (hsublist : visit.handed.Sublist ((phaseEntries env s phase).map Prod.fst)) :
    ((s.visits ++ [visit]).flatMap Visit.handed).Nodup := by
  have hopen := (phaseEntries_sublist env s phase).map Prod.fst
  apply nodup_flatMap_concat h.handed (hsublist.nodup (hopen.nodup (nodup_openEntries env s)))
  intro i hi hold
  obtain ⟨pair, hpair, rfl⟩ := List.mem_map.mp (hopen.subset (hsublist.subset hi))
  exact (mem_openEntries.mp hpair).2 (h.recorded _ hold)

/-- A visit attempts new steps where its phase was not executed before. -/
theorem OnceSoFar.attempted_concat (h : OnceSoFar env s) (visit : Visit)
    (hsublist : visit.attempted.Sublist
      ((liveSteps (env.plan.phaseSteps env.world.host visit.phase)).map Prod.fst))
    (hfirst : visit.attempted ≠ [] → ∀ other ∈ s.visits, other.phase = visit.phase →
      other.log? = none) :
    ((s.visits ++ [visit]).flatMap Visit.attempted).Nodup := by
  apply nodup_flatMap_concat h.attempted (hsublist.nodup (nodup_liveSteps ..))
  intro i hi hold
  obtain ⟨other, hother, hi'⟩ := List.mem_flatMap.mp hold
  have hlive : ∀ name, List.Sublist
      ((liveSteps (env.plan.phaseSteps env.world.host name)).map Prod.fst)
      ((env.plan.phaseSteps env.world.host name).map Prod.fst) :=
    fun name ↦ List.filter_sublist.map Prod.fst
  have hsame : other.phase = visit.phase :=
    phase_of_mem_phaseSteps ((hlive _).subset ((h.steps other hother).subset hi'))
      ((hlive _).subset (hsublist.subset hi))
  have hnone := hfirst (List.ne_nil_of_mem hi) other hother hsame
  simp [Visit.attempted, Visit.attempts, hnone] at hi'

/-- A visit with attempts executed its phase, which was requested and not gated. -/
theorem executed_of_attempted {visit : Visit} (hvisit : (visitPhase env phase s).state.visits =
      s.visits ++ [visit]) (hattempted : visit.attempted ≠ []) :
    env.plan.requests phase = true ∧ gate env s phase = none := by
  have hidle : ∀ idle : Visit, idle.log? = none → s.visits ++ [idle] = s.visits ++ [visit] →
      False := by
    intro idle hnone heq
    rw [List.append_cancel_left_eq, List.cons_eq_cons] at heq
    rw [← heq.1, Visit.attempted, Visit.attempts, hnone] at hattempted
    exact hattempted rfl
  unfold visitPhase at hvisit
  cases hrequested : env.plan.requests phase with
  | false =>
    simp only [hrequested, Bool.not_false, if_true] at hvisit
    exact (hidle (.notRequested phase) rfl hvisit).elim
  | true =>
    simp only [hrequested, Bool.not_true, Bool.false_eq_true, if_false] at hvisit
    cases hgate : gate env s phase with
    | none => exact ⟨rfl, rfl⟩
    | some reason =>
      simp only [hgate] at hvisit
      exact (hidle (.skipped phase reason) rfl hvisit).elim

/-- Whatever a phase hands over has a record when it ended normally. -/
theorem Visited.recorded (h : Visited env s phase s')
    (hold : ∀ i ∈ s.visits.flatMap Visit.handed, i ∈ s.resolved.keys) :
    ∀ i ∈ s'.visits.flatMap Visit.handed, i ∈ s'.resolved.keys := by
  cases h with
  | notRequested _ hstate =>
    rw [hstate]
    simpa [Visit.handed, Visit.log?] using hold
  | skipped reason _ _ hstate =>
    rw [hstate]
    simpa [Visit.handed, Visit.log?] using hold
  | executed exec log _ _ hran =>
    have hlength := forall₂_map_snd hran.records
    intro i hi
    rw [hran.resolved, hran.indexes, mem_keys_settle hlength]
    rw [hran.visits, List.flatMap_append, List.flatMap_singleton, List.mem_append] at hi
    apply hi.imp (hold i)
    intro hhanded
    change i ∈ log.handed at hhanded
    unfold PhaseLog.handed at hhanded
    split at hhanded
    · rw [← hran.indexes]
      exact ((List.filter_sublist.map Prod.fst).trans (map_fst_zip_sublist ..)).subset hhanded
    · cases hhanded

/-- Where the configured phases are distinct, no phase is executed again. -/
theorem always_first_of_nodup {phases : List String} (hnodup : phases.Nodup)
    (hfresh : ∀ visit ∈ s.visits, visit.phase ∉ phases) :
    Loop.Always (visitPhase env) (FirstExecution env) phases s := by
  induction phases generalizing s with
  | nil => trivial
  | cons phase rest ih =>
    rw [List.nodup_cons] at hnodup
    constructor
    · intro _ _ _ visit hmem hphase
      exact absurd (hphase ▸ List.mem_cons_self ..) (hfresh visit hmem)
    · obtain ⟨visit, hvisits, hphase, _⟩ := visitPhase_visits env phase s
      cases hbody : visitPhase env phase s with
      | next after =>
        rw [hbody] at hvisits
        apply ih hnodup.2
        rw [show after.visits = s.visits ++ [visit] from hvisits]
        intro other hother
        rcases List.mem_append.mp hother with hold | hlast
        · exact fun hmem ↦ hfresh other hold (List.mem_cons_of_mem _ hmem)
        · rw [List.mem_singleton.mp hlast, hphase]
          exact hnodup.1
      | halt after => trivial
      | raise raised after => trivial

/-- In a run in which no phase with a live step is executed again, nothing is executed twice. -/
theorem executed_once {world : World} {config : RunConfig} {options : RunOptions} {context : Context}
    (hstart : Started world config options env context)
    (hfirst : Loop.Always (visitPhase env) (FirstExecution env) env.plan.configPhases { context }) :
    AtMostOnce (run world config options).visits := by
  rw [hstart.run_eq, visits_runPlan]
  have hnodup : ((runPhases env context).state.visits.flatMap Visit.attempted).Nodup ∧
      ((runPhases env context).state.visits.flatMap Visit.handed).Nodup := by
    refine hfirst.run_rule (I := fun _ s ↦ OnceSoFar env s)
      (Q := fun signal ↦ (signal.state.visits.flatMap Visit.attempted).Nodup ∧
        (signal.state.visits.flatMap Visit.handed).Nodup) ?_ ?_ ?_
    · exact ⟨by simp, by simp, by simp, by simp⟩
    · intro done phase rest s _ hnew hdone
      obtain ⟨visit, hvisits, hphase, hattempts, hhanded⟩ := visitPhase_visits env phase s
      have hattempted := hdone.attempted_concat visit (hphase ▸ hattempts) (by
        intro hsome
        obtain ⟨hrequested, hgate⟩ := executed_of_attempted hvisits hsome
        rw [hphase]
        apply hnew hrequested hgate
        intro hnone
        rw [hnone, List.map_nil, List.sublist_nil] at hattempts
        exact hsome hattempts)
      have hhanded := hdone.handed_concat hhanded
      rw [← hvisits] at hattempted hhanded
      cases hbody : visitPhase env phase s with
      | next after =>
        rw [hbody] at hattempted hhanded hvisits
        refine ⟨?_, hattempted, hhanded, (visitPhase_next hbody).recorded hdone.recorded⟩
        rw [show after.visits = s.visits ++ [visit] from hvisits]
        intro other hother
        rcases List.mem_append.mp hother with hold | hlast
        · exact hdone.steps other hold
        · rw [List.mem_singleton.mp hlast, hphase]
          exact hattempts
      | halt after => rw [hbody] at hattempted hhanded; exact ⟨hattempted, hhanded⟩
      | raise raised after => rw [hbody] at hattempted hhanded; exact ⟨hattempted, hhanded⟩
    · exact fun after hafter ↦ ⟨hafter.attempted, hafter.handed⟩
  refine ⟨?_, hnodup.2⟩
  apply List.Sublist.nodup _ hnodup.1
  exact List.Sublist.flatMap_right _ fun visit _ ↦ launched_sublist visit

theorem executed_once_lifecycle :
    ∃ env context, Started .plain .lifecycle {} env context ∧
      AtMostOnce (run .plain .lifecycle {}).visits := by
  obtain ⟨env, context, hstart, hphases⟩ := exists_started .plain .lifecycle {}
    (fun start ↦ decide start.1.plan.configPhases.Nodup) (by decide +kernel)
  refine ⟨env, context, hstart, executed_once hstart ?_⟩
  exact always_first_of_nodup (of_decide_eq_true hphases) (by simp)

/-- A phase which is listed twice launches its steps twice. -/
theorem launched_twice :
    accepted .plain (.sample ["setup", "setup"] [{ name := "create", command := "create.sh" }] []) =
        true ∧
      ¬ AtMostOnce (run .plain
        (.sample ["setup", "setup"] [{ name := "create", command := "create.sh" }] []) {}).visits := by
  constructor
  · decide +kernel
  · decide +kernel

end IsvValidation.Orchestrator
