import IsvValidation.Orchestrator.Verdict
import IsvValidation.Pytest.Collection

/-!
# Success and the validations which did not run

A successful run has only accepted exit codes, and one of them says that nothing was collected. A
ready entry which the session did not execute is then reported as excluded. The run is sound where
every entry handed to a session becomes a test of its own: no other entry has its name there, the name
resolves to a class and none of its labels is a mark which skips it.
-/

namespace IsvValidation.Orchestrator

open Config Host Junit Library Pytest Resolution

variable {env : RunEnv} {s s' : LoopState} {phase : String}

/-- A condition on the value of a computation which may raise can be evaluated. -/
def decidableOk {ε α : Type} (result : Except ε α) (P : α → Prop) [DecidablePred P] :
    Decidable (∀ value, result = .ok value → P value) :=
  match result with
  | .ok value => decidable_of_iff (P value)
    ⟨fun h _ heq ↦ Except.ok.inj heq ▸ h, fun h ↦ h value rfl⟩
  | .error _ => isTrue fun _ heq ↦ by cases heq

/-- Every ready entry has a result of its own in the session, and none is reported as excluded. -/
structure Executed (log : PhaseLog) : Prop where
  captured : ((entriesWithPytestNames log.ready).map (·.entry.name)).Subperm
    (log.captured.map ValidationResult.name)
  reported : ∀ record ∈ log.executed, record.skipReason ≠ some .excluded

/-- If the run is a success, then every ready entry of every phase was executed. -/
def NoSilentGreen (f : Finished) : Prop :=
  f.result.success = true → ∀ log ∈ f.state.visits.filterMap Visit.log?, Executed log

/-- The ready entries have different names in a session, and each becomes a test that runs. -/
structure AllCollectable (host : Runtime) (ready : List ResolvedEntry) : Prop where
  distinct : ((entriesWithPytestNames ready).map (·.entry.name)).Nodup
  collectable : ∀ item ∈ pytestValidations (entriesWithPytestNames ready), Collectable host item

/-- Every entry which the phase hands to its session becomes a test of its own that runs. -/
def HandsCollectable (env : RunEnv) (phase : String) (s : LoopState) : Prop :=
  env.plan.requests phase = true → gate env s phase = none →
    ∀ decided, decideEntries env
        (afterSteps env s phase (executeSteps env.world.host
          (env.plan.phaseSteps env.world.host phase) s.context s.tick
          (decide (phase = "teardown"))).state)
        ((phaseEntries env s phase).map Prod.snd) = .ok decided →
      AllCollectable env.world.host (decided.filter ResolvedEntry.isReady)

instance (log : PhaseLog) : Decidable (Executed log) :=
  decidable_of_iff
    (((entriesWithPytestNames log.ready).map (·.entry.name)).Subperm
        (log.captured.map ValidationResult.name) ∧
      ∀ record ∈ log.executed, record.skipReason ≠ some .excluded)
    ⟨fun h ↦ ⟨h.1, h.2⟩, fun h ↦ ⟨h.1, h.2⟩⟩

instance (host : Runtime) (ready : List ResolvedEntry) : Decidable (AllCollectable host ready) :=
  decidable_of_iff
    (((entriesWithPytestNames ready).map (·.entry.name)).Nodup ∧
      ∀ item ∈ pytestValidations (entriesWithPytestNames ready), Collectable host item)
    ⟨fun h ↦ ⟨h.1, h.2⟩, fun h ↦ ⟨h.1, h.2⟩⟩

instance : DecidablePred NoSilentGreen := fun f ↦
  inferInstanceAs (Decidable (f.result.success = true →
    ∀ log ∈ f.state.visits.filterMap Visit.log?, Executed log))

instance (env : RunEnv) (phase : String) : DecidablePred (HandsCollectable env phase) := fun s ↦
  have := decidableOk (decideEntries env
      (afterSteps env s phase (executeSteps env.world.host
        (env.plan.phaseSteps env.world.host phase) s.context s.tick
        (decide (phase = "teardown"))).state)
      ((phaseEntries env s phase).map Prod.snd))
    fun decided ↦ AllCollectable env.world.host (decided.filter ResolvedEntry.isReady)
  inferInstanceAs (Decidable (_ → _ → _))

/-- A result found under its name is not an exclusion. -/
theorem skipReason_resultToResolvedEntry (record : ResolvedEntry) (result : ValidationResult) :
    (resultToResolvedEntry record result).skipReason ≠ some .excluded := by
  unfold resultToResolvedEntry
  simp only
  split_ifs <;> simp

/-- Entries with results under their names are not reported as excluded. -/
theorem not_excluded_of_captured {named : List ResolvedEntry} {captured : List ValidationResult}
    (h : ∀ record ∈ named, ∃ result ∈ captured, result.name = record.entry.name) :
    ∀ record ∈ applyPytestResults named captured, record.skipReason ≠ some .excluded := by
  intro record hrecord
  obtain ⟨before, hbefore, rfl⟩ := List.mem_map.mp hrecord
  obtain ⟨result, hresult, hname⟩ := h before hbefore
  have hkey : before.entry.name ∈ (resultsByName captured).keys := by
    rw [resultsByName, OrderedMap.mem_keys_ofList, List.map_map]
    exact List.mem_map.mpr ⟨result, hresult, hname⟩
  obtain ⟨found, hfound⟩ := OrderedMap.mem_keys_iff.mp hkey
  rw [hfound]
  exact skipReason_resultToResolvedEntry before found

/-- A phase whose exit code is accepted executed what it handed to its session. -/
theorem PhaseRan.executes {exec : ExecState} {log : PhaseLog} (h : PhaseRan env s phase exec log s')
    (hsession : RunsCollected env.world.host env.world.session env.plan.options.extraPytestArgs)
    (hcollectable : AllCollectable env.world.host log.ready)
    (haccepted : exitAccepted log.exitCode = true) : Executed log := by
  rcases h.session with ⟨hnone, hexecuted, hready⟩ |
    ⟨request, exitCode, captured, xml, hsome, hrequest, _, houtcome, hexecuted⟩
  · constructor
    · rw [hready]
      exact List.nil_subperm
    · rw [hexecuted]
      intro record hrecord
      cases hrecord
  · have hexit : exitCode = exitOk ∨ exitCode = exitNoTestsCollected := by
      simpa [PhaseLog.exitCode, hsome, exitAccepted, exitOk, exitNoTestsCollected] using haccepted
    have hsame := phaseRequest_eq hrequest
    have hcaptured : ∀ record ∈ entriesWithPytestNames log.ready,
        ∃ result ∈ captured, result.name = record.entry.name := by
      intro record hrecord
      have hname : record.entry.name ∈ request.validations.map Prod.fst := by
        rw [hsame.1, pytestValidations, List.map_map]
        exact List.mem_map_of_mem hrecord
      obtain ⟨item, hitem, hsamename, hruns⟩ := exists_collected env.world.host
        (by rw [hsame.1]; exact hcollectable.collectable) hname
      obtain ⟨result, hresult, hfound⟩ :=
        hsession _ request exitCode captured xml hsame.2 houtcome hexit item hitem hruns
      exact ⟨result, hresult, hfound.trans hsamename⟩
    constructor
    · rw [PhaseLog.captured, hsome]
      apply hcollectable.distinct.subperm
      intro name hname
      obtain ⟨record, hrecord, rfl⟩ := List.mem_map.mp hname
      obtain ⟨result, hresult, hsamename⟩ := hcaptured record hrecord
      exact List.mem_map.mpr ⟨result, hresult, hsamename⟩
    · rw [hexecuted]
      exact not_excluded_of_captured hcaptured

/-- Where every entry handed to a session becomes a test of its own that runs, a successful run
executed all of its ready entries. -/
theorem no_silent_green {world : World} {config : RunConfig} {options : RunOptions}
    {context : Context} {f : Finished} (hstart : Started world config options env context)
    (hrun : run world config options = .finished f)
    (hsession : RunsCollected env.world.host env.world.session env.plan.options.extraPytestArgs)
    (hcollectable : Loop.Always (visitPhase env) (HandsCollectable env) env.plan.configPhases
      { context }) : NoSilentGreen f := by
  obtain ⟨henv, s, hloop, hremaining⟩ := hstart.finished hrun
  have hlogs : ∀ log ∈ s.visits.filterMap Visit.log?,
      exitAccepted log.exitCode = true → Executed log := by
    refine runPhases_always (I := fun _ s ↦ ∀ log ∈ s.visits.filterMap Visit.log?,
      exitAccepted log.exitCode = true → Executed log) hcollectable (by simp) ?_ hloop
    intro done phase s s' hP hdone hvisited
    cases hvisited with
    | notRequested _ hstate =>
      rw [hstate]
      simpa [Visit.log?] using hdone
    | skipped reason _ _ hstate =>
      rw [hstate]
      simpa [Visit.log?] using hdone
    | executed exec log hrequested hgate hran =>
      rw [hran.visits]
      intro other hother
      rw [List.filterMap_append, List.mem_append] at hother
      rcases hother with hold | hlast
      · exact hdone other hold
      · obtain rfl : other = log := by simpa [Visit.log?] using hlast
        apply hran.executes hsession
        apply hP hrequested hgate other.decided
        rw [← hran.executed]
        exact hran.decided
  intro hsuccess log hlog
  have hresult := (run_finished hrun).result
  have hjudged := (run_finished hrun).judged
  rw [hresult] at hsuccess
  have hclean := hjudged.clean.mp hsuccess
  obtain ⟨visit, hvisit, hsome⟩ := List.mem_filterMap.mp hlog
  have hexit := hclean.exits visit hvisit
  rw [Visit.exitCode, hsome] at hexit
  apply hlogs log _ hexit
  rw [← visits_resolveRemaining hremaining]
  exact hlog

/-- The plain machine with some validation classes; its sessions execute what they collect. -/
def World.collecting (classes : List ValidationClass) : World :=
  { World.plain with
    host := { Runtime.plain with classes }
    session := fun _ ↦ passingSession { Runtime.plain with classes } }

/-- One phase with one step and one validation. -/
def RunConfig.oneCheck (name : String) : RunConfig :=
  .sample ["test"] [{ name := "probe", command := "probe.sh", phase := "test" }]
    [.dict [(.str name, .dict [])]]

theorem no_silent_green_collected :
    (run (.collecting [{ name := "PingCheck" }]) (RunConfig.oneCheck "PingCheck") {}).Finishes
      NoSilentGreen := by
  obtain ⟨env, context, hstart, hcollectable⟩ := exists_started
    (.collecting [{ name := "PingCheck" }]) (RunConfig.oneCheck "PingCheck") {}
    (fun start ↦ decide (Loop.Always (visitPhase start.1) (HandsCollectable start.1)
      start.1.plan.configPhases { context := start.2 })) (by decide +kernel)
  apply RunOutcome.finishes_of (by decide +kernel)
  intro f hf
  apply no_silent_green hstart hf _ (of_decide_eq_true hcollectable)
  rw [hstart.world]
  exact runsCollected_passingSession _ _

/-- A misspelled name is not collected, and the run is a success. -/
theorem silent_green :
    accepted (World.collecting [{ name := "PingCheck" }]).host (RunConfig.oneCheck "PingChek") = true ∧
      RunsCollected (World.collecting [{ name := "PingCheck" }]).host
        (World.collecting [{ name := "PingCheck" }]).session [] ∧
      (run (.collecting [{ name := "PingCheck" }]) (RunConfig.oneCheck "PingChek") {}).Finishes
        fun f ↦ ¬ NoSilentGreen f := by
  exact ⟨by decide +kernel, runsCollected_passingSession _ _, by decide +kernel⟩

end IsvValidation.Orchestrator
