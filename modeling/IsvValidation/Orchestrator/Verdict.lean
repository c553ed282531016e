import IsvValidation.Orchestrator.Outcome

/-!
# The verdict of a run

Success is folded in the step results, in every phase result and in the pass over what is left.
The invariant of the loop states both readings of it: the conjunction of the phase results, and the
absence of a failed step, a failed record and an unaccepted exit code.
-/

namespace IsvValidation.Orchestrator

open Config Host Junit Library Pytest Resolution

variable {env : RunEnv} {s s' : LoopState} {phase : String}

/-- Nothing went wrong in these visits and these records. -/
structure Clean (visits : List Visit) (resolved : OrderedMap ℕ ResolvedEntry) : Prop where
  steps : ∀ visit ∈ visits, ∀ attempt ∈ visit.attempts, attempt.failed = false
  exits : ∀ visit ∈ visits, exitAccepted visit.exitCode = true
  records : ∀ i record, resolved.get? i = some record → entrySuccess record = true

/-- What success means between two phases. -/
structure Judged (s : LoopState) : Prop where
  phases : s.overallSuccess = s.phaseResults.all PhaseResult.success
  clean : s.overallSuccess = true ↔ Clean s.visits s.resolved

/-! ## The verdict of one phase -/

/-- A phase for which there is nothing to execute starts no session. -/
theorem exitCode_of_ready_eq_nil {log : PhaseLog} (h : SessionFacts env s phase log)
    (hready : log.ready = []) : log.exitCode = none := by
  rcases h with ⟨hnone, _⟩ | ⟨request, _, _, _, _, hrequest, _⟩
  · rw [PhaseLog.exitCode, hnone]
  · rw [hready] at hrequest
    cases hrequest

/-- The verdict of an executed phase is that of its attempts, its records and its session. -/
theorem PhaseRan.success {exec : ExecState} {log : PhaseLog} (h : PhaseRan env s phase exec log s') :
    log.success =
      (!log.attempts.any Attempt.failed && log.records.all entrySuccess &&
        exitAccepted log.exitCode) := by
  rcases h.result with ⟨_, hsteps, hrecords, hsuccess⟩ | ⟨result, hcreate, _, hsuccess⟩
  · have hattempts : log.attempts = [] := by
      have hexact : exec.attempts.map Attempt.index = _ := h.steps.attempts
      rw [hsteps] at hexact
      rw [h.attempts, ← List.map_eq_nil_iff]
      exact hexact
    have hdecided : log.decided = [] := by
      have hlength := forall₂_map_snd h.records
      rw [hrecords, List.length_nil, List.length_eq_zero_iff] at hlength
      have hnone := (decideEntries_forall₂ h.decided).length_eq
      rw [hlength] at hnone
      exact List.length_eq_zero_iff.mp hnone.symm
    have hexit : log.exitCode = none := by
      apply exitCode_of_ready_eq_nil h.session
      rw [PhaseLog.ready, hdecided, List.filter_nil]
    simp [hsuccess, hattempts, hrecords, hexit, exitAccepted]
  · have hpassed : (log.records.map toResultDict).all ValidationDetail.passed =
        log.records.all entrySuccess := by
      rw [List.all_map]
      exact congrArg log.records.all (funext passed_toResultDict)
    rw [hsuccess, (createPhaseResult_ok hcreate).2, h.steps.success, ← h.attempts, hpassed]

/-- Records settled for open entries add to the records there were. -/
theorem forall_settle {pairs : List (ℕ × ValidationEntry)} {records : List ResolvedEntry}
    {P : ResolvedEntry → Prop} (hpairs : List.Sublist pairs (openEntries env s))
    (hlength : pairs.length = records.length) :
    (∀ i record, (settle s.resolved ((pairs.map Prod.fst).zip records)).get? i = some record →
      P record) ↔
      (∀ i record, s.resolved.get? i = some record → P record) ∧ ∀ record ∈ records, P record := by
  have hmap := map_get?_settle hpairs hlength
  constructor
  · intro h
    constructor
    · intro i record hget
      apply h i record
      rw [get?_settle_of_mem hpairs (OrderedMap.mem_keys_iff.mpr ⟨record, hget⟩), hget]
    · intro record hmem
      have hsome : some record ∈ records.map some := List.mem_map_of_mem hmem
      rw [← hmap] at hsome
      obtain ⟨i, _, hget⟩ := List.mem_map.mp hsome
      exact h i record hget
  · rintro ⟨hold, hnew⟩ i record hget
    rcases (mem_keys_settle hlength).mp (OrderedMap.mem_keys_iff.mpr ⟨record, hget⟩) with hkey | hkey
    · rw [get?_settle_of_mem hpairs hkey] at hget
      exact hold i record hget
    · have hsome : some record ∈ records.map some := by
        rw [← hmap, ← hget]
        exact List.mem_map_of_mem hkey
      obtain ⟨found, hmem, hfound⟩ := List.mem_map.mp hsome
      exact hnew record (Option.some.inj hfound ▸ hmem)

theorem Clean.append_iff {visits : List Visit} {resolved : OrderedMap ℕ ResolvedEntry}
    {visit : Visit} :
    Clean (visits ++ [visit]) resolved ↔
      Clean visits resolved ∧ (∀ attempt ∈ visit.attempts, attempt.failed = false) ∧
        exitAccepted visit.exitCode = true := by
  constructor
  · rintro ⟨hsteps, hexits, hrecords⟩
    simp only [List.mem_append, List.mem_singleton, or_imp, forall_and, forall_eq] at hsteps hexits
    exact ⟨⟨hsteps.1, hexits.1, hrecords⟩, hsteps.2, hexits.2⟩
  · rintro ⟨hclean, hattempts, hexit⟩
    refine ⟨?_, ?_, hclean.records⟩
    · simp only [List.mem_append, List.mem_singleton, or_imp, forall_and, forall_eq]
      exact ⟨hclean.steps, hattempts⟩
    · simp only [List.mem_append, List.mem_singleton, or_imp, forall_and, forall_eq]
      exact ⟨hclean.exits, hexit⟩

/-- A visit which executed nothing changes nothing about what went wrong. -/
theorem Clean.append_idle {visits : List Visit} {resolved : OrderedMap ℕ ResolvedEntry}
    {visit : Visit} (h : visit.log? = none) :
    Clean (visits ++ [visit]) resolved ↔ Clean visits resolved := by
  rw [Clean.append_iff]
  simp [Visit.attempts, Visit.exitCode, h, exitAccepted]

/-! ## The loop keeps the two readings together -/

theorem Judged.visited (h : Judged s) (hvisited : Visited env s phase s') : Judged s' := by
  cases hvisited with
  | notRequested _ hstate =>
    rw [hstate]
    exact ⟨h.phases, h.clean.trans (Clean.append_idle rfl).symm⟩
  | skipped reason _ _ hstate =>
    rw [hstate]
    refine ⟨?_, h.clean.trans (Clean.append_idle rfl).symm⟩
    simpa using h.phases
  | executed exec log _ _ hran =>
    have hsublist := phaseEntries_sublist env s phase
    have hlength := forall₂_map_snd hran.records
    constructor
    · rcases hran.result with ⟨hresults, _, _, hsuccess⟩ | ⟨result, _, hresults, hsuccess⟩
      · rw [hran.overall, hresults, hsuccess, Bool.and_true, h.phases]
      · rw [hran.overall, hresults, hsuccess, h.phases]
        simp
    · calc
        s'.overallSuccess = true
            ↔ Clean s.visits s.resolved ∧ log.success = true := by
          rw [hran.overall, Bool.and_eq_true, h.clean]
        _ ↔ Clean (s.visits ++ [.executed phase log]) s.resolved ∧
              ∀ record ∈ log.records, entrySuccess record = true := by
          rw [Clean.append_iff, hran.success]
          simp only [Bool.and_eq_true, Bool.not_eq_true', List.any_eq_false, Bool.not_eq_true,
            List.all_eq_true]
          constructor
          · rintro ⟨hclean, ⟨hattempts, hrecords⟩, hexit⟩
            exact ⟨⟨hclean, hattempts, hexit⟩, hrecords⟩
          · rintro ⟨⟨hclean, hattempts, hexit⟩, hrecords⟩
            exact ⟨hclean, ⟨hattempts, hrecords⟩, hexit⟩
        _ ↔ Clean s'.visits s'.resolved := by
          rw [hran.visits, hran.resolved, hran.indexes]
          have hsettle := forall_settle (P := fun record ↦ entrySuccess record = true) hsublist hlength
          constructor
          · rintro ⟨⟨hsteps, hexits, hold⟩, hnew⟩
            exact ⟨hsteps, hexits, hsettle.mpr ⟨hold, hnew⟩⟩
          · rintro ⟨hsteps, hexits, hall⟩
            exact ⟨⟨hsteps, hexits, (hsettle.mp hall).1⟩, (hsettle.mp hall).2⟩

/-- The groups of the last pass succeed together exactly if all their records do. -/
theorem all_success_byPhase (stepPhases : String → Option String) (records : List ResolvedEntry) :
    ((byPhase stepPhases records).entries.map resolutionOnlyResult).all PhaseResult.success =
      records.all entrySuccess := by
  rw [Bool.eq_iff_iff, List.all_map, List.all_eq_true, List.all_eq_true]
  constructor
  · intro h record hrecord
    have hkey : getEntryPhase record.entry stepPhases ∈ (byPhase stepPhases records).keys :=
      mem_keys_byPhase.mpr ⟨record, hrecord, rfl⟩
    obtain ⟨group, hgroup, hphase⟩ := List.mem_map.mp hkey
    have hsuccess : group.2.all entrySuccess = true := h group hgroup
    rw [mem_byPhase hgroup, List.all_eq_true] at hsuccess
    apply hsuccess
    simp [hrecord, hphase]
  · intro h group hgroup
    change group.2.all entrySuccess = true
    rw [mem_byPhase hgroup, List.all_eq_true]
    intro record hrecord
    exact h record (List.mem_filter.mp hrecord).1

theorem Judged.remaining {records : List ResolvedEntry} (h : Judged s)
    (hremaining : Remaining env s records s') : Judged s' := by
  have hlength := forall₂_map_snd hremaining.records_forall₂
  rw [hremaining.state]
  constructor
  · simp only [List.all_append, all_success_byPhase, h.phases]
  · have hsettle := forall_settle (P := fun record ↦ entrySuccess record = true)
      (List.Sublist.refl (openEntries env s)) hlength
    simp only [Bool.and_eq_true, h.clean, List.all_eq_true]
    constructor
    · rintro ⟨⟨hsteps, hexits, hold⟩, hnew⟩
      exact ⟨hsteps, hexits, hsettle.mpr ⟨hold, hnew⟩⟩
    · rintro ⟨hsteps, hexits, hall⟩
      exact ⟨⟨hsteps, hexits, (hsettle.mp hall).1⟩, (hsettle.mp hall).2⟩

/-! ## Finished runs -/

theorem FinishedRun.judged {world : World} {config : RunConfig} {options : RunOptions}
    {f : Finished} (h : FinishedRun world config options f) : Judged f.state := by
  obtain ⟨context, s, _, hloop, hremaining⟩ := h.loop
  have hinitial : Judged { context } := ⟨rfl, iff_of_true rfl ⟨by simp, by simp, by simp⟩⟩
  have hs : Judged s := runPhases_rule (I := fun _ s ↦ Judged s) hinitial
    (fun _ _ _ _ hdone hvisited ↦ hdone.visited hvisited) hloop
  rcases resolveRemaining_ok hremaining with ⟨_, hsame⟩ | ⟨_, records, hlast⟩
  · rw [hsame]
    exact hs
  · exact hs.remaining hlast

theorem entrySuccess_iff {record : ResolvedEntry} (h : record.IsTerminal) :
    entrySuccess record = true ↔ record.state ≠ some .failed ∧ record.state ≠ some .error := by
  have hstate := h.state
  unfold entrySuccess
  cases hs : record.state with
  | none => simp [hs] at hstate
  | some state => cases state <;> simp

/-- A run succeeds exactly if all its phase results do, and exactly if no step failed, no record is
failed or an error, and every session which returned was accepted. -/
theorem success_iff {world : World} {config : RunConfig} {options : RunOptions} {f : Finished}
    (h : run world config options = .finished f) :
    (f.result.success = true ↔ ∀ phase ∈ f.result.phases, phase.success = true) ∧
      (f.result.success = true ↔
        (∀ visit ∈ f.state.visits, ∀ attempt ∈ visit.attempts, attempt.failed = false) ∧
        (∀ record ∈ f.result.validations,
          record.state ≠ some .failed ∧ record.state ≠ some .error) ∧
        ∀ visit ∈ f.state.visits, ∀ code, visit.exitCode = some code →
          code = exitOk ∨ code = exitNoTestsCollected) := by
  have hrun := run_finished h
  have hjudged := hrun.judged
  have haccounted := hrun.accounted
  rw [hrun.result]
  constructor
  · rw [hjudged.phases, List.all_eq_true]
  · have hexit : ∀ visit : Visit, exitAccepted visit.exitCode = true ↔
        ∀ code, visit.exitCode = some code → code = exitOk ∨ code = exitNoTestsCollected := by
      intro visit
      cases hcode : visit.exitCode <;> simp [exitAccepted, exitOk, exitNoTestsCollected]
    have hrecords : (∀ i record, f.state.resolved.get? i = some record →
        entrySuccess record = true) ↔ ∀ record ∈ sortedRecords f.state.resolved,
          record.state ≠ some .failed ∧ record.state ≠ some .error := by
      simp only [sortedRecords, List.mem_filterMap]
      constructor
      · rintro hall record ⟨i, _, hget⟩
        obtain ⟨_, _, hof⟩ := haccounted.records i record hget
        exact (entrySuccess_iff hof.terminal).mp (hall i record hget)
      · intro hall i record hget
        obtain ⟨_, _, hof⟩ := haccounted.records i record hget
        refine (entrySuccess_iff hof.terminal).mpr (hall record ⟨i, ?_, hget⟩)
        rw [List.mem_insertionSort]
        exact OrderedMap.mem_keys_iff.mpr ⟨record, hget⟩
    rw [hjudged.clean]
    constructor
    · rintro ⟨hsteps, hexits, hall⟩
      exact ⟨hsteps, hrecords.mp hall, fun visit hvisit ↦ (hexit visit).mp (hexits visit hvisit)⟩
    · rintro ⟨hsteps, hall, hexits⟩
      exact ⟨hsteps, fun visit hvisit ↦ (hexit visit).mpr (hexits visit hvisit), hrecords.mpr hall⟩

theorem success_iff_lifecycle :
    (run .plain .lifecycle {}).Finishes fun f ↦
      (f.result.success = true ↔ ∀ phase ∈ f.result.phases, phase.success = true) ∧
      (f.result.success = true ↔
        (∀ visit ∈ f.state.visits, ∀ attempt ∈ visit.attempts, attempt.failed = false) ∧
        (∀ record ∈ f.result.validations,
          record.state ≠ some .failed ∧ record.state ≠ some .error) ∧
        ∀ visit ∈ f.state.visits, ∀ code, visit.exitCode = some code →
          code = exitOk ∨ code = exitNoTestsCollected) :=
  RunOutcome.finishes_of (by decide +kernel) fun _ hf ↦ success_iff hf

end IsvValidation.Orchestrator
