import IsvValidation.Imex.ComputeDomain

/-!
# Recovery of a daemon

A check which terminates one daemon of a formed domain and waits until the driver has replaced it, and
what every check on an allocated domain hands back.
-/

namespace IsvValidation.Imex

open Host Library Staged
open scoped List

/-- What the cluster and the configuration answer to a recovery check. -/
structure RecoveryInput where
  formation : List Poll
  terminate : Pod → CommandReply
  budget : Except String ℕ
  recovery : List Poll

/-- `_terminate`. -/
def terminate (input : RecoveryInput) (pod : Pod) : Staged BodyEvent Stop Unit :=
  did (.terminated pod (input.terminate pod)) <|
    match input.terminate pod with
    | .ok => .ok ()
    | .failed detail => .error (.failed (.notTerminated pod.name detail))

/-- One reading of `_await_recovery`, which carries whether a replacement was seen and the read error
of the last reading. -/
def judgeRecovery (target terminatedUid : String) (carried : Bool × String) (_ : Poll)
    (state : DomainState) : Judgement (Bool × String) (Except Stop Unit) :=
  let replacement := state.daemons.get? target
  let replacementUid := (replacement.map Pod.uid).getD ""
  if replacementUid ≠ "" ∧ replacementUid ≠ terminatedUid then
    if replacement.any podIsReady ∧ state.members.get? target = some "Ready" then .decided (.ok ())
    else .undecided (true, "")
  else .undecided (carried.1, "")

/-- `_await_recovery`. -/
def awaitRecovery (unicode : Unicode) (target terminatedUid : String) (polls : List Poll) :
    Staged BodyEvent Stop Unit :=
  poll (.observed .recovery)
    (judgeState unicode (fun carried error ↦ (carried.1, error)) (judgeRecovery target terminatedUid))
    (fun carried ↦ .error (.failed (.notRecovered target carried.1 carried.2))) (false, "") polls

/-- `_assert_on_domain` up to `set_passed`. -/
def recoveryStages (unicode : Unicode) (input : RecoveryInput) : Staged BodyEvent Stop Unit := do
  let state ← awaitFormation unicode input.formation
  let target ← ofExcept (firstMember state)
  let pod ← ofExcept (daemonOn state target)
  terminate input pod
  let _ ← derivedBudget input.budget
  awaitRecovery unicode target pod.uid input.recovery

/-- `ImexDaemonRecoveryCheck._assert_on_domain`. -/
def recoveryBody (unicode : Unicode) (input : RecoveryInput) (_ : ℕ) : BodyRun BodyEvent :=
  .ofStages (recoveryStages unicode input)

/-! ## What a recovery rests on -/

/-- A domain formed, the daemon of one of its members was deleted, and at a later reading a ready
daemon with another uid served that member, which was reported ready. -/
def Recovered (unicode : Unicode) (events : List (RunEvent BodyEvent)) : Prop :=
  ∃ formation formed target deleted later state replacement,
    [.body (.observed .formation formation), .body (.terminated deleted .ok),
        .body (.observed .recovery later)] <+ events ∧
      Formed unicode formation formed ∧ target ∈ formed.members.keys ∧
      formed.daemons.get? target = some deleted ∧
      observe unicode later = .ok (.ok state) ∧ state.daemons.get? target = some replacement ∧
      podIsReady replacement ∧ replacement.uid ≠ deleted.uid ∧
      state.members.get? target = some "Ready"

theorem judgeRecovery_decided {target terminatedUid : String} {carried : Bool × String} {poll : Poll}
    {state : DomainState} (h : judgeRecovery target terminatedUid carried poll state = .decided (.ok ())) :
    ∃ replacement, state.daemons.get? target = some replacement ∧ podIsReady replacement ∧
      replacement.uid ≠ terminatedUid ∧ state.members.get? target = some "Ready" := by
  unfold judgeRecovery at h
  cases hreplacement : state.daemons.get? target with
  | none => simp [hreplacement] at h
  | some replacement =>
    simp only [hreplacement, Option.map_some, Option.getD_some, Option.any_some] at h
    split at h
    next huid =>
      split at h
      next hready => exact ⟨replacement, rfl, hready.1, huid.2, hready.2⟩
      · simp at h
    · simp at h

/-- Recovery which was awaited comes with the reading which showed it. -/
theorem awaitRecovery_returns {unicode : Unicode} {target terminatedUid : String} {polls : List Poll}
    {log : List BodyEvent}
    (h : (awaitRecovery unicode target terminatedUid polls).Returns log ()) :
    ∃ before later state replacement, log = before ++ [.observed .recovery later] ∧
      observe unicode later = .ok (.ok state) ∧ state.daemons.get? target = some replacement ∧
      podIsReady replacement ∧ replacement.uid ≠ terminatedUid ∧
      state.members.get? target = some "Ready" := by
  obtain ⟨before, later, _, carried, _, _, hdecided, hlog⟩ :=
    returns_poll (fun carried ↦ by simp) h
  have ⟨state, hobserved, hjudged⟩ := judgeState_decided_iff.mp hdecided
  have ⟨replacement, hfacts⟩ := judgeRecovery_decided hjudged
  exact ⟨before.map (.observed .recovery), later, state, replacement, hlog, hobserved, hfacts⟩

theorem terminate_returns {input : RecoveryInput} {pod : Pod} {log : List BodyEvent}
    (h : (terminate input pod).Returns log ()) : log = [.terminated pod .ok] := by
  have ⟨hlog, houtcome⟩ := returns_did.mp h
  cases hreply : input.terminate pod with
  | ok => rw [hlog, hreply]
  | failed detail => simp [hreply] at houtcome

/-- Stages which end log a formation, a deletion and a recovery, in this order. -/
theorem recoveryStages_returns {unicode : Unicode} {input : RecoveryInput} {log : List BodyEvent}
    (h : (recoveryStages unicode input).Returns log ()) :
    ∃ formation formed target deleted later state replacement,
      [.observed .formation formation, .terminated deleted .ok, .observed .recovery later] <+ log ∧
        Formed unicode formation formed ∧ target ∈ formed.members.keys ∧
        formed.daemons.get? target = some deleted ∧
        observe unicode later = .ok (.ok state) ∧ state.daemons.get? target = some replacement ∧
        podIsReady replacement ∧ replacement.uid ≠ deleted.uid ∧
        state.members.get? target = some "Ready" := by
  obtain ⟨formed, formationLog, afterFormation, hformation, hstages, rfl⟩ := returns_bind.mp h
  have ⟨target, htarget, hdaemon⟩ := returns_ofExcept_bind.mp hstages
  have ⟨deleted, hdeleted, hterminating⟩ := returns_ofExcept_bind.mp hdaemon
  obtain ⟨_, terminateLog, recoveryLog, hterminate, hbudget, rfl⟩ := returns_bind.mp hterminating
  have ⟨_, _, hrecovery⟩ := returns_ofExcept_bind.mp hbudget
  obtain ⟨before, formation, rfl, hformed⟩ := awaitFormation_returns hformation
  obtain ⟨waited, later, state, replacement, rfl, hobserved, hreplacement⟩ :=
    awaitRecovery_returns hrecovery
  refine ⟨formation, formed, target, deleted, later, state, replacement, ?_, hformed,
    firstMember_mem htarget, daemonOn_eq hdeleted, hobserved, hreplacement⟩
  rw [terminate_returns hterminate]
  have hfirst : [BodyEvent.observed .formation formation] <+ before ++ [.observed .formation formation] :=
    List.sublist_append_right before _
  have hlast : [BodyEvent.observed .recovery later] <+ waited ++ [.observed .recovery later] :=
    List.sublist_append_right waited _
  exact hfirst.append ((List.Sublist.refl [BodyEvent.terminated deleted .ok]).append hlast)

/-- A recovery check which ends PASSED rests on a recovery. -/
theorem recoveryCheck_recovered {unicode : Unicode} {input : CheckInput} {recovery : RecoveryInput}
    (h : (runCheck input (recoveryBody unicode recovery)).endsPassed) :
    Recovered unicode (runCheck input (recoveryBody unicode recovery)).events := by
  obtain ⟨timeout, hpassed, _, _, _, hevents⟩ := runCheck_endsPassed _ h
  obtain ⟨formation, formed, target, deleted, later, state, replacement, hlog, hfacts⟩ :=
    recoveryStages_returns (BodyRun.ofStages_passed hpassed)
  refine ⟨formation, formed, target, deleted, later, state, replacement, ?_, hfacts⟩
  rw [hevents]
  have hbody := hlog.map RunEvent.body
  exact ((hbody.cons _).cons _).trans (List.sublist_append_left _ _)

/-- A domain whose apply was committed and whose client saw an error stays: the run ends there. -/
theorem not_handsBack_of_lost {ε : Type} {input : CheckInput} {body : ℕ → BodyRun ε} {timeout : ℕ}
    {detail : String} (hbefore : beforeAllocation input = .ok timeout)
    (hlost : input.applyDomain = .lost detail) : ¬ (runCheck input body).HandsBack := by
  intro hands
  have hevents := (runCheck_of_refused body hbefore
    (by rw [hlost]; rfl : input.applyDomain.seen = .failed detail)).1
  obtain ⟨first, claims, second, domain, last, hafter, _⟩ :=
    hands [] [] input.applyDomain (by rw [hlost]; trivial) (.inl hevents)
  simp at hafter

/-- Checks hand back what they allocate, and a recovery which passes is one, except where the server
committed the domain and the client saw the apply fail. -/
theorem computeDomainCheck_handsBack_iff {ε : Type} (unicode : Unicode) (input : CheckInput)
    (body : ℕ → BodyRun ε) (recovery : RecoveryInput) :
    ((runCheck input body).HandsBack ∧
        ((runCheck input (recoveryBody unicode recovery)).endsPassed →
          Recovered unicode (runCheck input (recoveryBody unicode recovery)).events)) ↔
      ¬ ∃ timeout detail, beforeAllocation input = .ok timeout ∧ input.applyDomain = .lost detail := by
  constructor
  · intro ⟨hands, _⟩ ⟨timeout, detail, hbefore, hlost⟩
    exact not_handsBack_of_lost hbefore hlost hands
  · intro hseen
    exact ⟨runCheck_handsBack body fun timeout detail hbefore hlost ↦ hseen ⟨timeout, detail, hbefore, hlost⟩,
      recoveryCheck_recovered⟩

/-- An apply of the domain which the server commits after kubectl gave up. -/
def timedOutApply : CheckInput where
  apiResources := .ok [computeDomainCrd]
  containers := .parsed [⟨["compute-domain-controller"], []⟩]
  formationTimeout := .ok 300
  applyDomain := .lost "timed out"
  applyClaims := .committed
  deleteClaims := .ok
  deleteDomain := .ok

theorem timedOut_domain_stays :
    ¬ ∀ (input : CheckInput) (body : ℕ → BodyRun BodyEvent), (runCheck input body).HandsBack := by
  intro hall
  have hbefore : beforeAllocation timedOutApply = .ok 300 := by decide
  have hlost : timedOutApply.applyDomain = .lost "timed out" := rfl
  exact not_handsBack_of_lost hbefore hlost (hall timedOutApply fun _ ↦ { verdict := {} })

end IsvValidation.Imex
