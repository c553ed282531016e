import IsvValidation.Storage.QuotaProbe

/-!
# What the quota checks leave behind

A run deletes every quota it set, and it deletes a volume it created unless the deletion of the quota
before it raises an exception which is no error of the storage interface. It touches quotas of one name on
the volume it found only; the name of a directory is its own, but the name of a user may have been there.
-/

namespace IsvValidation.Storage.QuotaProbe

open Check K8s Library

/-! ## Calls which concern quotas and volumes -/

namespace Call

/-- Neither a quota nor a volume is created, deleted or noted. -/
def Quiet : Call → Prop
  | setQuota _ _ _ | deleteQuota _ _ _ | acquired _ | createVolume _ _ _ _ _ | deleteVolume _ _ => False
  | _ => True

/-- At most the one quota is created or deleted, by the round trip or the enforcement. -/
def On (quota : QuotaName) : Call → Prop
  | setQuota other _ _ => other = quota
  | deleteQuota other _ site => other = quota ∧ site = .roundTrip
  | acquired _ | createVolume _ _ _ _ _ | deleteVolume _ _ => False
  | _ => True

theorem Quiet.on {call : Call} (h : call.Quiet) (quota : QuotaName) : call.On quota := by
  cases call with
  | setQuota | deleteQuota | acquired | createVolume | deleteVolume => exact h.elim
  | _ => trivial

end Call

variable {ε α β : Type} {check : Check} {tag : String} {quota : QuotaName} {tenantId dir : String}
  {writer : String → ℕ → String} {provider : Provider} {runId : String} {locals : Locals}

/-! ## Parts which are quiet -/

theorem calls_command {allowed : Call → Prop} (text : String) (h : allowed (.command text)) :
    (command text : Run ε CommandResult).Calls allowed := .call h .done

theorem calls_report {allowed : Call → Prop} (subtest : Subtest) (h : allowed (.report subtest)) :
    (report subtest : Run ε Bool).Calls allowed := .call h fun _ ↦ .done _

theorem Quiet.command (text : String) : (command text : Run ε CommandResult).Calls Call.Quiet :=
  calls_command text trivial

theorem Quiet.report (subtest : Subtest) : (report subtest : Run ε Bool).Calls Call.Quiet :=
  calls_report subtest trivial

theorem quiet_failBoth (message : String) : (check.failBoth tag message : Run ε Bool).Calls Call.Quiet :=
  (Quiet.report _).bind fun _ ↦ Quiet.report _

theorem quiet_skipBoth (message : String) : (check.skipBoth tag message : Run ε Bool).Calls Call.Quiet :=
  (Quiet.report _).bind fun _ ↦ Quiet.report _

theorem quiet_getPvcJson (namespace_ pvcName : String) :
    (check.getPvcJson namespace_ pvcName : Run ε _).Calls Call.Quiet := by
  apply (Quiet.command _).bind
  intro result
  split
  · exact .done _
  · dsimp only
    split
    · exact .done _
    · split <;> exact .done _

theorem quiet_readHandle (namespace_ pvcName : String) :
    (check.readHandle namespace_ pvcName).Calls Call.Quiet := by
  apply (quiet_getPvcJson namespace_ pvcName).bind
  intro payload
  split
  · exact .done _
  · apply (Program.Calls.ofExcept _).bind
    intro volumeName
    dsimp only
    generalize (if volumeName.truthy = true then check.host.str volumeName else "") = pvName
    split
    · exact .done _
    · apply (Quiet.command _).bind
      intro handleResult
      split <;> exact .done _

theorem quiet_resolveHandle (handle : String) :
    (resolveHandle provider handle).Calls Call.Quiet := by
  apply Program.Calls.call trivial
  intro direct
  split
  · exact .done _
  · split
    · exact .raise _
    · apply Program.Calls.call trivial
      intro listing
      split
      · split
        · exact .done _
        · exact .raise _
      · exact .done _

theorem quiet_resolveVolume (namespace_ pvcName : String) :
    (check.resolveVolume provider namespace_ pvcName).Calls Call.Quiet := by
  apply (quiet_readHandle namespace_ pvcName).bind
  intro handle
  split
  · exact .done _
  · exact quiet_resolveHandle _

theorem quiet_pollPvcBoundLoop (namespace_ pvcName : String) (rounds : ℕ) :
    (check.pollPvcBoundLoop namespace_ pvcName rounds).Calls Call.Quiet := by
  induction rounds with
  | zero => exact .done _
  | succ rounds ih =>
    apply (quiet_getPvcJson namespace_ pvcName).bind
    intro payload
    apply (Program.Calls.ofExcept _).bind
    intro phase
    split
    · exact .done _
    · exact ih

theorem quiet_waitPodReady (namespace_ podName : String) :
    (check.waitPodReady namespace_ podName : Run ε _).Calls Call.Quiet :=
  (Quiet.command _).bind fun _ ↦ .done _

theorem quiet_launchMountPod (namespace_ podName pvcName : String) :
    (check.launchMountPod namespace_ podName pvcName).Calls Call.Quiet := by
  apply Program.Calls.call trivial
  intro reply
  dsimp only
  split
  · exact .done _
  · apply (quiet_waitPodReady _ _).bind
    intro ready
    split
    · exact .done _
    · exact .call trivial fun rounds ↦ quiet_pollPvcBoundLoop _ _ rounds

theorem quiet_k8sWriterUidError (namespace_ podName : String) :
    (check.k8sWriterUidError namespace_ podName : Run ε _).Calls Call.Quiet := by
  unfold Check.k8sWriterUidError
  split
  · exact .done _
  · apply (Quiet.command _).bind
    intro result
    split
    · exact .done _
    · split
      · exact .done _
      · split <;> exact .done _

/-! ## Parts which work on one quota -/

theorem on_report (subtest : Subtest) : (report subtest : Run ε Bool).Calls (Call.On quota) :=
  calls_report subtest trivial

theorem on_readHard : (Check.readHard quota tenantId).Calls (Call.On quota) := by
  apply Program.Calls.call trivial
  intro reply
  split
  · exact .done _
  · exact .done _
  · exact .raise _

theorem on_awaitHard (expected : ℤ) : (Check.awaitHard quota tenantId expected).Calls (Call.On quota) := by
  apply Program.Calls.call trivial
  intro rounds
  induction rounds with
  | zero => exact on_readHard.bind fun _ ↦ .done _
  | succ rounds ih =>
    apply on_readHard.bind
    intro last
    split
    · exact .done _
    · exact ih

theorem on_setQuota (hard : ℤ) : (setQuota quota tenantId hard).Calls (Call.On quota) :=
  .call rfl .ofExcept

theorem on_listQuotas {kind : QuotaKind} {volume : VolumeName} :
    (listQuotas kind volume tenantId).Calls (Call.On quota) := .call trivial .ofExcept

theorem on_roundTrip : (check.roundTrip quota tenantId).Calls (Call.On quota) := by
  apply (on_setQuota _).bind
  intro _
  apply (on_awaitHard _).bind
  intro created
  split
  split
  · exact .done _
  · apply (on_setQuota _).bind
    intro _
    apply (on_awaitHard _).bind
    intro updated
    split
    split
    · exact .done _
    · apply on_listQuotas.bind
      intro listed
      split <;> exact .done _

theorem on_deleteAgain (name : String) : (check.deleteAgain name quota tenantId).Calls (Call.On quota) := by
  apply Program.Calls.call ⟨rfl, rfl⟩
  intro reply
  split
  · split
    · exact on_report _
    · exact .raise _
  · apply Program.Calls.call trivial
    intro reply
    split
    · exact on_report _
    · split
      · exact on_report _
      · exact .raise _
    · split
      · exact on_report _
      · exact on_report _

theorem on_runCrud : (check.runCrud tag quota tenantId).Calls (Call.On quota) := by
  apply on_roundTrip.attempt.bind
  intro outcome
  split
  · exact on_deleteAgain _
  · exact on_report _
  · split
    · exact on_report _
    · exact .raise _

theorem on_overWrites (written chunk : ℕ) (last : CommandResult) :
    (check.overWrites writer dir written chunk last : Run ε _).Calls (Call.On quota) := by
  induction hroom : check.capMib - written using Nat.strong_induction_on
    generalizing written chunk last with
  | _ room ih =>
    have hchunk : 16 ≤ check.chunkMib := Nat.le_max_left 16 _
    rw [Check.overWrites]
    split
    · apply Program.Calls.call trivial
      intro result
      split
      · exact .done _
      · exact ih _ (by omega) _ _ _ rfl
    · exact .done _

theorem on_runEnforcement :
    (check.runEnforcement tag quota tenantId dir writer).Calls (Call.On quota) := by
  refine Program.Calls.bind (Program.Calls.call rfl ?_) fun _ ↦ on_report _
  intro reply
  split
  · refine Program.Calls.bind (Program.Calls.call trivial ?_) fun _ ↦ .done _
    intro under
    split
    · exact .done _
    · exact (on_overWrites _ _ _).bind fun _ ↦ .done _
  · split
    · exact .done _
    · split
      · exact .done _
      · exact .raise _

/-! ## Bodies with handlers and cleanups -/

theorem workdir_ne_empty (check : Check) (runId : String) : check.workdir runId ≠ "" := by
  intro h
  have hlist := congrArg String.toList h
  simp [workdir] at hlist
  exact absurd hlist.1 (by decide)

section Bodies

variable {σ : Type} {monitor : Monitor Call Reply σ} {I : σ → Prop} {state : σ}

/-- Calls of a kind are allowed in the states with a property, and keep it. -/
def Kept (monitor : Monitor Call Reply σ) (allowed : Call → Prop) (I : σ → Prop) : Prop :=
  ∀ state call, I state → allowed call → monitor.allowed state call ∧
    ∀ reply, I (monitor.heard (monitor.sent state call) call reply)

theorem obeys_within {allowed : Call → Prop} {part : Run ApiError α} (hkept : Kept monitor allowed I)
    (h : part.Calls allowed) (hstate : I state) :
    (within locals part).Obeys monitor (fun state _ ↦ I state)
      (fun state exit ↦ I state ∧ exit.locals = locals) state :=
  (h.obeys hkept hstate).mapError fun _ _ hI ↦ ⟨hI, rfl⟩

theorem obeys_leave {allowed : Call → Prop} {part : Run ApiError Bool} {R : σ → α → Prop}
    (hkept : Kept monitor allowed I) (h : part.Calls allowed) (hstate : I state) :
    (leave locals part).Obeys monitor R (fun state exit ↦ I state ∧ exit.locals = locals) state :=
  (obeys_within hkept h hstate).bind fun _ _ hI ↦ ⟨hI, rfl⟩

/-- A command never raises, so what the body is left with is up to the rest. -/
theorem obeys_command {R : σ → α → Prop} {E : σ → Exit → Prop} {text : String}
    {f : CommandResult → Run Exit α} (hkept : Kept monitor Call.Quiet I) (hstate : I state)
    (hf : ∀ state result, I state → (f result).Obeys monitor R E state) :
    ((command text).bind f).Obeys monitor R E state :=
  have ⟨hallowed, hheard⟩ := hkept state (.command text) hstate trivial
  ⟨hallowed, fun result ↦ hf _ result (hheard result)⟩

/-- The round trip and the writes leave the locals as they are. -/
theorem obeys_probe {uidError : Run ApiError (Option String)}
    (hkept : Kept monitor (Call.On quota) I) (huid : uidError.Calls (Call.On quota)) (hstate : I state) :
    (check.probe tag locals quota tenantId dir uidError writer).Obeys monitor
      (fun state exit ↦ I state ∧ exit.locals = locals)
      (fun state exit ↦ I state ∧ exit.locals = locals) state := by
  apply (obeys_within hkept on_runCrud hstate).bind
  intro state crudOk hstate
  apply (obeys_within hkept huid hstate).bind
  intro state mismatch hstate
  match mismatch with
  | some message => exact obeys_leave hkept (on_report _) hstate
  | none =>
    apply (obeys_within hkept on_runEnforcement hstate).bind
    intro state enforceOk hstate
    exact ⟨hstate, rfl⟩

/-- The cleanup goes on from wherever the body was left, and from the locals of that place. -/
theorem obeys_tryFinally {B : σ → Locals → Prop} {F : σ → Prop} {body : Run Exit Exit}
    {cleanup : Locals → Run ApiError Unit}
    (hquiet : ∀ locals, Kept monitor Call.Quiet fun state ↦ B state locals)
    (hbody : body.Obeys monitor (fun state exit ↦ B state exit.locals)
      (fun state exit ↦ B state exit.locals) state)
    (hcleanup : ∀ state locals, B state locals →
      (cleanup locals).Obeys monitor (fun state _ ↦ F state) (fun state _ ↦ F state) state) :
    (check.tryFinally tag body cleanup).Obeys monitor (fun state _ ↦ F state)
      (fun state _ ↦ F state) state := by
  apply hbody.attempt.bind
  intro state outcome houtcome
  have hrest : ∀ exit : Exit, B state exit.locals → (do
      let exit ← check.handled tag exit
      cleanup exit.locals
      .ofExcept exit.result : Run ApiError Bool).Obeys monitor (fun state _ ↦ F state)
        (fun state _ ↦ F state) state := by
    intro exit hexit
    have hhandled : (check.handled tag exit).Obeys monitor (fun state after ↦ B state after.locals)
        (fun state _ ↦ F state) state := by
      unfold handled
      split
      · -- the handler reports two skipped subtests
        have hfirst := fun subtest ↦ hquiet exit.locals state (.report subtest) hexit trivial
        have hsecond := fun subtest subtest' ↦
          hquiet exit.locals _ (.report subtest') ((hfirst subtest).2 ()) trivial
        exact ⟨(hfirst _).1, fun _ ↦ ⟨(hsecond _ _).1, fun _ ↦ (hsecond _ _).2 ()⟩⟩
      · exact hexit
    apply hhandled.bind
    intro state exit hexit
    exact (hcleanup state exit.locals hexit).bind fun state _ hF ↦
      Program.obeys_ofExcept (fun _ _ ↦ hF) fun _ _ ↦ hF
  match outcome with
  | .ok exit => exact hrest exit houtcome
  | .error exit => exact hrest exit houtcome

theorem obeys_step {R : σ → Unit → Prop} {E : σ → ε → Prop} {condition : Prop} [Decidable condition]
    {part : Run ε Unit} (hpart : condition → part.Obeys monitor R E state)
    (hskip : ¬ condition → R state ()) : (step condition part).Obeys monitor R E state := by
  unfold step
  by_cases h : condition
  · rw [if_pos h]
    exact hpart h
  · rw [if_neg h]
    exact hskip h

/-- A step of a cleanup which is a command never raises. -/
theorem obeys_perform {E : σ → ε → Prop} {condition : Prop} [Decidable condition] (text : String)
    (hkept : Kept monitor Call.Quiet I) (hstate : I state) :
    (step condition (perform text)).Obeys monitor (fun state _ ↦ I state) E state :=
  obeys_step (fun _ ↦ hkept state (.command text) hstate trivial) fun _ ↦ hstate

/-- How the body of a native run is left: it goes on from the quota being untouched to working with it,
with the directory named by then. -/
theorem obeys_tryNative {J : σ → Prop} {volume : Volume} (hquiet : Kept monitor Call.Quiet I)
    (hon : Kept monitor (Call.On (check.quotaOn provider runId volume.id)) J)
    (hbegin : ∀ state, I state → J state) (hstate : I state) :
    (check.tryNative provider runId volume).Obeys monitor
      (fun state exit ↦ exit.locals.volumeId = volume.id ∧ (I state ∨ J state ∧ exit.locals.dir ≠ ""))
      (fun state exit ↦ exit.locals.volumeId = volume.id ∧ (I state ∨ J state ∧ exit.locals.dir ≠ ""))
      state := by
  have hleave : ∀ {part : Run ApiError Bool} {locals : Locals} (state : σ), part.Calls Call.Quiet →
      locals.volumeId = volume.id → I state → (leave locals part : Run Exit Exit).Obeys monitor
        (fun state exit ↦ exit.locals.volumeId = volume.id ∧ (I state ∨ J state ∧ exit.locals.dir ≠ ""))
        (fun state exit ↦ exit.locals.volumeId = volume.id ∧ (I state ∨ J state ∧ exit.locals.dir ≠ ""))
        state := by
    intro part locals state hpart hid hstate
    refine (obeys_leave hquiet hpart hstate).mono (fun _ _ h ↦ h) ?_
    intro state exit ⟨hstate, hlocals⟩
    rw [hlocals]
    exact ⟨hid, Or.inl hstate⟩
  unfold tryNative
  match volume.mount with
  | none => exact hleave state (quiet_skipBoth _) rfl hstate
  | some mount =>
    have hmkdtemp : ∀ start, (Program.call (.mkdtemp start) .ofExcept : Run ApiError String).Calls
        Call.Quiet := fun _ ↦ .call trivial .ofExcept
    apply ((obeys_within hquiet (hmkdtemp _) hstate).mono (fun _ _ h ↦ h)
      fun state exit ⟨hstate, hlocals⟩ ↦ by
        rw [hlocals]
        exact ⟨rfl, Or.inl hstate⟩).bind
    intro state mountDir hstate
    refine obeys_command hquiet hstate fun state result hstate ↦ ?_
    by_cases hmounted : result.exitCode = 0
    · rw [decide_eq_true hmounted]
      refine obeys_command hquiet hstate fun state mk hstate ↦ ?_
      by_cases hmk : mk.exitCode ≠ 0
      · rw [if_pos hmk]
        exact hleave state (quiet_failBoth _) rfl hstate
      · rw [if_neg hmk]
        have hkeep : ∀ (state : σ) (exit : Exit), (J state ∧ exit.locals = ⟨false, false, false, volume.id,
            mountDir, true, check.workdir runId⟩) → exit.locals.volumeId = volume.id ∧
              (I state ∨ J state ∧ exit.locals.dir ≠ "") := by
          intro state exit ⟨hstate, hlocals⟩
          rw [hlocals]
          exact ⟨rfl, Or.inr ⟨hstate, workdir_ne_empty check runId⟩⟩
        exact (obeys_probe hon (.done none) (hbegin state hstate)).mono hkeep hkeep
    · rw [decide_eq_false hmounted]
      exact hleave state (quiet_failBoth _) rfl hstate

end Bodies

/-! ## Quotas which are set are deleted -/

/-- Where a run stands: it has found no volume yet, or it works with one quota, which may have been set
and not deleted since. Of a volume without an id nothing is noted. -/
inductive Stage where
  | idle
  | working (quota : QuotaName) (pending : Bool)
  deriving DecidableEq

namespace Stage

def pending : Stage → Bool
  | working _ pending => pending
  | idle => false

def sent : Stage → Call → Stage
  | _, .acquired quota => working quota false
  | working quota _, .setQuota _ _ _ => working quota (decide (quota.volume.id ≠ ""))
  | working quota _, .deleteQuota _ _ _ => working quota false
  | stage, _ => stage

end Stage

/-- Only the quota a run works with is set and deleted, and none is left behind for another one. -/
def quotaMonitor : Monitor Call Reply Stage where
  allowed stage
    | .acquired _ => stage.pending = false
    | .setQuota quota _ _ => ∃ pending, stage = .working quota pending
    | .deleteQuota quota _ _ => ∃ pending, stage = .working quota pending
    | _ => True
  sent := Stage.sent
  heard stage _ _ := stage

theorem sent_acquired (stage : Stage) (quota : QuotaName) :
    stage.sent (.acquired quota) = .working quota false := by
  cases stage <;> rfl

theorem sent_quiet {call : Call} (h : call.Quiet) (stage : Stage) : stage.sent call = stage := by
  cases call with
  | setQuota | deleteQuota | acquired | createVolume | deleteVolume => exact h.elim
  | _ => cases stage <;> rfl

theorem kept_quiet (I : Stage → Prop) : Kept quotaMonitor Call.Quiet I := by
  intro stage call hstage hquiet
  have hallowed : quotaMonitor.allowed stage call := by
    cases call with
    | setQuota | deleteQuota | acquired | createVolume | deleteVolume => exact hquiet.elim
    | _ => trivial
  refine ⟨hallowed, fun _ ↦ ?_⟩
  change I (stage.sent call)
  rwa [sent_quiet hquiet]

/-- The run works with a quota, which it set only if the volume has an id. -/
def Stage.With (stage : Stage) (quota : QuotaName) : Prop :=
  ∃ pending, stage = .working quota pending ∧ (quota.volume.id = "" → pending = false)

theorem kept_on (quota : QuotaName) : Kept quotaMonitor (Call.On quota) (Stage.With · quota) := by
  intro stage call ⟨pending, hworking, hid⟩ hcall
  rw [hworking]
  cases call with
  | setQuota other =>
    rw [show other = quota from hcall]
    exact ⟨⟨pending, rfl⟩, fun _ ↦ ⟨_, rfl, fun hid ↦ decide_eq_false (not_not_intro hid)⟩⟩
  | deleteQuota other =>
    rw [show other = quota from hcall.1]
    exact ⟨⟨pending, rfl⟩, fun _ ↦ ⟨false, rfl, fun _ ↦ rfl⟩⟩
  | acquired | createVolume | deleteVolume => exact hcall.elim
  | _ => exact ⟨trivial, fun _ ↦ ⟨pending, rfl, hid⟩⟩

theorem with_fresh (quota : QuotaName) : (Stage.working quota false).With quota :=
  ⟨false, rfl, fun _ ↦ rfl⟩

/-- Nothing is left to delete. -/
def Stage.Clean (stage : Stage) : Prop := stage.pending = false

/-- From these stages and locals the cleanup leaves nothing behind: it has a quota to delete, the one the
run works with, or there is none. -/
def Settled (check : Check) (provider : Provider) (runId : String) (stage : Stage) (locals : Locals) :
    Prop :=
  if check.hasQuota locals then
    ∃ pending, stage = .working (check.quotaOn provider runId locals.volumeId) pending
  else stage.pending = false

theorem clean_of_settled {stage : Stage} (h : Settled check provider runId stage locals)
    (hnone : check.hasQuota locals = false) : stage.Clean := by
  rw [Settled, hnone] at h
  exact h

/-- The first step of both cleanups. -/
theorem clean_dropQuota {stage : Stage} (h : Settled check provider runId stage locals)
    (hquota : check.hasQuota locals = true) :
    (dropQuota (check.quotaOn provider runId locals.volumeId) provider.tenantId).Obeys quotaMonitor
      (fun stage _ ↦ stage.Clean) (fun stage _ ↦ stage.Clean) stage := by
  rw [Settled, hquota] at h
  have hclean : (stage.sent (.deleteQuota (check.quotaOn provider runId locals.volumeId)
      provider.tenantId .cleanup)).Clean := by
    have ⟨_, hworking⟩ := h
    rw [hworking]
    rfl
  refine ⟨h, fun reply ↦ ?_⟩
  match reply with
  | .ok () => exact hclean
  | .error error =>
    by_cases hstorage : error.isStorageApi = true
    · simp only [hstorage]
      exact hclean
    · simp only [hstorage]
      exact hclean

/-- The first step leaves the run clean, or there was nothing to delete. -/
theorem clean_firstStep {stage : Stage} (h : Settled check provider runId stage locals) :
    (step (check.hasQuota locals = true)
      (dropQuota (check.quotaOn provider runId locals.volumeId) provider.tenantId)).Obeys quotaMonitor
      (fun stage _ ↦ stage.Clean) (fun stage _ ↦ stage.Clean) stage :=
  obeys_step (clean_dropQuota h) fun hnone ↦ clean_of_settled h (Bool.not_eq_true _ ▸ hnone)

theorem clean_step {stage : Stage} {condition : Prop} [Decidable condition] (text : String)
    (h : stage.Clean) : (step condition (perform text) : Run ApiError Unit).Obeys quotaMonitor
      (fun stage _ ↦ stage.Clean) (fun stage _ ↦ stage.Clean) stage :=
  obeys_perform text (kept_quiet Stage.Clean) h

/-- The outcome of the steps is not looked at. -/
theorem clean_attempt {stage : Stage} {steps : Run ApiError Unit}
    (h : steps.Obeys quotaMonitor (fun stage _ ↦ stage.Clean) (fun stage _ ↦ stage.Clean) stage) :
    (steps.attempt.bind fun _ ↦ .done () : Run ε Unit).Obeys quotaMonitor
      (fun stage _ ↦ stage.Clean) (fun stage _ ↦ stage.Clean) stage := by
  apply h.attempt.bind
  intro stage outcome houtcome
  match outcome with
  | .ok () => exact houtcome
  | .error error => exact houtcome

theorem clean_cleanup {stage : Stage} {workload : Workload} (hns : locals.nsCreated = false)
    (h : Settled check provider runId stage locals) :
    (check.cleanup provider runId workload locals : Run ε Unit).Obeys quotaMonitor
      (fun stage _ ↦ stage.Clean) (fun stage _ ↦ stage.Clean) stage := by
  unfold cleanup
  rw [hns, if_neg Bool.false_ne_true]
  exact clean_attempt ((clean_firstStep h).bind fun _ _ hclean ↦ (clean_step _ hclean).bind
    fun _ _ hclean ↦ (clean_step _ hclean).bind fun _ _ hclean ↦ clean_step _ hclean)

theorem clean_cleanupNative {stage : Stage} (h : Settled check provider runId stage locals) :
    (check.cleanupNative provider runId locals : Run ε Unit).Obeys quotaMonitor
      (fun stage _ ↦ stage.Clean) (fun stage _ ↦ stage.Clean) stage := by
  have hdelete : ∀ stage : Stage, stage.Clean → (step (locals.volumeId ≠ "")
      (.call (.deleteVolume ⟨provider.name, locals.volumeId⟩ provider.tenantId) .ofExcept)).Obeys
        quotaMonitor (fun stage _ ↦ stage.Clean) (fun stage _ ↦ stage.Clean) stage := by
    intro stage hclean
    refine obeys_step (fun _ ↦ ⟨trivial, fun reply ↦ ?_⟩) fun _ ↦ hclean
    have hsame : quotaMonitor.sent stage
        (.deleteVolume ⟨provider.name, locals.volumeId⟩ provider.tenantId) = stage := by
      cases stage <;> rfl
    rw [hsame]
    exact Program.obeys_ofExcept (fun _ _ ↦ hclean) fun _ _ ↦ hclean
  exact clean_attempt ((clean_firstStep h).bind fun _ _ hclean ↦ (clean_step _ hclean).bind
    fun _ _ hclean ↦ (clean_step _ hclean).bind fun _ _ hclean ↦ (clean_step _ hclean).bind
      fun stage _ hclean ↦ hdelete stage hclean)

/-! ## The bodies of the two ways to acquire a volume -/

theorem hasQuota_eq_false (hid : locals.volumeId = "") : check.hasQuota locals = false := by
  unfold hasQuota
  rw [hid]
  split <;> simp

theorem volumeId_ne_empty (h : check.hasQuota locals = true) : locals.volumeId ≠ "" := by
  intro hid
  rw [hasQuota_eq_false hid] at h
  cases h

theorem hasQuota_eq_true (hid : locals.volumeId ≠ "") (hdir : locals.dir ≠ "") :
    check.hasQuota locals = true := by
  unfold hasQuota
  split <;> simp [hid, hdir]

theorem settled_of_clean {stage : Stage} (hid : locals.volumeId = "") (h : stage.Clean) :
    Settled check provider runId stage locals := by
  rw [Settled, hasQuota_eq_false hid]
  exact h

theorem settled_of_with {stage : Stage} (hdir : locals.dir ≠ "")
    (h : stage.With (check.quotaOn provider runId locals.volumeId)) :
    Settled check provider runId stage locals := by
  have ⟨pending, hworking, hnone⟩ := h
  rw [Settled, hworking]
  by_cases hid : locals.volumeId = ""
  · rw [hasQuota_eq_false hid]
    exact hnone hid
  · rw [hasQuota_eq_true hid hdir, if_pos rfl]
    exact ⟨pending, rfl⟩

theorem settled_fresh :
    Settled check provider runId (.working (check.quotaOn provider runId locals.volumeId) false)
      locals := by
  unfold Settled
  split
  · exact ⟨false, rfl⟩
  · rfl

/-- A supplied claim is not provisioned, and the pod is mounted before a volume is found. -/
theorem obeys_mountPod {stage : Stage} {workload : Workload} (h : stage.Clean)
    (hid : locals.volumeId = "") (hns : locals.nsCreated = false) :
    (check.mountPod tag workload locals).Obeys quotaMonitor
      (fun stage locals ↦ stage.Clean ∧ locals.volumeId = "" ∧ locals.nsCreated = false)
      (fun stage exit ↦ stage.Clean ∧ exit.locals.volumeId = "" ∧ exit.locals.nsCreated = false)
      stage := by
  have hleft : ∀ (stage : Stage) (exit : Exit), stage.Clean ∧ exit.locals = locals →
      stage.Clean ∧ exit.locals.volumeId = "" ∧ exit.locals.nsCreated = false := by
    intro stage exit ⟨hclean, hlocals⟩
    rw [hlocals]
    exact ⟨hclean, hid, hns⟩
  have hleave : ∀ (stage : Stage) (message : String), stage.Clean →
      (leave locals (check.failBoth tag message) : Run Exit Locals).Obeys quotaMonitor
        (fun stage locals ↦ stage.Clean ∧ locals.volumeId = "" ∧ locals.nsCreated = false)
        (fun stage exit ↦ stage.Clean ∧ exit.locals.volumeId = "" ∧ exit.locals.nsCreated = false)
        stage := fun stage message hclean ↦
    (obeys_leave (kept_quiet Stage.Clean) (quiet_failBoth message) hclean).mono (fun _ _ h ↦ h) hleft
  unfold mountPod
  by_cases hpod : check.podName ≠ ""
  · rw [if_pos hpod]
    refine obeys_command (kept_quiet Stage.Clean) h fun stage result hclean ↦ ?_
    by_cases hready : result.exitCode = 0
    · rw [if_pos hready]
      exact ⟨hclean, hid, hns⟩
    · rw [if_neg hready]
      exact hleave stage _ hclean
  · rw [if_neg hpod]
    apply ((obeys_within (kept_quiet Stage.Clean) (quiet_launchMountPod _ _ _) h).mono
      (fun _ _ h ↦ h) hleft).bind
    intro stage ready hclean
    by_cases hready : ready = true
    · rw [if_pos hready]
      exact ⟨hclean, hid, hns⟩
    · rw [if_neg hready]
      exact hleave stage _ hclean

/-- The calls of the probe work on the quota of the volume, whoever must write. -/
theorem settled_probe {stage : Stage} {uidError : Run ApiError (Option String)}
    (huid : uidError.Calls Call.Quiet) (hdir : locals.dir ≠ "")
    (h : stage.With (check.quotaOn provider runId locals.volumeId)) :
    (check.probe tag locals (check.quotaOn provider runId locals.volumeId) tenantId dir uidError
      writer).Obeys quotaMonitor
      (fun stage exit ↦ Settled check provider runId stage exit.locals ∧ exit.locals = locals)
      (fun stage exit ↦ Settled check provider runId stage exit.locals ∧ exit.locals = locals)
      stage := by
  have hsettled : ∀ (stage : Stage) (exit : Exit),
      stage.With (check.quotaOn provider runId locals.volumeId) ∧ exit.locals = locals →
        Settled check provider runId stage exit.locals ∧ exit.locals = locals := by
    intro stage exit ⟨hwith, hlocals⟩
    rw [hlocals]
    exact ⟨settled_of_with hdir hwith, rfl⟩
  exact (obeys_probe (kept_on _) (huid.mono fun _ hquiet ↦ hquiet.on _) h).mono hsettled hsettled

theorem provisionPvc_supplied {workload : Workload} {f : Locals → Run Exit Exit}
    (hpvc : check.pvcName ≠ "") : check.provisionPvc tag workload locals >>= f = f locals := by
  rw [provisionPvc, if_pos hpvc]
  rfl

/-- With a supplied claim the body leaves its quota to a cleanup which deletes it. -/
theorem settled_tryK8s {stage : Stage} {workload : Workload} (hpvc : check.pvcName ≠ "")
    (h : stage.Clean) :
    (check.tryK8s provider runId workload).Obeys quotaMonitor
      (fun stage exit ↦ Settled check provider runId stage exit.locals ∧ exit.locals.nsCreated = false)
      (fun stage exit ↦ Settled check provider runId stage exit.locals ∧ exit.locals.nsCreated = false)
      stage := by
  have hleft : ∀ {locals : Locals} (stage : Stage) (exit : Exit), stage.Clean →
      locals.volumeId = "" → locals.nsCreated = false → exit.locals = locals →
      Settled check provider runId stage exit.locals ∧ exit.locals.nsCreated = false := by
    intro locals stage exit hclean hid hns hlocals
    rw [hlocals]
    exact ⟨settled_of_clean hid hclean, hns⟩
  unfold tryK8s
  dsimp only
  rw [provisionPvc_supplied hpvc]
  refine Program.Obeys.bind ((obeys_mountPod h rfl rfl).mono (fun _ _ h ↦ h)
    fun stage exit h ↦ hleft stage exit h.1 h.2.1 h.2.2 rfl) ?_
  rintro stage locals ⟨hclean, hid, hns⟩
  apply ((obeys_within (kept_quiet Stage.Clean) (quiet_resolveVolume _ _) hclean).mono
    (fun _ _ h ↦ h) fun stage exit h ↦ hleft stage exit h.1 hid hns h.2).bind
  intro stage resolved hclean
  cases resolved with
  | error error =>
    exact (obeys_leave (kept_quiet Stage.Clean) (quiet_failBoth _) hclean).mono (fun _ _ h ↦ h)
      fun stage exit h ↦ hleft stage exit h.1 hid hns h.2
  | ok volume =>
    have hdir := workdir_ne_empty check runId
    refine ⟨hclean, fun _ ↦ obeys_command (kept_quiet (· = .working _ false))
      (sent_acquired stage _) ?_⟩
    intro stage mk hfresh
    by_cases hmk : mk.exitCode ≠ 0
    · rw [if_pos hmk]
      refine (obeys_leave (kept_quiet (· = .working _ false)) (quiet_failBoth _) hfresh).mono
        (fun _ _ h ↦ h) ?_
      rintro stage exit ⟨hfresh, hlocals⟩
      rw [hlocals, hfresh]
      exact ⟨settled_fresh, hns⟩
    · rw [if_neg hmk]
      have hkeep : ∀ (stage : Stage) (exit : Exit), (Settled check provider runId stage exit.locals ∧
          exit.locals = { locals with volumeId := volume.id, dir := check.workdir runId }) →
            Settled check provider runId stage exit.locals ∧ exit.locals.nsCreated = false :=
        fun stage exit h ↦ ⟨h.1, by rw [h.2]; exact hns⟩
      rw [hfresh]
      apply (settled_probe _ hdir (with_fresh _)).mono hkeep hkeep
      split
      · exact .done none
      · exact quiet_k8sWriterUidError _ _

/-- A native volume is noted before the body. -/
theorem settled_tryNative {volume : Volume} :
    (check.tryNative provider runId volume).Obeys quotaMonitor
      (fun stage exit ↦ Settled check provider runId stage exit.locals)
      (fun stage exit ↦ Settled check provider runId stage exit.locals)
      (.working (check.quotaOn provider runId volume.id) false) := by
  have hsettled : ∀ (stage : Stage) (exit : Exit), exit.locals.volumeId = volume.id ∧
      (stage = .working (check.quotaOn provider runId volume.id) false ∨
        stage.With (check.quotaOn provider runId volume.id) ∧ exit.locals.dir ≠ "") →
      Settled check provider runId stage exit.locals := by
    intro stage exit ⟨hid, hstage⟩
    rw [← hid] at hstage
    match hstage with
    | .inl hfresh =>
      rw [hfresh]
      exact settled_fresh
    | .inr ⟨hwith, hdir⟩ => exact settled_of_with hdir hwith
  refine (obeys_tryNative (kept_quiet (· = .working _ false)) (kept_on _) ?_ rfl).mono hsettled hsettled
  intro stage hfresh
  rw [hfresh]
  exact with_fresh _

/-! ## Whole runs -/

theorem clean_quiet {stage : Stage} {part : Run ApiError Bool} (hpart : part.Calls Call.Quiet)
    (h : stage.Clean) : part.Obeys quotaMonitor (fun stage _ ↦ stage.Clean) (fun stage _ ↦ stage.Clean)
      stage := hpart.obeys (kept_quiet Stage.Clean) h

theorem clean_exerciseProviderK8s {stage : Stage} (hpvc : check.pvcName ≠ "") (h : stage.Clean) :
    (check.exerciseProviderK8s provider).Obeys quotaMonitor (fun stage _ ↦ stage.Clean)
      (fun stage _ ↦ stage.Clean) stage := by
  unfold exerciseProviderK8s
  rw [if_neg fun hnone ↦ hpvc hnone.2]
  have ⟨hallowed, hheard⟩ := kept_quiet Stage.Clean stage .uuid h trivial
  refine ⟨hallowed, fun runId ↦ obeys_tryFinally
    (B := fun stage locals ↦ Settled check provider runId stage locals ∧ locals.nsCreated = false)
    (fun locals ↦ kept_quiet _) (settled_tryK8s hpvc (hheard runId)) ?_⟩
  intro stage locals ⟨hsettled, hns⟩
  exact clean_cleanup hns hsettled

theorem clean_exerciseProviderNative {stage : Stage} (h : stage.Clean) :
    (check.exerciseProviderNative provider).Obeys quotaMonitor (fun stage _ ↦ stage.Clean)
      (fun stage _ ↦ stage.Clean) stage := by
  have ⟨huuid, hstarted⟩ := kept_quiet Stage.Clean stage .uuid h trivial
  refine ⟨huuid, fun runId ↦ ⟨trivial, fun reply ↦ ?_⟩⟩
  have hclean : (Stage.sent (Stage.sent stage .uuid) (.createVolume provider.name check.volumeSize
      provider.volumeType provider.tenantId (check.workdir runId))).Clean := by
    have hsame : (Stage.sent stage .uuid).Clean := hstarted runId
    revert hsame
    cases Stage.sent stage .uuid <;> exact id
  match reply with
  | .error error => exact clean_quiet (quiet_failBoth _) hclean
  | .ok volume =>
    refine ⟨hclean, fun _ ↦ ?_⟩
    rw [show quotaMonitor.sent = Stage.sent from rfl, sent_acquired]
    exact obeys_tryFinally (B := Settled check provider runId) (fun locals ↦ kept_quiet _)
      settled_tryNative fun stage locals hsettled ↦ clean_cleanupNative hsettled

theorem clean_exerciseProvider {stage : Stage} (hpvc : check.pvcName ≠ "") (h : stage.Clean) :
    (check.exerciseProvider provider).Obeys quotaMonitor (fun stage _ ↦ stage.Clean)
      (fun stage _ ↦ stage.Clean) stage := by
  unfold exerciseProvider
  split
  · exact clean_exerciseProviderK8s hpvc h
  · split
    · exact clean_exerciseProviderNative h
    · split
      · exact clean_exerciseProviderK8s hpvc h
      · exact clean_quiet (quiet_skipBoth _) h

theorem clean_exerciseProviders {stage : Stage} (hpvc : check.pvcName ≠ "") (providers : List Provider)
    (h : stage.Clean) : (check.exerciseProviders providers).Obeys quotaMonitor
      (fun stage _ ↦ stage.Clean) (fun stage _ ↦ stage.Clean) stage := by
  induction providers generalizing stage with
  | nil => exact h
  | cons provider rest ih =>
    apply (clean_exerciseProvider hpvc h).bind
    intro stage passed hclean
    exact (ih hclean).bind fun stage anyFailed hclean ↦ hclean

/-! ## Volumes which are created are deleted -/

/-- The volume a run must still delete: the one it created, unless that has no id, or the deletion of its
quota in the cleanup raised an exception which is no error of the storage interface. -/
def volumeMonitor : Monitor Call Reply (Option VolumeName) where
  allowed owed
    | .createVolume _ _ _ _ _ => owed = none
    | .deleteVolume volume _ => owed = some volume
    | _ => True
  sent owed
    | .deleteVolume _ _ => none
    | _ => owed
  heard owed
    | .createVolume provider _ _ _ _, .ok volume =>
      if volume.id = "" then none else some ⟨provider, volume.id⟩
    | .deleteQuota quota _ .cleanup, .error error =>
      if error.isStorageApi = false ∧ owed = some quota.volume then none else owed
    | _, _ => owed

/-- No volume is created or deleted. -/
def Call.Apart : Call → Prop
  | createVolume _ _ _ _ _ | deleteVolume _ _ => False
  | _ => True

theorem Call.On.apart {call : Call} (h : call.On quota) : call.Apart := by
  cases call with
  | createVolume | deleteVolume | acquired => exact h.elim
  | _ => trivial

theorem Call.Quiet.apart {call : Call} (h : call.Quiet) : call.Apart := by
  cases call with
  | createVolume | deleteVolume => exact h.elim
  | _ => trivial

/-- The calls which work on a quota leave it open which volume is to be deleted. -/
theorem owed_on (I : Option VolumeName → Prop) : Kept volumeMonitor (Call.On quota) I := by
  intro owed call howed hcall
  cases call with
  | createVolume | deleteVolume | acquired => exact hcall.elim
  | deleteQuota _ _ site =>
    rw [hcall.2]
    exact ⟨trivial, fun _ ↦ howed⟩
  | _ => exact ⟨trivial, fun _ ↦ howed⟩

theorem owed_quiet (I : Option VolumeName → Prop) : Kept volumeMonitor Call.Quiet I := by
  intro owed call howed hcall
  have hon : call.On ⟨.user, ⟨"", ""⟩, ""⟩ := hcall.on _
  exact owed_on I owed call howed hon

/-- Where no volume is to be deleted none comes up. -/
theorem owed_apart : Kept volumeMonitor Call.Apart (· = none) := by
  intro owed call howed hcall
  rw [howed]
  cases call with
  | createVolume | deleteVolume => exact hcall.elim
  | deleteQuota quota tenantId site =>
    refine ⟨trivial, fun reply ↦ ?_⟩
    match site, reply with
    | .roundTrip, _ => rfl
    | .cleanup, .ok () => rfl
    | .cleanup, .error error => exact ite_self none
  | _ => exact ⟨trivial, fun _ ↦ rfl⟩

/-! ### A run in a cluster creates no volume -/

theorem apart_leave {part : Run ApiError Bool} (h : part.Calls Call.Quiet) :
    (leave locals part : Run Exit α).Calls Call.Apart :=
  ((h.mono fun _ ↦ Call.Quiet.apart).mapError _).bind fun _ ↦ .raise _

theorem apart_step {condition : Prop} [Decidable condition] {part : Run ε Unit}
    (h : part.Calls Call.Apart) : (step condition part).Calls Call.Apart := by
  unfold step
  split
  · exact h
  · exact .done ()

theorem apart_provisionPvc {workload : Workload} :
    (check.provisionPvc tag workload locals).Calls Call.Apart := by
  unfold provisionPvc
  split
  · exact .done locals
  · refine (calls_command _ trivial).bind fun created ↦ ?_
    split
    · exact apart_leave (quiet_failBoth _)
    · refine .call trivial fun (code, _) ↦ ?_
      dsimp only
      split
      · exact apart_leave (quiet_failBoth _)
      · exact .done _

theorem apart_mountPod {workload : Workload} : (check.mountPod tag workload locals).Calls Call.Apart := by
  unfold mountPod
  split
  · refine Program.Calls.bind ((quiet_waitPodReady _ _).mono fun _ ↦ Call.Quiet.apart) fun text ↦ ?_
    match text with
    | none => exact .done locals
    | some text => exact apart_leave (quiet_failBoth _)
  · have hlaunch : (check.launchMountPod workload.namespace_ workload.podName
      workload.pvcName).Calls Call.Quiet := quiet_launchMountPod _ _ _
    refine ((hlaunch.mono fun _ ↦ Call.Quiet.apart).mapError _).bind fun ready ↦ ?_
    split
    · exact .done _
    · exact apart_leave (quiet_failBoth _)

theorem apart_probe {uidError : Run ApiError (Option String)} (huid : uidError.Calls Call.Quiet) :
    (check.probe tag locals quota tenantId dir uidError writer).Calls Call.Apart := by
  refine ((on_runCrud.mono fun _ ↦ Call.On.apart).mapError _).bind fun crudOk ↦ ?_
  refine ((huid.mono fun _ ↦ Call.Quiet.apart).mapError _).bind fun mismatch ↦ ?_
  match mismatch with
  | some message => exact apart_leave (Quiet.report _)
  | none => exact ((on_runEnforcement.mono fun _ ↦ Call.On.apart).mapError _).bind fun _ ↦ .done _

theorem apart_tryK8s {workload : Workload} :
    (check.tryK8s provider runId workload).Calls Call.Apart := by
  refine apart_provisionPvc.bind fun locals ↦ apart_mountPod.bind fun locals ↦ ?_
  have hresolve : (check.resolveVolume provider workload.namespace_ workload.pvcName).Calls
    Call.Quiet := quiet_resolveVolume _ _
  refine ((hresolve.mono fun _ ↦ Call.Quiet.apart).mapError _).bind fun resolved ↦ ?_
  match resolved with
  | .error error => exact apart_leave (quiet_failBoth _)
  | .ok volume =>
    refine .call trivial fun _ ↦ (calls_command _ trivial).bind fun mk ↦ ?_
    split
    · exact apart_leave (quiet_failBoth _)
    · apply apart_probe
      split
      · exact .done none
      · exact quiet_k8sWriterUidError _ _

theorem apart_dropQuota (quota : QuotaName) (tenantId : Option String) :
    (dropQuota quota tenantId).Calls Call.Apart := by
  refine .call trivial fun reply ↦ ?_
  split
  · exact .done ()
  · split
    · exact .done ()
    · exact .raise _

theorem apart_cleanup {workload : Workload} :
    (check.cleanup provider runId workload locals : Run ε Unit).Calls Call.Apart := by
  have hperform : ∀ {ε : Type} (text : String), (perform text : Run ε Unit).Calls Call.Apart :=
    fun text ↦ .call trivial fun _ ↦ .done ()
  unfold cleanup
  split
  · exact hperform _
  · have hsteps : (check.cleanupSteps provider runId workload locals).Calls Call.Apart :=
      (apart_step (apart_dropQuota _ _)).bind fun _ ↦ (apart_step (hperform _)).bind fun _ ↦
        (apart_step (hperform _)).bind fun _ ↦ apart_step (hperform _)
    exact hsteps.attempt.bind fun _ ↦ .done ()

/-! ### Whole runs -/

/-- Where no volume is to be deleted none is at the end. -/
def Repays (part : Run ε α) : Prop :=
  part.Obeys volumeMonitor (fun owed _ ↦ owed = none) (fun owed _ ↦ owed = none) none

theorem repays_of_apart {part : Run ε α} (h : part.Calls Call.Apart) : Repays part :=
  h.obeys owed_apart rfl

theorem repays_of_quiet {part : Run ε α} (h : part.Calls Call.Quiet) : Repays part :=
  repays_of_apart (h.mono fun _ ↦ Call.Quiet.apart)

theorem repays_exerciseProviderK8s : Repays (check.exerciseProviderK8s provider) := by
  unfold exerciseProviderK8s
  split
  · exact repays_of_quiet (quiet_skipBoth _)
  · refine ⟨trivial, fun runId ↦ obeys_tryFinally (B := fun owed _ ↦ owed = none)
      (fun _ ↦ owed_quiet _) (repays_of_apart apart_tryK8s) fun owed locals howed ↦ ?_⟩
    rw [howed]
    exact repays_of_apart apart_cleanup

/-- The volume a native run owes. -/
def owes (provider : Provider) (id : String) : Option VolumeName :=
  if id = "" then none else some ⟨provider.name, id⟩

theorem repays_cleanupNative {owed : Option VolumeName} (howed : owed = owes provider locals.volumeId) :
    (check.cleanupNative provider runId locals : Run ε Unit).Obeys volumeMonitor
      (fun owed _ ↦ owed = none) (fun owed _ ↦ owed = none) owed := by
  have hcommand : ∀ {owed : Option VolumeName} {condition : Prop} [Decidable condition] (text : String),
      owed = owes provider locals.volumeId → (step condition (perform text)).Obeys volumeMonitor
        (fun owed _ ↦ owed = owes provider locals.volumeId)
        (fun owed (_ : ApiError) ↦ owed = none) owed := fun text howed ↦
    obeys_perform text (owed_quiet _) howed
  have hsteps : (check.cleanupNativeSteps provider runId locals).Obeys volumeMonitor
      (fun owed _ ↦ owed = none) (fun owed _ ↦ owed = none) owed := by
    refine Program.Obeys.bind (R := fun owed _ ↦ owed = owes provider locals.volumeId) ?_
      fun _ _ howed ↦ (hcommand _ howed).bind fun _ _ howed ↦ (hcommand _ howed).bind
        fun _ _ howed ↦ (hcommand _ howed).bind fun _ _ howed ↦ ?_
    · refine obeys_step (fun hquota ↦ ⟨trivial, fun reply ↦ ?_⟩) fun _ ↦ howed
      have howes : owed = some ⟨provider.name, locals.volumeId⟩ := by
        rw [howed, owes, if_neg (volumeId_ne_empty hquota)]
      match reply with
      | .ok () => exact howed
      | .error error =>
        by_cases hstorage : error.isStorageApi = true
        · simp only [volumeMonitor, hstorage]
          exact howed
        · simp only [volumeMonitor, hstorage]
          exact if_pos ⟨trivial, howes⟩
    · refine obeys_step (fun hid ↦ ⟨?_, fun reply ↦ ?_⟩) fun hid ↦ ?_
      · rw [howed, owes, if_neg hid]
        rfl
      · exact Program.obeys_ofExcept (fun _ _ ↦ rfl) fun _ _ ↦ rfl
      · rw [howed, owes, if_pos (not_not.mp hid)]
  apply hsteps.attempt.bind
  intro owed outcome houtcome
  match outcome with
  | .ok () => exact houtcome
  | .error error => exact houtcome

theorem repays_exerciseProviderNative : Repays (check.exerciseProviderNative provider) := by
  refine ⟨trivial, fun runId ↦ ⟨rfl, fun reply ↦ ?_⟩⟩
  match reply with
  | .error error => exact repays_of_quiet (quiet_failBoth _)
  | .ok volume =>
    refine ⟨trivial, fun _ ↦ obeys_tryFinally
      (B := fun owed locals ↦ owed = owes provider locals.volumeId) (fun _ ↦ owed_quiet _) ?_
      fun owed locals howed ↦ repays_cleanupNative howed⟩
    have hlocals : ∀ (owed : Option VolumeName) (exit : Exit), exit.locals.volumeId = volume.id ∧
        (owed = owes provider volume.id ∨ owed = owes provider volume.id ∧ exit.locals.dir ≠ "") →
          owed = owes provider exit.locals.volumeId := by
      intro owed exit ⟨hid, howed⟩
      rw [hid]
      exact howed.elim id And.left
    exact (obeys_tryNative (owed_quiet (· = owes provider volume.id)) (owed_on _) (fun _ ↦ id) rfl).mono
      hlocals hlocals

theorem repays_exerciseProvider : Repays (check.exerciseProvider provider) := by
  unfold exerciseProvider
  split
  · exact repays_exerciseProviderK8s
  · split
    · exact repays_exerciseProviderNative
    · split
      · exact repays_exerciseProviderK8s
      · exact repays_of_quiet (quiet_skipBoth _)

theorem repays_exerciseProviders (providers : List Provider) :
    Repays (check.exerciseProviders providers) := by
  induction providers with
  | nil => exact rfl
  | cons provider rest ih =>
    apply repays_exerciseProvider.bind
    intro owed passed howed
    rw [howed]
    exact ih.bind fun owed anyFailed howed ↦ howed

end IsvValidation.Storage.QuotaProbe
