import IsvValidation.Breakfix.CordonNode

/-!
# What a run of the cordon test sends

A run is followed by a monitor which keeps what the run has read, whether it has sent its claim, and
how its release went. The claim is sent once, for a node read as available; a release is made from a
node which carries the run's marker; and a run which ends without cleanup errors has never sent its
claim, or has heard of its release, or has last read the node as free.
-/

namespace IsvValidation.Breakfix

open Library VersionedStore Program

/-! ## The monitor -/

/-- What is known of a run. -/
structure Trail where
  reads : List (String × Node) := []
  claimed : Bool := false
  released : Bool := false
  lastRead : Option (String × Node) := none

/-- A patch is made from an object the run has read. -/
def MadeFrom (ownership : CordonOwnership) (node : Node) (patch : List PatchOp) : Purpose → Prop
  | .claim => nodeIsAvailable node ∧ ∃ selection, SelectedFrom selection node ∧
      patch = claimPatch selection ownership.token
  | .release => node.owner = some ownership.token ∧ patch = releasePatch node ownership.token

namespace Trail

def allowed (ownership : CordonOwnership) (trail : Trail) : KubectlRequest → Prop
  | .patch purpose name patch => name = ownership.nodeName ∧
      (purpose = .claim → trail.claimed = false) ∧
        ∃ node, (name, node) ∈ trail.reads ∧ MadeFrom ownership node patch purpose
  | _ => True

def sent (trail : Trail) : KubectlRequest → Trail
  | .patch .claim _ _ => { trail with claimed := true }
  | _ => trail

def heard (trail : Trail) : (request : KubectlRequest) → KubectlReply request → Trail
  | .list, .ok items => { trail with reads := trail.reads ++ items, lastRead := none }
  | .get name, .ok node =>
    { trail with reads := trail.reads ++ [(name, node)], lastRead := some (name, node) }
  | .patch .release _ _, .ok () => { trail with released := true, lastRead := none }
  | _, _ => { trail with lastRead := none }

end Trail

def cordonMonitor (ownership : CordonOwnership) : Monitor KubectlRequest KubectlReply Trail where
  allowed := Trail.allowed ownership
  sent := Trail.sent
  heard := Trail.heard

/-- The release has been heard of, or the node was last read as free. -/
def Trail.Free (ownership : CordonOwnership) (trail : Trail) : Prop :=
  trail.released ∨ ∃ node, trail.lastRead = some (ownership.nodeName, node) ∧ node.owner = none ∧
    node.unschedulable = false

/-- What a report without cleanup errors stands on. -/
def Trail.Settled (ownership : CordonOwnership) (trail : Trail) : Prop :=
  trail.claimed = false ∨ trail.Free ownership

/-! ## Programs which do not claim -/

/-- A program which obeys the monitor and sends no claim. -/
def Keeps {ε α : Type} (ownership : CordonOwnership) (program : Kubectl ε α) : Prop :=
  ∀ claimed : Bool, ∀ trail : Trail, trail.claimed = claimed →
    program.Obeys (cordonMonitor ownership) (fun trail _ ↦ trail.claimed = claimed)
      (fun trail _ ↦ trail.claimed = claimed) trail

section Keeps

variable {ε η α β : Type} {ownership : CordonOwnership} {program : Kubectl ε α}

theorem keeps_done (result : α) : Keeps ownership (done result : Kubectl ε α) :=
  fun _ _ h ↦ h

theorem keeps_raise (error : ε) : Keeps ownership (raise error : Kubectl ε α) :=
  fun _ _ h ↦ h

theorem keeps_ofExcept (result : Except ε α) : Keeps ownership (ofExcept result : Kubectl ε α) :=
  fun _ _ h ↦ obeys_ofExcept (fun _ _ ↦ h) (fun _ _ ↦ h)

theorem Keeps.bind {f : α → Kubectl ε β} (h : Keeps ownership program)
    (hf : ∀ result, Keeps ownership (f result)) : Keeps ownership (program.bind f) :=
  fun claimed trail htrail ↦
    (h claimed trail htrail).bind fun state result hstate ↦ hf result claimed state hstate

theorem Keeps.attempt (h : Keeps ownership program) :
    Keeps ownership (program.attempt : Kubectl η (Except ε α)) := by
  intro claimed trail htrail
  apply (h claimed trail htrail).attempt.mono
  · intro state outcome hstate
    cases outcome with
    | ok result => exact hstate
    | error error => exact hstate
  · exact fun _ _ h ↦ h

theorem claimed_heard (trail : Trail) (request : KubectlRequest) (reply : KubectlReply request) :
    (trail.heard request reply).claimed = trail.claimed := by
  unfold Trail.heard
  split <;> rfl

theorem keeps_command {command : PodCommand}
    {next : Except ProcessFailure command.Output → Kubectl ε α}
    (h : ∀ reply, Keeps ownership (next reply)) :
    Keeps ownership (call (.command command) next) :=
  fun claimed trail htrail ↦ ⟨trivial, fun reply ↦
    h reply claimed _ ((claimed_heard trail (.command command) reply).trans htrail)⟩

theorem keeps_getNode (nodeName : String) : Keeps ownership (getNode nodeName) :=
  fun claimed trail htrail ↦ ⟨trivial, fun reply ↦ keeps_ofExcept _ claimed _
    ((claimed_heard trail (.get nodeName) reply).trans htrail)⟩

end Keeps

theorem keeps_pollUnschedulable {ownership : CordonOwnership} (name podNamespace : String)
    {otherwise : Kubectl Failure Bool} (h : Keeps ownership otherwise) :
    Keeps ownership (pollUnschedulable name podNamespace otherwise) := by
  apply (keeps_command fun reply ↦ keeps_ofExcept _).attempt.bind
  intro outcome
  split
  · split
    · exact keeps_done true
    · exact h
  · exact keeps_raise _
  · exact h

theorem keeps_waitForUnschedulable {ownership : CordonOwnership} (name podNamespace : String)
    (polls : ℕ) : Keeps ownership (waitForUnschedulable name podNamespace polls) := by
  induction polls with
  | zero => exact keeps_pollUnschedulable name podNamespace (keeps_done false)
  | succ polls ih => exact keeps_pollUnschedulable name podNamespace ih

theorem keeps_deletePods {ownership : CordonOwnership} (podNamespace : String)
    (podNames errors : List String) : Keeps ownership (deletePods podNamespace podNames errors) := by
  induction podNames generalizing errors with
  | nil => exact keeps_done errors
  | cons podName rest ih =>
    apply keeps_command
    intro reply
    split
    · exact ih errors
    · exact ih _
    · exact ih _
    · exact ih _
    · exact keeps_raise _

theorem keeps_claimIsObserved {ownership : CordonOwnership} (owned : CordonOwnership) :
    Keeps ownership (claimIsObserved owned) := by
  apply (keeps_getNode owned.nodeName).attempt.bind
  intro outcome
  split
  · exact keeps_done _
  · exact keeps_raise _
  · exact keeps_done false

/-! ## Selecting and claiming -/

/-- What is selected was read, and was available. -/
theorem obeys_selectNodeOf {ownership : CordonOwnership} {trail : Trail} (requestedNode : String) :
    (selectNodeOf requestedNode).Obeys (cordonMonitor ownership)
      (fun after selection ↦ after.claimed = trail.claimed ∧
        ∃ node, (selection.name, node) ∈ after.reads ∧ nodeIsAvailable node ∧
          (requestedNode ≠ "" → selection.name = requestedNode) ∧ SelectedFrom selection node)
      (fun after _ ↦ after.claimed = trail.claimed) trail := by
  refine ⟨trivial, fun reply ↦ obeys_ofExcept ?_ ?_⟩
  · intro selection hselection
    refine ⟨claimed_heard trail .list reply, ?_⟩
    cases reply with
    | error failure => cases failure <;> cases hselection
    | ok items =>
      obtain ⟨node, hmem, hnode⟩ := selectNode_eq_ok hselection
      exact ⟨node, List.mem_append_right _ hmem, hnode⟩
  · exact fun _ _ ↦ claimed_heard trail .list reply

/-- The claim is made for what was selected. -/
theorem obeys_claimNode {ownership : CordonOwnership} {trail : Trail} {selection : NodeSelection}
    {node : Node} (hname : selection.name = ownership.nodeName) (hclaimed : trail.claimed = false)
    (hread : (selection.name, node) ∈ trail.reads) (havailable : nodeIsAvailable node)
    (hfrom : SelectedFrom selection node) :
    (claimNode selection ownership.token).Obeys (cordonMonitor ownership)
      (fun after _ ↦ after.claimed = true) (fun after _ ↦ after.claimed = true) trail := by
  have hobserved : ∀ error : Failure, Keeps ownership (do
      if ← claimIsObserved ⟨selection.name, ownership.token⟩ then
        return (⟨selection.name, ownership.token⟩ : CordonOwnership)
      raise error) := by
    intro error
    apply (keeps_claimIsObserved _).bind
    intro observed
    split
    · exact keeps_done _
    · exact keeps_raise error
  refine ⟨⟨hname, fun _ ↦ hclaimed, node, hread, havailable, selection, hfrom, rfl⟩, ?_⟩
  intro reply
  have hkeeps : ∀ {ε : Type} {program : Kubectl ε CordonOwnership}, Keeps ownership program →
      program.Obeys (cordonMonitor ownership) (fun after _ ↦ after.claimed = true)
        (fun after _ ↦ after.claimed = true)
          ((cordonMonitor ownership).heard ((cordonMonitor ownership).sent trail
            (.patch .claim selection.name (claimPatch selection ownership.token))) _ reply) :=
    fun h ↦ h true _ (claimed_heard _ _ reply)
  dsimp only
  split
  · exact hkeeps (keeps_done _)
  · exact hkeeps (hobserved _)
  · exact hkeeps (hobserved _)
  · exact hkeeps (keeps_raise _)
  · exact hkeeps (keeps_raise _)

/-! ## Releasing and cleaning up -/

/-- What is got was the last to be read. -/
theorem obeys_getNode {ownership : CordonOwnership} {trail : Trail} (nodeName : String) :
    (getNode nodeName).Obeys (cordonMonitor ownership)
      (fun after node ↦ (nodeName, node) ∈ after.reads ∧ after.lastRead = some (nodeName, node))
      (fun _ _ ↦ True) trail := by
  refine ⟨trivial, fun reply ↦ obeys_ofExcept ?_ fun _ _ ↦ trivial⟩
  intro node hnode
  cases reply with
  | error failure => cases failure <;> cases hnode
  | ok read =>
    cases hnode
    exact ⟨List.mem_append_right _ List.mem_cons_self, rfl⟩

/-- A release which returns has left the node free, as far as it can see. -/
theorem obeys_releaseRounds {ownership : CordonOwnership} {trail : Trail} (rounds : ℕ)
    (lastError : String) :
    (releaseRounds ownership rounds lastError).Obeys (cordonMonitor ownership)
      (fun after _ ↦ after.Free ownership) (fun _ _ ↦ True) trail := by
  induction rounds generalizing trail lastError with
  | zero => exact trivial
  | succ rounds ih =>
    apply (obeys_getNode ownership.nodeName).attempt.bind
    intro after outcome hafter
    split
    · exact trivial
    · exact ih _
    · rename_i node
      obtain ⟨hread, hlast⟩ := hafter
      split
      · rename_i hfree
        exact Or.inr ⟨node, hlast, hfree.1, by simpa using hfree.2⟩
      · split
        · exact trivial
        · rename_i howner
          split
          · exact trivial
          · refine ⟨⟨rfl, fun h ↦ (nomatch h), node, hread, not_not.mp howner, rfl⟩, ?_⟩
            intro reply
            cases reply with
            | ok done => exact Or.inl rfl
            | error failure =>
              cases failure with
              | timedOut message => exact ih message
              | failed message => exact trivial
              | raised message => exact trivial
              | exited detail => exact ih detail

/-- A cleanup without errors has not claimed, or has left the node free as far as it can see. -/
theorem obeys_cleanup {ownership : CordonOwnership} {trail : Trail} {owned : Option CordonOwnership}
    (podNamespace : String) (podNames : List String)
    (howned : owned = some ownership ∨ owned = none ∧ trail.claimed = false) :
    (cleanup podNamespace podNames owned).Obeys (cordonMonitor ownership)
      (fun after errors ↦ errors = [] → after.Settled ownership) (fun _ _ ↦ True) trail := by
  have hdelete : Keeps ownership (deletePods podNamespace podNames []) :=
    keeps_deletePods podNamespace podNames []
  apply ((hdelete trail.claimed trail rfl).mono (fun _ _ h ↦ h) fun _ _ _ ↦ trivial).bind
  intro after errors hafter
  rcases howned with rfl | ⟨rfl, hclaimed⟩
  · apply (obeys_releaseRounds uncordonAttempts _).attempt.bind
    intro last outcome hlast
    split
    · exact fun _ ↦ Or.inr hlast
    · exact trivial
    · intro herrors
      cases List.append_eq_nil_iff.mp herrors with
      | intro _ h => cases h
  · exact fun _ ↦ Or.inl (hafter.trans hclaimed)

/-! ## The run -/

/-- Once the claim is sent, the variables hold what the cleanup needs. -/
def Locals.Ready (setting : Setting) (claimed : Bool) (locals : Locals) : Prop :=
  (locals.kubectl ≠ [] ∧ locals.ownership = some setting.ownership) ∨
    locals.ownership = none ∧ claimed = false

theorem obeys_cleanupErrors {setting : Setting} {trail : Trail} {locals : Locals}
    (h : locals.Ready setting trail.claimed) :
    (cleanupErrors locals).Obeys (cordonMonitor setting.ownership)
      (fun after errors ↦ errors = [] → after.Settled setting.ownership) (fun _ _ ↦ True) trail := by
  unfold cleanupErrors
  split
  · rename_i hempty
    rcases h with ⟨hkubectl, _⟩ | ⟨_, hclaimed⟩
    · exact absurd (List.isEmpty_iff.mp hempty) hkubectl
    · exact fun _ ↦ Or.inl hclaimed
  · have howned : locals.ownership = some setting.ownership ∨
        locals.ownership = none ∧ trail.claimed = false := h.imp And.right id
    apply (obeys_cleanup locals.podNamespace locals.createdPods howned).attempt.bind
    intro after outcome hafter
    split
    · exact hafter
    · exact fun herrors ↦ nomatch herrors

theorem keeps_require {ownership : CordonOwnership} (condition : Bool) (message : String) :
    Keeps ownership (require condition message) := by
  unfold require
  split
  · exact keeps_done ()
  · exact keeps_raise _

/-- A call of the body which does not claim, with the variables for the case that it fails. -/
theorem Keeps.withLocals {setting : Setting} {trail : Trail} {locals : Locals} {α β : Type}
    {program : Kubectl Failure α} {f : α → Kubectl (Failure × Locals) β}
    {returns : Trail → β → Prop} (h : Keeps setting.ownership program)
    (hready : locals.Ready setting trail.claimed)
    (hf : ∀ after result, after.claimed = trail.claimed → locals.Ready setting after.claimed →
      (f result).Obeys (cordonMonitor setting.ownership) returns
        (fun after raised ↦ raised.2.Ready setting after.claimed) after) :
    ((program.mapError (·, locals)).bind f).Obeys (cordonMonitor setting.ownership) returns
      (fun after raised ↦ raised.2.Ready setting after.claimed) trail := by
  apply Obeys.bind (R := fun after _ ↦ after.claimed = trail.claimed)
  · apply (h trail.claimed trail rfl).mapError
    intro after _ hafter
    rw [hafter]
    exact hready
  · intro after result hafter
    exact hf after result hafter (hafter ▸ hready)

theorem keeps_createPod {ownership : CordonOwnership} (manifest : Manifest) :
    Keeps ownership (createPod manifest) := keeps_command fun _ ↦ keeps_ofExcept _

theorem keeps_waitPod {ownership : CordonOwnership} (name podNamespace timeout : String) :
    Keeps ownership (waitPod name podNamespace timeout) := keeps_command fun _ ↦ keeps_ofExcept _

theorem keeps_getPod {ownership : CordonOwnership} (name podNamespace : String) :
    Keeps ownership (getPod name podNamespace) := keeps_command fun _ ↦ keeps_ofExcept _

theorem kubectlCommand_ne_nil {setting : Setting} {command : List String}
    (h : kubectlCommand setting = .ok command) : command ≠ [] := by
  unfold kubectlCommand at h
  split at h
  · cases h
  · cases h
  · rename_i words hne hwords
    cases h
    exact hne

/-- Up to the claim nothing is owned, and the node is the one asked for. -/
theorem obeys_startProbe {setting : Setting} {args : Args} {trail : Trail}
    (hclaimed : trail.claimed = false) (hnode : args.node ≠ "")
    (htarget : setting.target = args.node) :
    (startProbe setting args).Obeys (cordonMonitor setting.ownership)
      (fun after started ↦ after.claimed = false ∧ started.1.name = setting.target ∧
        started.2.ownership = none ∧ started.2.kubectl ≠ [])
      (fun after raised ↦ raised.2.Ready setting after.claimed) trail := by
  have hready : ∀ {state : Trail} {locals : Locals}, state.claimed = false →
      locals.ownership = none → locals.Ready setting state.claimed :=
    fun hstate hnone ↦ Or.inr ⟨hnone, hstate⟩
  apply (keeps_require _ _).withLocals
  · exact hready hclaimed rfl
  intro trail₁ _ h₁ _
  rw [hclaimed] at h₁
  apply Obeys.bind (R := fun after kubectl ↦ after.claimed = false ∧ kubectl ≠ [])
  · apply Obeys.mapError (E := fun after _ ↦ after.claimed = false)
    · exact obeys_ofExcept (fun command hcommand ↦ ⟨h₁, kubectlCommand_ne_nil hcommand⟩)
        fun _ _ ↦ h₁
    · exact fun after _ hafter ↦ hready hafter rfl
  intro trail₂ kubectl ⟨h₂, hkubectl⟩
  apply Obeys.bind
  · apply (obeys_selectNodeOf args.node).mapError
    exact fun after _ hafter ↦ hready (hafter.trans h₂) rfl
  intro trail₃ selection ⟨h₃, node, _, _, hname, _⟩
  rw [h₂] at h₃
  apply (keeps_createPod _).withLocals
  · exact hready h₃ rfl
  intro trail₄ _ h₄ _
  rw [h₃] at h₄
  apply (keeps_waitPod _ _ _).withLocals
  · exact hready h₄ rfl
  intro trail₅ _ h₅ _
  exact ⟨h₅.trans h₄, (hname hnode).trans htarget.symm, rfl, hkubectl⟩

/-- With the claim the ownership is kept. -/
theorem obeys_claimSelected {setting : Setting} {selection : NodeSelection} {locals : Locals}
    {trail : Trail} (hclaimed : trail.claimed = false) (hname : selection.name = setting.target)
    (htarget : setting.target ≠ "") (hnone : locals.ownership = none)
    (hkubectl : locals.kubectl ≠ []) :
    (claimSelected setting selection locals).Obeys (cordonMonitor setting.ownership)
      (fun after owned ↦ owned.Ready setting after.claimed)
      (fun after raised ↦ raised.2.Ready setting after.claimed) trail := by
  apply Obeys.bind
  · apply (obeys_selectNodeOf selection.name).mapError
    exact fun after _ hafter ↦ Or.inr ⟨hnone, hafter.trans hclaimed⟩
  intro trail₁ claimSelection ⟨h₁, node, hread, havailable, hsame, hfrom⟩
  have hclaim : claimSelection.name = setting.ownership.nodeName :=
    (hsame (hname ▸ htarget)).trans hname
  have howned : some (⟨selection.name, setting.token⟩ : CordonOwnership) =
      some setting.ownership := by
    rw [hname]
    rfl
  apply Obeys.bind
  · apply (obeys_claimNode hclaim (h₁.trans hclaimed) hread havailable hfrom).mapError
    exact fun after _ _ ↦ Or.inl ⟨hkubectl, howned⟩
  exact fun after _ _ ↦ Or.inl ⟨hkubectl, howned⟩

/-- The assertions do not touch the ownership. -/
theorem obeys_observe {setting : Setting} {args : Args} {selection : NodeSelection}
    {locals : Locals} {trail : Trail} (hready : locals.Ready setting trail.claimed) :
    (observe setting args selection locals).Obeys (cordonMonitor setting.ownership)
      (fun after last ↦ last.Ready setting after.claimed)
      (fun after raised ↦ raised.2.Ready setting after.claimed) trail := by
  apply (keeps_getNode selection.name).withLocals hready
  intro trail₁ node _ hready
  apply (keeps_require _ _).withLocals
  · exact hready
  intro trail₂ _ _ hready
  apply (keeps_getPod _ _).withLocals hready
  intro trail₃ pod _ hready
  apply (keeps_require _ _).withLocals
  · exact hready
  intro trail₄ _ _ hready
  apply (keeps_createPod _).withLocals
  · exact hready
  intro trail₅ _ _ hready
  apply (keeps_waitForUnschedulable _ _ _).withLocals hready
  intro trail₆ blocked _ hready
  apply (keeps_require _ _).withLocals
  · exact hready
  exact fun _ _ _ hready ↦ hready

/-- Where the body ends, the variables are ready for the cleanup. -/
theorem obeys_exercise (setting : Setting) :
    (exercise setting).Obeys (cordonMonitor setting.ownership)
      (fun after last ↦ match last with
        | none => after.claimed = false
        | some locals => locals.Ready setting after.claimed)
      (fun after raised ↦ raised.2.Ready setting after.claimed) {} := by
  apply Obeys.bind (R := fun after args ↦ after.claimed = false ∧ setting.target = args.node)
  · apply obeys_ofExcept
    · intro args hargs
      refine ⟨rfl, ?_⟩
      cases harguments : setting.arguments with
      | error message =>
        rw [harguments] at hargs
        cases hargs
      | ok parsed =>
        rw [harguments] at hargs
        cases hargs
        rw [Setting.target, harguments]
    · intro raised hraised
      cases harguments : setting.arguments with
      | error message =>
        rw [harguments] at hraised
        cases hraised
        exact Or.inr ⟨rfl, rfl⟩
      | ok parsed =>
        rw [harguments] at hraised
        cases hraised
  intro trail₁ args ⟨h₁, htarget⟩
  split
  · exact h₁
  · rename_i hnode
    apply (obeys_startProbe h₁ hnode htarget).bind
    intro trail₂ ⟨selection, locals⟩ ⟨h₂, hname, hnone, hkubectl⟩
    apply (obeys_claimSelected h₂ hname (htarget ▸ hnode) hnone hkubectl).bind
    intro trail₃ owned h₃
    apply (obeys_observe h₃).bind
    exact fun _ _ hlast ↦ hlast

/-- A run which reports no cleanup errors has settled its claim, as far as it can see. -/
theorem obeys_main (setting : Setting) :
    (main setting).Obeys (cordonMonitor setting.ownership)
      (fun after report ↦ report.cleanupErrors = [] → after.Settled setting.ownership)
      (fun _ _ ↦ False) {} := by
  have hfinish : ∀ (after : Trail) (locals : Locals) (error : Option String),
      locals.Ready setting after.claimed →
        (finish locals error).Obeys (cordonMonitor setting.ownership)
          (fun after report ↦ report.cleanupErrors = [] → after.Settled setting.ownership)
          (fun _ _ ↦ False) after := by
    intro after locals error hready
    apply ((obeys_cleanupErrors hready).mono (fun _ _ h ↦ h) fun _ error _ ↦ nomatch error).bind
    intro last errors hlast herrors
    apply hlast
    by_cases hempty : errors.isEmpty
    · exact List.isEmpty_iff.mp hempty
    · simpa [report, hempty] using herrors
  apply (obeys_exercise setting).attempt.bind
  intro after outcome hafter
  split
  · exact fun _ ↦ Or.inl hafter
  · exact hfinish after _ _ hafter
  · exact hfinish after _ _ hafter

end IsvValidation.Breakfix
