import IsvValidation.Breakfix.CordonTrail

/-!
# Ownership of a cordon

Any number of runs of the cordon test work on one cluster beside everybody else. Every patch in
flight was made from a node which its run has read, a patch commits on the version it was made from,
and a version belongs to one node only: so a claim commits on a free node, and a release on a node
which carries the marker of its run.
-/

namespace IsvValidation.Breakfix

open Library VersionedStore

/-- How the API server keeps its nodes. -/
def nodeServer : Server Node (List PatchOp) String where
  version := Node.resourceVersion
  withVersion version node := { node with resourceVersion := version }
  version_withVersion _ _ := rfl
  apply := applyPatch

abbrev NodeEntry (ι : Type) := Entry ι String Node Purpose

abbrev NodeMessage (ι : Type) := Message ι String Purpose (List PatchOp)

abbrev Cluster (ι : Type) := State ι String Node Purpose (List PatchOp) ProcessFailure
  (fun command : PodCommand ↦ Except ProcessFailure command.Output) Empty Report

abbrev CordonActivity := Activity String Node Purpose (List PatchOp) ProcessFailure
  (fun command : PodCommand ↦ Except ProcessFailure command.Output) Empty Report

/-- Runs are about to start on a cluster which knows nothing of them. -/
structure Start {ι : Type} (settings : ι → Setting) (initial : Cluster ι) : Prop where
  authors : ∀ entry ∈ initial.log, entry.author = none
  versioned : Versioned nodeServer initial.log
  messages : initial.messages = []
  runs : ∀ run, initial.runs run = .active (main (settings run))

/-! ## Where patches come from -/

section Link

variable {ι : Type} {ownership : CordonOwnership} {run : ι} {trail : Trail}
  {log : List (NodeEntry ι)} {messages : List (NodeMessage ι)}

/-- A patch is for the node of its run, and made from what that node once was. -/
def Made (ownership : CordonOwnership) (log : List (NodeEntry ι)) (message : NodeMessage ι) : Prop :=
  message.name = ownership.nodeName ∧
    ∃ node, Recorded log message.name node ∧ MadeFrom ownership node message.patch message.tag

/-- What a run has read was stored, and what it has sent was made from it. -/
structure Link (ownership : CordonOwnership) (run : ι) (trail : Trail) (log : List (NodeEntry ι))
    (messages : List (NodeMessage ι)) : Prop where
  reads : ∀ name node, (name, node) ∈ trail.reads → Recorded log name node
  made : ∀ message ∈ messages, message.sender = run → Made ownership log message

theorem Link.of_reads {after : Trail} (h : Link ownership run trail log messages)
    (hreads : ∀ name node, (name, node) ∈ after.reads →
      (name, node) ∈ trail.reads ∨ Recorded log name node) :
    Link ownership run after log messages where
  reads name node hmem := (hreads name node hmem).elim (h.reads name node) id
  made := h.made

theorem links_cordon [DecidableEq ι] (condition : Cluster ι → Event ι String → Cluster ι → Prop) :
    Links (cordonMonitor ownership) (Link ownership run) run nodeServer condition where
  others {seen state event after} h step _ hevent := by
    constructor
    · exact fun name node hmem ↦ step.recorded (h.reads name node hmem)
    · intro message hmem hsender
      obtain ⟨fate, hold⟩ := step.mem_messages (by rwa [hsender]) hmem
      obtain ⟨hname, node, hrecorded, hmade⟩ := h.made _ hold hsender
      exact ⟨hname, node, step.recorded hrecorded, hmade⟩
  sent {seen log messages tag name patch} h hallowed := by
    obtain ⟨hname, _, node, hread, hmade⟩ := hallowed
    have hreads : (seen.sent (.patch tag name patch)).reads = seen.reads := by
      cases tag <;> rfl
    constructor
    · intro other object hmem
      exact h.reads other object (hreads ▸ hmem)
    · intro message hmem hsender
      rcases List.mem_append.mp hmem with hold | hnew
      · exact h.made message hold hsender
      · rw [List.mem_singleton.mp hnew]
        exact ⟨hname, node, h.reads name node hread, hmade⟩
  heard {seen log messages tag name patch reply} h _ := by
    apply h.of_reads
    intro other object hmem
    cases tag <;> cases reply <;> exact Or.inl hmem
  answered {seen log messages request reply} h hanswers := by
    apply h.of_reads
    intro other object hmem
    match request, reply, hanswers with
    | .list, .ok items, hitems =>
      rcases List.mem_append.mp hmem with hold | hnew
      · exact Or.inl hold
      · exact Or.inr (recorded_of_current ((hitems other object).mp hnew))
    | .list, .error _, _ => exact Or.inl hmem
    | .get name, .ok node, hstored =>
      rcases List.mem_append.mp hmem with hold | hnew
      · exact Or.inl hold
      · cases List.mem_singleton.mp hnew
        exact Or.inr (recorded_of_current hstored)
    | .get _, .error _, _ => exact Or.inl hmem
    | .command _, _, _ => exact Or.inl hmem

end Link

/-! ## Commits -/

section Commits

variable {ι : Type}

/-- What every write of a run's patch is like: a claim is of a free node, a release is by the owner
and undoes the claim, and no marker and no cordon of another is taken away. -/
structure Owned (settings : ι → Setting) (entry : NodeEntry ι) (earlier : List (NodeEntry ι)) :
    Prop where
  claim : ∀ run, entry.author = some (run, .claim) → ∃ before,
    current earlier entry.name = some before ∧ before.unschedulable = false ∧ before.owner = none
  release : ∀ run, entry.author = some (run, .release) → ∃ before version,
    current earlier entry.name = some before ∧ before.owner = some (settings run).token ∧
      entry.object = some { before.released with resourceVersion := version }
  keeps : ∀ run purpose, entry.author = some (run, purpose) → ∃ before after,
    current earlier entry.name = some before ∧ entry.object = some after ∧
      (∀ other ≠ run, before.owner = some (settings other).token → after.owner = before.owner) ∧
        (before.unschedulable → before.owner ≠ some (settings run).token → after.unschedulable)

theorem free_of_available {node : Node} (h : nodeIsAvailable node) :
    node.unschedulable = false ∧ node.owner = none := by
  simp only [nodeIsAvailable, Bool.and_eq_true, Bool.not_eq_true', Option.isNone_iff_eq_none] at h
  exact ⟨h.1.2, h.2⟩

/-- A patch commits on the very node it was made from. -/
theorem Made.seen {ownership : CordonOwnership} {log : List (NodeEntry ι)}
    {message : NodeMessage ι} {before after : Node} (h : Made ownership log message)
    (hversioned : Versioned nodeServer log) (hstored : current log message.name = some before)
    (happlied : applyPatch message.patch before = some after) :
    MadeFrom ownership before message.patch message.tag := by
  obtain ⟨_, node, hrecorded, hmade⟩ := h
  have hsame : before.resourceVersion = node.resourceVersion → before = node :=
    hversioned message.name before node (recorded_of_current hstored) hrecorded
  cases htag : message.tag with
  | claim =>
    rw [htag] at hmade
    obtain ⟨havailable, selection, hfrom, hpatch⟩ := hmade
    rw [hpatch] at happlied
    have hversion := (applyPatch_claimPatch happlied).1
    rw [hsame (hversion.trans hfrom.resourceVersion)]
    exact ⟨havailable, selection, hfrom, hpatch⟩
  | release =>
    rw [htag] at hmade
    have hpatch := hmade.2
    rw [hpatch] at happlied
    rw [hsame (applyPatch_releasePatch happlied).1]
    exact hmade

section Outcome

variable {ownership : CordonOwnership} {log : List (NodeEntry ι)} {message : NodeMessage ι}
  {before after : Node}

/-- A claim commits on a free node. -/
theorem Made.claimed (h : Made ownership log message) (htag : message.tag = .claim)
    (hversioned : Versioned nodeServer log) (hstored : current log message.name = some before)
    (happlied : applyPatch message.patch before = some after) :
    (before.unschedulable = false ∧ before.owner = none) ∧ after.owner = some ownership.token := by
  have hseen := h.seen hversioned hstored happlied
  rw [htag] at hseen
  obtain ⟨havailable, selection, _, hpatch⟩ := hseen
  rw [hpatch] at happlied
  exact ⟨free_of_available havailable, (applyPatch_claimPatch happlied).2.1⟩

/-- A release commits on a node of its run, and undoes the claim. -/
theorem Made.released (h : Made ownership log message) (htag : message.tag = .release)
    (hversioned : Versioned nodeServer log) (hstored : current log message.name = some before)
    (happlied : applyPatch message.patch before = some after) :
    before.owner = some ownership.token ∧ after = before.released := by
  have hseen := h.seen hversioned hstored happlied
  rw [htag] at hseen
  obtain ⟨howner, hpatch⟩ := hseen
  rw [hpatch] at happlied
  exact ⟨howner, (applyPatch_releasePatch happlied).2.2 rfl⟩

end Outcome

/-- The step lemma: a commit of a patch of a run respects ownership. -/
theorem owned_commit {settings : ι → Setting}
    (hdistinct : Function.Injective fun run ↦ (settings run).token) {log : List (NodeEntry ι)}
    {message : NodeMessage ι} {before after : Node} {version : String}
    (hmade : Made (settings message.sender).ownership log message)
    (hversioned : Versioned nodeServer log) (hstored : current log message.name = some before)
    (happlied : applyPatch message.patch before = some after) :
    Owned settings ⟨some (message.sender, message.tag), message.name,
      some (nodeServer.withVersion version after)⟩ log := by
  have hfree (htag : message.tag = .claim) :=
    (hmade.claimed htag hversioned hstored happlied).1
  have howner (htag : message.tag = .release) :=
    hmade.released htag hversioned hstored happlied
  constructor
  · intro run hauthor
    simp only [Option.some.injEq, Prod.mk.injEq] at hauthor
    exact ⟨before, hstored, hfree hauthor.2⟩
  · intro run hauthor
    simp only [Option.some.injEq, Prod.mk.injEq] at hauthor
    obtain ⟨rfl, htag⟩ := hauthor
    obtain ⟨howned, rfl⟩ := howner htag
    exact ⟨before, version, hstored, howned, rfl⟩
  · intro run purpose hauthor
    simp only [Option.some.injEq, Prod.mk.injEq] at hauthor
    obtain ⟨rfl, rfl⟩ := hauthor
    refine ⟨before, _, hstored, rfl, ?_, ?_⟩
    · intro other hother howned
      cases htag : message.tag with
      | claim => exact absurd howned (by simp [(hfree htag).2])
      | release =>
        have htokens := (howner htag).1.symm.trans howned
        exact absurd (hdistinct (Option.some.inj htokens)).symm hother
    · intro hcordoned hforeign
      cases htag : message.tag with
      | claim => exact absurd hcordoned (by simp [(hfree htag).1])
      | release => exact absurd (howner htag).1 hforeign

end Commits

/-! ## Runs of the whole system -/

section Reachable

variable {ι : Type} {settings : ι → Setting} {initial state : Cluster ι}
  {condition : Cluster ι → Event ι String → Cluster ι → Prop}

/-- How a run stands with its monitor. -/
abbrev Follows (settings : ι → Setting) (run : ι) (state : Cluster ι) : Prop :=
  Tracked (cordonMonitor (settings run).ownership)
    (fun after report ↦ report.cleanupErrors = [] → after.Settled (settings run).ownership)
    (fun _ _ ↦ False) (Link (settings run).ownership run) run state

theorem Start.follows (hstart : Start settings initial) (run : ι) :
    Follows settings run initial := by
  apply Tracked.active (hstart.runs run) (obeys_main (settings run))
  constructor
  · exact fun name node hmem ↦ absurd hmem List.not_mem_nil
  · intro message hmem
    rw [hstart.messages] at hmem
    exact absurd hmem List.not_mem_nil

variable [DecidableEq ι]

theorem Start.made (hstart : Start settings initial)
    (hreaches : Reaches nodeServer condition initial state) {message : NodeMessage ι}
    (hmem : message ∈ state.messages) :
    Made (settings message.sender).ownership state.log message := by
  have hfollows := (hstart.follows message.sender).reaches (links_cordon condition) hreaches
  cases hfollows with
  | active _ _ linked => exact linked.made message hmem rfl
  | waiting _ _ linked => exact linked.made message hmem rfl
  | answered _ _ linked => exact linked.made message hmem rfl

theorem Start.owned (hdistinct : Function.Injective fun run ↦ (settings run).token)
    (hstart : Start settings initial) (hreaches : Reaches nodeServer condition initial state) :
    Throughout (Owned settings) state.log := by
  induction hreaches with
  | refl =>
    intro later entry earlier hlog
    have hnone := hstart.authors entry (by simp [hlog])
    constructor <;> simp [hnone]
  | tail hbefore step _ ih =>
    cases step with
    | write =>
      refine throughout_cons.mpr ⟨?_, ih⟩
      constructor <;> simp
    | commit message_at inFlight stored applied =>
      refine throughout_cons.mpr ⟨?_, ih⟩
      exact owned_commit hdistinct (hstart.made hbefore (List.mem_of_getElem? message_at))
        (hbefore.versioned hstart.versioned) stored applied
    | lose => exact ih
    | send => exact ih
    | hear => exact ih
    | serve => exact ih
    | receive => exact ih

/-- At no time does a run claim a node which is not free, or release a node it does not own. -/
theorem cordon_ownership_safe (hdistinct : Function.Injective fun run ↦ (settings run).token)
    (hstart : Start settings initial)
    (hreaches : Reaches nodeServer (fun _ _ _ ↦ True) initial state)
    {later earlier : List (NodeEntry ι)} {entry : NodeEntry ι}
    (hlog : state.log = later ++ entry :: earlier) : Owned settings entry earlier :=
  hstart.owned hdistinct hreaches later entry earlier hlog

end Reachable

/-! ## A run which hears nothing of its claim -/

def lostSetting : Setting where
  arguments := .ok
    { node := "gpu-1"
      podNamespace := "default"
      image := "registry.k8s.io/pause:3.10"
      timeoutSeconds := 120
      timeoutText := "120"
      pollIntervalSeconds := 2 }
  kubectl := .ok ["kubectl"]
  runId := "0"
  polls := 0

def freeNode : Node where
  resourceVersion := "1"
  labels := OrderedMap.empty.insert "kubernetes.io/hostname" "gpu-1"
  conditions := [⟨"Ready", "True", ""⟩]

def freeLog : List (NodeEntry Unit) := [⟨none, "gpu-1", some freeNode⟩]

def lostClaim : NodeMessage Unit where
  sender := ()
  tag := .claim
  name := "gpu-1"
  patch := claimPatch
    { name := "gpu-1"
      hostname := "gpu-1"
      resourceVersion := "1"
      spec := {}
      annotationsPresent := false
      tolerations := [] } lostSetting.token
  fate := .inFlight

def claimedNode : Node :=
  { freeNode with
    resourceVersion := "2"
    annotations := some (OrderedMap.empty.insert ownerAnnotation lostSetting.token)
    spec := { unschedulable := some true } }

def claimedLog : List (NodeEntry Unit) :=
  ⟨some ((), .claim), "gpu-1", some claimedNode⟩ :: freeLog

/-- A cluster with one run. -/
def lone (log : List (NodeEntry Unit)) (messages : List (NodeMessage Unit))
    (activity : CordonActivity) : Cluster Unit :=
  ⟨log, messages, fun _ ↦ activity⟩

def freeCluster : Cluster Unit := lone freeLog [] (.active (main lostSetting))

/-- Nothing happens but the run. -/
def Quiet (_ : Cluster Unit) (event : Event Unit String) (_ : Cluster Unit) : Prop :=
  event = .client ()

section Lone

variable {messages : List (NodeMessage Unit)}

theorem update_unit {α : Type} (f : Unit → α) (value : α) :
    Function.update f () value = fun _ ↦ value := by
  funext run
  exact Function.update_self ..

theorem recorded_freeLog {name : String} {node : Node} :
    Recorded freeLog name node ↔ name = "gpu-1" ∧ node = freeNode := by
  rw [freeLog, recorded_cons]
  simp [Recorded, eq_comm]

theorem start_freeCluster : Start (fun _ : Unit ↦ lostSetting) freeCluster where
  authors entry hmem := by
    rw [List.mem_singleton.mp hmem]
  versioned name first second hfirst hsecond _ := by
    rw [(recorded_freeLog.mp hfirst).2, (recorded_freeLog.mp hsecond).2]
  messages := rfl
  runs _ := rfl

theorem lone_serve {request : KubectlRequest} {next}
    (h : Reaches nodeServer Quiet freeCluster (lone freeLog messages (.active (.call request next))))
    (reply : KubectlReply request) (answers : Answers freeLog request reply) :
    Reaches nodeServer Quiet freeCluster
      (lone freeLog messages (.answered request reply next)) := by
  have hstep := h.tail (Step.serve (r := ()) rfl answers) rfl
  rw [update_unit] at hstep
  exact hstep

theorem step_receive {log : List (NodeEntry Unit)} {request : KubectlRequest}
    {reply : KubectlReply request} {next} :
    Step nodeServer (lone log messages (.answered request reply next)) (.client ())
      (lone log messages (.active (next reply))) := by
  have hstep : Step nodeServer (lone log messages (.answered request reply next)) (.client ()) _ :=
    .receive (r := ()) rfl
  rw [update_unit] at hstep
  exact hstep

theorem lone_reply {request : KubectlRequest} {next}
    (h : Reaches nodeServer Quiet freeCluster (lone freeLog messages (.active (.call request next))))
    (reply : KubectlReply request) (answers : Answers freeLog request reply) :
    Reaches nodeServer Quiet freeCluster (lone freeLog messages (.active (next reply))) :=
  (lone_serve h reply answers).tail step_receive rfl

theorem lone_list {next}
    (h : Reaches nodeServer Quiet freeCluster (lone freeLog messages (.active (.call .list next)))) :
    Reaches nodeServer Quiet freeCluster
      (lone freeLog messages (.active (next (.ok [("gpu-1", freeNode)])))) := by
  apply lone_reply h
  intro name node
  have hcurrent : current freeLog name = if "gpu-1" = name then some freeNode else none := rfl
  rw [hcurrent, List.mem_singleton, Prod.mk.injEq, Option.ite_none_right_eq_some,
    Option.some.injEq, eq_comm (a := name), eq_comm (a := node)]

/-- A patch of which the client hears nothing but a failure. -/
theorem lone_unheard {purpose : Purpose} {name : String} {patch : List PatchOp} {next}
    (h : Reaches nodeServer Quiet freeCluster
      (lone freeLog [] (.active (.call (.patch purpose name patch) next)))) (failure : ProcessFailure) :
    Reaches nodeServer Quiet freeCluster
      (lone freeLog [⟨(), purpose, name, patch, .inFlight⟩] (.active (next (.error failure)))) := by
  have hsent := h.tail (Step.send (r := ()) rfl) rfl
  rw [update_unit] at hsent
  have hheard := hsent.tail (Step.hear (r := ()) rfl (.error failure) fun h ↦ nomatch h) rfl
  rw [update_unit] at hheard
  exact hheard

end Lone

/-- The claim times out, the node is read as free twice, and the answer with which the run returns clean
is on its way with the claim still in flight. -/
theorem lost_claim : ∃ (report : Report) (next : Except ProcessFailure Node → Kubectl Empty Report),
    report.cleanupErrors = [] ∧ next (.ok freeNode) = .done report ∧
      Reaches nodeServer Quiet freeCluster
        (lone freeLog [lostClaim] (.answered (.get "gpu-1") (.ok freeNode) next)) := by
  have hselected := lone_list .refl
  have hcreated := lone_reply hselected (.ok ()) trivial
  have hwaited := lone_reply hcreated (.ok ()) trivial
  have hrefreshed := lone_list hwaited
  have hunheard := lone_unheard hrefreshed (.timedOut "kubectl patch node timed out")
  have hobserved := lone_reply hunheard (.ok freeNode) rfl
  have hdeleted := lone_reply hobserved (.ok ()) trivial
  exact ⟨_, _, rfl, rfl, lone_serve hdeleted (.ok freeNode) rfl⟩

/-- A claim which was given up may still commit. -/
theorem step_late_claim (activity : CordonActivity) :
    Step nodeServer (lone freeLog [lostClaim] activity) (.commit 0)
      (lone claimedLog [{ lostClaim with fate := .committed }] activity) := by
  have hat : (lone freeLog [lostClaim] activity).messages[0]? = some lostClaim := rfl
  have hstored : current (lone freeLog [lostClaim] activity).log lostClaim.name = some freeNode := rfl
  have happlied : nodeServer.apply lostClaim.patch freeNode =
      some { claimedNode with resourceVersion := "1" } := rfl
  have hfresh : Fresh nodeServer (lone freeLog [lostClaim] activity).log lostClaim.name "2" := by
    intro old hold
    rw [(recorded_freeLog.mp hold).2]
    decide
  exact Step.commit hat rfl hstored happlied hfresh

/-- The claim of the run, once it commits, is of a free node. -/
theorem cordon_ownership_safe_late :
    Owned (fun _ : Unit ↦ lostSetting) ⟨some ((), .claim), "gpu-1", some claimedNode⟩ freeLog := by
  obtain ⟨report, next, _, _, hreaches⟩ := lost_claim
  have hany : Reaches nodeServer (fun _ _ _ ↦ True) freeCluster
      (lone freeLog [lostClaim] (.answered (.get "gpu-1") (.ok freeNode) next)) :=
    hreaches.mono fun _ ↦ trivial
  have hlate := hany.tail (step_late_claim _) trivial
  have hlog : (lone claimedLog [{ lostClaim with fate := .committed }]
      (.answered (.get "gpu-1") (.ok freeNode) next)).log =
      [] ++ ⟨some ((), .claim), "gpu-1", some claimedNode⟩ :: freeLog := rfl
  exact cordon_ownership_safe (fun _ _ _ ↦ rfl) start_freeCluster hlate hlog

end IsvValidation.Breakfix
