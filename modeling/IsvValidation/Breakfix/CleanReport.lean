import IsvValidation.Breakfix.Ownership

/-!
# What a clean report leaves behind

A run ends clean when its cleanup returns no errors. From then on the node should neither carry the
marker of the run nor be cordoned because of its claim. The cleanup waits for its own release, but
not for the claim: a claim which is still in flight when the node is read as free may commit once
the server has given the answer to this read, and nobody takes it back. That is the only way a clean
report goes wrong, as long as nobody else writes the token of the run.
-/

namespace IsvValidation.Breakfix

open Library VersionedStore

/-! ## Traces of a claim -/

section Marked

variable {ι : Type} {log : List (NodeEntry ι)} {entry : NodeEntry ι} {run : ι}
  {ownership : CordonOwnership} {name : String} {node : Node}

/-- Who has cordoned a node that is unschedulable: the author of the last write which made it so. -/
def cordoner : List (NodeEntry ι) → String → Option ι
  | [], _ => none
  | entry :: earlier, name =>
    if entry.name = name then
      match entry.object with
      | none => none
      | some node =>
        if node.unschedulable then
          if (current earlier name).any Node.unschedulable then cordoner earlier name
          else entry.author.map Prod.fst
        else none
    else cordoner earlier name

/-- A node carries the marker of a run, or is unschedulable because of its claim. -/
def Marked (ownership : CordonOwnership) (run : ι) (log : List (NodeEntry ι)) : Prop :=
  (∃ node, current log ownership.nodeName = some node ∧ node.owner = some ownership.token) ∨
    cordoner log ownership.nodeName = some run

theorem cordoner_of_schedulable (hstored : current log name = some node)
    (h : node.unschedulable = false) : cordoner log name = none := by
  induction log with
  | nil => rfl
  | cons entry earlier ih =>
    rw [current] at hstored
    rw [cordoner]
    split
    · rename_i hname
      rw [if_pos hname] at hstored
      rw [hstored]
      simp [h]
    · rename_i hname
      rw [if_neg hname] at hstored
      exact ih hstored

/-- Somebody else's write does not make a run the one who has cordoned a node. -/
theorem cordoner_cons_of_author (hauthor : entry.author.map Prod.fst ≠ some run)
    (h : cordoner (entry :: log) name = some run) : cordoner log name = some run := by
  rw [cordoner] at h
  split at h
  · split at h
    · cases h
    · split at h
      · split at h
        · exact h
        · exact absurd h hauthor
      · cases h
  · exact h

/-- A free node carries nothing of a run. -/
theorem not_marked_of_free (hstored : current log ownership.nodeName = some node)
    (howner : node.owner = none) (hschedulable : node.unschedulable = false) :
    ¬ Marked ownership run log := by
  rintro (⟨other, hother, hmarker⟩ | hcordoner)
  · rw [hstored, Option.some.injEq] at hother
    rw [← hother, howner] at hmarker
    cases hmarker
  · rw [cordoner_of_schedulable hstored hschedulable] at hcordoner
    cases hcordoner

/-- A write to another node changes nothing. -/
theorem marked_cons_of_ne (hname : entry.name ≠ ownership.nodeName) :
    Marked ownership run (entry :: log) ↔ Marked ownership run log := by
  rw [Marked, Marked, current_cons_of_ne hname, cordoner, if_neg hname]

end Marked

/-! ## Conditions -/

section Conditions

variable {ι : Type}

/-- Nobody else puts the token of a run on its node. -/
def Unforged (ownership : CordonOwnership) (state : Cluster ι) (event : Event ι String)
    (after : Cluster ι) : Prop :=
  ∀ name, event = .write name → ∀ node, current after.log ownership.nodeName = some node →
    node.owner = some ownership.token → ∃ before,
      current state.log ownership.nodeName = some before ∧ before.owner = some ownership.token

/-- A run has returned from its cleanup without errors. -/
def EndedClean (run : ι) (state : Cluster ι) : Prop :=
  ∃ report, state.runs run = .active (.done report) ∧ report.cleanupErrors = []

/-- The answer with which a run returns from its cleanup without errors is on its way. -/
def EndsWithAnswer (run : ι) (state : Cluster ι) : Prop :=
  ∃ request reply next report, state.runs run = .answered request reply next ∧
    next reply = .done report ∧ report.cleanupErrors = []

def IsClaim (run : ι) (message : NodeMessage ι) : Prop :=
  message.sender = run ∧ message.tag = .claim

/-- The claim of a run is committed after the server has answered the last read of a clean cleanup. -/
def LateClaim (run : ι) (state : Cluster ι) (event : Event ι String) : Prop :=
  (EndedClean run state ∨ EndsWithAnswer run state) ∧ ∃ index message, event = .commit index ∧
    state.messages[index]? = some message ∧ IsClaim run message

/-- What is known of the whole cluster at any time: versions are unique, and every patch was made from
what its run has read. -/
structure Sound (settings : ι → Setting) (state : Cluster ι) : Prop where
  versioned : Versioned nodeServer state.log
  made : ∀ message ∈ state.messages, Made (settings message.sender).ownership state.log message

end Conditions

/-! ## A claim leaves its mark, nothing else does -/

section Steps

variable {ι : Type} [DecidableEq ι] {settings : ι → Setting} {state after : Cluster ι}
  {event : Event ι String} {run : ι}

theorem marked_of_step (hdistinct : Function.Injective fun run ↦ (settings run).token)
    (hsound : Sound settings state) (step : Step nodeServer state event after)
    (hunforged : Unforged (settings run).ownership state event after)
    (hother : ∀ index message, event = .commit index → state.messages[index]? = some message →
      ¬ IsClaim run message)
    (h : Marked (settings run).ownership run after.log) :
    Marked (settings run).ownership run state.log := by
  cases step with
  | @write name object fresh =>
    by_cases hname : name = (settings run).ownership.nodeName
    · rcases h with ⟨node, hstored, howner⟩ | hcordoner
      · exact Or.inl (hunforged name rfl node hstored howner)
      · exact Or.inr (cordoner_cons_of_author (by simp) hcordoner)
    · exact (marked_cons_of_ne hname).mp h
  | @commit index message before applied version message_at inFlight stored happlied fresh =>
    by_cases hname : message.name = (settings run).ownership.nodeName
    · have hmade := hsound.made message (List.mem_of_getElem? message_at)
      have hcurrent : current (⟨some (message.sender, message.tag), message.name,
          some (nodeServer.withVersion version applied)⟩ :: state.log)
            (settings run).ownership.nodeName = some (nodeServer.withVersion version applied) :=
        if_pos hname
      cases htag : message.tag with
      | claim =>
        have hsender : message.sender ≠ run :=
          fun hsender ↦ hother index message rfl message_at ⟨hsender, htag⟩
        rcases h with ⟨node, hstored, howner⟩ | hcordoner
        · rw [hcurrent, Option.some.injEq] at hstored
          have hclaimer := (hmade.claimed htag hsound.versioned stored happlied).2
          have htokens : (settings message.sender).token = (settings run).token := by
            rw [← hstored] at howner
            exact Option.some.inj (hclaimer.symm.trans howner)
          exact absurd (hdistinct htokens) hsender
        · exact Or.inr (cordoner_cons_of_author (by simpa using hsender) hcordoner)
      | release =>
        have hreleased := (hmade.released htag hsound.versioned stored happlied).2
        refine absurd h (not_marked_of_free hcurrent ?_ ?_)
        · rw [hreleased]
          exact owner_released before
        · rw [hreleased]
          exact unschedulable_released before
    · exact (marked_cons_of_ne hname).mp h
  | lose => exact h
  | send => exact h
  | hear => exact h
  | serve => exact h
  | receive => exact h

/-- A release commits on a marked node, and leaves no mark. -/
theorem marked_of_release (hsound : Sound settings state) {index : ℕ} {message : NodeMessage ι}
    (step : Step nodeServer state (.commit index) after)
    (hat : state.messages[index]? = some message) (hsender : message.sender = run)
    (htag : message.tag = .release) :
    Marked (settings run).ownership run state.log ∧
      ¬ Marked (settings run).ownership run after.log := by
  cases step with
  | @commit index other before applied version message_at inFlight stored happlied fresh =>
    rw [hat, Option.some.injEq] at message_at
    subst message_at hsender
    have hmade := hsound.made message (List.mem_of_getElem? hat)
    have hname := hmade.1
    obtain ⟨howner, rfl⟩ := hmade.released htag hsound.versioned stored happlied
    refine ⟨Or.inl ⟨before, hname ▸ stored, howner⟩, ?_⟩
    have hcurrent : current (⟨some (message.sender, message.tag), message.name,
        some (nodeServer.withVersion version before.released)⟩ :: state.log)
          (settings message.sender).ownership.nodeName =
            some (nodeServer.withVersion version before.released) := if_pos hname
    exact not_marked_of_free hcurrent (owner_released before) (unschedulable_released before)

end Steps

/-! ## Following the claim -/

section Claims

variable {ι : Type} {settings : ι → Setting} {run : ι} {trail : Trail}
  {log : List (NodeEntry ι)} {messages : List (NodeMessage ι)}

/-- A patch of a run has been committed. -/
def Committed (run : ι) (purpose : Purpose) (messages : List (NodeMessage ι)) : Prop :=
  ∃ message ∈ messages, message.sender = run ∧ message.tag = purpose ∧ message.fate = .committed

/-- A run sends one claim at most, its marks come from that claim, and are gone for good once a release
is committed. -/
structure ClaimLink (settings : ι → Setting) (run : ι) (trail : Trail) (log : List (NodeEntry ι))
    (messages : List (NodeMessage ι)) : Prop
    extends Link (settings run).ownership run trail log messages where
  unclaimed : trail.claimed = false → ∀ message ∈ messages, ¬ IsClaim run message
  once : ∀ (i j : ℕ) first second, messages[i]? = some first → messages[j]? = some second →
    IsClaim run first → IsClaim run second → i = j
  marked : Marked (settings run).ownership run log → Committed run .claim messages
  undone : Committed run .release messages →
    Committed run .claim messages ∧ ¬ Marked (settings run).ownership run log
  released : trail.released → Committed run .release messages

/-- Hearing a reply moves the trail, but neither the log nor the messages. -/
theorem ClaimLink.of_trail {after : Trail} (h : ClaimLink settings run trail log messages)
    (hlink : Link (settings run).ownership run after log messages)
    (hclaimed : after.claimed = trail.claimed)
    (hreleased : after.released → trail.released ∨ Committed run .release messages) :
    ClaimLink settings run after log messages where
  toLink := hlink
  unclaimed hfalse := h.unclaimed (hclaimed ▸ hfalse)
  once := h.once
  marked := h.marked
  undone := h.undone
  released hafter := (hreleased hafter).elim h.released id

/-- A claim which is still in flight is the only one. -/
theorem ClaimLink.not_committed (h : ClaimLink settings run trail log messages) {index : ℕ}
    {message : NodeMessage ι} (hat : messages[index]? = some message) (hclaim : IsClaim run message)
    (hflight : message.fate = .inFlight) : ¬ Committed run .claim messages := by
  rintro ⟨other, hmem, hsender, htag, hfate⟩
  obtain ⟨at_index, hother⟩ := List.mem_iff_getElem?.mp hmem
  have hindex := h.once index at_index message other hat hother hclaim ⟨hsender, htag⟩
  rw [← hindex, hat, Option.some.injEq] at hother
  rw [hother, hfate] at hflight
  cases hflight

theorem Committed.step [DecidableEq ι] {state after : Cluster ι} {event : Event ι String}
    {purpose : Purpose} (h : Committed run purpose state.messages)
    (step : Step nodeServer state event after) : Committed run purpose after.messages := by
  obtain ⟨message, hmem, hsender, htag, hfate⟩ := h
  exact ⟨message, step.committed_mem hmem hfate, hsender, htag, hfate⟩

theorem sent_of_answers {request : KubectlRequest} {reply : KubectlReply request}
    (h : Answers log request reply) : trail.sent request = trail := by
  cases request with
  | list => rfl
  | get name => rfl
  | patch purpose name patch => exact h.elim
  | command command => rfl

theorem released_of_answers {request : KubectlRequest} {reply : KubectlReply request}
    (h : Answers log request reply) (hreleased : ((trail.sent request).heard request reply).released) :
    trail.released := by
  rw [sent_of_answers h] at hreleased
  match request, reply, h with
  | .list, .ok _, _ => exact hreleased
  | .list, .error _, _ => exact hreleased
  | .get _, .ok _, _ => exact hreleased
  | .get _, .error _, _ => exact hreleased
  | .command _, _, _ => exact hreleased

/-- What was last read is stored when it is read. -/
theorem stored_of_lastRead {request : KubectlRequest} {reply : KubectlReply request} {name : String}
    {node : Node} (h : Answers log request reply)
    (hlast : ((trail.sent request).heard request reply).lastRead = some (name, node)) :
    current log name = some node := by
  rw [sent_of_answers h] at hlast
  match request, reply, h with
  | .list, .ok _, _ => cases hlast
  | .list, .error _, _ => cases hlast
  | .get _, .ok _, hstored =>
    cases hlast
    exact hstored
  | .get _, .error _, _ => cases hlast
  | .command _, _, _ => cases hlast

/-- The condition under which a claim is followed. -/
def Followed (settings : ι → Setting) (run : ι) (state : Cluster ι) (event : Event ι String)
    (after : Cluster ι) : Prop :=
  Unforged (settings run).ownership state event after ∧ Sound settings state

variable [DecidableEq ι]

/-- A step of the others: only a commit of the claim leaves a mark. -/
theorem ClaimLink.others (hdistinct : Function.Injective fun run ↦ (settings run).token)
    {state after : Cluster ι} {event : Event ι String}
    (h : ClaimLink settings run trail state.log state.messages)
    (step : Step nodeServer state event after) (hfollowed : Followed settings run state event after)
    (hevent : event ≠ .client run) : ClaimLink settings run trail after.log after.messages := by
  have hold : ∀ {i : ℕ} {message : NodeMessage ι}, after.messages[i]? = some message → IsClaim run message →
      ∃ fate, state.messages[i]? = some { message with fate } := by
    intro i message hat hclaim
    exact step.getElem?_messages (hclaim.1 ▸ hevent) hat
  -- Either the step commits the claim, or a mark which is there has been there before.
  have hmark : Marked (settings run).ownership run after.log →
      Marked (settings run).ownership run state.log ∨ ∃ index message, event = .commit index ∧
        state.messages[index]? = some message ∧ IsClaim run message := by
    intro hmarked
    by_cases hcommit : ∃ index message, event = .commit index ∧
        state.messages[index]? = some message ∧ IsClaim run message
    · exact Or.inr hcommit
    · refine Or.inl (marked_of_step hdistinct hfollowed.2 step hfollowed.1 ?_ hmarked)
      intro index message hindex hat hclaim
      exact hcommit ⟨index, message, hindex, hat, hclaim⟩
  constructor
  · exact (links_cordon fun _ _ _ ↦ True).others h.toLink step trivial hevent
  · intro hclaimed message hmem hclaim
    obtain ⟨fate, hbefore⟩ := step.mem_messages (hclaim.1 ▸ hevent) hmem
    exact h.unclaimed hclaimed _ hbefore hclaim
  · intro i j first second hfirst hsecond hclaim hother
    obtain ⟨fate, hi⟩ := hold hfirst hclaim
    obtain ⟨other, hj⟩ := hold hsecond hother
    exact h.once i j _ _ hi hj hclaim hother
  · intro hmarked
    rcases hmark hmarked with hbefore | ⟨index, message, rfl, hat, hclaim⟩
    · exact (h.marked hbefore).step step
    · exact ⟨_, (step.of_commit hat).2, hclaim.1, hclaim.2, rfl⟩
  · rintro ⟨message, hmem, hsender, htag, hfate⟩
    rcases step.committed_cases hmem hfate with hbefore | ⟨index, old, rfl, hat, rfl⟩
    · obtain ⟨hcommitted, hnot⟩ := h.undone ⟨message, hbefore, hsender, htag, hfate⟩
      refine ⟨hcommitted.step step, fun hmarked ↦ ?_⟩
      rcases hmark hmarked with hstill | ⟨index, claim, rfl, hat, hclaim⟩
      · exact hnot hstill
      · exact h.not_committed hat hclaim (step.of_commit hat).1 hcommitted
    · obtain ⟨hmarked, hnot⟩ := marked_of_release hfollowed.2 step hat hsender htag
      exact ⟨(h.marked hmarked).step step, hnot⟩
  · intro hreleased
    exact (h.released hreleased).step step

/-- A run which sends its claim has sent none before. -/
theorem ClaimLink.sent {purpose : Purpose} {name : String} {patch : List PatchOp}
    (h : ClaimLink settings run trail log messages)
    (hallowed : trail.allowed (settings run).ownership (.patch purpose name patch)) :
    ClaimLink settings run (trail.sent (.patch purpose name patch)) log
      (messages ++ [⟨run, purpose, name, patch, .inFlight⟩]) := by
  have hnone : purpose = .claim → ∀ message ∈ messages, ¬ IsClaim run message :=
    fun hpurpose ↦ h.unclaimed (hallowed.2.1 hpurpose)
  have hold : ∀ {other : Purpose}, Committed run other
      (messages ++ [⟨run, purpose, name, patch, .inFlight⟩]) → Committed run other messages := by
    rintro other ⟨message, hmem, hsender, htag, hfate⟩
    rcases List.mem_append.mp hmem with hbefore | hnew
    · exact ⟨message, hbefore, hsender, htag, hfate⟩
    · rw [List.mem_singleton.mp hnew] at hfate
      cases hfate
  have hkeep : ∀ {other : Purpose}, Committed run other messages → Committed run other
      (messages ++ [⟨run, purpose, name, patch, .inFlight⟩]) := by
    rintro other ⟨message, hmem, hrest⟩
    exact ⟨message, List.mem_append_left _ hmem, hrest⟩
  have hplace : ∀ {i : ℕ} {message : NodeMessage ι},
      (messages ++ [⟨run, purpose, name, patch, .inFlight⟩])[i]? = some message →
        IsClaim run message → messages[i]? = some message ∨
          i = messages.length ∧ purpose = .claim := by
    intro i message hat hclaim
    rw [List.getElem?_append] at hat
    split at hat
    · exact Or.inl hat
    · have hnew := List.mem_singleton.mp (List.mem_of_getElem? hat)
      have hindex := (List.getElem?_eq_some_iff.mp hat).1
      rw [List.length_singleton] at hindex
      rw [hnew] at hclaim
      exact Or.inr ⟨by omega, hclaim.2⟩
  constructor
  · exact (links_cordon fun _ _ _ ↦ True).sent h.toLink hallowed
  · intro hclaimed message hmem hclaim
    cases purpose with
    | claim => cases hclaimed
    | release =>
      rcases List.mem_append.mp hmem with hbefore | hnew
      · exact h.unclaimed hclaimed message hbefore hclaim
      · rw [List.mem_singleton.mp hnew] at hclaim
        cases hclaim.2
  · intro i j first second hfirst hsecond hclaim hother
    rcases hplace hfirst hclaim with hi | ⟨hi, hpurpose⟩
    · rcases hplace hsecond hother with hj | ⟨hj, hpurpose⟩
      · exact h.once i j first second hi hj hclaim hother
      · exact absurd hclaim (hnone hpurpose first (List.mem_of_getElem? hi))
    · rcases hplace hsecond hother with hj | ⟨hj, _⟩
      · exact absurd hother (hnone hpurpose second (List.mem_of_getElem? hj))
      · exact hi.trans hj.symm
  · exact fun hmarked ↦ hkeep (h.marked hmarked)
  · exact fun hreleased ↦ (h.undone (hold hreleased)).imp_left hkeep
  · intro hreleased
    apply hkeep
    apply h.released
    cases purpose <;> exact hreleased

theorem links_claim (hdistinct : Function.Injective fun run ↦ (settings run).token) :
    Links (cordonMonitor (settings run).ownership) (ClaimLink settings run) run nodeServer
      (Followed settings run) where
  others h step hfollowed hevent := h.others hdistinct step hfollowed hevent
  sent h hallowed := h.sent hallowed
  heard {seen log messages purpose name patch reply} h hcommitted := by
    apply h.of_trail
    · exact (links_cordon fun _ _ _ ↦ True).heard h.toLink hcommitted
    · exact claimed_heard seen (.patch purpose name patch) reply
    · intro hreleased
      cases purpose with
      | claim => exact Or.inl hreleased
      | release =>
        cases reply with
        | ok done => exact Or.inr ⟨_, hcommitted rfl, rfl, rfl, rfl⟩
        | error failure => exact Or.inl hreleased
  answered {seen log messages request reply} h hanswers := by
    apply h.of_trail
    · exact (links_cordon fun _ _ _ ↦ True).answered h.toLink hanswers
    · calc ((seen.sent request).heard request reply).claimed
          = (seen.sent request).claimed := claimed_heard _ request reply
        _ = seen.claimed := by rw [sent_of_answers hanswers]
    · exact fun hreleased ↦ Or.inl (released_of_answers hanswers hreleased)

end Claims

/-! ## The end of a run -/

section Ending

variable {ι : Type} {settings : ι → Setting} {run : ι} {initial state after : Cluster ι}
  {event : Event ι String}

/-- How a run stands with its monitor, and its claim with the cluster. -/
abbrev FollowsClaim (settings : ι → Setting) (run : ι) (state : Cluster ι) : Prop :=
  Tracked (cordonMonitor (settings run).ownership)
    (fun after report ↦ report.cleanupErrors = [] → after.Settled (settings run).ownership)
    (fun _ _ ↦ False) (ClaimLink settings run) run state

/-- Nobody has put the token of a run on its node before it starts. -/
def Fresh (ownership : CordonOwnership) (initial : Cluster ι) : Prop :=
  ∀ node, current initial.log ownership.nodeName = some node → node.owner ≠ some ownership.token

theorem cordoner_ne_of_authors {log : List (NodeEntry ι)} (name : String)
    (h : ∀ entry ∈ log, entry.author = none) : cordoner log name ≠ some run := by
  induction log with
  | nil => exact fun hnone ↦ nomatch hnone
  | cons entry earlier ih =>
    have hauthor := h entry List.mem_cons_self
    intro hcordoner
    have hbefore := cordoner_cons_of_author (by simp [hauthor]) hcordoner
    exact ih (fun old hold ↦ h old (List.mem_cons_of_mem entry hold)) hbefore

theorem Start.claimLink (hstart : Start settings initial)
    (hfresh : Fresh (settings run).ownership initial) :
    ClaimLink settings run {} initial.log initial.messages := by
  have hmessages : ∀ message, message ∉ initial.messages := by
    intro message hmem
    rw [hstart.messages] at hmem
    exact List.not_mem_nil hmem
  constructor
  · constructor
    · exact fun name node hmem ↦ absurd hmem List.not_mem_nil
    · exact fun message hmem ↦ absurd hmem (hmessages message)
  · exact fun _ message hmem ↦ absurd hmem (hmessages message)
  · intro i j first second hfirst
    exact absurd (List.mem_of_getElem? hfirst) (hmessages first)
  · rintro (⟨node, hstored, howner⟩ | hcordoner)
    · exact absurd howner (hfresh node hstored)
    · exact absurd hcordoner (cordoner_ne_of_authors _ hstart.authors)
  · rintro ⟨message, hmem, _⟩
    exact absurd hmem (hmessages message)
  · exact fun hreleased ↦ nomatch hreleased

theorem Start.followsClaim (hstart : Start settings initial)
    (hfresh : Fresh (settings run).ownership initial) : FollowsClaim settings run initial :=
  .active (hstart.runs run) (obeys_main (settings run)) (hstart.claimLink hfresh)

/-- Without a claim, or after a release, there is no mark. -/
theorem ClaimLink.not_marked {trail : Trail} {log : List (NodeEntry ι)}
    {messages : List (NodeMessage ι)} (h : ClaimLink settings run trail log messages)
    (hsettled : trail.claimed = false ∨ trail.released) :
    ¬ Marked (settings run).ownership run log := by
  rcases hsettled with hclaimed | hreleased
  · intro hmarked
    obtain ⟨message, hmem, hsender, htag, _⟩ := h.marked hmarked
    exact h.unclaimed hclaimed message hmem ⟨hsender, htag⟩
  · exact (h.undone (h.released hreleased)).2

variable [DecidableEq ι]

/-- When a run hears of a patch and ends clean, its node is free of it. -/
theorem not_marked_of_hear (hdistinct : Function.Injective fun run ↦ (settings run).token)
    (h : FollowsClaim settings run state) {index : ℕ} {purpose : Purpose} {name : String}
    {patch : List PatchOp} {next} (waits : state.runs run = .waiting index purpose name patch next)
    {reply : Except ProcessFailure Unit} (committed : reply = .ok () →
      state.messages[index]? = some ⟨run, purpose, name, patch, .committed⟩) {report : Report}
    (hdone : next reply = .done report) (hclean : report.cleanupErrors = []) :
    ¬ Marked (settings run).ownership run state.log := by
  have links : Links (cordonMonitor (settings run).ownership) (ClaimLink settings run) run nodeServer
      (Followed settings run) := links_claim hdistinct
  cases h with
  | active stands => cases waits.symm.trans stands
  | answered stands => cases waits.symm.trans stands
  | @waiting seen _ _ _ _ _ stands obeys linked =>
    cases waits.symm.trans stands
    have hreturned := obeys reply
    rw [hdone] at hreturned
    have hlinked := links.heard linked fun hreply ↦ List.mem_of_getElem? (committed hreply)
    have hlast : (seen.heard (.patch purpose name patch) reply).lastRead = none := by
      cases purpose <;> cases reply <;> rfl
    rcases hreturned hclean with hclaimed | hreleased | ⟨node, hread, _⟩
    · exact hlinked.not_marked (Or.inl hclaimed)
    · exact hlinked.not_marked (Or.inr hreleased)
    · cases hlast.symm.trans hread

/-- When the server gives an answer with which a run ends clean, its node is free of it. -/
theorem not_marked_of_serve (hdistinct : Function.Injective fun run ↦ (settings run).token)
    (h : FollowsClaim settings run state) {request : KubectlRequest} {next}
    (at_call : state.runs run = .active (.call request next)) {reply : KubectlReply request}
    (answers : Answers state.log request reply) {report : Report}
    (hdone : next reply = .done report) (hclean : report.cleanupErrors = []) :
    ¬ Marked (settings run).ownership run state.log := by
  have links : Links (cordonMonitor (settings run).ownership) (ClaimLink settings run) run nodeServer
      (Followed settings run) := links_claim hdistinct
  cases h with
  | waiting stands => cases at_call.symm.trans stands
  | answered stands => cases at_call.symm.trans stands
  | @active seen program stands obeys linked =>
    cases at_call.symm.trans stands
    have hreturned := obeys.2 reply
    rw [hdone] at hreturned
    have hlinked := links.answered linked answers
    rcases hreturned hclean with hclaimed | hreleased | ⟨node, hread, howner, hschedulable⟩
    · exact hlinked.not_marked (Or.inl hclaimed)
    · exact hlinked.not_marked (Or.inr hreleased)
    · exact not_marked_of_free (stored_of_lastRead answers hread) howner hschedulable

/-- When a step of a run decides its clean end, its node is free of it. -/
theorem not_marked_of_end (hdistinct : Function.Injective fun run ↦ (settings run).token)
    (h : FollowsClaim settings run state) (step : Step nodeServer state (.client run) after)
    (hbefore : EndsWithAnswer run state → ¬ Marked (settings run).ownership run state.log)
    (hended : EndedClean run after ∨ EndsWithAnswer run after) :
    ¬ Marked (settings run).ownership run after.log := by
  have hlog : after.log = state.log := by
    cases step <;> rfl
  rw [hlog]
  cases step with
  | send =>
    rcases hended with ⟨_, hreport, _⟩ | ⟨_, _, _, _, hreport, _⟩
    · cases (Function.update_self ..).symm.trans hreport
    · cases (Function.update_self ..).symm.trans hreport
  | @hear _ index purpose name patch next waits reply committed =>
    have hupdate := Function.update_self run (.active (next reply)) state.runs
    rcases hended with ⟨report, hreport, hclean⟩ | ⟨_, _, _, _, hreport, _⟩
    · exact not_marked_of_hear hdistinct h waits committed
        (Activity.active.inj (hupdate.symm.trans hreport)) hclean
    · cases hupdate.symm.trans hreport
  | @serve _ request next at_call reply answers =>
    have hupdate := Function.update_self run (.answered request reply next) state.runs
    rcases hended with ⟨_, hreport, _⟩ | ⟨_, _, _, report, hreport, hdone, hclean⟩
    · cases hupdate.symm.trans hreport
    · cases hupdate.symm.trans hreport
      exact not_marked_of_serve hdistinct h at_call answers hdone hclean
  | @receive _ request reply next waits =>
    have hupdate := Function.update_self run (.active (next reply)) state.runs
    rcases hended with ⟨report, hreport, hclean⟩ | ⟨_, _, _, _, hreport, _⟩
    · exact hbefore ⟨request, reply, next, report, waits,
        Activity.active.inj (hupdate.symm.trans hreport), hclean⟩
    · cases hupdate.symm.trans hreport

theorem Start.sound {condition : Cluster ι → Event ι String → Cluster ι → Prop}
    (hstart : Start settings initial) (hreaches : Reaches nodeServer condition initial state) :
    Sound settings state where
  versioned := hreaches.versioned hstart.versioned
  made _ hmem := hstart.made hreaches hmem

/-- The steps after which a clean report is still true. -/
def InTime (settings : ι → Setting) (run : ι) (state : Cluster ι) (event : Event ι String)
    (after : Cluster ι) : Prop :=
  Unforged (settings run).ownership state event after ∧ ¬ LateClaim run state event

theorem Start.follows_reached (hdistinct : Function.Injective fun run ↦ (settings run).token)
    (hstart : Start settings initial) (hfresh : Fresh (settings run).ownership initial)
    (hreaches : Reaches nodeServer (InTime settings run) initial state) :
    FollowsClaim settings run state := by
  have hsound := hreaches.along fun h ↦ hstart.sound h
  apply (hstart.followsClaim hfresh).reaches (links_claim hdistinct)
  exact hsound.mono fun h ↦ ⟨h.1.1, h.2⟩

theorem not_marked_in_time (hdistinct : Function.Injective fun run ↦ (settings run).token)
    (hstart : Start settings initial) (hfresh : Fresh (settings run).ownership initial)
    (hreaches : Reaches nodeServer (InTime settings run) initial state)
    (hended : EndedClean run state ∨ EndsWithAnswer run state) :
    ¬ Marked (settings run).ownership run state.log := by
  induction hreaches with
  | refl => exact (hstart.claimLink hfresh).not_marked (Or.inl rfl)
  | @tail state event after hbefore step meets ih =>
    by_cases hevent : event = .client run
    · subst hevent
      exact not_marked_of_end hdistinct (hstart.follows_reached hdistinct hfresh hbefore) step
        (fun h ↦ ih (Or.inr h)) hended
    · have hstill : EndedClean run state ∨ EndsWithAnswer run state := by
        rw [EndedClean, EndsWithAnswer, ← step.runs_eq hevent]
        exact hended
      intro hmarked
      apply ih hstill
      apply marked_of_step hdistinct (hstart.sound hbefore) step meets.1 ?_ hmarked
      intro index message hindex hat hclaim
      exact meets.2 ⟨hstill, index, message, hindex, hat, hclaim⟩

/-- A claim which commits is on its node. -/
theorem marked_of_claim (hsound : Sound settings state) {index : ℕ} {message : NodeMessage ι}
    (step : Step nodeServer state (.commit index) after)
    (hat : state.messages[index]? = some message) (hclaim : IsClaim run message) :
    Marked (settings run).ownership run after.log := by
  obtain ⟨rfl, htag⟩ := hclaim
  cases step with
  | @commit index other before applied version message_at inFlight stored happlied fresh =>
    rw [hat, Option.some.injEq] at message_at
    subst message_at
    have hmade := hsound.made message (List.mem_of_getElem? hat)
    have howner := (hmade.claimed htag hsound.versioned stored happlied).2
    exact Or.inl ⟨nodeServer.withVersion version applied, if_pos hmade.1, howner⟩

/-- After a late claim the run ends clean, at the latest when it hears the answer, and is left behind. -/
theorem marked_of_late_claim (hsound : Sound settings state)
    (step : Step nodeServer state event after) (hlate : LateClaim run state event) :
    ∃ final, Reaches nodeServer (Unforged (settings run).ownership) after final ∧
      EndedClean run final ∧ Marked (settings run).ownership run final.log := by
  obtain ⟨hended, index, message, rfl, hat, hclaim⟩ := hlate
  have hmarked := marked_of_claim hsound step hat hclaim
  have hruns : after.runs run = state.runs run := step.runs_eq fun h ↦ nomatch h
  rcases hended with hended | ⟨request, reply, next, report, hwaits, hdone, hclean⟩
  · refine ⟨after, .refl, ?_, hmarked⟩
    rw [EndedClean, hruns]
    exact hended
  · have hreceive : Step nodeServer after (.client run) _ := .receive (hruns.trans hwaits)
    refine ⟨_, .tail .refl hreceive ?_, ?_, hmarked⟩
    · intro name hwrite
      cases hwrite
    · exact ⟨report, by rw [← hdone]; exact Function.update_self .., hclean⟩

/-- As long as no claim commits after the server has answered the last read of a clean cleanup, a clean
report leaves nothing behind, and a claim which does is left behind. -/
theorem clean_report_iff_in_time
    (hdistinct : Function.Injective fun run ↦ (settings run).token)
    (hstart : Start settings initial) (hfresh : Fresh (settings run).ownership initial) :
    (∀ state, Reaches nodeServer (InTime settings run) initial state → EndedClean run state →
      ¬ Marked (settings run).ownership run state.log) ∧
      ∀ state event after, Reaches nodeServer (Unforged (settings run).ownership) initial state →
        Step nodeServer state event after → LateClaim run state event →
          ∃ final, Reaches nodeServer (Unforged (settings run).ownership) after final ∧
            EndedClean run final ∧ Marked (settings run).ownership run final.log := by
  constructor
  · intro state hreaches hended
    exact not_marked_in_time hdistinct hstart hfresh hreaches (Or.inl hended)
  · intro state event after hreaches
    exact marked_of_late_claim (hstart.sound hreaches)

end Ending

theorem fresh_freeCluster : Fresh lostSetting.ownership freeCluster := by
  intro node hstored
  cases hstored
  decide

theorem unforged_of_quiet {state after : Cluster Unit} {event : Event Unit String}
    (h : Quiet state event after) : Unforged lostSetting.ownership state event after := by
  intro name hwrite
  cases h.symm.trans hwrite

/-- A run whose claim is lost on the way returns clean when it hears the answer to its last read. Its node
is then free of it, unless the claim has committed after the server had given this answer. -/
theorem clean_report_lost :
    (∃ state : Cluster Unit, Reaches nodeServer (InTime (fun _ ↦ lostSetting) ()) freeCluster state ∧
      EndedClean () state ∧ ¬ Marked lostSetting.ownership () state.log) ∧
    ∃ state committed final : Cluster Unit, ¬ EndedClean () state ∧
      Step nodeServer state (.commit 0) committed ∧
      Reaches nodeServer (Unforged lostSetting.ownership) committed final ∧
      EndedClean () final ∧ Marked lostSetting.ownership () final.log := by
  obtain ⟨report, next, hclean, hdone, hreaches⟩ := lost_claim
  obtain ⟨hbefore, hlate⟩ := @clean_report_iff_in_time Unit (fun _ ↦ lostSetting) () freeCluster _
    (fun _ _ _ ↦ rfl) start_freeCluster fresh_freeCluster
  constructor
  · have hheard : Reaches nodeServer Quiet freeCluster
        (lone freeLog [lostClaim] (.active (next (.ok freeNode)))) := hreaches.tail step_receive rfl
    have hended : EndedClean () (lone freeLog [lostClaim] (.active (next (.ok freeNode)))) :=
      ⟨report, congrArg Activity.active hdone, hclean⟩
    have hintime := hheard.mono fun hquiet ↦ (⟨unforged_of_quiet hquiet, by
      rintro ⟨_, index, message, hcommit, _⟩
      cases hquiet.symm.trans hcommit⟩ : InTime (fun _ ↦ lostSetting) () _ _ _)
    exact ⟨_, hintime, hended, hbefore _ hintime hended⟩
  · have hstep := step_late_claim (.answered (.get "gpu-1") (.ok freeNode) next)
    have hends : EndsWithAnswer () (lone freeLog [lostClaim]
        (.answered (.get "gpu-1") (.ok freeNode) next)) :=
      ⟨.get "gpu-1", .ok freeNode, next, report, rfl, hdone, hclean⟩
    obtain ⟨final, hfinal⟩ := hlate _ _ _ (hreaches.mono unforged_of_quiet) hstep
      ⟨Or.inr hends, 0, lostClaim, rfl, rfl, rfl, rfl⟩
    exact ⟨_, _, final, fun ⟨_, hactive, _⟩ ↦ (nomatch hactive), hstep, hfinal⟩

/-- A claim which commits once the last read is answered stays on the node after a clean report. -/
theorem late_claim_leaks : Start (fun _ : Unit ↦ lostSetting) freeCluster ∧
    Fresh lostSetting.ownership freeCluster ∧
      ¬ ∀ state, Reaches nodeServer (Unforged lostSetting.ownership) freeCluster state →
        EndedClean () state → ¬ Marked lostSetting.ownership () state.log := by
  refine ⟨start_freeCluster, fresh_freeCluster, fun hclaim ↦ ?_⟩
  obtain ⟨report, next, hclean, hdone, hreaches⟩ := lost_claim
  have hquiet := hreaches.mono unforged_of_quiet
  have hlate := (hquiet.tail (step_late_claim _) fun name hwrite ↦ (nomatch hwrite)).tail
    step_receive fun name hwrite ↦ (nomatch hwrite)
  exact hclaim _ hlate ⟨report, congrArg Activity.active hdone, hclean⟩
    (Or.inl ⟨claimedNode, rfl, rfl⟩)

end IsvValidation.Breakfix
