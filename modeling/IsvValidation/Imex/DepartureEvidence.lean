import IsvValidation.Imex.DomainDeparture

/-!
# What a departure rests on

The observations and replies which a departure check that ends PASSED has behind it. They are there in
every run in which the reading that ends the wait for the departure has a pod list which parses, and the
one that ends the wait for the peers still lists the members of the formation.
-/

namespace IsvValidation.Imex

open Host Library Staged
open scoped List

/-! ## What the observer reported -/

/-- At this reading the observer's daemon reported itself ready, and this of the target's connection. -/
def Reports (departure : Departure) (poll : Poll) (pod : Pod) (connection : Option String) : Prop :=
  ∃ path ∈ imexCtlConfigPaths, ∃ nodes own, poll.report pod path = .parsed nodes ∧
    nodes.find? (fun node ↦ node.host = daemonDnsName departure.observerIndex) = some own ∧
    own.status = "READY" ∧
    (own.connections.find? fun peer ↦ peer.1 = daemonDnsName departure.targetIndex).map Prod.snd =
      connection

/-- A configuration which is kept is one of the known ones. -/
def KnownPath (configPath : Option String) : Prop := ∀ path ∈ configPath, path ∈ imexCtlConfigPaths

/-- A view of a daemon which calls itself ready comes from a report, and what it says of the target
depends on the connection there. -/
theorem peerView_ready {nodes : List ReportNode} {observerIndex targetIndex : Int}
    (h : (peerView nodes observerIndex targetIndex).observerReady) :
    ∃ own, nodes.find? (fun node ↦ node.host = daemonDnsName observerIndex) = some own ∧
      own.status = "READY" ∧
      ((peerView nodes observerIndex targetIndex).targetReported = .available ↔
        (own.connections.find? fun peer ↦ peer.1 = daemonDnsName targetIndex).map Prod.snd =
          some "CONNECTED") := by
  unfold peerView at h ⊢
  cases hown : nodes.find? fun node ↦ decide (node.host = daemonDnsName observerIndex) with
  | none => simp [hown, unknownPeerView] at h
  | some own =>
    cases hpeer : own.connections.find? fun peer ↦ decide (peer.1 = daemonDnsName targetIndex) with
    | none =>
      simp only [hown, hpeer, decide_eq_true_eq] at h
      exact ⟨own, rfl, h, by simp [hpeer, h]⟩
    | some peer =>
      simp only [hown, hpeer, decide_eq_true_eq] at h
      refine ⟨own, rfl, h, ?_⟩
      by_cases hconnected : peer.2 = "CONNECTED" <;> simp [hpeer, hconnected]

/-- What was read from the daemon keeps a known configuration, and a view which calls it ready is what
one of the configurations answered. -/
theorem askPaths_ok {departure : Departure} {report : String → Reading (List ReportNode)}
    {configPath : Option String} {paths : List String} {detail : String} {peer : PeerReading}
    (hkept : KnownPath configPath) (hpaths : ∀ path ∈ paths, path ∈ imexCtlConfigPaths)
    (h : askPaths departure report configPath paths detail = .ok peer) :
    KnownPath peer.configPath ∧ (peer.view.observerReady →
      ∃ path ∈ imexCtlConfigPaths, ∃ nodes, report path = .parsed nodes ∧
        peer.view = peerView nodes departure.observerIndex departure.targetIndex) := by
  induction paths generalizing detail with
  | nil =>
    rw [← Except.ok.inj h]
    exact ⟨hkept, fun hready ↦ by simp [unknownPeerView] at hready⟩
  | cons path rest ih =>
    have hpath := hpaths path List.mem_cons_self
    rw [askPaths] at h
    cases hreport : report path with
    | failed error =>
      rw [hreport] at h
      exact ih (fun other hmem ↦ hpaths other (List.mem_cons_of_mem path hmem)) h
    | unparsable =>
      rw [hreport] at h
      rw [← Except.ok.inj h]
      exact ⟨by simpa [KnownPath] using hpath, fun hready ↦ by simp [unknownPeerView] at hready⟩
    | malformed message => simp [hreport] at h
    | parsed nodes =>
      rw [hreport] at h
      rw [← Except.ok.inj h]
      exact ⟨by simpa [KnownPath] using hpath, fun _ ↦ ⟨path, hpath, nodes, hreport, rfl⟩⟩

theorem readPeerView_ok {departure : Departure} {poll : Poll} {pod : Pod}
    {configPath : Option String} {peer : PeerReading} (hkept : KnownPath configPath)
    (h : readPeerView departure poll pod configPath = .ok peer) :
    KnownPath peer.configPath ∧ (peer.view.observerReady → ∃ connection,
      Reports departure poll pod connection ∧
        (peer.view.targetReported = .available ↔ connection = some "CONNECTED")) := by
  have hask : KnownPath peer.configPath ∧ (peer.view.observerReady →
      ∃ path ∈ imexCtlConfigPaths, ∃ nodes, poll.report pod path = .parsed nodes ∧
        peer.view = peerView nodes departure.observerIndex departure.targetIndex) := by
    cases configPath with
    | none => exact askPaths_ok hkept (fun _ hmem ↦ hmem) h
    | some path =>
      apply askPaths_ok hkept ?_ h
      intro other hmem
      rcases List.mem_cons.mp hmem with hother | hother
      · exact hother ▸ hkept path rfl
      · exact (List.mem_filter.mp hother).1
  refine ⟨hask.1, fun hready ↦ ?_⟩
  have ⟨path, hpath, nodes, hreport, hview⟩ := hask.2 hready
  rw [hview] at hready ⊢
  have ⟨own, hown, hstatus, hconnection⟩ := peerView_ready hready
  exact ⟨_, ⟨path, hpath, nodes, own, hreport, hown, hstatus, rfl⟩, hconnection⟩

/-! ## What the waits rest on -/

/-- A read cluster in which the observer has a daemon that reported this of the target. -/
def ReportedAt (unicode : Unicode) (departure : Departure) (poll : Poll) (state : DomainState)
    (connection : Option String) : Prop :=
  observe unicode poll = .ok (.ok state) ∧ ∃ pod, state.daemons.get? departure.observer = some pod ∧
    Reports departure poll pod connection

theorem judgePeerBaseline_known {departure : Departure} {peer next : PeerReading} {poll : Poll}
    {state : DomainState} (h : judgePeerBaseline departure peer poll state = .undecided next)
    (hkept : KnownPath peer.configPath) : KnownPath next.configPath := by
  unfold judgePeerBaseline at h
  split at h
  · rwa [← Judgement.undecided.inj h]
  · split at h
    · simp at h
    next hread =>
      split at h
      · simp at h
      · rw [← Judgement.undecided.inj h]
        exact (readPeerView_ok hkept hread).1

theorem judgePeerBaseline_decided {departure : Departure} {peer : PeerReading} {poll : Poll}
    {state : DomainState} {configPath : Option String}
    (h : judgePeerBaseline departure peer poll state = .decided (.ok configPath))
    (hkept : KnownPath peer.configPath) :
    KnownPath configPath ∧ ∃ pod, state.daemons.get? departure.observer = some pod ∧
      Reports departure poll pod (some "CONNECTED") := by
  unfold judgePeerBaseline at h
  split at h
  · simp at h
  next pod hpod =>
    split at h
    · simp at h
    next found hread =>
      split at h
      next hview =>
        obtain ⟨hknown, hreport⟩ := readPeerView_ok hkept hread
        obtain ⟨connection, hreports, hconnected⟩ := hreport hview.1
        rw [hconnected.mp hview.2] at hreports
        rw [Except.ok.inj (Judgement.decided.inj h)] at hknown
        exact ⟨hknown, pod, hpod, hreports⟩
      · simp at h

/-- The baseline ends at a reading where the observer reported the target connected. -/
theorem awaitPeerBaseline_returns {unicode : Unicode} {departure : Departure} {polls : List Poll}
    {log : List BodyEvent} {configPath : Option String}
    (h : (awaitPeerBaseline unicode departure polls).Returns log configPath) :
    KnownPath configPath ∧ ∃ (before : List Poll) (reading : Poll) (state : DomainState),
      log = before.map (.observed .peerBaseline) ++ [.observed .peerBaseline reading] ∧
        ReportedAt unicode departure reading state (some "CONNECTED") := by
  obtain ⟨before, reading, _, peer, _, hcarries, hdecided, hlog⟩ :=
    returns_poll (fun peer ↦ by simp) h
  have hkept : KnownPath peer.configPath := by
    apply hcarries.invariant (P := fun peer ↦ KnownPath peer.configPath) ?_
      (by simp [KnownPath, unreachable])
    intro carried poll next hundecided hcarried
    rcases judgeState_undecided_iff.mp hundecided with ⟨_, _, hnext⟩ | ⟨state, _, hjudged⟩
    · rw [← hnext]
      exact hcarried
    · exact judgePeerBaseline_known hjudged hcarried
  have ⟨state, hobserved, hjudged⟩ := judgeState_decided_iff.mp hdecided
  have ⟨hknown, hreported⟩ := judgePeerBaseline_decided hjudged hkept
  exact ⟨hknown, before, reading, state, hlog, hobserved, hreported⟩

/-- At this reading no daemon which the check looks at on the target had exited uncleanly. -/
def Quiet (unicode : Unicode) (target : String) (baselineRestarts : Int) (poll : Poll) : Prop :=
  ∀ state pod, observe unicode poll = .ok (.ok state) → daemonSeen state target = some pod →
    uncleanExitReason pod baselineRestarts = none

/-- The departure ends at a reading without a daemon on the target, after readings without an unclean
exit. -/
theorem awaitCleanDeparture_returns {unicode : Unicode} {target : String} {baselineRestarts : Int}
    {polls : List Poll} {log : List BodyEvent}
    (h : (awaitCleanDeparture unicode target baselineRestarts polls).Returns log ()) :
    ∃ (before : List Poll) (reading : Poll) (state : DomainState),
      log = before.map (.observed .cleanDeparture) ++ [.observed .cleanDeparture reading] ∧
        observe unicode reading = .ok (.ok state) ∧ daemonSeen state target = none ∧
        ∀ earlier ∈ before, Quiet unicode target baselineRestarts earlier := by
  obtain ⟨before, reading, _, carried, _, hcarries, hdecided, hlog⟩ :=
    returns_poll (fun carried ↦ by simp) h
  have ⟨state, hobserved, hjudged⟩ := judgeState_decided_iff.mp hdecided
  unfold judgeCleanDeparture at hjudged
  split at hjudged
  next hgone =>
    have hclean : carried.1 = none := by
      cases hunclean : carried.1 with
      | none => rfl
      | some reason => simp [reportDeparted, hunclean] at hjudged
    have hback := hcarries.forall_readings (P := fun carried ↦ carried.1 = none)
      (Q := Quiet unicode target baselineRestarts) ?_ hclean
    · exact ⟨before, reading, state, hlog, hobserved, hgone, hback.2⟩
    · -- the first unclean exit is kept, so that none at the end means none before
      intro carried poll next hundecided hnext
      rcases judgeState_undecided_iff.mp hundecided with ⟨error, herror, hcarried⟩ | ⟨found, hfound, hseen⟩
      · rw [← hcarried] at hnext
        exact ⟨hnext, fun state pod hstate ↦ by simp [herror] at hstate⟩
      · unfold judgeCleanDeparture at hseen
        split at hseen
        · simp at hseen
        next pod hpod =>
          rw [← Judgement.undecided.inj hseen] at hnext
          have ⟨hcarried, hreason⟩ := Option.or_eq_none_iff.mp hnext
          refine ⟨hcarried, fun state other hstate hother ↦ ?_⟩
          rw [hfound] at hstate
          cases hstate
          rw [hpod] at hother
          exact Option.some.inj hother ▸ hreason
  · simp at hjudged

theorem judgePeerConvergence_known {departure : Departure} {poll : Poll} {state : DomainState}
    {carried next : PeerReading × Option String}
    (h : judgePeerConvergence departure carried poll state = .undecided next)
    (hkept : KnownPath carried.1.configPath) : KnownPath next.1.configPath := by
  unfold judgePeerConvergence at h
  split at h
  · simp at h
  · cases hpod : state.daemons.get? departure.observer with
    | none =>
      simp only [hpod] at h
      split at h
      · simp at h
      · rwa [← Judgement.undecided.inj h]
    | some pod =>
      simp only [hpod] at h
      split at h
      · simp at h
      next hread =>
        split at h
        · simp at h
        · rw [← Judgement.undecided.inj h]
          exact (readPeerView_ok hkept hread).1

/-- A convergence at which the observer has a daemon was reported by it then and there. -/
theorem judgePeerConvergence_decided {departure : Departure} {poll : Poll} {state : DomainState}
    {carried : PeerReading × Option String}
    (h : judgePeerConvergence departure carried poll state = .decided (.ok ()))
    (hkept : KnownPath carried.1.configPath) :
    state.daemons.get? departure.target = none ∧ survivorCollapse state departure.target = none ∧
      ∀ pod, state.daemons.get? departure.observer = some pod → ∃ connection,
        connection ≠ some "CONNECTED" ∧ Reports departure poll pod connection := by
  unfold judgePeerConvergence at h
  split at h
  · simp at h
  next hrunning =>
    have hgone : state.daemons.get? departure.target = none := by simpa using hrunning
    simp only at h
    split at h
    · simp at h
    next peer hasked =>
      split at h
      next hview =>
        refine ⟨hgone, hview.2.2, fun pod hpod ↦ ?_⟩
        rw [hpod] at hasked
        obtain ⟨connection, hreports, hconnected⟩ := (readPeerView_ok hkept hasked).2 hview.2.1
        refine ⟨connection, fun hequal ↦ ?_, hreports⟩
        simp [hconnected.mpr hequal] at hview
      · simp at h

/-- The convergence ends at a reading without a daemon on the target where all listed survivors are
ready. -/
theorem awaitPeerConvergence_returns {unicode : Unicode} {departure : Departure}
    {configPath : Option String} (hkept : KnownPath configPath) {polls : List Poll}
    {log : List BodyEvent}
    (h : (awaitPeerConvergence unicode departure configPath polls).Returns log ()) :
    ∃ (before : List Poll) (reading : Poll) (state : DomainState),
      log = before.map (.observed .peerConvergence) ++ [.observed .peerConvergence reading] ∧
        observe unicode reading = .ok (.ok state) ∧ state.daemons.get? departure.target = none ∧
        survivorCollapse state departure.target = none ∧
        ∀ pod, state.daemons.get? departure.observer = some pod → ∃ connection,
          connection ≠ some "CONNECTED" ∧ Reports departure reading pod connection := by
  obtain ⟨before, reading, _, carried, _, hcarries, hdecided, hlog⟩ :=
    returns_poll (fun carried ↦ by simp) h
  have hknown : KnownPath carried.1.configPath := by
    apply hcarries.invariant (P := fun carried ↦ KnownPath carried.1.configPath) ?_ hkept
    intro carried poll next hundecided hcarried
    rcases judgeState_undecided_iff.mp hundecided with ⟨_, _, hnext⟩ | ⟨state, _, hjudged⟩
    · rw [← hnext]
      exact hcarried
    · exact judgePeerConvergence_known hjudged hcarried
  have ⟨state, hobserved, hjudged⟩ := judgeState_decided_iff.mp hdecided
  exact ⟨before, reading, state, hlog, hobserved, judgePeerConvergence_decided hjudged hknown⟩

theorem patchClaimScope_returns {input : DepartureInput} {exclude : Option String}
    {failure : String → CheckFailure} {log : List BodyEvent}
    (h : (patchClaimScope input exclude failure).Returns log ()) : log = [.patched exclude .ok] := by
  have ⟨hlog, houtcome⟩ := returns_did.mp h
  cases hreply : input.patch exclude with
  | ok => rw [hlog, hreply]
  | failed detail => simp [hreply] at houtcome

theorem restore_returns {unicode : Unicode} {input : DepartureInput} {target : String}
    {log : List BodyEvent} (h : (restore unicode input target).Returns log ()) :
    ∃ (before : List Poll) (reading : Poll) (state : DomainState),
      log = .patched none .ok :: before.map (.observed .restore) ++ [.observed .restore reading] ∧
        observe unicode reading = .ok (.ok state) ∧ isReadyMember state target := by
  obtain ⟨_, patchLog, waitLog, hpatch, hwait, rfl⟩ := returns_bind.mp h
  obtain ⟨before, reading, _, detail, _, _, hdecided, rfl⟩ := returns_poll (fun detail ↦ by simp) hwait
  have ⟨state, hobserved, hjudged⟩ := judgeState_decided_iff.mp hdecided
  refine ⟨before, reading, state, by rw [patchClaimScope_returns hpatch]; rfl, hobserved, ?_⟩
  unfold judgeRestore at hjudged
  split at hjudged
  next hready => exact hready
  · simp at hjudged

/-- Survivors which did not collapse are ready, as far as they are listed. -/
theorem survivorCollapse_eq_none {state : DomainState} {target : String}
    (h : survivorCollapse state target = none) :
    ∀ node ∈ state.members.keys, node ≠ target → isReadyMember state node := by
  intro node hnode hother
  unfold survivorCollapse at h
  simp only [ne_eq] at h
  split at h
  · simp at h
  · split at h
    · simp at h
    next hbroken =>
      have hready := List.filter_eq_nil_iff.mp (sortedNames_eq_nil.mp (not_not.mp hbroken)) node
        (List.mem_filter.mpr ⟨hnode, by simpa using hother⟩)
      simpa using hready

/-- A node without a daemon in the state has none in the pod list. -/
theorem notOn_of_unseen {unicode : Unicode} {poll : Poll} {state : DomainState} {pods : List Pod}
    {node : String} (hstate : observe unicode poll = .ok (.ok state)) (hpods : poll.pods = .parsed pods)
    (hunseen : daemonSeen state node = none) : ∀ pod ∈ pods, pod.node ≠ "" → pod.node ≠ node := by
  intro pod hmem hnode heq
  have ⟨hrunning, hdeparting⟩ := Option.or_eq_none_iff.mp hunseen
  have hlisted (terminating : Bool) (h : decide (pod.deletionTimestamp ≠ "") = terminating) :
      node ∈ (daemonsByNode pods terminating).keys := by
    rw [daemonsByNode, OrderedMap.mem_keys_ofList]
    simp only [List.map_map, List.mem_map, List.mem_filter]
    exact ⟨pod, ⟨hmem, by simp [h, hnode]⟩, heq⟩
  have hdaemons : state.daemons = daemonsByNode pods false ∧ state.departing = daemonsByNode pods true := by
    rw [observe, hpods] at hstate
    split at hstate <;> try cases hstate
    split at hstate <;> cases hstate
    exact ⟨rfl, rfl⟩
  rw [hdaemons.1, OrderedMap.get?_eq_none_iff] at hrunning
  rw [hdaemons.2, OrderedMap.get?_eq_none_iff] at hdeparting
  by_cases hstopping : pod.deletionTimestamp ≠ ""
  · exact hdeparting (hlisted true (decide_eq_true hstopping))
  · exact hrunning (hlisted false (decide_eq_false hstopping))

/-! ## Who is asked -/

theorem pickObserver_ok {state : DomainState} {target observer : String}
    (h : pickObserver state target = .ok observer) :
    observer ∈ state.members.keys ∧ observer ≠ target := by
  unfold pickObserver at h
  simp only at h
  split at h
  · simp at h
  next found hfound =>
    obtain ⟨hmem, hpeer⟩ := List.mem_filter.mp (mem_sortedNames.mp (List.mem_of_mem_head? hfound))
    rw [← Except.ok.inj h]
    exact ⟨hmem, (decide_eq_true_eq.mp hpeer).1⟩

/-- A pair which is resolved has the indices which the domain published for it. -/
theorem resolveDeparture_ok {state : DomainState} {target observer : String} {departure : Departure}
    (h : resolveDeparture state target observer = .ok departure) :
    departure.target = target ∧ departure.observer = observer ∧
      state.indices.get? target = some departure.targetIndex ∧
      state.indices.get? observer = some departure.observerIndex ∧
      departure.targetIndex ≠ departure.observerIndex := by
  unfold resolveDeparture at h
  split at h
  next targetIndex observerIndex htarget hobserver =>
    split at h
    · simp at h
    next hdistinct =>
      rw [← Except.ok.inj h]
      exact ⟨rfl, rfl, htarget, hobserver, hdistinct⟩
  · simp at h

/-- A departure is resolved by a formation: its target and its observer are two of the members, their
indices are the published ones, and the target is served by a daemon. -/
structure Resolves (formed : DomainState) (departure : Departure) (daemon : Pod) : Prop where
  target_first : firstMember formed = .ok departure.target
  observer_mem : departure.observer ∈ formed.members.keys
  observer_ne : departure.observer ≠ departure.target
  target_index : formed.indices.get? departure.target = some departure.targetIndex
  observer_index : formed.indices.get? departure.observer = some departure.observerIndex
  index_ne : departure.targetIndex ≠ departure.observerIndex
  served : formed.daemons.get? departure.target = some daemon

theorem requestDeparture_returns {unicode : Unicode} {input : DepartureInput} {log : List BodyEvent}
    {requested : Requested} (h : (requestDeparture unicode input).Returns log requested) :
    ∃ (before : List BodyEvent) (formation : Poll) (formed : DomainState) (daemon : Pod)
        (peers : List Poll) (baseline : Poll) (state : DomainState),
      log = before ++ [.observed .formation formation] ++
          (peers.map (.observed .peerBaseline) ++ [.observed .peerBaseline baseline]) ++
            [.patched (some requested.departure.target) .ok] ∧
        Formed unicode formation formed ∧ Resolves formed requested.departure daemon ∧
        requested.baselineRestarts = restartCount daemon ∧ KnownPath requested.configPath ∧
        ReportedAt unicode requested.departure baseline state (some "CONNECTED") := by
  obtain ⟨formed, formationLog, afterFormation, hformation, hmembers, rfl⟩ := returns_bind.mp h
  have ⟨_, _, hfirst⟩ := returns_ofExcept_bind.mp hmembers
  have ⟨target, htarget, hpick⟩ := returns_ofExcept_bind.mp hfirst
  have ⟨observer, hobserver, hresolve⟩ := returns_ofExcept_bind.mp hpick
  have ⟨departure, hdeparture, hbudget⟩ := returns_ofExcept_bind.mp hresolve
  have ⟨_, _, hbaseline⟩ := returns_ofExcept_bind.mp hbudget
  obtain ⟨configPath, peerLog, afterPeer, hpeer, hdaemon, rfl⟩ := returns_bind.mp hbaseline
  have ⟨daemon, hserved, hpatch⟩ := returns_ofExcept_bind.mp hdaemon
  obtain ⟨_, patchLog, _, hpatched, hreturn, rfl⟩ := returns_bind.mp hpatch
  have ⟨hnil, hrequested⟩ := returns_pure.mp hreturn
  obtain ⟨before, formation, rfl, hformed⟩ := awaitFormation_returns hformation
  obtain ⟨hknown, peers, baseline, state, rfl, hreported⟩ := awaitPeerBaseline_returns hpeer
  have ⟨hmem, hne⟩ := pickObserver_ok hobserver
  obtain ⟨rfl, rfl, htargetIndex, hobserverIndex, hdistinct⟩ := resolveDeparture_ok hdeparture
  rw [← hrequested]
  refine ⟨before, formation, formed, daemon, peers, baseline, state, ?_, hformed,
    ⟨htarget, hmem, hne, htargetIndex, hobserverIndex, hdistinct, daemonOn_eq hserved⟩, rfl, hknown,
    hreported⟩
  rw [hnil, patchClaimScope_returns hpatched]
  simp

/-! ## The trail of a departure -/

/-- An observation, whatever it was awaited for. -/
def seen (observation : Wait × Poll) : RunEvent BodyEvent :=
  .body (.observed observation.1 observation.2)

@[simp] theorem seen_inj {observation other : Wait × Poll} :
    seen observation = seen other ↔ observation = other := by
  simp [seen, Prod.ext_iff]

@[simp] theorem seen_ne_patched {observation : Wait × Poll} {exclude : Option String}
    {reply : CommandReply} : seen observation ≠ .body (.patched exclude reply) := by
  simp [seen]

/-- What a run has behind it in which a departure was observed. -/
structure DepartureTrail (unicode : Unicode) (events : List (RunEvent BodyEvent)) where
  departure : Departure
  formed : DomainState
  daemon : Pod
  formation : Wait × Poll
  baseline : Wait × Poll
  gone : Wait × Poll
  converged : Wait × Poll
  restored : Wait × Poll
  before : List (RunEvent BodyEvent)
  waited : List (RunEvent BodyEvent)
  after : List (RunEvent BodyEvent)
  order : events = before ++ .body (.patched (some departure.target) .ok) :: waited ++
    seen gone :: after
  early : [seen formation, seen baseline] <+ before
  late : [seen converged, .body (.patched none .ok), seen restored] <+ after
  formed_at : Formed unicode formation.2 formed
  resolved : Resolves formed departure daemon
  connected : ∃ state, ReportedAt unicode departure baseline.2 state (some "CONNECTED")
  quiet : ∀ wait poll, seen (wait, poll) ∈ waited →
    Quiet unicode departure.target (restartCount daemon) poll
  stopped : ∃ state pods, observe unicode gone.2 = .ok (.ok state) ∧ gone.2.pods = .parsed pods ∧
    state.daemons.get? departure.target = none ∧ state.departing.get? departure.target = none ∧
    ∀ pod ∈ pods, pod.node ≠ "" → pod.node ≠ departure.target
  converges : ∃ state connection, connection ≠ some "CONNECTED" ∧
    ReportedAt unicode departure converged.2 state connection ∧
    state.daemons.get? departure.target = none ∧
    ∀ node ∈ formed.members.keys, node ≠ departure.target → isReadyMember state node
  rejoined : ∃ state, observe unicode restored.2 = .ok (.ok state) ∧
    isReadyMember state departure.target

/-- The last observation of a wait. -/
def IsLast (wait : Wait) (poll : Poll) (events : List (RunEvent BodyEvent)) : Prop :=
  ∃ before after, events = before ++ seen (wait, poll) :: after ∧
    ∀ other, seen (wait, other) ∉ after

theorem IsLast.mem {wait : Wait} {poll : Poll} {events : List (RunEvent BodyEvent)}
    (h : IsLast wait poll events) : seen (wait, poll) ∈ events := by
  have ⟨before, after, hevents, _⟩ := h
  simp [hevents]

/-- What has to hold of the last observations of a run: a pod list read for the departure parses, and
where the listed survivors are ready, all survivors are listed. -/
structure Conclusive (unicode : Unicode) (events : List (RunEvent BodyEvent)) : Prop where
  parses : ∀ poll state, IsLast .cleanDeparture poll events → observe unicode poll = .ok (.ok state) →
    ∃ pods, poll.pods = .parsed pods
  lists : ∀ formation formed target poll state, IsLast .formation formation events →
    Formed unicode formation formed → firstMember formed = .ok target →
    IsLast .peerConvergence poll events → observe unicode poll = .ok (.ok state) →
    state.daemons.get? target = none → survivorCollapse state target = none →
    ∀ node ∈ formed.members.keys, node ≠ target → node ∈ state.members.keys

/-! ## Runs which end PASSED -/

theorem afterRestore_passed {run : BodyRun BodyEvent} {restored : Staged BodyEvent Stop Unit}
    (hpassed : (afterRestore run restored).verdict.passed)
    (hraised : (afterRestore run restored).raised = none) :
    run.verdict.passed ∧ restored.Returns restored.log () ∧
      (afterRestore run restored).events = run.events ++ restored.log := by
  unfold afterRestore at hpassed hraised ⊢
  cases houtcome : restored.outcome with
  | ok =>
    simp only [houtcome] at hpassed ⊢
    exact ⟨hpassed, ⟨rfl, houtcome⟩, trivial⟩
  | error stop =>
    cases stop with
    | failed failure =>
      simp only [houtcome] at hpassed
      split at hpassed
      · simp [Verdict.setFailed] at hpassed
      next hfailed => exact absurd hpassed hfailed
    | raised exception => simp [houtcome] at hraised

/-- The body of a check which passes went through all its stages. -/
theorem departureBody_passed {unicode : Unicode} {input : DepartureInput} {timeout : ℕ}
    (hpassed : (departureBody unicode input timeout).verdict.passed)
    (hraised : (departureBody unicode input timeout).raised = none) :
    ∃ requestLog observeLog restoreLog requested,
      (requestDeparture unicode input).Returns requestLog requested ∧
        (observeDeparture unicode input requested).Returns observeLog () ∧
        (restore unicode input requested.departure.target).Returns restoreLog () ∧
        (departureBody unicode input timeout).events = requestLog ++ (observeLog ++ restoreLog) := by
  unfold departureBody at hpassed hraised ⊢
  cases houtcome : (requestDeparture unicode input).outcome with
  | error stop =>
    cases stop with
    | failed failure => simp [houtcome, Verdict.setFailed] at hpassed
    | raised exception => simp [houtcome] at hraised
  | ok requested =>
    simp only [houtcome] at hpassed hraised ⊢
    obtain ⟨hobserved, hrestored, hevents⟩ := afterRestore_passed hpassed hraised
    exact ⟨_, _, _, requested, ⟨rfl, houtcome⟩, BodyRun.ofStages_passed hobserved, hrestored,
      by rw [hevents]⟩

/-- The observations of a wait. -/
def observations (wait : Wait) (polls : List Poll) : List (RunEvent BodyEvent) :=
  polls.map fun poll ↦ seen (wait, poll)

theorem mem_observations {wait other : Wait} {polls : List Poll} {poll : Poll} :
    seen (other, poll) ∈ observations wait polls ↔ other = wait ∧ poll ∈ polls := by
  simp [observations, seen, and_comm, eq_comm]

/-- The stages of a run which ends PASSED, each with the observation which ended it. -/
structure PassedRun (unicode : Unicode) (events : List (RunEvent BodyEvent)) where
  departure : Departure
  formed : DomainState
  daemon : Pod
  formation : Poll
  peers : List Poll
  baseline : Poll
  waits : List Poll
  gone : Poll
  goneState : DomainState
  views : List Poll
  converged : Poll
  state : DomainState
  tries : List Poll
  restored : Poll
  first : List (RunEvent BodyEvent)
  last : List (RunEvent BodyEvent)
  order : events = first ++ seen (.formation, formation) ::
    (observations .peerBaseline peers ++ seen (.peerBaseline, baseline) ::
      .body (.patched (some departure.target) .ok) ::
      (observations .cleanDeparture waits ++ seen (.cleanDeparture, gone) ::
        (observations .peerConvergence views ++ seen (.peerConvergence, converged) ::
          .body (.patched none .ok) ::
          (observations .restore tries ++ seen (.restore, restored) :: last))))
  unseen : ∀ observation, seen observation ∉ last
  formed_at : Formed unicode formation formed
  resolved : Resolves formed departure daemon
  connected : ∃ state, ReportedAt unicode departure baseline state (some "CONNECTED")
  quiet : ∀ earlier ∈ waits, Quiet unicode departure.target (restartCount daemon) earlier
  gone_observed : observe unicode gone = .ok (.ok goneState)
  gone_unseen : daemonSeen goneState departure.target = none
  observed : observe unicode converged = .ok (.ok state)
  stopped : state.daemons.get? departure.target = none
  survives : survivorCollapse state departure.target = none
  reports : ∀ pod, state.daemons.get? departure.observer = some pod → ∃ connection,
    connection ≠ some "CONNECTED" ∧ Reports departure converged pod connection
  rejoined : ∃ state, observe unicode restored = .ok (.ok state) ∧
    isReadyMember state departure.target

theorem departureCheck_passed {unicode : Unicode} {input : CheckInput} {departure : DepartureInput}
    (hpassed : (runCheck input (departureBody unicode departure)).endsPassed) :
    Nonempty (PassedRun unicode (runCheck input (departureBody unicode departure)).events) := by
  obtain ⟨timeout, hbody, hraised, _, _, hevents⟩ := runCheck_endsPassed _ hpassed
  obtain ⟨requestLog, observeLog, restoreLog, requested, hrequest, hobserve, hrestore, hlog⟩ :=
    departureBody_passed hbody hraised
  obtain ⟨fore, formation, formed, daemon, peers, baseline, _, rfl, hformed, hresolves,
    hrestarts, hknown, hconnected⟩ := requestDeparture_returns hrequest
  obtain ⟨_, departLog, convergeLog, hdepart, hconverge, rfl⟩ := returns_bind.mp hobserve
  obtain ⟨waits, gone, goneState, rfl, hgone, hnone, hquiet⟩ := awaitCleanDeparture_returns hdepart
  obtain ⟨views, converged, state, rfl, hstate, hstopped, hsurvives, hreports⟩ :=
    awaitPeerConvergence_returns hknown hconverge
  obtain ⟨tries, restored, restoredState, rfl, hrestored, hready⟩ := restore_returns hrestore
  refine ⟨{
    departure := requested.departure, formed, daemon, formation, peers, baseline, waits, gone
    goneState, views, converged, state, tries, restored
    first := .applyDomain input.applyDomain :: .applyClaims input.applyClaims :: fore.map .body
    last := [.deleteClaims input.deleteClaims, .deleteDomain input.deleteDomain]
    order := ?_
    unseen := fun observation ↦ by simp [seen]
    formed_at := hformed
    resolved := hresolves
    connected := ⟨_, hconnected⟩
    quiet := hrestarts ▸ hquiet
    gone_observed := hgone
    gone_unseen := hnone
    observed := hstate
    stopped := hstopped
    survives := hsurvives
    reports := hreports
    rejoined := ⟨restoredState, hrestored, hready⟩ }⟩
  rw [hevents, hlog]
  simp only [observations, seen, List.map_append, List.map_cons, List.map_map, List.map_nil,
    List.append_assoc, List.cons_append, List.nil_append]
  rfl

namespace PassedRun

variable {unicode : Unicode} {events : List (RunEvent BodyEvent)} (run : PassedRun unicode events)

theorem isLast_formation : IsLast .formation run.formation events := by
  refine ⟨run.first, _, run.order, fun other hmem ↦ ?_⟩
  simp [mem_observations, run.unseen] at hmem

/-- What comes before the claim was withdrawn. -/
def before : List (RunEvent BodyEvent) :=
  run.first ++ seen (.formation, run.formation) ::
    (observations .peerBaseline run.peers ++ [seen (.peerBaseline, run.baseline)])

/-- What comes after the daemon was gone. -/
def after : List (RunEvent BodyEvent) :=
  observations .peerConvergence run.views ++ seen (.peerConvergence, run.converged) ::
    .body (.patched none .ok) ::
    (observations .restore run.tries ++ seen (.restore, run.restored) :: run.last)

theorem split : events = run.before ++ .body (.patched (some run.departure.target) .ok) ::
    observations .cleanDeparture run.waits ++ seen (.cleanDeparture, run.gone) :: run.after := by
  apply run.order.trans
  simp [before, after]

theorem isLast_gone : IsLast .cleanDeparture run.gone events := by
  refine ⟨_, run.after, run.split, fun other hmem ↦ ?_⟩
  simp [after, mem_observations, run.unseen] at hmem

theorem isLast_converged : IsLast .peerConvergence run.converged events := by
  refine ⟨run.before ++ .body (.patched (some run.departure.target) .ok) ::
    observations .cleanDeparture run.waits ++ seen (.cleanDeparture, run.gone) ::
      observations .peerConvergence run.views,
    .body (.patched none .ok) ::
      (observations .restore run.tries ++ seen (.restore, run.restored) :: run.last), ?_, ?_⟩
  · apply run.split.trans
    simp [after]
  · intro other hmem
    simp [mem_observations, run.unseen] at hmem

/-- The pod list of the reading which ended the wait for the departure parsed and showed no daemon. -/
theorem gone_listed (hconclusive : Conclusive unicode events) :
    ∃ state pods, observe unicode run.gone = .ok (.ok state) ∧ run.gone.pods = .parsed pods ∧
      state.daemons.get? run.departure.target = none ∧
      state.departing.get? run.departure.target = none ∧
      ∀ pod ∈ pods, pod.node ≠ "" → pod.node ≠ run.departure.target := by
  have ⟨pods, hpods⟩ := hconclusive.parses run.gone run.goneState run.isLast_gone run.gone_observed
  have ⟨hrunning, hdeparting⟩ := Option.or_eq_none_iff.mp run.gone_unseen
  exact ⟨run.goneState, pods, run.gone_observed, hpods, hrunning, hdeparting,
    notOn_of_unseen run.gone_observed hpods run.gone_unseen⟩

/-- The members of the formation are ready where the wait for the peers ended. -/
theorem survivors_ready (hconclusive : Conclusive unicode events) :
    ∀ node ∈ run.formed.members.keys, node ≠ run.departure.target → isReadyMember run.state node := by
  intro node hnode hother
  have hlisted := hconclusive.lists run.formation run.formed run.departure.target run.converged
    run.state run.isLast_formation run.formed_at run.resolved.target_first run.isLast_converged
    run.observed run.stopped run.survives node hnode hother
  exact survivorCollapse_eq_none run.survives node hlisted hother

/-- The observer is one of them, so that it was asked at that reading. -/
theorem observer_reported (hconclusive : Conclusive unicode events) :
    ∃ connection, connection ≠ some "CONNECTED" ∧
      ReportedAt unicode run.departure run.converged run.state connection := by
  have hready := run.survivors_ready hconclusive run.departure.observer run.resolved.observer_mem
    run.resolved.observer_ne
  have hserved := (Bool.and_eq_true_iff.mp hready).2
  cases hpod : run.state.daemons.get? run.departure.observer with
  | none => simp [hpod] at hserved
  | some pod =>
    obtain ⟨connection, hconnection, hreports⟩ := run.reports pod hpod
    exact ⟨connection, hconnection, run.observed, pod, hpod, hreports⟩

/-- The trail of a run whose last observations are conclusive. -/
theorem trail (run : PassedRun unicode events) (hconclusive : Conclusive unicode events) :
    Nonempty (DepartureTrail unicode events) := by
  have ⟨connection, hconnection, hreported⟩ := run.observer_reported hconclusive
  exact ⟨{
    departure := run.departure
    formed := run.formed
    daemon := run.daemon
    formation := (.formation, run.formation)
    baseline := (.peerBaseline, run.baseline)
    gone := (.cleanDeparture, run.gone)
    converged := (.peerConvergence, run.converged)
    restored := (.restore, run.restored)
    before := run.before
    waited := observations .cleanDeparture run.waits
    after := run.after
    order := run.split
    early := by
      have hbaseline : [seen (.peerBaseline, run.baseline)] <+
          observations .peerBaseline run.peers ++ [seen (.peerBaseline, run.baseline)] :=
        List.sublist_append_right _ _
      exact (hbaseline.cons_cons _).trans (List.sublist_append_right run.first _)
    late := by
      have hrestored : [seen (.restore, run.restored)] <+
          observations .restore run.tries ++ seen (.restore, run.restored) :: run.last :=
        (List.singleton_sublist.mpr (by simp))
      exact ((hrestored.cons_cons _).cons_cons _).trans (List.sublist_append_right _ _)
    formed_at := run.formed_at
    resolved := run.resolved
    connected := run.connected
    quiet := fun wait poll hmem ↦ run.quiet poll (mem_observations.mp hmem).2
    stopped := run.gone_listed hconclusive
    converges := ⟨run.state, connection, hconnection, hreported, run.stopped,
      run.survivors_ready hconclusive⟩
    rejoined := run.rejoined }⟩

end PassedRun

/-- A departure check which ends PASSED has a trail, where its last observations are conclusive. -/
theorem domainDeparture_trail (unicode : Unicode) (input : CheckInput) (departure : DepartureInput)
    (hconclusive : Conclusive unicode (runCheck input (departureBody unicode departure)).events)
    (hpassed : (runCheck input (departureBody unicode departure)).endsPassed) :
    Nonempty (DepartureTrail unicode (runCheck input (departureBody unicode departure)).events) := by
  have ⟨run⟩ := departureCheck_passed hpassed
  exact run.trail hconclusive

/-! ## A pair of members -/

/-- Only blanks count as space. -/
def spaces : Unicode := ⟨id, (· = ' '), fun _ ↦ true⟩

def readyPod (node : String) : Pod :=
  ⟨"daemon-" ++ node, "imex", "uid-" ++ node, "", node, [⟨"Ready", "True"⟩], []⟩

def pairDomain : Domain :=
  ⟨"domain", [⟨"a", "Ready", some 0, "c"⟩, ⟨"b", "Ready", some 1, "c"⟩]⟩

/-- The report of a ready daemon on the second node. -/
def observerReport (connections : List (String × String)) :
    Pod → String → Reading (List ReportNode) := fun _ _ ↦
  .parsed [⟨"compute-domain-daemon-0001", "READY", connections⟩]

def together : Poll :=
  ⟨.parsed pairDomain, .parsed [readyPod "a", readyPod "b"],
    observerReport [("compute-domain-daemon-0000", "CONNECTED")]⟩

def apart (pods : Reading (List Pod)) : Poll := ⟨.parsed pairDomain, pods, observerReport []⟩

def healthyAllocation : CheckInput where
  apiResources := .ok [computeDomainCrd]
  containers := .parsed [⟨["compute-domain-controller"], []⟩]
  formationTimeout := .ok 300
  applyDomain := .committed
  applyClaims := .committed
  deleteClaims := .ok
  deleteDomain := .ok

/-- A departure with these pod lists read in the two waits after the withdrawal. -/
def departureWith (departing converging : Reading (List Pod)) : DepartureInput where
  formation := [together]
  budget := .ok 60
  baseline := [together]
  patch := fun _ ↦ .ok
  departure := [apart departing]
  convergence := [apart converging]
  restore := [together]

theorem domainDeparture_trail_smooth :
    Nonempty (DepartureTrail spaces (runCheck healthyAllocation (departureBody spaces
      (departureWith (.parsed [readyPod "b"]) (.parsed [readyPod "b"])))).events) := by
  apply domainDeparture_trail spaces healthyAllocation _ ?_ (by decide)
  have hevents : (runCheck healthyAllocation (departureBody spaces
      (departureWith (.parsed [readyPod "b"]) (.parsed [readyPod "b"])))).events =
    [.applyDomain .committed, .applyClaims .committed, seen (.formation, together),
      seen (.peerBaseline, together), .body (.patched (some "a") .ok),
      seen (.cleanDeparture, apart (.parsed [readyPod "b"])),
      seen (.peerConvergence, apart (.parsed [readyPod "b"])), .body (.patched none .ok),
      seen (.restore, together), .deleteClaims .ok, .deleteDomain .ok] := rfl
  rw [hevents]
  constructor
  · intro poll state hlast _
    have hpoll : poll = apart (.parsed [readyPod "b"]) := by simpa [seen] using hlast.mem
    exact ⟨[readyPod "b"], by rw [hpoll]; rfl⟩
  · intro formation formed target poll state hformation hformed _ hlast hobserved _ _ node hnode _
    have hfirst : formation = together := by simpa [seen] using hformation.mem
    have hpoll : poll = apart (.parsed [readyPod "b"]) := by simpa [seen] using hlast.mem
    rw [hfirst] at hformed
    rw [hpoll] at hobserved
    -- both readings show the same domain
    have hmembers : formed.members = state.members := by
      rw [← Except.ok.inj (Except.ok.inj hformed.1), ← Except.ok.inj (Except.ok.inj hobserved)]
      rfl
    rwa [← hmembers]

/-- The daemon of the target, forced out. -/
def killedPod : Pod :=
  { readyPod "a" with
    deletionTimestamp := "2026-01-01T00:00:00Z"
    containerStatuses := [⟨"imex-daemon", some 0, some ⟨some 137, "OOMKilled"⟩⟩] }

/-- A pod list which does not parse ends the wait for the departure, and the daemon which is forced out
afterwards is not looked at. -/
theorem unparsable_list_ends_departure :
    (runCheck healthyAllocation (departureBody spaces
      (departureWith .unparsable (.parsed [readyPod "b", killedPod])))).endsPassed ∧
    ¬ Nonempty (DepartureTrail spaces (runCheck healthyAllocation (departureBody spaces
      (departureWith .unparsable (.parsed [readyPod "b", killedPod])))).events) := by
  refine ⟨by decide, fun ⟨trail⟩ ↦ ?_⟩
  have hevents : (runCheck healthyAllocation (departureBody spaces
      (departureWith .unparsable (.parsed [readyPod "b", killedPod])))).events =
    [.applyDomain .committed, .applyClaims .committed, seen (.formation, together),
      seen (.peerBaseline, together), .body (.patched (some "a") .ok),
      seen (.cleanDeparture, apart .unparsable),
      seen (.peerConvergence, apart (.parsed [readyPod "b", killedPod])), .body (.patched none .ok),
      seen (.restore, together), .deleteClaims .ok, .deleteDomain .ok] := rfl
  have horder := hevents.symm.trans trail.order
  simp [List.cons_eq_append_iff, seen] at horder
  -- two observations lie between the patches, and the first of them has the list which did not parse
  have hbetween : [seen trail.gone, seen trail.converged, .body (.patched none .ok)] <+
      trail.waited ++ seen trail.gone :: trail.after :=
    (((List.sublist_append_left [_, _] _).trans trail.late).cons_cons _).trans
      (List.sublist_append_right trail.waited _)
  rw [seen, horder.2.2] at hbetween
  simp [List.sublist_cons_iff, seen] at hbetween
  have ⟨_, pods, _, hpods, _⟩ := trail.stopped
  rw [hbetween.1.2] at hpods
  cases hpods

end IsvValidation.Imex
