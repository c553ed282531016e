import IsvValidation.K8s.NetworkPolicy

/-!
# What a passed check of network policies has seen

In a run which passes, every path which is denied has stopped connecting twice: at the end of its polls and
at the last probe. A probe which does not run does not connect either, so the run has seen the denial only
if one of the two probes ran.
-/

namespace IsvValidation.K8s.NetworkPolicy

open Check Library Validation

/-! ## Traces -/

section Traces

variable {World : Type}

/-- What an exchange shows of a path. -/
def probed : (call : Call) → Reply call → Option (Path × Outcome)
  | .probe path _ _, outcome => some (path, outcome)
  | _, _ => none

/-- The manifest an exchange applies. -/
def applied : (call : Call) → Reply call → Option Manifest
  | .apply manifest, .ok () => some manifest
  | _, _ => none

def probes (trace : List (Exchange World Reply)) : List (Path × Outcome) :=
  trace.filterMap fun exchange ↦ probed exchange.op exchange.reply

def manifests (trace : List (Exchange World Reply)) : List Manifest :=
  trace.filterMap fun exchange ↦ applied exchange.op exchange.reply

/-- The outcomes on a path, in order. -/
def outcomesOn (path : Path) (seen : List (Path × Outcome)) : List Outcome :=
  (seen.filter fun probe ↦ probe.1 = path).map Prod.snd

variable (first second : List (Exchange World Reply)) (seen others : List (Path × Outcome)) (path : Path)

@[simp] theorem probes_append : probes (first ++ second) = probes first ++ probes second :=
  List.filterMap_append

@[simp] theorem manifests_append : manifests (first ++ second) = manifests first ++ manifests second :=
  List.filterMap_append

@[simp] theorem outcomesOn_append : outcomesOn path (seen ++ others) = outcomesOn path seen ++ outcomesOn path others := by
  rw [outcomesOn, List.filter_append, List.map_append]
  rfl

variable {seen path}

theorem mem_outcomesOn {outcome : Outcome} : outcome ∈ outcomesOn path seen ↔ (path, outcome) ∈ seen := by
  rw [outcomesOn, List.mem_map]
  constructor
  · rintro ⟨probe, hprobe, rfl⟩
    rw [List.mem_filter, decide_eq_true_eq] at hprobe
    exact hprobe.2 ▸ hprobe.1
  · intro h
    exact ⟨(path, outcome), List.mem_filter.mpr ⟨h, decide_eq_true rfl⟩, rfl⟩

theorem outcomesOn_eq_nil (h : ∀ probe ∈ seen, probe.1 ≠ path) : outcomesOn path seen = [] := by
  rw [outcomesOn, List.map_eq_nil_iff, List.filter_eq_nil_iff]
  intro probe hprobe
  simpa using h probe hprobe

end Traces

/-! ## Parts of a run -/

section Parts

variable {World : Type} {step : World → (call : Call) → Reply call → World → Prop} {world last : World}
  {trace : List (Exchange World Reply)} {check : Check}

theorem applyManifest_ok {manifest : Manifest}
    (h : Execution step world (applyManifest manifest) trace last (.ok ())) :
    probes trace = [] ∧ manifests trace = [manifest] := by
  rw [applyManifest, Execution.call_iff] at h
  obtain ⟨reply, middle, rest, -, rfl, hrest⟩ := h
  rw [Execution.ofExcept_iff] at hrest
  obtain ⟨rfl, -, rfl⟩ := hrest
  exact ⟨rfl, rfl⟩

theorem failIf_ok {condition : Bool} {message : String}
    (h : Execution step world (failIf condition message) trace last (.ok ())) : condition = false ∧ trace = [] := by
  rw [failIf] at h
  cases condition with
  | false => exact ⟨rfl, (Execution.done_iff.mp h).1⟩
  | true => cases h

theorem waitReady_ok (h : Execution step world check.waitReady trace last (.ok ())) :
    probes trace = [] ∧ manifests trace = [] := by
  rw [waitReady, Execution.call_iff] at h
  obtain ⟨reply, middle, rest, -, rfl, hrest⟩ := h
  rw [(failIf_ok hrest).2]
  exact ⟨rfl, rfl⟩

theorem getPodIps_ok {pod : String} {ips : List String}
    (h : Execution step world (check.getPodIps pod) trace last (.ok ips)) :
    probes trace = [] ∧ manifests trace = [] := by
  rw [getPodIps, Execution.call_iff] at h
  obtain ⟨reply, middle, rest, -, rfl, hrest⟩ := h
  cases reply with
  | error e =>
    rw [(Execution.done_iff.mp hrest).1]
    exact ⟨rfl, rfl⟩
  | ok entries =>
    rw [(Execution.done_iff.mp hrest).1]
    exact ⟨rfl, rfl⟩

theorem probe_ok {path : Path} {reached : Bool}
    (h : Execution step world (check.probe path) trace last (.ok reached)) :
    ∃ outcome, probes trace = [(path, outcome)] ∧ manifests trace = [] ∧
      (reached = true ↔ outcome = .connected) := by
  rw [probe, Execution.call_iff] at h
  obtain ⟨outcome, middle, rest, -, rfl, hrest⟩ := h
  rw [Execution.done_iff] at hrest
  obtain ⟨rfl, -, hreached⟩ := hrest
  rw [Except.ok.injEq] at hreached
  exact ⟨outcome, rfl, rfl, by rw [hreached, decide_eq_true_eq]⟩

/-- Where the baseline holds, every probe has connected. -/
theorem baseline_ok {client target : String} {ips : List String}
    (h : Execution step world (check.baseline client target ips) trace last (.ok ())) :
    ∀ probe ∈ probes trace, probe.2 = .connected := by
  induction ips generalizing world trace with
  | nil =>
    rw [baseline, Program.pure_eq, Execution.done_iff] at h
    rw [h.1]
    exact fun probe hprobe ↦ absurd hprobe List.not_mem_nil
  | cons ip rest ih =>
    rw [baseline, Program.bind_eq, Execution.bind_ok_iff] at h
    obtain ⟨first, reached, middle, second, rfl, hprobe, h⟩ := h
    rw [Program.bind_eq, Execution.bind_ok_iff] at h
    obtain ⟨third, _, after, fourth, rfl, hfail, hrest⟩ := h
    obtain ⟨outcome, hseen, -, hreached⟩ := probe_ok hprobe
    obtain ⟨hok, rfl⟩ := failIf_ok hfail
    rw [Bool.not_eq_false'] at hok
    rw [probes_append, List.nil_append, hseen, List.singleton_append, List.forall_mem_cons]
    exact ⟨hreached.mp hok, ih hrest⟩

/-- A path which stops connecting has connected until it was probed for the last time. -/
theorem waitForPolicyEnforcement_ok {path : Path} {rounds : ℕ}
    (h : Execution step world (check.waitForPolicyEnforcement path rounds) trace last (.ok true)) :
    ∃ count outcome, outcome ≠ .connected ∧
      probes trace = List.replicate count (path, .connected) ++ [(path, outcome)] := by
  induction rounds generalizing world trace with
  | zero =>
    rw [waitForPolicyEnforcement, Program.pure_eq, Execution.done_iff] at h
    cases h.2.2
  | succ rounds ih =>
    rw [waitForPolicyEnforcement, Program.bind_eq, Execution.bind_ok_iff] at h
    obtain ⟨first, reached, middle, second, rfl, hprobe, h⟩ := h
    obtain ⟨outcome, hseen, -, hreached⟩ := probe_ok hprobe
    rw [probes_append, hseen]
    cases reached with
    | false =>
      rw [if_pos (by decide), Program.pure_eq, Execution.done_iff] at h
      obtain ⟨rfl, -⟩ := h
      refine ⟨0, outcome, fun heq ↦ ?_, rfl⟩
      cases hreached.mpr heq
    | true =>
      rw [if_neg (by decide)] at h
      obtain ⟨count, other, hne, hrest⟩ := ih h
      refine ⟨count + 1, other, hne, ?_⟩
      rw [hrest, hreached.mp rfl, List.replicate_succ]
      rfl

theorem outcomesOn_wait {path other : Path} {count : ℕ} {outcome : Outcome} :
    outcomesOn other (List.replicate count (path, .connected) ++ [(path, outcome)]) =
      if path = other then List.replicate count .connected ++ [outcome] else [] := by
  by_cases hpath : path = other
  · rw [if_pos hpath, outcomesOn, List.filter_eq_self.mpr]
    · simp
    · intro probe hprobe
      rw [List.mem_append, List.mem_replicate, List.mem_singleton] at hprobe
      rcases hprobe with ⟨-, rfl⟩ | rfl <;> simp [hpath]
  · rw [if_neg hpath]
    apply outcomesOn_eq_nil
    intro probe hprobe
    rw [List.mem_append, List.mem_replicate, List.mem_singleton] at hprobe
    rcases hprobe with ⟨-, rfl⟩ | rfl <;> exact hpath

/-- Every path which is polled ends with a probe that does not connect. -/
theorem settle_ok {paths : List Path} (hnodup : paths.Nodup)
    (h : Execution step world (check.settle paths) trace last (.ok ())) :
    (∀ path ∈ paths, ∃ count outcome, outcome ≠ .connected ∧
      outcomesOn path (probes trace) = List.replicate count .connected ++ [outcome]) ∧
    ∀ probe ∈ probes trace, probe.1 ∈ paths := by
  induction paths generalizing world trace with
  | nil =>
    rw [settle, Program.pure_eq, Execution.done_iff] at h
    rw [h.1]
    exact ⟨fun path hpath ↦ absurd hpath List.not_mem_nil, fun probe hprobe ↦ absurd hprobe List.not_mem_nil⟩
  | cons path rest ih =>
    rw [List.nodup_cons] at hnodup
    rw [settle, Execution.call_iff] at h
    obtain ⟨rounds, middle, after, -, rfl, h⟩ := h
    rw [Program.bind_eq, Execution.bind_ok_iff] at h
    obtain ⟨first, enforced, between, second, rfl, hwait, h⟩ := h
    rw [Program.bind_eq, Execution.bind_ok_iff] at h
    obtain ⟨third, _, next, fourth, rfl, hfail, hrest⟩ := h
    obtain ⟨hok, rfl⟩ := failIf_ok hfail
    rw [Bool.not_eq_false'] at hok
    subst hok
    obtain ⟨count, outcome, hne, hseen⟩ := waitForPolicyEnforcement_ok hwait
    obtain ⟨hothers, honly⟩ := ih hnodup.2 hrest
    change (∀ other ∈ path :: rest, ∃ count outcome, outcome ≠ .connected ∧
      outcomesOn other (probes (first ++ ([] ++ fourth))) = List.replicate count .connected ++ [outcome]) ∧
      ∀ probe ∈ probes (first ++ ([] ++ fourth)), probe.1 ∈ path :: rest
    rw [List.nil_append, probes_append, hseen]
    constructor
    · intro other hother
      rw [outcomesOn_append, outcomesOn_wait]
      rcases List.mem_cons.mp hother with rfl | hmem
      · have hnothing : outcomesOn other (probes fourth) = [] :=
          outcomesOn_eq_nil fun probe hprobe heq ↦ hnodup.1 (heq ▸ honly probe hprobe)
        exact ⟨count, outcome, hne, by rw [if_pos rfl, hnothing, List.append_nil]⟩
      · have hpath : path ≠ other := fun heq ↦ hnodup.1 (heq ▸ hmem)
        rw [if_neg hpath, List.nil_append]
        exact hothers other hmem
    · intro probe hprobe
      rw [List.mem_append, List.mem_append, List.mem_replicate, List.mem_singleton] at hprobe
      rcases hprobe with (⟨-, rfl⟩ | rfl) | hprobe
      · exact List.mem_cons_self
      · exact List.mem_cons_self
      · exact List.mem_cons_of_mem _ (honly probe hprobe)

/-! ## The last probes -/

/-- The paths which are denied for a family of the server. -/
def deniedPaths (check : Check) (covered : Covered) : List Path :=
  ingressPath covered.serverIp :: if check.testEgress then (covered.otherIp.map egressPath).toList else []

theorem checkEgress_ok {covered : Covered} {state result : Report × Bool}
    (h : Execution step world (check.checkEgress covered state) trace last (.ok result)) (hok : result.2 = false) :
    state.2 = false ∧ (probes trace).map Prod.fst = (deniedPaths check covered).tail ∧
      ∀ probe ∈ probes trace, probe.2 ≠ .connected := by
  rw [checkEgress] at h
  cases htest : check.testEgress with
  | false =>
    rw [htest, if_neg (by decide), Program.pure_eq, Execution.done_iff] at h
    obtain ⟨rfl, -, hresult⟩ := h
    cases hresult
    exact ⟨hok, by simp [deniedPaths, htest, probes], by simp [probes]⟩
  | true =>
    rw [htest, if_pos rfl] at h
    cases hother : covered.otherIp with
    | none =>
      rw [hother, Program.pure_eq, Execution.done_iff] at h
      obtain ⟨rfl, -, hresult⟩ := h
      cases hresult
      exact ⟨hok, by simp [deniedPaths, htest, hother, probes], by simp [probes]⟩
    | some ip =>
      simp only [hother] at h
      rw [Program.bind_eq, Execution.bind_ok_iff] at h
      obtain ⟨first, reached, middle, second, rfl, hprobe, h⟩ := h
      obtain ⟨outcome, hseen, -, hreached⟩ := probe_ok hprobe
      rw [Program.pure_eq, Execution.done_iff] at h
      obtain ⟨rfl, -, hresult⟩ := h
      cases hresult
      rw [reportProbe, Bool.or_eq_false_iff, Bool.not_eq_false', beq_iff_eq] at hok
      have hne : outcome ≠ .connected := fun heq ↦ by
        rw [hreached.mpr heq] at hok
        cases hok.2
      rw [List.append_nil, hseen]
      exact ⟨hok.1, by simp [deniedPaths, htest, hother], by simpa using hne⟩

/-- The last probes of a family, where each was as expected. -/
theorem checkFamily_ok {covered : Covered} {state result : Report × Bool}
    (h : Execution step world (check.checkFamily covered state) trace last (.ok result)) (hok : result.2 = false) :
    state.2 = false ∧ ∃ denials, probes trace = (allowPath covered.serverIp, .connected) :: denials ∧
      denials.map Prod.fst = deniedPaths check covered ∧ ∀ probe ∈ denials, probe.2 ≠ .connected := by
  rw [checkFamily, Program.bind_eq, Execution.bind_ok_iff] at h
  obtain ⟨first, allowed, middle, second, rfl, hallow, h⟩ := h
  rw [Program.bind_eq, Execution.bind_ok_iff] at h
  obtain ⟨third, denied, after, fourth, rfl, hdeny, h⟩ := h
  obtain ⟨outcome, hseen, -, hreached⟩ := probe_ok hallow
  obtain ⟨other, hseen', -, hreached'⟩ := probe_ok hdeny
  obtain ⟨hstate, hpaths, hdenied⟩ := checkEgress_ok h hok
  rw [reportProbe, reportProbe, Bool.or_eq_false_iff, Bool.or_eq_false_iff, Bool.not_eq_false', beq_iff_eq,
    Bool.not_eq_false', beq_iff_eq] at hstate
  have hne : other ≠ .connected := fun heq ↦ by
    rw [hreached'.mpr heq] at hstate
    cases hstate.2
  refine ⟨hstate.1.1, (ingressPath covered.serverIp, other) :: probes fourth, ?_, ?_, ?_⟩
  · rw [probes_append, probes_append, hseen, hseen', hreached.mp hstate.1.2]
    rfl
  · rw [List.map_cons, hpaths]
    rfl
  · rw [List.forall_mem_cons]
    exact ⟨hne, hdenied⟩

/-- The last probes of all families. -/
theorem checkFamilies_ok {families : List Covered} {state result : Report × Bool}
    (h : Execution step world (check.checkFamilies families state) trace last (.ok result))
    (hok : result.2 = false) :
    state.2 = false ∧ (∀ covered ∈ families, (allowPath covered.serverIp, .connected) ∈ probes trace) ∧
      ∃ denials, denials.map Prod.fst = families.flatMap (deniedPaths check) ∧
        (∀ probe ∈ denials, probe.2 ≠ .connected) ∧
        (∀ probe ∈ probes trace, probe.2 ≠ .connected → probe ∈ denials) ∧
        ∀ path, (∀ ip, path ≠ allowPath ip) → outcomesOn path (probes trace) = outcomesOn path denials := by
  induction families generalizing world trace state with
  | nil =>
    rw [checkFamilies, Program.pure_eq, Execution.done_iff] at h
    obtain ⟨rfl, -, hresult⟩ := h
    cases hresult
    exact ⟨hok, by simp, [], rfl, by simp, by simp [probes], fun path _ ↦ rfl⟩
  | cons covered rest ih =>
    rw [checkFamilies, Program.bind_eq, Execution.bind_ok_iff] at h
    obtain ⟨first, between, middle, second, rfl, hfirst, hrest⟩ := h
    obtain ⟨hbetween, hallow, denials, hpaths, hdenied, honly, hsame⟩ := ih hrest
    obtain ⟨hstate, here, hseen, hpaths', hdenied'⟩ := checkFamily_ok hfirst hbetween
    rw [probes_append, hseen]
    refine ⟨hstate, ?_, here ++ denials, ?_, ?_, ?_, ?_⟩
    · rw [List.forall_mem_cons]
      refine ⟨by simp, fun other hother ↦ ?_⟩
      exact List.mem_append_right _ (hallow other hother)
    · rw [List.map_append, hpaths, hpaths', List.flatMap_cons]
    · intro probe hprobe
      rcases List.mem_append.mp hprobe with hmem | hmem
      · exact hdenied' probe hmem
      · exact hdenied probe hmem
    · intro probe hprobe hne
      rw [List.mem_append, List.mem_cons] at hprobe
      rcases hprobe with (rfl | hmem) | hmem
      · exact absurd rfl hne
      · exact List.mem_append_left _ hmem
      · exact List.mem_append_right _ (honly probe hmem hne)
    · intro path hpath
      rw [outcomesOn_append, outcomesOn_append, hsame path hpath]
      have hskip : outcomesOn path ((allowPath covered.serverIp, .connected) :: here) = outcomesOn path here := by
        rw [outcomesOn, List.filter_cons_of_neg (by simpa using (hpath covered.serverIp).symm)]
        rfl
      rw [hskip]

/-! ## A run which passes -/

/-- The paths which are denied have been probed twice without connecting, all others have connected. -/
structure Settled (check : Check) (server other : List String) (before after : List (Path × Outcome)) :
    Prop where
  connected : ∀ probe ∈ before, probe.2 = .connected
  allowed : ∀ covered ∈ check.families server other, (allowPath covered.serverIp, .connected) ∈ after
  denied : ∀ covered ∈ check.families server other, ∀ path ∈ deniedPaths check covered,
    ∃ count first second, outcomesOn path after = List.replicate count .connected ++ [first, second] ∧
      first ≠ .connected ∧ second ≠ .connected
  only : ∀ probe ∈ after, probe.2 ≠ .connected → probe.1 ∈ check.denyProbes server other

theorem baselines_ok {server other : List String}
    (h : Execution step world (check.baselines server other) trace last (.ok ())) :
    ∀ probe ∈ probes trace, probe.2 = .connected := by
  rw [baselines, Program.bind_eq, Execution.bind_ok_iff] at h
  obtain ⟨first, _, middle, second, rfl, hfirst, h⟩ := h
  rw [Program.bind_eq, Execution.bind_ok_iff] at h
  obtain ⟨third, _, after, fourth, rfl, hsecond, h⟩ := h
  have hlast : ∀ probe ∈ probes fourth, probe.2 = .connected := by
    cases htest : check.testEgress with
    | false =>
      rw [htest, if_neg (by decide), Program.pure_eq, Execution.done_iff] at h
      rw [h.1]
      exact fun probe hprobe ↦ absurd hprobe List.not_mem_nil
    | true =>
      rw [htest, if_pos rfl] at h
      exact baseline_ok h
  intro probe hprobe
  rw [probes_append, probes_append, List.mem_append, List.mem_append] at hprobe
  rcases hprobe with hprobe | hprobe | hprobe
  · exact baseline_ok hfirst probe hprobe
  · exact baseline_ok hsecond probe hprobe
  · exact hlast probe hprobe

theorem applyPolicies_ok (h : Execution step world check.applyPolicies trace last (.ok ())) :
    probes trace = [] ∧ .ingress ∈ manifests trace ∧ (check.testEgress = true → .egress ∈ manifests trace) := by
  rw [applyPolicies, Program.bind_eq, Execution.bind_ok_iff] at h
  obtain ⟨first, _, middle, second, rfl, hingress, h⟩ := h
  obtain ⟨hprobes, hmanifests⟩ := applyManifest_ok hingress
  rw [probes_append, manifests_append, hprobes, hmanifests]
  cases htest : check.testEgress with
  | false =>
    rw [htest, if_neg (by decide), Program.pure_eq, Execution.done_iff] at h
    rw [h.1]
    exact ⟨rfl, List.mem_cons_self, fun hyes ↦ by cases hyes⟩
  | true =>
    rw [htest, if_pos rfl] at h
    obtain ⟨hprobes', hmanifests'⟩ := applyManifest_ok h
    rw [hprobes', hmanifests']
    exact ⟨rfl, List.mem_cons_self, fun _ ↦ List.mem_cons_of_mem _ List.mem_cons_self⟩

end Parts

/-! ## Paths -/

section Paths

variable {check : Check} {server other : List String}

theorem family_of_head {family : Family} {ips : List String} {ip : String}
    (h : (check.ofFamily family ips).head? = some ip) : check.family ip = some family := by
  have hmem := List.mem_of_mem_head? h
  exact of_decide_eq_true (List.mem_filter.mp hmem).2

theorem mem_families {covered : Covered} : covered ∈ check.families server other ↔
    (check.ofFamily covered.family server).head? = some covered.serverIp ∧
      (check.ofFamily covered.family other).head? = covered.otherIp := by
  rw [families, List.mem_filterMap]
  constructor
  · rintro ⟨family, -, h⟩
    rw [Option.map_eq_some_iff] at h
    obtain ⟨ip, hip, rfl⟩ := h
    exact ⟨hip, rfl⟩
  · rintro ⟨hserver, hother⟩
    refine ⟨covered.family, by cases covered.family <;> simp, ?_⟩
    rw [hserver, hother]
    rfl

theorem ingressPath_mem {ip : String} : ingressPath ip ∈ check.denyProbes server other ↔
    ∃ family, (check.ofFamily family server).head? = some ip := by
  constructor
  · intro h
    rw [denyProbes, List.mem_append, List.mem_append] at h
    rcases h with (h | h) | h
    · exact ⟨.ipv4, by simpa [ingressPath, eq_comm] using h⟩
    · exact ⟨.ipv6, by simpa [ingressPath, eq_comm] using h⟩
    · split at h <;> simp [ingressPath, egressPath] at h
  · rintro ⟨family, hfamily⟩
    rw [denyProbes]
    cases family with
    | ipv4 => simp [hfamily]
    | ipv6 => simp [hfamily]

theorem egressPath_mem {ip : String} : egressPath ip ∈ check.denyProbes server other ↔
    check.testEgress = true ∧ ∃ family, (check.ofFamily family other).head? = some ip := by
  constructor
  · intro h
    rw [denyProbes, List.mem_append, List.mem_append] at h
    rcases h with (h | h) | h
    · simp [ingressPath, egressPath] at h
    · simp [ingressPath, egressPath] at h
    · cases htest : check.testEgress with
      | false => simp [htest] at h
      | true =>
        rw [htest, if_pos rfl, List.mem_append] at h
        rcases h with h | h
        · exact ⟨rfl, .ipv4, by simpa [egressPath, eq_comm] using h⟩
        · exact ⟨rfl, .ipv6, by simpa [egressPath, eq_comm] using h⟩
  · rintro ⟨htest, family, hfamily⟩
    rw [denyProbes]
    cases family with
    | ipv4 => simp [hfamily, htest]
    | ipv6 => simp [hfamily, htest]

/-- The first addresses of the two families lead to two paths. -/
theorem nodup_heads {toPath : String → Path} (hpath : Function.Injective toPath) (ips : List String) :
    (((check.ofFamily .ipv4 ips).head?.map toPath).toList ++
      ((check.ofFamily .ipv6 ips).head?.map toPath).toList).Nodup := by
  cases h4 : (check.ofFamily .ipv4 ips).head? with
  | none => cases (check.ofFamily .ipv6 ips).head? <;> simp
  | some first =>
    cases h6 : (check.ofFamily .ipv6 ips).head? with
    | none => simp
    | some second =>
      have hne : first ≠ second := by
        rintro rfl
        have hfamily := (family_of_head h4).symm.trans (family_of_head h6)
        cases hfamily
      simpa using fun heq ↦ hne (hpath heq)

theorem nodup_denyProbes : (check.denyProbes server other).Nodup := by
  have hingress : Function.Injective ingressPath := fun first second heq ↦ congrArg Path.host heq
  have hegress : Function.Injective egressPath := fun first second heq ↦ congrArg Path.host heq
  rw [denyProbes, List.nodup_append]
  refine ⟨nodup_heads hingress server, ?_, ?_⟩
  · split
    · exact nodup_heads hegress other
    · exact List.nodup_nil
  · rintro path hpath path' hpath' rfl
    have htarget : path.target = "server" := by
      rw [List.mem_append, Option.mem_toList, Option.mem_toList, Option.map_eq_some_iff,
        Option.map_eq_some_iff] at hpath
      rcases hpath with ⟨ip, -, rfl⟩ | ⟨ip, -, rfl⟩ <;> rfl
    split at hpath'
    · rw [List.mem_append, Option.mem_toList, Option.mem_toList, Option.map_eq_some_iff,
        Option.map_eq_some_iff] at hpath'
      rcases hpath' with ⟨ip, -, rfl⟩ | ⟨ip, -, rfl⟩ <;> simp [egressPath] at htarget
    · cases hpath'

theorem mem_deniedPaths {covered : Covered} {path : Path} : path ∈ deniedPaths check covered ↔
    path = ingressPath covered.serverIp ∨
      check.testEgress = true ∧ ∃ ip, covered.otherIp = some ip ∧ egressPath ip = path := by
  rw [deniedPaths, List.mem_cons]
  cases check.testEgress with
  | false => simp
  | true => rw [if_pos rfl, Option.mem_toList, Option.map_eq_some_iff, eq_self, true_and]

theorem deniedPaths_subset {covered : Covered} (h : covered ∈ check.families server other) :
    ∀ path ∈ deniedPaths check covered, path ∈ check.denyProbes server other := by
  obtain ⟨hserver, hother⟩ := mem_families.mp h
  intro path hpath
  rcases mem_deniedPaths.mp hpath with rfl | ⟨htest, ip, hip, rfl⟩
  · exact ingressPath_mem.mpr ⟨covered.family, hserver⟩
  · exact egressPath_mem.mpr ⟨htest, covered.family, hother.trans hip⟩

/-- Two families have no denied path in common. -/
theorem family_eq_of_denied {first second : Covered} {path : Path} (hfirst : first ∈ check.families server other)
    (hsecond : second ∈ check.families server other) (h : path ∈ deniedPaths check first)
    (h' : path ∈ deniedPaths check second) : first.family = second.family := by
  rw [mem_families] at hfirst hsecond
  rw [mem_deniedPaths] at h h'
  rcases h with rfl | ⟨-, ip, hip, rfl⟩
  · rcases h' with heq | ⟨-, ip, -, heq⟩
    · have hhost : first.serverIp = second.serverIp := congrArg Path.host heq
      rw [hhost] at hfirst
      have hfamily := (family_of_head hfirst.1).symm.trans (family_of_head hsecond.1)
      exact Option.some.inj hfamily
    · simp [ingressPath, egressPath] at heq
  · rcases h' with heq | ⟨-, ip', hip', heq⟩
    · simp [ingressPath, egressPath] at heq
    · have hhost : ip' = ip := congrArg Path.host heq
      rw [hhost] at hip'
      have hfamily := (family_of_head (hfirst.2.trans hip)).symm.trans (family_of_head (hsecond.2.trans hip'))
      exact Option.some.inj hfamily

theorem nodup_deniedPaths : ((check.families server other).flatMap (deniedPaths check)).Nodup := by
  rw [List.nodup_flatMap]
  constructor
  · intro covered _
    rw [deniedPaths]
    cases covered.otherIp <;> cases check.testEgress <;> simp [ingressPath, egressPath]
  · have hfamilies : (check.families server other).Pairwise fun first second ↦ first.family ≠ second.family := by
      rw [families, List.pairwise_filterMap]
      have hboth : [Family.ipv4, Family.ipv6].Pairwise (· ≠ ·) := by decide
      refine hboth.imp fun hne covered hcovered covered' hcovered' ↦ ?_
      rw [Option.map_eq_some_iff] at hcovered hcovered'
      obtain ⟨ip, -, rfl⟩ := hcovered
      obtain ⟨ip', -, rfl⟩ := hcovered'
      exact hne
    refine hfamilies.imp_of_mem fun hfirst hsecond hne path hpath hpath' ↦ ?_
    exact hne (family_eq_of_denied hfirst hsecond hpath hpath')

theorem ne_allowPath {covered : Covered} {path : Path} (h : path ∈ deniedPaths check covered) (ip : String) :
    path ≠ allowPath ip := by
  rintro rfl
  rw [mem_deniedPaths] at h
  rcases h with h | ⟨-, other, -, h⟩
  · simp [allowPath, ingressPath] at h
  · simp [allowPath, egressPath] at h

end Paths

/-! ## The last two probes -/

section Passed

variable {World : Type} {step : World → (call : Call) → Reply call → World → Prop} {world last : World}
  {trace : List (Exchange World Reply)} {check : Check} {server other : List String}

/-- Among pairs with distinct paths, a path has one outcome. -/
theorem outcomesOn_of_nodup {seen : List (Path × Outcome)} {path : Path} (hnodup : (seen.map Prod.fst).Nodup)
    (h : path ∈ seen.map Prod.fst) : ∃ outcome, outcomesOn path seen = [outcome] ∧ (path, outcome) ∈ seen := by
  induction seen with
  | nil => cases h
  | cons probe rest ih =>
    rw [List.map_cons, List.nodup_cons] at hnodup
    by_cases hpath : probe.1 = path
    · have hrest : outcomesOn path rest = [] :=
        outcomesOn_eq_nil fun later hlater heq ↦ hnodup.1 (hpath ▸ heq ▸ List.mem_map_of_mem hlater)
      refine ⟨probe.2, ?_, hpath ▸ List.mem_cons_self⟩
      rw [outcomesOn, List.filter_cons_of_pos (by simpa using hpath), List.map_cons]
      exact congrArg _ hrest
    · have hmem : path ∈ rest.map Prod.fst := List.mem_of_ne_of_mem (Ne.symm hpath) h
      obtain ⟨outcome, hout, hin⟩ := ih hnodup.2 hmem
      refine ⟨outcome, ?_, List.mem_cons_of_mem _ hin⟩
      rw [outcomesOn, List.filter_cons_of_neg (by simpa using hpath)]
      exact hout

/-- What a run has seen when it passes with the addresses of the servers. -/
theorem verify_ok {report : Report} (h : Execution step world (check.verify server other) trace last (.ok report))
    (hpassed : report.passed = true) : server ≠ [] ∧ ∃ before after, trace = before ++ after ∧
      .ingress ∈ manifests before ∧ (check.testEgress = true → .egress ∈ manifests before) ∧
      Settled check server other (probes before) (probes after) := by
  rw [verify, Program.bind_eq, Execution.bind_ok_iff] at h
  obtain ⟨guard, _, world₁, trace₁, rfl, hguard, h⟩ := h
  rw [Program.bind_eq, Execution.bind_ok_iff] at h
  obtain ⟨guard', _, world₂, trace₂, rfl, hguard', h⟩ := h
  rw [Program.bind_eq, Execution.bind_ok_iff] at h
  obtain ⟨based, _, world₃, trace₃, rfl, hbased, h⟩ := h
  rw [Program.bind_eq, Execution.bind_ok_iff] at h
  obtain ⟨policed, _, world₄, trace₄, rfl, hpoliced, h⟩ := h
  rw [Program.bind_eq, Execution.bind_ok_iff] at h
  obtain ⟨polled, _, world₅, trace₅, rfl, hpolled, h⟩ := h
  rw [Program.bind_eq, Execution.bind_ok_iff] at h
  obtain ⟨checked, state, world₆, trace₆, rfl, hchecked, h⟩ := h
  rw [Program.pure_eq, Execution.done_iff] at h
  obtain ⟨rfl, -, hreport⟩ := h
  rw [Except.ok.injEq] at hreport
  obtain ⟨hserver, rfl⟩ := failIf_ok hguard
  obtain ⟨-, rfl⟩ := failIf_ok hguard'
  have hstate : state.2 = false := by
    by_contra hfailed
    rw [hreport, finish, if_pos (by simpa using hfailed)] at hpassed
    cases hpassed
  obtain ⟨hnothing, hingress, hegress⟩ := applyPolicies_ok hpoliced
  obtain ⟨hsettled, hpaths⟩ := settle_ok nodup_denyProbes hpolled
  obtain ⟨-, hallowed, denials, hfst, hdenied, honly, hsame⟩ := checkFamilies_ok hchecked hstate
  refine ⟨of_decide_eq_false hserver, based ++ policed, polled ++ checked, by simp, by simp [hingress],
    fun htest ↦ by simp [hegress htest], ?_⟩
  constructor
  · rw [probes_append, hnothing, List.append_nil]
    exact baselines_ok hbased
  · intro covered hcovered
    rw [probes_append]
    exact List.mem_append_right _ (hallowed covered hcovered)
  · intro covered hcovered path hpath
    obtain ⟨count, first, hfirst, hpolls⟩ := hsettled path (deniedPaths_subset hcovered path hpath)
    have hmem : path ∈ denials.map Prod.fst := hfst ▸ List.mem_flatMap.mpr ⟨covered, hcovered, hpath⟩
    obtain ⟨second, hsecond, hin⟩ := outcomesOn_of_nodup (hfst ▸ nodup_deniedPaths) hmem
    refine ⟨count, first, second, ?_, hfirst, hdenied _ hin⟩
    rw [probes_append, outcomesOn_append, hpolls, hsame path (ne_allowPath hpath), hsecond, List.append_assoc]
    rfl
  · intro probe hprobe hne
    rw [probes_append, List.mem_append] at hprobe
    rcases hprobe with hprobe | hprobe
    · exact hpaths probe hprobe
    · have hmem : probe.1 ∈ denials.map Prod.fst := List.mem_map_of_mem (honly probe hprobe hne)
      rw [hfst, List.mem_flatMap] at hmem
      obtain ⟨covered, hcovered, hpath⟩ := hmem
      exact deniedPaths_subset hcovered _ hpath

/-- The addresses which are read of a pod. -/
def readIps : (call : Call) → Reply call → Option (String × List String)
  | .getPod pod _, .error _ => some (pod, [])
  | .getPod pod _, .ok entries => some (pod, entries.filterMap fun entry ↦ entry.filter (· ≠ ""))
  | _, _ => none

def Reads (trace : List (Exchange World Reply)) (pod : String) (ips : List String) : Prop :=
  ∃ exchange ∈ trace, readIps exchange.op exchange.reply = some (pod, ips)

theorem getPodIps_reads {pod : String} {ips : List String}
    (h : Execution step world (check.getPodIps pod) trace last (.ok ips)) : Reads trace pod ips := by
  rw [getPodIps, Execution.call_iff] at h
  obtain ⟨reply, middle, rest, -, rfl, hrest⟩ := h
  cases reply with
  | error e =>
    have hresult := (Execution.done_iff.mp hrest).2.2
    cases hresult
    exact ⟨_, List.mem_cons_self, rfl⟩
  | ok entries =>
    have hresult := (Execution.done_iff.mp hrest).2.2
    cases hresult
    exact ⟨_, List.mem_cons_self, rfl⟩

theorem Reads.mono {others : List (Exchange World Reply)} {pod : String} {ips : List String}
    (h : Reads trace pod ips) (hsub : ∀ exchange ∈ trace, exchange ∈ others) : Reads others pod ips := by
  obtain ⟨exchange, hmem, hread⟩ := h
  exact ⟨exchange, hsub exchange hmem, hread⟩

/-- The policies are applied by then. -/
structure Policed (check : Check) (before : List (Exchange World Reply)) : Prop where
  ingress : .ingress ∈ manifests before
  egress : check.testEgress = true → .egress ∈ manifests before

theorem body_ok {report : Report} (h : Execution step world check.body trace last (.ok report))
    (hpassed : report.passed = true) : ∃ server other before after, trace = before ++ after ∧
      Reads before "server" server ∧ Reads before "other-server" other ∧ server ≠ [] ∧ Policed check before ∧
      Settled check server other (probes before) (probes after) := by
  rw [body, Program.bind_eq, Execution.bind_ok_iff] at h
  obtain ⟨applied, _, world₁, trace₁, rfl, happlied, h⟩ := h
  rw [Program.bind_eq, Execution.bind_ok_iff] at h
  obtain ⟨waited, _, world₂, trace₂, rfl, hwaited, h⟩ := h
  rw [Program.bind_eq, Execution.bind_ok_iff] at h
  obtain ⟨first, server, world₃, trace₃, rfl, hserver, h⟩ := h
  rw [Program.bind_eq, Execution.bind_ok_iff] at h
  obtain ⟨second, other, world₄, trace₄, rfl, hother, h⟩ := h
  obtain ⟨hne, before, after, rfl, hingress, hegress, hsettled⟩ := verify_ok h hpassed
  refine ⟨server, other, applied ++ (waited ++ (first ++ (second ++ before))), after, by simp, ?_, ?_, hne, ?_, ?_⟩
  · exact (getPodIps_reads hserver).mono fun exchange hmem ↦ by simp [hmem]
  · exact (getPodIps_reads hother).mono fun exchange hmem ↦ by simp [hmem]
  · exact ⟨by simp [hingress], fun htest ↦ by simp [hegress htest]⟩
  · have hprobes : probes (applied ++ (waited ++ (first ++ (second ++ before)))) = probes before := by
      rw [probes_append, probes_append, probes_append, probes_append, (applyManifest_ok happlied).1,
        (waitReady_ok hwaited).1, (getPodIps_ok hserver).1, (getPodIps_ok hother).1]
      rfl
    rwa [hprobes]

theorem run_ok {report : Report} (h : Execution step world check.run trace last (.ok report))
    (hpassed : report.passed = true) : ∃ server other before after, trace = before ++ after ∧
      Reads trace "server" server ∧ Reads trace "other-server" other ∧ server ≠ [] ∧ Policed check before ∧
      Settled check server other (probes before) (probes after) := by
  rw [run, Execution.call_iff] at h
  obtain ⟨created, middle, rest, -, rfl, h⟩ := h
  by_cases hcreated : created.exitCode ≠ 0
  · rw [if_pos hcreated, Execution.done_iff] at h
    rw [Except.ok.inj h.2.2] at hpassed
    cases hpassed
  · rw [if_neg hcreated] at h
    obtain ⟨first, outcome, between, second, rfl, hbody, hlast⟩ := Execution.bind_attempt h
    rw [Execution.call_iff] at hlast
    obtain ⟨deleted, after, nothing, -, rfl, hdone⟩ := hlast
    rw [Execution.done_iff] at hdone
    obtain ⟨rfl, -, hreport⟩ := hdone
    rw [Except.ok.injEq] at hreport
    cases outcome with
    | error message =>
      rw [hreport] at hpassed
      cases hpassed
    | ok passed =>
      simp only at hreport
      rw [hreport] at hpassed
      obtain ⟨server, other, before, after, rfl, hserver, hother, hne, hpoliced, hsettled⟩ :=
        body_ok hbody hpassed
      refine ⟨server, other, _ :: before, after ++ [_], congrArg (List.cons _) (List.append_assoc before after _),
        hserver.mono ?_, hother.mono ?_, hne, ⟨hpoliced.ingress, hpoliced.egress⟩, ?_⟩
      · exact fun exchange hmem ↦ by simp [hmem]
      · exact fun exchange hmem ↦ by simp [hmem]
      · rw [probes_append]
        change Settled check server other (probes before) (probes after ++ [])
        rwa [List.append_nil]

/-! ## What a pass means -/

/-- An outcome is seen on a path after the policies were applied. -/
def Observed (check : Check) (trace : List (Exchange World Reply)) (path : Path) (outcome : Outcome) : Prop :=
  ∃ before after, trace = before ++ after ∧ Policed check before ∧ (path, outcome) ∈ probes after

/-- The policies are seen to be enforced, for each family of the server. -/
structure Verified (check : Check) (server other : List String) (trace : List (Exchange World Reply)) :
    Prop where
  covered : ∃ family, check.ofFamily family server ≠ []
  allowed : ∀ family, check.ofFamily family server ≠ [] →
    ∃ ip ∈ check.ofFamily family server, Observed check trace (allowPath ip) .connected
  denied : ∀ family, check.ofFamily family server ≠ [] →
    ∃ ip ∈ check.ofFamily family server, Observed check trace (ingressPath ip) .blocked
  egress : check.testEgress = true → ∀ family, check.ofFamily family server ≠ [] →
    check.ofFamily family other ≠ [] →
      ∃ ip ∈ check.ofFamily family other, Observed check trace (egressPath ip) .blocked

/-- The server has an address of some family, and one of the last two probes on each denied path ran. -/
structure Evidence (check : Check) (server other : List String) (trace : List (Exchange World Reply)) :
    Prop where
  covered : ∃ family, check.ofFamily family server ≠ []
  ran : ∀ covered ∈ check.families server other, ∀ path ∈ deniedPaths check covered,
    ∃ outcome ∈ (outcomesOn path (probes trace)).reverse.take 2, outcome ≠ .notRun

/-- On a denied path the denial is seen where one of the last two probes ran. -/
theorem blocked_iff {seen : List (Path × Outcome)} {path : Path} {count : ℕ} {first second : Outcome}
    (hseen : outcomesOn path seen = List.replicate count .connected ++ [first, second])
    (hfirst : first ≠ .connected) (hsecond : second ≠ .connected) :
    (path, .blocked) ∈ seen ↔ ∃ outcome ∈ [second, first], outcome ≠ .notRun := by
  rw [← mem_outcomesOn, hseen]
  cases first <;> cases second <;> simp_all

/-- A denial is not seen before the policies are there. -/
theorem Settled.mem_of_observed {before after : List (Exchange World Reply)}
    (hsettled : Settled check server other (probes before) (probes after)) {path : Path}
    (h : Observed check (before ++ after) path .blocked) : (path, .blocked) ∈ probes after := by
  obtain ⟨front, back, hsplit, -, hmem⟩ := h
  have hall : (path, .blocked) ∈ probes (before ++ after) := by
    rw [hsplit, probes_append]
    exact List.mem_append_right _ hmem
  rw [probes_append, List.mem_append] at hall
  rcases hall with hbefore | hafter
  · cases hsettled.connected _ hbefore
  · exact hafter

/-- On the paths which are denied for a family, the run has seen the denial exactly where one of the last two
probes ran. -/
theorem observed_blocked_iff {before after : List (Exchange World Reply)} (hpoliced : Policed check before)
    (hsettled : Settled check server other (probes before) (probes after)) {covered : Covered}
    (hcovered : covered ∈ check.families server other) {path : Path} (hpath : path ∈ deniedPaths check covered) :
    Observed check (before ++ after) path .blocked ↔
      ∃ outcome ∈ (outcomesOn path (probes (before ++ after))).reverse.take 2, outcome ≠ .notRun := by
  obtain ⟨count, first, second, hseen, hfirst, hsecond⟩ := hsettled.denied covered hcovered path hpath
  have htake : (outcomesOn path (probes (before ++ after))).reverse.take 2 = [second, first] := by
    rw [probes_append, outcomesOn_append, hseen, ← List.append_assoc, List.reverse_append]
    rfl
  rw [htake, ← blocked_iff hseen hfirst hsecond]
  constructor
  · exact hsettled.mem_of_observed
  · intro hmem
    exact ⟨before, after, rfl, hpoliced, hmem⟩

/-- Denials are seen on the paths to the first addresses only. -/
theorem mem_denyProbes_of_observed {before after : List (Exchange World Reply)}
    (hsettled : Settled check server other (probes before) (probes after)) {path : Path}
    (h : Observed check (before ++ after) path .blocked) : path ∈ check.denyProbes server other := by
  exact hsettled.only _ (hsettled.mem_of_observed h) fun heq ↦ by cases heq

/-- In a run which passes, the policies are seen to be enforced exactly where the server has an address of some
family and, on each denied path, one of the last two probes ran. -/
theorem run_verified_iff {report : Report} (h : Execution step world check.run trace last (.ok report))
    (hpassed : report.passed = true) :
    ∃ server other, Reads trace "server" server ∧ Reads trace "other-server" other ∧
      (Verified check server other trace ↔ Evidence check server other trace) := by
  obtain ⟨server, other, before, after, rfl, hserver, hother, -, hpoliced, hsettled⟩ := run_ok h hpassed
  refine ⟨server, other, hserver, hother, ?_⟩
  -- an address of a family on which a denial is seen is the first one
  have hfirst : ∀ family ip ips, ip ∈ check.ofFamily family ips →
      (∃ family, (check.ofFamily family ips).head? = some ip) → (check.ofFamily family ips).head? = some ip := by
    rintro family ip ips hip ⟨family', hhead⟩
    have hfamily : check.family ip = some family := of_decide_eq_true (List.mem_filter.mp hip).2
    have heq := hfamily.symm.trans (family_of_head hhead)
    rwa [Option.some.inj heq]
  constructor
  · intro hverified
    refine ⟨hverified.covered, ?_⟩
    intro covered hcovered path hpath
    rw [← observed_blocked_iff hpoliced hsettled hcovered hpath]
    obtain ⟨hserverIp, hotherIp⟩ := mem_families.mp hcovered
    have hne : check.ofFamily covered.family server ≠ [] := by
      rintro hnil
      rw [hnil] at hserverIp
      cases hserverIp
    rcases mem_deniedPaths.mp hpath with rfl | ⟨htest, ip, hip, rfl⟩
    · obtain ⟨ip, hip, hobserved⟩ := hverified.denied covered.family hne
      have hhead := hfirst _ _ _ hip (ingressPath_mem.mp (mem_denyProbes_of_observed hsettled hobserved))
      rw [hserverIp] at hhead
      rwa [Option.some.inj hhead]
    · have hne' : check.ofFamily covered.family other ≠ [] := by
        rintro hnil
        rw [hnil, hip] at hotherIp
        cases hotherIp
      obtain ⟨ip', hip', hobserved⟩ := hverified.egress htest covered.family hne hne'
      have hhead := hfirst _ _ _ hip' (egressPath_mem.mp (mem_denyProbes_of_observed hsettled hobserved)).2
      rw [hotherIp, hip] at hhead
      rwa [Option.some.inj hhead]
  · intro hevidence
    -- each family of the server is covered, with its first addresses
    have hfamilies : ∀ family, check.ofFamily family server ≠ [] → ∃ covered ∈ check.families server other,
        covered.family = family ∧ covered.serverIp ∈ check.ofFamily family server ∧
          covered.otherIp = (check.ofFamily family other).head? := by
      intro family hne
      obtain ⟨ip, hip⟩ := Option.ne_none_iff_exists'.mp (mt List.head?_eq_none_iff.mp hne)
      exact ⟨⟨family, ip, (check.ofFamily family other).head?⟩, mem_families.mpr ⟨hip, rfl⟩, rfl,
        List.mem_of_mem_head? hip, rfl⟩
    refine ⟨hevidence.covered, ?_, ?_, ?_⟩
    · intro family hne
      obtain ⟨covered, hcovered, -, hip, -⟩ := hfamilies family hne
      exact ⟨covered.serverIp, hip, before, after, rfl, hpoliced, hsettled.allowed covered hcovered⟩
    · intro family hne
      obtain ⟨covered, hcovered, -, hip, -⟩ := hfamilies family hne
      have hpath : ingressPath covered.serverIp ∈ deniedPaths check covered := mem_deniedPaths.mpr (.inl rfl)
      exact ⟨covered.serverIp, hip, (observed_blocked_iff hpoliced hsettled hcovered hpath).mpr
        (hevidence.ran covered hcovered _ hpath)⟩
    · intro htest family hne hne'
      obtain ⟨covered, hcovered, -, -, hotherIp⟩ := hfamilies family hne
      obtain ⟨ip, hip⟩ := Option.ne_none_iff_exists'.mp (mt List.head?_eq_none_iff.mp hne')
      have hpath : egressPath ip ∈ deniedPaths check covered :=
        mem_deniedPaths.mpr (.inr ⟨htest, ip, hotherIp.trans hip, rfl⟩)
      exact ⟨ip, List.mem_of_mem_head? hip, (observed_blocked_iff hpoliced hsettled hcovered hpath).mpr
        (hevidence.ran covered hcovered _ hpath)⟩

end Passed

/-- A cluster of two servers, which answers the denied probes in one way once the policies are applied. -/
def cluster (denied : Outcome) : Bool → (call : Call) → Reply call × Bool
  | policed, .command _ => (⟨0, "", ""⟩, policed)
  | policed, .apply manifest => (.ok (), policed || manifest = .egress)
  | policed, .getPod pod _ => (.ok [some (if pod = "server" then "10.0.0.1" else "10.0.0.2")], policed)
  | policed, .probe path _ _ => (if !policed || path = allowPath "10.0.0.1" then .connected else denied, policed)
  | policed, .polls _ => (3, policed)

/-- A check which knows the addresses of the cluster. -/
def clusterCheck : Check where
  kubectl := "kubectl"
  ns := "isvtest-netpol-1"
  family ip := if ip = "10.0.0.1" ∨ ip = "10.0.0.2" then some .ipv4 else none

theorem run_verified_blocked :
    let played := clusterCheck.run.interpret (cluster .blocked) false
    played.2.2.toOption.map Report.passed = some true ∧ ∃ server other, Reads played.1 "server" server ∧
      Reads played.1 "other-server" other ∧
      (Verified clusterCheck server other played.1 ↔ Evidence clusterCheck server other played.1) := by
  intro played
  have hpassed : played.2.2.toOption.map Report.passed = some true := by decide
  obtain ⟨report, hreport⟩ : ∃ report, played.2.2 = .ok report := ⟨_, rfl⟩
  rw [hreport] at hpassed
  have hrun := clusterCheck.run.execution_interpret (cluster .blocked) false
  exact ⟨by decide, run_verified_iff (hreport ▸ hrun) (Option.some.inj hpassed)⟩

/-- No denied probe runs once the policies are applied, and the check passes. -/
theorem run_passed_unseen :
    let played := clusterCheck.run.interpret (cluster .notRun) false
    played.2.2.toOption.map Report.passed = some true ∧
      ¬ Verified clusterCheck ["10.0.0.1"] ["10.0.0.2"] played.1 := by
  refine ⟨by decide, fun h ↦ ?_⟩
  obtain ⟨ip, -, before, after, hsplit, -, hmem⟩ := h.denied .ipv4 (by decide)
  have hall : (ingressPath ip, .blocked) ∈ probes (clusterCheck.run.interpret (cluster .notRun) false).1 := by
    rw [hsplit, probes_append]
    exact List.mem_append_right _ hmem
  have hnone : ∀ probe ∈ probes (clusterCheck.run.interpret (cluster .notRun) false).1, probe.2 ≠ .blocked := by
    decide
  exact hnone _ hall rfl

end IsvValidation.K8s.NetworkPolicy
