import IsvValidation.Host.Matching
import IsvValidation.K8s.CsiCredentials
import IsvValidation.Library.Sequence

/-!
# Credentials of storage drivers which stay within their tenant

The run reports five subtests, and passes where none of them fails. What it does not see is what it does
not collect: a secret named by a field it does not read, a role bound to a user or a group which a service
account belongs to, and whatever a listing held which was not read as a list.
-/

namespace IsvValidation.K8s.Csi

open Host Library Validation

/-! ## The run -/

/-- How a run ends early: with the result of the check, as skipped, or by an exception. -/
inductive Stop where
  | failed (report : Report) (error : String)
  | skipped (report : Report) (reason : String)
  | raised (report : Report) (error : String)

/-- What is reported so far, and whether a subtest failed. -/
structure Progress where
  report : Report := {}
  anyFailed : Bool := false

/-- A subtest, which fails where there is an error. -/
def Progress.subtest (progress : Progress) (name : String) (failure : Option String) (message : String) :
    Progress :=
  match failure with
  | some error => { report := progress.report.reportSubtest name false error, anyFailed := true }
  | none => { progress with report := progress.report.reportSubtest name true message }

def Progress.skip (progress : Progress) (name message : String) : Progress :=
  { progress with report := progress.report.reportSubtest name true message true }

@[simp] theorem anyFailed_subtest (progress : Progress) (name : String) (failure : Option String)
    (message : String) :
    (progress.subtest name failure message).anyFailed = (progress.anyFailed || failure.isSome) := by
  cases failure <;> simp [Progress.subtest]

@[simp] theorem anyFailed_skip (progress : Progress) (name message : String) :
    (progress.skip name message).anyFailed = progress.anyFailed := rfl

/-- Where the listing is not there the check fails. -/
def listed {α : Type} (listing : Listing α) (message : String) : Except Stop (List α) :=
  match listItems listing with
  | .error error => .error (.raised {} error)
  | .ok none => .error (.failed {} message)
  | .ok (some items) => .ok items

def subtestNames : List String :=
  ["csi-secrets-discovered", "secrets-not-cross-namespace", "no-shared-cluster-markers",
    "serviceaccount-rbac-scoped", "node-plugin-uses-hostpath-not-shared-mount"]

def skippedReport : Report :=
  subtestNames.foldl (fun report name ↦ report.reportSubtest name true "No CSIDriver objects present" true) {}

/-- The references up to a number of them. -/
def showFirst (count : ℕ) (shown : List String) : String :=
  ", ".intercalate (shown.take count) ++ (if shown.length > count then "..." else "")

def reportDiscovered (drivers : ℕ) (discovered : List Ref) : Progress :=
  Progress.subtest {} "csi-secrets-discovered" none <|
    if discovered = [] then s!"No CSI Secret references found across {drivers} driver(s); " ++
      "CSI likely uses IRSA / workload-identity or node-level IAM"
    else s!"Discovered {discovered.length} CSI Secret reference(s): {showFirst 10 (discovered.map showRef)}"

variable (unicode : Unicode) (text : PyText) (config : CheckConfig) (cluster : Cluster)

def reportNamespaces (permitted : List String) (discovered : List Ref) (progress : Progress) : Progress :=
  let crossNs := discovered.filter fun ref ↦ !permitted.contains ref.1
  let shown := text.list (permitted.dedup.insertionSort (· ≤ ·))
  progress.subtest "secrets-not-cross-namespace"
    (if crossNs ≠ [] then some s!"Discovered Secret(s) outside {shown}: {showRefs crossNs}" else none)
    s!"All {discovered.length} discovered Secret(s) live in permitted namespaces {shown}"

def reportMarkers (discovered : List Ref) (markers : Markers) (progress : Progress) : Progress :=
  let failures := ", ".intercalate markers.markerFailures
  let missing := markers.missingSecrets
  progress.subtest "no-shared-cluster-markers"
    (if markers.markerFailures ≠ [] then some s!"Secret(s) carry shared-cluster markers: {failures}" else none) <|
    if missing ≠ [] then
      s!"No shared-cluster labels/annotations on {discovered.length - missing.length} discovered Secret(s); " ++
        s!"{missing.length} declared Secret ref(s) do not exist (likely IRSA / workload-identity): " ++
        s!"{showFirst 5 missing}"
    else s!"No shared-cluster labels/annotations on {discovered.length} discovered Secret(s)"

/-- What `_check_controller_rbac` says is wrong. -/
def rbacFailure : Option (List String) → Option String
  | none => some "Failed to enumerate ClusterRoleBindings / ClusterRoles"
  | some [] => none
  | some violations => some ("CSI controller ServiceAccount(s) hold cluster-scoped Secret privileges: " ++
      "; ".intercalate violations)

def reportRbac (pods : List Pod) (progress : Progress) : Except Stop Progress :=
  let accounts := collectControllerServiceAccounts (podsByNs pods)
  let name := "serviceaccount-rbac-scoped"
  if accounts = [] then
    .ok (progress.skip name "No CSI controller pods identified; RBAC check not applicable")
  else
    match checkControllerRbac text cluster accounts with
    | .error error => .error (.raised progress.report error)
    | .ok violations => .ok (progress.subtest name (rbacFailure violations)
        (s!"No ClusterRoleBinding grants cluster-scoped Secret verbs to {accounts.length} " ++
          "CSI controller ServiceAccount(s)"))

def reportVolumes (pods : List Pod) (progress : Progress) : Progress :=
  let name := "node-plugin-uses-hostpath-not-shared-mount"
  match checkNodePluginVolumes text (podsByNs pods) with
  | none => progress.skip name "No CSI node-plugin pods identified; mount-topology check not applicable"
  | some failures => progress.subtest name
      (if failures ≠ [] then some ("CSI node-plugin pod(s) mount cross-namespace / non-local volume types: " ++
        "; ".intercalate failures) else none)
      "CSI node-plugin pods mount only local/pod-scoped volume types"

/-- The result, after all subtests. -/
def conclude (drivers : ℕ) (discovered : List Ref) (progress : Progress) : Report :=
  if progress.anyFailed then
    progress.report.setFailed "One or more CSI tenant-scoping subtests failed; see subtest details"
  else
    progress.report.setPassed (s!"CSI credentials tenant-scoped by construction " ++
      s!"({drivers} driver(s), {discovered.length} Secret ref(s))")

/-- The five subtests. -/
def inspect (drivers : ℕ) (pods : List Pod) (volumes : List PersistentVolume) : Except Stop Report := do
  let discovered := discoveredSecrets volumes pods
  let progress := reportNamespaces text (permittedNamespaces config pods) discovered
    (reportDiscovered drivers discovered)
  let markers ← (checkMarkers unicode config cluster discovered).mapError (.raised progress.report)
  let progress ← reportRbac text cluster pods (reportMarkers discovered markers progress)
  return conclude drivers discovered (reportVolumes text pods progress)

/-- `K8sCsiTenantScopedCredentialsCheck.run`. -/
def run : Except Stop Report := do
  let csiDrivers ← listed cluster.csiDrivers "Failed to list CSIDriver objects"
  if csiDrivers = [] then throw (.skipped skippedReport "No CSIDriver objects found")
  else
    let pods ← listed cluster.pods "Failed to list pods across all namespaces"
    let volumes ← listed cluster.persistentVolumes "Failed to list PersistentVolumes"
    inspect unicode text config cluster csiDrivers.length pods volumes

/-- The end of a run, after `BaseValidation.execute`; a check which is skipped has no result. -/
def execute : Option Report :=
  match run unicode text config cluster with
  | .ok report => some report
  | .error (.failed report error) => some (report.setFailed error)
  | .error (.raised report error) => some (report.setFailed s!"Validation raised exception: {error}")
  | .error (.skipped _ _) => none

/-- The check ends as passed. -/
def Passes : Prop := ∃ report, execute unicode text config cluster = some report ∧ report.passed = true

/-! ## What passes -/

/-- The objects of a listing which is read as a list. -/
def Listing.objects {α : Type} : Listing α → List α
  | some (.items items) => items.filterMap id
  | _ => []

/-- A listing with which the check goes on. -/
def Listing.Taken {α : Type} (listing : Listing α) : Prop :=
  listing ≠ none ∧ ∀ type, listing ≠ some (.notObject type)

theorem loadItems_ok {α : Type} {payload : Payload α} {items : List α} : loadItems payload = .ok items ↔
    Listing.Taken (some payload) ∧ items = Listing.objects (some payload) := by
  cases payload <;> simp [loadItems, Listing.Taken, Listing.objects, eq_comm]

theorem listed_ok {α : Type} {listing : Listing α} {message : String} {items : List α} :
    listed listing message = .ok items ↔ listing.Taken ∧ items = listing.objects := by
  cases listing with
  | none => simp [listed, listItems, Listing.Taken]
  | some payload =>
    rw [← loadItems_ok]
    cases hload : loadItems payload <;> simp [listed, listItems, hload, Except.map]

/-- A secret with a mark of a shared cluster. -/
inductive Marked (secret : Secret) : Prop
  | label {key value actual : String} (hforbidden : (key, value) ∈ forbiddenLabels unicode config)
      (hactual : secret.labels.get? key = some actual) (hvalue : value = "" ∨ actual = value)
  | annotated {key value : String} (hkey : key ∈ sharedClusterAnnotations)
      (hvalue : secret.annotations.get? key = some value) (hset : value ≠ "")
      (htrue : unicode.lower value = "true")

/-- The secret does not exist, or it was read and has no mark. -/
def Unshared (read : SecretRead) : Prop :=
  read = .missing ∨ ∃ secret, read = .found secret ∧ ¬ Marked unicode config secret

/-- A pod of a driver, with the namespace it is in. -/
structure PodIn (pods : List Pod) (ns : String) (pod : Pod) : Prop where
  mem : pod ∈ pods
  csi : podHasCsiImage pod = true
  ns : given pod.ns = some ns

/-- A secret named by a field which the check reads. -/
inductive Collected (volumes : List PersistentVolume) (pods : List Pod) (ref : Ref) : Prop
  | volume {volume : PersistentVolume} {csi : CsiSource} (hvolume : volume ∈ volumes)
      (hcsi : volume.csi = some csi) (href : ref ∈ csi.secretRefs)
  | pod {pod : Pod} (hpod : PodIn pods ref.1 pod) (hname : ref.2 ∈ pod.secretNames)

/-- The account of a controller. -/
def ControllerIn (pods : List Pod) (account : Ref) : Prop :=
  ∃ pod, PodIn pods account.1 pod ∧ podIsController pod = true ∧ pod.account = account.2

/-- A binding which the check has nothing against: it does not name the account, or its role is not there or
gives no secrets. -/
def BindingAccepted (roles : OrderedMap String ClusterRole) (account : Ref) (binding : ClusterRoleBinding) :
    Prop :=
  ∀ subject ∈ binding.subjects, subject.kind = "ServiceAccount" → (subject.ns, subject.name) = account →
    binding.roleRef.kind = "ClusterRole" → ∀ role, roles.get? binding.roleRef.name = some role →
      ∀ rule ∈ role.rules, ruleGrantsUnrestrictedSecrets rule = false

/-- What the check asks of the roles of an account. -/
structure RolesAccepted (account : Ref) : Prop where
  bindingsTaken : cluster.clusterRoleBindings.Taken
  rolesTaken : cluster.clusterRoles.Taken
  bindings : ∀ binding ∈ cluster.clusterRoleBindings.objects,
    BindingAccepted (rolesByName cluster.clusterRoles.objects) account binding

/-- What the check asks of the pods and of what they refer to. -/
structure Inspected (volumes : List PersistentVolume) (pods : List Pod) : Prop where
  secrets : ∀ ref, Collected volumes pods ref →
    ref.1 ∈ permittedNamespaces config pods ∧ Unshared unicode config (cluster.secret ref)
  roles : ∀ account, ControllerIn pods account → RolesAccepted cluster account
  mounts : ∀ ns pod, PodIn pods ns pod → podIsNodePlugin pod = true → ∀ volume ∈ pod.volumes,
    badKeys volume = []

/-- What the check asks of the cluster. -/
structure Accepts : Prop where
  driversTaken : cluster.csiDrivers.Taken
  drivers : cluster.csiDrivers.objects ≠ []
  podsTaken : cluster.pods.Taken
  volumesTaken : cluster.persistentVolumes.Taken
  inspected : Inspected unicode config cluster cluster.persistentVolumes.objects cluster.pods.objects

/-! ### What is collected -/

theorem hasImage_mono {tokens others : List String} (hsub : tokens ⊆ others) {pod : Pod}
    (h : hasImage tokens pod = true) : hasImage others pod = true := by
  obtain ⟨container, hcontainer, himage⟩ := List.any_eq_true.mp h
  obtain ⟨token, htoken, hcontains⟩ := List.any_eq_true.mp himage
  exact List.any_eq_true.mpr ⟨container, hcontainer, List.any_eq_true.mpr ⟨token, hsub htoken, hcontains⟩⟩

theorem podHasCsiImage_of_controller {pod : Pod} : podIsController pod = true → podHasCsiImage pod = true :=
  hasImage_mono (List.subset_append_left _ _)

theorem mem_podsByNs {pods : List Pod} {ns : String} {pod : Pod} :
    (∃ entry ∈ (podsByNs pods).entries, entry.1 = ns ∧ pod ∈ entry.2) ↔ PodIn pods ns pod := by
  have hgroup := @OrderedMap.mem_groupWith_append String Pod _ (pods.filterMap fun pod ↦
    if podHasCsiImage pod then (given pod.ns).map fun ns ↦ (ns, [pod]) else none) ns pod
  constructor
  · rintro ⟨⟨_, group⟩, hentry, rfl, hpod⟩
    obtain ⟨item, hitem, hns, hmem⟩ := hgroup.mp ⟨group, hentry, hpod⟩
    obtain ⟨found, hfound, hsome⟩ := List.mem_filterMap.mp hitem
    rw [Option.ite_none_right_eq_some, Option.map_eq_some_iff] at hsome
    obtain ⟨hcsi, key, hkey, rfl⟩ := hsome
    rw [List.mem_singleton.mp hmem]
    exact ⟨hfound, hcsi, hkey.trans (congrArg some hns)⟩
  · intro h
    have hitem : (ns, [pod]) ∈ pods.filterMap fun pod ↦
        if podHasCsiImage pod then (given pod.ns).map fun ns ↦ (ns, [pod]) else none :=
      List.mem_filterMap.mpr ⟨pod, h.mem, by rw [if_pos h.csi, h.ns, Option.map_some]⟩
    obtain ⟨group, hentry, hpod⟩ := hgroup.mpr ⟨_, hitem, rfl, List.mem_singleton_self pod⟩
    exact ⟨_, hentry, rfl, hpod⟩

theorem mem_sortedRefs {refs : List Ref} {ref : Ref} : ref ∈ sortedRefs refs ↔ ref ∈ refs := by
  rw [sortedRefs, List.mem_insertionSort, List.mem_dedup]

theorem mem_discoveredSecrets {volumes : List PersistentVolume} {pods : List Pod} {ref : Ref} :
    ref ∈ discoveredSecrets volumes pods ↔ Collected volumes pods ref := by
  rw [discoveredSecrets, mem_sortedRefs, List.mem_append]
  constructor
  · rintro (h | h)
    · obtain ⟨volume, hvolume, href⟩ := List.mem_flatMap.mp h
      cases hcsi : volume.csi with
      | none => simp [hcsi] at href
      | some csi => exact .volume hvolume hcsi (by simpa [hcsi] using href)
    · obtain ⟨entry, hentry, h⟩ := List.mem_flatMap.mp h
      obtain ⟨pod, hpod, h⟩ := List.mem_flatMap.mp h
      obtain ⟨name, hname, rfl⟩ := List.mem_map.mp h
      exact .pod (mem_podsByNs.mp ⟨entry, hentry, rfl, (List.mem_filter.mp hpod).1⟩) hname
  · intro h
    cases h with
    | volume hvolume hcsi href =>
      exact .inl (List.mem_flatMap.mpr ⟨_, hvolume, by simpa [hcsi] using href⟩)
    | pod hpod hname =>
      obtain ⟨entry, hentry, hns, hmem⟩ := mem_podsByNs.mpr hpod
      refine .inr (List.mem_flatMap.mpr ⟨entry, hentry, List.mem_flatMap.mpr
        ⟨_, List.mem_filter.mpr ⟨hmem, hpod.csi⟩, List.mem_map.mpr ⟨ref.2, hname, ?_⟩⟩⟩)
      rw [hns]

theorem mem_controllers {pods : List Pod} {account : Ref} :
    account ∈ collectControllerServiceAccounts (podsByNs pods) ↔ ControllerIn pods account := by
  rw [collectControllerServiceAccounts, List.mem_dedup, List.mem_flatMap]
  constructor
  · rintro ⟨entry, hentry, h⟩
    obtain ⟨pod, hpod, rfl⟩ := List.mem_map.mp h
    rw [List.mem_filter] at hpod
    exact ⟨pod, mem_podsByNs.mp ⟨entry, hentry, rfl, hpod.1⟩, hpod.2, rfl⟩
  · rintro ⟨pod, hpod, hcontroller, haccount⟩
    obtain ⟨entry, hentry, hns, hmem⟩ := mem_podsByNs.mpr hpod
    refine ⟨entry, hentry, List.mem_map.mpr ⟨pod, List.mem_filter.mpr ⟨hmem, hcontroller⟩, ?_⟩⟩
    rw [hns, haccount]

theorem mem_nodePlugins {pods : List Pod} {ns : String} {pod : Pod} :
    (ns, pod) ∈ nodePlugins (podsByNs pods) ↔ PodIn pods ns pod ∧ podIsNodePlugin pod = true := by
  rw [nodePlugins, List.mem_flatMap]
  constructor
  · rintro ⟨entry, hentry, h⟩
    obtain ⟨found, hfound, heq⟩ := List.mem_map.mp h
    obtain ⟨hns, rfl⟩ := Prod.mk.inj heq
    rw [List.mem_filter] at hfound
    exact ⟨mem_podsByNs.mp ⟨entry, hentry, hns, hfound.1⟩, hfound.2⟩
  · rintro ⟨hpod, hplugin⟩
    obtain ⟨entry, hentry, hns, hmem⟩ := mem_podsByNs.mpr hpod
    refine ⟨entry, hentry, List.mem_map.mpr ⟨pod, List.mem_filter.mpr ⟨hmem, hplugin⟩, ?_⟩⟩
    rw [hns]

/-! ### What the subtests ask -/

variable {unicode config cluster}

theorem labelMarker_eq_some {secret : Secret} {pair : String × String} {marker : String}
    (h : labelMarker secret pair = some marker) : marker ≠ "" ∧
      ∃ actual, secret.labels.get? pair.1 = some actual ∧ (pair.2 = "" ∨ actual = pair.2) := by
  obtain ⟨actual, hactual, h⟩ := Option.bind_eq_some_iff.mp h
  rw [Option.ite_none_right_eq_some, Option.some.injEq] at h
  obtain ⟨hvalue, rfl⟩ := h
  have hname : toString "label " ≠ "" := by decide
  exact ⟨by simp [hname], actual, hactual, hvalue⟩

theorem annotationMarker_eq_some {secret : Secret} {key marker : String}
    (h : annotationMarker unicode secret key = some marker) : marker ≠ "" ∧
      ∃ value, secret.annotations.get? key = some value ∧ value ≠ "" ∧ unicode.lower value = "true" := by
  obtain ⟨value, hvalue, h⟩ := Option.bind_eq_some_iff.mp h
  rw [Option.ite_none_right_eq_some, Option.some.injEq] at h
  obtain ⟨htrue, rfl⟩ := h
  have hname : toString "annotation " ≠ "" := by decide
  exact ⟨by simp [hname], value, hvalue, htrue⟩

theorem findSharedClusterMarker_eq_empty {secret : Secret} :
    findSharedClusterMarker unicode secret (forbiddenLabels unicode config) = "" ↔
      ¬ Marked unicode config secret := by
  rw [findSharedClusterMarker]
  cases hlabel : (forbiddenLabels unicode config).findSome? (labelMarker secret) with
  | some marker =>
    obtain ⟨pair, hpair, hmarker⟩ := List.exists_of_findSome?_eq_some hlabel
    obtain ⟨hne, actual, hactual, hvalue⟩ := labelMarker_eq_some hmarker
    have hmarked : Marked unicode config secret := .label hpair hactual hvalue
    simp [hne, hmarked]
  | none =>
    cases hannotation : sharedClusterAnnotations.findSome? (annotationMarker unicode secret) with
    | some marker =>
      obtain ⟨key, hkey, hmarker⟩ := List.exists_of_findSome?_eq_some hannotation
      obtain ⟨hne, value, hvalue, hset, htrue⟩ := annotationMarker_eq_some hmarker
      have hmarked : Marked unicode config secret := .annotated hkey hvalue hset htrue
      simp [hne, hmarked]
    | none =>
      rw [List.findSome?_eq_none_iff] at hlabel hannotation
      refine iff_of_true rfl fun hmarked ↦ ?_
      cases hmarked with
      | label hforbidden hactual hvalue => simpa [labelMarker, hactual, hvalue] using hlabel _ hforbidden
      | annotated hkey hvalue hset htrue =>
        simpa [annotationMarker, hvalue, hset, htrue] using hannotation _ hkey

/-- One round of the loop goes on without a failure where the secret is not shared. -/
theorem checkMarker_clean {markers : Markers} {ref : Ref} :
    (∃ result, checkMarker unicode config cluster markers ref = .ok result ∧ result.markerFailures = []) ↔
      markers.markerFailures = [] ∧ Unshared unicode config (cluster.secret ref) := by
  rw [checkMarker]
  cases hread : cluster.secret ref with
  | missing => simp [Unshared]
  | found secret =>
    by_cases hmarker : findSharedClusterMarker unicode secret (forbiddenLabels unicode config) = ""
    · simp [Unshared, hmarker, findSharedClusterMarker_eq_empty.mp hmarker]
    · have hmarked := not_not.mp (mt findSharedClusterMarker_eq_empty.mpr hmarker)
      simp [Unshared, hmarker, hmarked]
  | failed | unparsable | null | notObject => simp [Unshared]

theorem checkMarkers_clean {markers : Markers} {refs : List Ref} :
    (∃ result, refs.foldlM (checkMarker unicode config cluster) markers = .ok result ∧
      result.markerFailures = []) ↔
    markers.markerFailures = [] ∧ ∀ ref ∈ refs, Unshared unicode config (cluster.secret ref) := by
  induction refs generalizing markers with
  | nil => simp [pure, Except.pure]
  | cons ref rest ih =>
    simp only [List.foldlM_cons, bind_eq_ok, List.forall_mem_cons]
    rw [← and_assoc, ← checkMarker_clean]
    constructor
    · rintro ⟨result, ⟨first, hfirst, hrest⟩, hclean⟩
      obtain ⟨hempty, hall⟩ := ih.mp ⟨result, hrest, hclean⟩
      exact ⟨⟨first, hfirst, hempty⟩, hall⟩
    · rintro ⟨⟨first, hfirst, hempty⟩, hall⟩
      obtain ⟨result, hrest, hclean⟩ := ih.mpr ⟨hempty, hall⟩
      exact ⟨result, ⟨first, hfirst, hrest⟩, hclean⟩

theorem violation_eq_none {roles : OrderedMap String ClusterRole} {accounts : List Ref}
    {binding : ClusterRoleBinding} : violation text roles accounts binding = none ↔
      ∀ account ∈ accounts, BindingAccepted roles account binding := by
  rw [violation]
  by_cases hmatched : matchedSubjects accounts binding = []
  · rw [if_pos hmatched]
    refine iff_of_true rfl fun account haccount subject hsubject hkind hnamed ↦ ?_
    rw [matchedSubjects, List.map_eq_nil_iff, List.filter_eq_nil_iff] at hmatched
    have hnot : subject.kind = "ServiceAccount" → (subject.ns, subject.name) ∉ accounts := by
      simpa using hmatched subject hsubject
    exact absurd (hnamed ▸ haccount) (hnot hkind)
  · rw [if_neg hmatched]
    obtain ⟨account, haccount⟩ := List.exists_mem_of_ne_nil _ hmatched
    obtain ⟨subject, hsubject, -⟩ := List.mem_map.mp haccount
    rw [List.mem_filter, decide_eq_true_eq] at hsubject
    by_cases hkind : binding.roleRef.kind = "ClusterRole"
    · rw [if_neg (not_not.mpr hkind), Option.bind_eq_none_iff]
      constructor
      · intro h _ _ _ _ _ _ _ role hrole rule hrule
        have hnone := h role hrole
        rw [ite_eq_right_iff] at hnone
        by_contra hgrants
        have hany := List.any_eq_true.mpr ⟨rule, hrule, Bool.not_eq_false _ ▸ hgrants⟩
        cases hnone hany
      · intro h role hrole
        have hno := h _ hsubject.2.2 subject hsubject.1 hsubject.2.1 rfl hkind role hrole
        rw [if_neg]
        rw [List.any_eq_true]
        rintro ⟨rule, hrule, hgrants⟩
        rw [hno rule hrule] at hgrants
        cases hgrants
    · rw [if_pos hkind]
      exact iff_of_true rfl fun _ _ _ _ _ _ h ↦ absurd h hkind

theorem volumeViolation_eq_none {ns : String} {pod : Pod} {volume : Volume} :
    volumeViolation text ns pod volume = none ↔ badKeys volume = [] := by
  rw [volumeViolation]
  split_ifs with h
  · exact iff_of_false (by simp) h
  · exact iff_of_true rfl (not_not.mp h)

theorem checkControllerRbac_clean {accounts : List Ref} (hsome : accounts ≠ []) :
    checkControllerRbac text cluster accounts = .ok (some []) ↔
      ∀ account ∈ accounts, RolesAccepted cluster account := by
  obtain ⟨first, hfirst⟩ := List.exists_mem_of_ne_nil _ hsome
  rw [checkControllerRbac]
  cases hbindings : cluster.clusterRoleBindings with
  | none => exact iff_of_false (by simp) fun h ↦ (h first hfirst).bindingsTaken.1 hbindings
  | some bindingsPayload =>
    cases hroles : cluster.clusterRoles with
    | none => exact iff_of_false (by simp) fun h ↦ (h first hfirst).rolesTaken.1 hroles
    | some rolesPayload =>
      simp only [bind_eq_ok, loadItems_ok]
      constructor
      · rintro ⟨bindings, ⟨hbindingsTaken, rfl⟩, roles, ⟨hrolesTaken, rfl⟩, h⟩ account haccount
        have hnil := Option.some.inj (Except.ok.inj h)
        rw [findClusterSecretGrants, List.filterMap_eq_nil_iff] at hnil
        refine ⟨by rwa [hbindings], by rwa [hroles], fun binding hbinding ↦ ?_⟩
        rw [hbindings] at hbinding
        rw [hroles]
        exact (violation_eq_none text).mp (hnil binding hbinding) account haccount
      · intro hall
        have hbindingsTaken := (hall first hfirst).bindingsTaken
        have hrolesTaken := (hall first hfirst).rolesTaken
        rw [hbindings] at hbindingsTaken
        rw [hroles] at hrolesTaken
        refine ⟨_, ⟨hbindingsTaken, rfl⟩, _, ⟨hrolesTaken, rfl⟩, ?_⟩
        have hnil : findClusterSecretGrants text (Listing.objects (some bindingsPayload))
            (rolesByName (Listing.objects (some rolesPayload))) accounts = [] := by
          refine List.filterMap_eq_nil_iff.mpr fun binding hbinding ↦ (violation_eq_none text).mpr ?_
          intro account haccount
          have hbound := (hall account haccount).bindings binding (by rwa [hbindings])
          rwa [hroles] at hbound
        rw [hnil]
        rfl

theorem reportDiscovered_clean {drivers : ℕ} {discovered : List Ref} :
    (reportDiscovered drivers discovered).anyFailed = false := by
  rw [reportDiscovered, anyFailed_subtest]
  rfl

theorem reportNamespaces_clean {permitted : List String} {discovered : List Ref} {progress : Progress} :
    (reportNamespaces text permitted discovered progress).anyFailed = false ↔
      progress.anyFailed = false ∧ ∀ ref ∈ discovered, ref.1 ∈ permitted := by
  rw [reportNamespaces, anyFailed_subtest, Bool.or_eq_false_iff]
  refine and_congr_right fun _ ↦ ?_
  rw [Option.isSome_eq_false_iff, Option.isNone_iff_eq_none, ite_eq_right_iff]
  simp

theorem reportMarkers_clean {discovered : List Ref} {markers : Markers} {progress : Progress} :
    (reportMarkers discovered markers progress).anyFailed = false ↔
      progress.anyFailed = false ∧ markers.markerFailures = [] := by
  rw [reportMarkers, anyFailed_subtest, Bool.or_eq_false_iff]
  refine and_congr_right fun _ ↦ ?_
  rw [Option.isSome_eq_false_iff, Option.isNone_iff_eq_none, ite_eq_right_iff]
  simp

theorem rbacFailure_eq_none {violations : Option (List String)} :
    rbacFailure violations = none ↔ violations = some [] := by
  rcases violations with _ | _ | _ <;> simp [rbacFailure]

theorem reportRbac_clean {pods : List Pod} {progress : Progress} :
    (∃ result, reportRbac text cluster pods progress = .ok result ∧ result.anyFailed = false) ↔
      progress.anyFailed = false ∧ ∀ account, ControllerIn pods account → RolesAccepted cluster account := by
  simp only [reportRbac, ← mem_controllers]
  by_cases hnone : collectControllerServiceAccounts (podsByNs pods) = []
  · simp [hnone]
  · rw [← checkControllerRbac_clean text hnone, if_neg hnone]
    cases checkControllerRbac text cluster (collectControllerServiceAccounts (podsByNs pods)) with
    | error => simp
    | ok violations =>
      simp only [Except.ok.injEq, exists_eq_left', anyFailed_subtest, Bool.or_eq_false_iff,
        Option.isSome_eq_false_iff, Option.isNone_iff_eq_none, rbacFailure_eq_none]

theorem reportVolumes_clean {pods : List Pod} {progress : Progress} :
    (reportVolumes text pods progress).anyFailed = false ↔ progress.anyFailed = false ∧
      ∀ plugin ∈ nodePlugins (podsByNs pods), ∀ volume ∈ plugin.2.volumes, badKeys volume = [] := by
  rw [reportVolumes, checkNodePluginVolumes]
  by_cases hnone : nodePlugins (podsByNs pods) = []
  · simp [hnone]
  · simp only [hnone, if_false, anyFailed_subtest, Bool.or_eq_false_iff, Option.isSome_eq_false_iff,
      Option.isNone_iff_eq_none, ite_eq_right_iff, reduceCtorEq, imp_false, ne_eq, not_not,
      List.flatMap_eq_nil_iff, List.filterMap_eq_nil_iff, volumeViolation_eq_none]

variable (unicode config cluster)

theorem passes_iff_run : Passes unicode text config cluster ↔
    ∃ report, run unicode text config cluster = .ok report ∧ report.passed = true := by
  rw [Passes, execute]
  rcases run unicode text config cluster with (_ | _ | _) | _ <;> simp

theorem mapError_ok {ε δ α : Type} {f : ε → δ} {first : Except ε α} {result : α} :
    first.mapError f = .ok result ↔ first = .ok result := by
  cases first <;> simp [Except.mapError]

theorem passed_conclude {drivers : ℕ} {discovered : List Ref} {progress : Progress} :
    (conclude drivers discovered progress).passed = true ↔ progress.anyFailed = false := by
  rw [conclude]
  cases progress.anyFailed <;> simp

theorem inspect_passed {drivers : ℕ} {pods : List Pod} {volumes : List PersistentVolume} :
    (∃ report, inspect unicode text config cluster drivers pods volumes = .ok report ∧
      report.passed = true) ↔ Inspected unicode config cluster volumes pods := by
  have hmarkers := @checkMarkers_clean unicode config cluster {} (discoveredSecrets volumes pods)
  simp only [inspect, bind_eq_ok, mapError_ok]
  constructor
  · rintro ⟨report, ⟨markers, hread, progress, hroles, hreport⟩, hpassed⟩
    rw [← Except.ok.inj hreport, passed_conclude, reportVolumes_clean] at hpassed
    obtain ⟨hprogress, hmounts⟩ := hpassed
    obtain ⟨hbefore, haccepted⟩ := (reportRbac_clean text).mp ⟨progress, hroles, hprogress⟩
    obtain ⟨hnamespaces, hclean⟩ := reportMarkers_clean.mp hbefore
    obtain ⟨-, hpermitted⟩ := (reportNamespaces_clean text).mp hnamespaces
    obtain ⟨-, hunshared⟩ := hmarkers.mp ⟨markers, hread, hclean⟩
    refine ⟨fun ref href ↦ ?_, haccepted, fun ns pod hpod hplugin ↦ ?_⟩
    · rw [← mem_discoveredSecrets] at href
      exact ⟨hpermitted ref href, hunshared ref href⟩
    · exact hmounts (ns, pod) (mem_nodePlugins.mpr ⟨hpod, hplugin⟩)
  · rintro ⟨hsecrets, haccepted, hmounts⟩
    obtain ⟨markers, hread, hclean⟩ := hmarkers.mpr
      ⟨rfl, fun ref href ↦ (hsecrets ref (mem_discoveredSecrets.mp href)).2⟩
    have hnamespaces := (reportNamespaces_clean text).mpr
      ⟨@reportDiscovered_clean drivers (discoveredSecrets volumes pods),
        fun ref href ↦ (hsecrets ref (mem_discoveredSecrets.mp href)).1⟩
    have hbefore := (@reportMarkers_clean (discoveredSecrets volumes pods) _ _).mpr ⟨hnamespaces, hclean⟩
    obtain ⟨progress, hroles, hprogress⟩ := (reportRbac_clean text).mpr ⟨hbefore, haccepted⟩
    refine ⟨_, ⟨markers, hread, progress, hroles, rfl⟩, passed_conclude.mpr ?_⟩
    refine (reportVolumes_clean text).mpr ⟨hprogress, fun plugin hplugin ↦ ?_⟩
    obtain ⟨hpod, hnode⟩ := mem_nodePlugins.mp hplugin
    exact hmounts _ _ hpod hnode

/-- The check passes on what it accepts, as far as it looks. -/
theorem passes_iff : Passes unicode text config cluster ↔ Accepts unicode config cluster := by
  rw [passes_iff_run, run]
  simp only [bind_eq_ok, listed_ok]
  constructor
  · rintro ⟨report, ⟨_, ⟨hdriversTaken, rfl⟩, hrun⟩, hpassed⟩
    by_cases hdrivers : cluster.csiDrivers.objects = []
    · rw [if_pos hdrivers] at hrun
      cases hrun
    · simp only [if_neg hdrivers, bind_eq_ok, listed_ok] at hrun
      obtain ⟨_, ⟨hpodsTaken, rfl⟩, _, ⟨hvolumesTaken, rfl⟩, hinspect⟩ := hrun
      have hinspected := (inspect_passed unicode text config cluster).mp ⟨report, hinspect, hpassed⟩
      exact ⟨hdriversTaken, hdrivers, hpodsTaken, hvolumesTaken, hinspected⟩
  · intro h
    obtain ⟨report, hinspect, hpassed⟩ := (@inspect_passed unicode text config cluster
      cluster.csiDrivers.objects.length _ _).mpr h.inspected
    refine ⟨report, ⟨_, ⟨h.driversTaken, rfl⟩, ?_⟩, hpassed⟩
    simp only [if_neg h.drivers, bind_eq_ok, listed_ok]
    exact ⟨_, ⟨h.podsTaken, rfl⟩, _, ⟨h.volumesTaken, rfl⟩, hinspect⟩

/-! ## Credentials which are scoped -/

/-- A listing which was read as a list. -/
def Listing.Parsed {α : Type} (listing : Listing α) : Prop := ∃ items, listing = some (.items items)

/-- All secrets which a pod names, by whichever field. -/
def Pod.references (pod : Pod) : List String :=
  (pod.containers ++ pod.initContainers ++ pod.ephemeralContainers).flatMap Container.secretNames ++
    pod.volumes.flatMap (fun volume ↦ volume.secretNames ++ (given volume.driverSecret).toList) ++
    pod.imagePullSecrets.filterMap given

/-- A secret to which a volume or a pod of a driver refers. -/
inductive Referenced (ref : Ref) : Prop
  | volume {volume : PersistentVolume} {csi : CsiSource} (hvolume : volume ∈ cluster.persistentVolumes.objects)
      (hcsi : volume.csi = some csi) (href : ref ∈ csi.secretRefs)
  | pod {pod : Pod} (hpod : pod ∈ cluster.pods.objects) (hcsi : podHasCsiImage pod = true)
      (hns : ref.1 = pod.ns.getD "") (hname : ref.2 ∈ pod.references)

/-- The account under which a controller runs. -/
def Controls (account : Ref) : Prop :=
  ∃ pod ∈ cluster.pods.objects, podIsController pod = true ∧ (pod.ns.getD "", pod.account) = account

/-- A subject which the account is, by its name, as a user, or through a group. -/
inductive Reaches (account : Ref) : Subject → Prop
  | serviceAccount : Reaches account ⟨"ServiceAccount", account.1, account.2⟩
  | user {ns : String} : Reaches account ⟨"User", ns, s!"system:serviceaccount:{account.1}:{account.2}"⟩
  | serviceAccounts {ns : String} : Reaches account ⟨"Group", ns, "system:serviceaccounts"⟩
  | namespaceAccounts {ns : String} : Reaches account ⟨"Group", ns, s!"system:serviceaccounts:{account.1}"⟩
  | authenticated {ns : String} : Reaches account ⟨"Group", ns, "system:authenticated"⟩

/-- A rule which gives one of the verbs on secrets, whatever their names. -/
structure GivesSecrets (rule : PolicyRule) : Prop where
  group : "" ∈ rule.apiGroups ∨ "*" ∈ rule.apiGroups
  resource : "secrets" ∈ rule.resources ∨ "*" ∈ rule.resources
  verb : ∃ verb ∈ rule.verbs, verb ∈ secretVerbs
  names : rule.resourceNames = []

/-- A binding of a role which exists gives secrets to the account through the subject. -/
structure Grants (account : Ref) (subject : Subject) (role : ClusterRole) : Prop where
  reaches : Reaches account subject
  bound : ∃ binding ∈ cluster.clusterRoleBindings.objects,
    subject ∈ binding.subjects ∧ binding.roleRef = ⟨"ClusterRole", role.name⟩
  existing : role ∈ cluster.clusterRoles.objects
  rule : ∃ rule ∈ role.rules, GivesSecrets rule

/-- The credentials of the drivers are scoped to their tenant, and the check has seen that they are. -/
structure Sound : Prop where
  drivers : cluster.csiDrivers.Parsed
  pods : cluster.pods.Parsed
  volumes : cluster.persistentVolumes.Parsed
  roles : (∃ account, Controls cluster account) →
    cluster.clusterRoleBindings.Parsed ∧ cluster.clusterRoles.Parsed
  secrets : ∀ ref, Referenced cluster ref → ref.1 ∈ permittedNamespaces config cluster.pods.objects ∧
    (cluster.secret ref ≠ .missing →
      ref ∈ discoveredSecrets cluster.persistentVolumes.objects cluster.pods.objects ∧
        ∃ secret, cluster.secret ref = .found secret ∧ ¬ Marked unicode config secret)
  grants : ∀ account subject role, Controls cluster account → ¬ Grants cluster account subject role

/-- Nothing of the cluster escapes the check: its listings are lists, what it does not collect does not
exist, and each grant is to an account by its name and by the role which counts under its own. -/
structure Complete : Prop where
  pods : cluster.pods.Parsed
  volumes : cluster.persistentVolumes.Parsed
  roles : (∃ account, Controls cluster account) →
    cluster.clusterRoleBindings.Parsed ∧ cluster.clusterRoles.Parsed
  secrets : ∀ ref, Referenced cluster ref →
    ¬ Collected cluster.persistentVolumes.objects cluster.pods.objects ref →
      ref.1 ∈ permittedNamespaces config cluster.pods.objects ∧ cluster.secret ref = .missing
  grants : ∀ account subject role, Controls cluster account → Grants cluster account subject role →
    account.1 ≠ "" ∧ subject.kind = "ServiceAccount" ∧
      (rolesByName cluster.clusterRoles.objects).get? role.name = some role

variable {unicode config cluster}

theorem ruleGrants_of_givesSecrets {rule : PolicyRule} (h : GivesSecrets rule) :
    ruleGrantsUnrestrictedSecrets rule = true := by
  obtain ⟨verb, hverb, hchecked⟩ := h.verb
  have hresource : ¬ (!rule.resources.contains "secrets" && !rule.resources.contains "*") = true := by
    simpa using fun hno ↦ h.resource.resolve_left hno
  have hgroup : rule.apiGroups.any ["", "*"].contains = true :=
    List.any_eq_true.mpr (h.group.elim (fun hmem ↦ ⟨"", hmem, rfl⟩) fun hmem ↦ ⟨"*", hmem, rfl⟩)
  have hverbs : rule.verbs.any secretVerbs.contains = true :=
    List.any_eq_true.mpr ⟨verb, hverb, List.contains_iff_mem.mpr hchecked⟩
  rw [ruleGrantsUnrestrictedSecrets, if_neg hresource, if_neg (by simp [hgroup]), if_neg (by simp [hverbs]),
    if_neg (not_not.mpr h.names)]

theorem given_eq_some {field : Option String} {name : String} (h : field.getD "" = name) (hname : name ≠ "") :
    given field = some name := by
  cases field with
  | none => exact absurd h.symm hname
  | some found =>
    have heq : found = name := h
    rw [given, heq, Option.filter_some, if_pos (by simpa using hname)]

theorem controllerIn_of_controls {account : Ref} (h : Controls cluster account) (hns : account.1 ≠ "") :
    ControllerIn cluster.pods.objects account := by
  obtain ⟨pod, hpod, hcontroller, rfl⟩ := h
  exact ⟨pod, ⟨hpod, podHasCsiImage_of_controller hcontroller, given_eq_some rfl hns⟩, hcontroller, rfl⟩

/-- What the check accepts gives nothing to an account by its name. -/
theorem not_grants_of_accepts (haccepts : Accepts unicode config cluster) {account : Ref} {subject : Subject}
    {role : ClusterRole} (hcontrols : Controls cluster account) (hns : account.1 ≠ "")
    (hkind : subject.kind = "ServiceAccount")
    (hrole : (rolesByName cluster.clusterRoles.objects).get? role.name = some role) :
    ¬ Grants cluster account subject role := by
  intro h
  obtain ⟨binding, hbinding, hsubject, hroleRef⟩ := h.bound
  obtain ⟨rule, hrule, hgives⟩ := h.rule
  have hroles := haccepts.inspected.roles account (controllerIn_of_controls hcontrols hns)
  have hnamed : (subject.ns, subject.name) = account := by
    cases h.reaches with
    | serviceAccount => rfl
    | _ => simp at hkind
  have hno := hroles.bindings binding hbinding subject hsubject hkind hnamed (by rw [hroleRef]) role
    (by rw [hroleRef]; exact hrole) rule hrule
  rw [ruleGrants_of_givesSecrets hgives] at hno
  cases hno

theorem parsed_of_objects {α : Type} {listing : Listing α} (h : listing.objects ≠ []) : listing.Parsed := by
  rcases listing with _ | _ | _ | _ | _ | items <;> first | exact absurd rfl h | exact ⟨items, rfl⟩

theorem sound_of_complete (haccepts : Accepts unicode config cluster)
    (hcomplete : Complete config cluster) : Sound unicode config cluster := by
  refine ⟨parsed_of_objects haccepts.drivers, hcomplete.pods, hcomplete.volumes, hcomplete.roles,
    fun ref href ↦ ?_, fun account subject role hcontrols hgrants ↦ ?_⟩
  · by_cases hcollected : Collected cluster.persistentVolumes.objects cluster.pods.objects ref
    · obtain ⟨hpermitted, hunshared⟩ := haccepts.inspected.secrets ref hcollected
      exact ⟨hpermitted, fun hexists ↦
        ⟨mem_discoveredSecrets.mpr hcollected, hunshared.resolve_left hexists⟩⟩
    · obtain ⟨hpermitted, hmissing⟩ := hcomplete.secrets ref href hcollected
      exact ⟨hpermitted, fun hexists ↦ absurd hmissing hexists⟩
  · obtain ⟨hns, hkind, hrole⟩ := hcomplete.grants account subject role hcontrols hgrants
    exact not_grants_of_accepts haccepts hcontrols hns hkind hrole hgrants

theorem complete_of_sound (hsound : Sound unicode config cluster) : Complete config cluster := by
  refine ⟨hsound.pods, hsound.volumes, hsound.roles, fun ref href hcollected ↦ ?_,
    fun account subject role hcontrols hgrants ↦ absurd hgrants (hsound.grants account subject role hcontrols)⟩
  obtain ⟨hpermitted, hread⟩ := hsound.secrets ref href
  refine ⟨hpermitted, not_not.mp fun hexists ↦ ?_⟩
  exact hcollected (mem_discoveredSecrets.mp (hread hexists).1)

variable (unicode config cluster)

/-- The check is right exactly where it refuses the cluster by one of its own tests, or nothing of the
cluster escapes it. -/
theorem sound_of_passes_iff : (Passes unicode text config cluster → Sound unicode config cluster) ↔
    ¬ Accepts unicode config cluster ∨ Complete config cluster := by
  rw [passes_iff]
  constructor
  · intro h
    by_cases haccepts : Accepts unicode config cluster
    · exact .inr (complete_of_sound (h haccepts))
    · exact .inl haccepts
  · intro h haccepts
    exact sound_of_complete haccepts (h.resolve_left (not_not.mpr haccepts))

/-- A controller in `kube-system` whose group may read all secrets. -/
def groupCluster : Cluster where
  csiDrivers := some (.items [some ()])
  pods := some (.items [some
    { ns := "kube-system", containers := [{ image := "csi-provisioner:v4" }], serviceAccountName := "driver" }])
  persistentVolumes := some (.items [])
  clusterRoleBindings := some (.items [some
    { name := "secrets"
      subjects := [{ kind := "Group", name := "system:serviceaccounts" }]
      roleRef := ⟨"ClusterRole", "reader"⟩ }])
  clusterRoles := some (.items [some
    { name := "reader", rules := [{ apiGroups := [""], resources := ["secrets"], verbs := ["get"] }] }])
  secret := fun _ ↦ .missing

/-- The binding is of a group, and the check passes. -/
theorem passes_group_binding :
    Passes UnicodeData.ascii.toUnicode ⟨String.join, id⟩ {} groupCluster ∧
      ¬ Sound UnicodeData.ascii.toUnicode {} groupCluster := by
  refine ⟨⟨_, rfl, rfl⟩, fun h ↦ ?_⟩
  refine h.grants ("kube-system", "driver") ⟨"Group", "", "system:serviceaccounts"⟩ _
    ⟨_, List.mem_singleton_self _, by decide, rfl⟩ ⟨.serviceAccounts, ?_, List.mem_singleton_self _, ?_⟩
  · exact ⟨_, List.mem_singleton_self _, List.mem_singleton_self _, rfl⟩
  · exact ⟨_, List.mem_singleton_self _, ⟨by decide, by decide, ⟨"get", by decide⟩, rfl⟩⟩

end IsvValidation.K8s.Csi
