import IsvValidation.Library.OrderedMap

/-!
# Nodes and their conditional patches

The node of a cluster as far as the cordon test looks at it, the selection of a node, and the two
JSON patches: the claim, which cordons a node and leaves the marker of its owner, and the release,
which takes the marker away and uncordons. Both test the resource version that was read.
-/

namespace IsvValidation.Breakfix

open Library

/-! ## Nodes -/

def ownerAnnotation : String := "isvtest.nvidia.com/bfx01-04-owner"

structure Condition where
  type : String
  status : String
  reason : String := ""
  deriving DecidableEq

structure Taint where
  key : String
  value : Option String := none
  effect : String
  deriving DecidableEq

/-- The spec of a node; what is not looked at stands in `other`. -/
structure NodeSpec where
  unschedulable : Option Bool := none
  taints : List Taint := []
  other : List (String × String) := []
  deriving DecidableEq

/-- A node, without its name. -/
structure Node where
  resourceVersion : String
  labels : OrderedMap String String := .empty
  annotations : Option (OrderedMap String String) := none
  spec : NodeSpec := {}
  conditions : List Condition := []

namespace Node

/-- The owner a node is marked with. -/
def owner (node : Node) : Option String := (node.annotations.getD .empty).get? ownerAnnotation

/-- An absent field counts as false. -/
def unschedulable (node : Node) : Bool := node.spec.unschedulable.getD false

end Node

/-- `_node_is_available`: Ready, schedulable, and unclaimed. -/
def nodeIsAvailable (node : Node) : Bool :=
  let ready := node.conditions.any fun item ↦ item.type = "Ready" && item.status = "True"
  ready && !node.unschedulable && node.owner.isNone

/-- `_owned_by`. -/
def ownedBy (node : Node) (token : String) : Bool := node.owner = some token

/-! ## Selection -/

/-- Errors of the workflow; a `KubectlTimeoutError` is a `CordonTestError`. -/
inductive Failure where
  | cordonTest (message : String)
  | kubectlTimeout (message : String)
  | unexpected (message : String)
  deriving DecidableEq

structure Toleration where
  key : String
  value : String
  effect : String
  deriving DecidableEq

structure NodeSelection where
  name : String
  hostname : String
  resourceVersion : String
  spec : NodeSpec
  annotationsPresent : Bool
  tolerations : List Toleration

/-- The tolerations of a probe: the taints of the node, but never that of the cordon. -/
def tolerationsOf (spec : NodeSpec) : List Toleration :=
  spec.taints.filterMap fun taint ↦
    if taint.effect ≠ "NoSchedule" ∧ taint.effect ≠ "NoExecute" then none
    else if taint.key = "node.kubernetes.io/unschedulable" then none
    else some ⟨taint.key, taint.value.getD "", taint.effect⟩

/-- The nodes `_select_node` may take, from those listed with their names. -/
def candidates (items : List (String × Node)) (requestedNode : String) : List (String × Node) :=
  let available := items.filter fun item ↦ nodeIsAvailable item.2
  if requestedNode ≠ "" then available.filter fun item ↦ item.1 = requestedNode else available

/-- The second half of `_select_node`: what is kept of the node which is taken. -/
def snapshot (name : String) (node : Node) : Except Failure NodeSelection :=
  let hostname := (node.labels.get? "kubernetes.io/hostname").getD ""
  if name = "" then .error (.cordonTest "Selected node is missing metadata.name")
  else if hostname = "" then
    .error (.cordonTest s!"Node '{name}' is missing the kubernetes.io/hostname label")
  else if node.resourceVersion = "" then
    .error (.cordonTest s!"Node '{name}' is missing metadata.resourceVersion")
  else
    .ok
      { name, hostname
        resourceVersion := node.resourceVersion
        spec := node.spec
        annotationsPresent := node.annotations.isSome
        tolerations := tolerationsOf node.spec }

/-- `_select_node`, on the nodes which are listed. -/
def selectNode (items : List (String × Node)) (requestedNode : String) :
    Except Failure NodeSelection :=
  match candidates items requestedNode with
  | [] =>
    if requestedNode ≠ "" then
      .error (.cordonTest
        s!"Requested node '{requestedNode}' is not Ready, schedulable, and unclaimed")
    else
      .error (.cordonTest
        "No Ready, schedulable, unclaimed node is available for the cordon test")
  | (name, node) :: rest =>
    if requestedNode = "" ∧ ¬ rest.isEmpty then
      .error (.cordonTest
        "Multiple Ready, schedulable nodes are available; pass --node with a dedicated test node")
    else snapshot name node

/-- A selection is made from a node. -/
structure SelectedFrom (selection : NodeSelection) (node : Node) : Prop where
  resourceVersion : selection.resourceVersion = node.resourceVersion
  spec : selection.spec = node.spec
  annotationsPresent : selection.annotationsPresent = node.annotations.isSome

theorem snapshot_eq_ok {name : String} {node : Node} {selection : NodeSelection}
    (h : snapshot name node = .ok selection) :
    selection.name = name ∧ SelectedFrom selection node := by
  simp only [snapshot] at h
  split at h
  · cases h
  · split at h
    · cases h
    · split at h
      · cases h
      · cases h
        exact ⟨rfl, rfl, rfl, rfl⟩

theorem mem_candidates {items : List (String × Node)} {requestedNode : String}
    {item : String × Node} (h : item ∈ candidates items requestedNode) :
    item ∈ items ∧ nodeIsAvailable item.2 ∧ (requestedNode ≠ "" → item.1 = requestedNode) := by
  unfold candidates at h
  split at h
  · rw [List.mem_filter, List.mem_filter] at h
    exact ⟨h.1.1, h.1.2, fun _ ↦ by simpa using h.2⟩
  · rename_i hrequested
    rw [List.mem_filter] at h
    exact ⟨h.1, h.2, fun hne ↦ absurd hne hrequested⟩

/-- A selection is a snapshot of an available node of the requested name. -/
theorem selectNode_eq_ok {items : List (String × Node)} {requestedNode : String}
    {selection : NodeSelection} (h : selectNode items requestedNode = .ok selection) :
    ∃ node, (selection.name, node) ∈ items ∧ nodeIsAvailable node ∧
      (requestedNode ≠ "" → selection.name = requestedNode) ∧ SelectedFrom selection node := by
  unfold selectNode at h
  split at h
  · split at h <;> cases h
  · rename_i name node rest hcandidates
    split at h
    · cases h
    · obtain ⟨rfl, hfrom⟩ := snapshot_eq_ok h
      have hmem := mem_candidates (hcandidates ▸ List.mem_cons_self)
      exact ⟨node, hmem.1, hmem.2.1, hmem.2.2, hfrom⟩

/-! ## Patches -/

/-- The operations of the JSON patches, by the path they are on. -/
inductive PatchOp where
  | testResourceVersion (value : String)
  | testUnschedulable (value : Bool)
  | testSpec (value : NodeSpec)
  | testAnnotationAt (key value : String)
  | addAnnotationAt (key value : String)
  | addAnnotations (value : OrderedMap String String)
  | addUnschedulable (value : Bool)
  | replaceUnschedulable (value : Bool)
  | removeAnnotationAt (key : String)

/-- One operation: a test which fails and a path which does not exist reject the patch. -/
def PatchOp.apply (node : Node) : PatchOp → Option Node
  | testResourceVersion value => if node.resourceVersion = value then some node else none
  | testUnschedulable value => if node.spec.unschedulable = some value then some node else none
  | testSpec value => if node.spec = value then some node else none
  | testAnnotationAt key value =>
    if (node.annotations.getD .empty).get? key = some value then some node else none
  | addAnnotationAt key value =>
    node.annotations.map fun annotations ↦
      { node with annotations := some (annotations.insert key value) }
  | addAnnotations value => some { node with annotations := some value }
  | addUnschedulable value =>
    some { node with spec := { node.spec with unschedulable := some value } }
  | replaceUnschedulable value =>
    if node.spec.unschedulable.isSome then
      some { node with spec := { node.spec with unschedulable := some value } }
    else none
  | removeAnnotationAt key =>
    node.annotations.bind fun annotations ↦
      if (annotations.get? key).isSome then
        some { node with annotations := some (annotations.filterKeys (· ≠ key)) }
      else none

/-- A JSON patch applies all of its operations in order, or nothing. -/
def applyPatch (patch : List PatchOp) (node : Node) : Option Node :=
  patch.foldlM PatchOp.apply node

/-- The patch of `_claim_node`. -/
def claimPatch (selection : NodeSelection) (token : String) : List PatchOp :=
  [.testResourceVersion selection.resourceVersion] ++
    (if selection.spec.unschedulable.isSome then [.testUnschedulable false]
      else [.testSpec selection.spec]) ++
    (if selection.annotationsPresent then [.addAnnotationAt ownerAnnotation token]
      else [.addAnnotations (OrderedMap.empty.insert ownerAnnotation token)]) ++
    [.addUnschedulable true]

/-- The patch of `_release_node`, from the node it has read. -/
def releasePatch (node : Node) (token : String) : List PatchOp :=
  [.testResourceVersion node.resourceVersion, .testAnnotationAt ownerAnnotation token] ++
    (if node.unschedulable then [.testUnschedulable true, .replaceUnschedulable false] else []) ++
    [.removeAnnotationAt ownerAnnotation]

/-- A node with the marker taken away, and uncordoned if it was cordoned. -/
def Node.released (node : Node) : Node :=
  { node with
    annotations := node.annotations.map (OrderedMap.filterKeys (· ≠ ownerAnnotation))
    spec := if node.unschedulable then { node.spec with unschedulable := some false } else node.spec }

theorem applyPatch_append {first second : List PatchOp} {node after : Node} :
    applyPatch (first ++ second) node = some after ↔
      ∃ middle, applyPatch first node = some middle ∧ applyPatch second middle = some after := by
  rw [applyPatch, List.foldlM_append]
  exact Option.bind_eq_some_iff

theorem applyPatch_cons {op : PatchOp} {rest : List PatchOp} {node after : Node} :
    applyPatch (op :: rest) node = some after ↔
      ∃ middle, op.apply node = some middle ∧ applyPatch rest middle = some after := by
  rw [applyPatch, List.foldlM_cons]
  exact Option.bind_eq_some_iff

@[simp] theorem applyPatch_nil {node after : Node} :
    applyPatch [] node = some after ↔ node = after := Option.some.injEq node after ▸ Iff.rfl

theorem apply_testResourceVersion {value : String} {node after : Node} :
    PatchOp.apply node (.testResourceVersion value) = some after ↔
      node.resourceVersion = value ∧ node = after := by
  simp [PatchOp.apply]

/-- Whichever way a claim adds its marker, the marker is there. -/
theorem applyPatch_marker {present : Bool} {token : String} {node after : Node}
    (h : applyPatch (if present then [.addAnnotationAt ownerAnnotation token]
      else [.addAnnotations (OrderedMap.empty.insert ownerAnnotation token)]) node = some after) :
    after.owner = some token := by
  split at h
  · rw [applyPatch_cons] at h
    obtain ⟨middle, hadd, hrest⟩ := h
    rw [PatchOp.apply, Option.map_eq_some_iff] at hadd
    obtain ⟨annotations, _, rfl⟩ := hadd
    rw [← applyPatch_nil.mp hrest]
    simp [Node.owner]
  · rw [applyPatch_cons] at h
    obtain ⟨middle, hadd, hrest⟩ := h
    rw [PatchOp.apply, Option.some.injEq] at hadd
    rw [← applyPatch_nil.mp hrest, ← hadd]
    simp [Node.owner]

/-- A claim commits on the version it was made for, and leaves its marker and a cordon. -/
theorem applyPatch_claimPatch {selection : NodeSelection} {token : String} {node after : Node}
    (h : applyPatch (claimPatch selection token) node = some after) :
    node.resourceVersion = selection.resourceVersion ∧ after.owner = some token ∧
      after.unschedulable = true := by
  rw [claimPatch, applyPatch_append] at h
  obtain ⟨marked, h, hcordon⟩ := h
  rw [applyPatch_append] at h
  obtain ⟨tested, h, hmarker⟩ := h
  rw [applyPatch_append] at h
  obtain ⟨same, hversion, _⟩ := h
  rw [applyPatch_cons] at hversion hcordon
  obtain ⟨middle, hversion, _⟩ := hversion
  obtain ⟨cordoned, hcordon, hnil⟩ := hcordon
  have howner := applyPatch_marker hmarker
  rw [PatchOp.apply, Option.some.injEq] at hcordon
  rw [← applyPatch_nil.mp hnil, ← hcordon]
  exact ⟨(apply_testResourceVersion.mp hversion).1, howner, rfl⟩

/-- The part of a release which uncordons. -/
theorem applyPatch_uncordon {seen node after : Node}
    (h : applyPatch (if seen.unschedulable then [.testUnschedulable true, .replaceUnschedulable false]
      else []) node = some after) :
    (seen.unschedulable → node.unschedulable) ∧ after = { node with
      spec := if seen.unschedulable then { node.spec with unschedulable := some false }
        else node.spec } := by
  split at h
  · rename_i hseen
    simp only [applyPatch_cons, applyPatch_nil, PatchOp.apply,
      Option.ite_none_right_eq_some] at h
    obtain ⟨same, ⟨htest, hsame⟩, replaced, ⟨_, hreplaced⟩, rfl⟩ := h
    rw [Option.some.injEq] at hsame hreplaced
    subst hsame
    rw [if_pos hseen, hreplaced]
    exact ⟨fun _ ↦ by simp [Node.unschedulable, htest], rfl⟩
  · rename_i hseen
    rw [← applyPatch_nil.mp h, if_neg hseen]
    exact ⟨fun hcordoned ↦ absurd hcordoned hseen, rfl⟩

/-- A release commits on the version it was made for, if the marker is still there, and does what it
was made for. -/
theorem applyPatch_releasePatch {seen : Node} {token : String} {node after : Node}
    (h : applyPatch (releasePatch seen token) node = some after) :
    node.resourceVersion = seen.resourceVersion ∧ node.owner = some token ∧
      (seen.unschedulable = node.unschedulable → after = node.released) := by
  rw [releasePatch, applyPatch_append] at h
  obtain ⟨uncordoned, h, hremove⟩ := h
  rw [applyPatch_append] at h
  obtain ⟨tested, htests, huncordon⟩ := h
  simp only [applyPatch_cons, applyPatch_nil, PatchOp.apply, Option.ite_none_right_eq_some,
    Option.some.injEq] at htests
  obtain ⟨same, ⟨hversion, rfl⟩, other, ⟨howner, rfl⟩, rfl⟩ := htests
  refine ⟨hversion, howner, fun hsame ↦ ?_⟩
  obtain ⟨_, rfl⟩ := applyPatch_uncordon huncordon
  simp only [applyPatch_cons, applyPatch_nil, PatchOp.apply, Option.bind_eq_some_iff,
    Option.ite_none_right_eq_some, Option.some.injEq] at hremove
  obtain ⟨removed, ⟨annotations, hannotations, _, rfl⟩, rfl⟩ := hremove
  rw [Node.released, ← hsame, hannotations]
  rfl

theorem owner_released (node : Node) : node.released.owner = none := by
  unfold Node.owner Node.released
  cases node.annotations with
  | none => rfl
  | some annotations => simp [OrderedMap.get?_filterKeys]

theorem unschedulable_released (node : Node) : node.released.unschedulable = false := by
  rw [Node.unschedulable, Node.released]
  by_cases h : node.unschedulable
  · rw [if_pos h]
    rfl
  · rw [if_neg h]
    exact Bool.not_eq_true _ ▸ h

end IsvValidation.Breakfix
