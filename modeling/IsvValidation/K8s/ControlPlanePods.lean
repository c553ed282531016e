import Mathlib.Data.List.Sort
import IsvValidation.Host.Text
import IsvValidation.Library.Greedy
import IsvValidation.Validation.Report

/-!
# The pods of the control plane

The check looks for one pod of each component, by the label of the pods and, for components without a
labelled pod, by their names. Longer names come first, so that a component whose name goes on behind the
name of another one gets its pod before the other one does. It gets one pod, and may have more of them.
-/

namespace IsvValidation.K8s.ControlPlane

open Host Library Validation

/-! ## Pods -/

/-- A pod of the listing: its name, and its `component` label. -/
structure PodItem where
  name : Option String := none
  component : Option String := none

structure Pod where
  name : String
  label : String
  deriving DecidableEq

/-- A pod with a name, stripped. -/
def podOf (unicode : Unicode) (item : PodItem) : Option Pod :=
  let name := unicode.strip (item.name.getD "")
  if name ≠ "" then some ⟨name, unicode.strip (item.component.getD "")⟩ else none

def podsOf (unicode : Unicode) (items : List PodItem) : List Pod := items.filterMap (podOf unicode)

def labelled (component : String) (pod : Pod) : Bool := pod.label = component

/-- The name of the component, alone or with a suffix. -/
def named (component : String) (pod : Pod) : Bool :=
  pod.name = component || Text.startsWith pod.name (component ++ "-")

/-- `sorted(missing, key=len, reverse=True)`. -/
def longestFirst (components : List String) : List String :=
  components.insertionSort fun first second ↦ second.length ≤ first.length

/-- The first pass of `_find_component_pods`. -/
def byLabel (pods : List Pod) (components : List String) : Greedy.State String String :=
  Greedy.run Pod.name pods labelled components {}

/-- The components without a pod after the first pass. -/
def missing (pods : List Pod) (components : List String) : List String :=
  components.filter fun component ↦ ((byLabel pods components).found.get? component).isNone

/-- The map of `_find_component_pods`, after both passes. -/
def assignPods (pods : List Pod) (components : List String) : OrderedMap String String :=
  (Greedy.run Pod.name pods named (longestFirst (missing pods components)) (byLabel pods components)).found

/-- `_find_component_pods`; the listing failed with an error, or has pods. -/
def findComponentPods (unicode : Unicode) (listing : Except String (List PodItem)) (components : List String) :
    OrderedMap String String × Option String :=
  match listing with
  | .error probeError => (.empty, some probeError)
  | .ok items => (assignPods (podsOf unicode items) components, none)

variable (unicode : Unicode)

/-! ## Names -/

variable {pods : List Pod} {components : List String} {component other : String} {pod : Pod}

theorem prefix_of_named (h : named component pod = true) : component.toList <+: pod.name.toList := by
  rw [named, Bool.or_eq_true, decide_eq_true_eq] at h
  rcases h with h | h
  · rw [h]
  · rw [Text.startsWith, List.isPrefixOf_iff_prefix, String.toList_append] at h
    exact (List.prefix_append _ _).trans h

/-- Two components of one length do not name the same pod. -/
theorem eq_of_named (h : named component pod = true) (hother : named other pod = true)
    (hlength : component.length = other.length) : component = other := by
  rw [← String.length_toList, ← String.length_toList] at hlength
  have hstart := List.prefix_of_prefix_length_le (prefix_of_named h) (prefix_of_named hother) hlength.le
  exact String.toList_inj.mp (hstart.eq_of_length hlength)

/-- The longest of the components which name a pod. -/
def owns (components : List String) (component : String) (pod : Pod) : Bool :=
  named component pod && components.all fun other ↦ !named other pod || other.length ≤ component.length

theorem owns_eq_true : owns components component pod = true ↔ named component pod = true ∧
    ∀ other ∈ components, named other pod = true → other.length ≤ component.length := by
  simp [owns, or_iff_not_imp_left]

/-! ## The first pass -/

section Labels

variable (hpods : (pods.map Pod.name).Nodup)
include hpods

theorem pod_eq_of_name {one two : Pod} (hone : one ∈ pods) (htwo : two ∈ pods) (hname : one.name = two.name) :
    one = two := List.inj_on_of_nodup_map hpods hone htwo hname

theorem labelled_disjoint : Greedy.Disjoint Pod.name pods labelled := by
  intro first second one hone two htwo hfirst hsecond hname
  rw [pod_eq_of_name hpods hone htwo hname] at hfirst
  exact (of_decide_eq_true hfirst).symm.trans (of_decide_eq_true hsecond)

variable (hcomponents : components.Nodup)
include hcomponents

theorem get?_byLabel (h : component ∈ components) : (byLabel pods components).found.get? component =
    (pods.find? (labelled component)).map Pod.name :=
  Greedy.get?_found_run_of_disjoint (labelled_disjoint hpods) hcomponents h

/-- The pods which are taken by their label. -/
theorem claimed_byLabel : (byLabel pods components).claimed =
    Greedy.firstChoices Pod.name pods labelled components :=
  Greedy.claimed_run_of_disjoint (labelled_disjoint hpods) hcomponents

end Labels

/-- The components no pod has as its label. -/
def unlabelled (pods : List Pod) (components : List String) : List String :=
  components.filter fun component ↦ pods.all fun pod ↦ !labelled component pod

theorem missing_eq (hpods : (pods.map Pod.name).Nodup) (hcomponents : components.Nodup) :
    missing pods components = unlabelled pods components := by
  refine List.filter_congr fun component hcomponent ↦ ?_
  rw [get?_byLabel hpods hcomponents hcomponent, Option.isNone_map, Bool.eq_iff_iff, Option.isNone_iff_eq_none,
    List.find?_eq_none, List.all_eq_true]
  simp

/-! ## The second pass -/

/-- In the order of the second pass, nobody is before the component a pod belongs to. -/
theorem priority_longestFirst {seekers : List String} (hnodup : seekers.Nodup)
    (hsub : ∀ component ∈ seekers, component ∈ components) :
    Greedy.Priority pods named (owns components) (longestFirst seekers) := by
  have hperm : (longestFirst seekers).Perm seekers := List.perm_insertionSort _ _
  have htotal : Std.Total fun first second : String ↦ second.length ≤ first.length :=
    ⟨fun first second ↦ Nat.le_total second.length first.length⟩
  have htrans : IsTrans String fun first second ↦ second.length ≤ first.length :=
    ⟨fun _ _ _ h h' ↦ h'.trans h⟩
  have hsorted : (longestFirst seekers).Pairwise fun first second ↦ second.length ≤ first.length :=
    List.pairwise_insertionSort _ seekers
  have hdistinct : (longestFirst seekers).Pairwise (· ≠ ·) := hperm.symm.nodup hnodup
  constructor
  · intro component pod howns
    exact (owns_eq_true.mp howns).1
  · intro first hfirst second hsecond pod hone htwo
    rw [owns_eq_true] at hone htwo
    have hle := hone.2 second (hsub second (hperm.subset hsecond)) htwo.1
    have hge := htwo.2 first (hsub first (hperm.subset hfirst)) hone.1
    exact eq_of_named hone.1 htwo.1 (Nat.le_antisymm hge hle)
  · refine (hsorted.and hdistinct).imp_of_mem ?_
    rintro first second hfirst hsecond ⟨hlength, hne⟩ pod _ hwants
    by_contra howns
    rw [Bool.not_eq_false, owns_eq_true] at howns
    have hle := howns.2 first (hsub first (hperm.subset hfirst)) hwants
    exact hne (eq_of_named hwants howns.1 (Nat.le_antisymm hle hlength))

/-- The state after both passes. -/
def assigned (pods : List Pod) (components : List String) : Greedy.State String String :=
  Greedy.run Pod.name pods named (longestFirst (missing pods components)) (byLabel pods components)

theorem get?_byLabel_of_mem (h : component ∈ longestFirst (missing pods components)) :
    (byLabel pods components).found.get? component = none := by
  have hmem := (List.perm_insertionSort _ _).subset h
  exact Option.isNone_iff_eq_none.mp (List.mem_filter.mp hmem).2

/-- A component which is not looked for by name keeps what it has. -/
theorem get?_assigned_of_notMem (h : component ∉ longestFirst (missing pods components)) :
    (assigned pods components).found.get? component = (byLabel pods components).found.get? component :=
  Greedy.get?_found_run_of_notMem h

theorem sound_assigned (hcomponents : components.Nodup) : Greedy.Sound (assigned pods components) := by
  have hfirst : Greedy.Sound (byLabel pods components) :=
    Greedy.sound_empty.run hcomponents fun _ _ ↦ OrderedMap.get?_empty _
  have hnodup : (longestFirst (missing pods components)).Nodup :=
    (List.perm_insertionSort _ _).symm.nodup (hcomponents.filter _)
  exact hfirst.run hnodup fun _ hmem ↦ get?_byLabel_of_mem hmem

/-- A pod which is found carries the label or the name. -/
theorem wanted_of_assigned {name : String}
    (h : (assigned pods components).found.get? component = some name) :
    ∃ pod ∈ pods, pod.name = name ∧ (labelled component pod = true ∨ named component pod = true) := by
  by_cases hmem : component ∈ longestFirst (missing pods components)
  · obtain ⟨pod, hpod, hname, hnamed⟩ := Greedy.wanted_of_found (get?_byLabel_of_mem hmem) h
    exact ⟨pod, hpod, hname, .inr hnamed⟩
  · rw [get?_assigned_of_notMem hmem] at h
    obtain ⟨pod, hpod, hname, hlabel⟩ := Greedy.wanted_of_found (OrderedMap.get?_empty _) h
    exact ⟨pod, hpod, hname, .inl hlabel⟩

/-- What a component without a pod could have is taken. -/
theorem claimed_of_unassigned (hcomponents : components.Nodup) (hcomponent : component ∈ components)
    (h : (assigned pods components).found.get? component = none) (hpod : pod ∈ pods)
    (hwants : labelled component pod = true ∨ named component pod = true) :
    pod.name ∈ (assigned pods components).claimed := by
  have hfirst : (byLabel pods components).found.get? component = none := by
    by_cases hmem : component ∈ longestFirst (missing pods components)
    · exact get?_byLabel_of_mem hmem
    · rwa [get?_assigned_of_notMem hmem] at h
  rcases hwants with hlabel | hnamed
  · exact Greedy.mem_claimed_run (Greedy.claimed_of_not_found hcomponent hcomponents hfirst hpod hlabel)
  · have hperm : (longestFirst (missing pods components)).Perm (missing pods components) :=
      List.perm_insertionSort _ _
    have hmem : component ∈ missing pods components :=
      List.mem_filter.mpr ⟨hcomponent, Option.isNone_iff_eq_none.mpr hfirst⟩
    exact Greedy.claimed_of_not_found (hperm.symm.subset hmem) (hperm.symm.nodup (hcomponents.filter _)) h
      hpod hnamed

/-! ## Whether components are crossed -/

/-- No component has a pod which belongs to another one, and none is without a pod which was left. -/
structure Resolved (pods : List Pod) (components : List String) (found : OrderedMap String String) :
    Prop where
  injective : ∀ first second name, found.get? first = some name → found.get? second = some name →
    first = second
  matching : ∀ component name, found.get? component = some name →
    ∃ pod ∈ pods, pod.name = name ∧ (labelled component pod = true ∨ named component pod = true)
  own : ∀ component, ∀ pod ∈ pods, found.get? component = some pod.name → labelled component pod = false →
    ∀ other ∈ components, named other pod = true → other.length ≤ component.length
  exhausted : ∀ component ∈ components, found.get? component = none → ∀ pod ∈ pods,
    labelled component pod = true ∨ named component pod = true → ∃ other, found.get? other = some pod.name

/-- For a component without a labelled pod, the first pod it names which is not taken by a label and is not
the first one of another component's own, is its own. -/
def LeavesOwn (pods : List Pod) (components : List String) : Prop :=
  ∀ component ∈ unlabelled pods components,
    ∀ pod ∈ Greedy.firstSpare Pod.name pods named (owns components) (unlabelled pods components)
      (Greedy.firstChoices Pod.name pods labelled components) component,
    owns components component pod = true

instance (pods : List Pod) (components : List String) : Decidable (LeavesOwn pods components) :=
  inferInstanceAs (Decidable (∀ component ∈ unlabelled pods components,
    ∀ pod ∈ Greedy.firstSpare Pod.name pods named (owns components) (unlabelled pods components)
      (Greedy.firstChoices Pod.name pods labelled components) component,
    owns components component pod = true))

/-- The pods which are found by name are those of their components where each finds its own. -/
theorem own_iff (hpods : (pods.map Pod.name).Nodup) (hcomponents : components.Nodup) :
    (∀ component, ∀ pod ∈ pods, (assigned pods components).found.get? component = some pod.name →
      labelled component pod = false → ∀ other ∈ components, named other pod = true →
        other.length ≤ component.length) ↔ LeavesOwn pods components := by
  have hperm : (longestFirst (missing pods components)).Perm (missing pods components) :=
    List.perm_insertionSort _ _
  have hnodup : (missing pods components).Nodup := hcomponents.filter _
  have hpriority := @priority_longestFirst pods components (missing pods components) hnodup
    fun component hmem ↦ (List.mem_filter.mp hmem).1
  have hnew : ∀ component ∈ longestFirst (missing pods components),
      (byLabel pods components).found.get? component = none := fun _ hmem ↦ get?_byLabel_of_mem hmem
  have hown := Greedy.own_of_found_iff hpriority (hperm.symm.nodup hnodup)
    (fun one hone two htwo hname ↦ pod_eq_of_name hpods hone htwo hname) hnew
  have hmissing := missing_eq hpods hcomponents
  rw [LeavesOwn, ← hmissing, ← claimed_byLabel hpods hcomponents]
  simp only [← Greedy.firstSpare_perm hperm, ← hperm.mem_iff]
  refine Iff.trans ?_ hown
  constructor
  · intro h component hmem pod hpod hfound
    obtain ⟨two, htwo, hname, hnamed⟩ := Greedy.wanted_of_found (get?_byLabel_of_mem hmem) hfound
    rw [pod_eq_of_name hpods htwo hpod hname] at hnamed
    have hunlabelled := hperm.subset hmem
    rw [hmissing, unlabelled, List.mem_filter, List.all_eq_true] at hunlabelled
    have hlabel := hunlabelled.2 pod hpod
    rw [Bool.not_eq_true'] at hlabel
    exact owns_eq_true.mpr ⟨hnamed, h component pod hpod hfound hlabel⟩
  · intro h component pod hpod hfound hlabel
    by_cases hmem : component ∈ longestFirst (missing pods components)
    · exact (owns_eq_true.mp (h component hmem pod hpod hfound)).2
    · rw [get?_assigned_of_notMem hmem] at hfound
      obtain ⟨two, htwo, hname, hlabelled⟩ := Greedy.wanted_of_found (OrderedMap.get?_empty _) hfound
      rw [pod_eq_of_name hpods htwo hpod hname, hlabel] at hlabelled
      cases hlabelled

/-- `_find_component_pods` keeps the components apart exactly where each one finds its own pod first. -/
theorem findComponentPods_resolved_iff (unicode : Unicode) (items : List PodItem) {components : List String}
    (hpods : ((podsOf unicode items).map Pod.name).Nodup) (hcomponents : components.Nodup) :
    Resolved (podsOf unicode items) components (findComponentPods unicode (.ok items) components).1 ↔
      LeavesOwn (podsOf unicode items) components := by
  have hsound := @sound_assigned (podsOf unicode items) components hcomponents
  rw [← own_iff hpods hcomponents]
  constructor
  · exact Resolved.own
  · intro hown
    refine ⟨hsound.injective, fun _ _ ↦ wanted_of_assigned, hown, ?_⟩
    intro component hcomponent hnone pod hpod hwants
    exact (hsound.claimed _).mp (claimed_of_unassigned hcomponents hcomponent hnone hpod hwants)

/-- The replica of the extender is the first pod in the listing, and both components find their own. -/
theorem findComponentPods_resolved_single :
    let unicode : Unicode := ⟨id, (· = ' '), fun _ ↦ true⟩
    let items : List PodItem := [{ name := "kube-scheduler-extender-a" }, { name := "kube-scheduler-b" }]
    let components := ["kube-scheduler", "kube-scheduler-extender"]
    (podsOf unicode items).length = 2 ∧
      Resolved (podsOf unicode items) components (findComponentPods unicode (.ok items) components).1 :=
  ⟨by decide, (findComponentPods_resolved_iff _ _ (by decide) (by decide)).mpr (by decide)⟩

/-- The second replica of the extender is found for the scheduler. -/
theorem findComponentPods_crossed :
    let unicode : Unicode := ⟨id, (· = ' '), fun _ ↦ true⟩
    let items : List PodItem :=
      [{ name := "kube-scheduler-extender-a" }, { name := "kube-scheduler-extender-b" }]
    let components := ["kube-scheduler", "kube-scheduler-extender"]
    let found := (findComponentPods unicode (.ok items) components).1
    found.get? "kube-scheduler" = some "kube-scheduler-extender-b" ∧
      ¬ Resolved (podsOf unicode items) components found := by
  intro unicode items components found
  have hfound : found.get? "kube-scheduler" = some "kube-scheduler-extender-b" := by decide
  refine ⟨hfound, fun h ↦ ?_⟩
  have hle := h.own "kube-scheduler" ⟨"kube-scheduler-extender-b", ""⟩ (by decide) hfound (by decide)
    "kube-scheduler-extender" (by decide) (by decide)
  exact absurd hle (by decide)

end IsvValidation.K8s.ControlPlane
