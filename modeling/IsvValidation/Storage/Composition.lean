import IsvValidation.Storage.Capabilities

/-!
# What a composed provider advertises and serves

The three most-specific-wins walks behind `new_implementation` are put together: which capability is
advertised as supported, that neither the configuration nor the hook conjures up a surface, which
qualifiers a leaf carries, and that each surface is gated by the capability it advertises. The walks
end at the group: what a hook sets on the root of the view is recorded and never read.
-/

namespace IsvValidation.Storage

open Library

/-! ## What a hook has set -/

/-- The state last set on a node. -/
def hookState (calls : List HookCall) (node : String) : Option CapabilityState :=
  calls.reverse.findSome? fun
    | .setState id state => if id = node then some state else none
    | .setQualifier _ _ _ => none

/-- The value last set for a key on a node. -/
def hookQualifier (calls : List HookCall) (node key : String) : Option String :=
  calls.reverse.findSome? fun
    | .setState _ _ => none
    | .setQualifier id other value => if id = node ∧ other = key then some value else none

theorem ofCalls_concat (calls : List HookCall) (call : HookCall) :
    View.ofCalls (calls ++ [call]) = (View.ofCalls calls).call call := by
  simp [View.ofCalls]

theorem states_ofCalls (calls : List HookCall) (node : String) :
    (View.ofCalls calls).states.get? node = hookState calls node := by
  induction calls using List.reverseRecOn with
  | nil => rfl
  | append_singleton calls call ih =>
    rw [ofCalls_concat, hookState, List.reverse_concat, List.findSome?_cons, ← hookState, ← ih]
    cases call with
    | setState id state =>
      by_cases h : id = node
      · simp [View.call, View.setState, h]
      · simp [View.call, View.setState, h, Ne.symm h]
    | setQualifier id other value => rfl

theorem qualifiers_ofCalls (calls : List HookCall) (node key : String) :
    ((View.ofCalls calls).qualifiers.get? node).bind (fun bag ↦ bag.get? key) =
      hookQualifier calls node key := by
  induction calls using List.reverseRecOn with
  | nil => rfl
  | append_singleton calls call ih =>
    rw [ofCalls_concat, hookQualifier, List.reverse_concat, List.findSome?_cons, ← hookQualifier,
      ← ih]
    cases call with
    | setState id state => rfl
    | setQualifier id other value =>
      by_cases hnode : id = node
      · subst hnode
        by_cases hkey : other = key
        · simp [View.call, View.setQualifier, hkey]
        · simp only [View.call, View.setQualifier, OrderedMap.get?_insert, if_pos, Option.bind_some,
            hkey, Ne.symm hkey, if_false, and_false]
          cases (View.ofCalls calls).qualifiers.get? id with
          | none => rfl
          | some bag => rfl
      · simp [View.call, View.setQualifier, hnode, Ne.symm hnode]

/-! ## Walks -/

/-- The entry of the most specific node of a path. -/
def mostSpecific {β : Type} (entry : String → Option β) (nodes : List String) : Option β :=
  nodes.findSome? entry

/-- A leaf, its groups and the root. -/
def pathToRoot (id : String) : List String := nodePath id ++ [""]

theorem resolveUp_eq {β : Type} (entries : OrderedMap String β) (id : String) :
    resolveUp entries id = mostSpecific entries.get? (nodePath id) := by
  rw [resolveUp, Hierarchy.climb_eq, mostSpecific, nodePath, List.findSome?_map]
  rfl

theorem get?_resolveQualifiers (qualifiers : OrderedMap String (OrderedMap String String))
    (id key : String) : (resolveQualifiers qualifiers id).get? key =
      mostSpecific (fun node ↦ (qualifiers.get? node).bind fun bag ↦ bag.get? key) (nodePath id) := by
  rw [resolveQualifiers, Hierarchy.get?_foldl_update, mostSpecific, List.findSome?_map]
  congr 1
  funext node
  simp only [Function.comp_apply]
  cases qualifiers.get? node with
  | none => rfl
  | some bag => rfl

/-- The root does not count where a node below it has an entry, or the root has none. -/
theorem mostSpecific_pathToRoot {β : Type} {entry : String → Option β} {id : String}
    (h : mostSpecific entry (nodePath id) = none → entry "" = none) :
    mostSpecific entry (pathToRoot id) = mostSpecific entry (nodePath id) := by
  have hroot : mostSpecific entry (pathToRoot id) =
      (mostSpecific entry (nodePath id)).or (entry "") := by
    rw [mostSpecific, mostSpecific, pathToRoot, List.findSome?_append, List.findSome?_singleton]
  rw [hroot]
  cases hpath : mostSpecific entry (nodePath id) with
  | none => exact h hpath
  | some value => rfl

/-! ## The advertised list -/

section Advertised

variable (impl : Implementation) (overrides : OrderedMap String Bool)

/-- The capability which is advertised for an id. -/
def advertised (id : String) : Capability :=
  narrowState (View.ofCalls impl.hook).states
    (composeCapability overrides (View.ofCalls impl.hook).qualifiers
      { id, state := some (if backs impl id then .supported else .unimplemented) })

theorem narrowStates_eq (caps : List Capability) (states : OrderedMap String CapabilityState) :
    narrowStates caps states = caps.map (narrowState states) := by
  unfold narrowStates
  split
  · rename_i hempty
    have hnone : ∀ key, states.get? key = none := by
      intro key
      rw [OrderedMap.get?, List.isEmpty_iff.mp hempty]
      rfl
    have hkeep : ∀ cap, narrowState states cap = cap := by
      intro cap
      rw [narrowState, resolveUp_eq, mostSpecific, List.findSome?_eq_none_iff.mpr]
      exact fun node _ ↦ hnone node
    rw [funext hkeep, List.map_id']
  · rfl

theorem narrowStates_composed : narrowStates (composeCapabilities (detectCapabilities impl) overrides
      (View.ofCalls impl.hook).qualifiers) (View.ofCalls impl.hook).states =
    capabilityIds.map (advertised impl overrides) := by
  rw [narrowStates_eq, composeCapabilities, detectCapabilities, List.map_map, List.map_map]
  rfl

/-- One capability is advertised for each id of the registry, in its order. -/
theorem capabilities_newImplementation (Body : Type) (defaultTenant : String) :
    (newImplementation Body impl overrides defaultTenant).capabilities =
      capabilityIds.map (advertised impl overrides) := by
  rw [← narrowStates_composed, newImplementation, withDefaultTenant]
  split <;> rfl

/-- What detection and the configuration leave of a surface. -/
def configuredState (id : String) : CapabilityState :=
  if backs impl id then
    if mostSpecific overrides.get? (nodePath id) = some false then .disabled else .supported
  else .unimplemented

/-- A state of the hook counts where it is more restrictive. -/
def CapabilityState.narrow (current : CapabilityState) : Option CapabilityState → CapabilityState
  | some want => if current.rank < want.rank then want else current
  | none => current

/-- A detected capability goes through the configuration with the qualifiers of the hook. -/
theorem composeCapability_detected (qualifiers : OrderedMap String (OrderedMap String String))
    (id : String) :
    composeCapability overrides qualifiers
        { id, state := some (if backs impl id then .supported else .unimplemented) } =
      { id
        state := some (configuredState impl overrides id)
        qualifiers := if backs impl id then
            OrderedMap.empty.update (resolveQualifiers qualifiers id) else .empty } := by
  rw [composeCapability, configuredState, ← resolveUp_eq]
  by_cases hbacks : backs impl id
  · by_cases hoff : resolveUp overrides id = some false
    · simp [hbacks, hoff]
    · simp [hbacks, hoff]
  · simp [hbacks]

theorem narrowState_eq (states : OrderedMap String CapabilityState) (id : String)
    (state : CapabilityState) (qualifiers : OrderedMap String String) :
    narrowState states { id, state := some state, qualifiers } =
      { id, state := some (state.narrow (resolveUp states id)), qualifiers } := by
  rw [narrowState]
  cases resolveUp states id with
  | none => rfl
  | some want =>
    simp only [Option.getD_some, CapabilityState.narrow]
    split <;> rfl

/-- The three walks at work on one capability. -/
theorem advertised_eq (id : String) : advertised impl overrides id =
    { id
      state := some ((configuredState impl overrides id).narrow
        (mostSpecific (hookState impl.hook) (nodePath id)))
      qualifiers := if backs impl id then
          OrderedMap.empty.update (resolveQualifiers (View.ofCalls impl.hook).qualifiers id)
        else .empty } := by
  rw [advertised, composeCapability_detected, narrowState_eq, resolveUp_eq,
    funext (states_ofCalls impl.hook)]

@[simp] theorem advertised_id (id : String) : (advertised impl overrides id).id = id := by
  rw [advertised_eq]

/-- A leaf which is served carries what the hook has set on its path, any other nothing. -/
theorem advertised_qualifiers (id key : String) :
    (advertised impl overrides id).qualifiers.get? key =
      if backs impl id then
        mostSpecific (fun node ↦ hookQualifier impl.hook node key) (nodePath id)
      else none := by
  have hwalk : (resolveQualifiers (View.ofCalls impl.hook).qualifiers id).get? key =
      mostSpecific (fun node ↦ hookQualifier impl.hook node key) (nodePath id) := by
    rw [get?_resolveQualifiers]
    congr 1
    funext node
    exact qualifiers_ofCalls impl.hook node key
  rw [advertised_eq]
  split
  · rw [OrderedMap.get?_update, hwalk, OrderedMap.get?_empty, Option.or_none]
  · exact OrderedMap.get?_empty key

/-- A state stays supported where the hook sets no other. -/
theorem narrow_eq_supported {state : CapabilityState} {want : Option CapabilityState} :
    state.narrow want = .supported ↔
      state = .supported ∧ ∀ other, want = some other → other = .supported := by
  cases want with
  | none => simp [CapabilityState.narrow]
  | some want => cases state <;> cases want <;> decide

theorem rank_le_narrow (state : CapabilityState) (want : Option CapabilityState) :
    state.rank ≤ (state.narrow want).rank := by
  cases want with
  | none => exact le_rfl
  | some want =>
    rw [CapabilityState.narrow]
    split
    · omega
    · exact le_rfl

theorem configuredState_eq_supported {id : String} :
    configuredState impl overrides id = .supported ↔
      backs impl id ∧ mostSpecific overrides.get? (nodePath id) ≠ some false := by
  rw [configuredState]
  split
  · split <;> simp_all
  · simp_all

end Advertised

/-! ## The gate -/

theorem nodup_capabilityIds : capabilityIds.Nodup := by decide

/-- Every surface is gated by a capability of the registry which its method backs. -/
theorem gateId_mem (surface : Surface) : surface.gateId ∈ capabilityIds ∧
    surface ∈ (capabilityMethods.lookup surface.gateId).getD [] := by
  cases surface <;> decide

/-- The gate looks at the state which is advertised. -/
theorem gate_advertised (impl : Implementation) (overrides : OrderedMap String Bool) {id : String}
    (h : id ∈ capabilityIds) :
    gate (OrderedMap.ofList ((capabilityIds.map (advertised impl overrides)).map
        fun cap ↦ (cap.id, cap.state))) id =
      if (advertised impl overrides id).state = some .supported then .ok ()
      else .error (gateError id (advertised impl overrides id).state) := by
  have hkeys : ((capabilityIds.map (advertised impl overrides)).map
      fun cap ↦ (cap.id, cap.state)).map Prod.fst = capabilityIds := by
    rw [List.map_map, List.map_map]
    calc capabilityIds.map _ = capabilityIds.map fun id ↦ id := by
          apply List.map_congr_left
          exact fun id _ ↦ advertised_id impl overrides id
      _ = capabilityIds := List.map_id' _
  have hget : (OrderedMap.ofList ((capabilityIds.map (advertised impl overrides)).map
      fun cap ↦ (cap.id, cap.state))).get? id = some (advertised impl overrides id).state := by
    rw [OrderedMap.get?_ofList (by rw [hkeys]; exact nodup_capabilityIds), List.map_map]
    exact List.mem_map.mpr ⟨id, h, Prod.ext (advertised_id impl overrides id) rfl⟩
  rw [gate, hget]
  rfl

theorem body_withDefaultTenantReq {Body : Type} (req : Request Body) (defaultTenant : String) :
    (withDefaultTenantReq req defaultTenant).body = req.body := by
  unfold withDefaultTenantReq
  split
  · rfl
  · split <;> rfl

/-- A call passes the gate of its surface and goes on with the same request, up to its tenant. -/
theorem call_newImplementation {Body : Type} (impl : Implementation)
    (overrides : OrderedMap String Bool) (defaultTenant : String) (surface : Surface)
    (req : Request Body) : ∃ delivered : Request Body, delivered.body = req.body ∧
      (newImplementation Body impl overrides defaultTenant).call surface req =
        if (advertised impl overrides surface.gateId).state = some .supported then .ok delivered
        else .error
          (gateError surface.gateId (advertised impl overrides surface.gateId).state) := by
  have hserved : ∀ delivered : Request Body,
      (servedProvider Body (capabilityIds.map (advertised impl overrides))).call surface delivered =
        if (advertised impl overrides surface.gateId).state = some .supported then .ok delivered
        else .error
          (gateError surface.gateId (advertised impl overrides surface.gateId).state) := by
    intro delivered
    simp only [servedProvider]
    rw [gate_advertised impl overrides (gateId_mem surface).1]
    split <;> rfl
  rw [newImplementation, narrowStates_composed, withDefaultTenant]
  by_cases htenant : defaultTenant = ""
  · rw [if_pos htenant]
    exact ⟨req, rfl, hserved req⟩
  · rw [if_neg htenant]
    by_cases hsurface : surface = .listTenants
    · exact ⟨req, rfl, by simpa only [if_pos hsurface] using hserved req⟩
    · exact ⟨withDefaultTenantReq req defaultTenant, body_withDefaultTenantReq req defaultTenant,
        by simpa only [if_neg hsurface] using hserved _⟩

/-! ## The contract -/

section Contract

variable (impl : Implementation) (overrides : OrderedMap String Bool)

/-- A capability is supported exactly if its code is there, the configuration has not switched it
off, and the hook has not taken it away on the leaf, a group or the root. -/
def SupportedExactly (cap : Capability) : Prop :=
  cap.state = some .supported ↔
    backs impl cap.id ∧ mostSpecific overrides.get? (nodePath cap.id) ≠ some false ∧
      ∀ state, mostSpecific (hookState impl.hook) (pathToRoot cap.id) = some state →
        state = .supported

/-- A qualifier of a leaf is what the hook has set on its path, the more specific winning. -/
def QualifierMerged (cap : Capability) (key : String) : Prop :=
  cap.qualifiers.get? key =
    mostSpecific (fun node ↦ hookQualifier impl.hook node key) (pathToRoot cap.id)

/-- A surface answers as its capability is advertised. -/
structure Gated {Body : Type} (provider : Provider Body) (surface : Surface) (cap : Capability)
    (req : Request Body) : Prop where
  reaches : (∃ delivered, provider.call surface req = .ok delivered) ↔ cap.state = some .supported
  body : ∀ delivered, provider.call surface req = .ok delivered → delivered.body = req.body
  unavailable : cap.state = some .unavailable → provider.call surface req =
    .error (.unavailable s!"{cap.id} is currently unavailable")
  disabled : cap.state = some .disabled → provider.call surface req =
    .error (.notSupported s!"{cap.id} is disabled by configuration")
  unimplemented : cap.state = some .unimplemented → provider.call surface req =
    .error (.notSupported s!"{cap.id} is not implemented by this backend")

/-- What holds of a composed provider on any input: nothing is conjured up, the hook only takes
away, and what is served is what is advertised. -/
structure Composed {Body : Type} (provider : Provider Body) (defaultTenant : String) : Prop where
  ids : provider.capabilities.map Capability.id = capabilityIds
  stated : ∀ cap ∈ provider.capabilities, cap.state.isSome
  notResurrected : ∀ cap ∈ provider.capabilities, backs impl cap.id = false →
    cap.state = some .unimplemented
  notWidened : ∀ cap ∈ provider.capabilities,
    ∀ plain ∈ (newImplementation Body { impl with hook := [] } overrides defaultTenant).capabilities,
      plain.id = cap.id →
        (plain.state.getD .unimplemented).rank ≤ (cap.state.getD .unimplemented).rank
  gated : ∀ surface, ∃ cap ∈ provider.capabilities, cap.id = surface.gateId ∧
    surface ∈ (capabilityMethods.lookup cap.id).getD [] ∧
      ∀ req : Request Body, Gated provider surface cap req

/-- Composition with the root of the view as one more node above every leaf. -/
structure ComposedToRoot {Body : Type} (provider : Provider Body) (defaultTenant : String) : Prop
    extends Composed impl overrides provider defaultTenant where
  supported : ∀ cap ∈ provider.capabilities, SupportedExactly impl overrides cap
  qualifiers : ∀ cap ∈ provider.capabilities, ∀ key, QualifierMerged impl cap key

/-- Composition where the root of the view is left alone: a leaf which is not served carries no
qualifiers. -/
structure ComposedToGroups {Body : Type} (provider : Provider Body) (defaultTenant : String) : Prop
    extends Composed impl overrides provider defaultTenant where
  supported : ∀ cap ∈ provider.capabilities,
    (mostSpecific (hookState impl.hook) (nodePath cap.id) = none → hookState impl.hook "" = none) →
      SupportedExactly impl overrides cap
  qualifiers : ∀ cap ∈ provider.capabilities, ∀ key,
    (mostSpecific (fun node ↦ hookQualifier impl.hook node key) (nodePath cap.id) = none →
      hookQualifier impl.hook "" key = none) →
        backs impl cap.id → QualifierMerged impl cap key
  unserved : ∀ cap ∈ provider.capabilities, backs impl cap.id = false →
    cap.qualifiers.entries = []

variable {impl overrides}

theorem notResurrected_advertised {id : String} (h : backs impl id = false) :
    (advertised impl overrides id).state = some .unimplemented := by
  have hconfigured : configuredState impl overrides id = .unimplemented := by
    simp [configuredState, h]
  rw [advertised_eq, hconfigured]
  cases mostSpecific (hookState impl.hook) (nodePath id) with
  | none => rfl
  | some want => cases want <;> rfl

/-- Without a hook the configured state is advertised. -/
theorem advertised_unhooked (id : String) :
    (advertised { impl with hook := [] } overrides id).state =
      some (configuredState impl overrides id) := by
  have hwalk : mostSpecific (hookState []) (nodePath id) = none :=
    List.findSome?_eq_none_iff.mpr fun _ _ ↦ rfl
  rw [advertised_eq, hwalk]
  rfl

theorem gated_newImplementation {Body : Type} (defaultTenant : String) (surface : Surface)
    (req : Request Body) :
    Gated (newImplementation Body impl overrides defaultTenant) surface
      (advertised impl overrides surface.gateId) req := by
  obtain ⟨delivered, hbody, hcall⟩ :=
    call_newImplementation impl overrides defaultTenant surface req
  constructor
  · rw [hcall]
    split <;> simp_all
  · intro other hother
    rw [hcall] at hother
    split at hother
    · rw [← Except.ok.inj hother, hbody]
    · cases hother
  · intro hstate
    rw [hcall, hstate, advertised_id]
    rfl
  · intro hstate
    rw [hcall, hstate, advertised_id]
    rfl
  · intro hstate
    rw [hcall, hstate, advertised_id]
    rfl

theorem composed_newImplementation (Body : Type) (defaultTenant : String) :
    Composed impl overrides (newImplementation Body impl overrides defaultTenant)
      defaultTenant := by
  have hmem := capabilities_newImplementation impl overrides Body defaultTenant
  constructor
  · rw [hmem, List.map_map]
    calc capabilityIds.map _ = capabilityIds.map fun id ↦ id := by
          apply List.map_congr_left
          exact fun id _ ↦ advertised_id impl overrides id
      _ = capabilityIds := List.map_id' _
  · rw [hmem, List.forall_mem_map]
    intro id _
    rw [advertised_eq]
    rfl
  · rw [hmem, List.forall_mem_map]
    intro id _ hbacks
    rw [advertised_id] at hbacks
    exact notResurrected_advertised hbacks
  · rw [hmem, capabilities_newImplementation, List.forall_mem_map]
    intro id _
    rw [List.forall_mem_map]
    intro other _ hid
    rw [advertised_id, advertised_id] at hid
    subst hid
    rw [advertised_unhooked, advertised_eq]
    exact rank_le_narrow _ _
  · intro surface
    have hsurface := gateId_mem surface
    refine ⟨advertised impl overrides surface.gateId, ?_, advertised_id _ _ _, ?_, ?_⟩
    · rw [hmem]
      exact List.mem_map_of_mem hsurface.1
    · rw [advertised_id]
      exact hsurface.2
    · exact gated_newImplementation defaultTenant surface

end Contract

/-- Off the root, a composed provider is what its code, its configuration and its hook make it. -/
theorem composedToGroups_newImplementation (impl : Implementation)
    (overrides : OrderedMap String Bool) (Body : Type) (defaultTenant : String) :
    ComposedToGroups impl overrides (newImplementation Body impl overrides defaultTenant)
      defaultTenant := by
  have hmem := capabilities_newImplementation impl overrides Body defaultTenant
  refine ⟨composed_newImplementation Body defaultTenant, ?_, ?_, ?_⟩
  · rw [hmem, List.forall_mem_map]
    intro id _ hroot
    rw [advertised_id] at hroot
    rw [SupportedExactly, advertised_id, mostSpecific_pathToRoot hroot, advertised_eq,
      Option.some.injEq, narrow_eq_supported, configuredState_eq_supported, and_assoc]
  · rw [hmem, List.forall_mem_map]
    intro id _ key hroot hbacks
    rw [advertised_id] at hroot hbacks
    rw [QualifierMerged, advertised_id, mostSpecific_pathToRoot hroot, advertised_qualifiers,
      if_pos hbacks]
  · rw [hmem, List.forall_mem_map]
    intro id _ hbacks
    rw [advertised_id] at hbacks
    rw [advertised_eq, if_neg (by simp [hbacks])]
    rfl

/-- A qualifier for a surface without code is dropped, and a state on the root takes nothing away. -/
theorem not_composedToRoot :
    (¬ ComposedToRoot ⟨fun _ ↦ false, [.setQualifier capVolumeList "region" "eu"]⟩ .empty
        (newImplementation Unit ⟨fun _ ↦ false, [.setQualifier capVolumeList "region" "eu"]⟩
          .empty "") "") ∧
      ¬ ComposedToRoot ⟨fun _ ↦ true, [.setState "" .unavailable]⟩ .empty
        (newImplementation Unit ⟨fun _ ↦ true, [.setState "" .unavailable]⟩ .empty "") "" := by
  constructor
  · intro h
    have hleaf := h.qualifiers (advertised ⟨fun _ ↦ false, _⟩ .empty capVolumeList)
      (by rw [capabilities_newImplementation]; exact List.mem_map_of_mem (by decide)) "region"
    rw [QualifierMerged, advertised_qualifiers, advertised_id] at hleaf
    exact absurd hleaf (by decide)
  · intro h
    have hleaf := h.supported (advertised ⟨fun _ ↦ true, _⟩ .empty capVolumeList)
      (by rw [capabilities_newImplementation]; exact List.mem_map_of_mem (by decide))
    rw [SupportedExactly, advertised_id] at hleaf
    have hstate := (hleaf.mp (by rw [advertised_eq]; decide)).2.2 .unavailable (by decide)
    cases hstate

end IsvValidation.Storage
