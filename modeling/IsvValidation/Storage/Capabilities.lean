import IsvValidation.Library.Hierarchy

/-!
# Storage capabilities

The registry of capability ids, the tree of nodes an author amends in `capability_qualifiers`, and
the composition behind `new_implementation`: detection from the overridden methods, overrides of the
configuration, qualifiers and states of the hook, and a provider which advertises the result and
gates every surface by it.
-/

namespace IsvValidation.Storage

open Library

/-! ## The registry -/

/-- Effective state of one capability. -/
inductive CapabilityState where
  | supported
  | disabled
  | unavailable
  | unimplemented
  deriving DecidableEq

def groupTenant : String := "tenant"
def groupVolume : String := "volume"
def groupQuota : String := "quota"
def groupDirectoryQuota : String := s!"{groupQuota}.directory"
def groupUserQuota : String := s!"{groupQuota}.user"

def capTenantList : String := s!"{groupTenant}.list"
def capTenantGet : String := s!"{groupTenant}.get"
def capTenantGetQuota : String := s!"{groupTenant}.getQuota"
def capTenantListQuotas : String := s!"{groupTenant}.listQuotas"
def capVolumeList : String := s!"{groupVolume}.list"
def capVolumeGet : String := s!"{groupVolume}.get"
def capVolumeCreate : String := s!"{groupVolume}.create"
def capVolumeDelete : String := s!"{groupVolume}.delete"
def capDirectoryQuotaList : String := s!"{groupDirectoryQuota}.list"
def capDirectoryQuotaGet : String := s!"{groupDirectoryQuota}.get"
def capDirectoryQuotaSet : String := s!"{groupDirectoryQuota}.set"
def capDirectoryQuotaDelete : String := s!"{groupDirectoryQuota}.delete"
def capUserQuotaList : String := s!"{groupUserQuota}.list"
def capUserQuotaGet : String := s!"{groupUserQuota}.get"
def capUserQuotaSet : String := s!"{groupUserQuota}.set"
def capUserQuotaDelete : String := s!"{groupUserQuota}.delete"

def capabilityIds : List String :=
  [capTenantList, capTenantGet, capTenantGetQuota, capTenantListQuotas, capVolumeList,
    capVolumeGet, capVolumeCreate, capVolumeDelete, capDirectoryQuotaList, capDirectoryQuotaGet,
    capDirectoryQuotaSet, capDirectoryQuotaDelete, capUserQuotaList, capUserQuotaGet,
    capUserQuotaSet, capUserQuotaDelete]

/-- One surface's state and qualifiers; no state is unspecified. -/
structure Capability where
  id : String
  state : Option CapabilityState := none
  qualifiers : OrderedMap String String := .empty

/-- The surfaces of a storage provider, by the names of their methods. -/
inductive Surface where
  | listTenants
  | getTenant
  | getTenantQuota
  | listTenantQuotas
  | createVolume
  | deleteVolume
  | listVolumes
  | getVolume
  | listDirectoryQuotas
  | getDirectoryQuota
  | setDirectoryQuota
  | deleteDirectoryQuota
  | listUserQuotas
  | getUserQuota
  | setUserQuota
  | deleteUserQuota
  deriving DecidableEq

/-- `_CAPABILITY_METHODS`: the methods of which any backs a capability. -/
def capabilityMethods : List (String × List Surface) :=
  [(capTenantList, [.listTenants]),
    (capTenantGet, [.getTenant, .listTenants]),
    (capTenantGetQuota, [.getTenantQuota]),
    (capTenantListQuotas, [.listTenantQuotas]),
    (capVolumeList, [.listVolumes]),
    (capVolumeGet, [.getVolume, .listVolumes]),
    (capVolumeCreate, [.createVolume]),
    (capVolumeDelete, [.deleteVolume]),
    (capDirectoryQuotaList, [.listDirectoryQuotas]),
    (capDirectoryQuotaGet, [.getDirectoryQuota, .listDirectoryQuotas]),
    (capDirectoryQuotaSet, [.setDirectoryQuota]),
    (capDirectoryQuotaDelete, [.deleteDirectoryQuota]),
    (capUserQuotaList, [.listUserQuotas]),
    (capUserQuotaGet, [.getUserQuota, .listUserQuotas]),
    (capUserQuotaSet, [.setUserQuota]),
    (capUserQuotaDelete, [.deleteUserQuota])]

/-! ## Nodes -/

/-- A dotted id and its prefixes, the most specific first: the keys `_resolve_qualifiers` collects. -/
def nodePath (id : String) : List String :=
  (Hierarchy.path '.' id.toList).map String.ofList

/-- The walk of `_resolve_override` and `_resolve_state`: the exact id, then its prefixes. -/
def resolveUp {β : Type} (entries : OrderedMap String β) (id : String) : Option β :=
  Hierarchy.climb '.' (fun key ↦ entries.get? (String.ofList key)) id.toList

/-- `_resolve_qualifiers`: group prefixes first, then the leaf's own entry. -/
def resolveQualifiers (qualifiers : OrderedMap String (OrderedMap String String)) (id : String) :
    OrderedMap String String :=
  ((nodePath id).map fun key ↦ (qualifiers.get? key).getD .empty).reverse.foldl OrderedMap.update
    .empty

/-! ## The view of the hook -/

/-- One call on a node of the view; the id of the root is empty. -/
inductive HookCall where
  | setState (node : String) (state : CapabilityState)
  | setQualifier (node key value : String)

/-- `ImplementationCapabilities`: what was recorded by node id. -/
structure View where
  qualifiers : OrderedMap String (OrderedMap String String) := .empty
  states : OrderedMap String CapabilityState := .empty

namespace View

/-- `ImplementationNode.set_state`. -/
def setState (view : View) (node : String) (state : CapabilityState) : View :=
  { view with states := view.states.insert node state }

/-- `ImplementationNode.set_qualifier`, and `_set` under the typed setters. -/
def setQualifier (view : View) (node key value : String) : View :=
  { view with qualifiers :=
      view.qualifiers.insert node (((view.qualifiers.get? node).getD .empty).insert key value) }

def call (view : View) : HookCall → View
  | .setState node state => view.setState node state
  | .setQualifier node key value => view.setQualifier node key value

/-- The view after a hook has made its calls. -/
def ofCalls (calls : List HookCall) : View := calls.foldl call {}

end View

/-! ## Composition -/

/-- What an author hands over: the methods overridden, and the calls its hook makes. -/
structure Implementation where
  overrides : Surface → Bool
  hook : List HookCall

/-- An overridden method backs the capability. -/
def backs (impl : Implementation) (id : String) : Bool :=
  ((capabilityMethods.lookup id).getD []).any impl.overrides

/-- `_detect_capabilities`. -/
def detectCapabilities (impl : Implementation) : List Capability :=
  capabilityIds.map fun id ↦
    { id, state := some (if backs impl id then .supported else .unimplemented) }

/-- One round of the loop of `_compose_capabilities`. -/
def composeCapability (overrides : OrderedMap String Bool)
    (qualifiers : OrderedMap String (OrderedMap String String)) (cap : Capability) : Capability :=
  let override := resolveUp overrides cap.id
  let state := if override = some false ∧ cap.state = some .supported then some .disabled
    else if override = some true ∧ cap.state = some .disabled then some .supported
    else cap.state
  if state = some .unimplemented then { cap with state, qualifiers := .empty }
  else { cap with state, qualifiers := cap.qualifiers.update (resolveQualifiers qualifiers cap.id) }

/-- `_compose_capabilities`. -/
def composeCapabilities (declared : List Capability) (overrides : OrderedMap String Bool)
    (qualifiers : OrderedMap String (OrderedMap String String)) : List Capability :=
  declared.map (composeCapability overrides qualifiers)

/-- `_STATE_RANK`: the position in the order from most to least available. -/
def CapabilityState.rank : CapabilityState → ℕ
  | supported => 0
  | unavailable => 1
  | disabled => 2
  | unimplemented => 3

/-- One round of the loop of `_narrow_states`. -/
def narrowState (states : OrderedMap String CapabilityState) (cap : Capability) : Capability :=
  match resolveUp states cap.id with
  | some want =>
    if (cap.state.getD .unimplemented).rank < want.rank then { cap with state := some want } else cap
  | none => cap

/-- `_narrow_states`. -/
def narrowStates (caps : List Capability) (states : OrderedMap String CapabilityState) :
    List Capability :=
  if states.entries.isEmpty then caps else caps.map (narrowState states)

/-! ## The served provider -/

inductive StorageApiError where
  | unavailable (message : String)
  | notSupported (message : String)
  deriving DecidableEq

/-- `_gate_error`. -/
def gateError (id : String) (state : Option CapabilityState) : StorageApiError :=
  match state with
  | some .unavailable => .unavailable s!"{id} is currently unavailable"
  | some .disabled => .notSupported s!"{id} is disabled by configuration"
  | _ => .notSupported s!"{id} is not implemented by this backend"

/-- What the default tenant looks at in a request: the `tenant_id` attribute, if there is one, and
the tenant inside a nested `quota`, if there is one. -/
structure Request (Body : Type) where
  tenantId : Option (Option String) := none
  quotaTenant : Option (Option String) := none
  body : Body

/-- `_with_default_tenant_req`. -/
def withDefaultTenantReq {Body : Type} (req : Request Body) (defaultTenant : String) : Request Body :=
  if req.tenantId = some none then { req with tenantId := some (some defaultTenant) }
  else if req.quotaTenant = some none ∨ req.quotaTenant = some (some "") then
    { req with quotaTenant := some (some defaultTenant) }
  else req

/-- A provider: the capabilities on its properties, and for each call of a surface the request which
reaches the author's method, or the error raised instead. -/
structure Provider (Body : Type) where
  capabilities : List Capability
  call : Surface → Request Body → Except StorageApiError (Request Body)

/-- The capability by which `_ServedProvider` gates each of its methods. -/
def Surface.gateId : Surface → String
  | listTenants => capTenantList
  | getTenant => capTenantGet
  | getTenantQuota => capTenantGetQuota
  | listTenantQuotas => capTenantListQuotas
  | createVolume => capVolumeCreate
  | deleteVolume => capVolumeDelete
  | listVolumes => capVolumeList
  | getVolume => capVolumeGet
  | listDirectoryQuotas => capDirectoryQuotaList
  | getDirectoryQuota => capDirectoryQuotaGet
  | setDirectoryQuota => capDirectoryQuotaSet
  | deleteDirectoryQuota => capDirectoryQuotaDelete
  | listUserQuotas => capUserQuotaList
  | getUserQuota => capUserQuotaGet
  | setUserQuota => capUserQuotaSet
  | deleteUserQuota => capUserQuotaDelete

/-- `_ServedProvider._gate`, on the states by id. -/
def gate (states : OrderedMap String (Option CapabilityState)) (id : String) :
    Except StorageApiError Unit :=
  let state := (states.get? id).getD none
  if state = some .supported then .ok () else .error (gateError id state)

/-- `_ServedProvider`: every method gates its capability first and then delegates. -/
def servedProvider (Body : Type) (capabilities : List Capability) : Provider Body :=
  let states := OrderedMap.ofList (capabilities.map fun cap ↦ (cap.id, cap.state))
  { capabilities
    call := fun surface req ↦ do
      gate states surface.gateId
      return req }

/-- `with_default_tenant`; `list_tenants` is not scoped to a tenant. -/
def withDefaultTenant {Body : Type} (api : Provider Body) (defaultTenant : String) :
    Provider Body :=
  if defaultTenant = "" then api
  else
    { api with call := fun surface req ↦
        if surface = .listTenants then api.call surface req
        else api.call surface (withDefaultTenantReq req defaultTenant) }

/-- `new_implementation`. -/
def newImplementation (Body : Type) (impl : Implementation) (overrides : OrderedMap String Bool)
    (defaultTenant : String) : Provider Body :=
  let detected := detectCapabilities impl
  let view := View.ofCalls impl.hook
  let composed := composeCapabilities detected overrides view.qualifiers
  let narrowed := narrowStates composed view.states
  withDefaultTenant (servedProvider Body narrowed) defaultTenant

end IsvValidation.Storage
