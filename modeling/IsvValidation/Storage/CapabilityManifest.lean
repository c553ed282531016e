import IsvValidation.Host.Text
import IsvValidation.Library.Sequence
import IsvValidation.Storage.Composition

/-!
# Capabilities of the manifest

What a provider is expected to support. The manifest declares states in a tree, for the provider and for
the package behind it, and an instance switches ids and groups of ids on or off. Both trees are lowered to
one state for each capability, the nearest declaration first, and the instance is laid over the result.
-/

namespace IsvValidation.Storage.Manifest

open Config Library

/-! ## Declarations -/

/-- `CapabilityDeclaration`: a surface of the backend, one which is filled in, or none. -/
inductive Declaration where
  | native
  | default
  | none
  deriving DecidableEq

namespace Declaration

def text : Declaration → String
  | native => "native"
  | default => "default"
  | none => "none"

/-- `_CAPABILITY_STATES`. -/
def all : List Declaration := [native, default, none]

def ofText? (text : String) : Option Declaration := all.find? fun state ↦ state.text = text

end Declaration

/-- A declared state, or a group with its entries: a value of a block which was checked. -/
inductive Block where
  | state (declared : Declaration)
  | group (entries : List (Scalar × Block))

/-- A block of the manifest, by its entries. -/
abbrev Caps := List (Scalar × Block)

namespace Block

def state? : Block → Option Declaration
  | state declared => some declared
  | group _ => none

/-- What is under a key, where the value is a mapping. -/
def get? : Block → String → Option Block
  | state _, _ => none
  | group entries, key => entries.lookup (.str key)

/-- What is at the end of a path of keys. -/
def at? (block : Block) : List String → Option Block
  | [] => some block
  | key :: rest => (block.get? key).bind (at? · rest)

end Block

/-- How Python writes the values of a document. -/
structure YamlText where
  str : Value → String
  repr : Value → String

structure ManifestError where
  message : String
  deriving DecidableEq

variable (yaml : YamlText)

/-! ## Checking a block -/

mutual

/-- `_validate_capability_block`: every value is a state or a group; what was checked. -/
def validateCapabilityBlock (fieldName path : String) : Items → Except ManifestError Caps
  | [] => .ok []
  | (key, value) :: rest => do
    let checked ← validateCapabilityValue fieldName s!"{path}{yaml.str (.scalar key)}" value
    let others ← validateCapabilityBlock fieldName path rest
    return (key, checked) :: others

def validateCapabilityValue (fieldName place : String) : Value → Except ManifestError Block
  | .dict items => do
    let entries ← validateCapabilityBlock fieldName s!"{place}." items
    return .group entries
  | value =>
    match value.str?.bind Declaration.ofText? with
    | some state => .ok (.state state)
    | none => .error ⟨s!"{fieldName}.{place}: capability state must be one of ['native', 'default', 'none'] " ++
        s!"(got {yaml.repr value})"⟩

end

/-! ## The tree of capabilities -/

/-- `_CAPABILITY_TREE`: groups of the manifest, with the ids of the registry as leaves. -/
inductive CapabilityTree where
  | leaf (id : String)
  | group (children : List (String × CapabilityTree))

def capabilityTree : CapabilityTree :=
  .group
    [("tenantManagement", .group
      [("list", .leaf capTenantList), ("get", .leaf capTenantGet), ("getQuota", .leaf capTenantGetQuota),
        ("listQuotas", .leaf capTenantListQuotas)]),
    ("volumeManagement", .group
      [("list", .leaf capVolumeList), ("get", .leaf capVolumeGet), ("create", .leaf capVolumeCreate),
        ("delete", .leaf capVolumeDelete)]),
    ("quotaManagement", .group
      [("directory", .group
        [("list", .leaf capDirectoryQuotaList), ("get", .leaf capDirectoryQuotaGet),
          ("set", .leaf capDirectoryQuotaSet), ("delete", .leaf capDirectoryQuotaDelete)]),
      ("user", .group
        [("list", .leaf capUserQuotaList), ("get", .leaf capUserQuotaGet), ("set", .leaf capUserQuotaSet),
          ("delete", .leaf capUserQuotaDelete)])])]

mutual

/-- The capabilities under a node, with the keys which lead to them. -/
def CapabilityTree.leaves (front : List String) : CapabilityTree → List (String × List String)
  | .leaf id => [(id, front)]
  | .group children => leavesOf front children

def CapabilityTree.leavesOf (front : List String) :
    List (String × CapabilityTree) → List (String × List String)
  | [] => []
  | (key, child) :: rest => child.leaves (front ++ [key]) ++ leavesOf front rest

end

def capabilityLeaves : List (String × List String) := capabilityTree.leaves []

/-- The leaves are the registry, in its order. -/
theorem capabilityLeaves_ids : capabilityLeaves.map Prod.fst = capabilityIds := rfl

/-! ## Lowering -/

/-- `_lookup_capability`: the deepest state on the way to a leaf. -/
def lookupCapability (caps : Caps) (path : List String) : Option Declaration := walk (.group caps) none path
where
  walk (node : Block) (found : Option Declaration) : List String → Option Declaration
    | [] => found
    | key :: rest =>
      match node.get? key with
      | none => found
      | some child => walk child (child.state?.or found) rest

/-- `_default_state`: the fallback of the provider, or else of the package. -/
def defaultState (providerCaps packageCaps : Caps) : Option Declaration :=
  [providerCaps, packageCaps].findSome? fun caps ↦ (caps.lookup (.str "default")).bind Block.state?

/-- One pass of `_resolve_capability_states`. -/
def declareCapability (providerCaps packageCaps : Caps) (resolved : OrderedMap String Declaration)
    (leaf : String × List String) : OrderedMap String Declaration :=
  let hasDefault := (providerCaps.lookup (.str "default")).isSome ||
    (packageCaps.lookup (.str "default")).isSome
  let state := (lookupCapability providerCaps leaf.2).or (lookupCapability packageCaps leaf.2)
  let explicit := state.isSome
  match state.or (defaultState providerCaps packageCaps) with
  | none => resolved
  | some state => if !explicit && !hasDefault then resolved else resolved.insert leaf.1 state

def resolveCapabilityStates (providerCaps packageCaps : Items) (fieldName : String) :
    Except ManifestError (OrderedMap String Declaration) := do
  let provider ← validateCapabilityBlock yaml fieldName "" providerCaps
  let package ← validateCapabilityBlock yaml "default_capabilities" "" packageCaps
  return capabilityLeaves.foldl (declareCapability provider package) .empty

/-- The view of the states as capabilities which are there or not. -/
def supported (states : OrderedMap String Declaration) : OrderedMap String Bool :=
  states.mapValues (· != .none)

def coerceMapping (value : Value) (fieldName : String) : Except ManifestError Items :=
  match value with
  | .scalar .none => .ok []
  | .dict items => .ok items
  | _ => .error ⟨s!"{fieldName}: must be a mapping"⟩

/-- A list, or a single text, of names. -/
def coerceProtocols (value : Value) (fieldName : String) : Except ManifestError (List String) :=
  match value with
  | .scalar .none => .ok []
  | .scalar (.str text) => .ok [text]
  | .list items => .ok (items.map yaml.str)
  | _ => .error ⟨s!"{fieldName}: must be a string or list of strings"⟩

/-- The fields of a provider which an instance may override. -/
structure Provider where
  tenantId : Option String := none
  storageClasses : List String := []
  expectedCapabilities : OrderedMap String Bool
  capabilityStates : OrderedMap String Declaration

/-- What `_build_provider` makes of the capabilities of an entry. -/
def buildProvider (tenantId : Option String) (capabilities : Value) (packageCaps : Items)
    (fieldName : String) : Except ManifestError Provider := do
  let caps ← coerceMapping capabilities fieldName
  let states ← resolveCapabilityStates yaml caps packageCaps fieldName
  return { tenantId, expectedCapabilities := supported states, capabilityStates := states }

/-! ## Instances -/

/-- `_CAPABILITY_OVERRIDE_KEYS`: the ids and the groups they are in. -/
def capabilityOverrideKeys : List String := capabilityIds.flatMap nodePath

variable (unicode : Host.Unicode)

def coerceOverrideValue (key : String) (value : Value) : Except ManifestError Bool :=
  let refused := ⟨s!"instance.provider.capabilities.{key}: must be 'enabled' or 'disabled' " ++
    s!"(got {yaml.repr value})"⟩
  match value with
  | .scalar (.bool value) => .ok value
  | .scalar (.str text) =>
    let norm := unicode.lower (unicode.strip text)
    if norm = "enabled" then .ok true else if norm = "disabled" then .ok false else .error refused
  | _ => .error refused

def parseInstanceCapabilityOverrides (raw : Items) : Except ManifestError (OrderedMap String Bool) :=
  raw.foldlM (fun overrides (key, value) ↦ do
    let key := yaml.str (.scalar key)
    if !capabilityOverrideKeys.contains key then
      throw ⟨s!"instance.provider.capabilities: unknown capability key {yaml.repr (.str key)}"⟩
    let override ← coerceOverrideValue yaml unicode key value
    return overrides.insert key override) .empty

/-- What is overridden under a key is what the last entry of the block with this key says. -/
theorem parseInstanceCapabilityOverrides_eq_ok {raw : Items} {overrides : OrderedMap String Bool}
    (h : parseInstanceCapabilityOverrides yaml unicode raw = .ok overrides) (key : String) :
    overrides.get? key = (raw.reverse.find? fun entry ↦ yaml.str (.scalar entry.1) = key).bind fun entry ↦
      (coerceOverrideValue yaml unicode key entry.2).toOption := by
  induction raw using List.reverseRecOn generalizing overrides with
  | nil =>
    cases h
    rfl
  | append_singleton raw entry ih =>
    rw [parseInstanceCapabilityOverrides, List.foldlM_append] at h
    obtain ⟨earlier, hearlier, h⟩ := bind_eq_ok.mp h
    obtain ⟨last, hlast, h⟩ := bind_eq_ok.mp h
    cases h
    rw [List.reverse_concat, List.find?_cons]
    dsimp only at hlast
    split at hlast
    · cases hlast
    · obtain ⟨override, hoverride, hlast⟩ := bind_eq_ok.mp hlast
      cases hlast
      rw [OrderedMap.get?_insert, ih hearlier]
      by_cases hkey : yaml.str (.scalar entry.1) = key
      · subst hkey
        simp [hoverride, Except.toOption]
      · simp [hkey, Ne.symm hkey]

/-- `_resolve_capability_override`: the entry of the id, or of the nearest group which has one. -/
def resolveCapabilityOverride (overrides : OrderedMap String Bool) (capId : String) : Option Bool :=
  resolveUp overrides capId

/-- One pass over the two maps. -/
def overrideCapability (overrides : OrderedMap String Bool)
    (maps : OrderedMap String Bool × OrderedMap String Declaration) (capId : String) :
    OrderedMap String Bool × OrderedMap String Declaration :=
  match resolveCapabilityOverride overrides capId with
  | none => maps
  | some override =>
    (maps.1.insert capId override,
      maps.2.insert capId
        (if override then
          if maps.2.get? capId ≠ some .none then (maps.2.get? capId).getD .native else .native
        else .none))

/-- The overrides of an instance. -/
def instanceOverrides (instProvider : Items) : Except ManifestError (OrderedMap String Bool) := do
  let raw ← coerceMapping ((instProvider.lookup (.str "capabilities")).getD .null)
    "instance.provider.capabilities"
  parseInstanceCapabilityOverrides yaml unicode raw

def coerceTenant : Value → Except ManifestError (Option String)
  | .scalar .none => .ok none
  | .scalar (.str tenant) => .ok (some tenant)
  | _ => .error ⟨"instance.provider.defaultTenant: must be a string"⟩

def applyInstanceConfig (provider : Provider) (inst : Items) : Except ManifestError Provider := do
  let field (items : Items) (key : String) := (items.lookup (.str key)).getD .null
  let instProvider ← coerceMapping (field inst "provider") "instance.provider"
  let defaultTenant ← coerceTenant (field instProvider "defaultTenant")
  let storageClasses ← coerceProtocols yaml (field instProvider "storageClasses")
    "instance.provider.storageClasses"
  let overrides ← instanceOverrides yaml unicode instProvider
  let maps := capabilityIds.foldl (overrideCapability overrides)
    (provider.expectedCapabilities, provider.capabilityStates)
  return {
    tenantId := (defaultTenant.filter (· ≠ "")).or provider.tenantId
    storageClasses := if storageClasses = [] then provider.storageClasses else storageClasses
    expectedCapabilities := maps.1
    capabilityStates := maps.2 }

/-- A provider of `load_provider_registry`, with the instance laid over it where there is one. -/
def loadProvider (tenantId : Option String) (capabilities : Value) (packageCaps : Items) (fieldName : String)
    (inst : Option Items) : Except ManifestError Provider := do
  let provider ← buildProvider yaml tenantId capabilities packageCaps fieldName
  match inst with
  | none => return provider
  | some inst => applyInstanceConfig yaml unicode provider inst

/-! ## What a block says -/

/-- What a document has at the end of a path of keys. -/
def valueAt (value : Value) : List String → Option Value
  | [] => some value
  | key :: rest => (value.get? key).bind (valueAt · rest)

def declaredBy (value : Value) : Option Declaration := value.str?.bind Declaration.ofText?

/-- The state a block of the manifest sets at a path. -/
def stateAt (caps : Items) (path : List String) : Option Declaration :=
  (valueAt (.dict caps) path).bind declaredBy

/-- The state which is set deepest on the way along a path. -/
def deepestState (caps : Items) (path : List String) : Option Declaration :=
  path.inits.reverse.findSome? (stateAt caps)

/-- The layers of the manifest: the provider, the package, and the fallbacks of both. -/
def manifestState (providerCaps packageCaps : Items) (path : List String) : Option Declaration :=
  (((deepestState providerCaps path).or (deepestState packageCaps path)).or
    (stateAt providerCaps ["default"])).or (stateAt packageCaps ["default"])

/-- An instance over the state of the manifest. -/
def overlay : Option Bool → Option Declaration → Option Declaration
  | none, manifest => manifest
  | some false, _ => some .none
  | some true, manifest => some (if manifest = some .none then .native else manifest.getD .native)

/-- The overrides of the instance, where there is one. -/
def overridesOf : Option Items → Except ManifestError (OrderedMap String Bool)
  | none => .ok .empty
  | some inst => do
    let instProvider ← coerceMapping ((inst.lookup (.str "provider")).getD .null) "instance.provider"
    instanceOverrides yaml unicode instProvider

section Checked

variable {yaml} {fieldName place : String} {items : Items} {caps : Caps} {value : Value} {block : Block}

/-- A value which was checked is a group of checked entries or declares a state. -/
theorem cases_of_validateCapabilityValue
    (h : validateCapabilityValue yaml fieldName place value = .ok block) :
    (∃ items entries path, value = .dict items ∧ block = .group entries ∧
      validateCapabilityBlock yaml fieldName path items = .ok entries) ∨
    (∃ state, declaredBy value = some state ∧ block = .state state ∧ ∀ key, value.get? key = none) := by
  cases value with
  | dict items =>
    rw [validateCapabilityValue] at h
    cases hentries : validateCapabilityBlock yaml fieldName s!"{place}." items with
    | error e =>
      rw [hentries] at h
      cases h
    | ok entries =>
      rw [hentries] at h
      cases h
      exact .inl ⟨items, entries, _, rfl, rfl, hentries⟩
  | _ =>
    rw [validateCapabilityValue] at h
    · right
      split at h
      · rename_i state hstate
        cases h
        exact ⟨state, hstate, rfl, fun key ↦ rfl⟩
      · cases h
    · intro items heq
      cases heq

theorem lookup_of_validateCapabilityBlock (key : Scalar)
    (h : validateCapabilityBlock yaml fieldName place items = .ok caps) :
    (items.lookup key = none ∧ caps.lookup key = none) ∨
    ∃ value block inner, items.lookup key = some value ∧ caps.lookup key = some block ∧
      validateCapabilityValue yaml fieldName inner value = .ok block := by
  induction items generalizing caps with
  | nil =>
    rw [validateCapabilityBlock] at h
    cases h
    exact .inl ⟨rfl, rfl⟩
  | cons item rest ih =>
    rw [validateCapabilityBlock] at h
    cases hvalue : validateCapabilityValue yaml fieldName s!"{place}{yaml.str (.scalar item.1)}" item.2 with
    | error e =>
      rw [hvalue] at h
      cases h
    | ok block =>
      cases hrest : validateCapabilityBlock yaml fieldName place rest with
      | error e =>
        rw [hvalue, hrest] at h
        cases h
      | ok others =>
        rw [hvalue, hrest] at h
        cases h
        by_cases hkey : key = item.1
        · right
          refine ⟨item.2, block, _, ?_, ?_, hvalue⟩
          · rw [List.lookup_cons, beq_iff_eq.mpr hkey]
          · rw [List.lookup_cons, beq_iff_eq.mpr hkey]
        · rw [List.lookup_cons, List.lookup_cons, beq_eq_false_iff_ne.mpr hkey]
          exact ih hrest

/-- Checking keeps the states and where they are. -/
theorem at?_of_validateCapabilityValue (path : List String)
    (h : validateCapabilityValue yaml fieldName place value = .ok block) :
    (block.at? path).bind Block.state? = (valueAt value path).bind declaredBy := by
  induction path generalizing value block place with
  | nil =>
    obtain ⟨items, entries, path, rfl, rfl, hentries⟩ | ⟨state, hstate, rfl, hleaf⟩ :=
      cases_of_validateCapabilityValue h
    · rfl
    · exact hstate.symm
  | cons key rest ih =>
    rw [Block.at?, valueAt]
    obtain ⟨items, entries, path, rfl, rfl, hentries⟩ | ⟨state, hstate, rfl, hleaf⟩ :=
      cases_of_validateCapabilityValue h
    · rw [Block.get?, Value.get?]
      rcases lookup_of_validateCapabilityBlock (.str key) hentries with
        ⟨hvalue, hblock⟩ | ⟨value, block, inner, hvalue, hblock, hchecked⟩
      · rw [hvalue, hblock]
        rfl
      · rw [hvalue, hblock]
        exact ih hchecked
    · rw [Block.get?, hleaf]
      rfl

theorem stateAt_of_validateCapabilityBlock (path : List String)
    (h : validateCapabilityBlock yaml fieldName "" items = .ok caps) :
    ((Block.group caps).at? path).bind Block.state? = stateAt items path := by
  cases path with
  | nil => rfl
  | cons key rest =>
    rw [stateAt, Block.at?, valueAt, Block.get?, Value.get?]
    rcases lookup_of_validateCapabilityBlock (.str key) h with
      ⟨hvalue, hblock⟩ | ⟨value, block, inner, hvalue, hblock, hchecked⟩
    · rw [hvalue, hblock]
      rfl
    · rw [hvalue, hblock]
      exact at?_of_validateCapabilityValue rest hchecked

end Checked

/-! ## The walk -/

/-- The walk down a block finds the deepest state, and keeps what it had where there is none. -/
theorem walk_eq (node : Block) (found : Option Declaration) (path : List String) :
    lookupCapability.walk node (node.state?.or found) path =
      (path.inits.reverse.findSome? fun front ↦ (node.at? front).bind Block.state?).or found := by
  have hhere : (List.findSome? (fun front ↦ (node.at? front).bind Block.state?) [[]]) = node.state? :=
    List.findSome?_singleton
  induction path generalizing node found with
  | nil =>
    rw [List.inits, List.reverse_singleton, hhere]
    rfl
  | cons key rest ih =>
    rw [List.inits_cons, List.reverse_cons, List.findSome?_append, hhere, ← List.map_reverse,
      List.findSome?_map, lookupCapability.walk]
    cases hchild : node.get? key with
    | none =>
      have hnothing : (fun front ↦ (node.at? front).bind Block.state?) ∘ (key :: ·) = fun _ ↦ none := by
        funext front
        rw [Function.comp_apply, Block.at?, hchild]
        rfl
      rw [hnothing, List.findSome?_eq_none_iff.mpr fun _ _ ↦ rfl, Option.none_or]
    | some child =>
      have hbelow : (fun front ↦ (node.at? front).bind Block.state?) ∘ (key :: ·) =
          fun front ↦ (child.at? front).bind Block.state? := by
        funext front
        rw [Function.comp_apply, Block.at?, hchild]
        rfl
      rw [hbelow, Option.or_assoc]
      exact ih child (node.state?.or found) List.findSome?_singleton

theorem lookupCapability_eq {fieldName : String} {items : Items} {caps : Caps} (path : List String)
    (h : validateCapabilityBlock yaml fieldName "" items = .ok caps) :
    lookupCapability caps path = deepestState items path := by
  have hwalk := walk_eq (.group caps) none path
  rw [Option.or_none, Option.or_none] at hwalk
  have hstates : stateAt items = fun front ↦ ((Block.group caps).at? front).bind Block.state? := by
    funext front
    exact (stateAt_of_validateCapabilityBlock front h).symm
  rw [lookupCapability, deepestState, hstates]
  exact hwalk

/-- The two fallbacks are found where the blocks have a state under `default`. -/
theorem defaultState_eq {providerField packageField : String} {providerCaps packageCaps : Items}
    {provider package : Caps} (hprovider : validateCapabilityBlock yaml providerField "" providerCaps = .ok provider)
    (hpackage : validateCapabilityBlock yaml packageField "" packageCaps = .ok package) :
    defaultState provider package =
      (stateAt providerCaps ["default"]).or (stateAt packageCaps ["default"]) := by
  have hat : ∀ caps : Caps, ((Block.group caps).at? ["default"]).bind Block.state? =
      (caps.lookup (.str "default")).bind Block.state? := by
    intro caps
    rw [Block.at?, Block.get?]
    cases caps.lookup (.str "default") <;> rfl
  rw [← stateAt_of_validateCapabilityBlock _ hprovider, ← stateAt_of_validateCapabilityBlock _ hpackage,
    hat, hat, defaultState, List.findSome?_cons, List.findSome?_singleton]
  cases (provider.lookup (.str "default")).bind Block.state? <;> rfl

/-- A fallback is only found where there is a `default`, so what is found is declared. -/
theorem get?_declareCapability (provider package : Caps) (resolved : OrderedMap String Declaration)
    (leaf : String × List String) (key : String) :
    (declareCapability provider package resolved leaf).get? key =
      if key = leaf.1 then
        (((lookupCapability provider leaf.2).or (lookupCapability package leaf.2)).or
          (defaultState provider package)).or (resolved.get? key)
      else resolved.get? key := by
  rw [declareCapability]
  cases hexplicit : (lookupCapability provider leaf.2).or (lookupCapability package leaf.2) with
  | some state => simp
  | none =>
    cases hfallback : defaultState provider package with
    | none => simp
    | some state =>
      have hdefault : ((provider.lookup (.str "default")).isSome ||
          (package.lookup (.str "default")).isSome) = true := by
        by_contra hnone
        rw [Bool.not_eq_true, Bool.or_eq_false_iff, Option.isSome_eq_false_iff,
          Option.isSome_eq_false_iff, Option.isNone_iff_eq_none, Option.isNone_iff_eq_none] at hnone
        rw [defaultState, List.findSome?_cons, hnone.1, List.findSome?_singleton, hnone.2] at hfallback
        cases hfallback
      simp [hdefault]

/-- Every leaf gets the state its layers say, and nothing else is declared. -/
theorem resolveCapabilityStates_eq_ok {providerCaps packageCaps : Items} {fieldName : String}
    {states : OrderedMap String Declaration}
    (h : resolveCapabilityStates yaml providerCaps packageCaps fieldName = .ok states) :
    (∀ leaf ∈ capabilityLeaves, states.get? leaf.1 = manifestState providerCaps packageCaps leaf.2) ∧
      ∀ id ∉ capabilityIds, states.get? id = none := by
  rw [resolveCapabilityStates] at h
  cases hprovider : validateCapabilityBlock yaml fieldName "" providerCaps with
  | error e =>
    rw [hprovider] at h
    cases h
  | ok provider =>
    cases hpackage : validateCapabilityBlock yaml "default_capabilities" "" packageCaps with
    | error e =>
      rw [hprovider, hpackage] at h
      cases h
    | ok package =>
      rw [hprovider, hpackage] at h
      cases h
      have hstep := fun map leaf key ↦ get?_declareCapability provider package map leaf key
      constructor
      · intro leaf hleaf
        have hnodup : (capabilityLeaves.map Prod.fst).Nodup := by
          rw [capabilityLeaves_ids]
          decide
        have hget := OrderedMap.get?_foldl_of_step hstep hnodup .empty hleaf
        rw [lookupCapability_eq yaml _ hprovider, lookupCapability_eq yaml _ hpackage,
          defaultState_eq yaml hprovider hpackage, OrderedMap.get?_empty, Option.or_none] at hget
        rw [manifestState, Option.or_assoc]
        exact hget
      · intro id hid
        rw [← capabilityLeaves_ids] at hid
        exact OrderedMap.get?_foldl_of_notMem hstep hid

/-! ## The overlay -/

section Overlay

variable (overrides : OrderedMap String Bool)

/-- One pass keeps the two maps in step. -/
theorem overrideCapability_fst {maps : OrderedMap String Bool × OrderedMap String Declaration}
    (h : maps.1 = supported maps.2) (capId : String) :
    (overrideCapability overrides maps capId).1 = supported (overrideCapability overrides maps capId).2 := by
  rw [overrideCapability]
  cases resolveCapabilityOverride overrides capId with
  | none => exact h
  | some override =>
    simp only [supported, OrderedMap.mapValues_insert]
    rw [h, supported]
    congr 1
    cases override with
    | false => rfl
    | true =>
      by_cases hnone : maps.2.get? capId = some .none
      · simp [hnone]
      · cases hstate : maps.2.get? capId with
        | none => simp
        | some state =>
          rw [hstate, Option.some.injEq] at hnone
          simp [hnone]

theorem overrideCapabilities_fst {maps : OrderedMap String Bool × OrderedMap String Declaration}
    (h : maps.1 = supported maps.2) (ids : List String) :
    (ids.foldl (overrideCapability overrides) maps).1 =
      supported (ids.foldl (overrideCapability overrides) maps).2 := by
  induction ids generalizing maps with
  | nil => exact h
  | cons id rest ih => exact ih (overrideCapability_fst overrides h id)

theorem get?_overrideCapability (maps : OrderedMap String Bool × OrderedMap String Declaration)
    (capId key : String) : (overrideCapability overrides maps capId).2.get? key =
      if key = capId then overlay (mostSpecific overrides.get? (nodePath capId)) (maps.2.get? key)
      else maps.2.get? key := by
  rw [overrideCapability, resolveCapabilityOverride, resolveUp_eq]
  cases mostSpecific overrides.get? (nodePath capId) with
  | none => simp [overlay]
  | some override =>
    rw [OrderedMap.get?_insert]
    by_cases hkey : key = capId
    · rw [if_pos hkey, if_pos hkey, hkey]
      cases override with
      | false => rfl
      | true => by_cases hnone : maps.2.get? capId = some .none <;> simp [overlay, hnone]
    · rw [if_neg hkey, if_neg hkey]

/-- The overlay of all passes, on the states. -/
theorem get?_overrideCapabilities {ids : List String} (hnodup : ids.Nodup)
    (maps : OrderedMap String Bool × OrderedMap String Declaration) (id : String) :
    (ids.foldl (overrideCapability overrides) maps).2.get? id =
      if id ∈ ids then overlay (mostSpecific overrides.get? (nodePath id)) (maps.2.get? id)
      else maps.2.get? id := by
  have hstates : (ids.foldl (overrideCapability overrides) maps).2 =
      ids.foldl (fun states id ↦ (overrideCapability overrides (.empty, states) id).2) maps.2 := by
    refine (List.foldl_hom Prod.snd ?_).symm
    intro maps id
    rw [overrideCapability, overrideCapability]
    cases resolveCapabilityOverride overrides id <;> rfl
  rw [hstates]
  have hstep : ∀ (states : OrderedMap String Declaration) (id key : String),
      ((overrideCapability overrides (.empty, states) id).2).get? key =
        if key = id then overlay (mostSpecific overrides.get? (nodePath id)) (states.get? key)
        else states.get? key := fun states ↦ get?_overrideCapability overrides (.empty, states)
  by_cases hid : id ∈ ids
  · rw [if_pos hid]
    have hnames : (ids.map fun id ↦ id).Nodup := by rwa [List.map_id']
    exact OrderedMap.get?_foldl_of_step hstep hnames maps.2 hid
  · rw [if_neg hid]
    have hnames : id ∉ ids.map fun id ↦ id := by rwa [List.map_id']
    exact OrderedMap.get?_foldl_of_notMem hstep hnames

end Overlay

/-! ## Loading -/

variable {yaml unicode} {tenantId : Option String} {capabilities : Value} {packageCaps : Items}
  {fieldName : String} {provider : Provider}

/-- The package builds a provider in step with itself. -/
theorem buildProvider_eq_ok (h : buildProvider yaml tenantId capabilities packageCaps fieldName = .ok provider) :
    ∃ caps, coerceMapping capabilities fieldName = .ok caps ∧
      resolveCapabilityStates yaml caps packageCaps fieldName = .ok provider.capabilityStates ∧
      provider.expectedCapabilities = supported provider.capabilityStates := by
  rw [buildProvider] at h
  obtain ⟨caps, hcaps, h⟩ := bind_eq_ok.mp h
  obtain ⟨states, hstates, h⟩ := bind_eq_ok.mp h
  cases h
  exact ⟨caps, hcaps, hstates, rfl⟩

/-- An instance which is accepted is laid over the maps by its overrides. -/
theorem applyInstanceConfig_eq_ok {inst : Items} {applied : Provider}
    (h : applyInstanceConfig yaml unicode provider inst = .ok applied) :
    ∃ overrides, overridesOf yaml unicode (some inst) = .ok overrides ∧
      (applied.expectedCapabilities, applied.capabilityStates) =
        capabilityIds.foldl (overrideCapability overrides)
          (provider.expectedCapabilities, provider.capabilityStates) := by
  rw [applyInstanceConfig] at h
  obtain ⟨instProvider, hprovider, h⟩ := bind_eq_ok.mp h
  obtain ⟨tenant, -, h⟩ := bind_eq_ok.mp h
  obtain ⟨classes, -, h⟩ := bind_eq_ok.mp h
  obtain ⟨overrides, hoverrides, h⟩ := bind_eq_ok.mp h
  cases h
  exact ⟨overrides, bind_eq_ok.mpr ⟨instProvider, hprovider, hoverrides⟩, rfl⟩

/-- A provider which was loaded has two maps in step, and its states are the instance over the manifest. -/
theorem loadProvider_eq_ok {inst : Option Items}
    (h : loadProvider yaml unicode tenantId capabilities packageCaps fieldName inst = .ok provider) :
    ∃ caps states overrides, coerceMapping capabilities fieldName = .ok caps ∧
      resolveCapabilityStates yaml caps packageCaps fieldName = .ok states ∧
      overridesOf yaml unicode inst = .ok overrides ∧
      provider.expectedCapabilities = supported provider.capabilityStates ∧
      ∀ id, provider.capabilityStates.get? id = if id ∈ capabilityIds then
        overlay (mostSpecific overrides.get? (nodePath id)) (states.get? id) else states.get? id := by
  rw [loadProvider] at h
  obtain ⟨built, hbuilt, h⟩ := bind_eq_ok.mp h
  obtain ⟨caps, hcaps, hstates, hstep⟩ := buildProvider_eq_ok hbuilt
  cases inst with
  | none =>
    cases h
    refine ⟨caps, _, .empty, hcaps, hstates, rfl, hstep, fun id ↦ ?_⟩
    have hnothing : mostSpecific (OrderedMap.empty : OrderedMap String Bool).get? (nodePath id) = none :=
      List.findSome?_eq_none_iff.mpr fun node _ ↦ rfl
    rw [hnothing, overlay, ite_self]
  | some inst =>
    obtain ⟨overrides, hoverrides, hmaps⟩ := applyInstanceConfig_eq_ok h
    have hfst : provider.expectedCapabilities = _ := congrArg Prod.fst hmaps
    have hsnd : provider.capabilityStates = _ := congrArg Prod.snd hmaps
    refine ⟨caps, _, overrides, hcaps, hstates, hoverrides, ?_, fun id ↦ ?_⟩
    · rw [hfst, hsnd]
      exact overrideCapabilities_fst overrides hstep capabilityIds
    · rw [hsnd]
      exact get?_overrideCapabilities overrides (by decide) _ id

/-- A capability is declared by the most specific override of the instance, over the deepest state in the
block of the provider, the one in the block of the package, and the fallbacks. What is expected is what is
declared and not ruled out. -/
theorem loadProvider_capabilities {inst : Option Items}
    (h : loadProvider yaml unicode tenantId capabilities packageCaps fieldName inst = .ok provider) :
    ∃ caps overrides, coerceMapping capabilities fieldName = .ok caps ∧
      overridesOf yaml unicode inst = .ok overrides ∧
      (∀ leaf ∈ capabilityLeaves, provider.capabilityStates.get? leaf.1 =
        overlay (mostSpecific overrides.get? (nodePath leaf.1)) (manifestState caps packageCaps leaf.2)) ∧
      (∀ id ∉ capabilityIds, provider.capabilityStates.get? id = none) ∧
      provider.expectedCapabilities.keys = provider.capabilityStates.keys ∧
      ∀ id, provider.expectedCapabilities.get? id = (provider.capabilityStates.get? id).map (· != .none) := by
  obtain ⟨caps, states, overrides, hcaps, hstates, hoverrides, hstep, hget⟩ := loadProvider_eq_ok h
  obtain ⟨hleaves, hothers⟩ := resolveCapabilityStates_eq_ok yaml hstates
  refine ⟨caps, overrides, hcaps, hoverrides, ?_, ?_, ?_, ?_⟩
  · intro leaf hleaf
    have hid : leaf.1 ∈ capabilityIds := by
      rw [← capabilityLeaves_ids]
      exact List.mem_map_of_mem hleaf
    rw [hget, if_pos hid, hleaves leaf hleaf]
  · intro id hid
    rw [hget, if_neg hid, hothers id hid]
  · rw [hstep, supported, OrderedMap.keys_mapValues]
  · intro id
    rw [hstep, supported, OrderedMap.get?_mapValues]

theorem loadProvider_capabilities_layered :
    let yaml : YamlText := ⟨fun value ↦ value.str?.getD "", fun value ↦ value.str?.getD ""⟩
    let unicode : Host.Unicode := ⟨id, (· = ' '), fun _ ↦ true⟩
    let caps : Items := [(.str "volumeManagement", .dict [(.str "create", .str "none")])]
    let package : Items := [(.str "volumeManagement", .str "native"), (.str "default", .str "default")]
    let inst : Items := [(.str "provider", .dict [(.str "capabilities",
      .dict [(.str "volume", .str "enabled"), (.str "volume.delete", .str "disabled")])])]
    ∃ provider, loadProvider yaml unicode none (.dict caps) package "capabilities" (some inst) = .ok provider ∧
      provider.capabilityStates.get? capVolumeCreate = some .native ∧
      provider.capabilityStates.get? capVolumeDelete = some .none ∧
      provider.expectedCapabilities.keys = provider.capabilityStates.keys := by
  intro yaml unicode caps package inst
  have hload : (loadProvider yaml unicode none (.dict caps) package "capabilities" (some inst)).isOk = true :=
    rfl
  obtain ⟨provider, hprovider⟩ := exists_of_isOk hload
  obtain ⟨read, overrides, hread, hoverrides, hleaves, -, hkeys, -⟩ := loadProvider_capabilities hprovider
  cases hread
  cases hoverrides
  have hcreate := hleaves (capVolumeCreate, ["volumeManagement", "create"]) (by decide)
  have hdelete := hleaves (capVolumeDelete, ["volumeManagement", "delete"]) (by decide)
  exact ⟨provider, hprovider, hcreate.trans rfl, hdelete.trans rfl, hkeys⟩

end IsvValidation.Storage.Manifest
