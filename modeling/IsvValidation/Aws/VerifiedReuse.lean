import Mathlib.Logic.Function.Basic
import IsvValidation.Aws.Errors
import IsvValidation.Library.Execution

/-!
# Reuse of key pairs and security groups

A key pair and a security group are looked up by name before they are created. One which is there is taken
over only with the tag of the suite; for a key pair a file is to be there as well, and a group is to have
the description and the rule. A file is looked at for its size, and not for the key in it.
-/

namespace IsvValidation.Aws.Reuse

open Library Library.Program

/-! ## Requests -/

structure Tag where
  key : String
  value : String
  deriving DecidableEq

/-- An ingress rule of a security group. -/
structure Permission where
  ipProtocol : Option String := none
  fromPort : Option ℤ := none
  toPort : Option ℤ := none
  cidrIps : List (Option String) := []
  deriving DecidableEq

structure Group where
  id : String
  description : String
  tags : List Tag
  permissions : List Permission
  deriving DecidableEq

/-- What a run asks of AWS, and of the file at a place, which is a path on some host. -/
inductive Call (Place : Type) where
  | describeKeyPairs (name : String)
  | deleteKeyPair (name : String)
  | createKeyPair (name : String) (tags : List Tag)
  | createSecurityGroup (name description vpcId : String) (tags : List Tag)
  | authorizeIngress (groupId : String) (permissions : List Permission)
  | describeSecurityGroups (name vpcId : String)
  | fileExists (place : Place)
  | fileSize (place : Place)
  | makeDirectory (place : Place)
  | chmod (place : Place) (mode : ℕ)
  | unlink (place : Place)
  | writeText (place : Place) (text : String)

inductive Error where
  | aws (error : AwsError)
  | os (text : String)
  | runtime (text : String)
  | value (text : String)
  | index
  deriving DecidableEq

/-- Of a key pair the tags are described; where it is created, its private key comes back. -/
abbrev Response {Place : Type} : Call Place → Type
  | .describeKeyPairs _ => List (List Tag)
  | .createKeyPair _ _ => String
  | .createSecurityGroup _ _ _ _ => String
  | .describeSecurityGroups _ _ => List Group
  | .fileExists _ => Bool
  | .fileSize _ => ℕ
  | .deleteKeyPair _ | .authorizeIngress _ _ | .makeDirectory _ | .chmod _ _ | .unlink _ | .writeText _ _ => Unit

abbrev Reply {Place : Type} (call : Call Place) : Type := Except Error (Response call)

abbrev Run (Place : Type) := Program (Call Place) Reply Error

/-- A request, whose error ends the run. -/
def ask {Place : Type} (call : Call Place) : Run Place (Response call) := Program.invoke call

/-! ## The tag and the rule -/

def isvCreatedByTag : Tag := ⟨"CreatedBy", "isvtest"⟩

/-- `_has_isv_tag`. -/
def hasIsvTag (tags : List Tag) : Bool := tags.any fun tag ↦ tag.key = "CreatedBy" ∧ tag.value = "isvtest"

def createdTags (name : String) : List Tag := [⟨"Name", name⟩, isvCreatedByTag]

/-- SSH from anywhere. -/
def sshPermission : Permission :=
  { ipProtocol := "tcp", fromPort := some 22, toPort := some 22, cidrIps := [some "0.0.0.0/0"] }

/-- `_sg_has_ssh_rule`. -/
def sgHasSshRule (permissions : List Permission) : Bool :=
  permissions.any fun permission ↦ permission.ipProtocol = some "tcp" ∧ permission.fromPort = some 22 ∧
    permission.toPort = some 22 ∧ some "0.0.0.0/0" ∈ permission.cidrIps

/-! ## Key pairs -/

/-- The pattern of a key name. -/
def validKeyName (name : String) : Bool :=
  name.toList.all (fun c ↦ c.isAlphanum || c == '_' || c == '.' || c == '-') && 0 < name.length &&
    name.length ≤ 255

variable {Place : Type} (repr : String → String) (name : String) (place : Place)

/-- `sanitize_key_name`. -/
def sanitizeKeyName : Except Error String :=
  if validKeyName name then .ok name
  else .error (.value (s!"invalid key name {repr name}: must match [A-Za-z0-9_.-] (1-255 chars). " ++
    "Rejected to prevent path traversal when composed into /tmp/<name>.pem."))

/-- There is a file, and something in it. -/
def filePresent : Run Place Bool := do
  let found ← ask (.fileExists place)
  if found then
    let size ← ask (.fileSize place)
    return size > 0
  else return false

def notOwnedKeyError : Error :=
  .runtime (s!"key pair {repr name} already exists on AWS but is not tagged CreatedBy=isvtest - refusing to " ++
    "adopt a resource this suite did not create. Either delete it manually or use a different --key-name.")

/-- The first half of `create_key_pair`: the place of a key pair which is taken over, or nothing after what
was there is deleted. -/
def reuseKeyPair : Run Place (Option Place) := do
  let described ← ask (.describeKeyPairs name)
  match described with
  | [] => .raise .index
  | tags :: _ =>
    if !hasIsvTag tags then .raise (notOwnedKeyError repr name)
    else
      let present ← filePresent place
      if present then return some place
      else
        ask (.deleteKeyPair name)
        return none

/-- An error reply of AWS with the code. -/
def hasCode (code : String) : Error → Bool
  | .aws (.client found _) => found = code
  | _ => false

/-- A key pair which could not be created; exceptions of the client go through. -/
def creationError : Error → Error
  | .aws (.client _ text) => .runtime s!"Failed to create key pair '{name}': {text}"
  | error => error

/-- A stale key file is removed if there is one. -/
def removeStaleKey : Run Place Unit := do
  let found ← ask (.fileExists place)
  if found then
    ask (.chmod place 0o600)
    ask (.unlink place)
  else return

def saveKey (material : String) : Run Place Unit := do
  ask (.makeDirectory place)
  removeStaleKey place
  ask (.writeText place material)
  ask (.chmod place 0o400)

/-- The second half of `create_key_pair`. -/
def registerKeyPair : Run Place Place := do
  let material ← (ask (.createKeyPair name (createdTags name))).mapError (creationError name)
  saveKey place material
  return place

/-- `create_key_pair`; the key is at a place which the name and the directory give. -/
def createKeyPair : Run Place Place := do
  let name ← ofExcept (sanitizeKeyName repr name)
  let reused ← (reuseKeyPair repr name place).attempt
  match reused with
  | .ok (some place) => return place
  | .ok none => registerKeyPair name place
  | .error error =>
    if hasCode "InvalidKeyPair.NotFound" error then registerKeyPair name place else .raise error

/-! ## Security groups -/

variable (description vpcId : String)

def createGroup : Run Place String := do
  let sgId ← ask (.createSecurityGroup name description vpcId (createdTags name))
  ask (.authorizeIngress sgId [sshPermission])
  return sgId

/-- A group which is there is taken over as it is, or not. -/
def verifyGroup (group : Group) : Except Error String :=
  if !hasIsvTag group.tags then
    .error (.runtime (s!"security group {repr name} in VPC {vpcId} already exists but is not tagged " ++
      "CreatedBy=isvtest - refusing to adopt a resource this suite did not create."))
  else if group.description ≠ description then
    .error (.runtime (s!"security group {repr name} ({group.id}) exists but description differs: " ++
      s!"expected {repr description}, got {repr group.description}"))
  else if !sgHasSshRule group.permissions then
    .error (.runtime (s!"security group {repr name} ({group.id}) exists but is missing the required " ++
      "SSH ingress rule (tcp/22 from 0.0.0.0/0) - refusing to reuse."))
  else .ok group.id

/-- `create_security_group`. -/
def createSecurityGroup : Run Place String := do
  let created ← (createGroup name description vpcId).attempt
  match created with
  | .ok sgId => return sgId
  | .error error =>
    if !hasCode "InvalidGroup.Duplicate" error then .raise error
    else
      let sgs ← ask (.describeSecurityGroups name vpcId)
      match sgs with
      | [] => .raise error
      | group :: _ => ofExcept (verifyGroup repr name description vpcId group)

end IsvValidation.Aws.Reuse
