import Mathlib.Tactic.TypeStar

/-!
# Errors of AWS calls

A call to AWS ends with an error reply of the service (`ClientError`, with a code), or with an
exception raised on the client's side, after which nobody knows whether the service performed it.
-/

namespace IsvValidation.Aws

inductive AwsError where
  | noCredentials (text : String)
  | profileNotFound (text : String)
  | tokenRetrieval (text : String)
  | client (code text : String)
  | botoCore (type text : String)
  | other (type text : String)
  deriving DecidableEq

namespace AwsError

/-- `type(exc).__name__`. -/
def typeName : AwsError → String
  | noCredentials _ => "NoCredentialsError"
  | profileNotFound _ => "ProfileNotFound"
  | tokenRetrieval _ => "TokenRetrievalError"
  | client _ _ => "ClientError"
  | botoCore type _ => type
  | other type _ => type

/-- `str(exc)`. -/
def text : AwsError → String
  | noCredentials text => text
  | profileNotFound text => text
  | tokenRetrieval text => text
  | client _ text => text
  | botoCore _ text => text
  | other _ text => text

/-- The code of an error reply. -/
def code? : AwsError → Option String
  | client code _ => some code
  | _ => none

end AwsError

/-- Codes which say that there is nothing left to delete. -/
def alreadyGoneCodes : List String :=
  ["InvalidVpcID.NotFound", "InvalidGroup.NotFound", "InvalidGroupId.NotFound",
    "InvalidSubnet.NotFound", "InvalidSubnetID.NotFound", "InvalidRouteTableID.NotFound",
    "InvalidInternetGatewayID.NotFound", "InvalidInstanceID.NotFound", "InvalidVolume.NotFound",
    "InvalidNetworkAclID.NotFound", "InvalidVpcPeeringConnectionID.NotFound",
    "InvalidAllocationID.NotFound", "InvalidAssociationID.NotFound", "NoSuchEntity", "NoSuchBucket",
    "FileSystemNotFound"]

/-- Codes after which a call may be made again. -/
def transientAwsCodes : List String :=
  ["RequestLimitExceeded", "Throttling", "ThrottlingException", "RequestThrottledException",
    "TooManyRequestsException", "ServiceUnavailable", "InternalError", "InternalFailure",
    "RequestTimeout", "RequestTimeoutException"]

/-- `classify_aws_error`: the type and the message of an error. -/
def classifyAwsError : AwsError → String × String
  | .noCredentials _ => ("credentials_missing", "AWS credentials not found")
  | .profileNotFound text => ("profile_not_found", s!"AWS profile not found: {text}")
  | .tokenRetrieval _ => ("credentials_expired", "AWS credentials expired - please refresh")
  | .client code text =>
    if code = "ExpiredToken" ∨ code = "ExpiredTokenException" then
      ("credentials_expired", "AWS credentials expired - please refresh")
    else if code = "InvalidSignatureException" ∨ code = "SignatureDoesNotMatch" then
      ("credentials_invalid", "AWS credentials invalid or expired")
    else if code = "InvalidClientTokenId" ∨ code = "AuthFailure" then
      ("credentials_invalid", "AWS credentials are invalid")
    else if code = "AccessDenied" then ("access_denied", s!"Access denied: {text}")
    else ("aws_error", text)
  | .botoCore _ text => ("aws_error", text)
  | .other _ text => ("unknown_error", text)

end IsvValidation.Aws
