import IsvValidation.Host.Text
import IsvValidation.Library.Segments
import IsvValidation.Library.TlsRecords

/-!
# The probes of insecure protocols

`insecure_protocols_test.py` offers an old version of TLS to a server, or asks it for a page in plain
HTTP, and judges the reply by its first record or its first read. What it makes of a connection is a
category, and some of the categories count as the protocol being disabled.
-/

namespace IsvValidation.Security.InsecureProtocols

open Host Library

/-! ## Connections -/

/-- What the operations of a socket raise, and the names of hosts which cannot be encoded. -/
inductive SocketError where
  | connectionReset
  | connectionRefused
  | brokenPipe
  | timeout
  | other (typeName text : String)

/-- The bytes a server sends. -/
abbrev Replies := Delivery SocketError UInt8

/-- A connection on which the request was sent, or what was raised before. -/
abbrev Connection := Except SocketError Replies

/-! ## Results -/

inductive Category where
  | accepted
  | downgraded (chosen : ℕ)
  | refused
  | closed
  | timeout
  | unexpected
  | error
  deriving DecidableEq

/-- A number in hexadecimal, with at least so many digits. -/
def hexText (width value : ℕ) : String :=
  let digits := Nat.toDigits 16 value
  "0x" ++ .ofList (List.replicate (width - digits.length) '0' ++ digits)

def Category.text : Category → String
  | accepted => "accepted"
  | downgraded chosen => "downgraded:" ++ hexText 4 chosen
  | refused => "refused"
  | closed => "closed"
  | timeout => "timeout"
  | unexpected => "unexpected"
  | error => "error"

structure Probe where
  host : String
  port : ℕ
  requestedVersion : Option String := none
  chosenVersion : Option String := none
  category : Category
  detail : String := ""

/-- The handlers of both probes. -/
def Probe.caught (probe : Probe) : SocketError → Probe
  | .connectionReset => { probe with category := .closed, detail := "ConnectionResetError" }
  | .connectionRefused => { probe with category := .closed, detail := "ConnectionRefusedError" }
  | .brokenPipe => { probe with category := .closed, detail := "BrokenPipeError" }
  | .timeout => { probe with category := .timeout, detail := "no response within budget" }
  | .other typeName text => { probe with category := .error, detail := s!"{typeName}: {text}" }

/-! ## TLS -/

/-- The loop of `_recv_exact`. -/
def recvLoop (count : ℕ) (buf : List UInt8) (replies : Replies) :
    Except SocketError (List UInt8 × Replies) :=
  if buf.length < count then
    match replies.receive (count - buf.length) with
    | .error error => .error error
    | .ok (chunk, rest) =>
      if h : chunk = [] then .ok (buf, rest)
      else
        have : 0 < chunk.length := List.length_pos_of_ne_nil h
        recvLoop count (buf ++ chunk) rest
  else .ok (buf, replies)
termination_by count - buf.length
decreasing_by
  rw [List.length_append]
  omega

/-- `_recv_exact`. -/
def recvExact (replies : Replies) (count : ℕ) : Except SocketError (List UInt8 × Replies) :=
  recvLoop count [] replies

def byteText : Option UInt8 → String
  | some byte => toString byte.toNat
  | none => "None"

/-- What `probe_tls_version` makes of a record of a kind with a body. -/
def judgeRecord (probe : Probe) (version : ℕ) (kind : UInt8) (body : List UInt8) : Probe :=
  if kind = Tls.alertKind then
    { probe with
      category := .refused, detail := s!"alert level={byteText body[0]?} desc={byteText body[1]?}" }
  else if kind = Tls.handshakeKind ∧ 6 ≤ body.length ∧ body[0]? = some Tls.serverHelloKind then
    let chosen := Tls.number ((body.drop 4).take 2)
    { probe with
      chosenVersion := some (hexText 4 chosen)
      category := if chosen = version then .accepted else .downgraded chosen }
  else
    { probe with category := .unexpected, detail := s!"record type={hexText 2 kind.toNat}" }

/-- The reading of the reply in `probe_tls_version`. -/
def tlsReply (probe : Probe) (version : ℕ) (replies : Replies) : Except SocketError Probe := do
  let (head, replies) ← recvExact replies 5
  match head with
  | kind :: _ :: _ :: high :: low :: _ =>
    let length := Tls.number [high, low]
    let (body, _) ← if length ≠ 0 then recvExact replies length else .ok ([], replies)
    return judgeRecord probe version kind body
  | _ => return { probe with category := .closed, detail := "server closed before record header" }

/-- `probe_tls_version`. -/
def probeTlsVersion (host : String) (port version : ℕ) (connection : Connection) : Probe :=
  let probe : Probe :=
    { host := host, port := port, requestedVersion := some (hexText 4 version), category := .error }
  match connection.bind (tlsReply probe version) with
  | .ok probe => probe
  | .error error => probe.caught error

/-! ## Plain HTTP -/

/-- `b"HTTP/"`. -/
def httpBanner : List UInt8 := [72, 84, 84, 80, 47]

/-- `data.split(b"\r\n", 1)[0]`. -/
def statusLine : List UInt8 → List UInt8
  | [] => []
  | 13 :: 10 :: _ => []
  | byte :: rest => byte :: statusLine rest

/-- `data.decode("ascii", errors="replace")`. -/
def decodeAscii (data : List UInt8) : String :=
  .ofList (data.map fun byte ↦ if byte < 128 then Char.ofNat byte.toNat else '\uFFFD')

/-- `probe_plain_http`, which reads once. -/
def probePlainHttp (host : String) (port : ℕ) (connection : Connection) : Probe :=
  let probe : Probe := { host := host, port := port, category := .error }
  match connection.bind (·.receive 64) with
  | .error error => probe.caught error
  | .ok (data, _) =>
    if httpBanner.isPrefixOf data then
      { probe with category := .accepted, detail := s!"banner={decodeAscii (statusLine data)}" }
    else { probe with category := .closed, detail := "no HTTP response banner" }

/-! ## The tests -/

/-- `_probe_confirms_disabled`. -/
def probeConfirmsDisabled (probe : Probe) : Bool :=
  let category := probe.category.text
  ["refused", "closed", "timeout"].contains category || Text.startsWith category "downgraded:"

end IsvValidation.Security.InsecureProtocols
