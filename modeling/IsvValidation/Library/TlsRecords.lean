import Mathlib.Data.List.Basic

/-!
# Records and messages of TLS

A peer sends records, each with a kind and a body. The bodies of the handshake records put together are
the handshake messages, so a message may come in several records and a record may hold several messages;
the bodies of the alert records put together are the alerts. An alert is a warning or fatal, and only a
fatal one ends the connection.
-/

namespace IsvValidation.Library.Tls

/-- Bytes as a number, the first one counting most. -/
def number (bytes : List UInt8) : ℕ := bytes.foldl (fun value byte ↦ 256 * value + byte.toNat) 0

def alertKind : UInt8 := 21

def handshakeKind : UInt8 := 22

def serverHelloKind : UInt8 := 2

def fatalLevel : UInt8 := 2

/-- A complete record; its header has the kind, a version and the length of the body. -/
structure Record where
  kind : UInt8
  major : UInt8
  minor : UInt8
  high : UInt8
  low : UInt8
  body : List UInt8
  length_body : number [high, low] = body.length

def Record.bytes (record : Record) : List UInt8 :=
  record.kind :: record.major :: record.minor :: record.high :: record.low :: record.body

/-- A complete handshake message. -/
structure Message where
  kind : UInt8
  high : UInt8
  middle : UInt8
  low : UInt8
  body : List UInt8
  length_body : number [high, middle, low] = body.length

def Message.bytes (message : Message) : List UInt8 :=
  message.kind :: message.high :: message.middle :: message.low :: message.body

/-- The bodies of the records of a kind. -/
def carried (kind : UInt8) (records : List Record) : List UInt8 :=
  (records.filter (·.kind == kind)).flatMap Record.body

/-- The levels of the complete alerts, each of which has a description too. -/
def alertLevels : List UInt8 → List UInt8
  | level :: _ :: rest => level :: alertLevels rest
  | _ => []

/-- None of the alerts in the records is fatal. -/
def Alive (records : List Record) : Prop := fatalLevel ∉ alertLevels (carried alertKind records)

/-- A message is complete in the records at the start of a stream, before any fatal alert. -/
def Says (stream : List UInt8) (message : Message) : Prop :=
  ∃ (records : List Record) (tail : List UInt8), stream = records.flatMap Record.bytes ++ tail ∧ Alive records ∧
    ∃ (messages : List Message) (rest : List UInt8),
      carried handshakeKind records = messages.flatMap Message.bytes ++ rest ∧ message ∈ messages

/-- A message is a server's hello with a version. -/
def Message.Chooses (message : Message) (version : ℕ) : Prop :=
  message.kind = serverHelloKind ∧ 2 ≤ message.body.length ∧ number (message.body.take 2) = version

/-- A server chooses a version somewhere in its stream. -/
def ChoosesVersion (stream : List UInt8) (version : ℕ) : Prop :=
  ∃ message, Says stream message ∧ message.Chooses version

/-- A stream in which something is said starts with a complete record. -/
theorem Says.exists_record {stream : List UInt8} {message : Message} (h : Says stream message) :
    ∃ record tail, stream = Record.bytes record ++ tail := by
  have ⟨records, tail, hstream, _, messages, rest, hcarried, hmem⟩ := h
  match records with
  | [] =>
    have ⟨before, after, hsplit⟩ := List.append_of_mem hmem
    rw [hsplit, List.flatMap_append, List.flatMap_cons] at hcarried
    have hlength := congrArg List.length hcarried
    simp [carried, Message.bytes] at hlength
  | record :: others =>
    exact ⟨record, others.flatMap Record.bytes ++ tail, by
      rw [hstream, List.flatMap_cons, List.append_assoc]⟩

end IsvValidation.Library.Tls
