import IsvValidation.Security.InsecureProtocols

/-!
# When a protocol counts as disabled

The probe of TLS reads as much as the header says, so its result is one of the stream and not of the
segments in which it comes. It judges the first record only: a server may send a warning, or choose another
version, and choose the version which was asked for after that. The probe of plain HTTP reads once, and
misses a banner which comes in pieces.
-/

namespace IsvValidation.Security.InsecureProtocols

open Host Library

/-! ## Reading as many bytes as are asked for -/

/-- What a reader gets of a stream when it asks for so many bytes, with what is left of the stream. -/
def reads (stream : List UInt8) (ending : Ending SocketError) (count : ℕ) :
    Except SocketError (List UInt8 × List UInt8) :=
  if count ≤ stream.length then .ok (stream.take count, stream.drop count)
  else
    match ending with
    | .close => .ok (stream, [])
    | .fail error => .error error

/-- A reading of replies gives what a reading of their stream gives. -/
def Agrees (ending : Ending SocketError) :
    Except SocketError (List UInt8 × Replies) → Except SocketError (List UInt8 × List UInt8) → Prop
  | .ok (bytes, rest), .ok (bytes', more) => bytes = bytes' ∧ rest.stream = more ∧ rest.ending = ending
  | .error error, .error error' => error = error'
  | _, _ => False

theorem reads_zero (stream : List UInt8) (ending : Ending SocketError) :
    reads stream ending 0 = .ok ([], stream) := if_pos (Nat.zero_le _)

theorem reads_append_length (bytes more : List UInt8) (ending : Ending SocketError) :
    reads (bytes ++ more) ending bytes.length = .ok (bytes, more) := by
  have hlength : bytes.length ≤ (bytes ++ more).length := by
    rw [List.length_append]
    omega
  refine (if_pos hlength).trans ?_
  rw [List.take_left, List.drop_left]

theorem reads_nil {ending : Ending SocketError} {count : ℕ} (h : 0 < count) :
    reads [] ending count =
      match ending with
      | .close => .ok ([], [])
      | .fail error => .error error := if_neg (Nat.not_le_of_lt h)

/-- A reading which goes on after a chunk. -/
theorem reads_append {chunk stream : List UInt8} {ending : Ending SocketError} {count : ℕ}
    (h : chunk.length ≤ count) :
    reads (chunk ++ stream) ending count =
      (reads stream ending (count - chunk.length)).map fun (bytes, more) ↦ (chunk ++ bytes, more) := by
  unfold reads
  by_cases hlong : count ≤ (chunk ++ stream).length
  · have hrest : count - chunk.length ≤ stream.length := by
      rw [List.length_append] at hlong
      omega
    rw [if_pos hlong, if_pos hrest, List.take_append, List.drop_append, List.take_of_length_le h,
      List.drop_eq_nil_of_le h]
    rfl
  · have hrest : ¬ count - chunk.length ≤ stream.length := by
      rw [List.length_append] at hlong
      omega
    rw [if_neg hlong, if_neg hrest]
    cases ending with
    | close | fail => rfl

/-- What was read before comes before what is read. -/
theorem agrees_recvLoop {count : ℕ} {buf : List UInt8} {replies : Replies} (hbuf : buf.length ≤ count) :
    Agrees replies.ending (recvLoop count buf replies)
      ((reads replies.stream replies.ending (count - buf.length)).map fun (bytes, more) ↦
        (buf ++ bytes, more)) := by
  induction hroom : count - buf.length using Nat.strong_induction_on generalizing buf replies with
  | _ room ih =>
    rw [recvLoop]
    by_cases hfull : buf.length < count
    · have hpos : 0 < room := by omega
      rw [if_pos hfull, hroom]
      by_cases hend : replies.stream = []
      · rw [Delivery.receive_none hend, hend, reads_nil hpos]
        cases hending : replies.ending with
        | close => exact ⟨(List.append_nil buf).symm, hend, hending⟩
        | fail error => exact rfl
      · have ⟨chunk, rest, hreceive, hchunk, hlength, hstream, hending⟩ :=
          Delivery.receive_some hpos hend
        have hsome := List.length_pos_of_ne_nil hchunk
        have hsum : (buf ++ chunk).length = buf.length + chunk.length := List.length_append
        have hleft : count - (buf ++ chunk).length = room - chunk.length := by omega
        have hrest := @ih (room - chunk.length) (by omega) (buf ++ chunk) rest (by omega) hleft
        rw [hreceive, hstream, reads_append hlength, ← hending]
        simp only [dif_neg hchunk]
        match hread : reads rest.stream rest.ending (room - chunk.length) with
        | .ok (bytes, more) =>
          rw [hread] at hrest
          simp only [Except.map, List.append_assoc] at hrest ⊢
          exact hrest
        | .error error =>
          rw [hread] at hrest
          exact hrest
    · have hzero : room = 0 := by omega
      rw [if_neg hfull, hzero, reads_zero]
      exact ⟨(List.append_nil buf).symm, rfl, rfl⟩

theorem agrees_recvExact (replies : Replies) (count : ℕ) :
    Agrees replies.ending (recvExact replies count) (reads replies.stream replies.ending count) := by
  have h := @agrees_recvLoop count [] replies (Nat.zero_le count)
  match hread : reads replies.stream replies.ending count with
  | .ok (bytes, more) =>
    simp only [List.length_nil, Nat.sub_zero, hread, Except.map, List.nil_append] at h
    exact h
  | .error error =>
    simp only [List.length_nil, Nat.sub_zero, hread] at h
    exact h

/-- Readings which agree may be followed by whatever agrees. -/
theorem Agrees.bind_eq {α : Type} {ending : Ending SocketError}
    {got : Except SocketError (List UInt8 × Replies)} {read : Except SocketError (List UInt8 × List UInt8)}
    {f : List UInt8 × Replies → Except SocketError α}
    {g : List UInt8 × List UInt8 → Except SocketError α} (h : Agrees ending got read)
    (hnext : ∀ bytes rest, rest.ending = ending → f (bytes, rest) = g (bytes, rest.stream)) :
    got >>= f = read >>= g := by
  match got, read, h with
  | .ok (bytes, rest), .ok (_, _), ⟨hbytes, hstream, hending⟩ =>
    rw [← hbytes, ← hstream]
    exact hnext bytes rest hending
  | .error error, .error error', herror => exact congrArg Except.error herror

/-! ## The reply as a stream -/

/-- The reading of the reply, from its bytes and how they end. -/
def streamReply (probe : Probe) (version : ℕ) (stream : List UInt8) (ending : Ending SocketError) :
    Except SocketError Probe := do
  let (head, more) ← reads stream ending 5
  match head with
  | kind :: _ :: _ :: high :: low :: _ =>
    let length := Tls.number [high, low]
    let (body, _) ← if length ≠ 0 then reads more ending length else .ok ([], more)
    return judgeRecord probe version kind body
  | _ => return { probe with category := .closed, detail := "server closed before record header" }

/-- The segments do not matter. -/
theorem tlsReply_eq (probe : Probe) (version : ℕ) (replies : Replies) :
    tlsReply probe version replies = streamReply probe version replies.stream replies.ending := by
  refine (agrees_recvExact replies 5).bind_eq fun head rest hending ↦ ?_
  match head with
  | [] | [_] | [_, _] | [_, _, _] | [_, _, _, _] => rfl
  | kind :: _ :: _ :: high :: low :: _ =>
    dsimp only
    by_cases hlength : Tls.number [high, low] ≠ 0
    · rw [if_pos hlength, if_pos hlength, ← hending]
      exact (agrees_recvExact rest _).bind_eq fun body _ _ ↦ rfl
    · rw [if_neg hlength, if_neg hlength]
      rfl

/-- The first record decides, when it is complete. -/
theorem streamReply_record (probe : Probe) (version : ℕ) (record : Tls.Record) (tail : List UInt8)
    (ending : Ending SocketError) :
    streamReply probe version (record.bytes ++ tail) ending =
      .ok (judgeRecord probe version record.kind record.body) := by
  have hhead : reads (record.bytes ++ tail) ending 5 = .ok ([record.kind, record.major, record.minor,
      record.high, record.low], record.body ++ tail) := rfl
  unfold streamReply
  rw [hhead]
  change (do
    let (body, _) ← if Tls.number [record.high, record.low] ≠ 0 then
      reads (record.body ++ tail) ending (Tls.number [record.high, record.low])
      else .ok ([], record.body ++ tail)
    return judgeRecord probe version record.kind body : Except SocketError Probe) = _
  rw [record.length_body]
  by_cases hempty : record.body = []
  · rw [hempty]
    rfl
  · rw [if_pos (mt List.length_eq_zero_iff.mp hempty), reads_append_length]
    rfl

/-! ## Categories which count as disabled -/

theorem probeConfirmsDisabled_eq (probe : Probe) :
    probeConfirmsDisabled probe =
      match probe.category with
      | .accepted | .unexpected | .error => false
      | .downgraded _ | .refused | .closed | .timeout => true := by
  unfold probeConfirmsDisabled
  cases probe.category with
  | downgraded chosen =>
    have hstart : Text.startsWith (Category.text (.downgraded chosen)) "downgraded:" = true := by
      rw [Text.startsWith, Category.text, String.toList_append, List.isPrefixOf_iff_prefix]
      exact List.prefix_append _ _
    dsimp only
    rw [hstart, Bool.or_true]
  | _ => decide

/-- The first record of a stream lets the probe count the version as disabled, whatever follows: it is an
alert, or the server's hello with another version. -/
def Settles (record : Tls.Record) (version : ℕ) : Prop :=
  record.kind = Tls.alertKind ∨
    record.kind = Tls.handshakeKind ∧ 6 ≤ record.body.length ∧
      record.body[0]? = some Tls.serverHelloKind ∧ Tls.number ((record.body.drop 4).take 2) ≠ version

theorem confirms_judgeRecord_iff (probe : Probe) (version : ℕ) (record : Tls.Record) :
    probeConfirmsDisabled (judgeRecord probe version record.kind record.body) = true ↔
      Settles record version := by
  rw [probeConfirmsDisabled_eq]
  unfold judgeRecord Settles
  by_cases halert : record.kind = Tls.alertKind
  · rw [if_pos halert]
    exact ⟨fun _ ↦ Or.inl halert, fun _ ↦ rfl⟩
  · rw [if_neg halert]
    by_cases hhello : record.kind = Tls.handshakeKind ∧ 6 ≤ record.body.length ∧
        record.body[0]? = some Tls.serverHelloKind
    · rw [if_pos hhello]
      by_cases hchosen : Tls.number ((record.body.drop 4).take 2) = version
      · dsimp only
        rw [if_pos hchosen]
        exact ⟨nofun, fun h ↦ absurd hchosen (h.resolve_left halert).2.2.2⟩
      · dsimp only
        rw [if_neg hchosen]
        exact ⟨fun _ ↦ Or.inr ⟨hhello.1, hhello.2.1, hhello.2.2, hchosen⟩, fun _ ↦ rfl⟩
    · rw [if_neg hhello]
      refine ⟨nofun, fun h ↦ ?_⟩
      have ⟨hkind, hlong, hfirst, _⟩ := h.resolve_left halert
      exact absurd ⟨hkind, hlong, hfirst⟩ hhello

/-! ## What the probes promise -/

/-- The result of `probe_tls_version` is one of the stream, and counts as disabled only if the server
chooses the version nowhere in it before a fatal alert. -/
structure TlsJudged (host : String) (port version : ℕ) (replies : Replies) : Prop where
  segments : (probeTlsVersion host port version (.ok replies)).category =
    (probeTlsVersion host port version (.ok (.whole replies.stream replies.ending))).category
  disabled : probeConfirmsDisabled (probeTlsVersion host port version (.ok replies)) = true →
    ¬ Tls.ChoosesVersion replies.stream version

/-- The result of `probe_plain_http` is one of the stream, and counts as disabled only if that does not
start with the banner. -/
structure HttpJudged (host : String) (port : ℕ) (replies : Replies) : Prop where
  segments : (probePlainHttp host port (.ok replies)).category =
    (probePlainHttp host port (.ok (.whole replies.stream replies.ending))).category
  disabled : probeConfirmsDisabled (probePlainHttp host port (.ok replies)) = true →
    ¬ httpBanner <+: replies.stream

/-- After a first record which settles the probe the server chooses the version. -/
def ChoosesLate (version : ℕ) (stream : List UInt8) : Prop :=
  (∃ record tail, stream = Tls.Record.bytes record ++ tail ∧ Settles record version) ∧
    Tls.ChoosesVersion stream version

variable {host : String} {port version : ℕ} {replies : Replies}

theorem probeTlsVersion_eq : probeTlsVersion host port version (.ok replies) =
    match streamReply ⟨host, port, some (hexText 4 version), none, .error, ""⟩ version replies.stream
      replies.ending with
    | .ok probe => probe
    | .error error =>
      Probe.caught ⟨host, port, some (hexText 4 version), none, .error, ""⟩ error := by
  rw [← tlsReply_eq]
  rfl

theorem confirms_probeTlsVersion_iff {record : Tls.Record} {tail : List UInt8}
    (hstream : replies.stream = record.bytes ++ tail) :
    probeConfirmsDisabled (probeTlsVersion host port version (.ok replies)) = true ↔
      Settles record version := by
  rw [probeTlsVersion_eq, hstream, streamReply_record]
  exact confirms_judgeRecord_iff _ _ _

theorem tlsJudged_iff : TlsJudged host port version replies ↔ ¬ ChoosesLate version replies.stream := by
  constructor
  · intro h ⟨⟨record, tail, hstream, hsettles⟩, hchooses⟩
    exact h.disabled ((confirms_probeTlsVersion_iff hstream).mpr hsettles) hchooses
  · intro h
    refine ⟨?_, fun hconfirms hchooses ↦ ?_⟩
    · rw [probeTlsVersion_eq, probeTlsVersion_eq, Delivery.stream_whole, Delivery.ending_whole]
    · have ⟨message, hsays, _⟩ := hchooses
      have ⟨record, tail, hstream⟩ := hsays.exists_record
      have hsettles := (confirms_probeTlsVersion_iff hstream).mp hconfirms
      exact h ⟨⟨record, tail, hstream, hsettles⟩, hchooses⟩

/-! ## One read -/

theorem banner_take_iff (data : List UInt8) : httpBanner <+: data.take 64 ↔ httpBanner <+: data := by
  rw [List.prefix_take_iff]
  exact and_iff_left (by decide)

theorem probePlainHttp_category {segment : List UInt8} {rest : List (List UInt8)}
    (h : replies.segments = segment :: rest) :
    (probePlainHttp host port (.ok replies)).category =
      if httpBanner <+: segment then .accepted else .closed := by
  have ⟨more, hreceive⟩ := @Delivery.receive_segment _ _ replies segment rest 64 h
  unfold probePlainHttp
  rw [show (Except.ok replies : Connection).bind (·.receive 64) = .ok (segment.take 64, more) from hreceive]
  dsimp only
  by_cases hbanner : httpBanner <+: segment
  · have htaken := List.isPrefixOf_iff_prefix.mpr ((banner_take_iff segment).mpr hbanner)
    rw [htaken, if_pos rfl, if_pos hbanner]
  · have htaken := mt List.isPrefixOf_iff_prefix.mp (mt (banner_take_iff segment).mp hbanner)
    rw [if_neg htaken, if_neg hbanner]

/-- Where nothing is sent there is nothing to cut. -/
theorem httpJudged_nil (h : replies.segments = []) : HttpJudged host port replies := by
  match replies, h with
  | ⟨_, ending, _⟩, rfl => exact ⟨rfl, fun _ hbanner ↦ absurd (List.prefix_nil.mp hbanner) (by decide)⟩

/-- The first read must hold the banner of a stream which starts with it. -/
theorem httpJudged_iff : HttpJudged host port replies ↔
    (httpBanner <+: replies.stream → ∃ segment ∈ replies.segments.head?, 5 ≤ segment.length) := by
  match hsegments : replies.segments with
  | [] =>
    have hstream : replies.stream = [] := by rw [Delivery.stream, hsegments, List.flatten_nil]
    rw [hstream]
    exact ⟨fun _ hbanner ↦ absurd (List.prefix_nil.mp hbanner) (by decide),
      fun _ ↦ httpJudged_nil hsegments⟩
  | segment :: rest =>
    have hstream : replies.stream = segment ++ rest.flatten := by
      rw [Delivery.stream, hsegments, List.flatten_cons]
    have hfirst : segment <+: replies.stream := hstream ▸ List.prefix_append _ _
    have hnonempty : replies.stream ≠ [] := by
      rw [hstream]
      exact List.append_ne_nil_of_left_ne_nil (replies.nonempty segment (hsegments ▸ List.mem_cons_self)) _
    have hcut := @probePlainHttp_category host port replies segment rest hsegments
    have hwhole := @probePlainHttp_category host port (.whole replies.stream replies.ending) replies.stream
      [] (Delivery.segments_whole _ hnonempty)
    constructor
    · intro h hbanner
      have hsame := h.segments
      rw [hcut, hwhole, if_pos hbanner] at hsame
      have hheld : httpBanner <+: segment := by
        by_contra hnot
        rw [if_neg hnot] at hsame
        cases hsame
      exact ⟨segment, rfl, hheld.length_le⟩
    · intro h
      by_cases hbanner : httpBanner <+: replies.stream
      · have ⟨_, hhead, hlength⟩ := h hbanner
        cases hhead
        have hheld : httpBanner <+: segment := List.prefix_of_prefix_length_le hbanner hfirst hlength
        rw [if_pos hheld] at hcut
        rw [if_pos hbanner] at hwhole
        refine ⟨hcut.trans hwhole.symm, fun hconfirms ↦ ?_⟩
        rw [probeConfirmsDisabled_eq, hcut] at hconfirms
        cases hconfirms
      · have hheld : ¬ httpBanner <+: segment := fun hheld ↦ hbanner (hheld.trans hfirst)
        rw [if_neg hheld] at hcut
        rw [if_neg hbanner] at hwhole
        exact ⟨hcut.trans hwhole.symm, fun _ ↦ hbanner⟩

/-! ## The verdicts of the probes -/

/-- The probe of TLS judges every stream rightly in which the version is not chosen after a first record
which settles the probe; that of plain HTTP every stream whose banner is in the first read. -/
theorem probes_judged_iff (host : String) (port version : ℕ) (replies : Replies) :
    (TlsJudged host port version replies ↔ ¬ ChoosesLate version replies.stream) ∧
      (HttpJudged host port replies ↔
        (httpBanner <+: replies.stream → ∃ segment ∈ replies.segments.head?, 5 ≤ segment.length)) :=
  ⟨tlsJudged_iff, httpJudged_iff⟩

/-- The warning that the name of the server is unknown. -/
def nameWarning : Tls.Record := ⟨21, 3, 1, 0, 2, [1, 112], by decide⟩

/-- The hello of a server which chooses TLS 1.0. -/
def helloMessage : Tls.Message := ⟨2, 0, 0, 38, 3 :: 1 :: List.replicate 36 0, by decide⟩

def helloRecord : Tls.Record := ⟨22, 3, 1, 0, 42, helloMessage.bytes, by decide⟩

theorem chooses_after_warning : Tls.ChoosesVersion (nameWarning.bytes ++ helloRecord.bytes) 0x0301 := by
  have halive : Tls.Alive [nameWarning, helloRecord] := by
    unfold Tls.Alive
    decide
  have hsays : Tls.Says (nameWarning.bytes ++ helloRecord.bytes) helloMessage :=
    ⟨[nameWarning, helloRecord], [], rfl, halive, [helloMessage], [], rfl, List.mem_singleton_self _⟩
  exact ⟨helloMessage, hsays, rfl, by decide, by decide⟩

/-- A server which warns and then chooses TLS 1.0 counts as refusing it, and one whose banner comes in two
reads as not speaking HTTP. -/
theorem warned_and_split_misjudged :
    ¬ TlsJudged "example.com" 443 0x0301 (.whole (nameWarning.bytes ++ helloRecord.bytes) .close) ∧
      ¬ HttpJudged "example.com" 80
        (.cons [72] (.whole [84, 84, 80, 47, 49, 46, 48] .close) (List.cons_ne_nil 72 [])) := by
  constructor
  · rw [tlsJudged_iff, Delivery.stream_whole, not_not]
    exact ⟨⟨nameWarning, helloRecord.bytes, rfl, Or.inl rfl⟩, chooses_after_warning⟩
  · rw [httpJudged_iff]
    intro h
    have ⟨segment, hhead, hlength⟩ := h (by
      rw [Delivery.stream_cons, Delivery.stream_whole]
      decide)
    cases hhead
    exact absurd hlength (by decide)

/-! ## The tests of all endpoints -/

end IsvValidation.Security.InsecureProtocols
