import Mathlib.Data.List.Basic
import Mathlib.Logic.Function.Basic
import IsvValidation.Library.Program

/-!
# Conditional updates of versioned objects

A server keeps objects under names, and each write gives an object a version which no object of that
name has had before. Clients are programs which read objects and send patches. A patch travels on
its own: once sent it is applied at most once, at any later time, whether or not its client still
waits, and a client may give up waiting at any time. An answer is on its way between the server,
which gives it from what is stored then, and the client. Everybody else writes as they like.

The state keeps the log of all writes, the latest first. A version is written once, so whoever tests
the version of an object tests the whole object. What a single run does is followed with a monitor
whose state is linked to the log and the messages sent.
-/

namespace IsvValidation.Library.VersionedStore

/-! ## Requests -/

section Requests

variable {Name Tag Patch Command : Type}

/-- What a client asks for; the tag of a patch says what it is sent for. -/
inductive Request (Name Tag Patch Command : Type) where
  | list
  | get (name : Name)
  | patch (tag : Tag) (name : Name) (patch : Patch)
  | command (command : Command)

/-- What it may get back. -/
def Reply (Object Failure : Type) (Answer : Command → Type) : Request Name Tag Patch Command → Type
  | .list => Except Failure (List (Name × Object))
  | .get _ => Except Failure Object
  | .patch _ _ _ => Except Failure Unit
  | .command command => Answer command

end Requests

/-! ## The log -/

/-- One write: by a patch of a client or by anybody else; no object is left after a deletion. -/
structure Entry (ι Name Object Tag : Type) where
  author : Option (ι × Tag)
  name : Name
  object : Option Object

/-- How versions and patches work. -/
structure Server (Object Patch Version : Type) where
  version : Object → Version
  withVersion : Version → Object → Object
  version_withVersion : ∀ object new, version (withVersion new object) = new
  apply : Patch → Object → Option Object

section Log

variable {ι Name Object Tag Patch Version : Type} {log : List (Entry ι Name Object Tag)}
  {entry : Entry ι Name Object Tag} {name : Name} {object : Object}

/-- An object was stored under a name at some time. -/
def Recorded (log : List (Entry ι Name Object Tag)) (name : Name) (object : Object) : Prop :=
  ∃ entry ∈ log, entry.name = name ∧ entry.object = some object

theorem Recorded.cons (h : Recorded log name object) : Recorded (entry :: log) name object := by
  obtain ⟨old, hold, hentry⟩ := h
  exact ⟨old, List.mem_cons_of_mem _ hold, hentry⟩

theorem recorded_cons : Recorded (entry :: log) name object ↔
    (entry.name = name ∧ entry.object = some object) ∨ Recorded log name object :=
  List.exists_mem_cons_iff ..

variable (server : Server Object Patch Version)

/-- No object of the name has had the version. -/
def Fresh (log : List (Entry ι Name Object Tag)) (name : Name) (version : Version) : Prop :=
  ∀ old, Recorded log name old → server.version old ≠ version

/-- Objects of one name which have the same version are the same. -/
def Versioned (log : List (Entry ι Name Object Tag)) : Prop :=
  ∀ name first second, Recorded log name first → Recorded log name second →
    server.version first = server.version second → first = second

variable {server}

theorem Versioned.cons (h : Versioned server log)
    (hfresh : ∀ new, entry.object = some new → Fresh server log entry.name (server.version new)) :
    Versioned server (entry :: log) := by
  intro name first second hfirst hsecond hversion
  rcases recorded_cons.mp hfirst with ⟨rfl, hnew⟩ | hold
  · rcases recorded_cons.mp hsecond with ⟨_, hsame⟩ | hother
    · exact Option.some.inj (hnew.symm.trans hsame)
    · exact absurd hversion.symm (hfresh first hnew second hother)
  · rcases recorded_cons.mp hsecond with ⟨rfl, hnew⟩ | hother
    · exact absurd hversion (hfresh second hnew first hold)
    · exact h name first second hold hother hversion

/-- Every entry is as it should be after the writes before it. -/
def Throughout (P : Entry ι Name Object Tag → List (Entry ι Name Object Tag) → Prop)
    (log : List (Entry ι Name Object Tag)) : Prop :=
  ∀ later entry earlier, log = later ++ entry :: earlier → P entry earlier

theorem throughout_cons {P : Entry ι Name Object Tag → List (Entry ι Name Object Tag) → Prop} :
    Throughout P (entry :: log) ↔ P entry log ∧ Throughout P log := by
  constructor
  · intro h
    refine ⟨h [] entry log rfl, fun later old earlier hlog ↦ h (entry :: later) old earlier ?_⟩
    rw [hlog, List.cons_append]
  · intro ⟨hentry, hlog⟩ later old earlier hsplit
    rcases List.cons_eq_append_iff.mp hsplit with ⟨rfl, hnew⟩ | ⟨rest, rfl, hold⟩
    · cases hnew
      exact hentry
    · exact hlog rest old earlier hold

variable [DecidableEq Name]

/-- The object stored under a name after the writes of a log. -/
def current : List (Entry ι Name Object Tag) → Name → Option Object
  | [], _ => none
  | entry :: earlier, name => if entry.name = name then entry.object else current earlier name

theorem current_cons_of_ne (h : entry.name ≠ name) :
    current (entry :: log) name = current log name := if_neg h

theorem recorded_of_current (h : current log name = some object) : Recorded log name object := by
  induction log with
  | nil => cases h
  | cons entry earlier ih =>
    rw [current] at h
    split at h
    · rename_i hname
      exact ⟨entry, List.mem_cons_self, hname, h⟩
    · exact (ih h).cons

end Log

/-! ## The system -/

section System

/-- What has become of a patch. -/
inductive Fate where
  | inFlight
  | committed
  | lost
  deriving DecidableEq

/-- A patch on its way to the server. -/
structure Message (ι Name Tag Patch : Type) where
  sender : ι
  tag : Tag
  name : Name
  patch : Patch
  fate : Fate

/-- What happens: somebody else writes, a patch is applied or lost, a client moves. -/
inductive Event (ι Name : Type) where
  | write (name : Name)
  | commit (message : ℕ)
  | lose (message : ℕ)
  | client (run : ι)

/-- A client is at some point of its program, or waits to hear of a patch it has sent, or is about to
hear an answer which the server has given. -/
inductive Activity (Name Object Tag Patch Failure : Type) {Command : Type}
    (Answer : Command → Type) (ε α : Type) where
  | active (program : Program (Request Name Tag Patch Command) (Reply Object Failure Answer) ε α)
  | waiting (message : ℕ) (tag : Tag) (name : Name) (patch : Patch)
      (next : Except Failure Unit →
        Program (Request Name Tag Patch Command) (Reply Object Failure Answer) ε α)
  | answered (request : Request Name Tag Patch Command) (reply : Reply Object Failure Answer request)
      (next : Reply Object Failure Answer request →
        Program (Request Name Tag Patch Command) (Reply Object Failure Answer) ε α)

structure State (ι Name Object Tag Patch Failure : Type) {Command : Type}
    (Answer : Command → Type) (ε α : Type) where
  log : List (Entry ι Name Object Tag)
  messages : List (Message ι Name Tag Patch)
  runs : ι → Activity Name Object Tag Patch Failure Answer ε α

variable {ι Name Object Tag Patch Version Command Failure ε α : Type} {Answer : Command → Type}
  [DecidableEq ι] [DecidableEq Name]

/-- The replies the server may give to a request other than a patch: it may always fail. -/
def Answers (log : List (Entry ι Name Object Tag)) :
    (request : Request Name Tag Patch Command) → Reply Object Failure Answer request → Prop
  | .list, .ok items => ∀ name object, (name, object) ∈ items ↔ current log name = some object
  | .list, .error _ => True
  | .get name, .ok object => current log name = some object
  | .get _, .error _ => True
  | .patch _ _ _, _ => False
  | .command _, _ => True

/-- One step of the whole system. -/
inductive Step (server : Server Object Patch Version) :
    State ι Name Object Tag Patch Failure Answer ε α → Event ι Name →
      State ι Name Object Tag Patch Failure Answer ε α → Prop
  | write {state} {name : Name} {object : Option Object}
      (fresh : ∀ new, object = some new → Fresh server state.log name (server.version new)) :
      Step server state (.write name) { state with log := ⟨none, name, object⟩ :: state.log }
  | commit {state} {index : ℕ} {message : Message ι Name Tag Patch} {before after : Object}
      {version : Version} (message_at : state.messages[index]? = some message)
      (inFlight : message.fate = .inFlight)
      (stored : current state.log message.name = some before)
      (applied : server.apply message.patch before = some after)
      (fresh : Fresh server state.log message.name version) :
      Step server state (.commit index)
        { state with
          log := ⟨some (message.sender, message.tag), message.name,
            some (server.withVersion version after)⟩ :: state.log
          messages := state.messages.set index { message with fate := .committed } }
  | lose {state} {index : ℕ} {message : Message ι Name Tag Patch}
      (message_at : state.messages[index]? = some message)
      (inFlight : message.fate = .inFlight) :
      Step server state (.lose index)
        { state with messages := state.messages.set index { message with fate := .lost } }
  | send {state} {r : ι} {tag : Tag} {name : Name} {patch : Patch} {next}
      (at_patch : state.runs r = .active (.call (.patch tag name patch) next)) :
      Step server state (.client r)
        { state with
          messages := state.messages ++ [⟨r, tag, name, patch, .inFlight⟩]
          runs := Function.update state.runs r
            (.waiting state.messages.length tag name patch next) }
  | hear {state} {r : ι} {index : ℕ} {tag : Tag} {name : Name} {patch : Patch} {next}
      (waits : state.runs r = .waiting index tag name patch next)
      (reply : Except Failure Unit)
      (committed : reply = .ok () →
        state.messages[index]? = some ⟨r, tag, name, patch, .committed⟩) :
      Step server state (.client r)
        { state with runs := Function.update state.runs r (.active (next reply)) }
  | serve {state} {r : ι} {request : Request Name Tag Patch Command} {next}
      (at_call : state.runs r = .active (.call request next))
      {reply : Reply Object Failure Answer request} (answers : Answers state.log request reply) :
      Step server state (.client r)
        { state with runs := Function.update state.runs r (.answered request reply next) }
  | receive {state} {r : ι} {request : Request Name Tag Patch Command}
      {reply : Reply Object Failure Answer request} {next}
      (waits : state.runs r = .answered request reply next) :
      Step server state (.client r)
        { state with runs := Function.update state.runs r (.active (next reply)) }

/-- Some steps in a row, all of which meet a condition. -/
inductive Reaches (server : Server Object Patch Version)
    (condition : State ι Name Object Tag Patch Failure Answer ε α → Event ι Name →
      State ι Name Object Tag Patch Failure Answer ε α → Prop)
    (initial : State ι Name Object Tag Patch Failure Answer ε α) :
    State ι Name Object Tag Patch Failure Answer ε α → Prop
  | refl : Reaches server condition initial initial
  | tail {state event after} (h : Reaches server condition initial state)
      (step : Step server state event after) (meets : condition state event after) :
      Reaches server condition initial after

variable {server : Server Object Patch Version} {event : Event ι Name}
  {state after : State ι Name Object Tag Patch Failure Answer ε α}

/-- A write gives the object a version of its own. -/
theorem Step.versioned (step : Step server state event after) (h : Versioned server state.log) :
    Versioned server after.log := by
  cases step with
  | write fresh => exact h.cons fresh
  | commit message_at inFlight stored applied fresh =>
    apply h.cons
    intro new hnew
    cases hnew
    rw [server.version_withVersion]
    exact fresh
  | lose => exact h
  | send => exact h
  | hear => exact h
  | serve => exact h
  | receive => exact h

/-- The log only grows, by at most one entry. -/
theorem Step.log_eq (step : Step server state event after) :
    after.log = state.log ∨ ∃ entry, after.log = entry :: state.log := by
  cases step with
  | write => exact Or.inr ⟨_, rfl⟩
  | commit => exact Or.inr ⟨_, rfl⟩
  | lose => exact Or.inl rfl
  | send => exact Or.inl rfl
  | hear => exact Or.inl rfl
  | serve => exact Or.inl rfl
  | receive => exact Or.inl rfl

theorem Step.recorded {name : Name} {object : Object} (step : Step server state event after)
    (h : Recorded state.log name object) : Recorded after.log name object := by
  rcases step.log_eq with hlog | ⟨entry, hlog⟩
  · rwa [hlog]
  · rw [hlog]
    exact h.cons

/-- The steps of the others only change the fate of a client's messages. -/
theorem Step.getElem?_messages {message : Message ι Name Tag Patch} {at_index : ℕ}
    (step : Step server state event after) (h : event ≠ .client message.sender)
    (hmessage : after.messages[at_index]? = some message) :
    ∃ fate, state.messages[at_index]? = some { message with fate } := by
  have hset : ∀ {index : ℕ} {old : Message ι Name Tag Patch} {fate : Fate},
      state.messages[index]? = some old →
        (state.messages.set index { old with fate })[at_index]? = some message →
          ∃ fate, state.messages[at_index]? = some { message with fate } := by
    intro index old fate hold hset
    rw [List.getElem?_set] at hset
    split at hset
    · rename_i hindex
      split at hset
      · cases hset
        exact ⟨old.fate, hindex ▸ hold⟩
      · cases hset
    · exact ⟨message.fate, hset⟩
  cases step with
  | write => exact ⟨message.fate, hmessage⟩
  | commit message_at => exact hset message_at hmessage
  | lose message_at => exact hset message_at hmessage
  | send at_patch =>
    rw [List.getElem?_append] at hmessage
    split at hmessage
    · exact ⟨message.fate, hmessage⟩
    · rw [List.mem_singleton.mp (List.mem_of_getElem? hmessage)] at h
      exact absurd rfl h
  | hear => exact ⟨message.fate, hmessage⟩
  | serve => exact ⟨message.fate, hmessage⟩
  | receive => exact ⟨message.fate, hmessage⟩

theorem Step.mem_messages {message : Message ι Name Tag Patch}
    (step : Step server state event after) (h : event ≠ .client message.sender)
    (hmem : message ∈ after.messages) : ∃ fate, { message with fate } ∈ state.messages := by
  obtain ⟨index, hindex⟩ := List.mem_iff_getElem?.mp hmem
  obtain ⟨fate, hold⟩ := step.getElem?_messages h hindex
  exact ⟨fate, List.mem_of_getElem? hold⟩

/-- What is committed stays committed. -/
theorem Step.committed_mem {message : Message ι Name Tag Patch}
    (step : Step server state event after) (hmem : message ∈ state.messages)
    (hfate : message.fate = .committed) : message ∈ after.messages := by
  have hset : ∀ {index : ℕ} {old : Message ι Name Tag Patch} {fate : Fate},
      state.messages[index]? = some old → old.fate = .inFlight →
        message ∈ state.messages.set index { old with fate } := by
    intro index old fate hold hflight
    obtain ⟨at_index, hat⟩ := List.mem_iff_getElem?.mp hmem
    apply List.mem_of_getElem? (i := at_index)
    rw [List.getElem?_set_ne, hat]
    rintro rfl
    rw [hold, Option.some.injEq] at hat
    rw [hat, hfate] at hflight
    cases hflight
  cases step with
  | write => exact hmem
  | commit message_at inFlight => exact hset message_at inFlight
  | lose message_at inFlight => exact hset message_at inFlight
  | send => exact List.mem_append_left _ hmem
  | hear => exact hmem
  | serve => exact hmem
  | receive => exact hmem

/-- A patch becomes committed only by being applied. -/
theorem Step.committed_cases {message : Message ι Name Tag Patch}
    (step : Step server state event after) (hmem : message ∈ after.messages)
    (hfate : message.fate = .committed) : message ∈ state.messages ∨
      ∃ index old, event = .commit index ∧ state.messages[index]? = some old ∧
        message = { old with fate := .committed } := by
  cases step with
  | write => exact Or.inl hmem
  | commit message_at =>
    rcases List.mem_or_eq_of_mem_set hmem with hold | hnew
    · exact Or.inl hold
    · exact Or.inr ⟨_, _, rfl, message_at, hnew⟩
  | lose message_at =>
    rcases List.mem_or_eq_of_mem_set hmem with hold | rfl
    · exact Or.inl hold
    · cases hfate
  | send =>
    rcases List.mem_append.mp hmem with hold | hnew
    · exact Or.inl hold
    · rw [List.mem_singleton.mp hnew] at hfate
      cases hfate
  | hear => exact Or.inl hmem
  | serve => exact Or.inl hmem
  | receive => exact Or.inl hmem

theorem Step.of_commit {index : ℕ} {message : Message ι Name Tag Patch}
    (step : Step server state (.commit index) after)
    (h : state.messages[index]? = some message) : message.fate = .inFlight ∧
      { message with fate := .committed } ∈ after.messages := by
  cases step with
  | commit message_at inFlight =>
    rw [h, Option.some.injEq] at message_at
    subst message_at
    have hlength := (List.getElem?_eq_some_iff.mp h).1
    exact ⟨inFlight, List.mem_set hlength _⟩

/-- A client moves in its own steps only. -/
theorem Step.runs_eq {run : ι} (step : Step server state event after) (h : event ≠ .client run) :
    after.runs run = state.runs run := by
  have hne : ∀ {other : ι}, (.client other : Event ι Name) ≠ .client run → run ≠ other := by
    intro other hother heq
    exact hother (congrArg Event.client heq.symm)
  cases step with
  | write => rfl
  | commit => rfl
  | lose => rfl
  | send => exact Function.update_of_ne (hne h) ..
  | hear => exact Function.update_of_ne (hne h) ..
  | serve => exact Function.update_of_ne (hne h) ..
  | receive => exact Function.update_of_ne (hne h) ..

section Reaches

variable {condition : State ι Name Object Tag Patch Failure Answer ε α → Event ι Name →
    State ι Name Object Tag Patch Failure Answer ε α → Prop}

/-- What every step preserves holds after some steps in a row. -/
theorem Reaches.invariant {I : State ι Name Object Tag Patch Failure Answer ε α → Prop}
    (h : Reaches server condition state after) (initial : I state)
    (preserves : ∀ {state event after}, I state → Step server state event after →
      condition state event after → I after) : I after := by
  induction h with
  | refl => exact initial
  | tail _ step meets ih => exact preserves ih step meets

theorem Reaches.mono {weaker : State ι Name Object Tag Patch Failure Answer ε α → Event ι Name →
    State ι Name Object Tag Patch Failure Answer ε α → Prop}
    (h : Reaches server condition state after)
    (imp : ∀ {state event after}, condition state event after → weaker state event after) :
    Reaches server weaker state after := by
  induction h with
  | refl => exact .refl
  | tail _ step meets ih => exact ih.tail step (imp meets)

/-- What is known of every state reached may be used as a condition of the steps from there. -/
theorem Reaches.along {I : State ι Name Object Tag Patch Failure Answer ε α → Prop}
    (h : Reaches server condition state after)
    (reached : ∀ {after}, Reaches server condition state after → I after) :
    Reaches server (fun state event after ↦ condition state event after ∧ I state) state after := by
  induction h with
  | refl => exact .refl
  | tail before step meets ih => exact ih.tail step ⟨meets, reached before⟩

theorem Reaches.versioned (h : Reaches server condition state after)
    (initial : Versioned server state.log) : Versioned server after.log :=
  h.invariant (I := fun state ↦ Versioned server state.log) initial
    fun versioned step _ ↦ step.versioned versioned

/-! ## Following one run -/

variable {σ : Type}
  (monitor : Monitor (Request Name Tag Patch Command) (Reply Object Failure Answer) σ)
  (returns : σ → α → Prop) (raises : σ → ε → Prop)
  (link : σ → List (Entry ι Name Object Tag) → List (Message ι Name Tag Patch) → Prop) (run : ι)

/-- A run obeys its monitor from here on, and the monitor's state is linked to what has happened; it
has moved by an answer once the server has given it. -/
inductive Tracked (state : State ι Name Object Tag Patch Failure Answer ε α) : Prop
  | active {seen : σ} {program}
      (stands : state.runs run = .active program)
      (obeys : program.Obeys monitor returns raises seen)
      (linked : link seen state.log state.messages)
  | waiting {seen : σ} {index : ℕ} {tag : Tag} {name : Name} {patch : Patch} {next}
      (stands : state.runs run = .waiting index tag name patch next)
      (obeys : ∀ reply, (next reply).Obeys monitor returns raises
        (monitor.heard seen (.patch tag name patch) reply))
      (linked : link seen state.log state.messages)
  | answered {seen : σ} {request : Request Name Tag Patch Command}
      {reply : Reply Object Failure Answer request} {next}
      (stands : state.runs run = .answered request reply next)
      (obeys : (next reply).Obeys monitor returns raises seen)
      (linked : link seen state.log state.messages)

/-- The link moves with the calls and replies of the run, and the steps of the others which meet a
condition do not break it. -/
structure Links (server : Server Object Patch Version)
    (condition : State ι Name Object Tag Patch Failure Answer ε α → Event ι Name →
      State ι Name Object Tag Patch Failure Answer ε α → Prop) : Prop where
  others : ∀ {seen state event after}, link seen state.log state.messages →
    Step server state event after → condition state event after → event ≠ .client run →
      link seen after.log after.messages
  sent : ∀ {seen log messages tag name patch}, link seen log messages →
    monitor.allowed seen (.patch tag name patch) →
      link (monitor.sent seen (.patch tag name patch)) log
        (messages ++ [⟨run, tag, name, patch, .inFlight⟩])
  heard : ∀ {seen log messages tag name patch} {reply : Except Failure Unit},
    link seen log messages →
      (reply = .ok () → ⟨run, tag, name, patch, .committed⟩ ∈ messages) →
        link (monitor.heard seen (.patch tag name patch) reply) log messages
  answered : ∀ {seen log messages request} {reply : Reply Object Failure Answer request},
    link seen log messages → Answers log request reply →
      link (monitor.heard (monitor.sent seen request) request reply) log messages

variable {monitor returns raises link run}

/-- Each step keeps track of the run. -/
theorem Tracked.step (links : Links monitor link run server condition)
    (h : Tracked monitor returns raises link run state) (step : Step server state event after)
    (meets : condition state event after) : Tracked monitor returns raises link run after := by
  by_cases hrun : event = .client run
  · cases step with
    | write => cases hrun
    | commit => cases hrun
    | lose => cases hrun
    | send at_patch =>
      cases hrun
      cases h with
      | active stands obeys linked =>
        rw [at_patch, Activity.active.injEq] at stands
        subst stands
        exact .waiting (Function.update_self ..) obeys.2 (links.sent linked obeys.1)
      | waiting stands => cases at_patch.symm.trans stands
      | answered stands => cases at_patch.symm.trans stands
    | hear waits reply committed =>
      cases hrun
      cases h with
      | active stands => cases waits.symm.trans stands
      | waiting stands obeys linked =>
        cases waits.symm.trans stands
        refine .active (Function.update_self ..) (obeys reply) (links.heard linked ?_)
        exact fun hreply ↦ List.mem_of_getElem? (committed hreply)
      | answered stands => cases waits.symm.trans stands
    | serve at_call answers =>
      cases hrun
      cases h with
      | active stands obeys linked =>
        rw [at_call, Activity.active.injEq] at stands
        subst stands
        exact .answered (Function.update_self ..) (obeys.2 _) (links.answered linked answers)
      | waiting stands => cases at_call.symm.trans stands
      | answered stands => cases at_call.symm.trans stands
    | receive waits =>
      cases hrun
      cases h with
      | active stands => cases waits.symm.trans stands
      | waiting stands => cases waits.symm.trans stands
      | answered stands obeys linked =>
        cases waits.symm.trans stands
        exact .active (Function.update_self ..) obeys linked
  · have hstands := step.runs_eq hrun
    cases h with
    | active stands obeys linked =>
      exact .active (hstands.trans stands) obeys (links.others linked step meets hrun)
    | waiting stands obeys linked =>
      exact .waiting (hstands.trans stands) obeys (links.others linked step meets hrun)
    | answered stands obeys linked =>
      exact .answered (hstands.trans stands) obeys (links.others linked step meets hrun)

theorem Tracked.reaches (links : Links monitor link run server condition)
    (h : Tracked monitor returns raises link run state)
    (reaches : Reaches server condition state after) :
    Tracked monitor returns raises link run after :=
  reaches.invariant h fun tracked step meets ↦ tracked.step links step meets

end Reaches

end System

end IsvValidation.Library.VersionedStore
