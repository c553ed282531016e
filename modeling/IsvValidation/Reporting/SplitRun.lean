import IsvValidation.Reporting.Lifecycle

/-!
# Runs in two commands

`report create` makes a run and leaves its identity in a file, and `report update` closes it once the tests have been
run elsewhere. The update is the command which is to close a run in any case, so a refused upload of the results ends
it only after the run is closed.
-/

namespace IsvValidation.Reporting

open Config Host Library Library.Program

universe w

variable {World : Type w} {step : World → (call : Call) → Reply call → World → Prop} {world last : World}
  {trace : List (Exchange World Reply)} {machine : Machine} {environment : Environment} {options : UpdateOptions}
  {runs : World → Json → Option RunStatus}

/-! ## `report create` -/

/-- `create`. -/
def reportCreate (machine : Machine) (environment : Environment) (labId : ℤ) (args : CreateArgs) : Run Unit :=
  if !canUpload environment then .raise (.exit 1)
  else do
    let token ← getJwtToken machine environment
    let _ ← clientCreate environment labId token args

/-! ## Steps of the update -/

/-- Without this call the update does not close a run: it has no identity, no duration, no token, or no answer. -/
def Blocks (exchange : Exchange World Reply) : Prop :=
  exchange.reply = .error .interrupt ∨
    match exchange with
    | ⟨_, .loadRunId, reply, _⟩ => ∀ text, reply ≠ .ok (some text)
    | ⟨_, .token _ _ _, reply, _⟩ => ∀ token, tokenOf reply ≠ .ok token
    | ⟨_, .duration _, reply, _⟩ => ∃ failure, reply = .error failure
    | ⟨_, .updateRun _ _ _ _ _, reply, _⟩ => ∃ failure, reply = .error failure
    | ⟨_, .now, reply, _⟩ => ∃ failure, reply = .error failure
    | _ => False

/-- The results were refused, or have not reached the service. -/
def Refuses (exchange : Exchange World Reply) : Prop :=
  match exchange with
  | ⟨_, .results _ _ _ _ _, .error (.http _), _⟩ => True
  | ⟨_, .results _ _ _ _ _, .error .url, _⟩ => True
  | _ => False

/-- The calls which send nothing about a run, and save nothing. -/
def Call.Plain : Call → Prop
  | .createRun _ _ _ _ | .updateRun _ _ _ _ _ | .results _ _ _ _ _ | .saveRunId _ => False
  | _ => True

theorem Call.Plain.not_writes {call : Call} (h : call.Plain) : ¬ call.Writes := by
  cases call with
  | createRun | updateRun => exact h.elim
  | _ => exact id

theorem not_refuses_of_calls {ε α : Type} {program : Program Call Reply ε α} {outcome : Except ε α}
    (hcalls : program.Calls fun call ↦ ∀ endpoint labId runId token junit, call ≠ .results endpoint labId runId token junit)
    (h : Execution step world program trace last outcome) : ¬ ∃ exchange ∈ trace, Refuses exchange := by
  rintro ⟨⟨before, call, reply, after⟩, hmem, hrefuses⟩
  have hother := hcalls.mem_trace h _ hmem
  cases call with
  | results endpoint labId runId token junit => exact hother _ _ _ _ _ rfl
  | _ => exact hrefuses.elim

theorem Call.Plain.ne_results {call : Call} (h : call.Plain) (endpoint : String) (labId : ℤ) (runId : Json)
    (token junit : String) : call ≠ .results endpoint labId runId token junit := by
  rintro rfl
  exact h

/-- What comes of the update of one run: it is closed, and only the results decide on the exit code; or a call blocks
it, and it ends with an error. -/
def Settled (runs : World → Json → Option RunStatus) (status runId : String) (before after : World)
    (blocked refused : Prop) (outcome : Except Raised Unit) : Prop :=
  ((∃ raised, outcome = .error raised) ∧ blocked ∧
    Closes runs before (.str runId) (some (.str status)) after) ∨
  (Sets runs before (.str runId) (.closed (some (.str status))) after ∧
    (refused → outcome = .error (.exit 1)) ∧ (¬ refused → outcome = .ok ()))

theorem Settled.congr {status runId : String} {before before' after : World} {blocked blocked' refused refused' : Prop}
    {outcome : Except Raised Unit} (h : Settled runs status runId before after blocked refused outcome)
    (hsame : runs before = runs before') (hblocked : blocked → blocked') (hrefused : refused ↔ refused') :
    Settled runs status runId before' after blocked' refused' outcome := by
  obtain ⟨herror, hblocks, hquiet | hsets⟩ | ⟨hsets, hfail, hok⟩ := h
  · exact .inl ⟨herror, hblocked hblocks, .inl (hquiet.trans hsame)⟩
  · exact .inl ⟨herror, hblocked hblocks, .inr (hsets.congr hsame rfl)⟩
  · exact .inr ⟨hsets.congr hsame rfl, fun h ↦ hfail (hrefused.mpr h), fun h ↦ hok fun h' ↦ h (hrefused.mp h')⟩

/-- The credentials cannot be sent, or a call blocks. -/
def Blocked (machine : Machine) (environment : Environment) (trace : List (Exchange World Reply)) : Prop :=
  isSecureUrl machine environment.ssaIssuer = false ∨ ∃ exchange ∈ trace, Blocks exchange

theorem Blocked.append_right {rest : List (Exchange World Reply)} (h : Blocked machine environment rest)
    (first : List (Exchange World Reply)) : Blocked machine environment (first ++ rest) := by
  obtain hinsecure | ⟨exchange, hmem, hblocks⟩ := h
  · exact .inl hinsecure
  · exact .inr ⟨exchange, List.mem_append_right _ hmem, hblocks⟩

/-- What happens before the results are sent, or after: nothing is sent about a run, and an error comes from a call
which blocks. -/
def Prepares {α : Type} (machine : Machine) (environment : Environment)
    (step : World → (call : Call) → Reply call → World → Prop) (program : Run α) : Prop :=
  (program.Calls Call.Plain) ∧ ∀ world trace last raised,
    Execution step world program trace last (.error raised) → Blocked machine environment trace

namespace Prepares

theorem done {α : Type} (result : α) : Prepares machine environment step (.done result : Run α) := by
  refine ⟨.done _, fun world trace last raised h ↦ ?_⟩
  obtain ⟨-, -, herror⟩ := Execution.done_iff.mp h
  cases herror

theorem bind {α β : Type} {program : Run α} {f : α → Run β} (h : Prepares machine environment step program)
    (hf : ∀ result, Prepares machine environment step (f result)) :
    Prepares machine environment step (program.bind f) := by
  refine ⟨.bind h.1 fun result ↦ (hf result).1, fun world trace last raised hexecution ↦ ?_⟩
  obtain ⟨error, herror, hfirst⟩ | ⟨first, result, middle, second, rfl, -, hsecond⟩ := Execution.bind_iff.mp hexecution
  · exact h.2 _ _ _ _ hfirst
  · exact ((hf result).2 _ _ _ _ hsecond).append_right first

theorem ask {call : Call} (hplain : call.Plain)
    (hblocks : ∀ before failure after, Blocks (⟨before, call, .error failure, after⟩ : Exchange World Reply)) :
    Prepares machine environment step (ask call) := by
  refine ⟨ask_calls hplain, fun world trace last raised h ↦ ?_⟩
  obtain ⟨reply, rfl, -, hreply⟩ := ask_iff.mp h
  cases reply with
  | ok answer => cases hreply
  | error failure => exact .inr ⟨_, List.mem_singleton_self _, hblocks _ _ _⟩

theorem orWarn {α β : Type} {program : Run α} {fallback : β} {result : α → β} (hcalls : program.Calls Call.Plain)
    (h : Interrupts step program) : Prepares machine environment step (orWarn fallback result program) := by
  refine ⟨orWarn_calls hcalls, fun world trace last raised hexecution ↦ ?_⟩
  obtain ⟨exchange, hmem, hreply⟩ := interrupt_of_orWarn h hexecution
  exact .inr ⟨exchange, hmem, .inl hreply⟩

theorem quiet {α : Type} {program : Run α} {outcome : Except Raised α}
    (h : Prepares machine environment step program) (hserves : Serves step runs)
    (hexecution : Execution step world program trace last outcome) : runs last = runs world :=
  hserves.quiet (h.1.mono fun _ ↦ Call.Plain.not_writes) hexecution

theorem not_refuses {α : Type} {program : Run α} {outcome : Except Raised α}
    (h : Prepares machine environment step program)
    (hexecution : Execution step world program trace last outcome) : ¬ ∃ exchange ∈ trace, Refuses exchange :=
  not_refuses_of_calls (h.1.mono fun _ ↦ Call.Plain.ne_results) hexecution

/-- What is settled after a preparation is settled with it. -/
theorem settles {α : Type} {program : Run α} {f : α → Run Unit} {status runId : String} {failed : Prop}
    {outcome : Except Raised Unit} (h : Prepares machine environment step program) (hserves : Serves step runs)
    (hexecution : Execution step world (program.bind f) trace last outcome)
    (hf : ∀ middle result rest, Execution step middle (f result) rest last outcome →
      Settled runs status runId middle last (Blocked machine environment rest)
        (failed ∨ ∃ exchange ∈ rest, Refuses exchange) outcome) :
    Settled runs status runId world last (Blocked machine environment trace)
      (failed ∨ ∃ exchange ∈ trace, Refuses exchange) outcome := by
  obtain ⟨error, rfl, hfirst⟩ | ⟨first, result, middle, rest, rfl, hfirst, hrest⟩ := Execution.bind_iff.mp hexecution
  · exact .inl ⟨⟨error, rfl⟩, h.2 _ _ _ _ hfirst, .inl (h.quiet hserves hfirst)⟩
  · refine (hf middle result rest hrest).congr (h.quiet hserves hfirst) (fun hblocked ↦ hblocked.append_right first)
      (or_congr_right ?_)
    simp only [List.mem_append, or_and_right, exists_or, or_iff_right (h.not_refuses hfirst)]

end Prepares

/-- The identity which is updated: the option, or what the file says. -/
def Names (machine : Machine) (options : UpdateOptions) (trace : List (Exchange World Reply)) (runId : String) : Prop :=
  (options.runId ≠ "" ∧ runId = options.runId) ∨
    (options.runId = "" ∧ ∃ before text after,
      (⟨before, .loadRunId, .ok (some text), after⟩ : Exchange World Reply) ∈ trace ∧ runId = machine.strip text)

theorem Names.append_right {runId : String} {first : List (Exchange World Reply)}
    (h : Names machine options first runId) (rest : List (Exchange World Reply)) :
    Names machine options (first ++ rest) runId :=
  h.imp_right fun ⟨hoption, before, text, after, hmem, hrunId⟩ ↦
    ⟨hoption, before, text, after, List.mem_append_left _ hmem, hrunId⟩

/-- What the file of the identity does, and that the identities of the service are texts which it gives back. A file
which could not be written may be gone, or say what it said before. -/
structure Files (machine : Machine) (step : World → (call : Call) → Reply call → World → Prop)
    (saved : World → Option String) (text : Json → String) : Prop where
  written : ∀ {before after runId}, step before (.saveRunId runId) (.ok ()) after → saved after = some (text runId)
  loaded : ∀ {before after found}, step before .loadRunId (.ok found) after → found = saved before
  kept : ∀ {before after call reply}, (∀ runId, call ≠ .saveRunId runId) → step before call reply after →
    saved after = saved before
  named : ∀ {before after endpoint labId token payload answer runId},
    step before (.createRun endpoint labId token payload) (.ok answer) after → runIdOf answer = some runId →
      .str (machine.strip (text runId)) = runId

variable {saved : World → Option String} {text : Json → String}

theorem Files.keeps (hfiles : Files machine step saved text) {ε α : Type} {program : Program Call Reply ε α}
    {outcome : Except ε α} (hcalls : program.Calls fun call ↦ ∀ runId, call ≠ .saveRunId runId)
    (h : Execution step world program trace last outcome) :
    saved last = saved world ∧ ∀ exchange ∈ trace, saved exchange.before = saved world := by
  have hstep : ∀ exchange ∈ trace, saved exchange.after = saved exchange.before := fun exchange hmem ↦
    hfiles.kept (hcalls.mem_trace h exchange hmem) (h.step_of_mem exchange hmem)
  refine ⟨h.persists (P := fun after ↦ saved after = saved world)
    (fun exchange hmem hbefore ↦ (hstep exchange hmem).trans hbefore) rfl, fun exchange hmem ↦ ?_⟩
  have hafter := h.always (P := fun after ↦ saved after = saved world)
    (fun exchange hmem hbefore ↦ (hstep exchange hmem).trans hbefore) rfl exchange hmem
  exact (hstep exchange hmem).symm.trans hafter

section Service

/-- The service, beside the file of the identity. -/
abbrev Site : Type := (Json → Option RunStatus) × Option String

def serveSite (before : Site) : (call : Call) → Reply call × Site
  | .saveRunId (.str name) => (.ok (), (before.1, some name))
  | .saveRunId _ => (.error .os, before)
  | .loadRunId => (.ok before.2, before)
  | other => ((serve before.1 other).1, ((serve before.1 other).2, before.2))

def siteArgs : CreateArgs where
  testTargetType := "VM"
  tags := ["nightly"]
  startTime := "2026-01-01T00:00:00Z"
  isvSoftwareVersion := none
  isvTestVersion := none
  suite := none
  capability := none

def siteCreate : List (Exchange Site Reply) × Site × Except Raised Unit :=
  (reportCreate plainMachine siteEnvironment 3 siteArgs).interpret serveSite (fun _ ↦ none, none)

def siteTests : List (Exchange Site Reply) × Site × Except Raised (Response .orchestrate) :=
  (ask .orchestrate).interpret serveSite siteCreate.2.1

end Service

end IsvValidation.Reporting
