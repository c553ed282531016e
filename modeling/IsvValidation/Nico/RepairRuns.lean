import IsvValidation.Library.Interference
import IsvValidation.Nico.OnlineRepair

/-!
# Nodes which are left in repair

The server carries out a request when it arrives, which may be after the run stopped waiting for it, and the
status of the instance follows later still. A status which is not the one of repair is taken for a node which
left it. It may be the status of a node which has not entered yet.
-/

namespace IsvValidation.Nico.Repair

open Library Library.Program

/-! ## The site -/

inductive Mutation where
  | enter
  | exit
  | remove
  deriving DecidableEq

def MachineUpdate.mutation (body : MachineUpdate) : Mutation :=
  if body.onlineRepairEnabled then .enter else .exit

/-- What of a run is on its way to the server, what waits for the workflow of the site, and whether the
instance is in repair because of it. The last fields say whether a request to enter repair was sent and not
refused, whether it was carried out, and whether a request to leave it was sent. -/
structure World where
  inFlight : List Mutation := []
  queue : List Mutation := []
  repairing : Bool := false
  entered : Bool := false
  applied : Bool := false
  cleared : Bool := false
  deriving DecidableEq

namespace World

variable (world : World)

/-- A request leaves the run. -/
def send : Mutation → World
  | .enter => { world with entered := true }
  | .exit | .remove => { world with cleared := true }

/-- The server carries out a request: the workflow is to follow, and an override is removed at once. -/
def accept : Mutation → World
  | .enter => { world with queue := world.queue ++ [.enter], applied := true }
  | .exit => { world with queue := world.queue ++ [.exit] }
  | .remove => { world with repairing := false }

/-- The request may be carried out later, or never. -/
def hold (mutation : Mutation) : World := { world with inFlight := world.inFlight ++ [mutation] }

/-- A request which is refused; an attempt to leave repair was made all the same. -/
def refuse : Mutation → World
  | .enter => world
  | .exit | .remove => { world with cleared := true }

end World

/-- What the site does by itself. -/
inductive Move : World → World → Prop
  | arrive {world : World} {mutation : Mutation} (hflight : mutation ∈ world.inFlight) :
      Move world ({ world with inFlight := world.inFlight.erase mutation }.accept mutation)
  | follow {world : World} {mutation : Mutation} {rest : List Mutation}
      (hqueue : world.queue = mutation :: rest) :
      Move world { world with queue := rest, repairing := mutation = .enter }

def Call.mutation : Call → Option Mutation
  | .patchMachine _ _ body => some body.mutation
  | .deleteHealthReport _ _ _ => some .remove
  | _ => none

/-- What the answer to a request says of it. -/
inductive Serve : World → (call : Call) → Reply call → World → Prop
  | accepted {world : World} {call : Call} {mutation : Mutation} {response : Response call}
      (hcall : call.mutation = some mutation) :
      Serve world call (.ok response) ((world.send mutation).accept mutation)
  | refused {world : World} {call : Call} {mutation : Mutation} {error : Error}
      (hcall : call.mutation = some mutation) (herror : error.Refuses = true) :
      Serve world call (.error error) (world.refuse mutation)
  | unheard {world : World} {call : Call} {mutation : Mutation} {error : Error}
      (hcall : call.mutation = some mutation) (herror : error.Refuses = false) :
      Serve world call (.error error) ((world.send mutation).hold mutation)
  | status {world : World} {instanceId token status : String}
      (hstatus : world.repairing = true → status = repairStatus ∨ status = "") :
      Serve world (.instanceStatus instanceId token) (.ok status) world
  | failed {world : World} {call : Call} {error : Error} (hcall : call.mutation = none) :
      Serve world call (.error error) world
  | auth {world : World} {token : String} : Serve world .resolveAuth (.ok token) world
  | machines {world : World} {token : String} {machines : List Machine} :
      Serve world (.listMachines token) (.ok machines) world
  | polls {world : World} {seconds rounds : ℕ} : Serve world (.polls seconds) (.ok rounds) world

abbrev Step : World → (call : Call) → Reply call → World → Prop := Interfered Serve Move

/-- What becomes of the site. -/
abbrev Later : World → World → Prop := Relation.ReflTransGen Move

/-! ## What steps keep -/

/-- The request to enter repair is carried out only where it was sent and not refused. -/
def World.Tracked (world : World) : Prop :=
  world.entered = false → .enter ∉ world.inFlight ∧ world.applied = false

/-- Nothing of the run can put the instance into repair any more. -/
structure World.Settled (world : World) : Prop where
  inFlight : .enter ∉ world.inFlight
  queue : .enter ∉ world.queue
  repairing : world.repairing = false

section Steps

variable {world after : World} {call : Call} {reply : Reply call}

theorem Move.entered_eq (h : Move world after) : after.entered = world.entered := by
  cases h with
  | @arrive mutation => cases mutation <;> rfl
  | follow => rfl

theorem Move.cleared_eq (h : Move world after) : after.cleared = world.cleared := by
  cases h with
  | @arrive mutation => cases mutation <;> rfl
  | follow => rfl

theorem Move.tracked (h : Move world after) (htracked : world.Tracked) : after.Tracked := by
  intro hentered
  rw [h.entered_eq] at hentered
  obtain ⟨hflight, happlied⟩ := htracked hentered
  cases h with
  | @arrive mutation hmem =>
    have herase : .enter ∉ world.inFlight.erase mutation := fun h ↦ hflight (List.mem_of_mem_erase h)
    cases mutation with
    | enter => exact absurd hmem hflight
    | exit | remove => exact ⟨herase, happlied⟩
  | follow => exact ⟨hflight, happlied⟩

theorem Move.settled (h : Move world after) (hsettled : world.Settled) : after.Settled := by
  obtain ⟨hflight, hqueue, hrepairing⟩ := hsettled
  cases h with
  | @arrive mutation hmem =>
    have herase : .enter ∉ world.inFlight.erase mutation := fun h ↦ hflight (List.mem_of_mem_erase h)
    cases mutation with
    | enter => exact absurd hmem hflight
    | exit => exact ⟨herase, by simpa [World.accept] using hqueue, hrepairing⟩
    | remove => exact ⟨herase, hqueue, rfl⟩
  | @follow mutation rest hwaiting =>
    rw [hwaiting, List.mem_cons, not_or] at hqueue
    exact ⟨hflight, hqueue.2, decide_eq_false (Ne.symm hqueue.1)⟩

theorem Serve.entered_eq (h : Serve world call reply after) (hcall : call.mutation ≠ some .enter) :
    after.entered = world.entered := by
  cases h with
  | @accepted _ mutation _ hmutation | @refused _ mutation _ hmutation | @unheard _ mutation _ hmutation =>
    cases mutation with
    | enter => exact absurd hmutation hcall
    | exit | remove => rfl
  | _ => rfl

theorem Serve.entered_mono (h : Serve world call reply after) (hentered : world.entered = true) :
    after.entered = true := by
  cases h with
  | @accepted _ mutation | @refused _ mutation | @unheard _ mutation =>
    cases mutation <;> first | rfl | exact hentered
  | _ => exact hentered

theorem Serve.cleared_mono (h : Serve world call reply after) (hcleared : world.cleared = true) :
    after.cleared = true := by
  cases h with
  | @accepted _ mutation | @refused _ mutation | @unheard _ mutation =>
    cases mutation <;> first | rfl | exact hcleared
  | _ => exact hcleared

theorem Serve.tracked (h : Serve world call reply after) (htracked : world.Tracked) : after.Tracked := by
  cases h with
  | @accepted _ mutation =>
    cases mutation with
    | enter => exact fun hentered ↦ by cases hentered
    | exit | remove => exact htracked
  | @refused _ mutation => cases mutation <;> exact htracked
  | @unheard _ mutation =>
    cases mutation with
    | enter => exact fun hentered ↦ by cases hentered
    | exit | remove =>
      intro hentered
      obtain ⟨hflight, happlied⟩ := htracked hentered
      exact ⟨by simpa [World.hold, World.send] using hflight, happlied⟩
  | _ => exact htracked

/-- A request to leave repair is known as one from then on. -/
theorem Serve.cleared_of_mutation {mutation : Mutation} (h : Serve world call reply after)
    (hcall : call.mutation = some mutation) (hmutation : mutation ≠ .enter) : after.cleared = true := by
  cases h with
  | @accepted _ found _ hfound | @refused _ found _ hfound | @unheard _ found _ hfound =>
    rw [hcall, Option.some.injEq] at hfound
    cases found with
    | enter => exact absurd hfound hmutation
    | exit | remove => rfl
  | status | auth | machines | polls => cases hcall
  | failed hnone =>
    rw [hnone] at hcall
    cases hcall

end Steps

/-! ## Runs which are in time -/

/-- A token is minted or refused, and a status other than the one of repair, which is read to see whether the
instance left it, is the status of an instance which will not be in repair again. -/
def Timely (before : World) : (call : Call) → Reply call → Prop
  | .resolveAuth, reply => before.entered = true → ∀ error, reply = .error error → ∃ text, error = .auth text
  | .instanceStatus _ _, reply => before.cleared = true → ∀ status, reply = .ok status → status ≠ repairStatus →
      .enter ∉ before.inFlight ∧ .enter ∉ before.queue ∧ ¬ (before.repairing = true ∧ status = "")
  | _, _ => True

/-- A request ended with an exception which is no `Exception`. -/
def Interrupted (trace : List (Exchange World Reply)) : Prop :=
  ∃ exchange ∈ trace, ∃ type, exchange.reply = .error (.interrupt type)

section Runs

variable {world last : World} {trace : List (Exchange World Reply)} {instanceId token machineId : String}

theorem Step.entered_mono {call : Call} {reply : Reply call} (h : Step world call reply last)
    (hentered : world.entered = true) : last.entered = true :=
  h.holds (P := fun world ↦ world.entered = true) (fun _ _ hmove hbefore ↦ hmove.entered_eq.trans hbefore)
    fun _ hserve ↦ hserve.entered_mono hentered

theorem Step.cleared_mono {call : Call} {reply : Reply call} (h : Step world call reply last)
    (hcleared : world.cleared = true) : last.cleared = true :=
  h.holds (P := fun world ↦ world.cleared = true) (fun _ _ hmove hbefore ↦ hmove.cleared_eq.trans hbefore)
    fun _ hserve ↦ hserve.cleared_mono hcleared

theorem settled_later (h : Later world last) (hsettled : world.Settled) : last.Settled :=
  holds_later (fun _ _ hmove ↦ hmove.settled) h hsettled

theorem settled_of_read {status : String} (h : Step world (.instanceStatus instanceId token) (.ok status) last)
    (htimely : Timely world (.instanceStatus instanceId token) (.ok status)) (hcleared : world.cleared = true)
    (hstatus : status ≠ repairStatus) : last.Settled := by
  obtain ⟨hflight, hqueue, hread⟩ := htimely hcleared status rfl hstatus
  obtain ⟨served, hserve, hlater⟩ := h
  have hsettled : served.Settled := by
    cases hserve with
    | accepted hcall => cases hcall
    | status hshown =>
      refine ⟨hflight, hqueue, Bool.eq_false_iff.mpr fun hrepairing ↦ ?_⟩
      exact hread ⟨hrepairing, (hshown hrepairing).resolve_left hstatus⟩
  exact settled_later hlater hsettled

/-- The read which ends a wait for the instance to leave repair settles the matter. -/
theorem pollStatus_settled {rounds : ℕ} {status : String}
    (h : Execution Step world (pollStatus instanceId token repairStatus true rounds) trace last (.ok status))
    (htimely : ∀ exchange ∈ trace, Timely exchange.before exchange.op exchange.reply)
    (hcleared : world.cleared = true) (hstatus : status ≠ repairStatus) : last.Settled := by
  induction rounds generalizing world trace with
  | zero =>
    obtain ⟨rfl, hread⟩ := Execution.invoke_iff.mp h
    exact settled_of_read hread (htimely _ (List.mem_singleton_self _)) hcleared hstatus
  | succ rounds ih =>
    obtain ⟨found, middle, rest, hread, rfl, hnext⟩ := Execution.invoke_bind_ok h
    obtain ⟨hfirst, hrest⟩ := List.forall_mem_cons.mp htimely
    by_cases hfound : found = repairStatus
    · simp only [hfound, ne_eq, not_true_eq_false, if_true, if_false] at hnext
      exact ih hnext hrest (hread.cleared_mono hcleared)
    · simp only [hfound, ne_eq, not_false_eq_true, if_true] at hnext
      obtain ⟨-, hlast, -⟩ := Execution.done_iff.mp hnext
      rw [hlast]
      exact settled_of_read hread hfirst hcleared hfound

theorem awaitStatus_settled {status : String} {seconds : ℕ}
    (h : Execution Step world (awaitStatus instanceId token repairStatus true seconds) trace last (.ok status))
    (htimely : ∀ exchange ∈ trace, Timely exchange.before exchange.op exchange.reply)
    (hcleared : world.cleared = true) (hstatus : status ≠ repairStatus) : last.Settled := by
  obtain ⟨rounds, middle, rest, hpolls, rfl, hnext⟩ := Execution.invoke_bind_ok h
  exact pollStatus_settled hnext (List.forall_mem_cons.mp htimely).2 (hpolls.cleared_mono hcleared) hstatus

theorem pollStatus_forwards {target : String} {leaving : Bool} {rounds : ℕ} :
    Execution.Forwards Step (pollStatus instanceId token target leaving rounds) := by
  induction rounds with
  | zero => exact .invoke _
  | succ rounds ih =>
    refine .bind (.invoke _) fun status ↦ ?_
    simp only
    split_ifs <;> first | exact .done _ | exact ih

theorem awaitStatus_forwards {target : String} {leaving : Bool} {seconds : ℕ} :
    Execution.Forwards Step (awaitStatus instanceId token target leaving seconds) :=
  .bind (.invoke _) fun _ ↦ pollStatus_forwards

/-! ### Leaving repair -/

/-- What an attempt to leave repair comes to. -/
theorem attemptExit_spec {apply : Run Unit} {what : String} {seconds : ℕ}
    {outcome : Except Error (Option String)}
    (happly : ∀ {trace middle outcome}, Execution Step world apply trace middle outcome → middle.cleared = true)
    (hforwards : Execution.Forwards Step apply)
    (h : Execution Step world (attemptExit instanceId token apply what seconds) trace last outcome)
    (htimely : ∀ exchange ∈ trace, Timely exchange.before exchange.op exchange.reply) :
    (outcome = .ok none → last.Settled) ∧ ∀ error, outcome = .error error → Interrupted trace := by
  obtain ⟨first, attempted, middle, second, rfl, hattempt, hnext⟩ := Execution.bind_attempt h
  have hfirst := (List.forall_mem_append.mp htimely).1
  cases attempted with
  | ok status =>
    have hdone : last = middle ∧ (outcome = .ok none → status ≠ repairStatus) ∧
        ∀ error, outcome ≠ .error error := by
      simp only at hnext
      split_ifs at hnext with hstatus
      · obtain ⟨-, hlast, rfl⟩ := Execution.done_iff.mp hnext
        exact ⟨hlast, fun _ ↦ hstatus, by simp⟩
      · obtain ⟨-, hlast, rfl⟩ := Execution.done_iff.mp hnext
        exact ⟨hlast, by simp, by simp⟩
    refine ⟨fun hnone ↦ ?_, fun error herror ↦ absurd herror (hdone.2.2 error)⟩
    obtain ⟨sent, _, between, waited, rfl, hsent, hwait⟩ := Execution.bind_ok_iff.mp hattempt
    rw [hdone.1]
    exact awaitStatus_settled hwait (List.forall_mem_append.mp hfirst).2 (happly hsent) (hdone.2.1 hnone)
  | error error =>
    have hraised : (outcome ≠ .ok none) ∧ ∀ raised, outcome = .error raised → error.isException = false := by
      simp only at hnext
      split_ifs at hnext with hcaught
      · obtain ⟨-, -, rfl⟩ := Execution.done_iff.mp hnext
        exact ⟨by simp, by simp⟩
      · obtain ⟨-, -, rfl⟩ := Execution.raise_iff.mp hnext
        exact ⟨by simp, fun _ _ ↦ Bool.eq_false_iff.mpr hcaught⟩
    refine ⟨fun hnone ↦ absurd hnone hraised.1, fun raised heq ↦ ?_⟩
    have hcaught := hraised.2 raised heq
    obtain ⟨exchange, hmem, hreply⟩ := (hforwards.bind fun _ ↦ awaitStatus_forwards) _ _ _ _ hattempt
    cases error with
    | interrupt type => exact ⟨exchange, List.mem_append_left _ hmem, type, hreply⟩
    | _ => cases hcaught

/-- A request to leave repair, or to remove the override, was made when it is over. -/
theorem cleared_of_ask {call : Call} {mutation : Mutation} {outcome : Except Error (Response call)}
    (hcall : call.mutation = some mutation) (hmutation : mutation ≠ .enter)
    (h : Execution Step world (ask call) trace last outcome) : last.cleared = true := by
  obtain ⟨-, hstep⟩ := Execution.invoke_iff.mp h
  exact hstep.holds (P := fun world ↦ world.cleared = true)
    (fun _ _ hmove hbefore ↦ hmove.cleared_eq.trans hbefore)
    fun _ hserve ↦ hserve.cleared_of_mutation hcall hmutation

theorem deleteIfPresent_cleared {source : String} {outcome : Except Error Unit}
    (h : Execution Step world (deleteIfPresent machineId source token) trace last outcome) :
    last.cleared = true := by
  obtain ⟨first, deleted, middle, second, -, hdelete, hnext⟩ := Execution.bind_attempt h
  have hmiddle : middle.cleared = true := cleared_of_ask rfl (by decide) hdelete
  split at hnext
  · rw [(Execution.done_iff.mp hnext).2.1, hmiddle]
  · rw [(Execution.done_iff.mp hnext).2.1, hmiddle]
  · rw [(Execution.raise_iff.mp hnext).2.1, hmiddle]

theorem deleteIfPresent_forwards {source : String} :
    Execution.Forwards Step (deleteIfPresent machineId source token) := by
  intro world trace last error h
  obtain ⟨first, deleted, middle, second, rfl, hdelete, hnext⟩ := Execution.bind_attempt h
  split at hnext
  · cases (Execution.done_iff.mp hnext).2.2
  · cases (Execution.done_iff.mp hnext).2.2
  · obtain ⟨-, -, herror⟩ := Execution.raise_iff.mp hnext
    cases herror
    obtain ⟨exchange, hmem, hreply⟩ := Execution.Forwards.invoke _ _ _ _ _ hdelete
    exact ⟨exchange, List.mem_append_left _ hmem, hreply⟩

/-- A request to leave repair which is made after one to enter it. -/
def Clears (exchange : Exchange World Reply) : Prop :=
  exchange.before.entered = true ∧ ∃ machineId token, exchange.op = .patchMachine machineId token exitBody

/-- What taking the node out of repair comes to. -/
structure Restores (trace : List (Exchange World Reply)) (last : World) (outcome : Except Error Outcome) :
    Prop where
  clears : ∃ exchange ∈ trace, Clears exchange
  settled : ∀ result, outcome = .ok result → result.restored = true → last.Settled
  errors : ∀ result, outcome = .ok result → result.restored = false → result.errors ≠ []
  raises : ∀ error, outcome = .error error → Interrupted trace

theorem Interrupted.append_right {others : List (Exchange World Reply)} (h : Interrupted others) :
    Interrupted (trace ++ others) := by
  obtain ⟨exchange, hmem, htype⟩ := h
  exact ⟨exchange, List.mem_append_right _ hmem, htype⟩

theorem attemptExit_clears {what : String} {seconds : ℕ} {outcome : Except Error (Option String)}
    (h : Execution Step world (attemptExit instanceId token (ask (.patchMachine machineId token exitBody)) what
      seconds) trace last outcome) (hentered : world.entered = true) : ∃ exchange ∈ trace, Clears exchange := by
  obtain ⟨first, attempted, middle, second, rfl, hattempt, -⟩ := Execution.bind_attempt h
  obtain ⟨reply, sent, rest, -, rfl, -⟩ := Execution.invoke_bind hattempt
  exact ⟨_, List.mem_append_left _ List.mem_cons_self, hentered, machineId, token, rfl⟩

theorem restoreWith_spec {outcome : Except Error Outcome}
    (h : Execution Step world (restoreWith machineId instanceId token) trace last outcome)
    (htimely : ∀ exchange ∈ trace, Timely exchange.before exchange.op exchange.reply)
    (hentered : world.entered = true) : Restores trace last outcome := by
  obtain ⟨error, rfl, hexit⟩ | ⟨first, stayed, middle, second, rfl, hexit, hnext⟩ := Execution.bind_iff.mp h
  · have hspec := attemptExit_spec (cleared_of_ask rfl (by decide)) (.invoke _) hexit htimely
    exact ⟨attemptExit_clears hexit hentered, by simp, by simp, fun _ _ ↦ hspec.2 _ rfl⟩
  · obtain ⟨hfirst, hsecond⟩ := List.forall_mem_append.mp htimely
    have hspec := attemptExit_spec (cleared_of_ask rfl (by decide)) (.invoke _) hexit hfirst
    obtain ⟨exchange, hmem, hclears⟩ := attemptExit_clears hexit hentered
    have hcleared : ∃ exchange ∈ first ++ second, Clears exchange :=
      ⟨exchange, List.mem_append_left _ hmem, hclears⟩
    cases stayed with
    | none =>
      obtain ⟨-, hlast, rfl⟩ := Execution.done_iff.mp hnext
      exact ⟨hcleared, fun _ _ _ ↦ hlast ▸ hspec.1 rfl, by simp, by simp⟩
    | some detail =>
      obtain ⟨error, rfl, hremove⟩ | ⟨removing, fallback, after, third, rfl, hremove, hend⟩ :=
        Execution.bind_iff.mp hnext
      · have hremoved := attemptExit_spec deleteIfPresent_cleared deleteIfPresent_forwards hremove hsecond
        exact ⟨hcleared, by simp, by simp, fun _ _ ↦ (hremoved.2 _ rfl).append_right⟩
      · have hremoved := attemptExit_spec deleteIfPresent_cleared deleteIfPresent_forwards hremove
          (List.forall_mem_append.mp hsecond).1
        cases fallback with
        | none =>
          obtain ⟨-, hlast, rfl⟩ := Execution.done_iff.mp hend
          exact ⟨hcleared, fun _ _ _ ↦ hlast ▸ hremoved.1 rfl, by simp, by simp⟩
        | some fallbackDetail =>
          obtain ⟨-, hlast, rfl⟩ := Execution.done_iff.mp hend
          exact ⟨hcleared, by simp, by simp, by simp⟩

theorem restore_spec {outcome : Except Error Outcome}
    (h : Execution Step world (restore machineId instanceId token) trace last outcome)
    (htimely : ∀ exchange ∈ trace, Timely exchange.before exchange.op exchange.reply)
    (hentered : world.entered = true) : Restores trace last outcome := by
  obtain ⟨first, minted, middle, second, rfl, hmint, hnext⟩ := Execution.bind_attempt h
  obtain ⟨rfl, hstep⟩ := Execution.invoke_iff.mp hmint
  obtain ⟨hfirst, hsecond⟩ := List.forall_mem_append.mp htimely
  have hmiddle := hstep.entered_mono hentered
  have hrestores : ∀ {token},
      Execution Step middle (restoreWith machineId instanceId token) second last outcome →
      Restores (⟨world, .resolveAuth, minted, middle⟩ :: second) last outcome := by
    intro token hwith
    obtain ⟨⟨exchange, hmem, hclears⟩, hsettled, herrors, hraises⟩ := restoreWith_spec hwith hsecond hmiddle
    exact ⟨⟨exchange, List.mem_cons_of_mem _ hmem, hclears⟩, hsettled, herrors,
      fun error herror ↦ @Interrupted.append_right [_] _ (hraises error herror)⟩
  cases minted with
  | ok token => exact hrestores hnext
  | error error =>
    obtain ⟨text, rfl⟩ := hfirst _ (List.mem_singleton_self _) hentered error rfl
    exact hrestores hnext

/-! ### Entering repair -/

theorem entered_of_calls {α : Type} {program : Run α} {outcome : Except Error α}
    (hcalls : program.Calls fun call ↦ call.mutation ≠ some .enter)
    (h : Execution Step world program trace last outcome) : last.entered = world.entered :=
  h.holds_interfered (P := fun later ↦ later.entered = world.entered)
    (fun _ _ hmove hbefore ↦ hmove.entered_eq.trans hbefore)
    (fun exchange hmem _ hserve ↦ (hserve.entered_eq (hcalls.mem_trace h exchange hmem)).trans) rfl

theorem entered_of_execution {α : Type} {program : Run α} {outcome : Except Error α}
    (h : Execution Step world program trace last outcome) (hentered : world.entered = true) :
    last.entered = true :=
  h.persists (P := fun world ↦ world.entered = true)
    (fun exchange hmem hbefore ↦ (h.step_of_mem exchange hmem).entered_mono hbefore) hentered

/-- What the `finally` block is left with is right about the request to enter repair. -/
def Stage.Fits (last : World) : Stage → Prop
  | .returned result => last.entered = false ∧ result.operation.restored = false
  | .raised progress _ | .finished progress =>
    progress.restoreRequired = last.entered ∧ progress.result.operation.restored = false

/-- The `try` block ends, and what it raises was raised by a request. -/
def Ends (trace : List (Exchange World Reply)) (last : World) (outcome : Except Error Stage) : Prop :=
  ∃ stage, outcome = .ok stage ∧ stage.Fits last ∧
    ∀ progress error, stage = .raised progress error → ∃ exchange ∈ trace, exchange.reply = .error error

theorem Ends.append {others : List (Exchange World Reply)} {outcome : Except Error Stage}
    (h : Ends others last outcome) : Ends (trace ++ others) last outcome := by
  obtain ⟨stage, heq, hfits, hraised⟩ := h
  refine ⟨stage, heq, hfits, fun progress error hstage ↦ ?_⟩
  obtain ⟨exchange, hmem, hreply⟩ := hraised progress error hstage
  exact ⟨exchange, List.mem_append_right _ hmem, hreply⟩

theorem observeRepair_ends {progress : Progress} {outcome : Except Error Stage}
    (h : Execution Step world (observeRepair progress) trace last outcome) (hentered : world.entered = true)
    (hrestored : progress.result.operation.restored = false) : Ends trace last outcome := by
  have hlast := entered_of_execution h hentered
  obtain ⟨first, observed, middle, second, rfl, hawait, hnext⟩ := Execution.bind_attempt h
  cases observed with
  | error error =>
    obtain ⟨-, -, rfl⟩ := Execution.done_iff.mp hnext
    refine ⟨_, rfl, ⟨hlast.symm, hrestored⟩, fun _ raised hstage ↦ ?_⟩
    obtain ⟨-, rfl⟩ := Stage.raised.inj hstage
    obtain ⟨exchange, hmem, hreply⟩ := awaitStatus_forwards _ _ _ _ hawait
    exact ⟨exchange, List.mem_append_left _ hmem, hreply⟩
  | ok status =>
    obtain ⟨-, -, rfl⟩ := Execution.done_iff.mp hnext
    exact ⟨_, rfl, ⟨hlast.symm, hrestored⟩, by simp⟩

theorem enterRepair_ends {progress : Progress} {outcome : Except Error Stage}
    (h : Execution Step world (enterRepair machineId progress) trace last outcome)
    (hentered : world.entered = false) (hrestored : progress.result.operation.restored = false) : Ends trace last outcome := by
  obtain ⟨first, entered, middle, second, rfl, henter, hnext⟩ := Execution.bind_attempt h
  obtain ⟨rfl, hstep⟩ := Execution.invoke_iff.mp henter
  obtain ⟨served, hserve, hlater⟩ := hstep
  have hmiddle : middle.entered = served.entered := eq_later (fun _ _ hmove ↦ hmove.entered_eq) hlater
  cases entered with
  | error error =>
    obtain ⟨-, rfl, rfl⟩ := Execution.done_iff.mp hnext
    have hfits : enterMayHaveApplied error = served.entered := by
      cases hserve with
      | refused hcall herror =>
        cases Option.some.inj hcall
        simp [enterMayHaveApplied, herror, World.refuse, hentered, MachineUpdate.mutation, enterBody]
      | unheard hcall herror =>
        cases Option.some.inj hcall
        simp [enterMayHaveApplied, herror, World.hold, World.send, MachineUpdate.mutation, enterBody]
      | failed hcall => cases hcall
    refine ⟨_, rfl, ⟨hfits.trans hmiddle.symm, hrestored⟩, fun _ raised hstage ↦ ?_⟩
    obtain ⟨-, rfl⟩ := Stage.raised.inj hstage
    exact ⟨_, List.mem_append_left _ (List.mem_singleton_self _), rfl⟩
  | ok response =>
    refine (observeRepair_ends hnext ?_ hrestored).append
    rw [hmiddle]
    cases hserve with
    | accepted hcall =>
      cases Option.some.inj hcall
      simp [World.accept, World.send, MachineUpdate.mutation, enterBody]

theorem selectTarget_calls {machineId : String} {machines : List Machine} :
    (selectTarget token machineId machines).Calls fun call ↦ call.mutation ≠ some .enter := by
  induction machines with
  | nil => exact .done _
  | cons machine rest ih =>
    rw [selectTarget]
    split_ifs
    · exact ih
    · refine .bind (.invoke (by simp [Call.mutation])) fun status ↦ ?_
      split_ifs
      · exact .done _
      · exact ih

theorem selectTarget_forwards {machineId : String} {machines : List Machine} :
    Execution.Forwards Step (selectTarget token machineId machines) := by
  induction machines with
  | nil => exact .done _
  | cons machine rest ih =>
    rw [selectTarget]
    split_ifs
    · exact ih
    · refine .bind (.invoke _) fun status ↦ ?_
      split_ifs
      · exact .done _
      · exact ih

variable {args : Args} {result : Result}

theorem reportMachine_ends {machines : List Machine} {outcome : Except Error Stage}
    (h : Execution Step world (reportMachine args result machines token) trace last outcome)
    (hentered : world.entered = false) (hrestored : result.operation.restored = false) :
    Ends trace last outcome := by
  obtain ⟨first, target, middle, second, rfl, hselect, hnext⟩ := Execution.bind_attempt h
  have hmiddle := (entered_of_calls selectTarget_calls hselect).trans hentered
  rcases target with error | _ | ⟨machine, instanceId⟩
  · obtain ⟨-, rfl, rfl⟩ := Execution.done_iff.mp hnext
    refine ⟨_, rfl, ⟨hmiddle.symm, hrestored⟩, fun _ raised hstage ↦ ?_⟩
    obtain ⟨-, rfl⟩ := Stage.raised.inj hstage
    obtain ⟨exchange, hmem, hreply⟩ := selectTarget_forwards _ _ _ _ hselect
    exact ⟨exchange, List.mem_append_left _ hmem, hreply⟩
  · obtain ⟨-, rfl, rfl⟩ := Execution.done_iff.mp hnext
    exact ⟨_, rfl, ⟨hmiddle, hrestored⟩, by simp⟩
  · simp only at hnext
    split_ifs at hnext
    · obtain ⟨-, rfl, rfl⟩ := Execution.done_iff.mp hnext
      exact ⟨_, rfl, ⟨hmiddle, hrestored⟩, by simp⟩
    · exact (enterRepair_ends hnext hmiddle hrestored).append

theorem resolveAuth_entered {outcome : Except Error String}
    (h : Execution Step world (ask .resolveAuth) trace last outcome) : last.entered = world.entered :=
  entered_of_calls (.invoke (by simp [Call.mutation])) h

theorem attemptReport_ends {machines : List Machine} {auth : Option String} {outcome : Except Error Stage}
    (h : Execution Step world (attemptReport args result machines auth) trace last outcome)
    (hentered : world.entered = false) (hrestored : result.operation.restored = false) :
    Ends trace last outcome := by
  cases auth with
  | some token => exact reportMachine_ends h hentered hrestored
  | none =>
    obtain ⟨first, minted, middle, second, rfl, hmint, hnext⟩ := Execution.bind_attempt h
    have hmiddle := (resolveAuth_entered hmint).trans hentered
    cases minted with
    | error error =>
      obtain ⟨-, rfl, rfl⟩ := Execution.done_iff.mp hnext
      refine ⟨_, rfl, ⟨hmiddle.symm, hrestored⟩, fun _ raised hstage ↦ ?_⟩
      obtain ⟨-, rfl⟩ := Stage.raised.inj hstage
      obtain ⟨exchange, hmem, hreply⟩ := Execution.Forwards.invoke _ _ _ _ _ hmint
      exact ⟨exchange, List.mem_append_left _ hmem, hreply⟩
    | ok token => exact (reportMachine_ends hnext hmiddle hrestored).append

/-! ### The end of a run -/

/-- What a run comes to. Where a request to enter repair was sent and not refused, one to leave it was made,
and the run reports it unless it is interrupted. -/
structure Concludes (trace : List (Exchange World Reply)) (last : World) (outcome : Except Error Result) :
    Prop where
  clears : last.entered = true → ∃ exchange ∈ trace, Clears exchange
  settled : ∀ result, outcome = .ok result → result.operation.restored = true → last.Settled
  reports : last.entered = true → Interrupted trace ∨ ∃ result, outcome = .ok result ∧
    (result.operation.restored = false → result.success = false ∧ result.cleanupErrors ≠ [])

theorem concludes_of_not_entered {outcome : Except Error Result} (hentered : last.entered = false)
    (hrestored : ∀ result, outcome = .ok result → result.operation.restored = false) :
    Concludes trace last outcome := by
  refine ⟨fun htrue ↦ ?_, fun result hresult htrue ↦ ?_, fun htrue ↦ ?_⟩
  · simp [hentered] at htrue
  · simp [hrestored result hresult] at htrue
  · simp [hentered] at htrue

theorem settle_concludes {progress : Progress} {outcome : Except Error Result}
    (h : Execution Step world (settle args progress) trace last outcome) (hskip : args.skipRestore = false)
    (htimely : ∀ exchange ∈ trace, Timely exchange.before exchange.op exchange.reply)
    (hrequired : progress.restoreRequired = world.entered)
    (hrestored : progress.result.operation.restored = false) : Concludes trace last outcome := by
  rw [settle] at h
  cases hentered : world.entered with
  | false =>
    rw [hentered] at hrequired
    simp only [hrequired, Bool.not_false, if_true] at h
    obtain ⟨-, rfl, rfl⟩ := Execution.done_iff.mp h
    exact concludes_of_not_entered hentered fun result hresult ↦ Except.ok.inj hresult ▸ hrestored
  | true =>
    rw [hentered] at hrequired
    simp only [hrequired, hskip, Bool.not_true, Bool.false_eq_true, if_false] at h
    obtain ⟨error, rfl, hrestore⟩ | ⟨first, restoring, middle, second, rfl, hrestore, hdone⟩ :=
      Execution.bind_iff.mp h
    · have hspec := restore_spec hrestore htimely hentered
      exact ⟨fun _ ↦ hspec.clears, by simp, fun _ ↦ .inl (hspec.raises error rfl)⟩
    · obtain ⟨rfl, rfl, rfl⟩ := Execution.done_iff.mp hdone
      rw [List.append_nil] at htimely ⊢
      have hspec := restore_spec hrestore htimely hentered
      refine ⟨fun _ ↦ hspec.clears, fun result hresult htrue ↦ ?_, fun _ ↦ .inr ⟨_, rfl, fun hfalse ↦ ?_⟩⟩
      · rw [← Except.ok.inj hresult, restored_restoredResult] at htrue
        exact hspec.settled restoring rfl htrue
      · rw [restored_restoredResult] at hfalse
        obtain ⟨hsuccess, herrors⟩ := restoredResult_of_stranded progress.result hfalse
        exact ⟨hsuccess, herrors ▸ hspec.errors restoring rfl hfalse⟩

theorem restored_failedResult (result : Result) (error : Error) :
    (failedResult result error).operation.restored = result.operation.restored := by
  cases error <;> rfl

theorem Concludes.append {others : List (Exchange World Reply)} {outcome : Except Error Result}
    (h : Concludes others last outcome) : Concludes (trace ++ others) last outcome := by
  refine ⟨fun hentered ↦ ?_, h.settled, fun hentered ↦ (h.reports hentered).imp_left Interrupted.append_right⟩
  obtain ⟨exchange, hmem, hclears⟩ := h.clears hentered
  exact ⟨exchange, List.mem_append_right _ hmem, hclears⟩

theorem conclude_concludes {stage : Stage} {earlier : List (Exchange World Reply)}
    {outcome : Except Error Result} (h : Execution Step world (conclude args stage) trace last outcome) (hskip : args.skipRestore = false)
    (htimely : ∀ exchange ∈ trace, Timely exchange.before exchange.op exchange.reply)
    (hfits : stage.Fits world)
    (hraised : ∀ progress error, stage = .raised progress error →
      ∃ exchange ∈ earlier, exchange.reply = .error error) :
    Concludes (earlier ++ trace) last outcome := by
  cases stage with
  | returned result =>
    obtain ⟨rfl, rfl, rfl⟩ := Execution.done_iff.mp h
    exact concludes_of_not_entered hfits.1 fun report hreport ↦ Except.ok.inj hreport ▸ hfits.2
  | finished progress => exact (settle_concludes h hskip htimely hfits.1 hfits.2).append
  | raised progress error =>
    have hkept := (restored_failedResult progress.result error).trans hfits.2
    obtain ⟨raised, rfl, hsettle⟩ | ⟨first, result, middle, second, rfl, hsettle, hend⟩ :=
      Execution.bind_iff.mp h
    · exact (settle_concludes hsettle hskip htimely hfits.1 hkept).append
    · have hspec := settle_concludes hsettle hskip (List.forall_mem_append.mp htimely).1 hfits.1 hkept
      split_ifs at hend with hcaught
      · obtain ⟨rfl, rfl, rfl⟩ := Execution.done_iff.mp hend
        rw [List.append_nil]
        exact hspec.append
      · obtain ⟨rfl, rfl, rfl⟩ := Execution.raise_iff.mp hend
        rw [List.append_nil]
        refine ⟨hspec.append.clears, by simp, fun _ ↦ .inl ?_⟩
        obtain ⟨exchange, hmem, hreply⟩ := hraised progress error rfl
        cases error with
        | interrupt type => exact ⟨exchange, List.mem_append_left _ hmem, type, hreply⟩
        | _ => exact absurd rfl hcaught

theorem resolveAuth_calls : (ask .resolveAuth).Calls fun call ↦ call.mutation ≠ some .enter :=
  .invoke (by simp [Call.mutation])

theorem mintToken_calls : mintToken.Calls fun call ↦ call.mutation ≠ some .enter := by
  refine .bind resolveAuth_calls.attempt fun minted ↦ ?_
  rcases minted with (_ | _ | _ | _ | _) | _ <;> first | exact .done _ | exact .raise _

theorem listSiteMachines_calls {auth : Option String} :
    (listSiteMachines args auth).Calls fun call ↦ call.mutation ≠ some .enter := by
  refine .bind (.attempt (.bind ?_ fun token ↦ .invoke ?_)) fun listed ↦ ?_
  · cases auth with
    | none => exact resolveAuth_calls
    | some token => exact .done _
  · simp [Call.mutation]
  · rcases listed with (_ | _ | _ | _ | _) | _ | _ <;> first | exact .done _ | exact .raise _

theorem listSiteMachines_error {auth : Option String} {report : Result}
    (h : Execution Step world (listSiteMachines args auth) trace last (.ok (.error report))) :
    report.operation.restored = false := by
  obtain ⟨first, listed, middle, second, -, -, hnext⟩ := Execution.bind_attempt h
  have hreport : ∀ {found : Result}, found.operation.restored = false →
      Execution Step middle (.done (.error found) : Run (Except Result (List Machine))) second last
        (.ok (.error report)) → report.operation.restored = false := by
    intro found hfound hdone
    rw [Except.error.inj (Except.ok.inj (Execution.done_iff.mp hdone).2.2), hfound]
  rcases listed with (_ | _ | _ | _ | _) | _ | _
  · exact hreport rfl hnext
  · exact hreport rfl hnext
  · exact hreport rfl hnext
  · cases (Execution.raise_iff.mp hnext).2.2
  · cases (Execution.raise_iff.mp hnext).2.2
  · exact hreport rfl hnext
  · cases (Execution.done_iff.mp hnext).2.2

theorem main_concludes {outcome : Except Error Result}
    (h : Execution Step world (main args) trace last outcome) (hskip : args.skipRestore = false)
    (htimely : ∀ exchange ∈ trace, Timely exchange.before exchange.op exchange.reply)
    (hentered : world.entered = false) : Concludes trace last outcome := by
  obtain ⟨error, rfl, hmint⟩ | ⟨first, auth, minted, second, rfl, hmint, hnext⟩ := Execution.bind_iff.mp h
  · exact concludes_of_not_entered ((entered_of_calls mintToken_calls hmint).trans hentered) (by simp)
  · have hminted := (entered_of_calls mintToken_calls hmint).trans hentered
    refine Concludes.append ?_
    replace htimely := (List.forall_mem_append.mp htimely).2
    obtain ⟨error, rfl, hlist⟩ | ⟨listing, machines, listed, third, rfl, hlist, hrest⟩ :=
      Execution.bind_iff.mp hnext
    · exact concludes_of_not_entered ((entered_of_calls listSiteMachines_calls hlist).trans hminted) (by simp)
    · have hlisted := (entered_of_calls listSiteMachines_calls hlist).trans hminted
      cases machines with
      | error report =>
        obtain ⟨-, rfl, rfl⟩ := Execution.done_iff.mp hrest
        exact concludes_of_not_entered hlisted fun result hresult ↦
          Except.ok.inj hresult ▸ listSiteMachines_error hlist
      | ok machines =>
        refine Concludes.append ?_
        obtain ⟨error, rfl, hattempt⟩ | ⟨attempting, stage, attempted, fourth, rfl, hattempt, hconclude⟩ :=
          Execution.bind_iff.mp hrest
        · obtain ⟨_, heq, -⟩ := attemptReport_ends hattempt hlisted rfl
          cases heq
        · obtain ⟨_, heq, hfits, hraised⟩ := attemptReport_ends hattempt hlisted rfl
          cases heq
          exact conclude_concludes hconclude hskip
            (List.forall_mem_append.mp (List.forall_mem_append.mp htimely).2).2 hfits hraised

end Runs

/-! ## Runs -/

/-- A run leaves no node in repair: a clear is attempted wherever the server carries out the request to enter
repair, a node which is reported as restored is never in repair again, and where it is not restored the run
fails with what is in the way, unless it is interrupted. -/
structure NeverStrands (trace : List (Exchange World Reply)) (last : World) (outcome : Except Error Result) :
    Prop where
  clears : ∀ final, Later last final → final.applied = true → ∃ exchange ∈ trace, Clears exchange
  restored : ∀ result, outcome = .ok result → result.operation.restored = true →
    ∀ final, Later last final → final.repairing = false
  reports : last.entered = true → Interrupted trace ∨ ∃ result, outcome = .ok result ∧
    (result.operation.restored = false → result.success = false ∧ result.cleanupErrors ≠ [])

/-- A run which is in time strands no node. -/
theorem main_neverStrands (args : Args) (hskip : args.skipRestore = false) {trace : List (Exchange World Reply)}
    {last : World} {outcome : Except Error Result} (h : Execution Step {} (main args) trace last outcome)
    (htimely : ∀ exchange ∈ trace, Timely exchange.before exchange.op exchange.reply) :
    NeverStrands trace last outcome := by
  have hspec := main_concludes h hskip htimely rfl
  refine ⟨fun final hlater happlied ↦ hspec.clears ?_,
    fun result hresult hrestored final hlater ↦ ?_, hspec.reports⟩
  · have htracked : last.Tracked := h.holds_interfered (fun _ _ hmove ↦ hmove.tracked)
      (fun _ _ _ hserve ↦ hserve.tracked) (fun _ ↦ ⟨by simp, rfl⟩)
    by_contra hentered
    have hfinal := holds_later (fun _ _ hmove ↦ hmove.tracked) hlater htracked
    have heq := eq_later (fun _ _ hmove ↦ hmove.entered_eq) hlater
    rw [Bool.not_eq_true] at hentered
    rw [(hfinal (heq.trans hentered)).2] at happlied
    cases happlied
  · exact (settled_later hlater (hspec.settled result hresult hrestored)).repairing

/-! ## A site with one machine -/

def siteArgs : Args := { siteId := "site", machineId := "machine" }

def siteMachine : Machine := ⟨some "machine", some "instance"⟩

def timedOut : Error := .other "TimeoutError" "The read operation timed out"

section Site

variable (world : World)

theorem step_auth : Step world .resolveAuth (.ok "token") world := ⟨_, .auth, .refl⟩

theorem step_machines : Step world (.listMachines "token") (.ok [siteMachine]) world := ⟨_, .machines, .refl⟩

theorem step_polls (seconds : ℕ) : Step world (.polls seconds) (.ok 0) world := ⟨_, .polls, .refl⟩

variable {world}

theorem step_ready (h : world.repairing = false) :
    Step world (.instanceStatus "instance" "token") (.ok readyStatus) world :=
  ⟨_, .status (by simp [h]), .refl⟩

theorem Move.followed {mutation : Mutation} {rest : List Mutation} {repairing : Bool}
    (hqueue : world.queue = mutation :: rest) (h : repairing = decide (mutation = .enter)) :
    Move world { world with queue := rest, repairing } := by
  rw [h]
  exact .follow hqueue

/-- The instance is in repair. -/
def repairingWorld : World := { entered := true, applied := true, repairing := true }

theorem step_enter : Step {} (.patchMachine "machine" "token" enterBody) (.ok ()) repairingWorld :=
  ⟨_, .accepted rfl, .single (.followed rfl rfl)⟩

theorem step_repairing :
    Step repairingWorld (.instanceStatus "instance" "token") (.ok repairStatus) repairingWorld :=
  ⟨_, .status fun _ ↦ .inl rfl, .refl⟩

end Site

/-- The node enters repair and leaves it. -/
theorem main_neverStrands_site : ∃ trace last result,
    Execution Step {} (main siteArgs) trace last (.ok result) ∧ result.operation.restored = true ∧
      last.applied = true ∧ NeverStrands trace last (.ok result) := by
  let left : World := { entered := true, applied := true, cleared := true }
  have hexit : Step repairingWorld (.patchMachine "machine" "token" exitBody) (.ok ()) left :=
    ⟨_, .accepted rfl, .single (.followed rfl rfl)⟩
  have hrun : Execution Step {} (main siteArgs) _ left (.ok _) :=
    .call (step_auth _) <| .call (step_machines _) <| .call (step_ready rfl) <| .call step_enter <|
    .call (step_polls _ _) <| .call step_repairing <| .call (step_auth _) <| .call hexit <|
    .call (step_polls _ _) <| .call (step_ready rfl) <| .done _ _
  refine ⟨_, left, _, hrun, rfl, rfl, main_neverStrands siteArgs rfl hrun ?_⟩
  simp [Timely, left, repairingWorld]

/-- The request to enter repair times out and arrives after the status was read; and no token is minted for a
node which is in repair. -/
theorem late_runs_strand :
    (∃ trace last result, Execution Step {} (main siteArgs) trace last (.ok result) ∧
      result.operation.restored = true ∧ ∃ final, Later last final ∧ final.repairing = true) ∧
    ∃ trace last, Execution Step {} (main siteArgs) trace last (.error timedOut) ∧ last.repairing = true ∧
      ∀ exchange ∈ trace, ¬ Clears exchange := by
  constructor
  · let held : World := { inFlight := [.enter], entered := true }
    let exiting : World := { held with queue := [.exit], cleared := true }
    have henter : Step {} (.patchMachine "machine" "token" enterBody) (.error timedOut) held :=
      ⟨_, .unheard rfl rfl, .refl⟩
    have hexit : Step held (.patchMachine "machine" "token" exitBody) (.ok ()) exiting :=
      ⟨_, .accepted rfl, .refl⟩
    have hrun : Execution Step {} (main siteArgs) _ exiting (.ok _) :=
      .call (step_auth _) <| .call (step_machines _) <| .call (step_ready rfl) <| .call henter <|
      .call (step_auth _) <| .call hexit <| .call (step_polls _ _) <| .call (step_ready rfl) <| .done _ _
    -- The requests are followed in the order of their arrival, the one to leave repair first.
    have hlater : Later exiting { repairingWorld with cleared := true } :=
      .head (.arrive (List.mem_singleton_self _)) <| .head (.followed rfl rfl) <| .single (.followed rfl rfl)
    exact ⟨_, exiting, _, hrun, rfl, _, hlater, rfl⟩
  · have hunminted : Step repairingWorld .resolveAuth (.error timedOut) repairingWorld :=
      ⟨_, .failed rfl, .refl⟩
    have hrun : Execution Step {} (main siteArgs) _ repairingWorld (.error timedOut) :=
      .call (step_auth _) <| .call (step_machines _) <| .call (step_ready rfl) <| .call step_enter <|
      .call (step_polls _ _) <| .call step_repairing <| .call hunminted <| .raise _ _
    refine ⟨_, repairingWorld, hrun, rfl, ?_⟩
    simp [Clears, repairingWorld]

end IsvValidation.Nico.Repair
