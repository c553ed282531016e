import IsvValidation.Reporting.Client

/-!
# The life of a reported run

A run which was created is closed with the verdict of its tests, or one of a few calls has gone wrong: its creation,
the tests themselves, the second token, or the update. The upload of the results is none of them. The exit code is
that of the tests, whatever the service does.
-/

namespace IsvValidation.Reporting

open Config Host Library Library.Program

universe w

variable {World : Type w} {step : World → (call : Call) → Reply call → World → Prop} {world last : World}
  {trace : List (Exchange World Reply)} {machine : Machine} {environment : Environment}

/-! ## The service -/

/-- A run as the service has it. -/
inductive RunStatus where
  | started
  | closed (status : Option Json)

/-- One run is set, and no other. -/
def Sets (runs : World → Json → Option RunStatus) (before : World) (runId : Json) (status : RunStatus)
    (after : World) : Prop :=
  runs after runId = some status ∧ ∀ other, other ≠ runId → runs after other = runs before other

/-- The calls which change runs. -/
def Call.Writes : Call → Prop
  | .createRun _ _ _ _ | .updateRun _ _ _ _ _ => True
  | _ => False

/-- What the service does. A creation makes a new run, and an update closes one; where the answer is lost, or says
nothing, it may have done so or not. -/
structure Serves (step : World → (call : Call) → Reply call → World → Prop)
    (runs : World → Json → Option RunStatus) : Prop where
  created : ∀ {before after endpoint labId token payload answer runId},
    step before (.createRun endpoint labId token payload) (.ok answer) after → runIdOf answer = some runId →
      runs before runId = none ∧ Sets runs before runId .started after
  lost : ∀ {before after endpoint labId token payload reply},
    step before (.createRun endpoint labId token payload) reply after →
      runs after = runs before ∨ ∃ runId, runs before runId = none ∧ Sets runs before runId .started after
  updated : ∀ {before after endpoint labId runId token payload answer},
    step before (.updateRun endpoint labId runId token payload) (.ok answer) after →
      Sets runs before runId (.closed (payload.lookup "testRunStatus")) after
  unanswered : ∀ {before after endpoint labId runId token payload reply},
    step before (.updateRun endpoint labId runId token payload) reply after →
      runs after = runs before ∨ Sets runs before runId (.closed (payload.lookup "testRunStatus")) after
  others : ∀ {before after call reply}, ¬ call.Writes → step before call reply after → runs after = runs before

variable {runs : World → Json → Option RunStatus}

theorem Serves.quiet (hserves : Serves step runs) {ε α : Type} {program : Program Call Reply ε α}
    {outcome : Except ε α} (hcalls : program.Calls fun call ↦ ¬ call.Writes)
    (h : Execution step world program trace last outcome) : runs last = runs world :=
  h.persists (P := fun after ↦ runs after = runs world)
    (fun exchange hmem hbefore ↦
      (hserves.others (hcalls.mem_trace h exchange hmem) (h.step_of_mem exchange hmem)).trans hbefore) rfl

/-! ## Interrupts -/

/-- An interrupt comes from a call. -/
def Interrupts {α : Type} (step : World → (call : Call) → Reply call → World → Prop) (program : Run α) : Prop :=
  ∀ world trace last, Execution step world program trace last (.error .interrupt) →
    ∃ exchange ∈ trace, exchange.reply = .error .interrupt

namespace Interrupts

theorem done {α : Type} (result : α) : Interrupts step (.done result : Run α) := by
  intro world trace last h
  obtain ⟨-, -, herror⟩ := Execution.done_iff.mp h
  cases herror

theorem raise {α : Type} {raised : Raised} (hne : raised ≠ .interrupt) : Interrupts step (.raise raised : Run α) := by
  intro world trace last h
  obtain ⟨-, -, herror⟩ := Execution.raise_iff.mp h
  exact absurd (Except.error.inj herror).symm hne

theorem bind {α β : Type} {program : Run α} {f : α → Run β} (h : Interrupts step program)
    (hf : ∀ result, Interrupts step (f result)) : Interrupts step (program.bind f) := by
  intro world trace last hexecution
  obtain ⟨error, herror, hfirst⟩ | ⟨first, result, middle, second, rfl, -, hsecond⟩ := Execution.bind_iff.mp hexecution
  · cases herror
    exact h _ _ _ hfirst
  · obtain ⟨exchange, hmem, hreply⟩ := hf result _ _ _ hsecond
    exact ⟨exchange, List.mem_append_right _ hmem, hreply⟩

theorem raised_interrupt {failure : Failure} (h : raisedBy failure = .interrupt) : failure = .interrupt := by
  cases failure <;> simp_all [raisedBy]

theorem exited_interrupt {failure : Failure} (h : exitBy failure = .interrupt) : failure = .interrupt := by
  cases failure <;> simp_all [exitBy, raisedBy]

theorem mapError {call : Call} {f : Failure → Raised} (hf : ∀ failure, f failure = .interrupt → failure = .interrupt) :
    Interrupts step ((invoke call).mapError f : Run (Response call)) := by
  intro world trace last h
  obtain ⟨result, hresult, hinvoke⟩ := Execution.mapError_iff.mp h
  obtain ⟨rfl, -⟩ := Execution.invoke_iff.mp hinvoke
  cases result with
  | ok value => cases hresult
  | error failure => exact ⟨_, List.mem_singleton_self _, by rw [hf failure (Except.error.inj hresult).symm]⟩

theorem ask (call : Call) : Interrupts step (ask call) := mapError fun _ ↦ raised_interrupt

theorem request (call : Call) : Interrupts step (request call) := mapError fun _ ↦ exited_interrupt

/-- Where an error is only warned of, an interrupt still ends the program. -/
theorem orWarn {α β : Type} {program : Run α} {fallback : β} {result : α → β} (h : Interrupts step program) :
    Interrupts step (orWarn fallback result program) := by
  intro world trace last hexecution
  obtain ⟨first, outcome, middle, second, rfl, hran, hend⟩ := Execution.bind_attempt hexecution
  cases outcome with
  | ok value =>
    obtain ⟨-, -, herror⟩ := Execution.done_iff.mp hend
    cases herror
  | error raised =>
    cases raised with
    | interrupt =>
      obtain ⟨exchange, hmem, hreply⟩ := h _ _ _ hran
      exact ⟨exchange, List.mem_append_left _ hmem, hreply⟩
    | _ =>
      obtain ⟨-, -, herror⟩ := Execution.done_iff.mp hend
      cases herror

end Interrupts

/-- What a program whose errors are only warned of has come to. -/
theorem orWarn_spec {α β : Type} {program : Run α} {fallback : β} {result : α → β} {outcome : Except Raised β}
    (h : Execution step world (orWarn fallback result program) trace last outcome) :
    (∃ value, Execution step world program trace last (.ok value) ∧ outcome = .ok (result value)) ∨
      ∃ raised, Execution step world program trace last (.error raised) ∧
        outcome = if raised = .interrupt then .error .interrupt else .ok fallback := by
  obtain ⟨first, ended, middle, second, rfl, hran, hend⟩ := Execution.bind_attempt h
  cases ended with
  | ok value =>
    obtain ⟨rfl, rfl, rfl⟩ := Execution.done_iff.mp hend
    rw [List.append_nil]
    exact .inl ⟨value, hran, rfl⟩
  | error raised =>
    cases raised with
    | interrupt =>
      obtain ⟨rfl, rfl, rfl⟩ := Execution.raise_iff.mp hend
      rw [List.append_nil]
      exact .inr ⟨_, hran, rfl⟩
    | exit code =>
      obtain ⟨rfl, rfl, rfl⟩ := Execution.done_iff.mp hend
      rw [List.append_nil]
      exact .inr ⟨_, hran, rfl⟩
    | exception failure =>
      obtain ⟨rfl, rfl, rfl⟩ := Execution.done_iff.mp hend
      rw [List.append_nil]
      exact .inr ⟨_, hran, rfl⟩

/-! ## Requests -/

theorem ask_iff {call : Call} {outcome : Except Raised (Response call)} :
    Execution step world (ask call) trace last outcome ↔
      ∃ reply, trace = [⟨world, call, reply, last⟩] ∧ step world call reply last ∧ outcome = reply.mapError raisedBy := by
  rw [ask, Execution.mapError_iff]
  constructor
  · rintro ⟨reply, rfl, h⟩
    obtain ⟨rfl, hmade⟩ := Execution.invoke_iff.mp h
    exact ⟨reply, rfl, hmade, rfl⟩
  · rintro ⟨reply, rfl, hmade, rfl⟩
    exact ⟨reply, rfl, Execution.invoke_iff.mpr ⟨rfl, hmade⟩⟩

theorem request_iff {call : Call} {outcome : Except Raised (Response call)} :
    Execution step world (request call) trace last outcome ↔
      ∃ reply, trace = [⟨world, call, reply, last⟩] ∧ step world call reply last ∧ outcome = reply.mapError exitBy := by
  rw [request, Execution.mapError_iff]
  constructor
  · rintro ⟨reply, rfl, h⟩
    obtain ⟨rfl, hmade⟩ := Execution.invoke_iff.mp h
    exact ⟨reply, rfl, hmade, rfl⟩
  · rintro ⟨reply, rfl, hmade, rfl⟩
    exact ⟨reply, rfl, Execution.invoke_iff.mpr ⟨rfl, hmade⟩⟩

/-- A token is asked for at a secure place only, and once. -/
theorem getJwtToken_spec {outcome : Except Raised String}
    (h : Execution step world (getJwtToken machine environment) trace last outcome) :
    (isSecureUrl machine environment.ssaIssuer = false ∧ trace = [] ∧ last = world ∧ outcome = .error (.exit 1)) ∨
      (isSecureUrl machine environment.ssaIssuer = true ∧ ∃ reply,
        trace = [⟨world, .token environment.ssaIssuer environment.clientId environment.clientSecret, reply, last⟩] ∧
          outcome = tokenOf reply) := by
  unfold getJwtToken at h
  cases hsecure : isSecureUrl machine environment.ssaIssuer with
  | false =>
    rw [hsecure] at h
    obtain ⟨rfl, rfl, rfl⟩ := Execution.raise_iff.mp h
    exact .inl ⟨rfl, rfl, rfl, rfl⟩
  | true =>
    rw [hsecure] at h
    obtain ⟨first, reply, middle, second, rfl, hasked, hread⟩ := Execution.bind_attempt h
    obtain ⟨rfl, -⟩ := Execution.invoke_iff.mp hasked
    obtain ⟨rfl, rfl, rfl⟩ := Execution.ofExcept_iff.mp hread
    exact .inr ⟨rfl, reply, rfl, rfl⟩

theorem tokenOf_interrupt {reply : Except Failure Json} (h : tokenOf reply = .error .interrupt) :
    reply = .error .interrupt := by
  unfold tokenOf at h
  split at h
  · rfl
  · cases h
  · next answer =>
    cases htoken : accessToken answer <;> simp [htoken] at h

theorem getJwtToken_interrupts : Interrupts step (getJwtToken machine environment) := by
  intro world trace last h
  obtain ⟨-, -, -, herror⟩ | ⟨-, reply, rfl, htoken⟩ := getJwtToken_spec h
  · cases herror
  · exact ⟨_, List.mem_singleton_self _, tokenOf_interrupt htoken.symm⟩

/-! ## Calls which can leave a run open -/

/-- Without this call a run is not closed: no token, no identity, no verdict, no update, or an interrupt. -/
def Leaves (exchange : Exchange World Reply) : Prop :=
  exchange.reply = .error .interrupt ∨
    match exchange with
    | ⟨_, .token _ _ _, reply, _⟩ => ∀ token, tokenOf reply ≠ .ok token
    | ⟨_, .createRun _ _ _ _, reply, _⟩ =>
      ∀ answer, reply = .ok answer → (runIdOf answer).filter Json.truthy = none
    | ⟨_, .saveRunId _, reply, _⟩ => ∃ failure, reply = .error failure ∧ failure ≠ .os
    | ⟨_, .orchestrate, reply, _⟩ => ∃ failure, reply = .error failure
    | ⟨_, .updateRun _ _ _ _ _, reply, _⟩ => ∃ failure, reply = .error failure
    | ⟨_, .now, reply, _⟩ => ∃ failure, reply = .error failure
    | _ => False

/-- A run of the service has been made, and nothing else. -/
def Makes (runs : World → Json → Option RunStatus) (before after : World) : Prop :=
  runs after = runs before ∨ ∃ runId, runs before runId = none ∧ Sets runs before runId .started after

theorem Sets.congr {before before' after after' : World} {runId : Json} {status : RunStatus}
    (h : Sets runs before runId status after) (hbefore : runs before = runs before') (hafter : runs after' = runs after) :
    Sets runs before' runId status after' := by
  unfold Sets
  rw [hafter, ← hbefore]
  exact h

/-- The second setting of a run replaces the first. -/
theorem Sets.trans {before middle after : World} {runId : Json} {first second : RunStatus}
    (h : Sets runs before runId first middle) (h' : Sets runs middle runId second after) :
    Sets runs before runId second after :=
  ⟨h'.1, fun other hne ↦ (h'.2 other hne).trans (h.2 other hne)⟩

theorem Makes.congr {before before' after after' : World} (h : Makes runs before after)
    (hbefore : runs before = runs before') (hafter : runs after' = runs after) : Makes runs before' after' := by
  obtain heq | ⟨runId, hfresh, hsets⟩ := h
  · exact .inl (hafter.trans (heq.trans hbefore))
  · exact .inr ⟨runId, hbefore ▸ hfresh, hsets.congr hbefore hafter⟩

variable {labId : ℤ} {token : String}

theorem clientCreate_spec (hserves : Serves step runs) {args : CreateArgs} {outcome : Except Raised Json}
    (h : Execution step world (clientCreate environment labId token args) trace last outcome) :
    (∃ runId, outcome = .ok runId ∧ runs world runId = none ∧ Sets runs world runId .started last ∧
      (runId.truthy = false → ∃ exchange ∈ trace, Leaves exchange)) ∨
    ((∃ raised, outcome = .error raised) ∧ (∃ exchange ∈ trace, Leaves exchange) ∧ Makes runs world last) := by
  obtain ⟨raised, rfl, hrequest⟩ | ⟨first, answer, middle, second, rfl, hrequest, hnext⟩ := Execution.bind_iff.mp h
  · obtain ⟨reply, rfl, hmade, hreply⟩ := request_iff.mp hrequest
    refine .inr ⟨⟨raised, rfl⟩, ⟨_, List.mem_singleton_self _, .inr ?_⟩, hserves.lost hmade⟩
    rintro answer rfl
    cases hreply
  · obtain ⟨reply, rfl, hmade, hreply⟩ := request_iff.mp hrequest
    obtain rfl : reply = .ok answer := by
      cases reply with
      | ok found => exact congrArg Except.ok (Except.ok.inj hreply).symm
      | error failure => cases hreply
    cases hrun : runIdOf answer with
    | none =>
      simp only [hrun] at hnext
      obtain ⟨rfl, rfl, rfl⟩ := Execution.raise_iff.mp hnext
      refine .inr ⟨⟨_, rfl⟩, ⟨_, List.mem_cons_self, .inr ?_⟩, hserves.lost hmade⟩
      rintro _ heq
      cases heq
      rw [hrun]
      rfl
    | some runId =>
      simp only [hrun] at hnext
      obtain ⟨third, saved, between, fourth, rfl, hsave, hend⟩ := Execution.bind_attempt hnext
      obtain ⟨rfl, hsaved⟩ := Execution.invoke_iff.mp hsave
      obtain ⟨hfresh, hsets⟩ := hserves.created hmade hrun
      have hquiet : runs between = runs middle := hserves.others id hsaved
      have hstarted := hsets.congr rfl hquiet
      have hfalse : runId.truthy = false → Leaves (⟨world, .createRun environment.endpoint labId token args.payload,
          .ok answer, middle⟩ : Exchange World Reply) := by
        rintro hruns
        refine .inr ?_
        rintro _ heq
        cases heq
        rw [hrun, Option.filter_some, if_neg (by simp [hruns])]
      split at hend
      · obtain ⟨rfl, rfl, rfl⟩ := Execution.done_iff.mp hend
        exact .inl ⟨runId, rfl, hfresh, hstarted, fun hruns ↦ ⟨_, List.mem_cons_self, hfalse hruns⟩⟩
      · obtain ⟨rfl, rfl, rfl⟩ := Execution.done_iff.mp hend
        exact .inl ⟨runId, rfl, hfresh, hstarted, fun hruns ↦ ⟨_, List.mem_cons_self, hfalse hruns⟩⟩
      · next failure hother =>
        obtain ⟨rfl, rfl, rfl⟩ := Execution.raise_iff.mp hend
        refine .inr ⟨⟨_, rfl⟩, ⟨⟨middle, .saveRunId runId, .error failure, last⟩, by simp, .inr ⟨failure, rfl, ?_⟩⟩,
          .inr ⟨runId, hfresh, hstarted⟩⟩
        rintro rfl
        exact hother rfl

theorem getJwtToken_calls : (getJwtToken machine environment).Calls fun call ↦ ¬ call.Writes := by
  unfold getJwtToken
  split_ifs
  · exact .raise _
  · exact .bind (.attempt (.invoke id)) fun _ ↦ .ofExcept _

variable {options : Options}

theorem createTestRun_spec (hserves : Serves step runs) {outcome : Except Raised (Option Json)}
    (h : Execution step world (createTestRun machine environment options labId) trace last outcome) :
    (∃ runId, outcome = .ok (some runId) ∧ isSecureUrl machine environment.ssaIssuer = true ∧
      runs world runId = none ∧ Sets runs world runId .started last) ∨
    ((∀ runId, outcome ≠ .ok (some runId)) ∧ (runs last = runs world ∨
      (∃ exchange ∈ trace, Leaves exchange) ∧ Makes runs world last)) := by
  obtain ⟨runId, hcreated, rfl⟩ | ⟨raised, hcreated, rfl⟩ := orWarn_spec h
  · obtain ⟨first, token, middle, second, rfl, htoken, hclient⟩ := Execution.bind_ok_iff.mp hcreated
    have hquiet := hserves.quiet getJwtToken_calls htoken
    obtain ⟨found, hok, hfresh, hsets, hfalse⟩ | ⟨⟨raised, herror⟩, -⟩ := clientCreate_spec hserves hclient
    · obtain rfl := Except.ok.inj hok
      obtain ⟨-, -, -, herror⟩ | ⟨hsecure, -⟩ := getJwtToken_spec htoken
      · cases herror
      · cases htruthy : runId.truthy with
        | true => exact .inl ⟨runId, by simp, hsecure, hquiet ▸ hfresh, hsets.congr hquiet rfl⟩
        | false =>
          obtain ⟨exchange, hmem, hleaves⟩ := hfalse htruthy
          exact .inr ⟨by simp, .inr ⟨⟨exchange, List.mem_append_right _ hmem, hleaves⟩,
            .inr ⟨runId, hquiet ▸ hfresh, hsets.congr hquiet rfl⟩⟩⟩
    · cases herror
  · have hnone : ∀ runId, (if raised = .interrupt then .error .interrupt else .ok none : Except Raised (Option Json)) ≠
        .ok (some runId) := by
      intro runId
      split_ifs <;> simp
    obtain ⟨error, herror, htoken⟩ | ⟨first, token, middle, second, rfl, htoken, hclient⟩ :=
      Execution.bind_iff.mp hcreated
    · exact .inr ⟨hnone, .inl (hserves.quiet getJwtToken_calls htoken)⟩
    · have hquiet := hserves.quiet getJwtToken_calls htoken
      obtain ⟨found, hok, -⟩ | ⟨-, ⟨exchange, hmem, hleaves⟩, hmakes⟩ := clientCreate_spec hserves hclient
      · cases hok
      · exact .inr ⟨hnone, .inr ⟨⟨exchange, List.mem_append_right _ hmem, hleaves⟩, hmakes.congr hquiet rfl⟩⟩

/-! ## The update -/

/-- The run is closed with a status, if it is set at all. -/
def Closes (runs : World → Json → Option RunStatus) (before : World) (runId : Json) (status : Option Json)
    (after : World) : Prop :=
  runs after = runs before ∨ Sets runs before runId (.closed status) after

theorem request_update_spec (hserves : Serves step runs) {runId : Json} {args : UpdateArgs} {completeTime : String}
    {outcome : Except Raised Unit}
    (h : Execution step world ((request (.updateRun environment.endpoint labId runId token
      (args.payload completeTime))).bind fun _ ↦ .done ()) trace last outcome) :
    (outcome = .ok () ∧ Sets runs world runId (.closed (some (.str args.status))) last) ∨
      ((∃ raised, outcome = .error raised) ∧ (∃ exchange ∈ trace, Leaves exchange) ∧
        Closes runs world runId (some (.str args.status)) last) := by
  obtain ⟨raised, rfl, hrequest⟩ | ⟨first, answer, middle, second, rfl, hrequest, hend⟩ := Execution.bind_iff.mp h
  · obtain ⟨reply, rfl, hmade, hreply⟩ := request_iff.mp hrequest
    refine .inr ⟨⟨raised, rfl⟩, ⟨_, List.mem_singleton_self _, .inr ?_⟩, hserves.unanswered hmade⟩
    cases reply with
    | ok answer => cases hreply
    | error failure => exact ⟨failure, rfl⟩
  · obtain ⟨reply, rfl, hmade, hreply⟩ := request_iff.mp hrequest
    obtain ⟨rfl, rfl, rfl⟩ := Execution.done_iff.mp hend
    cases reply with
    | ok answer => exact .inl ⟨rfl, hserves.updated hmade⟩
    | error failure => cases hreply

theorem clientUpdate_spec (hserves : Serves step runs) {runId : Json} {args : UpdateArgs}
    {outcome : Except Raised Unit}
    (h : Execution step world (clientUpdate environment labId runId token args) trace last outcome) :
    (outcome = .ok () ∧ Sets runs world runId (.closed (some (.str args.status))) last) ∨
      ((∃ raised, outcome = .error raised) ∧ (∃ exchange ∈ trace, Leaves exchange) ∧
        Closes runs world runId (some (.str args.status)) last) := by
  unfold clientUpdate at h
  cases hcomplete : args.completeTime with
  | some time =>
    simp only [hcomplete] at h
    exact request_update_spec hserves h
  | none =>
    simp only [hcomplete] at h
    obtain ⟨raised, rfl, hclock⟩ | ⟨first, time, middle, second, rfl, hclock, hnext⟩ := Execution.bind_iff.mp h
    · obtain ⟨reply, rfl, hmade, hreply⟩ := ask_iff.mp hclock
      refine .inr ⟨⟨raised, rfl⟩, ⟨_, List.mem_singleton_self _, .inr ?_⟩, .inl (hserves.others id hmade)⟩
      cases reply with
      | ok time => cases hreply
      | error failure => exact ⟨failure, rfl⟩
    · obtain ⟨reply, rfl, hmade, -⟩ := ask_iff.mp hclock
      have hquiet := hserves.others id hmade
      obtain ⟨hok, hsets⟩ | ⟨herror, ⟨exchange, hmem, hleaves⟩, hcloses⟩ := request_update_spec hserves hnext
      · exact .inl ⟨hok, hsets.congr hquiet rfl⟩
      · refine .inr ⟨herror, ⟨exchange, List.mem_append_right _ hmem, hleaves⟩, ?_⟩
        obtain heq | hsets := hcloses
        · exact .inl (heq.trans hquiet)
        · exact .inr (hsets.congr hquiet rfl)

theorem ask_calls {call : Call} {allowed : Call → Prop} (h : allowed call) : (ask call).Calls allowed :=
  .mapError _ (.invoke h)

theorem request_calls {call : Call} {allowed : Call → Prop} (h : allowed call) : (request call).Calls allowed :=
  .mapError _ (.invoke h)

theorem orWarn_calls {α β : Type} {fallback : β} {result : α → β} {program : Run α} {allowed : Call → Prop}
    (h : program.Calls allowed) : (orWarn fallback result program).Calls allowed := by
  refine .bind (.attempt h) fun outcome ↦ ?_
  cases outcome with
  | ok value => exact .done _
  | error raised =>
    cases raised with
    | interrupt => exact .raise _
    | _ => exact .done _

theorem uploadJunit_calls {runId : Json} :
    (uploadJunit machine environment labId runId token).Calls fun call ↦ ¬ call.Writes := by
  refine orWarn_calls (.bind (ask_calls id) fun junit ↦ ?_)
  cases junit with
  | none => exact .done _
  | some junit => exact .bind (request_calls id) fun _ ↦ .done _

/-- A program which only warns of its errors is ended by an interrupt alone. -/
theorem interrupt_of_orWarn {α β : Type} {program : Run α} {fallback : β} {result : α → β} {raised : Raised}
    (hinterrupts : Interrupts step program)
    (h : Execution step world (orWarn fallback result program) trace last (.error raised)) :
    ∃ exchange ∈ trace, exchange.reply = .error .interrupt := by
  obtain ⟨value, -, herror⟩ | ⟨inner, hran, herror⟩ := orWarn_spec h
  · cases herror
  · split_ifs at herror with hinterrupt
    subst hinterrupt
    exact hinterrupts _ _ _ hran

theorem leaves_of_orWarn {α β : Type} {program : Run α} {fallback : β} {result : α → β} {raised : Raised}
    (hinterrupts : Interrupts step program)
    (h : Execution step world (orWarn fallback result program) trace last (.error raised)) :
    ∃ exchange ∈ trace, Leaves exchange := by
  obtain ⟨exchange, hmem, hreply⟩ := interrupt_of_orWarn hinterrupts h
  exact ⟨exchange, hmem, .inl hreply⟩

theorem sendJunit_interrupts {runId : Json} :
    Interrupts step (sendJunit machine environment labId runId token) := by
  refine .bind (.ask _) fun junit ↦ ?_
  cases junit with
  | none => exact .done _
  | some junit => exact .bind (.request _) fun _ ↦ .done _

theorem clientUpdate_interrupts {runId : Json} {args : UpdateArgs} :
    Interrupts step (clientUpdate environment labId runId token args) := by
  have hrequest : ∀ time, Interrupts step ((request (.updateRun environment.endpoint labId runId token
      (args.payload time))).bind fun _ ↦ .done ()) := fun _ ↦ .bind (.request _) fun _ ↦ .done _
  unfold clientUpdate
  cases args.completeTime with
  | some time => exact hrequest time
  | none => exact .bind (.ask _) hrequest

theorem clientCreate_interrupts {args : CreateArgs} :
    Interrupts step (clientCreate environment labId token args) := by
  refine .bind (.request _) fun answer ↦ ?_
  cases runIdOf answer with
  | none => exact .raise (by simp)
  | some runId =>
    intro world trace last h
    obtain ⟨first, saved, middle, second, rfl, hsave, hend⟩ := Execution.bind_attempt h
    obtain ⟨rfl, -⟩ := Execution.invoke_iff.mp hsave
    split at hend
    · obtain ⟨-, -, herror⟩ := Execution.done_iff.mp hend
      cases herror
    · obtain ⟨-, -, herror⟩ := Execution.done_iff.mp hend
      cases herror
    · obtain ⟨-, -, herror⟩ := Execution.raise_iff.mp hend
      have hfailure := Interrupts.raised_interrupt (Except.error.inj herror).symm
      exact ⟨_, List.mem_cons_self, by rw [hfailure]⟩

def statusOf (success : Bool) : Option Json := some (.str (if success then "SUCCESS" else "FAILED"))

/-- The second part of the update, once the log is there. -/
theorem sendUpdate_spec (hserves : Serves step runs) (hsecure : isSecureUrl machine environment.ssaIssuer = true)
    {runId : Json} {args : UpdateArgs} {outcome : Except Raised Unit}
    (h : Execution step world (do
      let token ← getJwtToken machine environment
      uploadJunit machine environment labId runId token
      clientUpdate environment labId runId token args : Run Unit) trace last outcome) :
    (outcome = .ok () ∧ Sets runs world runId (.closed (some (.str args.status))) last) ∨
      ((∃ raised, outcome = .error raised) ∧ (∃ exchange ∈ trace, Leaves exchange) ∧
        Closes runs world runId (some (.str args.status)) last) := by
  obtain ⟨raised, rfl, htoken⟩ | ⟨first, token, middle, second, rfl, htoken, hnext⟩ := Execution.bind_iff.mp h
  · obtain ⟨hinsecure, -⟩ | ⟨-, reply, rfl, hreply⟩ := getJwtToken_spec htoken
    · rw [hsecure] at hinsecure
      cases hinsecure
    · refine .inr ⟨⟨raised, rfl⟩, ⟨_, List.mem_singleton_self _, .inr fun token hok ↦ ?_⟩,
        .inl (hserves.quiet getJwtToken_calls htoken)⟩
      rw [hok] at hreply
      cases hreply
  · have hquiet := hserves.quiet getJwtToken_calls htoken
    obtain ⟨raised, rfl, hjunit⟩ | ⟨third, _, between, fourth, rfl, hjunit, hclient⟩ := Execution.bind_iff.mp hnext
    · obtain ⟨exchange, hmem, hleaves⟩ := leaves_of_orWarn sendJunit_interrupts hjunit
      exact .inr ⟨⟨raised, rfl⟩, ⟨exchange, List.mem_append_right _ hmem, hleaves⟩,
        .inl ((hserves.quiet uploadJunit_calls hjunit).trans hquiet)⟩
    · have hsame := (hserves.quiet uploadJunit_calls hjunit).trans hquiet
      obtain ⟨hok, hsets⟩ | ⟨herror, ⟨exchange, hmem, hleaves⟩, hcloses⟩ := clientUpdate_spec hserves hclient
      · exact .inl ⟨hok, hsets.congr hsame rfl⟩
      · refine .inr ⟨herror, ⟨exchange, List.mem_append_right _ (List.mem_append_right _ hmem), hleaves⟩, ?_⟩
        obtain heq | hsets := hcloses
        · exact .inl (heq.trans hsame)
        · exact .inr (hsets.congr hsame rfl)

theorem updateTestRun_spec (hserves : Serves step runs) (hsecure : isSecureUrl machine environment.ssaIssuer = true)
    {runId : Json} {success : Bool} {catalog : Option Fields} {outcome : Except Raised Bool}
    (h : Execution step world (updateTestRun machine environment options labId runId success catalog) trace last
      outcome) :
    Sets runs world runId (.closed (statusOf success)) last ∨
      ((∃ exchange ∈ trace, Leaves exchange) ∧ Closes runs world runId (statusOf success) last) := by
  obtain ⟨raised, rfl, hduration⟩ | ⟨first, duration, middle, second, rfl, hduration, hnext⟩ := Execution.bind_iff.mp h
  · exact .inr ⟨leaves_of_orWarn (.ask _) hduration, .inl (hserves.quiet (orWarn_calls (ask_calls id)) hduration)⟩
  · have hquiet := hserves.quiet (orWarn_calls (ask_calls id)) hduration
    obtain ⟨raised, rfl, hlog⟩ | ⟨third, log, between, fourth, rfl, hlog, hclose⟩ := Execution.bind_iff.mp hnext
    · obtain ⟨exchange, hmem, hleaves⟩ := leaves_of_orWarn (.ask _) hlog
      exact .inr ⟨⟨exchange, List.mem_append_right _ hmem, hleaves⟩,
        .inl ((hserves.quiet (orWarn_calls (ask_calls id)) hlog).trans hquiet)⟩
    · have hsame := (hserves.quiet (orWarn_calls (ask_calls id)) hlog).trans hquiet
      obtain ⟨_, hran, rfl⟩ | ⟨raised, hran, rfl⟩ := orWarn_spec hclose
      · obtain ⟨-, hsets⟩ | ⟨⟨_, herror⟩, -⟩ := sendUpdate_spec hserves hsecure hran
        · exact .inl (hsets.congr hsame rfl)
        · cases herror
      · obtain ⟨hok, -⟩ | ⟨-, ⟨exchange, hmem, hleaves⟩, hcloses⟩ := sendUpdate_spec hserves hsecure hran
        · cases hok
        · refine .inr ⟨⟨exchange, List.mem_append_right _ (List.mem_append_right _ hmem), hleaves⟩, ?_⟩
          obtain heq | hsets := hcloses
          · exact .inl (heq.trans hsame)
          · exact .inr (hsets.congr hsame rfl)

/-! ## The whole run -/

/-- The tests have come to a verdict. -/
def Judged (trace : List (Exchange World Reply)) (success : Bool) : Prop :=
  ∃ before catalog after, (⟨before, .orchestrate, .ok (success, catalog), after⟩ : Exchange World Reply) ∈ trace

/-- What is sent is redacted, and credentials are sent to a secure place. -/
def Call.Careful (machine : Machine) : Call → Prop
  | .orchestrate => False
  | .token issuer _ _ => isSecureUrl machine issuer = true
  | .results _ _ _ _ junitXml => ∃ text, junitXml = machine.redactText text
  | .updateRun _ _ _ _ payload => ∀ log, payload.lookup "logOutput" = some log →
      log = .str "" ∨ ∃ text, log = .str (machine.redactText text)
  | _ => True

/-- What a run of the tests does to the runs of the service. -/
structure Reported (machine : Machine) (environment : Environment) (options : Options)
    (runs : World → Json → Option RunStatus) (before after : World) (trace : List (Exchange World Reply))
    (outcome : Except Raised ℕ) : Prop where
  others : ∀ runId, runs before runId ≠ none → runs after runId = runs before runId
  left : ∀ runId, runs before runId = none → runs after runId = some .started → ∃ exchange ∈ trace, Leaves exchange
  verdict : ∀ runId status, runs before runId = none → runs after runId = some (.closed status) →
    ∃ success, Judged trace success ∧ status = statusOf success
  once : ∀ success success', Judged trace success → Judged trace success' → success = success'
  exit : ∀ code, outcome = .ok code → ∃ success, Judged trace success ∧ code = if success then 0 else 1
  raised : ∀ error, outcome = .error error → ∃ exchange ∈ trace, exchange.reply = .error .interrupt ∨
    exchange.op = .orchestrate ∧ ∃ failure, exchange.reply = .error failure
  silent : uploadsFor environment options = none → ∀ exchange ∈ trace, exchange.op = .orchestrate
  careful : ∀ exchange ∈ trace, exchange.op = .orchestrate ∨ exchange.op.Careful machine

theorem openRun_spec (hserves : Serves step runs) {outcome : Except Raised (Option (ℤ × Json))}
    (h : Execution step world (openRun machine environment options) trace last outcome) :
    (∃ labId runId, outcome = .ok (some (labId, runId)) ∧ isSecureUrl machine environment.ssaIssuer = true ∧
      runs world runId = none ∧ Sets runs world runId .started last) ∨
    ((∀ created, outcome ≠ .ok (some created)) ∧ (runs last = runs world ∨
      (∃ exchange ∈ trace, Leaves exchange) ∧ Makes runs world last)) := by
  unfold openRun at h
  split at h
  · obtain ⟨rfl, rfl, rfl⟩ := Execution.done_iff.mp h
    exact .inr ⟨by simp, .inl rfl⟩
  · next labId hlab =>
    obtain ⟨raised, rfl, hcreate⟩ | ⟨first, found, middle, second, rfl, hcreate, hend⟩ := Execution.bind_iff.mp h
    · obtain ⟨runId, herror, -⟩ | ⟨-, hmade⟩ := createTestRun_spec hserves hcreate
      · cases herror
      · exact .inr ⟨by simp, hmade⟩
    · obtain ⟨rfl, rfl, rfl⟩ := Execution.done_iff.mp hend
      rw [List.append_nil]
      obtain ⟨runId, hok, hsecure, hfresh, hsets⟩ | ⟨hnone, hmade⟩ := createTestRun_spec hserves hcreate
      · cases hok
        exact .inl ⟨labId, runId, rfl, hsecure, hfresh, hsets⟩
      · refine .inr ⟨fun created heq ↦ ?_, hmade⟩
        cases found with
        | none => cases heq
        | some runId => exact hnone runId rfl

theorem openRun_interrupt {raised : Raised}
    (h : Execution step world (openRun machine environment options) trace last (.error raised)) :
    ∃ exchange ∈ trace, exchange.reply = .error .interrupt := by
  unfold openRun at h
  split at h
  · obtain ⟨-, -, herror⟩ := Execution.done_iff.mp h
    cases herror
  · obtain ⟨raised, herror, hcreate⟩ | ⟨first, found, middle, second, rfl, hcreate, hend⟩ := Execution.bind_iff.mp h
    · exact interrupt_of_orWarn (getJwtToken_interrupts.bind fun _ ↦ clientCreate_interrupts) hcreate
    · obtain ⟨-, -, herror⟩ := Execution.done_iff.mp hend
      cases herror

theorem closeRun_interrupt {created : Option (ℤ × Json)} {success : Bool} {catalog : Option Fields} {raised : Raised}
    (h : Execution step world (closeRun machine environment options created success catalog) trace last
      (.error raised)) :
    ∃ exchange ∈ trace, exchange.reply = .error .interrupt := by
  cases created with
  | none =>
    obtain ⟨-, -, herror⟩ := Execution.done_iff.mp h
    cases herror
  | some created =>
    obtain ⟨raised, herror, hupdate⟩ | ⟨first, found, middle, second, rfl, -, hend⟩ := Execution.bind_iff.mp h
    · cases herror
      obtain ⟨_, herror, hduration⟩ | ⟨first, duration, middle, second, rfl, -, hnext⟩ := Execution.bind_iff.mp hupdate
      · exact interrupt_of_orWarn (.ask _) hduration
      · obtain ⟨_, herror, hlog⟩ | ⟨third, log, between, fourth, rfl, -, hsend⟩ := Execution.bind_iff.mp hnext
        · obtain ⟨exchange, hmem, hreply⟩ := interrupt_of_orWarn (.ask _) hlog
          exact ⟨exchange, List.mem_append_right _ hmem, hreply⟩
        · obtain ⟨exchange, hmem, hreply⟩ := interrupt_of_orWarn (getJwtToken_interrupts.bind fun _ ↦
            (Interrupts.orWarn sendJunit_interrupts).bind fun _ ↦ clientUpdate_interrupts) hsend
          exact ⟨exchange, List.mem_append_right _ (List.mem_append_right _ hmem), hreply⟩
    · obtain ⟨-, -, herror⟩ := Execution.done_iff.mp hend
      cases herror

theorem lookup_entry {key other : String} {value : Option Json} :
    (entry key value).lookup other = if other = key then value else none := by
  cases value with
  | none => simp [entry]
  | some value =>
    by_cases h : other = key
    · simp [entry, h]
    · have hne : (other == key) = false := by simpa using h
      simp [entry, List.lookup_cons, hne, h]

/-- Only the log is sent as the log. -/
theorem lookup_log {args : UpdateArgs} {completeTime : String} :
    (args.payload completeTime).lookup "logOutput" = args.log.map .str := by
  simp [UpdateArgs.payload, List.lookup_append, lookup_entry, List.lookup_cons]

theorem getJwtToken_careful : (getJwtToken machine environment).Calls (Call.Careful machine) := by
  unfold getJwtToken
  split_ifs with hsecure
  · exact .raise _
  · have hcareful : isSecureUrl machine environment.ssaIssuer = true := by simpa using hsecure
    exact .bind (.attempt (.invoke hcareful)) fun _ ↦ .ofExcept _

theorem openRun_careful : (openRun machine environment options).Calls (Call.Careful machine) := by
  unfold openRun
  split
  · exact .done _
  · refine .bind (orWarn_calls (.bind getJwtToken_careful fun token ↦ .bind (request_calls trivial) fun answer ↦ ?_))
      fun _ ↦ .done _
    cases runIdOf answer with
    | none => exact .raise _
    | some runId =>
      refine .bind (.attempt (.invoke trivial)) fun saved ↦ ?_
      split
      · exact .done _
      · exact .done _
      · exact .raise _

theorem cleanLog_careful {log : Option String} {text : Json} (h : (cleanLog machine log).map Json.str = some text) :
    text = .str "" ∨ ∃ text', text = .str (machine.redactText text') := by
  cases log with
  | none => cases h
  | some log =>
    simp only [cleanLog, Option.map_some, Option.some.injEq] at h
    split_ifs at h with hempty
    · exact .inl (by rw [← h, hempty])
    · exact .inr ⟨_, h.symm⟩

theorem clientUpdate_careful {runId : Json} {args : UpdateArgs} {log : Option String}
    (hlog : args.log = cleanLog machine log) :
    (clientUpdate environment labId runId token args).Calls (Call.Careful machine) := by
  have hrequest : ∀ time, ((request (.updateRun environment.endpoint labId runId token (args.payload time))).bind
      fun _ ↦ .done () : Run Unit).Calls (Call.Careful machine) := fun time ↦
    .bind (request_calls fun text htext ↦ cleanLog_careful (by rw [← hlog, ← lookup_log, htext])) fun _ ↦ .done _
  unfold clientUpdate
  cases args.completeTime with
  | some time => exact hrequest time
  | none => exact .bind (ask_calls trivial) hrequest

theorem closeRun_careful {created : Option (ℤ × Json)} {success : Bool} {catalog : Option Fields} :
    (closeRun machine environment options created success catalog).Calls (Call.Careful machine) := by
  cases created with
  | none => exact .done _
  | some created =>
    refine .bind (.bind (orWarn_calls (ask_calls trivial)) fun duration ↦ .bind (orWarn_calls (ask_calls trivial))
      fun log ↦ orWarn_calls (.bind getJwtToken_careful fun token ↦ .bind (orWarn_calls (.bind (ask_calls trivial)
        fun junit ↦ ?_)) fun _ ↦ clientUpdate_careful rfl)) fun _ ↦ .done _
    cases junit with
    | none => exact .done _
    | some junit => exact .bind (request_calls ⟨junit, rfl⟩) fun _ ↦ .done _

theorem testRun_careful :
    (testRun machine environment options).Calls fun call ↦ call = .orchestrate ∨ call.Careful machine :=
  .bind (openRun_careful.mono fun _ ↦ .inr) fun _ ↦ .bind (ask_calls (.inl rfl)) fun _ ↦
    .bind (closeRun_careful.mono fun _ ↦ .inr) fun _ ↦ .done _

/-- The parts of a run: it ends before the tests, or it comes to them, and closes what was opened. -/
theorem testRun_parts {outcome : Except Raised ℕ}
    (h : Execution step world (testRun machine environment options) trace last outcome) :
    (∃ raised, outcome = .error raised ∧
      Execution step world (openRun machine environment options) trace last (.error raised)) ∨
    ∃ first created middle reply between rest, trace = first ++ ⟨middle, .orchestrate, reply, between⟩ :: rest ∧
      Execution step world (openRun machine environment options) first middle (.ok created) ∧
      step middle .orchestrate reply between ∧
      ((∃ failure, reply = .error failure ∧ rest = [] ∧ last = between ∧ outcome = .error (raisedBy failure)) ∨
        ∃ success catalog ended, reply = .ok (success, catalog) ∧
          Execution step between (closeRun machine environment options created success catalog) rest last ended ∧
          outcome = ended.map fun _ ↦ if success then 0 else 1) := by
  obtain ⟨raised, rfl, hopen⟩ | ⟨first, created, middle, rest, rfl, hopen, hnext⟩ := Execution.bind_iff.mp h
  · exact .inl ⟨raised, rfl, hopen⟩
  · refine .inr ?_
    obtain ⟨raised, rfl, htests⟩ | ⟨third, verdict, between, fourth, rfl, htests, hclose⟩ := Execution.bind_iff.mp hnext
    · obtain ⟨reply, rfl, hmade, hreply⟩ := ask_iff.mp htests
      cases reply with
      | ok verdict => cases hreply
      | error failure =>
        cases hreply
        exact ⟨first, created, middle, _, last, [], rfl, hopen, hmade, .inl ⟨failure, rfl, rfl, rfl, rfl⟩⟩
    · obtain ⟨reply, rfl, hmade, hreply⟩ := ask_iff.mp htests
      cases reply with
      | error failure => cases hreply
      | ok found =>
        obtain ⟨success, catalog⟩ := verdict
        cases hreply
        refine ⟨first, created, middle, _, between, fourth, rfl, hopen, hmade, .inr ⟨success, catalog, ?_⟩⟩
        obtain ⟨raised, rfl, hran⟩ | ⟨fifth, closed, final, sixth, rfl, hran, hend⟩ := Execution.bind_iff.mp hclose
        · exact ⟨.error raised, rfl, hran, rfl⟩
        · obtain ⟨rfl, rfl, rfl⟩ := Execution.done_iff.mp hend
          rw [List.append_nil]
          exact ⟨.ok closed, rfl, hran, rfl⟩

/-- The tests are run at most once. -/
theorem judged_unique {outcome : Except Raised ℕ}
    (h : Execution step world (testRun machine environment options) trace last outcome) {success success' : Bool}
    (hjudged : Judged trace success) (hjudged' : Judged trace success') : success = success' := by
  obtain ⟨before, catalog, after, hmem⟩ := hjudged
  obtain ⟨before', catalog', after', hmem'⟩ := hjudged'
  obtain ⟨raised, rfl, hopen⟩ | ⟨first, created, middle, reply, between, rest, rfl, hopen, -, hend⟩ := testRun_parts h
  · exact absurd (openRun_careful.mem_trace hopen _ hmem) id
  have honly : ∀ {before verdict after}, (⟨before, .orchestrate, .ok verdict, after⟩ : Exchange World Reply) ∈
      first ++ ⟨middle, .orchestrate, reply, between⟩ :: rest → reply = .ok verdict := by
    intro before verdict after hmem
    obtain hmem | hmem := List.mem_append.mp hmem
    · exact absurd (openRun_careful.mem_trace hopen _ hmem) id
    · obtain heq | hmem := List.mem_cons.mp hmem
      · cases heq
        rfl
      · obtain ⟨failure, -, rfl, -⟩ | ⟨success, catalog, ended, -, hclose, -⟩ := hend
        · cases hmem
        · exact absurd (closeRun_careful.mem_trace hclose _ hmem) id
  have hsame := (honly hmem).symm.trans (honly hmem')
  cases hsame
  rfl

/-- What has become of the runs of the service: nothing, a run which was left open, or one which was closed. -/
theorem testRun_runs (hserves : Serves step runs) {outcome : Except Raised ℕ}
    (h : Execution step world (testRun machine environment options) trace last outcome) :
    runs last = runs world ∨ ((∃ exchange ∈ trace, Leaves exchange) ∧ Makes runs world last) ∨
      ∃ runId success, runs world runId = none ∧ Judged trace success ∧
        Sets runs world runId (.closed (statusOf success)) last := by
  obtain ⟨raised, -, hopen⟩ | ⟨first, created, middle, reply, between, rest, rfl, hopen, htests, hend⟩ :=
    testRun_parts h
  · obtain ⟨labId, runId, herror, -⟩ | ⟨-, hmade⟩ := openRun_spec hserves hopen
    · cases herror
    · exact hmade.imp_right .inl
  have hsame : runs between = runs middle := hserves.others id htests
  obtain ⟨failure, rfl, rfl, rfl, -⟩ | ⟨success, catalog, ended, rfl, hclose, -⟩ := hend
  · have hleaves : Leaves (⟨middle, .orchestrate, .error failure, last⟩ : Exchange World Reply) := .inr ⟨failure, rfl⟩
    have hmem : (⟨middle, .orchestrate, .error failure, last⟩ : Exchange World Reply) ∈
        first ++ [⟨middle, .orchestrate, .error failure, last⟩] := by simp
    obtain ⟨labId, runId, -, -, hfresh, hsets⟩ | ⟨-, hquiet | ⟨-, hmakes⟩⟩ := openRun_spec hserves hopen
    · exact .inr (.inl ⟨⟨_, hmem, hleaves⟩, .inr ⟨runId, hfresh, hsets.congr rfl hsame⟩⟩)
    · exact .inl (hsame.trans hquiet)
    · exact .inr (.inl ⟨⟨_, hmem, hleaves⟩, hmakes.congr rfl hsame⟩)
  · have hjudged : Judged (first ++ ⟨middle, .orchestrate, .ok (success, catalog), between⟩ :: rest) success :=
      ⟨middle, catalog, between, by simp⟩
    obtain ⟨labId, runId, hok, hsecure, hfresh, hsets⟩ | ⟨hnone, hquiet⟩ := openRun_spec hserves hopen
    · cases hok
      have hstarted := hsets.congr rfl hsame
      have hupdate : ∃ ended, Execution step between
          (updateTestRun machine environment options labId runId success catalog) rest last ended := by
        obtain ⟨raised, -, hran⟩ | ⟨fifth, _, final, sixth, rfl, hran, hend⟩ := Execution.bind_iff.mp hclose
        · exact ⟨_, hran⟩
        · obtain ⟨rfl, rfl, -⟩ := Execution.done_iff.mp hend
          rw [List.append_nil]
          exact ⟨_, hran⟩
      obtain ⟨_, hran⟩ := hupdate
      obtain hclosed | ⟨⟨exchange, hmem, hleaves⟩, hopened | hclosed⟩ := updateTestRun_spec hserves hsecure hran
      · exact .inr (.inr ⟨runId, success, hfresh, hjudged, hstarted.trans hclosed⟩)
      · exact .inr (.inl ⟨⟨exchange, by simp [hmem], hleaves⟩, .inr ⟨runId, hfresh, hstarted.congr rfl hopened⟩⟩)
      · exact .inr (.inr ⟨runId, success, hfresh, hjudged, hstarted.trans hclosed⟩)
    · obtain rfl : created = none := by
        cases created with
        | none => rfl
        | some created => exact absurd rfl (hnone created)
      obtain ⟨rfl, rfl, -⟩ := Execution.done_iff.mp hclose
      obtain hquiet | ⟨⟨exchange, hmem, hleaves⟩, hmakes⟩ := hquiet
      · exact .inl (hsame.trans hquiet)
      · exact .inr (.inl ⟨⟨exchange, List.mem_append_left _ hmem, hleaves⟩, hmakes.congr rfl hsame⟩)

theorem testRun_exit {code : ℕ}
    (h : Execution step world (testRun machine environment options) trace last (.ok code)) :
    ∃ success, Judged trace success ∧ code = if success then 0 else 1 := by
  obtain ⟨raised, herror, -⟩ | ⟨first, created, middle, reply, between, rest, rfl, -, -, hend⟩ := testRun_parts h
  · cases herror
  · obtain ⟨failure, -, -, -, herror⟩ | ⟨success, catalog, ended, rfl, -, hcode⟩ := hend
    · cases herror
    · cases ended with
      | error raised => cases hcode
      | ok closed =>
        cases hcode
        exact ⟨success, ⟨middle, catalog, between, by simp⟩, rfl⟩

theorem testRun_raised {raised : Raised}
    (h : Execution step world (testRun machine environment options) trace last (.error raised)) :
    ∃ exchange ∈ trace, exchange.reply = .error .interrupt ∨
      exchange.op = .orchestrate ∧ ∃ failure, exchange.reply = .error failure := by
  obtain ⟨raised, -, hopen⟩ | ⟨first, created, middle, reply, between, rest, rfl, -, -, hend⟩ := testRun_parts h
  · obtain ⟨exchange, hmem, hreply⟩ := openRun_interrupt hopen
    exact ⟨exchange, hmem, .inl hreply⟩
  · obtain ⟨failure, rfl, rfl, rfl, -⟩ | ⟨success, catalog, ended, rfl, hclose, hraised⟩ := hend
    · exact ⟨⟨middle, .orchestrate, .error failure, last⟩, by simp, .inr ⟨rfl, failure, rfl⟩⟩
    · cases ended with
      | ok closed => cases hraised
      | error error =>
        obtain ⟨exchange, hmem, hreply⟩ := closeRun_interrupt hclose
        exact ⟨exchange, by simp [hmem], .inl hreply⟩

/-- Where nothing is uploaded, only the tests are run. -/
theorem testRun_silent (hnone : uploadsFor environment options = none) :
    (testRun machine environment options).Calls (· = .orchestrate) := by
  have hopen : openRun machine environment options = .done none := by simp [openRun, hnone]
  rw [testRun, hopen]
  show ((ask .orchestrate).bind _).Calls _
  refine .bind (ask_calls rfl) fun verdict ↦ ?_
  obtain ⟨success, catalog⟩ := verdict
  exact .bind (.done _) fun _ ↦ .done _

/-- A run which was created is closed with the verdict of its tests, unless one of a few calls went wrong; no other
run is touched; and the exit code is that of the tests. -/
theorem testRun_reported (hserves : Serves step runs) {outcome : Except Raised ℕ}
    (h : Execution step world (testRun machine environment options) trace last outcome) :
    Reported machine environment options runs world last trace outcome := by
  have hruns := testRun_runs hserves h
  constructor
  case others =>
    intro runId hknown
    obtain hsame | ⟨-, hsame | ⟨made, hfresh, -, hothers⟩⟩ | ⟨made, success, hfresh, -, -, hothers⟩ := hruns
    · rw [hsame]
    · rw [hsame]
    · exact hothers runId fun heq ↦ hknown (heq ▸ hfresh)
    · exact hothers runId fun heq ↦ hknown (heq ▸ hfresh)
  case left =>
    intro runId hfresh hstarted
    obtain hsame | ⟨hleaves, -⟩ | ⟨made, success, -, -, hclosed, hothers⟩ := hruns
    · rw [hsame, hfresh] at hstarted
      cases hstarted
    · exact hleaves
    · by_cases heq : runId = made
      · rw [heq, hclosed] at hstarted
        cases hstarted
      · rw [hothers runId heq, hfresh] at hstarted
        cases hstarted
  case verdict =>
    intro runId status hfresh hstatus
    obtain hsame | ⟨-, hsame | ⟨made, -, hstarted, hothers⟩⟩ | ⟨made, success, -, hjudged, hclosed, hothers⟩ := hruns
    · rw [hsame, hfresh] at hstatus
      cases hstatus
    · rw [hsame, hfresh] at hstatus
      cases hstatus
    · by_cases heq : runId = made
      · rw [heq, hstarted] at hstatus
        cases hstatus
      · rw [hothers runId heq, hfresh] at hstatus
        cases hstatus
    · by_cases heq : runId = made
      · rw [heq, hclosed] at hstatus
        cases hstatus
        exact ⟨success, hjudged, rfl⟩
      · rw [hothers runId heq, hfresh] at hstatus
        cases hstatus
  case once => exact fun success success' ↦ judged_unique h
  case exit =>
    rintro code rfl
    exact testRun_exit h
  case raised =>
    rintro raised rfl
    exact testRun_raised h
  case silent => exact fun hnone ↦ (testRun_silent hnone).mem_trace h
  case careful => exact testRun_careful.mem_trace h

section Service

/-- A service which names its run itself, and closes a run under its name. -/
def setRun (before : Json → Option RunStatus) (name : String) (status : RunStatus) : Json → Option RunStatus
  | .str other => if other = name then some status else before (.str other)
  | other => before other

def serve (before : Json → Option RunStatus) : (call : Call) → Reply call × (Json → Option RunStatus)
  | .token _ _ _ => (.ok (.obj [("access_token", .str "t")]), before)
  | .createRun _ _ _ _ =>
    if (before (.str "run-1")).isNone then
      (.ok (.obj [("data", .obj [("testRunId", .str "run-1")])]), setRun before "run-1" .started)
    else (.error (.http 500), before)
  | .results _ _ _ _ _ => (.error (.http 413), before)
  | .updateRun _ _ (.str name) _ payload =>
    (.ok .null, setRun before name (.closed (payload.lookup "testRunStatus")))
  | .updateRun _ _ _ _ _ => (.error (.http 404), before)
  | .orchestrate => (.ok (true, none), before)
  | .saveRunId _ => (.error .os, before)
  | .loadRunId => (.ok none, before)
  | .readLog => (.ok (some "log"), before)
  | .readJunit => (.ok (some "<testsuites/>"), before)
  | .readCatalog => (.error .os, before)
  | .readArtifact => (.ok none, before)
  | .buildDocument => (.error .os, before)
  | .saveDocument _ => (.ok (), before)
  | .uploadCatalog _ _ _ => (.error (.http 403), before)
  | .duration _ => (.error .value, before)
  | .now => (.ok "2026-01-01T00:00:00+00:00", before)

theorem setRun_sets (before : Json → Option RunStatus) (name : String) (status : RunStatus) :
    Sets id before (.str name) status (setRun before name status) := by
  refine ⟨by simp [setRun], fun other hne ↦ ?_⟩
  cases other with
  | str other => exact if_neg fun heq ↦ hne (by rw [heq])
  | _ => rfl

theorem serves_serve : Serves (fun before call reply after ↦ serve before call = (reply, after)) id := by
  have hcreate : ∀ {before after endpoint labId token payload} {reply : Reply (.createRun endpoint labId token payload)},
      serve before (.createRun endpoint labId token payload) = (reply, after) →
        reply = .error (.http 500) ∧ after = before ∨
          reply = .ok (.obj [("data", .obj [("testRunId", .str "run-1")])]) ∧ before (.str "run-1") = none ∧
            after = setRun before "run-1" .started := by
    intro before after endpoint labId token payload reply h
    unfold serve at h
    split_ifs at h with hnone
    · cases h
      exact .inr ⟨rfl, Option.isNone_iff_eq_none.mp hnone, rfl⟩
    · cases h
      exact .inl ⟨rfl, rfl⟩
  have hupdate : ∀ {before after endpoint labId runId token payload}
      {reply : Reply (.updateRun endpoint labId runId token payload)},
      serve before (.updateRun endpoint labId runId token payload) = (reply, after) →
        reply = .error (.http 404) ∧ after = before ∨
          Sets id before runId (.closed (payload.lookup "testRunStatus")) after := by
    intro before after endpoint labId runId token payload reply h
    cases runId with
    | str name =>
      cases h
      exact .inr (setRun_sets _ _ _)
    | _ =>
      cases h
      exact .inl ⟨rfl, rfl⟩
  constructor
  case created =>
    intro before after endpoint labId token payload answer runId h hrun
    obtain ⟨herror, -⟩ | ⟨hreply, hfresh, rfl⟩ := hcreate h
    · cases herror
    · cases hreply
      cases hrun
      exact ⟨hfresh, setRun_sets _ _ _⟩
  case lost =>
    intro before after endpoint labId token payload reply h
    obtain ⟨-, rfl⟩ | ⟨-, hfresh, rfl⟩ := hcreate h
    · exact .inl rfl
    · exact .inr ⟨_, hfresh, setRun_sets _ _ _⟩
  case updated =>
    intro before after endpoint labId runId token payload answer h
    obtain ⟨herror, -⟩ | hsets := hupdate h
    · cases herror
    · exact hsets
  case unanswered =>
    intro before after endpoint labId runId token payload reply h
    obtain ⟨-, rfl⟩ | hsets := hupdate h
    · exact .inl rfl
    · exact .inr hsets
  case others =>
    intro before after call reply hwrites h
    cases call with
    | createRun => exact absurd trivial hwrites
    | updateRun => exact absurd trivial hwrites
    | _ =>
      cases h
      rfl

def plainMachine : Machine where
  urlparse _ := some ("https", some "issuer")
  redactText text := text
  upper text := text
  strip text := text

def siteEnvironment : Environment where
  clientId := "id"
  clientSecret := "secret"
  endpoint := "https://service"
  ssaIssuer := "https://issuer"

def siteOptions : Options where
  labId := some 3
  declared := some "vm"
  startTime := "2026-01-01T00:00:00Z"
  isvTestVersion := some "1.2.3"

def siteRun : List (Exchange (Json → Option RunStatus) Reply) × (Json → Option RunStatus) × Except Raised ℕ :=
  (testRun plainMachine siteEnvironment siteOptions).interpret serve fun _ ↦ none

/-- The results are refused, and the run is closed nevertheless. -/
theorem testRun_reported_site : siteRun.2.1 (.str "run-1") = some (.closed (some (.str "SUCCESS"))) ∧
    ∀ exchange ∈ siteRun.1, exchange.op = .orchestrate ∨ exchange.op.Careful plainMachine :=
  ⟨rfl, (testRun_reported serves_serve (Program.execution_interpret serve
    (testRun plainMachine siteEnvironment siteOptions) fun _ ↦ none)).careful⟩

end Service

end IsvValidation.Reporting
