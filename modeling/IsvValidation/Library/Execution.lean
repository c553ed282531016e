import Mathlib.Data.Set.Basic
import IsvValidation.Library.Program

/-!
# Executions of programs in a world

A program calls out into a world which changes with each call. What a call may do to the world, and
what it may reply, is a step relation; an execution pairs the calls a program makes with their
replies and with the worlds before and after. Executions are taken apart along the structure of the
program, and facts about single exchanges become facts about whole executions.
-/

namespace IsvValidation.Library

universe u v w

/-- One call, its reply, and the worlds around it. -/
structure Exchange (World : Type w) {Op : Type u} (Reply : Op → Type v) where
  before : World
  op : Op
  reply : Reply op
  after : World

variable {World : Type w} {Op : Type u} {Reply : Op → Type v} {ε η α β : Type v}

/-- The executions of a program from a world, with all exchanges, the last world, and the outcome. -/
inductive Execution (step : World → (op : Op) → Reply op → World → Prop) :
    World → Program Op Reply ε α → List (Exchange World Reply) → World → Except ε α → Prop where
  | done (world : World) (result : α) : Execution step world (.done result) [] world (.ok result)
  | raise (world : World) (error : ε) : Execution step world (.raise error) [] world (.error error)
  | call {world middle last : World} {op : Op} {reply : Reply op}
      {next : Reply op → Program Op Reply ε α} {trace : List (Exchange World Reply)}
      {outcome : Except ε α} (made : step world op reply middle)
      (rest : Execution step middle (next reply) trace last outcome) :
      Execution step world (.call op next) (⟨world, op, reply, middle⟩ :: trace) last outcome

/-- Make a call whose reply is a response or an error, and raise the error. -/
def Program.invoke {Response : Op → Type v} (op : Op) :
    Program Op (fun op ↦ Except ε (Response op)) ε (Response op) := .call op .ofExcept

namespace Execution

open Program

variable {step : World → (op : Op) → Reply op → World → Prop} {world last : World}
  {program : Program Op Reply ε α} {trace : List (Exchange World Reply)} {outcome : Except ε α}

/-! ## Along the structure of a program -/

@[simp] theorem done_iff {result : α} :
    Execution step world (.done result : Program Op Reply ε α) trace last outcome ↔
      trace = [] ∧ last = world ∧ outcome = .ok result := by
  constructor
  · intro h
    cases h
    exact ⟨rfl, rfl, rfl⟩
  · intro ⟨htrace, hlast, houtcome⟩
    rw [htrace, hlast, houtcome]
    exact .done world result

@[simp] theorem raise_iff {error : ε} :
    Execution step world (.raise error : Program Op Reply ε α) trace last outcome ↔
      trace = [] ∧ last = world ∧ outcome = .error error := by
  constructor
  · intro h
    cases h
    exact ⟨rfl, rfl, rfl⟩
  · intro ⟨htrace, hlast, houtcome⟩
    rw [htrace, hlast, houtcome]
    exact .raise world error

theorem call_iff {op : Op} {next : Reply op → Program Op Reply ε α} :
    Execution step world (.call op next) trace last outcome ↔
      ∃ reply middle rest, step world op reply middle ∧
        trace = ⟨world, op, reply, middle⟩ :: rest ∧
        Execution step middle (next reply) rest last outcome := by
  constructor
  · intro h
    cases h with
    | call made rest => exact ⟨_, _, _, made, rfl, rest⟩
  · intro ⟨reply, middle, rest, hmade, htrace, hrest⟩
    rw [htrace]
    exact .call hmade hrest

/-- An execution of two programs in a row: the first raises, or the second goes on from it. -/
theorem bind_iff {f : α → Program Op Reply ε β} {outcome : Except ε β} :
    Execution step world (program.bind f) trace last outcome ↔
      (∃ error, outcome = .error error ∧ Execution step world program trace last (.error error)) ∨
      ∃ first result middle second, trace = first ++ second ∧
        Execution step world program first middle (.ok result) ∧
        Execution step middle (f result) second last outcome := by
  induction program generalizing world trace with
  | done result =>
    simp only [Program.bind, done_iff]
    constructor
    · intro h
      exact .inr ⟨[], result, world, trace, rfl, ⟨rfl, rfl, rfl⟩, h⟩
    · intro h
      match h with
      | .inl ⟨_, _, _, _, hok⟩ => cases hok
      | .inr ⟨_, _, _, _, htrace, ⟨hfirst, hmiddle, hresult⟩, hsecond⟩ =>
        cases hresult
        rw [hmiddle] at hsecond
        rwa [htrace, hfirst, List.nil_append]
  | raise error =>
    simp only [Program.bind, raise_iff]
    constructor
    · intro ⟨htrace, hlast, houtcome⟩
      exact .inl ⟨error, houtcome, htrace, hlast, rfl⟩
    · intro h
      match h with
      | .inl ⟨_, houtcome, htrace, hlast, herror⟩ =>
        exact ⟨htrace, hlast, houtcome.trans (congrArg Except.error (Except.error.inj herror))⟩
      | .inr ⟨_, _, _, _, _, ⟨_, _, h⟩, _⟩ => cases h
  | call op next ih =>
    simp only [Program.bind, call_iff, ih]
    constructor
    · intro ⟨reply, middle, rest, hmade, htrace, hrest⟩
      match hrest with
      | .inl ⟨error, houtcome, hraised⟩ =>
        exact .inl ⟨error, houtcome, reply, middle, rest, hmade, htrace, hraised⟩
      | .inr ⟨first, result, between, second, happend, hfirst, hsecond⟩ =>
        exact .inr ⟨⟨world, op, reply, middle⟩ :: first, result, between, second,
          by rw [htrace, happend, List.cons_append],
          ⟨reply, middle, first, hmade, rfl, hfirst⟩, hsecond⟩
    · intro h
      match h with
      | .inl ⟨error, houtcome, reply, middle, rest, hmade, htrace, hraised⟩ =>
        exact ⟨reply, middle, rest, hmade, htrace, .inl ⟨error, houtcome, hraised⟩⟩
      | .inr ⟨first, result, between, second, happend,
          ⟨reply, middle, rest, hmade, htrace, hfirst⟩, hsecond⟩ =>
        exact ⟨reply, middle, rest ++ second, hmade,
          by rw [happend, htrace, List.cons_append],
          .inr ⟨rest, result, between, second, rfl, hfirst, hsecond⟩⟩

/-- Two programs in a row return when both do. -/
theorem bind_ok_iff {f : α → Program Op Reply ε β} {result : β} :
    Execution step world (program.bind f) trace last (.ok result) ↔
      ∃ first value middle second, trace = first ++ second ∧
        Execution step world program first middle (.ok value) ∧
        Execution step middle (f value) second last (.ok result) := by
  rw [bind_iff]
  constructor
  · intro h
    match h with
    | .inl ⟨_, herror, _⟩ => cases herror
    | .inr h => exact h
  · exact .inr

@[simp] theorem attempt_iff {outcome : Except η (Except ε α)} :
    Execution step world program.attempt trace last outcome ↔
      ∃ result, outcome = .ok result ∧ Execution step world program trace last result := by
  induction program generalizing world trace with
  | done result =>
    simp only [Program.attempt, done_iff]
    grind
  | raise error =>
    simp only [Program.attempt, done_iff, raise_iff]
    grind
  | call op next ih =>
    simp only [Program.attempt, call_iff, ih]
    constructor
    · intro ⟨reply, middle, rest, hmade, htrace, result, houtcome, hrest⟩
      exact ⟨result, houtcome, reply, middle, rest, hmade, htrace, hrest⟩
    · intro ⟨result, houtcome, reply, middle, rest, hmade, htrace, hrest⟩
      exact ⟨reply, middle, rest, hmade, htrace, result, houtcome, hrest⟩

theorem mapError_iff {f : ε → η} {outcome : Except η α} :
    Execution step world (program.mapError f) trace last outcome ↔
      ∃ result, outcome = result.mapError f ∧ Execution step world program trace last result := by
  induction program generalizing world trace with
  | done result =>
    simp only [Program.mapError, done_iff]
    grind [Except.mapError]
  | raise error =>
    simp only [Program.mapError, raise_iff]
    grind [Except.mapError]
  | call op next ih =>
    simp only [Program.mapError, call_iff, ih]
    constructor
    · intro ⟨reply, middle, rest, hmade, htrace, result, houtcome, hrest⟩
      exact ⟨result, houtcome, reply, middle, rest, hmade, htrace, hrest⟩
    · intro ⟨result, houtcome, reply, middle, rest, hmade, htrace, hrest⟩
      exact ⟨reply, middle, rest, hmade, htrace, result, houtcome, hrest⟩

/-- Two programs in a row, of which the first always returns, with `R`. -/
theorem bind_of_returns {f : α → Program Op Reply ε β} {outcome : Except ε β}
    {R : List (Exchange World Reply) → World → α → Prop}
    (hreturns : ∀ {trace last outcome}, Execution step world program trace last outcome →
      ∃ result, outcome = .ok result ∧ R trace last result)
    (h : Execution step world (program.bind f) trace last outcome) :
    ∃ first result middle second, trace = first ++ second ∧ R first middle result ∧
      Execution step middle (f result) second last outcome := by
  match bind_iff.mp h with
  | .inl ⟨_, _, hraised⟩ =>
    have ⟨_, hok, _⟩ := hreturns hraised
    cases hok
  | .inr ⟨first, result, middle, second, htrace, hfirst, hsecond⟩ =>
    have ⟨_, hok, hR⟩ := hreturns hfirst
    cases hok
    exact ⟨first, result, middle, second, htrace, hR, hsecond⟩

theorem bind_attempt {f : Except ε α → Program Op Reply η β} {outcome : Except η β}
    (h : Execution step world (program.attempt.bind f) trace last outcome) :
    ∃ first result middle second, trace = first ++ second ∧
      Execution step world program first middle result ∧
      Execution step middle (f result) second last outcome :=
  bind_of_returns attempt_iff.mp h

@[simp] theorem ofExcept_iff {result : Except ε α} :
    Execution step world (.ofExcept result) trace last outcome ↔
      trace = [] ∧ last = world ∧ outcome = result := by
  cases result with
  | ok result => exact done_iff
  | error error => exact raise_iff

theorem invoke_iff {Response : Op → Type v}
    {step : World → (op : Op) → Except ε (Response op) → World → Prop} {op : Op}
    {trace : List (Exchange World fun op ↦ Except ε (Response op))}
    {outcome : Except ε (Response op)} :
    Execution step world (.invoke op) trace last outcome ↔
      trace = [⟨world, op, outcome, last⟩] ∧ step world op outcome last := by
  rw [Program.invoke, call_iff]
  constructor
  · intro ⟨reply, middle, rest, hmade, htrace, hrest⟩
    have ⟨hnil, hlast, houtcome⟩ := ofExcept_iff.mp hrest
    rw [htrace, hnil, hlast, houtcome]
    exact ⟨rfl, hmade⟩
  · intro ⟨htrace, hmade⟩
    exact ⟨outcome, last, [], hmade, htrace, ofExcept_iff.mpr ⟨rfl, rfl, rfl⟩⟩

/-- A call which may fail and what follows it: it fails and ends the program, or the program goes on with its
response. -/
theorem invoke_bind {Response : Op → Type v}
    {step : World → (op : Op) → Except ε (Response op) → World → Prop} {op : Op}
    {next : Response op → Program Op (fun op ↦ Except ε (Response op)) ε β}
    {trace : List (Exchange World fun op ↦ Except ε (Response op))} {outcome : Except ε β}
    (h : Execution step world ((Program.invoke op).bind next) trace last outcome) :
    ∃ reply middle rest, step world op reply middle ∧ trace = ⟨world, op, reply, middle⟩ :: rest ∧
      ((∃ error, reply = .error error ∧ rest = [] ∧ last = middle ∧ outcome = .error error) ∨
        ∃ response, reply = .ok response ∧ Execution step middle (next response) rest last outcome) := by
  obtain ⟨reply, middle, rest, hmade, htrace, hrest⟩ := call_iff.mp h
  refine ⟨reply, middle, rest, hmade, htrace, ?_⟩
  cases reply with
  | error error =>
    obtain ⟨hnil, hlast, houtcome⟩ := raise_iff.mp hrest
    exact .inl ⟨error, rfl, hnil, hlast, houtcome⟩
  | ok response => exact .inr ⟨response, rfl, hrest⟩

theorem invoke_bind_ok {Response : Op → Type v}
    {step : World → (op : Op) → Except ε (Response op) → World → Prop} {op : Op}
    {next : Response op → Program Op (fun op ↦ Except ε (Response op)) ε β}
    {trace : List (Exchange World fun op ↦ Except ε (Response op))} {result : β}
    (h : Execution step world ((Program.invoke op).bind next) trace last (.ok result)) :
    ∃ response middle rest, step world op (.ok response) middle ∧
      trace = ⟨world, op, .ok response, middle⟩ :: rest ∧
      Execution step middle (next response) rest last (.ok result) := by
  obtain ⟨reply, middle, rest, hmade, htrace, ⟨error, -, -, -, herror⟩ | ⟨response, rfl, hrest⟩⟩ := invoke_bind h
  · cases herror
  · exact ⟨response, middle, rest, hmade, htrace, hrest⟩

/-- Every error with which a program ends was the reply to a call. -/
def Forwards {Response : Op → Type v} (step : World → (op : Op) → Except ε (Response op) → World → Prop)
    (program : Program Op (fun op ↦ Except ε (Response op)) ε α) : Prop :=
  ∀ world trace last error, Execution step world program trace last (.error error) →
    ∃ exchange ∈ trace, exchange.reply = .error error

section Forwards

variable {Response : Op → Type v} {step : World → (op : Op) → Except ε (Response op) → World → Prop}

theorem Forwards.done (result : α) :
    Forwards step (.done result : Program Op (fun op ↦ Except ε (Response op)) ε α) := by
  intro world trace last error h
  obtain ⟨-, -, herror⟩ := done_iff.mp h
  cases herror

theorem Forwards.invoke (op : Op) : Forwards step (Program.invoke op) := by
  intro world trace last error h
  obtain ⟨htrace, -⟩ := invoke_iff.mp h
  rw [htrace]
  exact ⟨_, List.mem_singleton_self _, rfl⟩

theorem Forwards.bind {program : Program Op (fun op ↦ Except ε (Response op)) ε α}
    {f : α → Program Op (fun op ↦ Except ε (Response op)) ε β} (h : Forwards step program)
    (hf : ∀ result, Forwards step (f result)) : Forwards step (program.bind f) := by
  intro world trace last error hexecution
  obtain ⟨raised, heq, hfirst⟩ | ⟨first, result, middle, second, htrace, -, hsecond⟩ := bind_iff.mp hexecution
  · cases heq
    exact h _ _ _ _ hfirst
  · obtain ⟨exchange, hmem, hreply⟩ := hf result _ _ _ _ hsecond
    exact ⟨exchange, htrace ▸ List.mem_append_right _ hmem, hreply⟩

end Forwards

/-! ## From exchanges to executions -/

/-- Every exchange is a step. -/
theorem step_of_mem (h : Execution step world program trace last outcome) :
    ∀ exchange ∈ trace, step exchange.before exchange.op exchange.reply exchange.after := by
  induction h with
  | done | raise => simp
  | call made rest ih =>
    intro exchange hmem
    match List.mem_cons.mp hmem with
    | .inl heq => rw [heq]; exact made
    | .inr hrest => exact ih exchange hrest

/-- An execution is one of any steps which all its exchanges are. -/
theorem of_steps {step' : World → (op : Op) → Reply op → World → Prop}
    (h : Execution step world program trace last outcome)
    (hall : ∀ exchange ∈ trace, step' exchange.before exchange.op exchange.reply exchange.after) :
    Execution step' world program trace last outcome := by
  induction h with
  | done world result => exact .done world result
  | raise world error => exact .raise world error
  | call made rest ih =>
    have ⟨hfirst, hrest⟩ := List.forall_mem_cons.mp hall
    exact .call hfirst (ih hrest)

/-- When all exchanges have a property, the steps may be taken to have it. -/
theorem restrict {P : Exchange World Reply → Prop}
    (h : Execution step world program trace last outcome) (hall : ∀ exchange ∈ trace, P exchange) :
    Execution (fun world op reply after ↦ step world op reply after ∧ P ⟨world, op, reply, after⟩)
      world program trace last outcome :=
  h.of_steps fun exchange hmem ↦ ⟨h.step_of_mem exchange hmem, hall exchange hmem⟩

/-- What holds in the last world, but did not in the first, came with some exchange. -/
theorem exists_change {P : World → Prop} (h : Execution step world program trace last outcome)
    (hworld : ¬ P world) (hlast : P last) :
    ∃ exchange ∈ trace, ¬ P exchange.before ∧ P exchange.after := by
  induction h with
  | done | raise => exact absurd hlast hworld
  | @call world middle last op reply next trace outcome made rest ih =>
    by_cases hmiddle : P middle
    · exact ⟨⟨world, op, reply, middle⟩, List.mem_cons_self, hworld, hmiddle⟩
    · have ⟨exchange, hmem, hchange⟩ := ih hmiddle hlast
      exact ⟨exchange, List.mem_cons_of_mem _ hmem, hchange⟩

/-- What no exchange ends holds after every exchange, if it held in the first world. -/
theorem always {P : World → Prop} (h : Execution step world program trace last outcome)
    (hkeeps : ∀ exchange ∈ trace, P exchange.before → P exchange.after) (hworld : P world) :
    ∀ exchange ∈ trace, P exchange.after := by
  induction h with
  | done | raise => simp
  | call made rest ih =>
    have ⟨hfirst, hrest⟩ := List.forall_mem_cons.mp hkeeps
    exact List.forall_mem_cons.mpr ⟨hfirst hworld, ih hrest (hfirst hworld)⟩

/-- What no exchange ends holds in the last world, if it held in the first one. -/
theorem persists {P : World → Prop} (h : Execution step world program trace last outcome)
    (hkeeps : ∀ exchange ∈ trace, P exchange.before → P exchange.after) (hworld : P world) :
    P last := by
  by_contra hlast
  have ⟨exchange, hmem, hbefore, hafter⟩ :=
    h.exists_change (P := fun world ↦ ¬ P world) (not_not_intro hworld) hlast
  exact hafter (hkeeps exchange hmem (not_not.mp hbefore))

/-- What no exchange ends holds in the last world, if it held after some exchange. -/
theorem persists_from {P : World → Prop} (h : Execution step world program trace last outcome)
    (hkeeps : ∀ exchange ∈ trace, P exchange.before → P exchange.after)
    {exchange : Exchange World Reply} (hmem : exchange ∈ trace) (hafter : P exchange.after) :
    P last := by
  induction h with
  | done | raise => exact absurd hmem List.not_mem_nil
  | call made rest ih =>
    have hrest := fun exchange hmem ↦ hkeeps exchange (List.mem_cons_of_mem _ hmem)
    match List.mem_cons.mp hmem with
    | .inl heq =>
      rw [heq] at hafter
      exact rest.persists hrest hafter
    | .inr hmem => exact ih hrest hmem

end Execution

/-! ## The calls of a program -/

/-- The monitor which only says which calls are allowed. -/
def Monitor.still (allowed : Op → Prop) : Monitor Op Reply PUnit where
  allowed _ op := allowed op
  sent state _ := state
  heard state _ _ := state

/-- All calls of a program are allowed, along any replies. -/
def Program.Calls (allowed : Op → Prop) (program : Program Op Reply ε α) : Prop :=
  program.Obeys (Monitor.still allowed) (fun _ _ ↦ True) (fun _ _ ↦ True) ⟨⟩

namespace Program.Calls

variable {allowed : Op → Prop} {program : Program Op Reply ε α}

theorem done (result : α) : (.done result : Program Op Reply ε α).Calls allowed := trivial

theorem raise (error : ε) : (.raise error : Program Op Reply ε α).Calls allowed := trivial

theorem call {op : Op} {next : Reply op → Program Op Reply ε α} (hop : allowed op)
    (hnext : ∀ reply, (next reply).Calls allowed) : (Program.call op next).Calls allowed :=
  ⟨hop, hnext⟩

theorem ofExcept (result : Except ε α) :
    (.ofExcept result : Program Op Reply ε α).Calls allowed := by
  cases result with
  | ok | error => trivial

theorem invoke {Response : Op → Type v} {op : Op} (hop : allowed op) :
    (.invoke op : Program Op (fun op ↦ Except ε (Response op)) ε (Response op)).Calls allowed :=
  .call hop .ofExcept

theorem bind {f : α → Program Op Reply ε β} (h : program.Calls allowed)
    (hf : ∀ result, (f result).Calls allowed) : (program.bind f).Calls allowed :=
  Obeys.bind h fun _ result _ ↦ hf result

theorem mapError (f : ε → η) (h : program.Calls allowed) : (program.mapError f).Calls allowed :=
  Obeys.mapError h fun _ _ _ ↦ trivial

theorem attempt (h : program.Calls allowed) :
    (program.attempt : Program Op Reply η _).Calls allowed := by
  induction program with
  | done | raise => trivial
  | call op next ih => exact ⟨h.1, fun reply ↦ ih reply (h.2 reply)⟩

theorem mono {allowed' : Op → Prop} (h : program.Calls allowed)
    (hallowed : ∀ op, allowed op → allowed' op) : program.Calls allowed' := by
  induction program with
  | done | raise => trivial
  | call op next ih => exact ⟨hallowed op h.1, fun reply ↦ ih reply (h.2 reply)⟩

theorem mem_trace {step : World → (op : Op) → Reply op → World → Prop} {world last : World}
    {trace : List (Exchange World Reply)} {outcome : Except ε α} (h : program.Calls allowed)
    (hexecution : Execution step world program trace last outcome) :
    ∀ exchange ∈ trace, allowed exchange.op := by
  induction hexecution with
  | done | raise => simp
  | call made rest ih =>
    intro exchange hmem
    match List.mem_cons.mp hmem with
    | .inl heq => rw [heq]; exact h.1
    | .inr hmem => exact ih (h.2 _) exchange hmem

end Program.Calls

/-! ## Programs which may rely on their replies -/

/-- All calls of a program are allowed along replies which are honest, and a result is as stated. -/
def Program.Within (honest : (op : Op) → Reply op → Prop) (allowed : Op → Prop)
    (returns : α → Prop) : Program Op Reply ε α → Prop
  | .done result => returns result
  | .raise _ => True
  | .call op next => allowed op ∧ ∀ reply, honest op reply → (next reply).Within honest allowed returns

namespace Program.Within

variable {honest : (op : Op) → Reply op → Prop} {allowed : Op → Prop} {returns : α → Prop}
  {program : Program Op Reply ε α}

theorem done {result : α} (h : returns result) :
    (.done result : Program Op Reply ε α).Within honest allowed returns := h

theorem raise (error : ε) : (.raise error : Program Op Reply ε α).Within honest allowed returns :=
  trivial

theorem call {op : Op} {next : Reply op → Program Op Reply ε α} (hop : allowed op)
    (hnext : ∀ reply, honest op reply → (next reply).Within honest allowed returns) :
    (Program.call op next).Within honest allowed returns := ⟨hop, hnext⟩

theorem bind {f : α → Program Op Reply ε β} {returns' : β → Prop}
    (h : program.Within honest allowed returns)
    (hf : ∀ result, returns result → (f result).Within honest allowed returns') :
    (program.bind f).Within honest allowed returns' := by
  induction program with
  | done result => exact hf result h
  | raise error => trivial
  | call op next ih => exact ⟨h.1, fun reply hreply ↦ ih reply (h.2 reply hreply)⟩

theorem attempt (h : program.Within honest allowed returns) :
    (program.attempt : Program Op Reply η _).Within honest allowed
      fun outcome ↦ ∀ result, outcome = .ok result → returns result := by
  induction program with
  | done result =>
    intro value hvalue
    exact Except.ok.inj hvalue ▸ h
  | raise error =>
    intro value hvalue
    cases hvalue
  | call op next ih => exact ⟨h.1, fun reply hreply ↦ ih reply (h.2 reply hreply)⟩

theorem mono {returns' : α → Prop} (h : program.Within honest allowed returns)
    (hreturns : ∀ result, returns result → returns' result) :
    program.Within honest allowed returns' := by
  induction program with
  | done result => exact hreturns result h
  | raise error => trivial
  | call op next ih => exact ⟨h.1, fun reply hreply ↦ ih reply (h.2 reply hreply)⟩

theorem ofExcept {result : Except ε α} (h : ∀ value, result = .ok value → returns value) :
    (.ofExcept result : Program Op Reply ε α).Within honest allowed returns := by
  cases result with
  | ok value => exact h value rfl
  | error error => trivial

theorem all (program : Program Op Reply ε α) :
    program.Within (fun _ _ ↦ True) (fun _ ↦ True) fun _ ↦ True := by
  induction program with
  | done | raise => trivial
  | call op next ih => exact ⟨trivial, fun reply _ ↦ ih reply⟩

/-- In a world whose replies are honest, a result is as stated. -/
theorem returns_result {step : World → (op : Op) → Reply op → World → Prop} {world last : World}
    {trace : List (Exchange World Reply)} {result : α} (h : program.Within honest allowed returns)
    (hhonest : ∀ world op reply after, step world op reply after → honest op reply)
    (hexecution : Execution step world program trace last (.ok result)) : returns result := by
  induction program generalizing world trace with
  | done value =>
    have ⟨_, _, hvalue⟩ := Execution.done_iff.mp hexecution
    exact Except.ok.inj hvalue ▸ h
  | raise error =>
    have ⟨_, _, herror⟩ := Execution.raise_iff.mp hexecution
    cases herror
  | call op next ih =>
    have ⟨reply, middle, rest, hmade, _, hrest⟩ := Execution.call_iff.mp hexecution
    exact ih reply (h.2 reply (hhonest _ _ _ _ hmade)) hrest

/-- In a world whose replies are honest, all calls are allowed. -/
theorem mem_trace {step : World → (op : Op) → Reply op → World → Prop} {world last : World}
    {trace : List (Exchange World Reply)} {outcome : Except ε α}
    (h : program.Within honest allowed returns)
    (hhonest : ∀ world op reply after, step world op reply after → honest op reply)
    (hexecution : Execution step world program trace last outcome) :
    ∀ exchange ∈ trace, allowed exchange.op := by
  induction hexecution with
  | done | raise => simp
  | call made rest ih =>
    intro exchange hmem
    match List.mem_cons.mp hmem with
    | .inl heq => rw [heq]; exact h.1
    | .inr hmem => exact ih (h.2 _ (hhonest _ _ _ _ made)) exchange hmem

end Program.Within

/-! ## Fixed answers -/

/-- What a program does when every call always gets the same answer. -/
def Program.play (answer : (op : Op) → Reply op) :
    Program Op Reply ε α → List Op × Except ε α
  | .done result => ([], .ok result)
  | .raise error => ([], .error error)
  | .call op next => (op :: ((next (answer op)).play answer).1, ((next (answer op)).play answer).2)

section Play

variable {answer : (op : Op) → Reply op}

@[simp] theorem Program.play_done (result : α) :
    (.done result : Program Op Reply ε α).play answer = ([], .ok result) := rfl

@[simp] theorem Program.play_raise (error : ε) :
    (.raise error : Program Op Reply ε α).play answer = ([], .error error) := rfl

@[simp] theorem Program.play_call (op : Op) (next : Reply op → Program Op Reply ε α) :
    (Program.call op next).play answer =
      (op :: ((next (answer op)).play answer).1, ((next (answer op)).play answer).2) := rfl

@[simp] theorem Program.play_bind (program : Program Op Reply ε α)
    (f : α → Program Op Reply ε β) :
    (program.bind f).play answer =
      match (program.play answer).2 with
      | .ok result =>
        ((program.play answer).1 ++ ((f result).play answer).1, ((f result).play answer).2)
      | .error error => ((program.play answer).1, .error error) := by
  induction program with
  | done result => rfl
  | raise error => rfl
  | call op next ih =>
    rw [Program.bind, play_call, ih (answer op), play_call]
    cases ((next (answer op)).play answer).2 with
    | ok result => rfl
    | error error => rfl

@[simp] theorem Program.play_attempt (program : Program Op Reply ε α) :
    (program.attempt : Program Op Reply η _).play answer =
      ((program.play answer).1, .ok (program.play answer).2) := by
  induction program with
  | done result => rfl
  | raise error => rfl
  | call op next ih => rw [Program.attempt, play_call, ih (answer op), play_call]

@[simp] theorem Program.play_ofExcept (result : Except ε α) :
    (.ofExcept result : Program Op Reply ε α).play answer = ([], result) := by
  cases result with
  | ok | error => rfl

theorem Program.mem_play_bind_left {op : Op} {program : Program Op Reply ε α}
    {f : α → Program Op Reply ε β} (h : op ∈ (program.play answer).1) :
    op ∈ ((program.bind f).play answer).1 := by
  rw [play_bind]
  split
  · exact List.mem_append_left _ h
  · exact h

theorem Program.mem_play_bind_right {op : Op} {program : Program Op Reply ε α}
    {f : α → Program Op Reply ε β} {result : α} (hresult : (program.play answer).2 = .ok result)
    (h : op ∈ ((f result).play answer).1) : op ∈ ((program.bind f).play answer).1 := by
  rw [play_bind, hresult]
  exact List.mem_append_right _ h

/-- Answers which are steps from every world of a kind to one of that kind make an execution. -/
theorem Program.exists_execution {step : World → (op : Op) → Reply op → World → Prop}
    {Inv : World → Prop}
    (hstep : ∀ world, Inv world → ∀ op, ∃ after, step world op (answer op) after ∧ Inv after)
    (program : Program Op Reply ε α) {world : World} (hworld : Inv world) :
    ∃ trace last, Execution step world program trace last (program.play answer).2 ∧ Inv last ∧
      trace.map Exchange.op = (program.play answer).1 := by
  induction program generalizing world with
  | done result => exact ⟨[], world, .done world result, hworld, rfl⟩
  | raise error => exact ⟨[], world, .raise world error, hworld, rfl⟩
  | call op next ih =>
    have ⟨middle, hmade, hmiddle⟩ := hstep world hworld op
    have ⟨trace, last, hexecution, hlast, hops⟩ := ih (answer op) hmiddle
    exact ⟨⟨world, op, answer op, middle⟩ :: trace, last, .call hmade hexecution, hlast,
      by rw [List.map_cons, hops, play_call]⟩

/-- What a program does in a world which moves with each call, when every call always gets the same
answer. -/
def Program.simulate (answer : (op : Op) → Reply op) (move : World → Op → World) :
    World → Program Op Reply ε α → List (Exchange World Reply) × World × Except ε α
  | world, .done result => ([], world, .ok result)
  | world, .raise error => ([], world, .error error)
  | world, .call op next =>
    let (trace, outcome) := (next (answer op)).simulate answer move (move world op)
    (⟨world, op, answer op, move world op⟩ :: trace, outcome)

/-- It is an execution when the world may move so. -/
theorem Program.execution_simulate {step : World → (op : Op) → Reply op → World → Prop}
    {move : World → Op → World} (hstep : ∀ world op, step world op (answer op) (move world op))
    (program : Program Op Reply ε α) (world : World) :
    Execution step world program (program.simulate answer move world).1
      (program.simulate answer move world).2.1 (program.simulate answer move world).2.2 := by
  induction program generalizing world with
  | done result => exact .done world result
  | raise error => exact .raise world error
  | call op next ih => exact .call (hstep world op) (ih (answer op) (move world op))

/-- The run of a program in a world which answers by what it has seen. -/
def Program.interpret (respond : World → (op : Op) → Reply op × World) :
    World → Program Op Reply ε α → List (Exchange World Reply) × World × Except ε α
  | world, .done result => ([], world, .ok result)
  | world, .raise error => ([], world, .error error)
  | world, .call op next =>
    let (reply, middle) := respond world op
    let (trace, last, outcome) := (next reply).interpret respond middle
    (⟨world, op, reply, middle⟩ :: trace, last, outcome)

theorem Program.execution_interpret (respond : World → (op : Op) → Reply op × World)
    (program : Program Op Reply ε α) (world : World) :
    Execution (fun before op reply after ↦ respond before op = (reply, after)) world program
      (program.interpret respond world).1 (program.interpret respond world).2.1 (program.interpret respond world).2.2 := by
  induction program generalizing world with
  | done result => exact .done world result
  | raise error => exact .raise world error
  | call op next ih => exact .call rfl (ih _ _)

end Play

/-! ## Monitored executions -/

section Monitored

variable {σ : Type v} {monitor : Monitor Op Reply σ}

/-- The state of a monitor after an exchange. -/
def Monitor.after (monitor : Monitor Op Reply σ) (state : σ) (exchange : Exchange World Reply) : σ :=
  monitor.heard (monitor.sent state exchange.op) exchange.op exchange.reply

/-- The state of a monitor after a trace. -/
def Monitor.along (monitor : Monitor Op Reply σ) (state : σ) (trace : List (Exchange World Reply)) : σ :=
  trace.foldl monitor.after state

/-- Each call of a trace is allowed in the state in which it is made. -/
def Monitor.Permits (monitor : Monitor Op Reply σ) : σ → List (Exchange World Reply) → Prop
  | _, [] => True
  | state, exchange :: rest =>
    monitor.allowed state exchange.op ∧ monitor.Permits (monitor.after state exchange) rest

/-- The executions of a program which obeys a monitor are permitted, and end as stated. -/
theorem Program.Obeys.execution {R : σ → α → Prop} {E : σ → ε → Prop} {state : σ}
    {program : Program Op Reply ε α} {step : World → (op : Op) → Reply op → World → Prop}
    {world last : World} {trace : List (Exchange World Reply)} {outcome : Except ε α}
    (h : program.Obeys monitor R E state)
    (hexecution : Execution step world program trace last outcome) :
    monitor.Permits state trace ∧
      (∀ result, outcome = .ok result → R (monitor.along state trace) result) ∧
      ∀ error, outcome = .error error → E (monitor.along state trace) error := by
  induction hexecution generalizing state with
  | done world result => exact ⟨trivial, fun _ heq ↦ Except.ok.inj heq ▸ h, fun _ heq ↦ (nomatch heq)⟩
  | raise world error =>
    exact ⟨trivial, fun _ heq ↦ (nomatch heq), fun _ heq ↦ Except.error.inj heq ▸ h⟩
  | call made rest ih =>
    have ⟨hpermits, hreturns, hraises⟩ := ih (h.2 _)
    exact ⟨⟨h.1, hpermits⟩, hreturns, hraises⟩

/-- Calls of a kind which a property of the states survives are obeyed with that property. -/
theorem Program.Calls.obeys {allowed : Op → Prop} {I : σ → Prop} {program : Program Op Reply ε α}
    (h : program.Calls allowed)
    (hstep : ∀ state op, I state → allowed op → monitor.allowed state op ∧
      ∀ reply, I (monitor.heard (monitor.sent state op) op reply))
    {state : σ} (hstate : I state) :
    program.Obeys monitor (fun state _ ↦ I state) (fun state _ ↦ I state) state := by
  induction program generalizing state with
  | done result => exact hstate
  | raise error => exact hstate
  | call op next ih =>
    have ⟨hallowed, hreply⟩ := hstep state op hstate h.1
    exact ⟨hallowed, fun reply ↦ ih reply (h.2 reply) (hreply reply)⟩

/-- Whatever is asked for by an exchange is settled by a later one. -/
def Answered {ι : Type u} (asks settles : Exchange World Reply → ι → Prop)
    (trace : List (Exchange World Reply)) : Prop :=
  ∀ earlier exchange rest, trace = earlier ++ exchange :: rest →
    ∀ i, asks exchange i → ∃ later ∈ rest, settles later i

/-- An obligation which the end does not have was settled, if only what settles it ends it. -/
theorem Monitor.Permits.exists_settled {O : σ → Prop} {settles : Exchange World Reply → Prop}
    {state : σ} {trace : List (Exchange World Reply)} (h : monitor.Permits state trace)
    (hkeep : ∀ exchange ∈ trace, ∀ state, O state → monitor.allowed state exchange.op →
      ¬ settles exchange → O (monitor.after state exchange))
    (howes : O state) (hlast : ¬ O (monitor.along state trace)) :
    ∃ exchange ∈ trace, settles exchange := by
  induction trace generalizing state with
  | nil => exact absurd howes hlast
  | cons exchange rest ih =>
    by_cases hsettles : settles exchange
    · exact ⟨exchange, List.mem_cons_self, hsettles⟩
    · have hafter := hkeep exchange List.mem_cons_self state howes h.1 hsettles
      have ⟨later, hmem, hlater⟩ := ih h.2
        (fun later hmem ↦ hkeep later (List.mem_cons_of_mem _ hmem)) hafter hlast
      exact ⟨later, List.mem_cons_of_mem _ hmem, hlater⟩

theorem Monitor.Permits.of_append {state : σ} {earlier rest : List (Exchange World Reply)}
    (h : monitor.Permits state (earlier ++ rest)) : monitor.Permits (monitor.along state earlier) rest := by
  induction earlier generalizing state with
  | nil => exact h
  | cons first others ih => exact ih h.2

/-- What a call needs was settled before it, if only what settles it ends the lack of it. -/
theorem Monitor.Permits.preceded {O : σ → Prop} {settles : Exchange World Reply → Prop} {state : σ}
    {earlier rest : List (Exchange World Reply)} {exchange : Exchange World Reply}
    (h : monitor.Permits state (earlier ++ exchange :: rest))
    (hkeep : ∀ exchange ∈ earlier, ∀ state, O state → monitor.allowed state exchange.op →
      ¬ settles exchange → O (monitor.after state exchange))
    (hlacks : O state) (hneeds : ∀ state, monitor.allowed state exchange.op → ¬ O state) :
    ∃ exchange ∈ earlier, settles exchange := by
  induction earlier generalizing state with
  | nil => exact absurd hlacks (hneeds state h.1)
  | cons first others ih =>
    by_cases hsettles : settles first
    · exact ⟨first, List.mem_cons_self, hsettles⟩
    · have hafter := hkeep first List.mem_cons_self state hlacks h.1 hsettles
      have ⟨later, hmem, hlater⟩ := ih h.2
        (fun later hmem ↦ hkeep later (List.mem_cons_of_mem _ hmem)) hafter
      exact ⟨later, List.mem_cons_of_mem _ hmem, hlater⟩

/-- What is asked for is answered when it is owed from then on until it is settled, and nothing is owed
at the end. The states may have a property which each exchange keeps. -/
theorem Monitor.Permits.answered {ι : Type u} {asks settles : Exchange World Reply → ι → Prop}
    {I : σ → Prop} {O : ι → σ → Prop} {state : σ} {trace : List (Exchange World Reply)}
    (h : monitor.Permits state trace)
    (hinv : ∀ exchange ∈ trace, ∀ state, I state → monitor.allowed state exchange.op →
      I (monitor.after state exchange))
    (hasks : ∀ exchange ∈ trace, ∀ state i, I state → monitor.allowed state exchange.op →
      asks exchange i → O i (monitor.after state exchange))
    (hkeep : ∀ exchange ∈ trace, ∀ state i, O i state → monitor.allowed state exchange.op →
      ¬ settles exchange i → O i (monitor.after state exchange))
    (hstate : I state) (hlast : ∀ i, ¬ O i (monitor.along state trace)) :
    Answered asks settles trace := by
  induction trace generalizing state with
  | nil =>
    intro earlier exchange rest htrace
    cases earlier <;> cases htrace
  | cons first others ih =>
    intro earlier exchange rest htrace i hask
    match earlier, htrace with
    | [], htrace =>
      have ⟨hfirst, hothers⟩ := List.cons.inj htrace
      rw [← hothers]
      rw [← hfirst] at hask
      exact h.2.exists_settled (fun later hmem state ↦ hkeep later (List.mem_cons_of_mem _ hmem) state i)
        (hasks first List.mem_cons_self state i hstate h.1 hask) (hlast i)
    | _ :: earlier, htrace =>
      have ⟨_, hothers⟩ := List.cons.inj htrace
      exact ih h.2 (fun later hmem ↦ hinv later (List.mem_cons_of_mem _ hmem))
        (fun later hmem ↦ hasks later (List.mem_cons_of_mem _ hmem))
        (fun later hmem ↦ hkeep later (List.mem_cons_of_mem _ hmem))
        (hinv first List.mem_cons_self state hstate h.1) hlast earlier exchange rest hothers i hask

/-- What each allowed exchange keeps of the states and the worlds holds at the end. -/
theorem Monitor.Permits.invariant {I : σ → World → Prop} {state : σ}
    {program : Program Op Reply ε α} {step : World → (op : Op) → Reply op → World → Prop}
    {world last : World} {trace : List (Exchange World Reply)} {outcome : Except ε α}
    (h : monitor.Permits state trace)
    (hexecution : Execution step world program trace last outcome)
    (hkeep : ∀ exchange ∈ trace, ∀ state, I state exchange.before →
      monitor.allowed state exchange.op →
      step exchange.before exchange.op exchange.reply exchange.after →
      I (monitor.after state exchange) exchange.after)
    (hworld : I state world) : I (monitor.along state trace) last := by
  induction hexecution generalizing state with
  | done world result => exact hworld
  | raise world error => exact hworld
  | call made rest ih =>
    have hfirst := hkeep _ List.mem_cons_self state hworld h.1 made
    exact ih h.2 (fun later hmem ↦ hkeep later (List.mem_cons_of_mem _ hmem)) hfirst

/-- What each allowed exchange keeps of the states holds where an exchange of the trace is made. -/
theorem Monitor.Permits.forall_mem {I : σ → Prop} {P : Exchange World Reply → Prop} {state : σ}
    {trace : List (Exchange World Reply)} (h : monitor.Permits state trace)
    (hinv : ∀ exchange ∈ trace, ∀ state, I state → monitor.allowed state exchange.op →
      I (monitor.after state exchange))
    (hP : ∀ exchange ∈ trace, ∀ state, I state → monitor.allowed state exchange.op → P exchange)
    (hstate : I state) : ∀ exchange ∈ trace, P exchange := by
  induction trace generalizing state with
  | nil => simp
  | cons first others ih =>
    have hrest := ih h.2 (fun later hmem ↦ hinv later (List.mem_cons_of_mem _ hmem))
      (fun later hmem ↦ hP later (List.mem_cons_of_mem _ hmem))
      (hinv first List.mem_cons_self state hstate h.1)
    exact List.forall_mem_cons.mpr ⟨hP first List.mem_cons_self state hstate h.1, hrest⟩

end Monitored

end IsvValidation.Library
