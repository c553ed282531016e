import Mathlib.Data.List.Forall2
import IsvValidation.Library.Execution

/-!
# Programs and scripts

A script is a list of calls, each with what is expected of its reply. An execution follows a script when it
makes these calls and gets such replies, and a program plays a script to an outcome when such replies lead it
through these calls to that outcome. Scripts are put together along the structure of programs.
-/

namespace IsvValidation.Library

universe u v w

/-- A call, and what is expected of its reply. -/
structure Cue (Op : Type u) (Reply : Type v) where
  op : Op
  expects : Reply → Prop

variable {World : Type w} {Op : Type u} {Reply ε η α β : Type v}

/-- A trace makes the calls of a script, and their replies are as expected. -/
def Follows (script : List (Cue Op Reply)) (trace : List (Exchange World fun _ : Op ↦ Reply)) : Prop :=
  List.Forall₂ (fun cue exchange ↦ exchange.op = cue.op ∧ cue.expects exchange.reply) script trace

namespace Follows

variable {script others : List (Cue Op Reply)} {trace rest : List (Exchange World fun _ : Op ↦ Reply)}

@[simp] theorem nil_iff : Follows [] trace ↔ trace = [] := List.forall₂_nil_left_iff

theorem cons {cue : Cue Op Reply} {exchange : Exchange World fun _ : Op ↦ Reply} (hop : exchange.op = cue.op)
    (hreply : cue.expects exchange.reply) (hrest : Follows script rest) :
    Follows (cue :: script) (exchange :: rest) := List.Forall₂.cons ⟨hop, hreply⟩ hrest

theorem append (h : Follows script trace) (hrest : Follows others rest) :
    Follows (script ++ others) (trace ++ rest) := List.rel_append h hrest

end Follows

/-! ## Calls whose replies are read -/

/-- Make a call, and read its reply. -/
def Program.demand (op : Op) (read : Reply → Except ε α) : Program Op (fun _ ↦ Reply) ε α :=
  .call op fun reply ↦ .ofExcept (read reply)

section Demand

variable {step : World → Op → Reply → World → Prop} {world last : World} {op : Op} {read : Reply → Except ε α}
  {trace : List (Exchange World fun _ : Op ↦ Reply)}

theorem Execution.demand_iff {outcome : Except ε α} :
    Execution step world (.demand op read) trace last outcome ↔
      ∃ reply, trace = [⟨world, op, reply, last⟩] ∧ step world op reply last ∧ outcome = read reply := by
  rw [Program.demand, call_iff]
  constructor
  · rintro ⟨reply, middle, rest, hmade, rfl, hrest⟩
    obtain ⟨rfl, rfl, rfl⟩ := ofExcept_iff.mp hrest
    exact ⟨reply, rfl, hmade, rfl⟩
  · rintro ⟨reply, rfl, hmade, rfl⟩
    exact ⟨reply, last, [], hmade, rfl, ofExcept_iff.mpr ⟨rfl, rfl, rfl⟩⟩

theorem Execution.demand_bind {next : α → Program Op (fun _ ↦ Reply) ε β} {outcome : Except ε β}
    (h : Execution step world ((Program.demand op read).bind next) trace last outcome) :
    ∃ reply middle rest, step world op reply middle ∧ trace = ⟨world, op, reply, middle⟩ :: rest ∧
      ((∃ error, read reply = .error error ∧ rest = [] ∧ last = middle ∧ outcome = .error error) ∨
        ∃ result, read reply = .ok result ∧ Execution step middle (next result) rest last outcome) := by
  obtain ⟨reply, middle, rest, hmade, rfl, hrest⟩ := call_iff.mp h
  refine ⟨reply, middle, rest, hmade, rfl, ?_⟩
  simp only at hrest
  cases hread : read reply with
  | error error =>
    rw [hread] at hrest
    obtain ⟨hnil, hlast, houtcome⟩ := raise_iff.mp hrest
    exact .inl ⟨error, rfl, hnil, hlast, houtcome⟩
  | ok result =>
    rw [hread] at hrest
    exact .inr ⟨result, rfl, hrest⟩

theorem Execution.demand_bind_ok {next : α → Program Op (fun _ ↦ Reply) ε β} {result : β}
    (h : Execution step world ((Program.demand op read).bind next) trace last (.ok result)) :
    ∃ reply value middle rest, trace = ⟨world, op, reply, middle⟩ :: rest ∧ read reply = .ok value ∧
      Execution step middle (next value) rest last (.ok result) := by
  obtain ⟨reply, middle, rest, -, htrace, ⟨error, -, -, -, herror⟩ | ⟨value, hread, hrest⟩⟩ := demand_bind h
  · cases herror
  · exact ⟨reply, value, middle, rest, htrace, hread, hrest⟩

theorem Program.Calls.demand {allowed : Op → Prop} (hop : allowed op) :
    (Program.demand op read).Calls allowed :=
  .call hop fun _ ↦ .ofExcept _

theorem Program.obeys_demand {σ : Type v} {monitor : Monitor Op (fun _ ↦ Reply) σ} {R : σ → α → Prop}
    {E : σ → ε → Prop} {state : σ} (hop : monitor.allowed state op)
    (hreturns : ∀ reply result, read reply = .ok result → R (monitor.heard (monitor.sent state op) op reply) result)
    (hraises : ∀ reply error, read reply = .error error →
      E (monitor.heard (monitor.sent state op) op reply) error) :
    (Program.demand op read).Obeys monitor R E state :=
  ⟨hop, fun reply ↦ obeys_ofExcept (hreturns reply) (hraises reply)⟩

end Demand

/-! ## Playing a script -/

/-- Replies which are as expected lead a program through the calls of a script to an outcome. -/
def Program.Plays : Program Op (fun _ ↦ Reply) ε α → List (Cue Op Reply) → Except ε α → Prop
  | .done result, script, outcome => script = [] ∧ outcome = .ok result
  | .raise error, script, outcome => script = [] ∧ outcome = .error error
  | .call op next, script, outcome => ∃ expects rest, script = ⟨op, expects⟩ :: rest ∧
      ∀ reply, expects reply → (next reply).Plays rest outcome

namespace Program.Plays

variable {program : Program Op (fun _ ↦ Reply) ε α} {script others : List (Cue Op Reply)} {outcome : Except ε α}

theorem done (result : α) : (.done result : Program Op (fun _ ↦ Reply) ε α).Plays [] (.ok result) := ⟨rfl, rfl⟩

theorem ofExcept (outcome : Except ε α) :
    (.ofExcept outcome : Program Op (fun _ ↦ Reply) ε α).Plays [] outcome := by
  cases outcome with
  | ok result => exact ⟨rfl, rfl⟩
  | error error => exact ⟨rfl, rfl⟩

theorem demand {op : Op} {read : Reply → Except ε α} {expects : Reply → Prop}
    (h : ∀ reply, expects reply → read reply = outcome) : (demand op read).Plays [⟨op, expects⟩] outcome :=
  ⟨expects, [], rfl, fun reply hreply ↦ h reply hreply ▸ .ofExcept _⟩

theorem bind {f : α → Program Op (fun _ ↦ Reply) ε β} {result : α} {outcome : Except ε β}
    (h : program.Plays script (.ok result)) (hf : (f result).Plays others outcome) :
    (program.bind f).Plays (script ++ others) outcome := by
  induction program generalizing script with
  | done value =>
    obtain ⟨rfl, heq⟩ := h
    exact Except.ok.inj heq ▸ hf
  | raise error =>
    obtain ⟨-, heq⟩ := h
    cases heq
  | call op next ih =>
    obtain ⟨expects, rest, rfl, hnext⟩ := h
    exact ⟨expects, rest ++ others, rfl, fun reply hreply ↦ ih reply (hnext reply hreply)⟩

theorem attempt (h : program.Plays script outcome) :
    (program.attempt : Program Op (fun _ ↦ Reply) η _).Plays script (.ok outcome) := by
  induction program generalizing script with
  | done value =>
    obtain ⟨rfl, rfl⟩ := h
    exact .done _
  | raise error =>
    obtain ⟨rfl, rfl⟩ := h
    exact .done _
  | call op next ih =>
    obtain ⟨expects, rest, rfl, hnext⟩ := h
    exact ⟨expects, rest, rfl, fun reply hreply ↦ ih reply (hnext reply hreply)⟩

theorem mapError {f : ε → η} (h : program.Plays script outcome) :
    (program.mapError f).Plays script (outcome.mapError f) := by
  induction program generalizing script with
  | done value =>
    obtain ⟨rfl, rfl⟩ := h
    exact .done _
  | raise error =>
    obtain ⟨rfl, rfl⟩ := h
    exact ⟨rfl, rfl⟩
  | call op next ih =>
    obtain ⟨expects, rest, rfl, hnext⟩ := h
    exact ⟨expects, rest, rfl, fun reply hreply ↦ ih reply (hnext reply hreply)⟩

/-- An execution which follows a script ends as the program plays it. -/
theorem outcome_eq {step : World → Op → Reply → World → Prop} {world last : World}
    {trace : List (Exchange World fun _ : Op ↦ Reply)} {found : Except ε α} (h : program.Plays script outcome)
    (hexecution : Execution step world program trace last found) (hfollows : Follows script trace) :
    found = outcome := by
  induction hexecution generalizing script with
  | done world result => exact h.2.symm
  | raise world error => exact h.2.symm
  | call made rest ih =>
    obtain ⟨expects, others, rfl, hnext⟩ := h
    obtain ⟨⟨-, hreply⟩, hrest⟩ := List.forall₂_cons.mp hfollows
    exact ih (hnext _ hreply) hrest

end Program.Plays

/-! ## The scripts of a program -/

/-- A program returns by these scripts: where it returns it has followed one of them, and replies as expected
lead it through each of them. -/
structure Program.Returns (step : World → Op → Reply → World → Prop) (program : Program Op (fun _ ↦ Reply) ε α)
    (scripts : α → List (Cue Op Reply) → Prop) : Prop where
  follows : ∀ {world last : World} {trace : List (Exchange World fun _ : Op ↦ Reply)} {result : α},
    Execution step world program trace last (.ok result) → ∃ script, scripts result script ∧ Follows script trace
  plays : ∀ {result : α} {script : List (Cue Op Reply)}, scripts result script → program.Plays script (.ok result)

namespace Program.Returns

variable {step : World → Op → Reply → World → Prop} {program : Program Op (fun _ ↦ Reply) ε α}
  {scripts : α → List (Cue Op Reply) → Prop}

/-- The scripts may be described in another way. -/
theorem congr (h : program.Returns step scripts) {others : α → List (Cue Op Reply) → Prop}
    (heq : ∀ result script, scripts result script ↔ others result script) : program.Returns step others :=
  have : scripts = others := funext fun result ↦ funext fun script ↦ propext (heq result script)
  this ▸ h

theorem done (result : α) :
    (.done result : Program Op (fun _ ↦ Reply) ε α).Returns step fun found script ↦ script = [] ∧ found = result where
  follows h := by
    obtain ⟨rfl, -, hfound⟩ := Execution.done_iff.mp h
    exact ⟨[], ⟨rfl, Except.ok.inj hfound⟩, Follows.nil_iff.mpr rfl⟩
  plays := by
    rintro _ _ ⟨rfl, rfl⟩
    exact .done _

theorem ofExcept (outcome : Except ε α) :
    (.ofExcept outcome : Program Op (fun _ ↦ Reply) ε α).Returns step
      fun result script ↦ script = [] ∧ outcome = .ok result where
  follows h := by
    obtain ⟨rfl, -, houtcome⟩ := Execution.ofExcept_iff.mp h
    exact ⟨[], ⟨rfl, houtcome.symm⟩, Follows.nil_iff.mpr rfl⟩
  plays := by
    rintro _ _ ⟨rfl, rfl⟩
    exact .ofExcept _

theorem demand (op : Op) (read : Reply → Except ε α) :
    (demand op read).Returns step fun result script ↦ script = [⟨op, fun reply ↦ read reply = .ok result⟩] where
  follows h := by
    obtain ⟨reply, rfl, -, hread⟩ := Execution.demand_iff.mp h
    exact ⟨_, rfl, .cons rfl hread.symm (Follows.nil_iff.mpr rfl)⟩
  plays := by
    rintro _ _ rfl
    exact .demand fun reply hreply ↦ hreply

theorem bind {f : α → Program Op (fun _ ↦ Reply) ε β} {others : α → β → List (Cue Op Reply) → Prop}
    (h : program.Returns step scripts) (hf : ∀ result, (f result).Returns step (others result)) :
    (program.bind f).Returns step fun found script ↦
      ∃ result first second, scripts result first ∧ others result found second ∧ script = first ++ second where
  follows hexecution := by
    obtain ⟨early, result, middle, late, rfl, hfirst, hsecond⟩ := Execution.bind_ok_iff.mp hexecution
    obtain ⟨first, hscript, hfollows⟩ := h.follows hfirst
    obtain ⟨second, hothers, hlate⟩ := (hf result).follows hsecond
    exact ⟨_, ⟨result, first, second, hscript, hothers, rfl⟩, hfollows.append hlate⟩
  plays := by
    rintro found _ ⟨result, first, second, hscript, hothers, rfl⟩
    exact .bind (h.plays hscript) ((hf result).plays hothers)

/-- A call whose reply is only required to be good. -/
theorem demand_then {op : Op} {read : Reply → Except ε β} (h : program.Returns step scripts) :
    ((Program.demand op read).bind fun _ ↦ program).Returns step fun result script ↦
      ∃ rest, scripts result rest ∧ script = ⟨op, fun reply ↦ ∃ value, read reply = .ok value⟩ :: rest where
  follows hexecution := by
    obtain ⟨reply, value, middle, late, rfl, hread, hrest⟩ := Execution.demand_bind_ok hexecution
    obtain ⟨rest, hscript, hfollows⟩ := h.follows hrest
    exact ⟨_, ⟨rest, hscript, rfl⟩, hfollows.cons rfl ⟨value, hread⟩⟩
  plays := by
    rintro result _ ⟨rest, hscript, rfl⟩
    refine ⟨_, rest, rfl, fun reply hreply ↦ ?_⟩
    obtain ⟨value, hread⟩ := hreply
    simp only [hread]
    exact h.plays hscript

theorem mapError (h : program.Returns step scripts) (f : ε → η) : (program.mapError f).Returns step scripts where
  follows hexecution := by
    obtain ⟨outcome, hok, hran⟩ := Execution.mapError_iff.mp hexecution
    cases outcome with
    | error error => cases hok
    | ok result =>
      cases hok
      exact h.follows hran
  plays hscript := (h.plays hscript).mapError

end Program.Returns

end IsvValidation.Library
