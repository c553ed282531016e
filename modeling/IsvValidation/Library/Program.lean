import Mathlib.Tactic.TypeStar

/-!
# Programs which call out

A program is a tree: it ends with a result or an error, or it calls out and goes on with whatever
reply it gets. What it asks for is judged by a monitor with a state of its own: the state says which
calls are allowed, and it moves on when a call goes out and again when the reply comes in. A program
obeys a monitor when all its calls are allowed along any replies; the rules below prove it along the
structure of a program.
-/

namespace IsvValidation.Library

universe u v

/-- A program which calls `Op`, gets replies, and may raise an error. -/
inductive Program (Op : Type u) (Reply : Op → Type v) (ε α : Type v) where
  | done (result : α)
  | raise (error : ε)
  | call (op : Op) (next : Reply op → Program Op Reply ε α)

namespace Program

variable {Op : Type u} {Reply : Op → Type v} {ε η α β : Type v}

/-- Go on with the result; an error ends the whole. -/
def bind (program : Program Op Reply ε α) (f : α → Program Op Reply ε β) :
    Program Op Reply ε β :=
  match program with
  | done result => f result
  | raise error => raise error
  | call op next => call op fun reply ↦ (next reply).bind f

instance : Monad (Program Op Reply ε) where
  pure := done
  bind := bind

/-- The outcome of a program as a value. -/
def attempt (program : Program Op Reply ε α) : Program Op Reply η (Except ε α) :=
  match program with
  | done result => done (.ok result)
  | raise error => done (.error error)
  | call op next => call op fun reply ↦ (next reply).attempt

/-- Raise another error in place of the program's own. -/
def mapError (f : ε → η) (program : Program Op Reply ε α) : Program Op Reply η α :=
  match program with
  | done result => done result
  | raise error => raise (f error)
  | call op next => call op fun reply ↦ (next reply).mapError f

/-- Raise the error of a failed result. -/
def ofExcept : Except ε α → Program Op Reply ε α
  | .ok result => done result
  | .error error => raise error

@[simp] theorem bind_eq (program : Program Op Reply ε α) (f : α → Program Op Reply ε β) :
    program >>= f = program.bind f := rfl

@[simp] theorem pure_eq (result : α) : (pure result : Program Op Reply ε α) = done result := rfl

theorem bind_assoc {γ : Type v} (program : Program Op Reply ε α) (f : α → Program Op Reply ε β)
    (g : β → Program Op Reply ε γ) : (program.bind f).bind g = program.bind fun result ↦ (f result).bind g := by
  induction program with
  | done result => rfl
  | raise error => rfl
  | call op next ih => exact congrArg (call op) (funext ih)

end Program

/-! ## Monitors -/

/-- Which calls are allowed in a state, and how the state moves with a call and its reply. -/
structure Monitor (Op : Type u) (Reply : Op → Type v) (σ : Type v) where
  allowed : σ → Op → Prop
  sent : σ → Op → σ
  heard : σ → (op : Op) → Reply op → σ

namespace Program

variable {Op : Type u} {Reply : Op → Type v} {σ ε η α β : Type v} (monitor : Monitor Op Reply σ)

/-- All calls are allowed along any replies; a result and an error are as stated when they come. -/
def Obeys (returns : σ → α → Prop) (raises : σ → ε → Prop) :
    σ → Program Op Reply ε α → Prop
  | state, done result => returns state result
  | state, raise error => raises state error
  | state, call op next => monitor.allowed state op ∧
      ∀ reply, Obeys returns raises (monitor.heard (monitor.sent state op) op reply) (next reply)

variable {monitor} {R : σ → α → Prop} {E : σ → ε → Prop} {state : σ}
  {program : Program Op Reply ε α}

/-- What is known of the end of a program may be weakened. -/
theorem Obeys.mono {R' : σ → α → Prop} {E' : σ → ε → Prop}
    (h : Obeys monitor R E state program)
    (hreturns : ∀ state result, R state result → R' state result)
    (hraises : ∀ state error, E state error → E' state error) :
    Obeys monitor R' E' state program := by
  induction program generalizing state with
  | done result => exact hreturns state result h
  | raise error => exact hraises state error h
  | call op next ih => exact ⟨h.1, fun reply ↦ ih reply (h.2 reply)⟩

/-- Two programs in a row obey a monitor when the second does from wherever the first returns. -/
theorem Obeys.bind {R' : σ → β → Prop} {f : α → Program Op Reply ε β}
    (h : Obeys monitor R E state program)
    (hf : ∀ state result, R state result →
      Obeys monitor R' E state (f result)) :
    Obeys monitor R' E state (program.bind f) := by
  induction program generalizing state with
  | done result => exact hf state result h
  | raise error => exact h
  | call op next ih => exact ⟨h.1, fun reply ↦ ih reply (h.2 reply)⟩

/-- An outcome is what the program would have returned or raised. -/
theorem Obeys.attempt {E' : σ → η → Prop} (h : Obeys monitor R E state program) :
    Obeys monitor (fun state outcome ↦ match outcome with
      | .ok result => R state result
      | .error error => E state error) E' state program.attempt := by
  induction program generalizing state with
  | done result => exact h
  | raise error => exact h
  | call op next ih => exact ⟨h.1, fun reply ↦ ih reply (h.2 reply)⟩

theorem Obeys.mapError {E' : σ → η → Prop} {f : ε → η}
    (h : Obeys monitor R E state program)
    (hf : ∀ state error, E state error → E' state (f error)) :
    Obeys monitor R E' state (program.mapError f) := by
  induction program generalizing state with
  | done result => exact h
  | raise error => exact hf state error h
  | call op next ih => exact ⟨h.1, fun reply ↦ ih reply (h.2 reply)⟩

theorem obeys_ofExcept {result : Except ε α}
    (hreturns : ∀ value, result = .ok value → R state value)
    (hraises : ∀ error, result = .error error → E state error) :
    Obeys monitor R E state (ofExcept result : Program Op Reply ε α) := by
  cases result with
  | ok value => exact hreturns value rfl
  | error error => exact hraises error rfl

end Program

end IsvValidation.Library
