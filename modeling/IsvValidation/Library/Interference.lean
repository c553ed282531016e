import Mathlib.Logic.Relation
import IsvValidation.Library.Execution

/-!
# Worlds which move by themselves

After a call is served, and before the next one is made, the world of a program may move on any number of
times. What both the calls and the moves keep holds at the end of an execution, and ever after.
-/

namespace IsvValidation.Library

universe u v w

variable {World : Type w} {Op : Type u} {Reply : Op → Type v}

/-- A call is served, and then the world moves on. -/
def Interfered (serve : World → (op : Op) → Reply op → World → Prop) (move : World → World → Prop)
    (world : World) (op : Op) (reply : Reply op) (after : World) : Prop :=
  ∃ served, serve world op reply served ∧ Relation.ReflTransGen move served after

section Moves

variable {move : World → World → Prop} {P : World → Prop} {world after : World}

/-- What no move ends holds ever after. -/
theorem holds_later (hmove : ∀ before after, move before after → P before → P after)
    (h : Relation.ReflTransGen move world after) (hworld : P world) : P after := by
  induction h with
  | refl => exact hworld
  | tail _ hstep ih => exact hmove _ _ hstep ih

/-- What no move changes is the same ever after. -/
theorem eq_later {α : Type*} {look : World → α}
    (hmove : ∀ before after, move before after → look after = look before)
    (h : Relation.ReflTransGen move world after) : look after = look world :=
  holds_later (P := fun later ↦ look later = look world) (fun _ _ hstep ↦ (hmove _ _ hstep).trans) h rfl

end Moves

section Executions

variable {serve : World → (op : Op) → Reply op → World → Prop} {move : World → World → Prop} {P : World → Prop}
  {world last : World} {ε α : Type v} {program : Program Op Reply ε α} {trace : List (Exchange World Reply)}
  {outcome : Except ε α}

theorem Interfered.holds {op : Op} {reply : Reply op}
    (hmove : ∀ before after, move before after → P before → P after)
    (hserve : ∀ served, serve world op reply served → P served)
    (h : Interfered serve move world op reply last) :
    P last := by
  obtain ⟨served, hserved, hlater⟩ := h
  exact holds_later hmove hlater (hserve served hserved)

/-- What the moves and the calls of a trace keep holds at its end. -/
theorem Execution.holds_interfered (hmove : ∀ before after, move before after → P before → P after)
    (h : Execution (Interfered serve move) world program trace last outcome)
    (hserve : ∀ exchange ∈ trace, ∀ served, serve exchange.before exchange.op exchange.reply served →
      P exchange.before → P served) (hworld : P world) : P last :=
  h.persists (fun exchange hmem hbefore ↦ (h.step_of_mem exchange hmem).holds hmove
    fun served hserved ↦ hserve exchange hmem served hserved hbefore) hworld

end Executions

end IsvValidation.Library
