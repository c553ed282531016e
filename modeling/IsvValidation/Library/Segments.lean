import Mathlib.Data.List.Basic

/-!
# Streams in segments

A stream comes in segments, which are never empty, and after the last one it is closed or a read fails. A
read takes at most a number of items from the first segment. What a reader makes of a stream should not
depend on the segments.
-/

namespace IsvValidation.Library

universe u v

/-- How a stream ends: a read gets nothing, or it fails. -/
inductive Ending (ε : Type v) where
  | close
  | fail (error : ε)

/-- What is still to come of a stream, in segments. -/
structure Delivery (ε : Type v) (α : Type u) where
  segments : List (List α)
  ending : Ending ε
  nonempty : ∀ segment ∈ segments, segment ≠ []

namespace Delivery

variable {ε : Type v} {α : Type u}

def stream (delivery : Delivery ε α) : List α := delivery.segments.flatten

/-- Nothing more to come. -/
def ended (ending : Ending ε) : Delivery ε α where
  segments := []
  ending := ending
  nonempty := nofun

/-- A segment, then the rest. -/
def cons (segment : List α) (delivery : Delivery ε α) (h : segment ≠ []) : Delivery ε α where
  segments := segment :: delivery.segments
  ending := delivery.ending
  nonempty := List.forall_mem_cons.mpr ⟨h, delivery.nonempty⟩

@[simp] theorem stream_ended (ending : Ending ε) : (ended ending : Delivery ε α).stream = [] := rfl

@[simp] theorem ending_ended (ending : Ending ε) : (ended ending : Delivery ε α).ending = ending := rfl

@[simp] theorem stream_cons (segment : List α) (delivery : Delivery ε α) (h : segment ≠ []) :
    (cons segment delivery h).stream = segment ++ delivery.stream := List.flatten_cons

@[simp] theorem ending_cons (segment : List α) (delivery : Delivery ε α) (h : segment ≠ []) :
    (cons segment delivery h).ending = delivery.ending := rfl

/-- Any stream may come as one segment. -/
def whole (stream : List α) (ending : Ending ε) : Delivery ε α :=
  if h : stream = [] then ended ending else cons stream (ended ending) h

@[simp] theorem stream_whole (stream : List α) (ending : Ending ε) :
    (whole stream ending).stream = stream := by
  by_cases h : stream = []
  · rw [whole, dif_pos h, stream_ended, h]
  · rw [whole, dif_neg h, stream_cons, stream_ended, List.append_nil]

@[simp] theorem ending_whole (stream : List α) (ending : Ending ε) :
    (whole stream ending).ending = ending := by
  by_cases h : stream = []
  · rw [whole, dif_pos h, ending_ended]
  · rw [whole, dif_neg h, ending_cons, ending_ended]

theorem segments_whole {stream : List α} (ending : Ending ε) (h : stream ≠ []) :
    (whole stream ending).segments = [stream] := by
  rw [whole, dif_neg h]
  rfl

/-- Read at most a number of items. -/
def receive (delivery : Delivery ε α) (count : ℕ) : Except ε (List α × Delivery ε α) :=
  match delivery with
  | ⟨[], .close, _⟩ => .ok ([], delivery)
  | ⟨[], .fail error, _⟩ => .error error
  | ⟨segment :: rest, ending, h⟩ =>
    if hlong : count < segment.length then
      .ok (segment.take count, {
        segments := segment.drop count :: rest
        ending := ending
        nonempty := List.forall_mem_cons.mpr ⟨by
          rw [ne_eq, List.drop_eq_nil_iff]
          exact Nat.not_le_of_lt hlong, (List.forall_mem_cons.mp h).2⟩ })
    else .ok (segment, ⟨rest, ending, (List.forall_mem_cons.mp h).2⟩)

/-- A read where more is to come takes items of the stream, at least one and at most as many as are
asked for. -/
theorem receive_some {delivery : Delivery ε α} {count : ℕ} (hcount : 0 < count)
    (hmore : delivery.stream ≠ []) :
    ∃ chunk rest, delivery.receive count = .ok (chunk, rest) ∧ chunk ≠ [] ∧ chunk.length ≤ count ∧
      delivery.stream = chunk ++ rest.stream ∧ rest.ending = delivery.ending := by
  match delivery with
  | ⟨[], _, _⟩ => exact absurd rfl hmore
  | ⟨segment :: rest, ending, h⟩ =>
    have ⟨hsegment, hrest⟩ := List.forall_mem_cons.mp h
    by_cases hlong : count < segment.length
    · have htake : segment.take count ≠ [] := by
        rw [ne_eq, List.take_eq_nil_iff]
        exact fun hnil ↦ hnil.elim (Nat.pos_iff_ne_zero.mp hcount) hsegment
      have hdrop : segment.drop count ≠ [] := by
        rw [ne_eq, List.drop_eq_nil_iff]
        exact Nat.not_le_of_lt hlong
      refine ⟨segment.take count, cons (segment.drop count) ⟨rest, ending, hrest⟩ hdrop, ?_, htake,
        List.length_take_le _ _, ?_, rfl⟩
      · rw [receive, dif_pos hlong]
        rfl
      · rw [stream_cons, ← List.append_assoc, List.take_append_drop]
        rfl
    · refine ⟨segment, ⟨rest, ending, hrest⟩, ?_, hsegment, Nat.not_lt.mp hlong, rfl, rfl⟩
      rw [receive, dif_neg hlong]

/-- A read where the stream has ended. -/
theorem receive_none {delivery : Delivery ε α} {count : ℕ} (hend : delivery.stream = []) :
    delivery.receive count =
      match delivery.ending with
      | .close => .ok ([], delivery)
      | .fail error => .error error := by
  match delivery with
  | ⟨[], .close, _⟩ => rfl
  | ⟨[], .fail _, _⟩ => rfl
  | ⟨segment :: rest, _, h⟩ =>
    have hsegment := (List.forall_mem_cons.mp h).1
    exact absurd (List.append_eq_nil_iff.mp hend).1 hsegment

/-- A read takes what it may of the first segment. -/
theorem receive_segment {delivery : Delivery ε α} {segment : List α} {rest : List (List α)} {count : ℕ}
    (h : delivery.segments = segment :: rest) :
    ∃ more, delivery.receive count = .ok (segment.take count, more) := by
  match delivery, h with
  | ⟨_, ending, hnonempty⟩, rfl =>
    by_cases hlong : count < segment.length
    · exact ⟨_, dif_pos hlong⟩
    · rw [List.take_of_length_le (Nat.not_lt.mp hlong)]
      exact ⟨_, dif_neg hlong⟩

end Delivery

end IsvValidation.Library
