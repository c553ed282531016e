import IsvValidation.Library.Interference

/-!
# An object which several writers change

A client changes an object with patches, and everybody else as they like. A patch which the client did not hear
of is applied at most once, at any later time, or never. What every patch is like which was sent is known of
every write of the client; and when none of those still on their way brings a property back, an object has the
property again only by the write of somebody else.
-/

namespace IsvValidation.Library

/-- One write, with what was stored before and after it; its author is the client, with what it was for, or
nobody. -/
structure Write (Purpose Object : Type) where
  author : Option Purpose
  before : Object
  after : Object

/-- An object, the writes so far, the latest first, and the patches on their way. -/
structure Shared (Purpose Object Patch : Type) where
  stored : Object
  writes : List (Write Purpose Object) := []
  inFlight : List (Purpose × Patch) := []

variable {Purpose Object Patch : Type}

namespace Shared

def write (shared : Shared Purpose Object Patch) (author : Option Purpose) (after : Object) :
    Shared Purpose Object Patch :=
  { shared with stored := after, writes := ⟨author, shared.stored, after⟩ :: shared.writes }

/-- What happens without the client; a patch applies to some objects only. -/
inductive Move (apply : Patch → Object → Option Object) :
    Shared Purpose Object Patch → Shared Purpose Object Patch → Prop
  | other {shared : Shared Purpose Object Patch} (after : Object) : Move apply shared (shared.write none after)
  | arrive {shared : Shared Purpose Object Patch} {purpose : Purpose} {patch : Patch} {after : Object}
      {front back : List (Purpose × Patch)} (hflight : shared.inFlight = front ++ (purpose, patch) :: back)
      (happly : apply patch shared.stored = some after) :
      Move apply shared ({ shared with inFlight := front ++ back }.write (some purpose) after)
  | drop {shared : Shared Purpose Object Patch} {sent : Purpose × Patch} {front back : List (Purpose × Patch)}
      (hflight : shared.inFlight = front ++ sent :: back) :
      Move apply shared { shared with inFlight := front ++ back }

/-- What becomes of a patch which the client sends: it is applied, and heard of or not, or it is refused. -/
inductive Patched (apply : Patch → Object → Option Object) (purpose : Purpose) (patch : Patch)
    (shared : Shared Purpose Object Patch) : (heard : Bool) → Shared Purpose Object Patch → Prop
  | applied {after : Object} (happly : apply patch shared.stored = some after) :
      Patched apply purpose patch shared true (shared.write (some purpose) after)
  | refused : Patched apply purpose patch shared false shared
  | unheard : Patched apply purpose patch shared false
      { shared with inFlight := shared.inFlight ++ [(purpose, patch)] }

variable {apply : Patch → Object → Option Object} {purpose : Purpose} {patch : Patch} {heard : Bool}
  {shared after : Shared Purpose Object Patch}

theorem subset_of_inFlight {sent : Purpose × Patch} {front back : List (Purpose × Patch)}
    (hflight : shared.inFlight = front ++ sent :: back) : front ++ back ⊆ shared.inFlight :=
  hflight ▸ ((List.sublist_cons_self sent back).append_left front).subset

/-! ## What every patch is like -/

/-- What is known of the patches which were sent. -/
structure Made (apply : Patch → Object → Option Object) (known : Purpose → Patch → Prop)
    (shared : Shared Purpose Object Patch) : Prop where
  inFlight : ∀ purpose patch, (purpose, patch) ∈ shared.inFlight → known purpose patch
  writes : ∀ write ∈ shared.writes, ∀ purpose, write.author = some purpose →
    ∃ patch, known purpose patch ∧ apply patch write.before = some write.after

variable {known : Purpose → Patch → Prop}

theorem Made.write (h : Made apply known shared) {object : Object} (hknown : known purpose patch)
    (happly : apply patch shared.stored = some object) :
    Made apply known (shared.write (some purpose) object) := by
  refine ⟨h.inFlight, fun write hwrite author hauthor ↦ ?_⟩
  rcases List.mem_cons.mp hwrite with rfl | hold
  · cases hauthor
    exact ⟨patch, hknown, happly⟩
  · exact h.writes write hold author hauthor

theorem Made.of_subset (h : Made apply known shared) {inFlight : List (Purpose × Patch)}
    (hsubset : inFlight ⊆ shared.inFlight) : Made apply known { shared with inFlight } :=
  ⟨fun purpose patch hmem ↦ h.inFlight purpose patch (hsubset hmem), h.writes⟩

theorem Move.made (h : Move apply shared after) (hmade : Made apply known shared) : Made apply known after := by
  cases h with
  | other object =>
    refine ⟨hmade.inFlight, fun write hwrite author hauthor ↦ ?_⟩
    rcases List.mem_cons.mp hwrite with rfl | hold
    · cases hauthor
    · exact hmade.writes write hold author hauthor
  | arrive hflight happly =>
    exact (hmade.of_subset (subset_of_inFlight hflight)).write
      (hmade.inFlight _ _ (hflight ▸ List.mem_append_cons_self)) happly
  | drop hflight => exact hmade.of_subset (subset_of_inFlight hflight)

theorem Patched.made (h : Patched apply purpose patch shared heard after) (hknown : known purpose patch)
    (hmade : Made apply known shared) : Made apply known after := by
  cases h with
  | applied happly => exact hmade.write hknown happly
  | refused => exact hmade
  | unheard =>
    refine ⟨fun other sent hmem ↦ ?_, hmade.writes⟩
    rcases List.mem_append.mp hmem with hold | hnew
    · exact hmade.inFlight other sent hold
    · obtain ⟨rfl, rfl⟩ := Prod.mk.inj (List.mem_singleton.mp hnew)
      exact hknown

theorem Made.mono {weaker : Purpose → Patch → Prop} (h : Made apply known shared)
    (himp : ∀ purpose patch, known purpose patch → weaker purpose patch) : Made apply weaker shared := by
  refine ⟨fun purpose patch hmem ↦ himp purpose patch (h.inFlight purpose patch hmem), ?_⟩
  intro write hwrite purpose hauthor
  obtain ⟨patch, hknown, happly⟩ := h.writes write hwrite purpose hauthor
  exact ⟨patch, himp purpose patch hknown, happly⟩

/-! ## Who brought a property -/

/-- Somebody else gave the object the property, and every write since then kept it. -/
def BroughtByOthers (holds : Object → Prop) (writes : List (Write Purpose Object)) : Prop :=
  ∃ later write earlier, writes = later ++ write :: earlier ∧ write.author = none ∧
    ¬ holds write.before ∧ holds write.after ∧ ∀ kept ∈ later, holds kept.after

/-- Some object has the property after the patch only. -/
def Brings (apply : Patch → Object → Option Object) (holds : Object → Prop) (patch : Patch) : Prop :=
  ∃ before after, apply patch before = some after ∧ holds after ∧ ¬ holds before

/-- No patch on its way brings the property, and what has it has it from others. -/
structure Settled (apply : Patch → Object → Option Object) (holds : Object → Prop)
    (shared : Shared Purpose Object Patch) : Prop where
  inFlight : ∀ purpose patch, (purpose, patch) ∈ shared.inFlight → ¬ Brings apply holds patch
  stored : holds shared.stored → BroughtByOthers holds shared.writes

variable {holds : Object → Prop}

theorem BroughtByOthers.cons {writes : List (Write Purpose Object)} {write : Write Purpose Object}
    (h : BroughtByOthers holds writes) (hafter : holds write.after) :
    BroughtByOthers holds (write :: writes) := by
  obtain ⟨later, brought, earlier, rfl, hauthor, hbefore, hbrought, hkept⟩ := h
  exact ⟨write :: later, brought, earlier, rfl, hauthor, hbefore, hbrought,
    List.forall_mem_cons.mpr ⟨hafter, hkept⟩⟩

theorem Settled.write (h : Settled apply holds shared) {object : Object} {author : Option Purpose}
    (hbrings : holds object → ¬ holds shared.stored → author = none) :
    Settled apply holds (shared.write author object) := by
  refine ⟨h.inFlight, fun hobject ↦ ?_⟩
  by_cases hstored : holds shared.stored
  · exact (h.stored hstored).cons hobject
  · exact ⟨[], _, shared.writes, rfl, hbrings hobject hstored, hstored, hobject, by simp⟩

theorem Settled.of_subset (h : Settled apply holds shared) {inFlight : List (Purpose × Patch)}
    (hsubset : inFlight ⊆ shared.inFlight) : Settled apply holds { shared with inFlight } :=
  ⟨fun purpose patch hmem ↦ h.inFlight purpose patch (hsubset hmem), h.stored⟩

/-- What a patch which does not bring the property leaves has it only where it was there. -/
theorem holds_of_apply {before object : Object} (hbrings : ¬ Brings apply holds patch)
    (happly : apply patch before = some object) (hobject : holds object) : holds before := by
  by_contra hbefore
  exact hbrings ⟨before, object, happly, hobject, hbefore⟩

theorem Move.settled (h : Move apply shared after) (hsettled : Settled apply holds shared) :
    Settled apply holds after := by
  cases h with
  | other object => exact hsettled.write fun _ _ ↦ rfl
  | arrive hflight happly =>
    refine (hsettled.of_subset (subset_of_inFlight hflight)).write fun hobject hstored ↦ ?_
    have hbrings := hsettled.inFlight _ _ (hflight ▸ List.mem_append_cons_self)
    exact absurd (holds_of_apply hbrings happly hobject) hstored
  | drop hflight => exact hsettled.of_subset (subset_of_inFlight hflight)

end Shared

end IsvValidation.Library
