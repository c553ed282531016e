import IsvValidation.K8s.ForwardingProbe
import IsvValidation.Library.SharedObject

/-!
# Edits of the Corefile

The probe and everybody else change one ConfigMap. A patch tests the text from which it was made, so that it
appends the block to the very text which is stored, or takes it out of it. A patch may arrive after the probe
was told that it failed. Where that is the patch which installs the block, the probe may have read before that
no block is there.
-/

namespace IsvValidation.K8s.Forwarding

open Host Library Library.Program

/-! ## The API server -/

def PatchOp.apply (config : ConfigMap) : PatchOp → Option ConfigMap
  | .testUid value => if config.uid = value then some config else none
  | .testCorefile value => if config.corefile = some value then some config else none
  | .replaceCorefile value => config.corefile.map fun _ ↦ { config with corefile := some value }

/-- A patch changes what is stored only where all its tests succeed. -/
def applyPatch (patch : List PatchOp) (stored : Option ConfigMap) : Option (Option ConfigMap) :=
  (stored.bind fun config ↦ patch.foldlM PatchOp.apply config).map some

abbrev World : Type := Shared Purpose (Option ConfigMap) (List PatchOp)

/-- What happens beside the probe: others edit, delete or replace the ConfigMap, and its patches arrive. -/
abbrev Move : World → World → Prop := Shared.Move applyPatch

/-- A call which neither reads nor changes the ConfigMap. -/
def Call.Elsewhere : Call → Prop
  | .getConfigMap _ _ | .patchConfigMap _ _ _ _ => False
  | _ => True

inductive Serve : World → (call : Call) → Reply call → World → Prop
  | read {world : World} {name namespace_ : String} :
      Serve world (.getConfigMap name namespace_) (.ok world.stored) world
  | unread {world : World} {name namespace_ : String} {error : Error} :
      Serve world (.getConfigMap name namespace_) (.error error) world
  | patched {world after : World} {purpose : Purpose} {name namespace_ : String} {patch : List PatchOp}
      (hpatch : Shared.Patched applyPatch purpose patch world true after) :
      Serve world (.patchConfigMap purpose name namespace_ patch) (.ok ()) after
  | failed {world after : World} {purpose : Purpose} {name namespace_ : String} {patch : List PatchOp}
      {error : Error} (hpatch : Shared.Patched applyPatch purpose patch world false after) :
      Serve world (.patchConfigMap purpose name namespace_ patch) (.error error) after
  | elsewhere {world : World} {call : Call} {reply : Reply call} (hcall : call.Elsewhere) :
      Serve world call reply world

abbrev Step : World → (call : Call) → Reply call → World → Prop := Interfered Serve Move

/-- What becomes of the ConfigMap. -/
abbrev Later : World → World → Prop := Relation.ReflTransGen Move

/-! ## Patches -/

section Patches

variable {uid block before after text : String} {stored object : Option ConfigMap}

theorem applyPatch_corefileOps : applyPatch (corefileOps uid before after) stored = some object ↔
    ∃ config, stored = some config ∧ config.uid = uid ∧ config.corefile = some before ∧
      object = some { config with corefile := some after } := by
  cases stored with
  | none => simp [applyPatch]
  | some config =>
    by_cases huid : config.uid = uid
    · by_cases hbefore : config.corefile = some before
      · simp [applyPatch, corefileOps, PatchOp.apply, List.foldlM, huid, hbefore, eq_comm]
      · simp [applyPatch, corefileOps, PatchOp.apply, List.foldlM, huid, hbefore]
    · simp [applyPatch, corefileOps, PatchOp.apply, List.foldlM, huid]

/-- The patches of the probe. -/
def Ours (uid block : String) : Purpose → List PatchOp → Prop
  | .install, patch => ∃ before, patch = corefileOps uid before (before ++ block)
  | .restore, patch => ∃ before, Text.contains before block = true ∧
      patch = corefileOps uid before (removeFirst block before)

/-- A write appends the block to what was stored, or takes it out, and leaves all else. -/
def OwnChange (uid block : String) (write : Write Purpose (Option ConfigMap)) : Prop :=
  ∃ config before after, write.before = some config ∧ config.uid = uid ∧ config.corefile = some before ∧
    write.after = some { config with corefile := some after } ∧
    (after = before ++ block ∨ ∃ front back, before = front ++ block ++ back ∧ after = front ++ back)

/-- What is stored holds the block. -/
def HasBlock (block : String) (stored : Option ConfigMap) : Prop :=
  ∃ text, stored.bind ConfigMap.corefile = some text ∧ Text.contains text block = true

theorem exists_removeFirst (h : Text.contains text block = true) :
    ∃ front back, text = front ++ block ++ back ∧ removeFirst block text = front ++ back := by
  obtain ⟨front, back, htext, hremoved⟩ := exists_takeOut (of_decide_eq_true h)
  refine ⟨.ofList front, .ofList back, ?_, ?_⟩
  · apply String.toList_injective
    simp [htext]
  · rw [removeFirst, hremoved, String.ofList_append]

theorem ownChange_of_ours {write : Write Purpose (Option ConfigMap)} {purpose : Purpose} {patch : List PatchOp}
    (hours : Ours uid block purpose patch) (happly : applyPatch patch write.before = some write.after) :
    OwnChange uid block write := by
  cases purpose with
  | install =>
    obtain ⟨before, rfl⟩ := hours
    obtain ⟨config, hbefore, huid, htext, hafter⟩ := applyPatch_corefileOps.mp happly
    exact ⟨config, before, _, hbefore, huid, htext, hafter, .inl rfl⟩
  | restore =>
    obtain ⟨before, hcontains, rfl⟩ := hours
    obtain ⟨config, hbefore, huid, htext, hafter⟩ := applyPatch_corefileOps.mp happly
    exact ⟨config, before, _, hbefore, huid, htext, hafter, .inr (exists_removeFirst hcontains)⟩

/-- What takes the block out brings it nowhere. -/
theorem not_brings_of_ours {patch : List PatchOp} (hours : Ours uid block .restore patch) :
    ¬ Shared.Brings applyPatch (HasBlock block) patch := by
  obtain ⟨before, hcontains, rfl⟩ := hours
  rintro ⟨stored, object, happly, -, hstored⟩
  obtain ⟨config, rfl, -, htext, -⟩ := applyPatch_corefileOps.mp happly
  exact hstored ⟨before, htext, hcontains⟩

end Patches

/-! ## Runs -/

/-- The patch which installs the block is not on its way any more when the probe reads that the block is absent
or hears that it was taken out; and what is left then does not hold the block. -/
def Timely (block : String) (before : World) : (call : Call) → Reply call → Prop
  | .getConfigMap _ _, reply => ∀ config text, reply = .ok (some config) → config.corefile = some text →
      Text.contains text block = false →
        ∀ patch, (.install, patch) ∈ before.inFlight → .testUid config.uid ∉ patch
  | .patchConfigMap .restore _ _ patch, reply => reply = .ok () →
      (∀ sent, (.install, sent) ∉ before.inFlight) ∧
        ∀ text, .replaceCorefile text ∈ patch → Text.contains text block = false
  | _, _ => True

section Runs

variable {world last : World} {trace : List (Exchange World Reply)} {uid block namespace_ : String}

/-- A patch which is sent is known to be of a kind. -/
def Call.Sends (known : Purpose → List PatchOp → Prop) : Call → Prop
  | .patchConfigMap purpose _ _ patch => known purpose patch
  | _ => True

theorem Step.made {known : Purpose → List PatchOp → Prop} {call : Call} {reply : Reply call}
    (h : Step world call reply last) (hcall : call.Sends known) (hmade : world.Made applyPatch known) :
    last.Made applyPatch known := by
  refine h.holds (fun _ _ hmove hbefore ↦ hmove.made hbefore) fun served hserve ↦ ?_
  cases hserve with
  | read | unread | elsewhere => exact hmade
  | patched hpatch | failed hpatch => exact hpatch.made hcall hmade

theorem made_of_calls {known : Purpose → List PatchOp → Prop} {α : Type} {program : Run α}
    {outcome : Except Error α} (hcalls : program.Calls (Call.Sends known))
    (h : Execution Step world program trace last outcome) (hmade : world.Made applyPatch known) :
    last.Made applyPatch known :=
  h.persists (P := fun world ↦ world.Made applyPatch known)
    (fun exchange hmem ↦ (h.step_of_mem exchange hmem).made (hcalls.mem_trace h exchange hmem)) hmade

theorem settled_later {holds : Option ConfigMap → Prop} (h : Later world last)
    (hsettled : world.Settled applyPatch holds) : last.Settled applyPatch holds :=
  holds_later (fun _ _ hmove hbefore ↦ hmove.settled hbefore) h hsettled

theorem Step.settled {holds : Option ConfigMap → Prop} {call : Call} {reply : Reply call}
    (h : Step world call reply last) (hcall : call.Sends fun _ _ ↦ False)
    (hsettled : world.Settled applyPatch holds) : last.Settled applyPatch holds := by
  refine h.holds (fun _ _ hmove hbefore ↦ hmove.settled hbefore) fun served hserve ↦ ?_
  cases hserve with
  | read | unread | elsewhere => exact hsettled
  | patched | failed => exact hcall.elim

theorem settled_of_calls {holds : Option ConfigMap → Prop} {α : Type} {program : Run α}
    {outcome : Except Error α} (hcalls : program.Calls (Call.Sends fun _ _ ↦ False))
    (h : Execution Step world program trace last outcome) (hsettled : world.Settled applyPatch holds) : last.Settled applyPatch holds :=
  h.persists (P := fun world ↦ world.Settled applyPatch holds)
    (fun exchange hmem ↦ (h.step_of_mem exchange hmem).settled (hcalls.mem_trace h exchange hmem)) hsettled

/-! ### What the probe sends -/

/-- A call which sends no patch of another kind, and does not ask for the address of the resolver. -/
def Call.Allowed (namespace_ : String) (known : Purpose → List PatchOp → Prop) (call : Call) : Prop :=
  call.Sends known ∧ call ≠ .getService "upstream" namespace_

variable {known : Purpose → List PatchOp → Prop} {machine : Machine} {settings : Settings} {timeout : ℤ}
  {target : Target} {found : Found}

theorem examine_calls : (examine machine settings).Calls (Call.Allowed namespace_ known) := by
  rw [examine]
  split_ifs
  · exact .bind (.invoke ⟨trivial, by simp⟩) fun _ ↦ .raise _
  · refine .bind (.invoke ⟨trivial, by simp⟩) fun config ↦ ?_
    cases config with
    | none => exact .raise _
    | some config =>
      simp only
      split_ifs
      · exact .raise _
      · exact .bind (.invoke ⟨trivial, by simp⟩) fun _ ↦ .bind (.ofExcept _) fun _ ↦ .done _

theorem pod_calls {name image : String} {command : List String} {volumes : List Volume} :
    (pod namespace_ timeout name image command volumes).Calls (Call.Allowed namespace_ known) :=
  .bind (.invoke ⟨trivial, by simp⟩) fun _ ↦ .invoke ⟨trivial, by simp⟩

theorem fixtures_calls : (fixtures settings namespace_ timeout).Calls (Call.Allowed namespace_ known) :=
  .bind pod_calls fun _ ↦ .bind (.invoke ⟨trivial, by simp⟩) fun _ ↦ .bind pod_calls fun _ ↦
    .invoke ⟨trivial, by simp⟩

theorem upstream_sends : (upstream settings namespace_ timeout).Calls (Call.Sends known) := by
  refine .bind (fixtures_calls.mono fun _ hcall ↦ hcall.1) fun _ ↦ .bind (.invoke trivial) fun service ↦ ?_
  cases service with
  | none => exact .raise _
  | some service =>
    simp only
    split
    · exact .raise _
    · exact .done _

theorem retry_calls {allowed : Call → Prop} {α : Type} {callback : Run α} (h : callback.Calls allowed)
    (rounds : ℕ) : (retry callback rounds).Calls allowed := by
  induction rounds with
  | zero =>
    refine .bind h.attempt fun called ↦ ?_
    cases called with
    | ok result => exact .done _
    | error error =>
      simp only
      split_ifs <;> exact .raise _
  | succ rounds ih =>
    refine .bind h.attempt fun called ↦ ?_
    cases called with
    | ok result => exact .done _
    | error error =>
      simp only
      split_ifs
      · exact ih
      · exact .raise _

theorem lookup_calls : (lookup namespace_).Calls (Call.Allowed namespace_ known) := by
  refine .bind (.invoke ⟨trivial, by simp⟩) fun answers ↦ ?_
  split_ifs
  · exact .done _
  · exact .raise _

theorem observe_calls : (observe settings namespace_ timeout found block).Calls
    (Call.Allowed namespace_ (Ours found.target.uid block)) :=
  .bind (.invoke ⟨⟨found.original, rfl⟩, by simp⟩) fun _ ↦ .bind (.invoke ⟨trivial, by simp⟩) fun rounds ↦
    .bind (retry_calls lookup_calls rounds) fun _ ↦ .bind (.invoke ⟨trivial, by simp⟩) fun _ ↦
      .bind (.invoke ⟨trivial, by simp⟩) fun _ ↦ .done _

theorem restore_calls (rounds : ℕ) :
    (restore target block rounds).Calls (Call.Allowed namespace_ (Ours target.uid block)) := by
  induction rounds with
  | zero => exact .done _
  | succ rounds ih =>
    refine .bind (.invoke ⟨trivial, by simp⟩) fun current ↦ ?_
    split
    · exact .raise _
    · split
      · exact .raise _
      · rename_i text htext
        split_ifs with hcontains
        · exact .done _
        · have hours : Ours target.uid block .restore (corefileOps target.uid text (removeFirst block text)) :=
            ⟨text, by simpa using hcontains, rfl⟩
          refine .bind (Program.Calls.attempt (.invoke ⟨hours, by simp⟩)) fun patched ↦ ?_
          cases patched with
          | ok => exact .done _
          | error error =>
            simp only
            split_ifs
            · exact ih
            · exact .raise _

theorem delete_calls {name : String} :
    (Callback.deleteNamespace name).call.Calls (Call.Allowed namespace_ known) :=
  .bind (.invoke ⟨trivial, by simp⟩) fun _ ↦ .done _

theorem cleanUp_calls {allowed : Call → Prop} {callbacks : List Callback}
    (h : ∀ callback ∈ callbacks, callback.call.Calls allowed) : (cleanUp callbacks).Calls allowed := by
  induction callbacks with
  | nil => exact .done _
  | cons callback rest ih =>
    obtain ⟨hcallback, hrest⟩ := List.forall_mem_cons.mp h
    refine .bind hcallback.attempt fun called ↦ ?_
    cases called with
    | ok restored => exact .bind (ih hrest) fun _ ↦ .done _
    | error error =>
      simp only
      split_ifs
      · exact .bind (ih hrest) fun _ ↦ .done _
      · exact .raise _

/-- Callbacks which only delete namespaces. -/
def OnlyDeletes (callbacks : List Callback) : Prop :=
  ∀ callback ∈ callbacks, ∃ name, callback = .deleteNamespace name

theorem OnlyDeletes.calls {callbacks : List Callback} (h : OnlyDeletes callbacks) :
    (cleanUp callbacks).Calls (Call.Sends known) := by
  refine cleanUp_calls fun callback hmem ↦ ?_
  obtain ⟨name, rfl⟩ := h callback hmem
  have hcalls : (Callback.deleteNamespace name).call.Calls (Call.Allowed "" known) := delete_calls
  exact hcalls.mono fun _ hcall ↦ hcall.1

/-! ### What is restored -/

/-- What is known of the patches of the probe settles the matter once none of them installs the block. -/
theorem settled_of_made (hmade : world.Made applyPatch (Ours uid block))
    (hinstall : ∀ patch, (.install, patch) ∉ world.inFlight) (hstored : ¬ HasBlock block world.stored) :
    world.Settled applyPatch (HasBlock block) := by
  refine ⟨fun purpose patch hflight ↦ ?_, fun hblock ↦ absurd hblock hstored⟩
  cases purpose with
  | install => exact absurd hflight (hinstall patch)
  | restore => exact not_brings_of_ours (hmade.inFlight _ _ hflight)

/-- The probe reads that the block is absent. -/
theorem settled_of_read {current : Option ConfigMap} {text : String}
    (h : Step world (.getConfigMap target.name target.namespace_) (.ok current) last)
    (htimely : Timely block world (.getConfigMap target.name target.namespace_) (.ok current))
    (hmade : world.Made applyPatch (Ours target.uid block)) (huid : current.map ConfigMap.uid = some target.uid)
    (htext : current.bind ConfigMap.corefile = some text) (hcontains : Text.contains text block = false) :
    last.Settled applyPatch (HasBlock block) := by
  obtain ⟨served, hserve, hlater⟩ := h
  cases hserve with
  | elsewhere hcall => exact hcall.elim
  | read =>
    refine settled_later hlater (settled_of_made hmade (fun patch hflight ↦ ?_) ?_)
    · obtain ⟨before, rfl⟩ := hmade.inFlight _ _ hflight
      obtain ⟨config, hstored, hconfig⟩ := Option.map_eq_some_iff.mp huid
      rw [hstored] at htimely htext
      refine htimely config text rfl htext hcontains _ hflight ?_
      rw [hconfig]
      exact List.mem_cons_self
    · rintro ⟨found, hfound, hblock⟩
      rw [htext, Option.some.injEq] at hfound
      rw [hfound, hblock] at hcontains
      cases hcontains

/-- The probe hears that it took the block out. -/
theorem settled_of_patched {text : String} {reply : Unit}
    (h : Step world (.patchConfigMap .restore target.name target.namespace_
      (corefileOps target.uid text (removeFirst block text))) (.ok reply) last)
    (htimely : Timely block world (.patchConfigMap .restore target.name target.namespace_
      (corefileOps target.uid text (removeFirst block text))) (.ok reply))
    (hmade : world.Made applyPatch (Ours target.uid block)) (hcontains : Text.contains text block = true) :
    last.Settled applyPatch (HasBlock block) := by
  obtain ⟨hinstall, hleft⟩ := htimely rfl
  obtain ⟨served, hserve, hlater⟩ := h
  cases hserve with
  | elsewhere hcall => exact hcall.elim
  | patched hpatch =>
    refine settled_later hlater ?_
    have hours : Ours target.uid block .restore (corefileOps target.uid text (removeFirst block text)) :=
      ⟨text, hcontains, rfl⟩
    cases hpatch with
    | applied happly =>
      refine settled_of_made (hmade.write hours happly) hinstall ?_
      obtain ⟨config, -, -, -, rfl⟩ := applyPatch_corefileOps.mp happly
      rintro ⟨found, hfound, hblock⟩
      rw [← Option.some.inj hfound, hleft _ (by simp [corefileOps])] at hblock
      cases hblock

theorem restore_settled {rounds : ℕ}
    (h : Execution Step world (restore target block rounds) trace last (.ok true))
    (htimely : ∀ exchange ∈ trace, Timely block exchange.before exchange.op exchange.reply)
    (hmade : world.Made applyPatch (Ours target.uid block)) : last.Settled applyPatch (HasBlock block) := by
  induction rounds generalizing world trace with
  | zero => cases (Execution.done_iff.mp h).2.2
  | succ rounds ih =>
    obtain ⟨current, middle, rest, hread, rfl, hnext⟩ := Execution.invoke_bind_ok h
    obtain ⟨hfirst, hrest⟩ := List.forall_mem_cons.mp htimely
    split at hnext
    · cases (Execution.raise_iff.mp hnext).2.2
    · rename_i huid
      split at hnext
      · cases (Execution.raise_iff.mp hnext).2.2
      · rename_i text htext
        have hmiddle : middle.Made applyPatch (Ours target.uid block) := hread.made trivial hmade
        split at hnext
        · rename_i hcontains
          rw [(Execution.done_iff.mp hnext).2.1]
          exact settled_of_read hread hfirst hmade (not_not.mp huid) htext (by simpa using hcontains)
        · rename_i hcontains
          have hcontains : Text.contains text block = true := by simpa using hcontains
          obtain ⟨sent, patched, after, others, rfl, hsend, hend⟩ := Execution.bind_attempt hnext
          obtain ⟨rfl, hpatch⟩ := Execution.invoke_iff.mp hsend
          obtain ⟨hsent, hothers⟩ := List.forall_mem_append.mp hrest
          cases patched with
          | ok =>
            rw [(Execution.done_iff.mp hend).2.1]
            exact settled_of_patched hpatch (hsent _ (List.mem_singleton_self _)) hmiddle hcontains
          | error error =>
            simp only at hend
            split at hend
            · exact ih hend hothers (hpatch.made ⟨text, hcontains, rfl⟩ hmiddle)
            · cases (Execution.raise_iff.mp hend).2.2

theorem OnlyDeletes.not_restored {callbacks : List Callback} {cleanup : Cleanup}
    (hcallbacks : OnlyDeletes callbacks)
    (h : Execution Step world (cleanUp callbacks) trace last (.ok cleanup)) : cleanup.ruleRestored = false := by
  induction callbacks generalizing world trace last cleanup with
  | nil => rw [Except.ok.inj (Execution.done_iff.mp h).2.2]
  | cons callback rest ih =>
    obtain ⟨⟨name, rfl⟩, hrest⟩ := List.forall_mem_cons.mp hcallbacks
    obtain ⟨first, called, middle, second, -, hcall, hnext⟩ := Execution.bind_attempt h
    cases called with
    | ok restored =>
      obtain ⟨_, others, _, _, -, hothers, hdone⟩ := Execution.bind_ok_iff.mp hnext
      obtain ⟨_, _, _, _, -, -, hfalse⟩ := Execution.bind_ok_iff.mp hcall
      rw [Except.ok.inj (Execution.done_iff.mp hdone).2.2, Except.ok.inj (Execution.done_iff.mp hfalse).2.2]
      simp only [ih hrest hothers, Bool.or_false]
    | error error =>
      simp only at hnext
      split at hnext
      · obtain ⟨_, others, _, _, -, hothers, hdone⟩ := Execution.bind_ok_iff.mp hnext
        rw [Except.ok.inj (Execution.done_iff.mp hdone).2.2]
        simp only [ih hrest hothers]
      · cases (Execution.raise_iff.mp hnext).2.2

theorem cleanUp_settled {name : String} {cleanup : Cleanup}
    (h : Execution Step world (cleanUp [.restore target block, .deleteNamespace name]) trace last (.ok cleanup))
    (htimely : ∀ exchange ∈ trace, Timely block exchange.before exchange.op exchange.reply)
    (hmade : world.Made applyPatch (Ours target.uid block)) (hrestored : cleanup.ruleRestored = true)
    (herrors : cleanup.errors = []) : last.Settled applyPatch (HasBlock block) := by
  have hdelete : OnlyDeletes [.deleteNamespace name] := fun callback hmem ↦ ⟨name, List.mem_singleton.mp hmem⟩
  obtain ⟨first, called, middle, second, rfl, hcall, hnext⟩ := Execution.bind_attempt h
  cases called with
  | ok restored =>
    obtain ⟨third, others, after, fourth, rfl, hothers, hdone⟩ := Execution.bind_ok_iff.mp hnext
    obtain ⟨-, rfl, hcleanup⟩ := Execution.done_iff.mp hdone
    rw [Except.ok.inj hcleanup] at hrestored
    simp only [hdelete.not_restored hothers, Bool.or_false] at hrestored
    rw [hrestored] at hcall
    have hmiddle := restore_settled hcall (List.forall_mem_append.mp htimely).1 hmade
    exact settled_of_calls hdelete.calls hothers hmiddle
  | error error =>
    simp only at hnext
    split at hnext
    · obtain ⟨_, others, _, _, -, -, hdone⟩ := Execution.bind_ok_iff.mp hnext
      rw [Except.ok.inj (Execution.done_iff.mp hdone).2.2] at herrors
      cases herrors
    · cases (Execution.raise_iff.mp hnext).2.2

end Runs

end IsvValidation.K8s.Forwarding
