import IsvValidation.Host.Matching
import IsvValidation.K8s.CorefileEdits

/-!
# What a run leaves of its rule

A run of the probe is followed from its first read of the ConfigMap to its report, and its patches beyond it. No
run overwrites what somebody else wrote. Whether its rule is gone for good where it says so is up to the patch
which installs the rule: it may be on its way when the run ends.
-/

namespace IsvValidation.K8s.Forwarding

open Host Library Library.Program

/-! ## The probe -/

/-- The identity of the ConfigMap which a run reads first. -/
def FirstRead (trace : List (Exchange World Reply)) (uid : String) : Prop :=
  ∃ before name coreNamespace config after rest,
    trace = ⟨before, .getConfigMap name coreNamespace, .ok (some config), after⟩ :: rest ∧ config.uid = uid

/-- The block of a run, with the address of the resolver which it reads. -/
def Forwards (namespace_ : String) (trace : List (Exchange World Reply)) (block : String) : Prop :=
  ∃ before service clusterIp after,
    ⟨before, .getService "upstream" namespace_, .ok (some service), after⟩ ∈ trace ∧
      service.clusterIp = some clusterIp ∧ block = forwardBlock namespace_ clusterIp

section Runs

variable {world last : World} {trace : List (Exchange World Reply)} {uid block namespace_ : String}
  {machine : Machine} {settings : Settings} {timeout : ℤ} {found : Found}

theorem firstRead_of_examine (h : Execution Step world (examine machine settings) trace last (.ok found)) :
    FirstRead trace found.target.uid := by
  rw [examine] at h
  split at h
  · obtain ⟨_, _, _, _, -, -, hraise⟩ := Execution.bind_ok_iff.mp h
    cases (Execution.raise_iff.mp hraise).2.2
  · obtain ⟨config, middle, rest, hread, rfl, hnext⟩ := Execution.invoke_bind_ok h
    cases config with
    | none => cases (Execution.raise_iff.mp hnext).2.2
    | some config =>
      simp only at hnext
      split at hnext
      · cases (Execution.raise_iff.mp hnext).2.2
      · obtain ⟨_, _, _, -, -, hexpected⟩ := Execution.invoke_bind_ok hnext
        obtain ⟨_, _, _, _, -, -, hdone⟩ := Execution.bind_ok_iff.mp hexpected
        rw [Except.ok.inj (Execution.done_iff.mp hdone).2.2]
        exact ⟨world, _, _, config, middle, rest, rfl, rfl⟩

theorem FirstRead.append {others : List (Exchange World Reply)} (h : FirstRead trace uid) :
    FirstRead (trace ++ others) uid := by
  obtain ⟨before, name, coreNamespace, config, after, rest, rfl, huid⟩ := h
  exact ⟨before, name, coreNamespace, config, after, rest ++ others, rfl, huid⟩

theorem forwards_append {others : List (Exchange World Reply)} :
    Forwards namespace_ (trace ++ others) block ↔
      Forwards namespace_ trace block ∨ Forwards namespace_ others block := by
  simp only [Forwards, List.mem_append, or_and_right, exists_or]

theorem not_forwards_of_calls {α : Type} {program : Run α} {outcome : Except Error α}
    {known : Purpose → List PatchOp → Prop} (hcalls : program.Calls (Call.Allowed namespace_ known))
    (h : Execution Step world program trace last outcome) : ¬ Forwards namespace_ trace block := by
  rintro ⟨before, service, clusterIp, after, hmem, -⟩
  exact (hcalls.mem_trace h _ hmem).2 rfl

/-- A run reads one address of the resolver. -/
theorem forwards_upstream {clusterIp : String}
    (h : Execution Step world (upstream settings namespace_ timeout) trace last (.ok clusterIp)) :
    Forwards namespace_ trace block ↔ block = forwardBlock namespace_ clusterIp := by
  obtain ⟨first, _, middle, second, rfl, hfixtures, hnext⟩ := Execution.bind_ok_iff.mp h
  obtain ⟨service, after, rest, -, rfl, hend⟩ := Execution.invoke_bind_ok hnext
  have hcalls : (fixtures settings namespace_ timeout).Calls (Call.Allowed namespace_ fun _ _ ↦ False) := fixtures_calls
  rw [forwards_append, or_iff_right (not_forwards_of_calls hcalls hfixtures)]
  cases service with
  | none => cases (Execution.raise_iff.mp hend).2.2
  | some service =>
    simp only at hend
    split at hend
    · cases (Execution.raise_iff.mp hend).2.2
    · rename_i found hfound
      obtain ⟨rfl, -, hresult⟩ := Execution.done_iff.mp hend
      cases hresult
      constructor
      · rintro ⟨_, other, address, _, hmem, haddress, rfl⟩
        cases List.mem_singleton.mp hmem
        rw [Option.some.inj (hfound.symm.trans haddress)]
      · rintro rfl
        exact ⟨_, service, clusterIp, _, List.mem_singleton_self _, hfound, rfl⟩

/-- The probe came to install the block. -/
structure Began (namespace_ : String) (trace : List (Exchange World Reply)) (last : World) (target : Target)
    (block : String) : Prop where
  read : FirstRead trace target.uid
  forwards : ∀ other, Forwards namespace_ trace other ↔ other = block
  made : last.Made applyPatch (Ours target.uid block)

theorem dnsForwarding_spec {outcome : Except Error Attempt}
    (h : Execution Step world (dnsForwarding machine settings namespace_ timeout) trace last outcome)
    (hmade : world.Made applyPatch fun _ _ ↦ False) : ∃ attempt, outcome = .ok attempt ∧
      ((last.Made applyPatch (fun _ _ ↦ False) ∧ OnlyDeletes attempt.callbacks) ∨
        ∃ target block, attempt.callbacks = [.deleteNamespace namespace_, .restore target block] ∧
          Began namespace_ trace last target block) := by
  obtain ⟨first, examined, middle, second, rfl, hexamine, hnext⟩ := Execution.bind_attempt h
  have hcalls : (examine machine settings).Calls (Call.Allowed namespace_ fun _ _ ↦ False) := examine_calls
  replace hmade := made_of_calls (hcalls.mono fun _ hcall ↦ hcall.1) hexamine hmade
  cases examined with
  | error error =>
    obtain ⟨-, rfl, rfl⟩ := Execution.done_iff.mp hnext
    exact ⟨_, rfl, .inl ⟨hmade, List.forall_mem_nil _⟩⟩
  | ok found =>
    obtain ⟨_, begun, between, rest, rfl, hbegin, hbegun⟩ := Execution.bind_attempt hnext
    obtain ⟨rfl, hcreate⟩ := Execution.invoke_iff.mp hbegin
    replace hmade := hcreate.made trivial hmade
    cases begun with
    | error error =>
      obtain ⟨-, rfl, rfl⟩ := Execution.done_iff.mp hbegun
      exact ⟨_, rfl, .inl ⟨hmade, List.forall_mem_nil _⟩⟩
    | ok begun =>
      obtain ⟨third, prepared, ready, fourth, rfl, hprepare, hrest⟩ := Execution.bind_attempt hbegun
      replace hmade := made_of_calls upstream_sends hprepare hmade
      cases prepared with
      | error error =>
        obtain ⟨-, rfl, rfl⟩ := Execution.done_iff.mp hrest
        exact ⟨_, rfl, .inl ⟨hmade, fun callback hmem ↦ ⟨namespace_, List.mem_singleton.mp hmem⟩⟩⟩
      | ok clusterIp =>
        obtain ⟨fifth, observed, seen, sixth, rfl, hobserve, hdone⟩ := Execution.bind_attempt hrest
        obtain ⟨rfl, rfl, rfl⟩ := Execution.done_iff.mp hdone
        refine ⟨_, rfl, .inr ⟨found.target, forwardBlock namespace_ clusterIp, rfl, ?_, fun other ↦ ?_, ?_⟩⟩
        · exact (firstRead_of_examine hexamine).append
        · have hbefore :
              ¬ Forwards namespace_ [⟨middle, .createNamespace namespace_, .ok begun, between⟩] other := by
            rintro ⟨_, _, _, _, hmem, -⟩
            cases List.mem_singleton.mp hmem
          rw [forwards_append, or_iff_right (not_forwards_of_calls hcalls hexamine), List.append_nil,
            forwards_append, or_iff_right hbefore, forwards_append,
            or_iff_left (not_forwards_of_calls observe_calls hobserve), forwards_upstream hprepare]
        · exact made_of_calls (observe_calls.mono fun _ hcall ↦ hcall.1) hobserve
            (hmade.mono fun _ _ hfalse ↦ hfalse.elim)

theorem conclude_ok {outcome : Except Error Evidence} {cleanup : Cleanup} {report : Report}
    (h : Execution Step world (conclude outcome cleanup) trace last (.ok report)) :
    last = world ∧ report.ruleRestored = cleanup.ruleRestored ∧ report.cleanupErrors = cleanup.errors := by
  rcases outcome with error | evidence
  · rw [conclude] at h
    split_ifs at h
    · obtain ⟨-, rfl, heq⟩ := Execution.done_iff.mp h
      cases heq
      exact ⟨rfl, ruleRestored_cleanedReport _ _, cleanupErrors_cleanedReport _ _⟩
    · cases (Execution.raise_iff.mp h).2.2
  · obtain ⟨-, rfl, heq⟩ := Execution.done_iff.mp h
    cases heq
    exact ⟨rfl, ruleRestored_cleanedReport _ _, cleanupErrors_cleanedReport _ _⟩

theorem conclude_calls {allowed : Call → Prop} (outcome : Except Error Evidence) (cleanup : Cleanup) :
    (conclude outcome cleanup).Calls allowed := by
  rcases outcome with error | evidence
  · rw [conclude]
    split_ifs
    · exact .done _
    · exact .raise _
  · exact .done _

end Runs

/-! ## Every run -/

/-- A patch of a run which is applied, in its time or later, appends the block of the run to the Corefile or
takes it out, in the ConfigMap which the run read first. -/
def NeverOverwrites (namespace_ : String) (trace : List (Exchange World Reply)) (last : World) : Prop :=
  ∀ final, Later last final → ∀ write ∈ final.writes, ∀ purpose, write.author = some purpose →
    ∃ uid block, FirstRead trace uid ∧ Forwards namespace_ trace block ∧ OwnChange uid block write

/-- Where a run reports its rule restored and no errors of the cleanup, the Corefile holds its block later on
only where somebody else put it back. -/
def LeavesNoRule (namespace_ : String) (trace : List (Exchange World Reply)) (last : World)
    (outcome : Except Error Report) : Prop :=
  ∀ report, outcome = .ok report → report.ruleRestored = true → report.cleanupErrors = [] →
    ∃ block, (∀ other, Forwards namespace_ trace other ↔ other = block) ∧
      ∀ final, Later last final → HasBlock block final.stored →
        Shared.BroughtByOthers (HasBlock block) final.writes

section Every

variable {namespace_ uid block : String} {trace : List (Exchange World Reply)} {last : World}

theorem neverOverwrites_of_made (hmade : last.Made applyPatch (Ours uid block)) (hread : FirstRead trace uid)
    (hforwards : Forwards namespace_ trace block) : NeverOverwrites namespace_ trace last := by
  intro final hlater write hwrite purpose hauthor
  have hfinal := holds_later (fun _ _ hmove hbefore ↦ hmove.made hbefore) hlater hmade
  obtain ⟨patch, hours, happly⟩ := hfinal.writes write hwrite purpose hauthor
  exact ⟨uid, block, hread, hforwards, ownChange_of_ours hours happly⟩

theorem neverOverwrites_of_unsent (hmade : last.Made applyPatch fun _ _ ↦ False) :
    NeverOverwrites namespace_ trace last := by
  intro final hlater write hwrite purpose hauthor
  have hfinal := holds_later (fun _ _ hmove hbefore ↦ hmove.made hbefore) hlater hmade
  obtain ⟨patch, hfalse, -⟩ := hfinal.writes write hwrite purpose hauthor
  exact hfalse.elim

end Every

/-- No run overwrites an edit; and where the patches of a run are in time, it leaves no rule behind. -/
theorem run_forwarding (machine : Machine) (namespace_ : String) (configuration : Configuration)
    {stored : Option ConfigMap} {trace : List (Exchange World Reply)} {last : World}
    {outcome : Except Error Report}
    (h : Execution Step { stored } (run machine namespace_ configuration) trace last outcome) :
    NeverOverwrites namespace_ trace last ∧
      ((∀ block, Forwards namespace_ trace block →
        ∀ exchange ∈ trace, Timely block exchange.before exchange.op exchange.reply) →
          LeavesNoRule namespace_ trace last outcome) := by
  have hinitial : ({ stored } : World).Made applyPatch fun _ _ ↦ False := ⟨by simp, by simp⟩
  rw [run] at h
  cases hstart : start machine configuration with
  | error error =>
    simp only [hstart] at h
    split_ifs at h
    · obtain ⟨-, rfl, rfl⟩ := Execution.done_iff.mp h
      refine ⟨neverOverwrites_of_unsent hinitial, fun _ report hreport hrestored ↦ ?_⟩
      rw [← Except.ok.inj hreport, ruleRestored_reportOf] at hrestored
      cases hrestored
    · obtain ⟨-, rfl, rfl⟩ := Execution.raise_iff.mp h
      exact ⟨neverOverwrites_of_unsent hinitial, fun _ report hreport ↦ by cases hreport⟩
  | ok started =>
    simp only [hstart] at h
    obtain ⟨error, rfl, hforwarding⟩ | ⟨first, attempt, middle, second, rfl, hforwarding, hnext⟩ :=
      Execution.bind_iff.mp h
    · obtain ⟨_, heq, -⟩ := dnsForwarding_spec hforwarding hinitial
      cases heq
    · obtain ⟨_, heq, hspec⟩ := dnsForwarding_spec hforwarding hinitial
      cases heq
      obtain ⟨hmade, hcallbacks⟩ | ⟨target, block, hcallbacks, hread, hforwards, hmade⟩ := hspec
      · have hdeletes : OnlyDeletes attempt.callbacks.reverse :=
          fun callback hmem ↦ hcallbacks callback (List.mem_reverse.mp hmem)
        have hlast := made_of_calls (hdeletes.calls.bind (conclude_calls _)) hnext hmade
        refine ⟨neverOverwrites_of_unsent hlast, fun _ report hreport hrestored ↦ ?_⟩
        rw [hreport] at hnext
        obtain ⟨_, cleanup, _, _, -, hcleanup, hconclude⟩ := Execution.bind_ok_iff.mp hnext
        rw [(conclude_ok hconclude).2.1, hdeletes.not_restored hcleanup] at hrestored
        cases hrestored
      · rw [hcallbacks, show [Callback.deleteNamespace namespace_, .restore target block].reverse =
          [.restore target block, .deleteNamespace namespace_] from rfl] at hnext
        have hcalls : (cleanUp [.restore target block, .deleteNamespace namespace_]).Calls
            (Call.Allowed namespace_ (Ours target.uid block)) := by
          refine cleanUp_calls (List.forall_mem_cons.mpr ⟨restore_calls 3, ?_⟩)
          exact List.forall_mem_singleton.mpr delete_calls
        have hall := hcalls.bind (conclude_calls attempt.outcome)
        have hwhole : ∀ other, Forwards namespace_ (first ++ second) other ↔ other = block := fun other ↦ by
          rw [forwards_append, or_iff_left (not_forwards_of_calls hall hnext), hforwards]
        have hlast := made_of_calls (hall.mono fun _ hcall ↦ hcall.1) hnext hmade
        refine ⟨neverOverwrites_of_made hlast hread.append ((hwhole block).mpr rfl), fun htimely report hreport
          hrestored herrors ↦ ⟨block, hwhole, fun final hlater hblock ↦ ?_⟩⟩
        replace htimely := (List.forall_mem_append.mp (htimely block ((hwhole block).mpr rfl))).2
        rw [hreport] at hnext
        obtain ⟨_, cleanup, _, _, rfl, hcleanup, hconclude⟩ := Execution.bind_ok_iff.mp hnext
        obtain ⟨rfl, hsame, hkept⟩ := conclude_ok hconclude
        have hsettled := cleanUp_settled hcleanup (List.forall_mem_append.mp htimely).1 hmade
          (hsame.symm.trans hrestored) (hkept.symm.trans herrors)
        exact (settled_later hlater hsettled).stored hblock

/-! ## A cluster with a plain Corefile -/

def plainMachine : Machine := { isExecutable := fun _ ↦ true, unicode := UnicodeData.ascii.toUnicode }

def plainCorefile : String := ".:53 \x7b\n  reload\n\x7d\n"

def plainConfig : ConfigMap := { uid := "uid", corefile := some plainCorefile }

def plainNamespace : String := "isv-net-0"

def plainBlock : String := forwardBlock plainNamespace "10.0.0.2"

def plainWorld : World := { stored := some plainConfig }

def forwardedCorefile : String := plainCorefile ++ plainBlock

/-- The block is installed. -/
def forwardedWorld : World :=
  plainWorld.write (some .install) (some { plainConfig with corefile := some forwardedCorefile })

/-- The patch which installs the block is on its way. -/
def heldWorld : World :=
  { plainWorld with inFlight := [(.install, corefileOps "uid" plainCorefile forwardedCorefile)] }

section Plain

variable (world : World) (namespace_ : String)

theorem step_read (name : String) : Step world (.getConfigMap name namespace_) (.ok world.stored) world :=
  ⟨_, .read, .refl⟩

theorem step_service (name clusterIp : String) :
    Step world (.getService name namespace_) (.ok (some { clusterIp := some clusterIp })) world :=
  ⟨_, .elsewhere trivial, .refl⟩

theorem step_begin : Step world (.createNamespace namespace_) (.ok ()) world := ⟨_, .elsewhere trivial, .refl⟩

theorem step_delete : Step world (.deleteNamespace namespace_) (.ok ()) world := ⟨_, .elsewhere trivial, .refl⟩

theorem step_create (fixture : Fixture) : Step world (.create namespace_ fixture) (.ok ()) world :=
  ⟨_, .elsewhere trivial, .refl⟩

theorem step_wait (name : String) (seconds : ℤ) :
    Step world (.waitReady name namespace_ seconds) (.ok ()) world :=
  ⟨_, .elsewhere trivial, .refl⟩

theorem step_resolve (host address : String) : Step world (.resolve namespace_ host) (.ok [address]) world :=
  ⟨_, .elsewhere trivial, .refl⟩

end Plain

/-- The block is installed and taken out. -/
theorem run_forwarding_plain : ∃ trace last report,
    Execution Step plainWorld (run plainMachine plainNamespace (.settings {})) trace last (.ok report) ∧
      report.ruleRestored = true ∧ report.cleanupErrors = [] ∧ last.writes.length = 2 ∧
        NeverOverwrites plainNamespace trace last ∧ LeavesNoRule plainNamespace trace last (.ok report) := by
  let restored : World := forwardedWorld.write (some .restore)
    (some { plainConfig with corefile := some (removeFirst plainBlock forwardedCorefile) })
  have hinstall : Step plainWorld (.patchConfigMap .install "coredns" "kube-system"
      (corefileOps "uid" plainCorefile forwardedCorefile)) (.ok ()) forwardedWorld :=
    ⟨_, .patched (.applied rfl), .refl⟩
  have hlogs :
      Step forwardedWorld (.logs "upstream" plainNamespace) (.ok (query plainNamespace)) forwardedWorld :=
    ⟨_, .elsewhere trivial, .refl⟩
  have hretries : Step forwardedWorld (.retries 180) (.ok 0) forwardedWorld := ⟨_, .elsewhere trivial, .refl⟩
  have hremove : Step forwardedWorld (.patchConfigMap .restore "coredns" "kube-system"
      (corefileOps "uid" forwardedCorefile (removeFirst plainBlock forwardedCorefile))) (.ok ()) restored :=
    ⟨_, .patched (.applied rfl), .refl⟩
  have hread :
      Step forwardedWorld (.getConfigMap "coredns" "kube-system") (.ok forwardedWorld.stored) forwardedWorld :=
    step_read _ _ _
  have hrun : Execution Step plainWorld (run plainMachine plainNamespace (.settings {})) _ restored (.ok _) :=
    .call (step_read _ _ _) <| .call (step_service _ _ _ "10.0.0.1") <| .call (step_begin _ _) <|
    .call (step_create _ _ _) <| .call (step_wait _ _ _ _) <| .call (step_create _ _ _) <|
    .call (step_create _ _ _) <| .call (step_wait _ _ _ _) <| .call (step_create _ _ _) <|
    .call (step_service _ _ _ "10.0.0.2") <| .call hinstall <| .call hretries <|
    .call (step_resolve _ _ _ answer) <| .call hlogs <| .call (step_resolve _ _ _ "10.0.0.1") <|
    .call hread <| .call hremove <| .call (step_delete _ _) <| .done _ _
  obtain ⟨hkeeps, hleaves⟩ := run_forwarding plainMachine plainNamespace (.settings {}) hrun
  refine ⟨_, restored, _, hrun, rfl, rfl, rfl, hkeeps, hleaves ?_⟩
  rintro block ⟨before, service, clusterIp, after, hmem, haddress, rfl⟩
  obtain ⟨-, rfl, -⟩ :
      before = plainWorld ∧ service = { clusterIp := some "10.0.0.2" } ∧ after = plainWorld := by
    simpa using hmem
  cases haddress
  have hleft : ∀ text, .replaceCorefile text ∈ corefileOps "uid" forwardedCorefile (removeFirst plainBlock
      forwardedCorefile) → Text.contains text plainBlock = false := by
    intro text htext
    obtain rfl : text = removeFirst plainBlock forwardedCorefile := by simpa [corefileOps] using htext
    decide
  simpa [Timely, plainWorld, plainConfig, plainBlock, forwardedWorld, Shared.write] using hleft

/-- The patch which installs the block times out, arrives after the run, and the block stays. -/
theorem late_install_stays : ∃ trace last report,
    Execution Step plainWorld (run plainMachine plainNamespace (.settings {})) trace last (.ok report) ∧
      report.ruleRestored = true ∧ report.cleanupErrors = [] ∧
        ∃ block final, Forwards plainNamespace trace block ∧ Later last final ∧ HasBlock block final.stored ∧
          ∀ write ∈ final.writes, write.author = some .install := by
  have hinstall : Step plainWorld (.patchConfigMap .install "coredns" "kube-system"
      (corefileOps "uid" plainCorefile forwardedCorefile)) (.error ⟨.subprocess, "timed out"⟩) heldWorld :=
    ⟨_, .failed .unheard, .refl⟩
  have hread : Step heldWorld (.getConfigMap "coredns" "kube-system") (.ok (some plainConfig)) heldWorld :=
    step_read heldWorld _ _
  have hrun : Execution Step plainWorld (run plainMachine plainNamespace (.settings {})) _ heldWorld (.ok _) :=
    .call (step_read _ _ _) <| .call (step_service _ _ _ "10.0.0.1") <| .call (step_begin _ _) <|
    .call (step_create _ _ _) <| .call (step_wait _ _ _ _) <| .call (step_create _ _ _) <|
    .call (step_create _ _ _) <| .call (step_wait _ _ _ _) <| .call (step_create _ _ _) <|
    .call (step_service _ _ _ "10.0.0.2") <| .call hinstall <| .call hread <| .call (step_delete _ _) <|
    .done _ _
  have harrive : Move heldWorld forwardedWorld := @Shared.Move.arrive _ _ _ _ heldWorld _ _ _ [] [] rfl rfl
  refine ⟨_, _, _, hrun, rfl, rfl, plainBlock, forwardedWorld, ?_, .single harrive,
    ⟨forwardedCorefile, rfl, by decide⟩, ?_⟩
  · exact ⟨plainWorld, { clusterIp := some "10.0.0.2" }, "10.0.0.2", plainWorld, by simp, rfl, rfl⟩
  · simp [forwardedWorld, Shared.write, plainWorld]

end IsvValidation.K8s.Forwarding
