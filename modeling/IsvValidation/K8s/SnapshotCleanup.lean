import IsvValidation.K8s.SnapshotEvidence

/-!
# What the check of snapshots leaves behind

Whatever happens, the check asks for the deletion of the namespace which it made, as its last command, and it
touches no other. Only a namespace whose creation was reported as failed, or whose deletion failed, can be left,
and the latter is told, unless an exception which the check does not catch is told in its place. The snapshot is
not deleted before what may hold on to it.
-/

namespace IsvValidation.K8s.Snapshot

open Config Host Library Library.Program Validation

universe w

variable {World : Type w} {step : World → Command → CommandResult → World → Prop} {host : CheckHost} {params : Params}
  {world last : World} {trace : List (Exchange World fun _ : Command ↦ CommandResult)}

/-! ## Namespaces -/

/-- The namespace which a command changes, or in which it changes something. -/
def Command.touches : Command → Option String
  | .get _ _ _ | .waitReady _ _ _ | .waitSnapshot _ _ _ | .waitGone _ _ => none
  | .createNamespace ns | .apply ns _ | .exec ns _ _ | .delete _ _ ns _ | .deleteNamespace ns _ => some ns

/-- How a command moves the namespaces: one that failed may have done its work or not. -/
def Moves (before : Set String) (command : Command) (reply : CommandResult) (after : Set String) : Prop :=
  match command with
  | .createNamespace ns =>
    (reply.exitCode = 0 → ns ∈ after) ∧ ∀ other, other ≠ ns → (other ∈ after ↔ other ∈ before)
  | .deleteNamespace ns _ =>
    (reply.exitCode = 0 → ns ∉ after) ∧ ∀ other, other ≠ ns → (other ∈ after ↔ other ∈ before)
  | _ => after = before

/-- An object of the restore was removed. -/
def Removed (own resource : String) (exchange : Exchange World fun _ : Command ↦ CommandResult) : Prop :=
  (∃ seconds, exchange.op = .delete resource "restored" own seconds) ∧ exchange.reply.exitCode = 0

/-- The report tells that the namespace is left, or an exception took the place of this. -/
def Tells (host : CheckHost) (report : Report) : Prop :=
  (∃ before error, report = cleanupFailed host before "Namespace" error) ∨
    ∃ before error, isCaught error = false ∧ report = raisedReport before error

/-! ## The order of the commands -/

/-- What has been done so far: how the namespace was asked for, what is removed, and how the namespace was
deleted. -/
structure Standing where
  created : Option Bool := none
  podGone : Bool := false
  claimGone : Bool := false
  deleted : Option Bool := none

/-- An object of the restore is gone. -/
def Standing.without (standing : Standing) (resource : String) : Standing :=
  { standing with
    podGone := standing.podGone || resource = "pod"
    claimGone := standing.claimGone || resource = "pvc" }

/-- Things are made in the own namespace once it is there, the snapshot goes after what may hold on to it, and
nothing comes after the deletion of the namespace. -/
def guard (own : String) : Monitor Command (fun _ ↦ CommandResult) Standing where
  allowed standing command := standing.deleted = none ∧
    match command with
    | .get _ _ _ => True
    | .createNamespace ns => ns = own ∧ standing.created = none
    | .delete resource _ ns _ => ns = own ∧ standing.created = some true ∧
        (resource = "volumesnapshot" → standing.podGone = true ∧ standing.claimGone = true)
    | .apply ns _ | .exec ns _ _ | .waitReady ns _ _ | .waitSnapshot ns _ _ | .deleteNamespace ns _ =>
      ns = own ∧ standing.created = some true
    | .waitGone _ _ => standing.created = some true
  sent standing _ := standing
  heard standing command reply :=
    match command with
    | .createNamespace _ => { standing with created := some (reply.exitCode = 0) }
    | .delete resource name _ _ =>
      if name = "restored" ∧ reply.exitCode = 0 then standing.without resource else standing
    | .deleteNamespace _ _ => { standing with deleted := some (reply.exitCode = 0) }
    | _ => standing

variable {own : String} {standing : Standing}

/-- The namespace is there, and not deleted. -/
def Standing.Open (standing : Standing) : Prop := standing.created = some true ∧ standing.deleted = none

/-! ## The parts of a run -/

/-- Commands inside the own namespace. -/
def Inside (own : String) : Command → Prop
  | .get _ _ _ => True
  | .apply ns _ | .exec ns _ _ | .waitReady ns _ _ | .waitSnapshot ns _ _ => ns = own
  | _ => False

theorem Inside.obeys {α : Type} {program : Run PyError α} (h : program.Calls (Inside own)) (hopen : standing.Open) :
    program.Obeys (guard own) (fun standing _ ↦ standing.Open) (fun standing _ ↦ standing.Open) standing := by
  refine h.obeys (I := Standing.Open) (fun standing command hopen hinside ↦ ?_) hopen
  cases command <;> simp_all [Inside, guard, Standing.Open]

theorem getObject_inside {resource name : String} {ns : Option String} :
    (getObject host resource name ns).Calls (Inside own) := .demand trivial

theorem getNamed_inside {resource : String} {name : Json} : (getNamed host resource name).Calls (Inside own) := by
  cases name with
  | str name => exact getObject_inside
  | _ => exact .raise _

theorem create_inside {what : String} {manifest : Manifest} :
    (create host own what manifest).Calls (Inside own) := .demand rfl

theorem execIn_inside {pod : String} {argv : List String} : (execIn host own pod argv).Calls (Inside own) :=
  .bind (.demand rfl) fun _ ↦ .done _

theorem mount_inside {driver : Json} {name : String} :
    (mount host params driver name).Calls (Inside params.ns) :=
  .bind create_inside fun _ ↦ .bind (.demand rfl) fun _ ↦ .bind getObject_inside fun _ ↦
    .bind (.ofExcept _) fun _ ↦ .bind getNamed_inside fun _ ↦ .ofExcept _

theorem seed_inside {driver : Json} : (seed host params driver).Calls (Inside params.ns) :=
  .bind create_inside fun _ ↦ .bind mount_inside fun _ ↦ .bind execIn_inside fun _ ↦
    .bind create_inside fun _ ↦ .done _

theorem readSnapshot_inside : (readSnapshot host params).Calls (Inside params.ns) :=
  .bind (.demand rfl) fun _ ↦ getObject_inside

theorem checkSnapshot_inside {driver snapshot status contentName : Json} :
    (checkSnapshot host driver snapshot status contentName).Calls (Inside own) :=
  .bind (.ofExcept _) fun _ ↦ .bind getNamed_inside fun _ ↦ .ofExcept _

theorem restore_inside {driver handle : Json} : (restore host params driver handle).Calls (Inside params.ns) :=
  .bind execIn_inside fun _ ↦ .bind create_inside fun _ ↦ .bind mount_inside fun _ ↦ .bind (.ofExcept _) fun _ ↦
    .bind execIn_inside fun _ ↦ .bind (.ofExcept _) fun _ ↦ .bind execIn_inside fun _ ↦ .ofExcept _

/-- The namespace comes last, and where it does not come, it was not reported as made. -/
theorem prepare_obeys : (prepare host params).Obeys (guard params.ns) (fun standing _ ↦ standing.Open)
    (fun standing _ ↦ standing.created ≠ some true ∧ standing.deleted = none) {} := by
  refine Obeys.bind (R := fun standing _ ↦ standing = {}) (obeys_demand ⟨rfl, trivial⟩ (fun _ _ _ ↦ rfl)
    fun _ _ _ ↦ ⟨by simp [guard], rfl⟩) ?_
  rintro _ storage rfl
  refine Obeys.bind (R := fun standing _ ↦ standing = {}) (obeys_demand ⟨rfl, trivial⟩ (fun _ _ _ ↦ rfl)
    fun _ _ _ ↦ ⟨by simp [guard], rfl⟩) ?_
  rintro _ snapshot rfl
  refine Obeys.bind (R := fun standing _ ↦ standing = {}) (obeys_ofExcept (fun _ _ ↦ rfl)
    fun _ _ ↦ ⟨by simp, rfl⟩) ?_
  rintro _ driver rfl
  refine Obeys.bind (R := fun standing _ ↦ standing.Open) (obeys_demand ⟨rfl, rfl, rfl⟩ (fun reply result hread ↦ ?_)
    fun reply error hread ↦ ?_) fun standing _ hopen ↦ hopen
  · simp [guard, Standing.Open, (commandOutput_ok.mp hread).1]
  · by_cases hcode : reply.exitCode = 0 <;> simp_all [guard, commandOutput]

/-- The progress knows whether the namespace was made. -/
def Known (standing : Standing) (progress : Progress) : Prop :=
  standing.deleted = none ∧ (progress.created = true ↔ standing.created = some true)

theorem during_obeys {α : Type} {progress : Progress} {program : Run PyError α} (h : program.Calls (Inside own))
    (hopen : standing.Open) (hcreated : progress.created = true) (hpassed : progress.report.passed = false) :
    (during progress program).Obeys (guard own) (fun standing _ ↦ standing.Open)
      (fun standing stopped ↦ Known standing stopped.1 ∧ stopped.1.report.passed = false) standing :=
  (Inside.obeys h hopen).mapError fun _ _ hopen ↦
    ⟨⟨hopen.2, iff_of_true hcreated hopen.1⟩, hpassed⟩

theorem body_obeys : (body host params).Obeys (guard params.ns)
    (fun standing progress ↦ standing.Open ∧ progress.created = true)
    (fun standing stopped ↦ Known standing stopped.1 ∧ stopped.1.report.passed = false) {} := by
  refine Obeys.bind (prepare_obeys.mapError fun standing error h ↦ ?_) fun standing driver hopen ↦ ?_
  · exact ⟨⟨h.2, iff_of_false Bool.false_ne_true h.1⟩, rfl⟩
  refine Obeys.bind (during_obeys seed_inside hopen rfl rfl) fun standing handle hopen ↦ ?_
  refine Obeys.bind (during_obeys readSnapshot_inside hopen rfl rfl) fun standing snapshot hopen ↦ ?_
  refine Obeys.bind (during_obeys (.ofExcept _) hopen rfl rfl) fun standing bound hopen ↦ ?_
  refine Obeys.bind (during_obeys checkSnapshot_inside hopen rfl rfl) fun standing _ hopen ↦ ?_
  refine Obeys.bind (during_obeys restore_inside hopen rfl rfl) fun standing _ hopen ↦ ?_
  exact ⟨hopen, rfl⟩

/-- Removing an object of the restore. -/
theorem delete_obeys {resource : String} {seconds : ℤ} (hopen : standing.Open) (hresource : resource ≠ "volumesnapshot") :
    (runCommand host (.delete resource "restored" own seconds)).Obeys (guard own)
      (fun after _ ↦ after = standing.without resource) (fun after _ ↦ after = standing) standing := by
  refine obeys_demand ⟨hopen.2, rfl, hopen.1, fun heq ↦ absurd heq hresource⟩ (fun reply stdout hread ↦ ?_)
    fun reply error hread ↦ ?_
  · simp [guard, (commandOutput_ok.mp hread).1]
  · by_cases hcode : reply.exitCode = 0 <;> simp_all [guard, commandOutput]

theorem removeRestored_obeys {progress : Progress} {seconds : ℤ} (hopen : standing.Open) :
    (removeRestored host params progress seconds).Obeys (guard params.ns) (fun standing _ ↦ standing.Open)
      (fun standing _ ↦ standing.Open) standing := by
  have hpod : "pod" ≠ "volumesnapshot" := by decide
  have hclaim : "pvc" ≠ "volumesnapshot" := by decide
  refine Obeys.bind ((delete_obeys hopen hpod).mono (fun _ _ h ↦ h) fun _ _ h ↦ h ▸ hopen) ?_
  rintro _ - rfl
  have hfirst : (standing.without "pod").Open := hopen
  have hsecond : ((standing.without "pod").without "pvc").Open := hopen
  refine Obeys.bind ((delete_obeys hfirst hclaim).mono (fun _ _ h ↦ h) fun _ _ h ↦ h ▸ hfirst) ?_
  rintro _ - rfl
  have hwait : ∀ {standing : Standing}, standing.Open →
      Obeys (guard params.ns) (fun standing _ ↦ standing.Open) (fun standing _ ↦ standing.Open) standing
        (if progress.contentName.truthy = true then
          (runCommand host (.waitGone (host.strOf progress.contentName.toValue) seconds)).bind fun _ ↦ .done ()
        else .done () : Run PyError Unit) := by
    intro standing hopen
    split_ifs
    · exact Obeys.bind (obeys_demand ⟨hopen.2, hopen.1⟩ (fun _ _ _ ↦ hopen) fun _ _ _ ↦ hopen) fun _ _ h ↦ h
    · exact hopen
  simp only
  by_cases hsnapshot : progress.snapshotCreated = true
  · rw [if_pos hsnapshot]
    refine Obeys.bind (obeys_demand ⟨hsecond.2, rfl, hsecond.1, fun _ ↦ ⟨?_, ?_⟩⟩ (fun _ _ _ ↦ ?_) fun _ _ _ ↦ ?_)
      fun _ _ hopen ↦ hwait hopen
    · simp [Standing.without]
    · simp [Standing.without]
    · simpa [guard] using hsecond
    · simpa [guard] using hsecond
  · rw [if_neg hsnapshot]
    exact hwait hsecond

/-- What is known when the cleanup has ended. -/
structure Finished (host : CheckHost) (progress : Progress) (standing : Standing) (report : Report) : Prop where
  created : progress.created = true ↔ standing.created = some true
  deleted : progress.created = true → standing.deleted ≠ none
  told : standing.deleted = some false → ∃ before error, report = cleanupFailed host before "Namespace" error
  passed : report.passed = true → progress.report.passed = true

theorem Finished.removed {progress : Progress} {report : Report} (h : Finished host progress standing report)
    (hmade : progress.created = true) (hpassed : report.passed = true) : standing.deleted = some true := by
  cases hdeleted : standing.deleted with
  | none => exact absurd hdeleted (h.deleted hmade)
  | some gone =>
    cases gone with
    | true => rfl
    | false =>
      obtain ⟨before, error, rfl⟩ := h.told hdeleted
      exact absurd hpassed Bool.false_ne_true

theorem cleanup_obeys {progress : Progress} (hknown : Known standing progress) :
    (cleanup host params progress).Obeys (guard params.ns) (fun standing report ↦ Finished host progress standing report)
      (fun _ _ ↦ False) standing := by
  obtain ⟨hdeleted, hcreated⟩ := hknown
  unfold cleanup
  cases hmade : progress.created with
  | false =>
    rw [hmade] at hcreated
    exact ⟨by simpa [hmade] using hcreated, by simp [hmade], by simp [hdeleted], id⟩
  | true =>
    have hopen : standing.Open := ⟨hcreated.mp hmade, hdeleted⟩
    refine Obeys.bind (removeRestored_obeys hopen).attempt fun standing removed hremoved ↦ ?_
    have hopen : standing.Open := by
      cases removed with
      | ok => exact hremoved
      | error => exact hremoved
    have hdelete : (runCommand host (.deleteNamespace params.ns (max params.seconds 120))).Obeys (guard params.ns)
        (fun after _ ↦ after = { standing with deleted := some true })
        (fun after _ ↦ after = { standing with deleted := some false }) standing := by
      refine obeys_demand ⟨hopen.2, rfl, hopen.1⟩ (fun reply stdout hread ↦ ?_) fun reply error hread ↦ ?_
      · simp [guard, (commandOutput_ok.mp hread).1]
      · by_cases hcode : reply.exitCode = 0 <;> simp_all [guard, commandOutput]
    refine Obeys.bind hdelete.attempt fun after gone hgone ↦ ?_
    cases gone with
    | ok stdout =>
      obtain rfl := hgone
      refine ⟨iff_of_true hmade hopen.1, by simp, by simp, fun hpassed ↦ ?_⟩
      cases removed with
      | ok => exact hpassed
      | error error => simp at hpassed
    | error error =>
      obtain rfl := hgone
      exact ⟨iff_of_true hmade hopen.1, by simp, fun _ ↦ ⟨_, error, rfl⟩, by simp⟩

/-- What is known when a run has ended. -/
structure Settled (host : CheckHost) (standing : Standing) (outcome : Outcome) : Prop where
  deleted : standing.created = some true → standing.deleted ≠ none
  told : standing.deleted = some false → ∃ report, outcome = .finished report ∧ Tells host report
  passed : outcome.Passed → standing.deleted = some true

theorem runWith_obeys : (runWith host params).Obeys (guard params.ns)
    (fun standing ended ↦ Settled host standing ended.outcome) (fun _ _ ↦ False) {} := by
  refine Obeys.bind body_obeys.attempt fun standing ended hended ↦ ?_
  cases ended with
  | ok progress =>
    obtain ⟨hopen, hmade⟩ := hended
    refine Obeys.bind (cleanup_obeys ⟨hopen.2, iff_of_true hmade hopen.1⟩) fun standing report hfinished ↦ ?_
    exact ⟨fun _ ↦ hfinished.deleted hmade, fun hfalse ↦ ⟨report, rfl, .inl (hfinished.told hfalse)⟩,
      hfinished.removed hmade⟩
  | error stopped =>
    obtain ⟨progress, error⟩ := stopped
    obtain ⟨hknown, hpassed⟩ := hended
    simp only
    split_ifs with hcaught
    · have hfailed : Known standing { progress with report := progress.report.setFailed (errorText error) } := hknown
      refine Obeys.bind (cleanup_obeys hfailed) fun standing report hfinished ↦ ?_
      exact ⟨fun hmade ↦ hfinished.deleted (hfinished.created.mpr hmade),
        fun hfalse ↦ ⟨report, rfl, .inl (hfinished.told hfalse)⟩,
        fun hreport ↦ absurd (hfinished.passed hreport) Bool.false_ne_true⟩
    · refine Obeys.bind (cleanup_obeys hknown) fun standing report hfinished ↦ ?_
      exact ⟨fun hmade ↦ hfinished.deleted (hfinished.created.mpr hmade),
        fun _ ↦ ⟨_, rfl, .inr ⟨report, error, by simpa using hcaught, rfl⟩⟩,
        fun hreport ↦ absurd hreport Bool.false_ne_true⟩

theorem paramsOf_ns {setting : Setting} {config : Items} (h : paramsOf host setting config = .ok params) :
    params.ns = s!"isvtest-csi-snapshot-{setting.suffix}" := by
  obtain ⟨classes, -, h⟩ := bind_eq_ok.mp h
  obtain ⟨seconds, -, h⟩ := bind_eq_ok.mp h
  obtain ⟨_, -, h⟩ := bind_eq_ok.mp h
  cases h
  rfl

theorem execute_obeys {setting : Setting} {config : Items} {own : String}
    (hown : own = s!"isvtest-csi-snapshot-{setting.suffix}") :
    (execute host setting config).Obeys (guard own) (fun standing outcome ↦ Settled host standing outcome)
      (fun _ _ ↦ False) {} := by
  have hfailed : ∀ report : Report, report.passed = false → Settled host {} (.finished report) := fun report hreport ↦
    ⟨by simp, by simp, fun hpassed ↦ absurd (hreport.symm.trans hpassed) Bool.false_ne_true⟩
  have hskipped : ∀ reason, Settled host {} (.skipped reason) := fun reason ↦ ⟨by simp, by simp, False.elim⟩
  unfold execute
  split
  · exact hskipped _
  · split
    · exact hskipped _
    · exact hfailed _ rfl
    · exact hfailed _ rfl
    · next params hparams =>
      obtain rfl : params.ns = own := (paramsOf_ns hparams).trans hown.symm
      exact Obeys.bind runWith_obeys fun standing ended hsettled ↦ hsettled

/-! ## The namespace is handed back -/

/-- What the check leaves of a cluster, and how. -/
structure HandsBack (host : CheckHost) (own : String) (before after : Set String)
    (trace : List (Exchange World fun _ : Command ↦ CommandResult)) (outcome : Except PyError Outcome) : Prop where
  others : ∀ ns, ns ≠ own → (ns ∈ after ↔ ns ∈ before)
  inside : ∀ exchange ∈ trace, ∀ ns ∈ exchange.op.touches, ns = own
  ordered : ∀ earlier exchange rest, trace = earlier ++ exchange :: rest →
    (∃ name seconds, exchange.op = .delete "volumesnapshot" name own seconds) →
    (∃ exchange ∈ earlier, Removed own "pod" exchange) ∧ ∃ exchange ∈ earlier, Removed own "pvc" exchange
  last : ∀ earlier exchange rest, trace = earlier ++ exchange :: rest →
    (∃ seconds, exchange.op = .deleteNamespace own seconds) → rest = []
  left : own ∈ after → (∃ exchange ∈ trace, exchange.op = .createNamespace own ∧ exchange.reply.exitCode ≠ 0) ∨
    ((∃ exchange ∈ trace, (∃ seconds, exchange.op = .deleteNamespace own seconds) ∧ exchange.reply.exitCode ≠ 0) ∧
      ∃ report, outcome = .ok (.finished report) ∧ Tells host report)
  passed : ∀ found, outcome = .ok found → found.Passed → own ∉ after

variable {own : String}

theorem guard_inside {command : Command} (h : (guard own).allowed standing command) :
    ∀ ns ∈ command.touches, ns = own := by
  cases command <;> simp_all [guard, Command.touches]

theorem moves_other {before after : Set String} {command : Command} {reply : CommandResult}
    (h : Moves before command reply after) (hinside : ∀ ns ∈ command.touches, ns = own) {ns : String} (hns : ns ≠ own) :
    ns ∈ after ↔ ns ∈ before := by
  cases command with
  | createNamespace other => exact h.2 ns fun heq ↦ hns (heq.trans (hinside other rfl))
  | deleteNamespace other seconds => exact h.2 ns fun heq ↦ hns (heq.trans (hinside other rfl))
  | _ => rw [show after = before from h]

/-- A namespace which is there was asked for, and its deletion did not succeed. -/
theorem standing_of_mem {before after : Set String} {command : Command} {reply : CommandResult}
    (h : own ∈ before → standing.created ≠ none ∧ standing.deleted ≠ some true)
    (hallowed : (guard own).allowed standing command) (hmoves : Moves before command reply after) (hmem : own ∈ after) :
    ((guard own).heard standing command reply).created ≠ none ∧
      ((guard own).heard standing command reply).deleted ≠ some true := by
  obtain ⟨hdeleted, hallowed⟩ := hallowed
  cases command with
  | createNamespace ns => simp [guard, hdeleted]
  | deleteNamespace ns seconds =>
    obtain ⟨rfl, hcreated⟩ := hallowed
    have hfailed : reply.exitCode ≠ 0 := fun hcode ↦ hmoves.1 hcode hmem
    simp [guard, hcreated, hfailed]
  | delete resource name ns seconds =>
    obtain rfl : after = before := hmoves
    simp only [guard]
    split_ifs
    · exact h hmem
    · exact h hmem
  | _ =>
    obtain rfl : after = before := hmoves
    exact h hmem

/-- What the guard finds removed was removed by a command which succeeded. -/
theorem removed_of_gone {resource : String} {gone : Standing → Bool} {earlier rest : List _}
    {exchange : Exchange World fun _ : Command ↦ CommandResult}
    (hpermits : (guard own).Permits {} (earlier ++ exchange :: rest)) (hgone : gone {} = false)
    (hwithout : ∀ standing other, gone (Standing.without standing other) = (gone standing || other = resource))
    (hcreated : ∀ standing created, gone { standing with created } = gone standing)
    (hdeleted : ∀ standing deleted, gone { standing with deleted } = gone standing)
    (hneeds : ∀ standing, (guard own).allowed standing exchange.op → gone standing = true) :
    ∃ exchange ∈ earlier, Removed own resource exchange := by
  refine hpermits.preceded (O := fun standing ↦ gone standing = false) ?_ hgone fun standing hallowed ↦ by
    simp [hneeds standing hallowed]
  intro exchange _ standing hlacks hallowed hremoved
  obtain ⟨before, command, reply, after⟩ := exchange
  obtain ⟨hopen, hallowed⟩ := hallowed
  cases command with
  | createNamespace ns => exact (hcreated _ _).trans hlacks
  | deleteNamespace ns seconds => exact (hdeleted _ _).trans hlacks
  | delete other name ns seconds =>
    simp only [guard, Monitor.after]
    split_ifs with hname
    · obtain ⟨rfl, hcode⟩ := hname
      obtain rfl := hallowed.1
      rw [hwithout, hlacks, Bool.false_or, decide_eq_false_iff_not]
      rintro rfl
      exact hremoved ⟨⟨seconds, rfl⟩, hcode⟩
    · exact hlacks
  | _ => exact hlacks

/-- A creation which is known to have failed did so. -/
theorem exists_creation_failed (hpermits : (guard own).Permits {} trace)
    (hfailed : ((guard own).along {} trace).created = some false) :
    ∃ exchange ∈ trace, exchange.op = .createNamespace own ∧ exchange.reply.exitCode ≠ 0 := by
  refine hpermits.exists_settled (O := fun standing ↦ standing.created ≠ some false) ?_ (by simp)
    (not_not_intro hfailed)
  rintro ⟨before, command, reply, after⟩ - standing howes ⟨-, hallowed⟩ hsettles
  cases command with
  | createNamespace ns =>
    obtain rfl := hallowed.1
    have hcode : reply.exitCode = 0 := not_not.mp fun hcode ↦ hsettles ⟨rfl, hcode⟩
    simp [guard, Monitor.after, hcode]
  | delete resource name ns seconds =>
    simp only [guard, Monitor.after]
    split_ifs
    · exact howes
    · exact howes
  | _ => exact howes

theorem exists_deletion_failed (hpermits : (guard own).Permits {} trace)
    (hfailed : ((guard own).along {} trace).deleted = some false) :
    ∃ exchange ∈ trace, (∃ seconds, exchange.op = .deleteNamespace own seconds) ∧ exchange.reply.exitCode ≠ 0 := by
  refine hpermits.exists_settled (O := fun standing ↦ standing.deleted ≠ some false) ?_ (by simp)
    (not_not_intro hfailed)
  rintro ⟨before, command, reply, after⟩ - standing howes ⟨-, hallowed⟩ hsettles
  cases command with
  | deleteNamespace ns seconds =>
    obtain rfl := hallowed.1
    have hcode : reply.exitCode = 0 := not_not.mp fun hcode ↦ hsettles ⟨⟨seconds, rfl⟩, hcode⟩
    simp [guard, Monitor.after, hcode]
  | delete resource name ns seconds =>
    simp only [guard, Monitor.after]
    split_ifs
    · exact howes
    · exact howes
  | _ => exact howes

/-- The check hands the cluster back as it was, or tells what is left. -/
theorem snapshotCheck_handsBack {namespaces : World → Set String} {setting : Setting} {config : Items}
    {outcome : Except PyError Outcome} (hown : own = s!"isvtest-csi-snapshot-{setting.suffix}")
    (hmoves : ∀ before command reply after, step before command reply after →
      Moves (namespaces before) command reply (namespaces after))
    (hfresh : own ∉ namespaces world) (h : Execution step world (execute host setting config) trace last outcome) :
    HandsBack host own (namespaces world) (namespaces last) trace outcome := by
  obtain ⟨hpermits, hreturns, hraises⟩ := (execute_obeys hown).execution h
  have hstep := h.step_of_mem
  have hinside : ∀ exchange ∈ trace, ∀ ns ∈ exchange.op.touches, ns = own :=
    hpermits.forall_mem (I := fun _ ↦ True) (fun _ _ _ _ _ ↦ trivial) (fun _ _ _ _ hallowed ↦ guard_inside hallowed)
      trivial
  have hleft : own ∈ namespaces last →
      ((guard own).along {} trace).created ≠ none ∧ ((guard own).along {} trace).deleted ≠ some true :=
    hpermits.invariant (I := fun standing world ↦ own ∈ namespaces world →
      standing.created ≠ none ∧ standing.deleted ≠ some true) h
      (fun _ _ _ hstanding hallowed hmade ↦ standing_of_mem hstanding hallowed (hmoves _ _ _ _ hmade))
      fun hmem ↦ absurd hmem hfresh
  obtain ⟨found, rfl⟩ : ∃ found, outcome = .ok found := by
    cases outcome with
    | ok found => exact ⟨found, rfl⟩
    | error error => exact (hraises error rfl).elim
  have hsettled := hreturns found rfl
  constructor
  case others =>
    intro ns hns
    exact h.persists (P := fun world' ↦ ns ∈ namespaces world' ↔ ns ∈ namespaces world)
      (fun exchange hmem hbefore ↦ (moves_other (hmoves _ _ _ _ (hstep exchange hmem)) (hinside exchange hmem)
        hns).trans hbefore) Iff.rfl
  case inside => exact hinside
  case ordered =>
    rintro earlier exchange rest rfl ⟨name, seconds, hop⟩
    have hneeds : ∀ standing, (guard own).allowed standing exchange.op →
        standing.podGone = true ∧ standing.claimGone = true := by
      rintro standing ⟨-, hallowed⟩
      rw [hop] at hallowed
      exact hallowed.2.2 rfl
    exact ⟨removed_of_gone hpermits rfl (fun _ _ ↦ rfl) (fun _ _ ↦ rfl) (fun _ _ ↦ rfl) fun _ h ↦ (hneeds _ h).1,
      removed_of_gone hpermits rfl (fun _ _ ↦ rfl) (fun _ _ ↦ rfl) (fun _ _ ↦ rfl) fun _ h ↦ (hneeds _ h).2⟩
  case last =>
    rintro earlier ⟨before, command, reply, after⟩ rest rfl ⟨seconds, rfl⟩
    cases rest with
    | nil => rfl
    | cons next others =>
      obtain ⟨-, ⟨hdeleted, -⟩, -⟩ := hpermits.of_append
      cases hdeleted
  case left =>
    intro hmem
    obtain ⟨hcreated, hdeleted⟩ := hleft hmem
    cases hasked : ((guard own).along {} trace).created with
    | none => exact absurd hasked hcreated
    | some created =>
      cases created with
      | false => exact .inl (exists_creation_failed hpermits hasked)
      | true =>
        have hfailed : ((guard own).along {} trace).deleted = some false := by
          cases hgone : ((guard own).along {} trace).deleted with
          | none => exact absurd hgone (hsettled.deleted hasked)
          | some gone => cases gone <;> simp_all
        obtain ⟨report, rfl, htells⟩ := hsettled.told hfailed
        exact .inr ⟨exists_deletion_failed hpermits hfailed, report, rfl, htells⟩
  case passed =>
    intro result heq hpassed hmem
    obtain rfl := Except.ok.inj heq
    exact (hleft hmem).2 (hsettled.passed hpassed)

def Site.present (site : Site) : Set String := {ns | ns ∈ site.namespaces}

theorem restores_moves (before : Site) (command : Command) (reply : CommandResult) (after : Site)
    (h : restores before command = (reply, after)) : Moves before.present command reply after.present := by
  cases command with
  | createNamespace ns =>
    cases h
    exact ⟨fun _ ↦ List.mem_cons_self, fun other hother ↦ List.mem_cons.trans (or_iff_right hother)⟩
  | deleteNamespace ns seconds =>
    cases h
    refine ⟨fun _ hmem ↦ ?_, fun other hother ↦ List.mem_filter.trans (and_iff_left (by simpa using hother))⟩
    simpa using (List.mem_filter.mp hmem).2
  | exec ns pod argv =>
    simp only [restores] at h
    split_ifs at h <;> cases h <;> rfl
  | _ =>
    cases h
    rfl

theorem snapshotCheck_handsBack_site : HandsBack siteHost "isvtest-csi-snapshot-0a1b2c3d" (Site.present {})
    siteLast.present siteTrace siteOutcome :=
  snapshotCheck_handsBack rfl restores_moves
    (fun hmem ↦ absurd (List.mem_singleton.mp hmem) (by decide)) execution_site

end IsvValidation.K8s.Snapshot
