import IsvValidation.Library.Sequence
import IsvValidation.Host.Runtime

/-!
# Composite checks

A composite runs the members of its `compose` list and folds their outcomes. Items which are neither
a name nor a mapping are dropped when the members are read, and the composite notices by comparing
two lengths only. A mapping with two names makes up for a dropped item, and parameters which are no
mapping are read as none; a composite passes wrongly exactly where this happens and every member
passes.
-/

namespace IsvValidation.Pytest

open Config Host Library

/-- How the execution of a check ends. -/
inductive CheckOutcome where
  | passed (output : String)
  | failed (error : String)
  | skipped (reason : String)
  deriving DecidableEq

namespace CheckOutcome

def isFailed : CheckOutcome → Bool
  | failed _ => true
  | _ => false

def isSkipped : CheckOutcome → Bool
  | skipped _ => true
  | _ => false

end CheckOutcome

/-- One reported subtest. -/
structure Subtest where
  name : String
  passed : Bool
  skipped : Bool
  message : String
  deriving DecidableEq

/-! ## Reading the members -/

def wiringKeys : List String := ["compose", "test_id", "labels", "description"]

/-- The entries of a mapping which is given as the parameters of a member. -/
def memberParams : Value → Items
  | .dict params => params
  | _ => []

section Members

variable (host : Runtime)

/-- The members which one item of a `compose` list contributes. -/
def itemMembers : Value → List (String × Items)
  | .scalar (.str name) => if name = "" then [] else [(name, [])]
  | .dict items => items.map fun item ↦ (host.strOf (.scalar item.1), memberParams item.2)
  | _ => []

/-- `composed_members`. -/
def composedMembers : Value → List (String × Items)
  | .list items => items.flatMap (itemMembers host)
  | _ => []

end Members

/-! ## Running them -/

/-- `{**shared, **params}`. -/
def mergeParams (shared params : Items) : Items :=
  params.foldl (fun merged item ↦ Value.assignKey item.1 item.2 merged) shared

/-- The lists which the loop over the members builds. -/
structure MemberReports where
  outputs : List String := []
  failures : List String := []
  skips : List String := []
  subtests : List Subtest := []

section Run

variable (host : Runtime) (execute : ℕ → String → Items → CheckOutcome) (shared : Items)

/-- The outcome of one member; a check whose class is unknown fails without being executed. The
members share a state, so an execution may depend on its position. -/
def memberOutcome (index : ℕ) (member : String × Items) : CheckOutcome :=
  if host.classes.any (·.name = member.1) then
    execute index member.1 (mergeParams shared member.2)
  else .failed "unknown validation class"

/-- One round of the loop. -/
def MemberReports.add (reports : MemberReports) (name : String) : CheckOutcome → MemberReports
  | .skipped reason =>
    { reports with
      skips := reports.skips ++ [s!"{name}: {reason}"]
      subtests := reports.subtests ++ [⟨name, false, true, reason⟩] }
  | .passed output =>
    { reports with
      outputs := reports.outputs ++ [if output = "" then name else s!"{name}: {output}"]
      subtests := reports.subtests ++ [⟨name, true, false, output⟩] }
  | .failed error =>
    { reports with
      failures := reports.failures ++ [s!"{name}: {error}"]
      subtests := reports.subtests ++ [⟨name, false, false, error⟩] }

def runMembers (reports : MemberReports) (index : ℕ) : List (String × Items) → MemberReports
  | [] => reports
  | member :: rest =>
    runMembers (reports.add member.1 (memberOutcome host execute shared index member)) (index + 1)
      rest

/-- The outcome of a composite whose members were run. -/
def MemberReports.verdict (reports : MemberReports) : CheckOutcome :=
  if !reports.failures.isEmpty then .failed ("; ".intercalate reports.failures)
  else if !reports.skips.isEmpty then .skipped ("; ".intercalate reports.skips)
  else .passed ("; ".intercalate reports.outputs)

end Run

/-- The parameters which a composite shares with its members. -/
def sharedParams (config : Items) : Items :=
  config.filter fun item ↦ !wiringKeys.any fun key ↦ item.1 = .str key

/-- `CompositeCheck.run`, as the outcome and the subtests it reports. -/
def runComposite (host : Runtime) (execute : ℕ → String → Items → CheckOutcome) (config : Items) :
    CheckOutcome × List Subtest :=
  let raw := (config.lookup (.str "compose")).getD .null
  let members := composedMembers host raw
  if members.isEmpty then (.failed "'compose' must be a non-empty list of check names", [])
  else
    match raw with
    | .list items =>
      if members.length ≠ items.length then
        let malformed := (items.length : Int) - members.length
        (.failed (s!"'compose' has {malformed} malformed member(s); " ++
          "each must be 'CheckName' or 'CheckName: \x7bparams\x7d'"), [])
      else runAll members
    | _ => runAll members
where
  runAll (members : List (String × Items)) : CheckOutcome × List Subtest :=
    let reports := runMembers host execute (sharedParams config) {} 0 members
    (reports.verdict, reports.subtests)

/-! ## What a composite has to do -/

/-- The name and the parameters of a well formed item: a non-empty string, or a mapping from one
name to its parameters or to nothing. -/
def wellFormed? : Value → Option (String × Items)
  | .scalar (.str name) => if name = "" then none else some (name, [])
  | .dict [(.str name, .dict params)] => some (name, params)
  | .dict [(.str name, .scalar .none)] => some (name, [])
  | _ => none

/-- The item is well formed, its class is known, and executing it passed. -/
def ItemPassed (host : Runtime) (execute : ℕ → String → Items → CheckOutcome) (shared : Items)
    (index : ℕ) (item : Value) : Prop :=
  ∃ name params output, wellFormed? item = some (name, params) ∧
    host.classes.any (·.name = name) = true ∧
      execute index name (mergeParams shared params) = .passed output

/-- How the members of a list end, one after the other. -/
def memberOutcomes (host : Runtime) (execute : ℕ → String → Items → CheckOutcome) (shared : Items)
    (start : ℕ) (members : List (String × Items)) : List CheckOutcome :=
  (members.zipIdx start).map fun item ↦ memberOutcome host execute shared item.2 item.1

/-- The outcomes of the members which a `compose` list is read as. -/
def composedOutcomes (host : Runtime) (execute : ℕ → String → Items → CheckOutcome) (config : Items)
    (items : List Value) : List CheckOutcome :=
  memberOutcomes host execute (sharedParams config) 0 (composedMembers host (.list items))

/-- A composite passes only if every item of its list did. A member which fails or is unknown makes it
fail, and a member which skips, where the members are run and none of them fails, makes it skip. -/
structure CompositeSound (host : Runtime) (execute : ℕ → String → Items → CheckOutcome)
    (config : Items) : Prop where
  passed : ∀ output, (runComposite host execute config).1 = .passed output →
    ∃ items, config.lookup (.str "compose") = some (.list items) ∧ items ≠ [] ∧
      ∀ index item, items[index]? = some item →
        ItemPassed host execute (sharedParams config) index item
  failed : ∀ items, config.lookup (.str "compose") = some (.list items) →
    (∃ outcome ∈ composedOutcomes host execute config items, outcome.isFailed = true) →
      ∃ error, (runComposite host execute config).1 = .failed error
  skipped : ∀ items, config.lookup (.str "compose") = some (.list items) →
    (composedMembers host (.list items)).length = items.length →
    (∀ outcome ∈ composedOutcomes host execute config items, outcome.isFailed = false) →
    (∃ outcome ∈ composedOutcomes host execute config items, outcome.isSkipped = true) →
      ∃ reason, (runComposite host execute config).1 = .skipped reason

/-! ## What the loop keeps -/

section Loop

variable {host : Runtime} {execute : ℕ → String → Items → CheckOutcome} {shared : Items}

theorem memberOutcomes_cons {start : ℕ} {member : String × Items} {rest : List (String × Items)} :
    memberOutcomes host execute shared start (member :: rest) =
      memberOutcome host execute shared start member ::
        memberOutcomes host execute shared (start + 1) rest := by
  rw [memberOutcomes, List.zipIdx_cons, List.map_cons]
  rfl

theorem mem_memberOutcomes {members : List (String × Items)} {i : ℕ} {member : String × Items}
    (h : members[i]? = some member) :
    memberOutcome host execute shared i member ∈ memberOutcomes host execute shared 0 members :=
  List.mem_map.mpr ⟨(member, i), List.mk_mem_zipIdx_iff_getElem?.mpr h, rfl⟩

/-- There are failures exactly where a member fails, and skips where one skips. -/
theorem runMembers_reports {reports : MemberReports} {start : ℕ} {members : List (String × Items)} :
    ((runMembers host execute shared reports start members).failures = [] ↔ reports.failures = [] ∧
      ∀ outcome ∈ memberOutcomes host execute shared start members, outcome.isFailed = false) ∧
    ((runMembers host execute shared reports start members).skips = [] ↔ reports.skips = [] ∧
      ∀ outcome ∈ memberOutcomes host execute shared start members, outcome.isSkipped = false) := by
  induction members generalizing reports start with
  | nil => simp [runMembers, memberOutcomes]
  | cons member rest ih =>
    rw [runMembers, ih.1, ih.2, memberOutcomes_cons, List.forall_mem_cons, List.forall_mem_cons]
    cases memberOutcome host execute shared start member <;>
      simp [MemberReports.add, CheckOutcome.isFailed, CheckOutcome.isSkipped]

/-- Every member passed. -/
def AllPassed (outcomes : List CheckOutcome) : Prop :=
  ∀ outcome ∈ outcomes, ∃ output, outcome = .passed output

theorem allPassed_iff {outcomes : List CheckOutcome} : AllPassed outcomes ↔
    (∀ outcome ∈ outcomes, outcome.isFailed = false) ∧
      ∀ outcome ∈ outcomes, outcome.isSkipped = false := by
  rw [AllPassed, ← forall₂_and]
  refine forall₂_congr fun outcome _ ↦ ?_
  cases outcome with
  | passed output => simp [CheckOutcome.isFailed, CheckOutcome.isSkipped]
  | failed error => simp [CheckOutcome.isFailed]
  | skipped reason => simp [CheckOutcome.isSkipped]

/-- The verdict on the members which are run. -/
theorem verdict_runMembers {members : List (String × Items)} {reports : MemberReports}
    (hrun : runMembers host execute shared {} 0 members = reports) :
    ((∃ output, reports.verdict = .passed output) ↔
        AllPassed (memberOutcomes host execute shared 0 members)) ∧
      ((∃ outcome ∈ memberOutcomes host execute shared 0 members, outcome.isFailed = true) →
        ∃ error, reports.verdict = .failed error) ∧
      ((∀ outcome ∈ memberOutcomes host execute shared 0 members, outcome.isFailed = false) →
        (∃ outcome ∈ memberOutcomes host execute shared 0 members, outcome.isSkipped = true) →
          ∃ reason, reports.verdict = .skipped reason) := by
  have hfailures : reports.failures = [] ↔
      ∀ outcome ∈ memberOutcomes host execute shared 0 members, outcome.isFailed = false := by
    rw [← hrun, runMembers_reports.1, and_iff_right rfl]
  have hskips : reports.skips = [] ↔
      ∀ outcome ∈ memberOutcomes host execute shared 0 members, outcome.isSkipped = false := by
    rw [← hrun, runMembers_reports.2, and_iff_right rfl]
  refine ⟨?_, ?_, ?_⟩
  · rw [allPassed_iff, ← hfailures, ← hskips]
    unfold MemberReports.verdict
    cases reports.failures <;> cases reports.skips <;> simp
  · rintro ⟨outcome, hmem, hfailed⟩
    have hne : reports.failures ≠ [] := by
      intro hnone
      simp [hfailures.mp hnone outcome hmem] at hfailed
    exact ⟨_, by rw [MemberReports.verdict, if_pos (by simpa using hne)]⟩
  · rintro hnone ⟨outcome, hmem, hskipped⟩
    have hne : reports.skips ≠ [] := by
      intro hnone
      simp [hskips.mp hnone outcome hmem] at hskipped
    refine ⟨"; ".intercalate reports.skips, ?_⟩
    simp [MemberReports.verdict, hfailures.mpr hnone, hne]

end Loop

/-! ## Soundness -/

section Sound

variable {host : Runtime} {execute : ℕ → String → Items → CheckOutcome} {config : Items}

/-- A well formed item contributes exactly its member. -/
theorem itemMembers_of_wellFormed {item : Value} {member : String × Items}
    (h : wellFormed? item = some member) : itemMembers host item = [member] := by
  unfold wellFormed? at h
  split at h
  · split at h
    · cases h
    · cases h
      simp_all [itemMembers]
  · cases h
    simp [itemMembers, memberParams, Runtime.strOf, Value.str?]
  · cases h
    simp [itemMembers, memberParams, Runtime.strOf, Value.str?]
  · cases h

theorem composedMembers_of_wellFormed {items : List Value}
    (h : ∀ item ∈ items, (wellFormed? item).isSome) :
    (composedMembers host (.list items)).map some = items.map wellFormed? := by
  rw [composedMembers]
  induction items with
  | nil => rfl
  | cons item rest ih =>
    obtain ⟨member, hmember⟩ := Option.isSome_iff_exists.mp (h item (List.mem_cons_self ..))
    have hrest := ih fun other hother ↦ h other (List.mem_cons_of_mem item hother)
    rw [List.flatMap_cons, itemMembers_of_wellFormed hmember, List.map_append, hrest]
    simp [hmember]

/-- A composite which ran its members found a list with as many items, or fails before. -/
theorem runComposite_cases (host : Runtime) (execute : ℕ → String → Items → CheckOutcome)
    (config : Items) :
    ((∃ error, runComposite host execute config = (.failed error, [])) ∧
        ∀ items, config.lookup (.str "compose") = some (.list items) →
          (composedMembers host (.list items)).length = items.length → items = []) ∨
      ∃ items, config.lookup (.str "compose") = some (.list items) ∧ items ≠ [] ∧
        (composedMembers host (.list items)).length = items.length ∧
        runComposite host execute config =
          runComposite.runAll host execute config (composedMembers host (.list items)) := by
  have hnone : ∀ raw, (config.lookup (.str "compose")).getD .null = raw →
      composedMembers host raw = [] → ∃ error, runComposite host execute config =
        (.failed error, []) := fun raw hraw hmembers ↦
    ⟨"'compose' must be a non-empty list of check names", by simp [runComposite, hraw, hmembers]⟩
  cases hraw : config.lookup (.str "compose") with
  | none => exact Or.inl ⟨hnone .null (by rw [hraw]; rfl) rfl, by simp⟩
  | some raw =>
    cases raw with
    | scalar value => exact Or.inl ⟨hnone (.scalar value) (by rw [hraw]; rfl) rfl, by simp⟩
    | dict items => exact Or.inl ⟨hnone (.dict items) (by rw [hraw]; rfl) rfl, by simp⟩
    | set members => exact Or.inl ⟨hnone (.set members) (by rw [hraw]; rfl) rfl, by simp⟩
    | list items =>
      simp only [Option.some.injEq, Value.list.injEq, forall_eq']
      by_cases hlength : (composedMembers host (.list items)).length = items.length
      · by_cases hempty : items = []
        · exact Or.inl ⟨hnone (.list items) (by rw [hraw]; rfl) (by rw [hempty]; rfl), fun _ ↦ hempty⟩
        · refine Or.inr ⟨items, rfl, hempty, hlength, ?_⟩
          have hmembers : (composedMembers host (.list items)).isEmpty = false := by
            rw [List.isEmpty_eq_false_iff, ← List.length_pos_iff, hlength]
            exact List.length_pos_of_ne_nil hempty
          simp [runComposite, hraw, hmembers, hlength]
      · refine Or.inl ⟨?_, fun h ↦ absurd h hlength⟩
        cases hmembers : composedMembers host (.list items) with
        | nil => exact hnone (.list items) (by rw [hraw]; rfl) hmembers
        | cons member others =>
          unfold runComposite
          simp only [hraw, Option.getD_some, hmembers, List.isEmpty_cons, Bool.false_eq_true, if_false]
          rw [← hmembers, if_pos hlength]
          exact ⟨_, rfl⟩

/-- A composite is sound exactly when its items are all well formed, or their number is not that of
the members, or some member does not pass. -/
theorem composite_sound_iff : CompositeSound host execute config ↔
    ∀ items, config.lookup (.str "compose") = some (.list items) →
      (composedMembers host (.list items)).length = items.length →
      AllPassed (composedOutcomes host execute config items) →
        ∀ item ∈ items, (wellFormed? item).isSome := by
  rcases runComposite_cases host execute config with
    ⟨⟨error, hfailed⟩, hempty⟩ | ⟨items, hraw, hsome, hlength, hrun⟩
  · -- the composite failed before it ran a member
    constructor
    · intro _ items hraw hlength _ item hitem
      rw [hempty items hraw hlength] at hitem
      cases hitem
    · intro _
      refine ⟨fun output houtput ↦ ?_, fun _ _ _ ↦ ⟨error, congrArg Prod.fst hfailed⟩, ?_⟩
      · rw [hfailed] at houtput
        cases houtput
      · rintro items hraw hlength _ ⟨outcome, hmem, _⟩
        rw [hempty items hraw hlength] at hmem
        cases hmem
  · have ⟨hpassed, hfailed, hskipped⟩ := @verdict_runMembers host execute (sharedParams config)
      (composedMembers host (.list items)) _ rfl
    have honly : ∀ found, config.lookup (.str "compose") = some (.list found) → found = items := by
      intro found hfound
      rw [hraw, Option.some.injEq, Value.list.injEq] at hfound
      exact hfound.symm
    constructor
    · intro hsound found hfound _ hall item hitem
      rw [honly found hfound] at hall hitem
      obtain ⟨output, houtput⟩ := hpassed.mpr hall
      obtain ⟨found, hfound, _, hitems⟩ := hsound.passed output (by rw [hrun]; exact houtput)
      rw [honly found hfound] at hitems
      obtain ⟨i, hi⟩ := List.getElem?_of_mem hitem
      obtain ⟨name, params, _, hwell, _⟩ := hitems i item hi
      rw [hwell]
      rfl
    · intro hcondition
      refine ⟨fun output houtput ↦ ?_, fun found hfound hfails ↦ ?_, fun found hfound _ hnone hskips ↦ ?_⟩
      · rw [hrun] at houtput
        have hall := hpassed.mp ⟨output, houtput⟩
        have hwell := hcondition items hraw hlength hall
        refine ⟨items, hraw, hsome, fun index item hitem ↦ ?_⟩
        have hmap : (composedMembers host (.list items)).map some = items.map wellFormed? :=
          composedMembers_of_wellFormed hwell
        have hmembers := congrArg (·[index]?) hmap
        simp only [List.getElem?_map, hitem, Option.map_some] at hmembers
        obtain ⟨⟨name, params⟩, hmember, hitem⟩ := Option.map_eq_some_iff.mp hmembers
        obtain ⟨output, hexecuted⟩ := hall _ (mem_memberOutcomes hmember)
        unfold memberOutcome at hexecuted
        split at hexecuted
        · rename_i hknown
          exact ⟨name, params, output, hitem.symm, hknown, hexecuted⟩
        · cases hexecuted
      · rw [honly found hfound] at hfails
        rw [hrun]
        exact hfailed hfails
      · rw [honly found hfound] at hnone hskips
        rw [hrun]
        exact hskipped hnone hskips

/-- A mapping with two names makes up for an item which is no member at all. -/
theorem malformed_composite_passes :
    ¬CompositeSound { Runtime.plain with classes := [⟨"StepSuccessCheck", true⟩, ⟨"PingCheck", false⟩] }
      (fun _ _ _ ↦ .passed "")
      [(.str "compose", .list
        [.dict [(.str "StepSuccessCheck", .null), (.str "PingCheck", .null)],
          .scalar (.int 5)])] := by
  intro hsound
  obtain ⟨items, hraw, _, hitems⟩ := hsound.passed "StepSuccessCheck; PingCheck" (by decide +kernel)
  simp only [List.lookup_cons, beq_self_eq_true, Option.some.injEq, Value.list.injEq] at hraw
  subst hraw
  obtain ⟨name, params, output, hwell, _⟩ := hitems 1 _ rfl
  cases hwell

end Sound

end IsvValidation.Pytest
