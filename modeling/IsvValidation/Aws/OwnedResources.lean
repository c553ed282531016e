import IsvValidation.Aws.VerifiedReuse

/-!
# What is taken over, and what is left behind

An account holds at most one key pair and one security group under the names of the runs. Any request may
fail, carried out or not. Nothing without the tag is deleted or returned, and a run whose requests are all
answered is over with what it asked for, unless something under the name is refused. A key pair which was
registered elsewhere since a file was written is taken over with that file.
-/

namespace IsvValidation.Aws.Reuse

open Library Library.Program

/-! ## The world of the runs -/

structure KeyPair where
  tags : List Tag
  material : String
  deriving DecidableEq

/-- What is registered under the names, and the files at the places where keys are kept. -/
structure World (Place : Type) where
  keyPair : Option KeyPair
  group : Option Group
  files : Place → Option String

variable {Place : Type}

/-- A request to the file system of the host. -/
def Call.onHost : Call Place → Bool
  | .fileExists _ | .fileSize _ | .makeDirectory _ | .chmod _ _ | .unlink _ | .writeText _ _ => true
  | _ => false

/-- The errors of a request which fails. -/
inductive Call.Raises (call : Call Place) : Error → Prop
  | aws (error : AwsError) (hremote : call.onHost = false) : Raises call (.aws error)
  | os (text : String) (hhost : call.onHost = true) : Raises call (.os text)

variable [DecidableEq Place]

def World.write (world : World Place) (place : Place) (content : Option String) : World Place :=
  { world with files := Function.update world.files place content }

/-- A request which does not fail. Names are unique, so that none can be created twice. -/
inductive Answers : World Place → (call : Call Place) → Reply call → World Place → Prop
  | keyPairDescribed {world : World Place} {name : String} {pair : KeyPair} (hpair : world.keyPair = some pair) :
      Answers world (.describeKeyPairs name) (.ok [pair.tags]) world
  | keyPairNotFound {world : World Place} {name text : String} (hnone : world.keyPair = none) :
      Answers world (.describeKeyPairs name) (.error (.aws (.client "InvalidKeyPair.NotFound" text))) world
  | keyPairDeleted {world : World Place} {name : String} :
      Answers world (.deleteKeyPair name) (.ok ()) { world with keyPair := none }
  | keyPairCreated {world : World Place} {name material : String} {tags : List Tag}
      (hnone : world.keyPair = none) :
      Answers world (.createKeyPair name tags) (.ok material) { world with keyPair := some ⟨tags, material⟩ }
  | keyPairDuplicate {world : World Place} {name text : String} {tags : List Tag}
      (hsome : world.keyPair ≠ none) : Answers world (.createKeyPair name tags)
        (.error (.aws (.client "InvalidKeyPair.Duplicate" text))) world
  | groupCreated {world : World Place} {name description vpcId id : String} {tags : List Tag}
      (hnone : world.group = none) : Answers world (.createSecurityGroup name description vpcId tags) (.ok id)
        { world with group := some ⟨id, description, tags, []⟩ }
  | groupDuplicate {world : World Place} {name description vpcId text : String} {tags : List Tag}
      (hsome : world.group ≠ none) : Answers world (.createSecurityGroup name description vpcId tags)
        (.error (.aws (.client "InvalidGroup.Duplicate" text))) world
  | ingressAuthorized {world : World Place} {group : Group} {permissions : List Permission}
      (hgroup : world.group = some group) : Answers world (.authorizeIngress group.id permissions) (.ok ())
        { world with group := some { group with permissions := group.permissions ++ permissions } }
  | groupsDescribed {world : World Place} {name vpcId : String} :
      Answers world (.describeSecurityGroups name vpcId) (.ok world.group.toList) world
  | fileExists {world : World Place} {place : Place} :
      Answers world (.fileExists place) (.ok (world.files place).isSome) world
  | fileSize {world : World Place} {place : Place} {content : String} (hfile : world.files place = some content) :
      Answers world (.fileSize place) (.ok content.utf8ByteSize) world
  | directoryMade {world : World Place} {place : Place} : Answers world (.makeDirectory place) (.ok ()) world
  | modeChanged {world : World Place} {place : Place} {mode : ℕ} :
      Answers world (.chmod place mode) (.ok ()) world
  | unlinked {world : World Place} {place : Place} :
      Answers world (.unlink place) (.ok ()) (world.write place none)
  | textWritten {world : World Place} {place : Place} {text : String} :
      Answers world (.writeText place text) (.ok ()) (world.write place (some text))

/-- A request which fails: it is not carried out, or it is and nothing is heard of it, or a part of the text
is written. -/
inductive Fails : World Place → (call : Call Place) → Reply call → World Place → Prop
  | refused {world : World Place} {call : Call Place} {error : Error} (herror : call.Raises error) :
      Fails world call (.error error) world
  | unheard {world after : World Place} {call : Call Place} {response : Response call} {error : Error}
      (hanswer : Answers world call (.ok response) after) (herror : call.Raises error) :
      Fails world call (.error error) after
  | partly {world : World Place} {place : Place} {text written : String} {error : Error}
      (herror : (Call.writeText place text).Raises error) :
      Fails world (.writeText place text) (.error error) (world.write place (some written))

def Step (world : World Place) (call : Call Place) (reply : Reply call) (after : World Place) : Prop :=
  Answers world call reply after ∨ Fails world call reply after

/-- A request which was made did not fail. -/
def Answered (exchange : Exchange (World Place) (@Reply Place)) : Prop :=
  Answers exchange.before exchange.op exchange.reply exchange.after

section Steps

variable {world after : World Place} {call : Call Place} {reply : Reply call}

theorem Step.answers {response : Response call} (h : Step world call (.ok response) after) :
    Answers world call (.ok response) after := by
  rcases h with h | h
  · exact h
  · cases h

/-- Only a deletion ends the registration of a key pair. -/
theorem Answers.keyPair_eq {pair : KeyPair} (h : Answers world call reply after)
    (hcall : ∀ name, call ≠ .deleteKeyPair name) (hpair : world.keyPair = some pair) :
    after.keyPair = some pair := by
  cases h with
  | keyPairDeleted => exact absurd rfl (hcall _)
  | keyPairCreated hnone =>
    rw [hnone] at hpair
    cases hpair
  | _ => exact hpair

theorem Step.keyPair_eq {pair : KeyPair} (h : Step world call reply after)
    (hcall : ∀ name, call ≠ .deleteKeyPair name) (hpair : world.keyPair = some pair) :
    after.keyPair = some pair := by
  rcases h with h | h
  · exact h.keyPair_eq hcall hpair
  · cases h with
    | refused => exact hpair
    | unheard hanswer => exact hanswer.keyPair_eq hcall hpair
    | partly => exact hpair

/-- A security group is never deleted. -/
theorem Answers.group_eq {group : Group} (h : Answers world call reply after)
    (hgroup : world.group = some group) :
    ∃ kept, after.group = some kept ∧ kept.id = group.id ∧ kept.tags = group.tags := by
  cases h with
  | groupCreated hnone =>
    rw [hnone] at hgroup
    cases hgroup
  | ingressAuthorized hfound =>
    rw [hfound, Option.some.injEq] at hgroup
    exact ⟨_, rfl, by rw [hgroup], by rw [hgroup]⟩
  | _ => exact ⟨group, hgroup, rfl, rfl⟩

theorem Step.group_eq {group : Group} (h : Step world call reply after) (hgroup : world.group = some group) :
    ∃ kept, after.group = some kept ∧ kept.id = group.id ∧ kept.tags = group.tags := by
  rcases h with h | h
  · exact h.group_eq hgroup
  · cases h with
    | refused => exact ⟨group, hgroup, rfl, rfl⟩
    | unheard hanswer => exact hanswer.group_eq hgroup
    | partly => exact ⟨group, hgroup, rfl, rfl⟩

/-- A request to a host changes nothing of the account. -/
theorem Step.keyPair_of_onHost (h : Step world call reply after) (hhost : call.onHost = true) :
    after.keyPair = world.keyPair := by
  have hanswers : ∀ {reply}, Answers world call reply after → after.keyPair = world.keyPair := by
    intro reply h
    cases h with
    | fileExists | fileSize | directoryMade | modeChanged | unlinked | textWritten => rfl
    | _ => cases hhost
  rcases h with h | h
  · exact hanswers h
  · cases h with
    | refused => rfl
    | unheard hanswer => exact hanswers hanswer
    | partly => rfl

/-- Nothing is changed by a look at a file. -/
theorem Step.eq_of_fileExists {place : Place} {reply : Reply (.fileExists place)}
    (h : Step world (.fileExists place) reply after) : after = world := by
  rcases h with h | h
  · cases h
    rfl
  · cases h with
    | refused => rfl
    | unheard hanswer =>
      cases hanswer
      rfl

theorem Step.eq_of_fileSize {place : Place} {reply : Reply (.fileSize place)}
    (h : Step world (.fileSize place) reply after) : after = world := by
  rcases h with h | h
  · cases h
    rfl
  · cases h with
    | refused => rfl
    | unheard hanswer =>
      cases hanswer
      rfl

end Steps

/-! ## What a run leaves -/

section Safety

variable {world last : World Place} {trace : List (Exchange (World Place) (@Reply Place))}
  {repr : String → String} {name description vpcId : String} {place : Place}

theorem filePresent_ok {present : Bool} (h : Execution Step world (filePresent place) trace last (.ok present)) :
    last = world ∧ (present = true → ∃ content, world.files place = some content ∧ content ≠ "") := by
  rw [filePresent, bind_eq] at h
  obtain ⟨found, middle, rest, hexists, -, h⟩ := Execution.invoke_bind_ok h
  have hmiddle := hexists.eq_of_fileExists
  cases found with
  | false =>
    obtain ⟨-, hlast, hpresent⟩ := Execution.done_iff.mp h
    rw [Except.ok.injEq] at hpresent
    exact ⟨hlast.trans hmiddle, fun htrue ↦ by rw [hpresent] at htrue; cases htrue⟩
  | true =>
    obtain ⟨size, after, rest, hsize, -, h⟩ := Execution.invoke_bind_ok h
    obtain ⟨-, hlast, hpresent⟩ := Execution.done_iff.mp h
    rw [Except.ok.injEq] at hpresent
    refine ⟨(hlast.trans hsize.eq_of_fileSize).trans hmiddle, fun htrue ↦ ?_⟩
    rw [hmiddle] at hsize
    cases hsize.answers with
    | fileSize hfile =>
      refine ⟨_, hfile, fun hempty ↦ ?_⟩
      rw [hpresent, hempty] at htrue
      cases htrue

theorem removeStaleKey_ok (h : Execution Step world (removeStaleKey place) trace last (.ok ())) :
    last.keyPair = world.keyPair := by
  rw [removeStaleKey, bind_eq] at h
  obtain ⟨found, middle, rest, hexists, -, h⟩ := Execution.invoke_bind_ok h
  have hmiddle := hexists.eq_of_fileExists
  rw [hmiddle] at h
  cases found with
  | false =>
    obtain ⟨-, hlast, -⟩ := Execution.done_iff.mp h
    rw [hlast]
  | true =>
    obtain ⟨_, after, rest, hchmod, -, h⟩ := Execution.invoke_bind_ok h
    obtain ⟨-, hunlink⟩ := Execution.invoke_iff.mp h
    exact (hunlink.keyPair_of_onHost rfl).trans (hchmod.keyPair_of_onHost rfl)

theorem saveKey_ok {material : String} (h : Execution Step world (saveKey place material) trace last (.ok ())) :
    last.keyPair = world.keyPair ∧ last.files place = some material := by
  rw [saveKey, bind_eq] at h
  obtain ⟨_, made, rest, hmade, -, h⟩ := Execution.invoke_bind_ok h
  obtain ⟨first, _, removed, second, -, hremoved, h⟩ := Execution.bind_ok_iff.mp h
  obtain ⟨_, written, rest, hwritten, -, h⟩ := Execution.invoke_bind_ok h
  obtain ⟨-, hchmod⟩ := Execution.invoke_iff.mp h
  have hpair : last.keyPair = world.keyPair :=
    (hchmod.keyPair_of_onHost rfl).trans <| (hwritten.keyPair_of_onHost rfl).trans <|
      (removeStaleKey_ok hremoved).trans (hmade.keyPair_of_onHost rfl)
  refine ⟨hpair, ?_⟩
  cases hchmod.answers
  cases hwritten.answers
  exact Function.update_self _ _ _

/-- A key pair which is registered has the tag, and its key is in the file. -/
theorem registerKeyPair_ok {path : Place}
    (h : Execution Step world (registerKeyPair name place) trace last (.ok path)) :
    path = place ∧ ∃ pair, last.keyPair = some pair ∧ hasIsvTag pair.tags = true ∧
      last.files place = some pair.material := by
  rw [registerKeyPair, bind_eq] at h
  obtain ⟨first, material, middle, second, -, hcreate, h⟩ := Execution.bind_ok_iff.mp h
  obtain ⟨reply, hreply, hcreate⟩ := Execution.mapError_iff.mp hcreate
  obtain ⟨saving, _, saved, rest, -, hsave, h⟩ := Execution.bind_ok_iff.mp h
  obtain ⟨-, hlast, hpath⟩ := Execution.done_iff.mp h
  obtain ⟨hpair, hfile⟩ := saveKey_ok hsave
  obtain ⟨-, hcreated⟩ := Execution.invoke_iff.mp hcreate
  cases reply with
  | error => cases hreply
  | ok created =>
    rw [← Except.ok.inj hreply] at hcreated
    cases hcreated.answers with
    | keyPairCreated =>
      rw [hlast]
      exact ⟨Except.ok.inj hpath, _, hpair, by simp [hasIsvTag, createdTags, isvCreatedByTag], hfile⟩

/-- What is taken over is as it was, with the tag, and there is a file which is not empty. -/
theorem reuseKeyPair_ok {path : Place}
    (h : Execution Step world (reuseKeyPair repr name place) trace last (.ok (some path))) :
    path = place ∧ last = world ∧ ∃ pair content, world.keyPair = some pair ∧ hasIsvTag pair.tags = true ∧
      world.files place = some content ∧ content ≠ "" := by
  rw [reuseKeyPair, bind_eq] at h
  obtain ⟨described, middle, rest, hdescribe, -, h⟩ := Execution.invoke_bind_ok h
  cases hdescribe.answers with
  | keyPairDescribed hpair =>
    simp only at h
    split_ifs at h with htag
    · cases h
    · rw [Bool.not_eq_true', Bool.not_eq_false] at htag
      obtain ⟨first, present, after, second, -, hpresent, h⟩ := Execution.bind_ok_iff.mp h
      obtain ⟨hafter, hcontent⟩ := filePresent_ok hpresent
      cases present with
      | false =>
        obtain ⟨_, deleted, rest, -, -, h⟩ := Execution.invoke_bind_ok h
        obtain ⟨-, -, hnone⟩ := Execution.done_iff.mp h
        cases hnone
      | true =>
        obtain ⟨-, hlast, hpath⟩ := Execution.done_iff.mp h
        obtain ⟨content, hfile, hne⟩ := hcontent rfl
        exact ⟨Option.some.inj (Except.ok.inj hpath), hlast.trans hafter, _, content, hpair, htag, hfile, hne⟩

/-- There is a file with something else in it than the key which is registered. -/
def World.Stale (world : World Place) (place : Place) : Prop :=
  ∃ pair content, world.keyPair = some pair ∧ world.files place = some content ∧ content ≠ "" ∧
    content ≠ pair.material

theorem createKeyPair_ok {path : Place}
    (h : Execution Step world (createKeyPair repr name place) trace last (.ok path)) :
    path = place ∧ ∃ pair, last.keyPair = some pair ∧ hasIsvTag pair.tags = true ∧
      (¬ world.Stale place → last.files place = some pair.material) := by
  rw [createKeyPair, bind_eq] at h
  obtain ⟨_, valid, start, second, -, hname, h⟩ := Execution.bind_ok_iff.mp h
  obtain ⟨-, hstart, -⟩ := Execution.ofExcept_iff.mp hname
  rw [hstart] at h
  obtain ⟨_, reused, middle, third, -, hreuse, h⟩ := Execution.bind_ok_iff.mp h
  obtain ⟨result, heq, hreuse⟩ := Execution.attempt_iff.mp hreuse
  rw [← Except.ok.inj heq] at hreuse
  have hregister : ∀ {middle trace}, Execution Step middle (registerKeyPair valid place) trace last (.ok path) →
      path = place ∧ ∃ pair, last.keyPair = some pair ∧ hasIsvTag pair.tags = true ∧
        (¬ world.Stale place → last.files place = some pair.material) := by
    intro middle trace h
    obtain ⟨hpath, pair, hpair, htag, hfile⟩ := registerKeyPair_ok h
    exact ⟨hpath, pair, hpair, htag, fun _ ↦ hfile⟩
  rcases reused with error | _ | found
  · simp only at h
    split_ifs at h
    · exact hregister h
    · cases h
  · exact hregister h
  · obtain ⟨hfound, hmiddle, pair, content, hpair, htag, hfile, hne⟩ := reuseKeyPair_ok hreuse
    obtain ⟨-, hlast, hpath⟩ := Execution.done_iff.mp h
    rw [Except.ok.injEq] at hpath
    rw [hlast, hmiddle]
    refine ⟨hpath.trans hfound, pair, hpair, htag, fun hfresh ↦ ?_⟩
    rw [hfile]
    by_contra hother
    exact hfresh ⟨pair, content, hpair, hfile, hne, fun heq ↦ hother (congrArg some heq)⟩

/-! ### Deletions -/

/-- A key pair which is no longer registered after an exchange had the tag. -/
def KeepsOthers (exchange : Exchange (World Place) (@Reply Place)) : Prop :=
  ∀ pair, exchange.before.keyPair = some pair →
    exchange.after.keyPair = some pair ∨ hasIsvTag pair.tags = true

def Call.Deletes (call : Call Place) : Prop := ∃ name, call = .deleteKeyPair name

omit [DecidableEq Place] in
theorem ask_calls {allowed : Call Place → Prop} {call : Call Place} (h : allowed call) :
    (ask call).Calls allowed := Calls.invoke h

section Calls

variable {α : Type} {program : Run Place α} {outcome : Except Error α}

theorem keepsOthers_of_calls (hcalls : program.Calls fun call ↦ ¬ call.Deletes)
    (h : Execution Step world program trace last outcome) : ∀ exchange ∈ trace, KeepsOthers exchange :=
  fun exchange hmem _ hpair ↦ .inl <| (h.step_of_mem exchange hmem).keyPair_eq
    (fun name hcall ↦ hcalls.mem_trace h exchange hmem ⟨name, hcall⟩) hpair

theorem keyPair_of_calls {pair : KeyPair} (hcalls : program.Calls fun call ↦ ¬ call.Deletes)
    (h : Execution Step world program trace last outcome) (hpair : world.keyPair = some pair) :
    last.keyPair = some pair :=
  h.persists (P := fun world ↦ world.keyPair = some pair) (fun exchange hmem ↦
    (h.step_of_mem exchange hmem).keyPair_eq fun name hcall ↦ hcalls.mem_trace h exchange hmem ⟨name, hcall⟩) hpair

end Calls

omit [DecidableEq Place] in
theorem filePresent_calls : (filePresent place).Calls fun call ↦ ¬ call.Deletes := by
  refine .bind (ask_calls (by simp [Call.Deletes])) fun found ↦ ?_
  cases found with
  | false => exact .done _
  | true => exact .bind (ask_calls (by simp [Call.Deletes])) fun _ ↦ .done _

omit [DecidableEq Place] in
theorem registerKeyPair_calls : (registerKeyPair name place).Calls fun call ↦ ¬ call.Deletes := by
  refine .bind (.mapError _ (ask_calls (by simp [Call.Deletes]))) fun material ↦ .bind ?_ fun _ ↦ .done _
  refine .bind (ask_calls (by simp [Call.Deletes])) fun _ ↦ .bind ?_ fun _ ↦
    .bind (ask_calls (by simp [Call.Deletes])) fun _ ↦ ask_calls (by simp [Call.Deletes])
  refine .bind (ask_calls (by simp [Call.Deletes])) fun found ↦ ?_
  cases found with
  | false => exact .done _
  | true => exact .bind (ask_calls (by simp [Call.Deletes])) fun _ ↦ ask_calls (by simp [Call.Deletes])

/-- A key pair is deleted after its tag is seen. -/
theorem reuseKeyPair_keepsOthers {outcome : Except Error (Option Place)}
    (h : Execution Step world (reuseKeyPair repr name place) trace last outcome) :
    ∀ exchange ∈ trace, KeepsOthers exchange := by
  rw [reuseKeyPair, bind_eq] at h
  obtain ⟨reply, middle, rest, hdescribe, htrace, hnext⟩ := Execution.invoke_bind h
  rw [htrace, List.forall_mem_cons]
  refine ⟨fun pair hpair ↦ .inl (hdescribe.keyPair_eq (fun _ hcall ↦ by cases hcall) hpair), ?_⟩
  obtain ⟨_, -, hnil, -⟩ | ⟨described, rfl, hnext⟩ := hnext
  · simp [hnil]
  · cases hdescribe.answers with
    | keyPairDescribed hpair =>
      simp only at hnext
      split_ifs at hnext with htag
      · simp [(Execution.raise_iff.mp hnext).1]
      · rw [Bool.not_eq_true', Bool.not_eq_false] at htag
        obtain ⟨error, -, hpresent⟩ | ⟨first, present, after, second, happend, hpresent, hlater⟩ :=
          Execution.bind_iff.mp hnext
        · exact keepsOthers_of_calls filePresent_calls hpresent
        · rw [happend, List.forall_mem_append]
          refine ⟨keepsOthers_of_calls filePresent_calls hpresent, ?_⟩
          have hafter := keyPair_of_calls filePresent_calls hpresent hpair
          cases present with
          | true => simp [(Execution.done_iff.mp hlater).1]
          | false =>
            obtain ⟨deleted, gone, others, -, hothers, hend⟩ := Execution.invoke_bind hlater
            rw [hothers, List.forall_mem_cons]
            constructor
            · intro other hother
              rw [show after.keyPair = some other from hother, Option.some.injEq] at hafter
              exact .inr (hafter ▸ htag)
            · obtain ⟨_, -, hnil, -⟩ | ⟨_, -, hdone⟩ := hend
              · simp [hnil]
              · simp [(Execution.done_iff.mp hdone).1]

theorem createKeyPair_keepsOthers {outcome : Except Error Place}
    (h : Execution Step world (createKeyPair repr name place) trace last outcome) :
    ∀ exchange ∈ trace, KeepsOthers exchange := by
  rw [createKeyPair, bind_eq] at h
  obtain ⟨_, -, hname⟩ | ⟨first, valid, start, second, htrace, hname, hnext⟩ := Execution.bind_iff.mp h
  · simp [(Execution.ofExcept_iff.mp hname).1]
  · obtain ⟨looked, reused, middle, third, hsecond, hreuse, hlater⟩ := Execution.bind_attempt hnext
    rw [htrace, (Execution.ofExcept_iff.mp hname).1, List.nil_append, hsecond, List.forall_mem_append]
    refine ⟨reuseKeyPair_keepsOthers hreuse, ?_⟩
    rcases reused with error | _ | found
    · simp only at hlater
      split_ifs at hlater
      · exact keepsOthers_of_calls registerKeyPair_calls hlater
      · simp [(Execution.raise_iff.mp hlater).1]
    · exact keepsOthers_of_calls registerKeyPair_calls hlater
    · simp [(Execution.done_iff.mp hlater).1]

/-! ### Security groups -/

/-- A group with everything which a run asks for. -/
structure Group.Verified (description : String) (group : Group) : Prop where
  tag : hasIsvTag group.tags = true
  description : group.description = description
  rule : sgHasSshRule group.permissions = true

theorem verifyGroup_ok {group : Group} {id : String} :
    verifyGroup repr name description vpcId group = .ok id ↔ group.Verified description ∧ group.id = id := by
  rw [verifyGroup]
  split_ifs with htag hdescription hrule
  · refine iff_of_false (by simp) fun h ↦ ?_
    simp [h.1.tag] at htag
  · exact iff_of_false (by simp) fun h ↦ hdescription h.1.description
  · refine iff_of_false (by simp) fun h ↦ ?_
    simp [h.1.rule] at hrule
  · rw [Bool.not_eq_true', Bool.not_eq_false] at htag hrule
    rw [Except.ok.injEq]
    exact ⟨fun h ↦ ⟨⟨htag, not_not.mp hdescription, hrule⟩, h⟩, fun h ↦ h.2⟩

theorem createGroup_ok {id : String}
    (h : Execution Step world (createGroup name description vpcId) trace last (.ok id)) :
    ∃ group, last.group = some group ∧ group.id = id ∧ group.Verified description := by
  rw [createGroup, bind_eq] at h
  obtain ⟨sgId, middle, rest, hcreate, -, h⟩ := Execution.invoke_bind_ok h
  obtain ⟨_, after, rest, hauthorize, -, h⟩ := Execution.invoke_bind_ok h
  obtain ⟨-, hlast, hid⟩ := Execution.done_iff.mp h
  rw [hlast, Except.ok.inj hid]
  cases hcreate.answers
  cases hauthorize.answers with
  | ingressAuthorized hgroup =>
    have hgroup := Option.some.inj hgroup
    have htags : createdTags name = _ := congrArg Group.tags hgroup
    have hdescription : description = _ := congrArg Group.description hgroup
    refine ⟨_, rfl, rfl, ?_, hdescription.symm, ?_⟩
    · rw [← htags]
      simp [hasIsvTag, createdTags, isvCreatedByTag]
    · simp [sgHasSshRule, sshPermission]

theorem createSecurityGroup_ok {id : String}
    (h : Execution Step world (createSecurityGroup repr name description vpcId) trace last (.ok id)) :
    ∃ group, last.group = some group ∧ group.id = id ∧ group.Verified description := by
  rw [createSecurityGroup, bind_eq] at h
  obtain ⟨first, created, middle, second, -, hcreate, hnext⟩ := Execution.bind_attempt h
  cases created with
  | ok sgId =>
    obtain ⟨-, hlast, hid⟩ := Execution.done_iff.mp hnext
    rw [hlast, Except.ok.inj hid]
    exact createGroup_ok hcreate
  | error error =>
    simp only at hnext
    split_ifs at hnext with hcode
    · cases hnext
    · obtain ⟨sgs, after, rest, hdescribe, -, hend⟩ := Execution.invoke_bind_ok hnext
      cases hdescribe.answers
      cases hgroup : middle.group with
      | none =>
        rw [hgroup] at hend
        cases hend
      | some group =>
        rw [hgroup] at hend
        obtain ⟨-, hlast, hverified⟩ := Execution.ofExcept_iff.mp hend
        obtain ⟨hgood, hid⟩ := verifyGroup_ok.mp hverified.symm
        rw [hlast, hgroup]
        exact ⟨group, rfl, hid, hgood⟩

omit [DecidableEq Place] in
theorem createSecurityGroup_calls :
    (createSecurityGroup repr name description vpcId : Run Place String).Calls fun call ↦ ¬ call.Deletes := by
  have hcreate : (createGroup name description vpcId : Run Place String).Calls fun call ↦ ¬ call.Deletes :=
    .bind (ask_calls (by simp [Call.Deletes])) fun _ ↦ .bind (ask_calls (by simp [Call.Deletes])) fun _ ↦ .done _
  refine .bind hcreate.attempt fun created ↦ ?_
  cases created with
  | ok => exact .done _
  | error error =>
    simp only
    split_ifs
    · exact .raise _
    · refine .bind (ask_calls (by simp [Call.Deletes])) fun sgs ↦ ?_
      cases sgs with
      | nil => exact .raise _
      | cons => exact .ofExcept _

end Safety

/-! ## Runs in which nothing fails -/

section Liveness

variable {world last : World Place} {trace : List (Exchange (World Place) (@Reply Place))}
  {repr : String → String} {name description vpcId : String} {place : Place}

/-- A host answers every request. -/
theorem ask_bind_host {α : Type} {call : Call Place} {next : Response call → Run Place α}
    {outcome : Except Error α} (hhost : call.onHost = true)
    (h : Execution Answers world ((ask call).bind next) trace last outcome) :
    ∃ response middle rest, Answers world call (.ok response) middle ∧
      Execution Answers middle (next response) rest last outcome := by
  obtain ⟨reply, middle, rest, hmade, -, ⟨error, rfl, -⟩ | ⟨response, rfl, hnext⟩⟩ := Execution.invoke_bind h
  · cases hmade <;> cases hhost
  · exact ⟨response, middle, rest, hmade, hnext⟩

theorem filePresent_answers {outcome : Except Error Bool}
    (h : Execution Answers world (filePresent place) trace last outcome) :
    ∃ present, outcome = .ok present := by
  rw [filePresent, bind_eq] at h
  obtain ⟨found, middle, rest, -, hnext⟩ := ask_bind_host rfl h
  cases found with
  | false => exact ⟨_, (Execution.done_iff.mp hnext).2.2⟩
  | true =>
    obtain ⟨size, after, others, -, hdone⟩ := ask_bind_host rfl hnext
    exact ⟨_, (Execution.done_iff.mp hdone).2.2⟩

theorem ask_host {call : Call Place} {outcome : Except Error (Response call)} (hhost : call.onHost = true)
    (h : Execution Answers world (ask call) trace last outcome) : ∃ response, outcome = .ok response := by
  obtain ⟨-, hmade⟩ := Execution.invoke_iff.mp h
  cases outcome with
  | ok response => exact ⟨response, rfl⟩
  | error error => cases hmade <;> cases hhost

theorem removeStaleKey_answers {outcome : Except Error Unit}
    (h : Execution Answers world (removeStaleKey place) trace last outcome) : outcome = .ok () := by
  rw [removeStaleKey, bind_eq] at h
  obtain ⟨found, middle, rest, -, hnext⟩ := ask_bind_host rfl h
  cases found with
  | false => exact (Execution.done_iff.mp hnext).2.2
  | true =>
    obtain ⟨_, after, others, -, hunlink⟩ := ask_bind_host rfl hnext
    exact (ask_host rfl hunlink).choose_spec

theorem saveKey_answers {material : String} {outcome : Except Error Unit}
    (h : Execution Answers world (saveKey place material) trace last outcome) : outcome = .ok () := by
  rw [saveKey, bind_eq] at h
  obtain ⟨_, made, rest, -, hnext⟩ := ask_bind_host rfl h
  obtain ⟨error, -, hremove⟩ | ⟨first, _, removed, second, -, -, hnext⟩ := Execution.bind_iff.mp hnext
  · cases removeStaleKey_answers hremove
  · obtain ⟨_, written, others, -, hchmod⟩ := ask_bind_host rfl hnext
    exact (ask_host rfl hchmod).choose_spec

/-- Where no key pair has the name, one is registered. -/
theorem registerKeyPair_answers {outcome : Except Error Place} (hnone : world.keyPair = none)
    (h : Execution Answers world (registerKeyPair name place) trace last outcome) :
    ∃ path, outcome = .ok path := by
  rw [registerKeyPair, bind_eq] at h
  have hcreated : ∀ {trace middle result}, Execution Answers world
      ((ask (.createKeyPair name (createdTags name))).mapError (creationError name)) trace middle result →
        ∃ material, result = .ok material := by
    intro trace middle result hcreate
    obtain ⟨reply, rfl, hasked⟩ := Execution.mapError_iff.mp hcreate
    obtain ⟨-, hmade⟩ := Execution.invoke_iff.mp hasked
    cases hmade with
    | keyPairCreated => exact ⟨_, rfl⟩
    | keyPairDuplicate hsome => exact absurd hnone hsome
  obtain ⟨error, -, hcreate⟩ | ⟨first, material, middle, second, -, -, hnext⟩ := Execution.bind_iff.mp h
  · obtain ⟨_, herror⟩ := hcreated hcreate
    cases herror
  · obtain ⟨error, -, hsave⟩ | ⟨saving, _, saved, rest, -, -, hdone⟩ := Execution.bind_iff.mp hnext
    · cases saveKey_answers hsave
    · exact ⟨_, (Execution.done_iff.mp hdone).2.2⟩

/-- What a look at the key pair comes to, where nothing fails and what is there has the tag: it is taken over,
or there is none any more. -/
theorem reuseKeyPair_answers {outcome : Except Error (Option Place)}
    (howned : ∀ pair, world.keyPair = some pair → hasIsvTag pair.tags = true)
    (h : Execution Answers world (reuseKeyPair repr name place) trace last outcome) :
    (∃ path, outcome = .ok (some path)) ∨ last.keyPair = none ∧
      (outcome = .ok none ∨ ∃ error, outcome = .error error ∧ hasCode "InvalidKeyPair.NotFound" error = true) := by
  rw [reuseKeyPair, bind_eq] at h
  obtain ⟨reply, middle, rest, hdescribe, -, hnext⟩ := Execution.invoke_bind h
  cases hdescribe with
  | keyPairNotFound hnone =>
    obtain ⟨error, herror, -, hlast, houtcome⟩ | ⟨_, hok, -⟩ := hnext
    · refine .inr ⟨by rw [hlast, hnone], .inr ⟨error, houtcome, ?_⟩⟩
      rw [← Except.error.inj herror]
      simp [hasCode]
    · cases hok
  | keyPairDescribed hpair =>
    obtain ⟨_, herror, -⟩ | ⟨described, hdescribed, hnext⟩ := hnext
    · cases herror
    · rw [← Except.ok.inj hdescribed] at hnext
      simp only [howned _ hpair, Bool.not_true, Bool.false_eq_true, if_false] at hnext
      obtain ⟨error, -, hpresent⟩ | ⟨first, present, after, second, -, -, hlater⟩ := Execution.bind_iff.mp hnext
      · obtain ⟨_, herror⟩ := filePresent_answers hpresent
        cases herror
      · cases present with
        | true => exact .inl ⟨_, (Execution.done_iff.mp hlater).2.2⟩
        | false =>
          obtain ⟨reply, deleted, others, hdelete, -, hend⟩ := Execution.invoke_bind hlater
          cases hdelete
          obtain ⟨_, herror, -⟩ | ⟨_, -, hdone⟩ := hend
          · cases herror
          · obtain ⟨-, hlast, houtcome⟩ := Execution.done_iff.mp hdone
            exact .inr ⟨by rw [hlast], .inl houtcome⟩

theorem createKeyPair_answers {outcome : Except Error Place} (hvalid : validKeyName name = true)
    (howned : ∀ pair, world.keyPair = some pair → hasIsvTag pair.tags = true)
    (h : Execution Answers world (createKeyPair repr name place) trace last outcome) :
    ∃ path, outcome = .ok path := by
  rw [createKeyPair, sanitizeKeyName, if_pos hvalid, bind_eq] at h
  obtain ⟨first, reused, middle, second, -, hreuse, hnext⟩ := Execution.bind_attempt h
  obtain ⟨path, rfl⟩ | ⟨hnone, rfl | ⟨error, rfl, hcode⟩⟩ := reuseKeyPair_answers howned hreuse
  · exact ⟨_, (Execution.done_iff.mp hnext).2.2⟩
  · exact registerKeyPair_answers hnone hnext
  · simp only [hcode, if_true] at hnext
    exact registerKeyPair_answers hnone hnext

theorem createGroup_answers {outcome : Except Error String}
    (h : Execution Answers world (createGroup name description vpcId) trace last outcome) :
    (∃ id, outcome = .ok id) ∨ last = world ∧ world.group ≠ none ∧
      ∃ error, outcome = .error error ∧ hasCode "InvalidGroup.Duplicate" error = true := by
  rw [createGroup, bind_eq] at h
  obtain ⟨reply, middle, rest, hcreate, -, hnext⟩ := Execution.invoke_bind h
  cases hcreate with
  | groupDuplicate hsome =>
    obtain ⟨error, herror, -, hlast, houtcome⟩ | ⟨_, hok, -⟩ := hnext
    · refine .inr ⟨hlast, hsome, error, houtcome, ?_⟩
      rw [← Except.error.inj herror]
      simp [hasCode]
    · cases hok
  | groupCreated =>
    obtain ⟨_, herror, -⟩ | ⟨sgId, -, hnext⟩ := hnext
    · cases herror
    · obtain ⟨reply, after, others, hauthorize, -, hend⟩ := Execution.invoke_bind hnext
      cases hauthorize
      obtain ⟨_, herror, -⟩ | ⟨_, -, hdone⟩ := hend
      · cases herror
      · exact .inl ⟨_, (Execution.done_iff.mp hdone).2.2⟩

theorem createSecurityGroup_answers {outcome : Except Error String}
    (hverified : ∀ group, world.group = some group → group.Verified description)
    (h : Execution Answers world (createSecurityGroup repr name description vpcId) trace last outcome) :
    ∃ id, outcome = .ok id := by
  rw [createSecurityGroup, bind_eq] at h
  obtain ⟨first, created, middle, second, -, hcreate, hnext⟩ := Execution.bind_attempt h
  obtain ⟨id, rfl⟩ | ⟨rfl, hsome, error, rfl, hcode⟩ := createGroup_answers hcreate
  · exact ⟨_, (Execution.done_iff.mp hnext).2.2⟩
  · obtain ⟨group, hgroup⟩ := Option.ne_none_iff_exists'.mp hsome
    simp only [hcode, Bool.not_true, Bool.false_eq_true, if_false] at hnext
    obtain ⟨reply, after, rest, hdescribe, -, hend⟩ := Execution.invoke_bind hnext
    cases hdescribe
    obtain ⟨_, herror, -⟩ | ⟨sgs, hsgs, hend⟩ := hend
    · cases herror
    · rw [← Except.ok.inj hsgs, hgroup] at hend
      obtain ⟨-, -, houtcome⟩ := Execution.ofExcept_iff.mp hend
      exact ⟨group.id, houtcome.trans (verifyGroup_ok.mpr ⟨hverified group hgroup, rfl⟩)⟩

end Liveness

/-! ## Sequences of runs -/

/-- What the runs of a sequence share. -/
structure Settings where
  repr : String → String
  keyName : String
  groupName : String
  vpcId : String
  description : String

/-- A run with its exchanges, the worlds around it, and its outcome. -/
inductive Event (Place : Type) where
  | keyPair (place : Place) (before after : World Place)
      (trace : List (Exchange (World Place) (@Reply Place))) (outcome : Except Error Place)
  | securityGroup (before after : World Place)
      (trace : List (Exchange (World Place) (@Reply Place))) (outcome : Except Error String)

variable (settings : Settings)

/-- A sequence of runs, from one world to another. -/
inductive Runs : World Place → List (Event Place) → World Place → Prop
  | nil (world : World Place) : Runs world [] world
  | keyPair {world middle last : World Place} {place : Place}
      {trace : List (Exchange (World Place) (@Reply Place))} {outcome : Except Error Place}
      {events : List (Event Place)}
      (run : Execution Step world (createKeyPair settings.repr settings.keyName place) trace middle outcome)
      (rest : Runs middle events last) : Runs world (.keyPair place world middle trace outcome :: events) last
  | securityGroup {world middle last : World Place}
      {trace : List (Exchange (World Place) (@Reply Place))} {outcome : Except Error String}
      {events : List (Event Place)}
      (run : Execution Step world
        (createSecurityGroup settings.repr settings.groupName settings.description settings.vpcId)
        trace middle outcome)
      (rest : Runs middle events last) : Runs world (.securityGroup world middle trace outcome :: events) last

def Event.trace : Event Place → List (Exchange (World Place) (@Reply Place))
  | .keyPair _ _ _ trace _ => trace
  | .securityGroup _ _ trace _ => trace

/-- Nothing without the tag is deleted in an exchange. -/
structure Spares (exchange : Exchange (World Place) (@Reply Place)) : Prop where
  keyPair : KeepsOthers exchange
  group : ∀ group, exchange.before.group = some group →
    ∃ kept, exchange.after.group = some kept ∧ kept.id = group.id ∧ kept.tags = group.tags

/-- What a run returns has the tag and is as it is to be, and a run of which no request fails returns where
nothing under the name is refused. -/
def Event.Kept : Event Place → Prop
  | .keyPair place before after trace outcome =>
    (∀ path, outcome = .ok path → path = place ∧ ∃ pair, after.keyPair = some pair ∧
      hasIsvTag pair.tags = true ∧ (¬ before.Stale place → after.files place = some pair.material)) ∧
    ((∀ exchange ∈ trace, Answered exchange) → validKeyName settings.keyName = true →
      (∀ pair, before.keyPair = some pair → hasIsvTag pair.tags = true) → ∃ path, outcome = .ok path)
  | .securityGroup before after trace outcome =>
    (∀ id, outcome = .ok id → ∃ group, after.group = some group ∧ group.id = id ∧
      group.Verified settings.description) ∧
    ((∀ exchange ∈ trace, Answered exchange) →
      (∀ group, before.group = some group → group.Verified settings.description) → ∃ id, outcome = .ok id)

/-- Whatever happened before, nothing without the tag is deleted, what is returned is owned, and a run in
which nothing fails is over with what it asked for, unless something under the name is refused. -/
theorem runs_verified {world last : World Place} {events : List (Event Place)}
    (h : Runs settings world events last) :
    ∀ event ∈ events, (∀ exchange ∈ event.trace, Spares exchange) ∧ event.Kept settings := by
  induction h with
  | nil => simp
  | keyPair run rest ih =>
    refine List.forall_mem_cons.mpr ⟨⟨fun exchange hmem ↦ ⟨createKeyPair_keepsOthers run exchange hmem,
      fun _ ↦ (run.step_of_mem exchange hmem).group_eq⟩, ?_, fun hanswered hvalid howned ↦ ?_⟩, ih⟩
    · rintro path rfl
      exact createKeyPair_ok run
    · exact createKeyPair_answers hvalid howned (run.of_steps hanswered)
  | securityGroup run rest ih =>
    refine List.forall_mem_cons.mpr ⟨⟨fun exchange hmem ↦ ⟨keepsOthers_of_calls createSecurityGroup_calls run
      exchange hmem, fun _ ↦ (run.step_of_mem exchange hmem).group_eq⟩, ?_, fun hanswered hverified ↦ ?_⟩, ih⟩
    · rintro id rfl
      exact createSecurityGroup_ok run
    · exact createSecurityGroup_answers hverified (run.of_steps hanswered)

/-- An account with nothing under the names, and no file. -/
def emptyWorld : World Unit := ⟨none, none, fun _ ↦ none⟩

/-- The suite's key pair, with a file. -/
def keyWorld (key : String) (file : Option String) : World Unit :=
  ⟨some ⟨createdTags "isv-key", key⟩, none, fun _ ↦ file⟩

/-- The reply to a registration is lost. The next run registers the key pair anew, the one after takes it
over, and a group is created. -/
theorem runs_verified_repeated :
    let settings : Settings := ⟨id, "isv-key", "isv-sg", "vpc-1", "SSH"⟩
    let before := keyWorld "old" none
    let kept := keyWorld "new" (some "new")
    ∃ last error lost first second group,
      let events := [.keyPair () emptyWorld before lost (.error error), .keyPair () before kept first (.ok ()),
        .keyPair () kept kept second (.ok ()), .securityGroup kept last group (.ok "sg-1")]
      Runs settings emptyWorld events last ∧
        ∀ event ∈ events, (∀ exchange ∈ event.trace, Spares exchange) ∧ event.Kept settings := by
  intro settings before kept
  have hname : sanitizeKeyName id "isv-key" = .ok "isv-key" := if_pos (by decide)
  have ⟨error, lost, hlost⟩ : ∃ error trace,
      Execution Step emptyWorld (createKeyPair id "isv-key" ()) trace before (.error error) := by
    rw [createKeyPair, hname]
    have hcreated := @Answers.keyPairCreated _ _ emptyWorld "isv-key" "old" (createdTags "isv-key") rfl
    exact ⟨_, _, .call (.inl (@Answers.keyPairNotFound _ _ _ _ "" rfl)) <|
      .call (.inr (.unheard hcreated (.aws (.client "Timeout" "") rfl))) <| .raise _ _⟩
  have ⟨first, hfirst⟩ : ∃ trace,
      Execution Step before (createKeyPair id "isv-key" ()) trace kept (.ok ()) := by
    rw [createKeyPair, hname]
    exact ⟨_, .call (.inl (.keyPairDescribed rfl)) <| .call (.inl .fileExists) <|
      .call (.inl .keyPairDeleted) <| .call (.inl (@Answers.keyPairCreated _ _ _ _ "new" _ rfl)) <|
      .call (.inl .directoryMade) <| .call (.inl .fileExists) <| .call (.inl .textWritten) <|
      .call (.inl .modeChanged) <| .done _ _⟩
  have ⟨second, hsecond⟩ : ∃ trace,
      Execution Step kept (createKeyPair id "isv-key" ()) trace kept (.ok ()) := by
    rw [createKeyPair, hname]
    exact ⟨_, .call (.inl (.keyPairDescribed rfl)) <| .call (.inl .fileExists) <|
      .call (.inl (.fileSize rfl)) <| .done _ _⟩
  have ⟨last, group, hgroup⟩ : ∃ last trace,
      Execution Step kept (createSecurityGroup id "isv-sg" "SSH" "vpc-1") trace last (.ok "sg-1") :=
    ⟨_, _, .call (.inl (@Answers.groupCreated _ _ _ _ _ _ "sg-1" _ rfl)) <|
      .call (.inl (@Answers.ingressAuthorized _ _ _ ⟨"sg-1", "SSH", createdTags "isv-sg", []⟩ _ rfl)) <|
      .done _ _⟩
  have hruns : Runs settings emptyWorld _ last :=
    .keyPair hlost <| .keyPair hfirst <| .keyPair hsecond <| .securityGroup hgroup <| .nil last
  exact ⟨_, _, _, _, _, _, hruns, runs_verified settings hruns⟩

/-- A key pair with the tag, and a file from before it was registered. -/
def staleWorld : World Unit := ⟨some ⟨[isvCreatedByTag], "new"⟩, none, fun _ ↦ some "old"⟩

/-- A group with the tag, under a description and with rules. -/
def groupWorld (description : String) (permissions : List Permission) : World Unit :=
  ⟨none, some ⟨"sg-1", description, createdTags "isv-sg", permissions⟩, fun _ ↦ none⟩

/-- A run which finds the suite's own group and returns nothing, though no request fails. -/
def Refuses (world : World Unit) : Prop :=
  ∃ trace error, Execution Answers world (createSecurityGroup id "isv-sg" "SSH" "vpc-1") trace world (.error error)

theorem refuses_groupWorld {description : String} {permissions : List Permission}
    (h : ¬ (description = "SSH" ∧ sgHasSshRule permissions = true)) :
    Refuses (groupWorld description permissions) := by
  have hduplicate : Answers (groupWorld description permissions)
      (.createSecurityGroup "isv-sg" "SSH" "vpc-1" (createdTags "isv-sg"))
      (.error (.aws (.client "InvalidGroup.Duplicate" ""))) (groupWorld description permissions) :=
    .groupDuplicate (by simp [groupWorld])
  cases hverify : verifyGroup id "isv-sg" "SSH" "vpc-1" ⟨"sg-1", description, createdTags "isv-sg", permissions⟩ with
  | ok =>
    have hverified := (verifyGroup_ok.mp hverify).1
    exact absurd ⟨hverified.description, hverified.rule⟩ h
  | error error =>
    refine ⟨_, error, .call hduplicate <| .call .groupsDescribed <| (?_ : Execution _ _ _ [] _ _)⟩
    exact Execution.ofExcept_iff.mpr ⟨rfl, rfl, hverify.symm⟩

/-- No request fails in these runs: the file of an older key is taken over, the suite's own group is refused
for its description and, where the rule could not be added to it, for good, and so is a name. -/
theorem answered_runs_fall_short :
    (∃ trace, Execution Answers staleWorld (createKeyPair id "isv-key" ()) trace staleWorld (.ok ()) ∧
      staleWorld.files () ≠ some "new") ∧
    Refuses (groupWorld "older text" [sshPermission]) ∧
    (∃ trace error, Execution Step emptyWorld (createSecurityGroup id "isv-sg" "SSH" "vpc-1") trace
      (groupWorld "SSH" []) (.error error)) ∧ Refuses (groupWorld "SSH" []) ∧
    ∃ error, Execution Answers emptyWorld (createKeyPair id "isv/key" ()) [] emptyWorld (.error error) := by
  refine ⟨?_, refuses_groupWorld (by decide), ?_, refuses_groupWorld (by decide), ?_⟩
  · rw [createKeyPair, sanitizeKeyName, if_pos (by decide)]
    exact ⟨_, .call (.keyPairDescribed rfl) <| .call .fileExists <| .call (.fileSize rfl) <| .done _ _, by decide⟩
  · have hcreated : Answers emptyWorld (.createSecurityGroup "isv-sg" "SSH" "vpc-1" (createdTags "isv-sg"))
        (.ok "sg-1") (groupWorld "SSH" []) := .groupCreated rfl
    have hrefused : Fails (groupWorld "SSH" []) (.authorizeIngress "sg-1" [sshPermission])
        (.error (.aws (.client "RequestLimitExceeded" ""))) (groupWorld "SSH" []) := .refused (.aws _ rfl)
    exact ⟨_, _, .call (.inl hcreated) <| .call (.inr hrefused) <| .raise _ _⟩
  · rw [createKeyPair, sanitizeKeyName, if_neg (by decide)]
    exact ⟨_, .raise _ _⟩

end IsvValidation.Aws.Reuse
