import IsvValidation.Library.Sequence
import IsvValidation.Registry.Checkout

/-!
# Fetching is all or nothing

Whatever git does and whichever one file operation fails, the target of a fetch is afterwards what it
was before or the complete new checkout, and a target which fetch did not make is left alone. After a
fetch which succeeds the state of the entry is current, unless the path of the entry ends with a
newline: the pattern of the schema lets one pass, and the marker does not give it back.
-/

namespace IsvValidation.Registry

open Host

/-! ## Names and places -/

section Places

variable {faults : Faults} {entry : RegistryEntry} {world : World} {name other : String}
  {tree : Option Tree}

theorem length_lt_stagingName : entry.name.length < (stagingName faults entry).length := by
  have hstart : ".fetch-".length = 7 := rfl
  rw [stagingName, String.length_append, String.length_append, String.length_append]
  omega

theorem length_lt_previousName :
    (stagingName faults entry).length < (previousName faults entry).length := by
  have hend : "-previous".length = 9 := rfl
  rw [previousName, String.length_append]
  omega

theorem stagingName_ne : stagingName faults entry ≠ entry.name := by
  intro h
  have hlength := @length_lt_stagingName faults entry
  rw [h] at hlength
  exact lt_irrefl _ hlength

theorem previousName_ne_stagingName : previousName faults entry ≠ stagingName faults entry := by
  intro h
  have hlength := @length_lt_previousName faults entry
  rw [h] at hlength
  exact lt_irrefl _ hlength

theorem previousName_ne : previousName faults entry ≠ entry.name := by
  intro h
  have hlength := (@length_lt_stagingName faults entry).trans length_lt_previousName
  rw [h] at hlength
  exact lt_irrefl _ hlength

@[simp] theorem external_put_self : (world.put name tree).external name = tree :=
  Function.update_self ..

theorem external_put_of_ne (h : other ≠ name) :
    (world.put name tree).external other = world.external other :=
  Function.update_of_ne h ..

@[simp] theorem inTree_put : (world.put name tree).inTree = world.inTree := rfl

@[simp] theorem inTree_rename : (world.rename name other).inTree = world.inTree := rfl

theorem external_rename_target (h : other ≠ name) :
    (world.rename name other).external other = world.external name := by
  rw [World.rename, external_put_of_ne h, external_put_self]

theorem external_rename_of_ne {third : String} (hsource : third ≠ name) (htarget : third ≠ other) :
    (world.rename name other).external third = world.external third := by
  rw [World.rename, external_put_of_ne hsource, external_put_of_ne htarget]

end Places

/-! ## What is fetched -/

/-- A checkout as fetch makes it: what git left at the pinned commit, with the declared directory,
and marked. -/
def Complete (git : Git) (entry : RegistryEntry) (tree : Tree) : Prop :=
  ∃ checkout, fetchRevision git entry = (.ok entry.commit, checkout) ∧
    checkout.hasConfig entry = true ∧ tree = checkout.markFetched entry.path

theorem head_of_revParse {git : Git} {tree : Tree} {head : String}
    (h : revParse git tree = .ok head) : tree.head = some head := by
  unfold revParse at h
  split at h
  · cases h
  · cases h
  · rename_i hhead
    rw [hhead, Except.ok.inj h]

theorem head_of_fetchRevision {git : Git} {entry : RegistryEntry} {head : String} {tree : Tree}
    (h : fetchRevision git entry = (.ok head, tree)) : tree.head = some head := by
  unfold fetchRevision at h
  split at h
  · cases h
  · split at h
    · cases h
    · split at h
      · cases h
      · have hpair := Prod.mk.inj h
        rw [← hpair.2]
        exact head_of_revParse hpair.1

section Complete

variable {git : Git} {entry : RegistryEntry} {tree : Tree} (h : Complete git entry tree)
include h

theorem Complete.head_eq : tree.head = some entry.commit := by
  obtain ⟨checkout, hfetch, -, rfl⟩ := h
  exact (head_of_fetchRevision hfetch : checkout.head = some entry.commit)

theorem Complete.hasConfig : tree.hasConfig entry = true := by
  obtain ⟨checkout, -, hconfig, rfl⟩ := h
  exact hconfig

theorem Complete.marker_eq : tree.marker = some (Tree.markerText entry.path) := by
  obtain ⟨checkout, -, -, rfl⟩ := h
  rfl

end Complete

/-! ## One run -/

/-- The target is as before, or it is the complete checkout. -/
def TargetSafe (git : Git) (entry : RegistryEntry) (before after : World) : Prop :=
  after.external entry.name = before.external entry.name ∨
    ∃ tree, after.external entry.name = some tree ∧ Complete git entry tree

/-- How a run ends: the target is safe, and only a run which has the new checkout in place succeeds. -/
structure Ended (git : Git) (entry : RegistryEntry) (before : World) (result : Exit × World) :
    Prop where
  safe : TargetSafe git entry before result.2
  success : result.1 = .success →
    ∃ tree, result.2.external entry.name = some tree ∧ Complete git entry tree
  inTree : result.2.inTree = before.inTree

section Run

variable {git : Git} {faults : Faults} {entry : RegistryEntry} {before world : World}

/-- A failure which leaves the target as it was. -/
theorem ended_failure (hsame : world.external entry.name = before.external entry.name)
    (hinTree : world.inTree = before.inTree) : Ended git entry before (.failure, world) where
  safe := Or.inl hsame
  success := fun h ↦ nomatch h
  inTree := hinTree

/-- The new checkout is in its place. -/
theorem ended_placed {exit : Exit} {tree : Tree} (hplaced : world.external entry.name = some tree)
    (hcomplete : Complete git entry tree) (hinTree : world.inTree = before.inTree) :
    Ended git entry before (exit, world) where
  safe := Or.inr ⟨tree, hplaced, hcomplete⟩
  success := fun _ ↦ ⟨tree, hplaced, hcomplete⟩
  inTree := hinTree

theorem external_put_stagingName (tree : Option Tree) :
    (world.put (stagingName faults entry) tree).external entry.name =
      world.external entry.name :=
  external_put_of_ne (Ne.symm stagingName_ne)

/-- Once the staging directory holds the complete checkout, it takes the target's place or the
target stays as it is; only the roll back could still lose it, and it does not fail as well. -/
theorem ended_install (hone : faults.AtMostOne) {tree : Tree} (hcomplete : Complete git entry tree)
    (hstaging : world.external (stagingName faults entry) = some tree)
    (hsame : world.external entry.name = before.external entry.name)
    (hinTree : world.inTree = before.inTree) :
    Ended git entry before (install faults entry world) := by
  have hname : entry.name ≠ stagingName faults entry := Ne.symm stagingName_ne
  have hprevious : entry.name ≠ previousName faults entry := Ne.symm previousName_ne
  have hstagingPrevious : stagingName faults entry ≠ previousName faults entry :=
    Ne.symm previousName_ne_stagingName
  unfold install
  dsimp only
  split
  · exact ended_failure hsame hinTree
  · split
    · split
      · exact ended_failure hsame hinTree
      · split
        · rename_i hmoveIn
          split
          · rename_i hrollBack
            exact absurd (hone _ _ hmoveIn hrollBack) (by decide)
          · apply ended_failure
            · rw [external_put_of_ne hname, external_rename_target hprevious,
                external_rename_target (Ne.symm hprevious), hsame]
            · exact hinTree
        · have hmoved : ((world.rename entry.name (previousName faults entry)).rename
              (stagingName faults entry) entry.name).external entry.name = some tree := by
            rw [external_rename_target hname,
              external_rename_of_ne stagingName_ne hstagingPrevious, hstaging]
          split
          · apply ended_placed
            · rw [external_put_of_ne hprevious]
              exact hmoved
            · exact hcomplete
            · exact hinTree
          · apply ended_placed
            · rw [external_put_of_ne hprevious]
              exact hmoved
            · exact hcomplete
            · exact hinTree
    · split
      · apply ended_failure
        · rw [external_put_of_ne hname, hsame]
        · exact hinTree
      · apply ended_placed
        · rw [external_rename_target hname, hstaging]
        · exact hcomplete
        · exact hinTree

theorem ended_stage (hone : faults.AtMostOne) :
    Ended git entry before (stage faults entry git before) := by
  have hput : ∀ tree, Ended git entry before
      (.failure, before.put (stagingName faults entry) tree) :=
    fun tree ↦ ended_failure (external_put_stagingName tree) rfl
  unfold stage
  dsimp only
  split
  · exact ended_failure rfl rfl
  · split
    · exact ended_failure rfl rfl
    · split
      · exact hput _
      · exact hput _
      · rename_i head tree hfetch
        split
        · exact hput _
        · rename_i hhead
          split
          · exact hput _
          · split
            · exact hput _
            · rename_i hconfig
              split
              · exact hput _
              · rw [not_not.mp hhead] at hfetch
                have hconfig : tree.hasConfig entry = true := by simpa using hconfig
                apply ended_install hone ⟨tree, hfetch, hconfig, rfl⟩
                · exact external_put_self
                · exact external_put_stagingName _
                · rfl

theorem ended_fetchCmd (hone : faults.AtMostOne) :
    Ended git entry before (fetchCmd faults entry git before) := by
  unfold fetchCmd
  split
  · exact ended_failure rfl rfl
  · split
    · exact ended_stage hone
    · split
      · exact ended_failure rfl rfl
      · split
        · exact ended_failure rfl rfl
        · exact ended_stage hone

/-- What fetch did not make is not touched. -/
theorem fetchCmd_of_not_isFetchedCheckout {tree : Tree}
    (htarget : before.external entry.name = some tree) (h : tree.isFetchedCheckout = false) :
    fetchCmd faults entry git before = (.failure, before) := by
  unfold fetchCmd
  rw [htarget]
  simp [h]

end Run

/-! ## Paths -/

/-- The characters a `path` is written with. -/
def isPathChar (c : Char) : Bool := isNameChar c || c == '.' || c == '/'

theorem isPathChar_of_isSegment {segment : List Char} (h : isSegment segment = true) {c : Char}
    (hc : c ∈ segment) : isPathChar c = true := by
  cases segment with
  | nil => cases h
  | cons first rest =>
    rw [isSegment, Bool.and_eq_true, List.all_eq_true] at h
    rcases List.mem_cons.mp hc with rfl | hrest
    · simp [isPathChar, h.1]
    · simp [isPathChar, h.2 c hrest]

theorem isPathChar_of_pathPattern {path : String} (h : pathPattern path = true) {c : Char}
    (hc : c ∈ beforeDollar path.toList) : isPathChar c = true := by
  rw [← @List.intercalate_splitOn _ (beforeDollar path.toList) _ _ '/'] at hc
  rcases Library.mem_intercalate hc with hslash | ⟨segment, hsegment, hmem⟩
  · rw [List.mem_singleton.mp hslash]
    rfl
  · exact isPathChar_of_isSegment (List.all_eq_true.mp h segment hsegment) hmem

/-- A character which ends a line is not one of a path. -/
theorem notMem_lineBoundaries {c : Char} (h : isPathChar c = true) :
    Text.lineBoundaries.contains c = false := by
  by_contra hmem
  rw [Bool.not_eq_false, List.contains_iff_mem] at hmem
  have hall : ∀ boundary ∈ Text.lineBoundaries, isPathChar boundary = false := by decide
  rw [hall c hmem] at h
  cases h

/-- A character other than a slash or a dot stands in some component of the path. -/
theorem exists_mem_pathParts {path : String} {c : Char} (h : c ∈ path.toList)
    (hne : c ≠ '/' ∧ c ≠ '.') : ∃ part ∈ Text.pathParts path, c ∈ part.toList := by
  rw [← @List.intercalate_splitOn _ path.toList _ _ '/'] at h
  rcases Library.mem_intercalate h with hslash | ⟨part, hpart, hmem⟩
  · exact absurd (List.mem_singleton.mp hslash) hne.1
  · refine ⟨String.ofList part, ?_, ?_⟩
    · rw [Text.pathParts, List.mem_filter]
      refine ⟨List.mem_map_of_mem hpart, ?_⟩
      have hempty : String.ofList part ≠ "" := by
        intro hnil
        rw [← String.toList_ofList (l := part), hnil] at hmem
        exact absurd hmem List.not_mem_nil
      have hdot : String.ofList part ≠ "." := by
        intro hdot
        rw [← String.toList_ofList (l := part), hdot] at hmem
        exact hne.2 (List.mem_singleton.mp hmem)
      simp [hempty, hdot]
    · rw [String.toList_ofList]
      exact hmem

theorem mem_of_mem_pathParts {path part : String} {c : Char} (hpart : part ∈ Text.pathParts path)
    (hc : c ∈ part.toList) : c ∈ path.toList := by
  rw [Text.pathParts, List.mem_filter] at hpart
  obtain ⟨segment, hsegment, rfl⟩ := List.mem_map.mp hpart.1
  rw [String.toList_ofList] at hc
  rw [← @List.intercalate_splitOn _ path.toList _ _ '/']
  exact Library.mem_intercalate_of_mem hsegment hc

/-! ## Lines of the marker -/

/-- Up to a newline a text without other line ends is one line. -/
theorem splitlines_go {text : List Char} (h : ∀ c ∈ text, Text.lineBoundaries.contains c = false)
    (line rest : List Char) :
    Text.splitlines.go line (text ++ '\n' :: rest) =
      String.ofList (line ++ text) :: Text.splitlines.go [] rest := by
  induction text generalizing line with
  | nil =>
    rw [List.nil_append, List.append_nil]
    rfl
  | cons c text ih =>
    have hc := h c List.mem_cons_self
    have hne : c ≠ '\r' := by
      rintro rfl
      exact absurd hc (by decide)
    rw [List.cons_append, Text.splitlines.go, if_neg (by rw [hc]; decide),
      ih (fun other hother ↦ h other (List.mem_cons_of_mem _ hother)), List.append_assoc]
    · rfl
    · intro other heq
      exact absurd heq hne

theorem append_newline (text : List Char) :
    ∃ rest, text ++ ['\n'] = beforeDollar text ++ '\n' :: rest := by
  unfold beforeDollar
  split
  · rename_i hlast
    refine ⟨['\n'], ?_⟩
    calc text ++ ['\n']
        = (text.dropLast ++ ['\n']) ++ ['\n'] := by rw [List.dropLast_append_getLast? '\n' hlast]
      _ = text.dropLast ++ '\n' :: ['\n'] := by rw [List.append_assoc, List.singleton_append]
  · exact ⟨[], rfl⟩

theorem splitlines_markerText {path : String} (h : pathPattern path = true) :
    ∃ rest, Text.splitlines (Tree.markerText (some path)) =
      "created by isvctl provider fetch" ::
        String.ofList ("path: ".toList ++ beforeDollar path.toList) :: rest := by
  have hne : path ≠ "" := by
    rintro rfl
    exact absurd h (by decide)
  obtain ⟨rest, hrest⟩ := append_newline path.toList
  have htext : (Tree.markerText (some path)).toList =
      "created by isvctl provider fetch".toList ++ '\n' ::
        (("path: ".toList ++ beforeDollar path.toList) ++ '\n' :: rest) := by
    have hfilter : (some path).filter (· ≠ "") = some path := by simp [hne]
    have hnewline : "\n".toList = ['\n'] := rfl
    have hstart : "created by isvctl provider fetch\npath: ".toList =
        "created by isvctl provider fetch".toList ++ '\n' :: "path: ".toList := by decide
    rw [Tree.markerText, hfilter, String.toList_append, String.toList_append, hnewline,
      List.append_assoc, hrest, hstart, List.append_assoc, List.cons_append, List.append_assoc]
  have hcreated : ∀ c ∈ "created by isvctl provider fetch".toList,
      Text.lineBoundaries.contains c = false := by decide
  have hline : ∀ c ∈ "path: ".toList ++ beforeDollar path.toList,
      Text.lineBoundaries.contains c = false := by
    intro c hc
    rcases List.mem_append.mp hc with hstart | hpath
    · have hall : ∀ c ∈ "path: ".toList, Text.lineBoundaries.contains c = false := by decide
      exact hall c hstart
    · exact notMem_lineBoundaries (isPathChar_of_pathPattern h hpath)
  refine ⟨Text.splitlines.go [] rest, ?_⟩
  rw [Text.splitlines, htext, splitlines_go hcreated, splitlines_go hline, List.nil_append,
    List.nil_append, String.ofList_toList]

/-- The path as the marker gives it back: without a newline at its end. -/
theorem fetchedProviderPath_markerText {path : String} (h : pathPattern path = true) :
    fetchedProviderPath (Tree.markerText (some path)) =
      some (String.ofList (beforeDollar path.toList)) := by
  obtain ⟨rest, hlines⟩ := splitlines_markerText h
  have hfirst : ¬ Text.startsWith "created by isvctl provider fetch" "path: " = true := by decide
  have hsecond : Text.startsWith (String.ofList ("path: ".toList ++ beforeDollar path.toList))
      "path: " = true := by
    rw [Text.startsWith, List.isPrefixOf_iff_prefix,
      @String.toList_ofList ("path: ".toList ++ beforeDollar path.toList)]
    exact List.prefix_append ..
  have hfind : ("created by isvctl provider fetch" ::
      String.ofList ("path: ".toList ++ beforeDollar path.toList) :: rest).find?
        (fun line ↦ Text.startsWith line "path: ") =
      some (String.ofList ("path: ".toList ++ beforeDollar path.toList)) := by
    rw [List.find?_cons_of_neg (p := fun line ↦ Text.startsWith line "path: ") hfirst,
      List.find?_cons_of_pos (p := fun line ↦ Text.startsWith line "path: ") hsecond]
  rw [fetchedProviderPath, hlines, hfind, Option.map_some, String.toList_ofList]
  rfl

/-- Which paths come back from the marker. -/
theorem pathParts_beforeDollar {path : String} (h : pathPattern path = true) :
    Text.pathParts (String.ofList (beforeDollar path.toList)) = Text.pathParts path ↔
      path.toList.getLast? ≠ some '\n' := by
  constructor
  · intro heq hlast
    have hnewline : '\n' ∈ path.toList := List.mem_of_getLast? hlast
    obtain ⟨part, hpart, hmem⟩ := exists_mem_pathParts hnewline (by decide)
    rw [← heq] at hpart
    have hin := mem_of_mem_pathParts hpart hmem
    rw [String.toList_ofList] at hin
    exact absurd (isPathChar_of_pathPattern h hin) (by decide)
  · intro hlast
    rw [beforeDollar, if_neg hlast, String.ofList_toList]

/-! ## The state after a fetch -/

/-- The path of the entry ends with a newline. -/
def RegistryEntry.EndsWithNewline (entry : RegistryEntry) : Prop :=
  ∃ path, entry.path = some path ∧ path.toList.getLast? = some '\n'

theorem pathMatches_markerText {entry : RegistryEntry} {world : World}
    (hvalid : entry.Valid world.inTree) :
    pathMatches world entry (Tree.markerText entry.path) = true ↔ ¬ entry.EndsWithNewline := by
  rw [pathMatches, hvalid.notInTree, Bool.not_false, Bool.true_and, decide_eq_true_eq]
  cases hpath : entry.path with
  | none =>
    have hnot : ¬ entry.EndsWithNewline := by
      rintro ⟨path, hsome, -⟩
      rw [hpath] at hsome
      cases hsome
    exact iff_of_true (by decide) hnot
  | some path =>
    have hpattern := hvalid.path path hpath
    rw [fetchedProviderPath_markerText hpattern, Option.getD_some, Option.getD_some,
      pathParts_beforeDollar hpattern]
    constructor
    · rintro hlast ⟨other, hother, hnewline⟩
      rw [hpath, Option.some.injEq] at hother
      exact hlast (hother ▸ hnewline)
    · exact fun hnot hlast ↦ hnot ⟨path, hpath, hlast⟩

theorem fetchState_of_complete {git : Git} {entry : RegistryEntry} {world : World} {tree : Tree}
    (hvalid : entry.Valid world.inTree) (hplaced : world.external entry.name = some tree)
    (hcomplete : Complete git entry tree) :
    (fetchState world entry).1 = .current ↔ ¬ entry.EndsWithNewline := by
  rw [fetchState, hplaced]
  simp only [hcomplete.marker_eq, hcomplete.head_eq, true_and]
  rw [← pathMatches_markerText hvalid]
  split
  · rename_i hmatches
    exact iff_of_true rfl hmatches
  · rename_i hmatches
    exact iff_of_false (by decide) hmatches

/-! ## All or nothing -/

/-- What a fetch promises: the target is exactly what it was, or the complete checkout at the pinned
commit, with the declared directory and the marker; what fetch did not make is not touched; and
after a success the state is current. -/
structure AllOrNothing (git : Git) (entry : RegistryEntry) (before : World)
    (result : Exit × World) : Prop where
  target : result.2.external entry.name = before.external entry.name ∨
    ∃ tree, result.2.external entry.name = some tree ∧ Complete git entry tree ∧
      tree.head = some entry.commit ∧ tree.hasConfig entry = true ∧ tree.isFetchedCheckout = true
  untouched : ∀ tree, before.external entry.name = some tree → tree.isFetchedCheckout = false →
    result.2 = before
  current : result.1 = .success → (fetchState result.2 entry).1 = .current

/-- A repository which holds the declared directory, fetched without any failure. -/
def workingGit (entry : RegistryEntry) : Git where
  init := fun tree ↦ (.ok (), tree)
  fetch := fun _ _ tree ↦ (.ok (), tree)
  checkout := fun tree ↦ (.ok (),
    { tree with head := some entry.commit, directories := [Tree.configDir entry] })
  revParse := .ok ()

def noFaults : Faults where
  fails := fun _ ↦ false
  random := "x"

theorem atMostOne_noFaults : noFaults.AtMostOne := fun _ _ hfails ↦ nomatch hfails

/-- A fetch of an entry is all or nothing, whatever stands in its place, whatever git does and
whichever one file operation fails, exactly when its path does not end with a newline. -/
theorem fetchCmd_allOrNothing_iff (inTree : String → Bool) (entry : RegistryEntry)
    (hvalid : entry.Valid inTree) :
    (∀ git faults before, faults.AtMostOne → before.inTree = inTree →
      AllOrNothing git entry before (fetchCmd faults entry git before)) ↔
        ¬ entry.EndsWithNewline := by
  constructor
  · intro hall
    have hrun := (hall (workingGit entry) noFaults ⟨inTree, fun _ ↦ none⟩ atMostOne_noFaults
      rfl).current
    have hended := @ended_fetchCmd (workingGit entry) noFaults entry ⟨inTree, fun _ ↦ none⟩
      atMostOne_noFaults
    have hsuccess : (fetchCmd noFaults entry (workingGit entry)
        ⟨inTree, fun _ ↦ none⟩).1 = .success := by
      simp [fetchCmd, stage, install, finish, noFaults, workingGit, fetchRevision, revParse,
        Tree.hasConfig, external_put_stagingName]
    obtain ⟨tree, hplaced, hcomplete⟩ := hended.success hsuccess
    have hvalid' : entry.Valid (fetchCmd noFaults entry (workingGit entry)
        ⟨inTree, fun _ ↦ none⟩).2.inTree := by
      rw [hended.inTree]
      exact hvalid
    exact (fetchState_of_complete hvalid' hplaced hcomplete).mp (hrun hsuccess)
  · intro hnewline git faults before hone hinTree
    have hended := @ended_fetchCmd git faults entry before hone
    have hvalid' : entry.Valid (fetchCmd faults entry git before).2.inTree := by
      rw [hended.inTree, hinTree]
      exact hvalid
    exact {
      target := by
        apply hended.safe.imp_right
        intro ⟨tree, hplaced, hcomplete⟩
        refine ⟨tree, hplaced, hcomplete, hcomplete.head_eq, hcomplete.hasConfig, ?_⟩
        rw [Tree.isFetchedCheckout, hcomplete.marker_eq]
        rfl
      untouched := by
        intro tree htarget hlocal
        rw [fetchCmd_of_not_isFetchedCheckout htarget hlocal]
      current := by
        intro hsuccess
        obtain ⟨tree, hplaced, hcomplete⟩ := hended.success hsuccess
        exact (fetchState_of_complete hvalid' hplaced hcomplete).mpr hnewline }

/-- An entry of a repository with several providers. -/
def acmeEntry : RegistryEntry where
  name := "acme"
  repoUrl := "https://git.example.com/acme/providers"
  path := some "acme-gpu"
  commit := "0123456789abcdef0123456789abcdef01234567"

theorem acmeEntry_valid : acmeEntry.Valid fun _ ↦ false where
  path := by
    intro path hpath
    rw [← Option.some.inj hpath]
    decide
  notInTree := rfl

theorem fetchCmd_allOrNothing_acme : acmeEntry.Valid (fun _ ↦ false) ∧
    ∀ git faults before, faults.AtMostOne → before.inTree = (fun _ ↦ false) →
      AllOrNothing git acmeEntry before (fetchCmd faults acmeEntry git before) := by
  refine ⟨acmeEntry_valid, (fetchCmd_allOrNothing_iff _ acmeEntry acmeEntry_valid).mpr ?_⟩
  rintro ⟨path, hpath, hlast⟩
  rw [← Option.some.inj hpath] at hlast
  exact absurd hlast (by decide)

/-- The same entry with a newline at the end of its path, as a YAML block scalar leaves one. -/
def newlineEntry : RegistryEntry := { acmeEntry with path := some "acme-gpu\n" }

/-- Its fetch succeeds where nothing fails, and the state is stale. -/
theorem newline_path_stale : newlineEntry.Valid (fun _ ↦ false) ∧ noFaults.AtMostOne ∧
    (fetchCmd noFaults newlineEntry (workingGit newlineEntry)
      ⟨fun _ ↦ false, fun _ ↦ none⟩).1 = .success ∧
    ¬ AllOrNothing (workingGit newlineEntry) newlineEntry ⟨fun _ ↦ false, fun _ ↦ none⟩
      (fetchCmd noFaults newlineEntry (workingGit newlineEntry)
        ⟨fun _ ↦ false, fun _ ↦ none⟩) := by
  have hsuccess : (fetchCmd noFaults newlineEntry (workingGit newlineEntry)
      ⟨fun _ ↦ false, fun _ ↦ none⟩).1 = .success := by decide
  have hstale : (fetchState (fetchCmd noFaults newlineEntry (workingGit newlineEntry)
      ⟨fun _ ↦ false, fun _ ↦ none⟩).2 newlineEntry).1 = .stale := by decide
  refine ⟨⟨?_, rfl⟩, atMostOne_noFaults, hsuccess, ?_⟩
  · intro path hpath
    rw [← Option.some.inj hpath]
    decide
  · intro h
    have hcurrent := h.current hsuccess
    rw [hstale] at hcurrent
    cases hcurrent

end IsvValidation.Registry
