import IsvValidation.Registry.Fetch

/-!
# The provider commands

`scaffold`, `fetch` and `remove` all work on `providers-external/`, where a developer keeps work of their own beside
what was fetched. Whatever the commands are, in whatever order they come and whichever of their file operations fail,
a directory changes only by a command which names it, and one which fetch did not make only where the command says
so. The registry gets entries, and loses and changes none.
-/

namespace IsvValidation.Registry

open Host

/-! ## Commands -/

/-- `PROVIDER_NAME_RE.fullmatch`. -/
def isProviderName (name : String) : Bool :=
  name ≠ "" && name.toList.all fun c ↦ ('a' ≤ c && c ≤ 'z') || c.isDigit || c == '_' || c == '-'

/-- `(path / ".git").exists()`. -/
def Tree.hasGit (tree : Tree) : Bool :=
  tree.marker.isSome || tree.directories.contains [".git"] || tree.files.any fun file ↦ file.1 = [".git"]

/-- `_looks_like_scaffold`. -/
def Tree.looksLikeScaffold (tree : Tree) : Bool := tree.files.any fun file ↦ file.1 = [".scaffold-meta"]

/-- `_assert_safe_to_overwrite`, of a directory in `providers-external/`. -/
def Tree.safeToOverwrite (tree : Tree) : Bool := !tree.hasGit && tree.looksLikeScaffold

/-- The directories, and the texts of `providers-registry/`. -/
structure Site where
  world : World
  registry : String → Option String

/-- `load_entry` of a text, with the providers in the tree; the template under another name; and
`_registry_entry_stub`. -/
structure Tools where
  load : (inTree : String → Bool) → (name text : String) → Option RegistryEntry
  template : String → Tree
  stub : Tree → (name : String) → String

/-- What `_entry_errors` has checked of an entry: it is valid, and bears the name of its file. -/
structure Tools.Lawful (tools : Tools) : Prop where
  named : ∀ {inTree name text entry}, tools.load inTree name text = some entry → entry.name = name
  valid : ∀ {inTree name text entry}, tools.load inTree name text = some entry → entry.Valid inTree

/-- For each directory whose removal fails, what is left of it. -/
abbrev Removal : Type := String → Option (Option Tree)

/-- What is left where a scaffold cannot be completed: of the old directory, of the new one, and of the entry. -/
structure Copy where
  removal : Option (Option Tree) := none
  broken : Option (Option Tree) := none
  entry : Option (Option String) := none

inductive Command where
  | fetch (name : String) (faults : Faults) (git : Git)
  | remove (names : List String) (all force : Bool) (listing : List String) (removal : Removal)
  | scaffold (name : String) (overwrite dryRun : Bool) (copy : Copy)

def World.fetchedAt (world : World) (name : String) : Bool := (world.external name).any Tree.isFetchedCheckout

/-- The removal of one directory after the other; it ends where one is not there, or cannot be removed. -/
def removeEach (removal : Removal) : List String → World → Exit × World
  | [], world => (.success, world)
  | name :: names, world =>
    match world.external name, removal name with
    | none, _ => (.failure, world)
    | some _, some left => (.failure, world.put name left)
    | some _, none => removeEach removal names (world.put name none)

/-- The directories which `remove --all` goes through. -/
def removedByAll (force : Bool) (listing : List String) (world : World) : List String :=
  let providers := listing.filter fun name ↦ !Text.startsWith name "."
  (if force then providers else providers.filter world.fetchedAt) ++
    listing.filter fun name ↦ Text.startsWith name ".fetch-"

/-- `remove_cmd`. -/
def removeCmd (names : List String) (all force : Bool) (listing : List String) (removal : Removal) (world : World) :
    Exit × World :=
  if all = !names.isEmpty then (.failure, world)
  else if all then removeEach removal (removedByAll force listing world) world
  else if names.any fun name ↦ !isProviderName name || (world.external name).isNone then (.failure, world)
  else if !force && names.any fun name ↦ !world.fetchedAt name then (.failure, world)
  else removeEach removal names world

/-- `_copy_scaffold` into a free place, and the entry of the registry. -/
def createScaffold (tools : Tools) (name : String) (copy : Copy) (site : Site) : Exit × Site :=
  match copy.broken with
  | some left => (.failure, { site with world := site.world.put name left })
  | none =>
    let made := tools.template name
    let tree := { made with files := made.files ++ [([".scaffold-meta"], "provider_name=" ++ name ++ "\n")] }
    let world := site.world.put name (some tree)
    match site.registry name, copy.entry with
    | some _, _ => (.success, { site with world })
    | none, some left => (.failure, { world, registry := Function.update site.registry name left })
    | none, none => (.success, { world, registry := Function.update site.registry name (some (tools.stub tree name)) })

/-- `scaffold`, into its usual place. -/
def scaffoldCmd (tools : Tools) (name : String) (overwrite dryRun : Bool) (copy : Copy) (site : Site) : Exit × Site :=
  if !isProviderName name || site.world.inTree name then (.failure, site)
  else
    match site.world.external name with
    | none => if dryRun then (.success, site) else createScaffold tools name copy site
    | some tree =>
      if dryRun then (if overwrite && !tree.safeToOverwrite then .failure else .success, site)
      else if !overwrite || !tree.safeToOverwrite then (.failure, site)
      else
        match copy.removal with
        | some left => (.failure, { site with world := site.world.put name left })
        | none => createScaffold tools name copy { site with world := site.world.put name none }

/-- `fetch_cmd`, from the registry on. -/
def fetchNamed (tools : Tools) (name : String) (faults : Faults) (git : Git) (site : Site) : Exit × Site :=
  match (site.registry name).bind (tools.load site.world.inTree name) with
  | none => (.failure, site)
  | some entry =>
    let (exit, world) := fetchCmd faults entry git site.world
    (exit, { site with world })

def Command.run (tools : Tools) (site : Site) : Command → Exit × Site
  | fetch name faults git => fetchNamed tools name faults git site
  | remove names all force listing removal =>
    let (exit, world) := removeCmd names all force listing removal site.world
    (exit, { site with world })
  | scaffold name overwrite dryRun copy => scaffoldCmd tools name overwrite dryRun copy site

/-- `ensure_fetched`: the entry of a checkout which may be used, none where a run needs none, or an error. -/
def ensureFetched (tools : Tools) (site : Site) (name : String) : Except Unit (Option RegistryEntry) :=
  if site.world.inTree name then .ok none
  else
    match site.registry name with
    | none => .ok none
    | some text =>
      match tools.load site.world.inTree name text with
      | none => if site.world.fetchedAt name then .error () else .ok none
      | some entry =>
        match (fetchState site.world entry).1 with
        | .localCopy => .ok none
        | .missing | .stale => .error ()
        | .current => .ok (some entry)

/-- The commands one after the other, whatever they end with. -/
def runCommands (tools : Tools) (site : Site) (commands : List Command) : Site :=
  commands.foldl (fun site command ↦ (command.run tools site).2) site

/-! ## What a command may change -/

/-- Whether a command may change what stands under a name. -/
def Command.MayChange (name : String) (found : Option Tree) : Command → Prop
  | fetch target _ _ => target = name ∧ found.all Tree.isFetchedCheckout = true
  | remove names all force _ _ => (all = true ∨ name ∈ names) ∧ (force = true ∨ found.any Tree.isFetchedCheckout = true)
  | scaffold target overwrite dryRun _ =>
    target = name ∧ dryRun = false ∧ (found = none ∨ overwrite = true ∧ found.any Tree.safeToOverwrite = true)

/-- Someone's own work: a repository, a scaffold under development, or anything else which was not fetched. -/
def Tree.IsOwn (tree : Tree) : Prop := tree.isFetchedCheckout = false

/-- Own work changes only by a removal which is forced, or by a scaffold which may overwrite it and names it. -/
theorem Tree.IsOwn.named {tree : Tree} (h : tree.IsOwn) {name : String} {command : Command}
    (hchange : command.MayChange name (some tree)) :
    (∃ names all listing removal, command = .remove names all true listing removal ∧ (all = true ∨ name ∈ names)) ∨
      ∃ copy, command = .scaffold name true false copy ∧ tree.safeToOverwrite = true := by
  unfold Tree.IsOwn at h
  cases command with
  | fetch target faults git =>
    have hfetched : tree.isFetchedCheckout = true := hchange.2
    rw [h] at hfetched
    cases hfetched
  | remove names all force listing removal =>
    obtain ⟨hnamed, rfl | hfetched⟩ := hchange
    · exact .inl ⟨names, all, listing, removal, rfl, hnamed⟩
    · have hfetched : tree.isFetchedCheckout = true := hfetched
      rw [h] at hfetched
      cases hfetched
  | scaffold target overwrite dryRun copy =>
    obtain ⟨rfl, rfl, hnone | ⟨rfl, hsafe⟩⟩ := hchange
    · cases hnone
    · exact .inr ⟨copy, rfl, hsafe⟩

/-! ## One command -/

section Step

variable {tools : Tools} {faults : Faults} {entry : RegistryEntry} {git : Git} {world : World} {site : Site}
  {name other : String}

/-- The names of the staging directories of fetch. -/
theorem startsWith_stagingName : Text.startsWith (stagingName faults entry) ".fetch-" = true := by
  simp [Text.startsWith, stagingName, List.append_assoc]

theorem startsWith_previousName : Text.startsWith (previousName faults entry) ".fetch-" = true := by
  simp [Text.startsWith, previousName, stagingName, List.append_assoc]

/-- The providers in the tree are the same, and so is what stands under some names. -/
def Keeps (kept : String → Prop) (before after : World) : Prop :=
  after.inTree = before.inTree ∧ ∀ name, kept name → after.external name = before.external name

variable {kept : String → Prop}

namespace Keeps

theorem refl (kept : String → Prop) (world : World) : Keeps kept world world := ⟨rfl, fun _ _ ↦ rfl⟩

theorem trans {before middle after : World} (h : Keeps kept before middle) (h' : Keeps kept middle after) :
    Keeps kept before after :=
  ⟨h'.1.trans h.1, fun name hname ↦ (h'.2 name hname).trans (h.2 name hname)⟩

theorem put (hne : ¬ kept other) (tree : Option Tree) : Keeps kept world (world.put other tree) :=
  ⟨rfl, fun _ hname ↦ external_put_of_ne fun heq ↦ hne (heq ▸ hname)⟩

theorem rename {source target : String} (hsource : ¬ kept source) (htarget : ¬ kept target) :
    Keeps kept world (world.rename source target) :=
  ⟨rfl, fun _ hname ↦ external_rename_of_ne (fun heq ↦ hsource (heq ▸ hname)) fun heq ↦ htarget (heq ▸ hname)⟩

end Keeps

/-- A fetch leaves alone what it does not name. -/
theorem keeps_fetchCmd (hname : ¬ kept entry.name)
    (hother : ∀ name, kept name → Text.startsWith name ".fetch-" = false) :
    Keeps kept world (fetchCmd faults entry git world).2 := by
  have hstaging : ¬ kept (stagingName faults entry) := fun hkept ↦ by
    have hstart := hother _ hkept
    rw [startsWith_stagingName] at hstart
    cases hstart
  have hprevious : ¬ kept (previousName faults entry) := fun hkept ↦ by
    have hstart := hother _ hkept
    rw [startsWith_previousName] at hstart
    cases hstart
  have hinstall : ∀ world : World, Keeps kept world (install faults entry world).2 := by
    intro world
    have haside : Keeps kept world (world.rename entry.name (previousName faults entry)) := .rename hname hprevious
    unfold install
    dsimp only
    split_ifs
    · exact .refl kept world
    · exact .refl kept world
    · exact haside
    · exact (haside.trans (.rename hprevious hname)).trans (.put hstaging _)
    · exact (haside.trans (.rename hstaging hname)).trans (.put hprevious _)
    · exact (haside.trans (.rename hstaging hname)).trans (.put hprevious _)
    · exact .put hstaging _
    · exact .rename hstaging hname
  have hstage : Keeps kept world (stage faults entry git world).2 := by
    unfold stage
    dsimp only
    split
    · exact .refl kept world
    · split
      · exact .refl kept world
      · split
        · exact .put hstaging _
        · exact .put hstaging _
        · split_ifs
          · exact .put hstaging _
          · exact .put hstaging _
          · exact .put hstaging _
          · exact .put hstaging _
          · exact (Keeps.put hstaging _).trans (hinstall _)
  unfold fetchCmd
  split
  · exact .refl kept world
  · split
    · exact hstage
    · split_ifs
      · exact .refl kept world
      · exact .refl kept world
      · exact hstage

/-- A removal leaves alone what is not listed. -/
theorem keeps_removeEach {removal : Removal} {names : List String} (h : ∀ name ∈ names, ¬ kept name) (world : World) :
    Keeps kept world (removeEach removal names world).2 := by
  induction names generalizing world with
  | nil => exact .refl kept world
  | cons first names ih =>
    obtain ⟨hfirst, hrest⟩ := List.forall_mem_cons.mp h
    unfold removeEach
    split
    · exact .refl kept world
    · exact .put hfirst _
    · exact (Keeps.put hfirst none).trans (ih hrest _)

/-- What `remove --all` goes through is fetched, unless the removal is forced, or it is a staging directory. -/
theorem mem_removedByAll {force : Bool} {listing : List String} (h : name ∈ removedByAll force listing world) :
    force = true ∨ world.fetchedAt name = true ∨ Text.startsWith name ".fetch-" = true := by
  obtain hmem | hmem := List.mem_append.mp h
  · cases force with
    | true => exact .inl rfl
    | false => exact .inr (.inl (List.mem_filter.mp hmem).2)
  · exact .inr (.inr (List.mem_filter.mp hmem).2)

/-- What a command may not change, other than staging directories. -/
def Command.Spares (command : Command) (world : World) (kept : String → Prop) : Prop :=
  ∀ name, kept name → ¬ command.MayChange name (world.external name) ∧ Text.startsWith name ".fetch-" = false

theorem keeps_removeCmd {names listing : List String} {all force : Bool} {removal : Removal}
    (hspares : (Command.remove names all force listing removal).Spares world kept) :
    Keeps kept world (removeCmd names all force listing removal world).2 := by
  unfold removeCmd
  split_ifs with hbad hall hmissing hlocal
  · exact .refl kept world
  · refine keeps_removeEach (fun name hmem hkept ↦ ?_) world
    obtain ⟨hchange, hother⟩ := hspares name hkept
    refine hchange ⟨.inl hall, ?_⟩
    obtain hforce | hfetched | hstaging := mem_removedByAll hmem
    · exact .inl hforce
    · exact .inr hfetched
    · rw [hother] at hstaging
      cases hstaging
  · exact .refl kept world
  · exact .refl kept world
  · refine keeps_removeEach (fun name hmem hkept ↦ (hspares name hkept).1 ⟨.inr hmem, ?_⟩) world
    rw [Bool.and_eq_true, not_and_or, Bool.not_eq_true', Bool.not_eq_false] at hlocal
    refine hlocal.imp_right fun hall ↦ ?_
    by_contra hfetched
    exact hall (List.any_eq_true.mpr ⟨name, hmem, by simpa [World.fetchedAt] using hfetched⟩)

/-- What a command does to the site, where it leaves alone what stands under some names. -/
structure Leaves (kept : String → Prop) (before after : Site) : Prop where
  keeps : Keeps kept before.world after.world
  registry : ∀ key text, before.registry key = some text → after.registry key = some text

namespace Leaves

theorem refl (kept : String → Prop) (site : Site) : Leaves kept site site := ⟨.refl kept site.world, fun _ _ h ↦ h⟩

theorem trans {before middle after : Site} (h : Leaves kept before middle) (h' : Leaves kept middle after) :
    Leaves kept before after :=
  ⟨h.keeps.trans h'.keeps, fun key text hkey ↦ h'.registry key text (h.registry key text hkey)⟩

theorem of_keeps {world' : World} (h : Keeps kept site.world world') : Leaves kept site { site with world := world' } :=
  ⟨h, fun _ _ h ↦ h⟩

end Leaves

/-- A scaffold gets an entry where there is none. -/
theorem leaves_createScaffold {copy : Copy} (hne : ¬ kept other) :
    Leaves kept site (createScaffold tools other copy site).2 := by
  have hentry : ∀ (world : World) (left : Option String), site.registry other = none →
      Keeps kept site.world world →
        Leaves kept site { world, registry := Function.update site.registry other left } := by
    intro world left hnone hkeeps
    refine ⟨hkeeps, fun key text hkey ↦ ?_⟩
    have hother : key ≠ other := by
      rintro rfl
      rw [hnone] at hkey
      cases hkey
    exact (Function.update_of_ne hother left site.registry).trans hkey
  unfold createScaffold
  split
  · exact .of_keeps (.put hne _)
  · dsimp only
    split
    · exact .of_keeps (.put hne _)
    · next hnone _ => exact hentry _ _ hnone (.put hne _)
    · next hnone _ => exact hentry _ _ hnone (.put hne _)

theorem leaves_scaffoldCmd {overwrite dryRun : Bool} {copy : Copy}
    (hspares : (Command.scaffold other overwrite dryRun copy).Spares site.world kept) :
    Leaves kept site (scaffoldCmd tools other overwrite dryRun copy site).2 := by
  have hchange : dryRun = false → (site.world.external other = none ∨
      overwrite = true ∧ (site.world.external other).any Tree.safeToOverwrite = true) → ¬ kept other :=
    fun hdry hfree hkept ↦ (hspares other hkept).1 ⟨rfl, hdry, hfree⟩
  unfold scaffoldCmd
  split
  · exact .refl kept site
  · split
    · next hnone =>
      split
      · exact .refl kept site
      · next hdry => exact leaves_createScaffold (hchange (by simpa using hdry) (.inl hnone))
    · next tree htree =>
      split
      · exact .refl kept site
      · next hdry =>
        split
        · exact .refl kept site
        · next hrefused =>
          rw [Bool.or_eq_true, not_or, Bool.not_eq_true', Bool.not_eq_false, Bool.not_eq_true', Bool.not_eq_false]
            at hrefused
          have hne : ¬ kept other :=
            hchange (by simpa using hdry) (.inr ⟨hrefused.1, by rw [htree]; exact hrefused.2⟩)
          split
          · exact .of_keeps (.put hne _)
          · exact (Leaves.of_keeps (.put hne none)).trans (leaves_createScaffold hne)

theorem leaves_fetchNamed (hlawful : tools.Lawful) (hspares : (Command.fetch other faults git).Spares site.world kept) :
    Leaves kept site (fetchNamed tools other faults git site).2 := by
  unfold fetchNamed
  split
  · exact .refl kept site
  · next entry hload =>
    obtain ⟨text, -, hentry⟩ := Option.bind_eq_some_iff.mp hload
    obtain rfl := hlawful.named hentry
    refine .of_keeps ?_
    by_cases hkept : kept entry.name
    · have hlocal : ¬ (site.world.external entry.name).all Tree.isFetchedCheckout = true := fun hall ↦
        (hspares _ hkept).1 ⟨rfl, hall⟩
      cases hfound : site.world.external entry.name with
      | none => simp [hfound] at hlocal
      | some tree =>
        rw [fetchCmd_of_not_isFetchedCheckout hfound (by simpa [hfound] using hlocal)]
        exact .refl _ _
    · exact keeps_fetchCmd hkept fun name hname ↦ (hspares name hname).2

/-- A command leaves alone what it may not change. -/
theorem leaves_run (hlawful : tools.Lawful) {command : Command} (hspares : command.Spares site.world kept) :
    Leaves kept site (command.run tools site).2 := by
  cases command with
  | fetch target faults git => exact leaves_fetchNamed hlawful hspares
  | remove names all force listing removal => exact .of_keeps (keeps_removeCmd hspares)
  | scaffold target overwrite dryRun copy => exact leaves_scaffoldCmd hspares

end Step

/-! ## Whole runs -/

section Runs

variable {tools : Tools} {kept : String → Prop}

/-- Commands leave alone what none of them may change. -/
theorem leaves_runCommands (hlawful : tools.Lawful) (commands : List Command) (site : Site)
    (hspares : ∀ command ∈ commands, command.Spares site.world kept) :
    Leaves kept site (runCommands tools site commands) := by
  induction commands generalizing site with
  | nil => exact .refl kept site
  | cons command commands ih =>
    obtain ⟨hfirst, hrest⟩ := List.forall_mem_cons.mp hspares
    have hleaves := leaves_run hlawful hfirst
    refine hleaves.trans (ih _ fun later hmem name hname ↦ ?_)
    rw [hleaves.keeps.2 name hname]
    exact hrest later hmem name hname

/-- Whatever provider commands are run, own work stays as it is unless a removal of it is forced or, where it is a bare
scaffold, one with `--overwrite` names it; no entry of the registry is changed or lost, and the providers in the tree
are as they were. -/
theorem runCommands_keep (hlawful : tools.Lawful) (commands : List Command) (site : Site) :
    (runCommands tools site commands).world.inTree = site.world.inTree ∧
    (∀ name text, site.registry name = some text → (runCommands tools site commands).registry name = some text) ∧
    ∀ name tree, site.world.external name = some tree → tree.IsOwn → Text.startsWith name ".fetch-" = false →
      (∀ names all listing removal, .remove names all true listing removal ∈ commands → all = false ∧ name ∉ names) →
      (tree.safeToOverwrite = true → ∀ copy, .scaffold name true false copy ∉ commands) →
        (runCommands tools site commands).world.external name = some tree := by
  have hnone : Leaves (fun _ ↦ False) site (runCommands tools site commands) :=
    leaves_runCommands hlawful commands site fun _ _ _ h ↦ h.elim
  refine ⟨hnone.keeps.1, hnone.registry, fun name tree htree hown hother hforced hoverwritten ↦ ?_⟩
  have hleaves : Leaves (· = name) site (runCommands tools site commands) := by
    refine leaves_runCommands hlawful commands site ?_
    rintro command hmem _ rfl
    refine ⟨fun hchange ↦ ?_, hother⟩
    rw [htree] at hchange
    obtain ⟨names, all, listing, removal, rfl, hnamed⟩ | ⟨copy, rfl, hsafe⟩ := hown.named hchange
    · obtain ⟨hall, hnot⟩ := hforced names all listing removal hmem
      obtain htrue | hnamed := hnamed
      · rw [hall] at htrue
        cases htrue
      · exact hnot hnamed
    · exact hoverwritten hsafe copy hmem
  exact (hleaves.keeps.2 name rfl).trans htree

/-- The names which a command is given. -/
def Command.Names (name : String) : Command → Prop
  | fetch target _ _ | scaffold target _ _ _ => target = name
  | remove names all _ _ _ => all = true ∨ name ∈ names

theorem Command.names_of_mayChange {name : String} {found : Option Tree} {command : Command}
    (h : command.MayChange name found) : command.Names name := by
  cases command <;> exact h.1

theorem fetchNamed_complete {site : Site} {name : String} {faults : Faults} {git : Git} (hone : faults.AtMostOne)
    (h : (fetchNamed tools name faults git site).1 = .success) :
    ∃ text entry tree, site.registry name = some text ∧ tools.load site.world.inTree name text = some entry ∧
      (fetchNamed tools name faults git site).2.registry = site.registry ∧
      (fetchNamed tools name faults git site).2.world.inTree = site.world.inTree ∧
      (fetchNamed tools name faults git site).2.world.external entry.name = some tree ∧ Complete git entry tree := by
  unfold fetchNamed at h ⊢
  cases hload : (site.registry name).bind (tools.load site.world.inTree name) with
  | none =>
    rw [hload] at h
    cases h
  | some entry =>
    rw [hload] at h
    obtain ⟨text, htext, hentry⟩ := Option.bind_eq_some_iff.mp hload
    have hended : Ended git entry site.world (fetchCmd faults entry git site.world) := ended_fetchCmd hone
    obtain ⟨tree, hplaced, hcomplete⟩ := hended.success h
    exact ⟨text, entry, tree, htext, hentry, rfl, hended.inTree, hplaced, hcomplete⟩

/-- A provider which was fetched can be run at its pinned commit, whatever commands follow, until one of them names
it. -/
theorem fetched_runnable (hlawful : tools.Lawful) {site : Site} {name : String} {faults : Faults} {git : Git}
    (hone : faults.AtMostOne) (hfetched : (fetchNamed tools name faults git site).1 = .success)
    (commands : List Command) (hspares : ∀ command ∈ commands, ¬ command.Names name)
    (hname : Text.startsWith name ".fetch-" = false) :
    ∃ entry, (∃ text, site.registry name = some text ∧ tools.load site.world.inTree name text = some entry) ∧
      ∃ tree, (runCommands tools (fetchNamed tools name faults git site).2 commands).world.external name = some tree ∧
        tree.head = some entry.commit ∧ tree.hasConfig entry = true ∧
        (ensureFetched tools (runCommands tools (fetchNamed tools name faults git site).2 commands) name =
          .ok (some entry) ↔ ¬ entry.EndsWithNewline) := by
  obtain ⟨text, entry, tree, htext, hload, hregistry, hinTree, hplaced, hcomplete⟩ :=
    fetchNamed_complete hone hfetched
  have hentry := hlawful.named hload
  have hvalid := hlawful.valid hload
  have hleaves : Leaves (· = name) (fetchNamed tools name faults git site).2
      (runCommands tools (fetchNamed tools name faults git site).2 commands) := by
    refine leaves_runCommands hlawful commands _ ?_
    rintro command hmem _ rfl
    exact ⟨fun hchange ↦ hspares command hmem (Command.names_of_mayChange hchange), hname⟩
  have hworld := hleaves.keeps.1.trans hinTree
  have hsame := hleaves.keeps.2 name rfl
  subst hentry
  rw [hplaced] at hsame
  refine ⟨entry, ⟨text, htext, hload⟩, tree, hsame, hcomplete.head_eq, hcomplete.hasConfig, ?_⟩
  have hentered := hleaves.registry entry.name text (by rw [hregistry, htext])
  rw [← hworld] at hvalid hload
  rw [← fetchState_of_complete hvalid hsame hcomplete]
  unfold ensureFetched
  rw [hvalid.notInTree, hentered, if_neg Bool.false_ne_true]
  dsimp only
  rw [hload]
  dsimp only
  cases (fetchState _ entry).1 <;> simp

end Runs

section Site

def acmeTools : Tools where
  load inTree name text :=
    if text = "acme" ∧ name = acmeEntry.name ∧ inTree acmeEntry.name = false then some acmeEntry else none
  template _ := { directories := [["config"]] }
  stub _ name := "name: " ++ name

theorem acmeTools_lawful : acmeTools.Lawful where
  named := by
    intro inTree name text entry h
    obtain ⟨⟨-, hname, -⟩, hentry⟩ := Option.ite_none_right_eq_some.mp h
    cases hentry
    exact hname.symm
  valid := by
    intro inTree name text entry h
    obtain ⟨⟨-, -, hinTree⟩, hentry⟩ := Option.ite_none_right_eq_some.mp h
    cases hentry
    exact ⟨acmeEntry_valid.path, hinTree⟩

/-- A scaffold under development, beside what is fetched. -/
def ownTree : Tree := { directories := [["config"]], files := [([".scaffold-meta"], "provider_name=mine\n")] }

def acmeSite : Site where
  world := ⟨fun _ ↦ false, fun name ↦ if name = "mine" then some ownTree else none⟩
  registry := fun name ↦ if name = acmeEntry.name then some "acme" else none

/-- Own work survives a forced removal of something else, a removal of everything which was fetched, and scaffolds: one
over it which may not overwrite, and one elsewhere which may. -/
theorem runCommands_keep_mine : (runCommands acmeTools acmeSite
    [.fetch acmeEntry.name noFaults (workingGit acmeEntry), .remove [acmeEntry.name] false true [] fun _ ↦ none,
      .remove [] true false ["acme", "mine"] fun _ ↦ none, .scaffold "mine" false false {},
      .scaffold "theirs" true false {}]).world.external "mine" = some ownTree := by
  refine (runCommands_keep acmeTools_lawful _ acmeSite).2.2 "mine" ownTree rfl rfl (by decide) ?_ ?_
  · intro names all listing removal hmem
    simp only [List.mem_cons, Command.remove.injEq, reduceCtorEq, List.not_mem_nil, false_or, or_false] at hmem
    obtain ⟨rfl, rfl, -⟩ | ⟨-, -, hforced, -⟩ := hmem
    · exact ⟨rfl, by decide⟩
    · cases hforced
  · intro _ copy hmem
    simp at hmem

/-- What was fetched can be run after another provider was removed and the fetch of a third has failed. -/
theorem fetched_runnable_acme : ensureFetched acmeTools (runCommands acmeTools
    (fetchNamed acmeTools "acme" noFaults (workingGit acmeEntry) acmeSite).2
    [.remove ["mine"] false true [] fun _ ↦ none, .fetch "other" noFaults (workingGit acmeEntry)]) "acme" =
      .ok (some acmeEntry) := by
  have hfetched : (fetchNamed acmeTools "acme" noFaults (workingGit acmeEntry) acmeSite).1 = .success := by decide
  obtain ⟨entry, ⟨text, -, hload⟩, tree, -, -, -, hrunnable⟩ := fetched_runnable acmeTools_lawful atMostOne_noFaults
    hfetched [.remove ["mine"] false true [] fun _ ↦ none, .fetch "other" noFaults (workingGit acmeEntry)]
    (by simp [Command.Names]) (by decide)
  obtain ⟨-, hentry⟩ := Option.ite_none_right_eq_some.mp hload
  cases hentry
  refine hrunnable.mpr ?_
  rintro ⟨path, hpath, hlast⟩
  cases hpath
  exact absurd hlast (by decide)

end Site

end IsvValidation.Registry
