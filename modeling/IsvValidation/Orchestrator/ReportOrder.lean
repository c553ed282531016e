import IsvValidation.Junit.Fidelity
import IsvValidation.Junit.Stub
import IsvValidation.Library.Arrange
import IsvValidation.Pytest.Bridge

/-!
# The order of the report

The test cases of a suite come from up to three files: a stub for the entries decided before the
session, the session's report, and a stub for the entries which the session deselected. Merging
sorts them by the first position of their name among the declared names. Pytest knows a duplicated
entry under another name, which is no declared name, and of several entries with one name all but
the first stand behind a later entry. So the order of the report is that of the configuration only
where these names keep it.
-/

namespace IsvValidation.Orchestrator

open Config Host Junit Library Pytest Resolution

/-- `f"{parent_name}::{subtest_desc}"`. -/
def subtestName (parent desc : XmlText) : XmlText :=
  ⟨parent.val ++ "::" ++ desc.val, by
    have hcolon : isXmlChar ':' = true := by decide
    simp [String.toList_append, List.all_append, parent.property, desc.property, hcolon]⟩

/-- What the session reports of a validation which it ran. -/
structure RanTest where
  id : XmlText
  classname : Option XmlText := none
  children : List Element := []
  subtests : List (XmlText × List Element) := []

/-- A test, followed by its subtests as they were emitted. -/
def RanTest.cases (test : RanTest) : List TestCase :=
  { name := some test.id, classname := test.classname, children := test.children } ::
    test.subtests.map fun subtest ↦
      { name := some (subtestName test.id subtest.1), children := subtest.2 }

/-- The test cases of one entry in one file, with the position at which the entry is declared. -/
structure Block where
  index : ℕ
  file : ℕ
  cases : List TestCase

/-- A test case with the position of the entry for which it was written. -/
structure Placed where
  index : ℕ
  case : TestCase
  deriving DecidableEq

def Block.placed (block : Block) : List Placed := block.cases.map (Placed.mk block.index)

/-- The entries of one suite as they were decided, in declared order, and what became in the session
of those which were ready, under their pytest names: a ready entry which did not run was deselected.
`report` has the attributes of the suite in pytest's report. -/
structure SuiteRun (entries : List ValidationEntry) where
  name : XmlText
  decided : List (ℕ × ResolvedEntry)
  declared : ∀ item ∈ decided, entries[item.1]? = some item.2.entry
  ordered : (decided.map Prod.fst).Pairwise (· < ·)
  ran : ℕ × ResolvedEntry → Option RanTest
  listed : ∀ item test, ran item = some test → test.id.val = item.2.entry.name
  report : Suite := {}

namespace SuiteRun

variable {entries : List ValidationEntry} (run : SuiteRun entries)

/-! ## The files of a suite -/

def preResolved : List (ℕ × ResolvedEntry) := run.decided.filter fun item ↦ !item.2.isReady

def ready : List (ℕ × ResolvedEntry) := run.decided.filter fun item ↦ item.2.isReady

/-- The ready entries under their pytest names. -/
def named : List (ℕ × ResolvedEntry) :=
  (run.ready.map Prod.fst).zip (entriesWithPytestNames (run.ready.map Prod.snd))

/-- The records of the entries which the session deselected. -/
def missing : List (ℕ × ResolvedEntry) :=
  (run.named.filter fun item ↦ (run.ran item).isNone).map fun item ↦
    (item.1, Pytest.deselected item.2)

def sessionBlocks : List Block :=
  run.named.filterMap fun item ↦ (run.ran item).map fun test ↦
    { index := item.1, file := 1, cases := test.cases }

/-- The test case of one entry in a stub file. -/
def stubBlock? (file : ℕ) (item : ℕ × ResolvedEntry) : Option Block :=
  (stubCase? item.2).map fun case ↦
    { index := item.1, file, cases := [case] }

/-- The test cases of a stub file, of which nothing is left where it does not parse. -/
def stubBlocks (file : ℕ) (items : List (ℕ × ResolvedEntry)) : List Block :=
  (items.mapM (stubBlock? file)).getD []

/-- The entries with test cases, in the order of the files. -/
def blocks : List Block :=
  stubBlocks 0 run.preResolved ++ run.sessionBlocks ++ stubBlocks 2 run.missing

/-- The test cases in the order of the files. -/
def filed : List Placed := run.blocks.flatMap Block.placed

/-- The suite of pytest's report. -/
def sessionSuite : Suite :=
  { run.report with name := some run.name, cases := run.sessionBlocks.flatMap Block.cases }

/-- The files as they are handed to the merge. -/
def files : List JUnitDoc :=
  [writeTerminalJunitXml (run.preResolved.map Prod.snd) run.name.val, .suites [run.sessionSuite],
    writeTerminalJunitXml (run.missing.map Prod.snd) run.name.val]

/-! ## The order of the configuration -/

/-- The position by which a test case is sorted. -/
def position (entries : List ValidationEntry) (case : TestCase) : ℕ :=
  orderKey (entries.map ValidationEntry.name) case

/-- The test cases as the merge sorts them. -/
def arranged : List Placed := sortByKey (fun placed ↦ position entries placed.case) run.filed

/-- The report shows the suite's test cases in the order in which the entries are declared, each
followed by its subtests. -/
structure InConfigOrder (redact : XmlText → XmlText) (report : List Suite) : Prop where
  reported : ∀ suite ∈ report, suite.key = run.name.val →
    suite.cases = run.arranged.map fun placed ↦ redactCase redact placed.case
  declared : run.arranged = (run.decided.map Prod.fst).flatMap fun index ↦
    run.filed.filter (·.index = index)
  subtests : ∀ item ∈ run.named, ∀ test, run.ran item = some test →
    run.filed.filter (·.index = item.1) = (test.cases).map (Placed.mk item.1)

/-- The names of two entries do not stand the other way round among the declared names; where they
have one position, the entry declared first is not in a later file; and the subtests of an entry do
not stand before it. -/
structure NamesKeepOrder : Prop where
  apart : ∀ first ∈ run.blocks, ∀ second ∈ run.blocks, first.index < second.index →
    ∀ case ∈ first.cases, ∀ other ∈ second.cases,
      position entries case ≤ position entries other ∧
        (position entries case = position entries other → first.file ≤ second.file)
  subtests : ∀ block ∈ run.blocks, block.cases.Pairwise fun case other ↦
    position entries case ≤ position entries other

instance : Decidable run.NamesKeepOrder :=
  decidable_of_iff
    ((∀ first ∈ run.blocks, ∀ second ∈ run.blocks, first.index < second.index →
      ∀ case ∈ first.cases, ∀ other ∈ second.cases,
        position entries case ≤ position entries other ∧
          (position entries case = position entries other → first.file ≤ second.file)) ∧
      ∀ block ∈ run.blocks, block.cases.Pairwise fun case other ↦
        position entries case ≤ position entries other)
    ⟨fun h ↦ ⟨h.1, h.2⟩, fun h ↦ ⟨h.apart, h.subtests⟩⟩

/-! ## What the files hold -/

theorem forall₂_stubBlocks (file : ℕ) (items : List (ℕ × ResolvedEntry)) :
    stubBlocks file items = [] ∨
      List.Forall₂ (fun item block ↦ stubBlock? file item = some block) items
        (stubBlocks file items) := by
  unfold stubBlocks
  cases hblocks : items.mapM (stubBlock? file) with
  | none => exact Or.inl rfl
  | some blocks => exact Or.inr (mapM_eq_some_iff.mp hblocks)

theorem mapM_stubBlock? (file : ℕ) (items : List (ℕ × ResolvedEntry)) :
    (items.map Prod.snd).mapM stubCase? =
      (items.mapM (stubBlock? file)).map fun blocks ↦ blocks.flatMap Block.cases := by
  induction items with
  | nil => rfl
  | cons item rest ih =>
    rw [List.map_cons, List.mapM_cons, List.mapM_cons, ih]
    unfold stubBlock?
    cases stubCase? item.2 with
    | none => rfl
    | some case =>
      cases hrest : rest.mapM (stubBlock? file) with
      | none =>
        unfold stubBlock? at hrest
        rw [hrest]
        rfl
      | some blocks =>
        unfold stubBlock? at hrest
        rw [hrest]
        rfl

/-- A stub file holds the test cases of its entries, or nothing. -/
theorem casesUnder_stub (file : ℕ) (items : List (ℕ × ResolvedEntry)) (name : XmlText) :
    (writeTerminalJunitXml (items.map Prod.snd) name.val).casesUnder name.val =
      (stubBlocks file items).flatMap Block.cases := by
  unfold writeTerminalJunitXml stubBlocks
  rw [xmlText?_val, mapM_stubBlock? file]
  cases items.mapM (stubBlock? file) with
  | none => rfl
  | some blocks => simp [JUnitDoc.casesUnder, JUnitDoc.contributed, Suite.key]

theorem map_case_placed (blocks : List Block) :
    (blocks.flatMap Block.placed).map Placed.case = blocks.flatMap Block.cases := by
  simp [List.map_flatMap, Block.placed, List.map_map, Function.comp_def]

/-- The files hold under the name of the suite what was filed for its entries. -/
theorem casesUnder_files :
    (run.files.flatMap fun doc ↦ doc.casesUnder run.name.val) = run.filed.map Placed.case := by
  have hsession : (JUnitDoc.suites [run.sessionSuite]).casesUnder run.name.val =
      run.sessionBlocks.flatMap Block.cases := by
    simp [JUnitDoc.casesUnder, JUnitDoc.contributed, Suite.key, sessionSuite]
  unfold files filed blocks
  rw [map_case_placed, List.flatMap_append, List.flatMap_append, List.flatMap_cons,
    List.flatMap_cons, List.flatMap_singleton, casesUnder_stub 0, casesUnder_stub 2, hsession,
    List.append_assoc]

/-! ## The blocks -/

theorem index_stubBlocks (file : ℕ) (items : List (ℕ × ResolvedEntry)) :
    ((stubBlocks file items).map Block.index).Sublist (items.map Prod.fst) := by
  rcases forall₂_stubBlocks file items with hnone | hstubs
  · rw [hnone]
    exact List.nil_sublist _
  · have hindex : ∀ items blocks,
        List.Forall₂ (fun item block ↦ stubBlock? file item = some block) items blocks →
          blocks.map Block.index = items.map Prod.fst := by
      intro items blocks h
      induction h with
      | nil => rfl
      | cons hblock _ ih =>
        obtain ⟨case, _, rfl⟩ := Option.map_eq_some_iff.mp hblock
        rw [List.map_cons, List.map_cons, ih]
    rw [hindex _ _ hstubs]

theorem file_stubBlocks {file : ℕ} {items : List (ℕ × ResolvedEntry)} {block : Block}
    (h : block ∈ stubBlocks file items) : block.file = file := by
  rcases forall₂_stubBlocks file items with hnone | hstubs
  · rw [hnone] at h
    cases h
  · obtain ⟨i, hi, rfl⟩ := List.getElem_of_mem h
    have hblock := hstubs.get (hstubs.length_eq ▸ hi) hi
    obtain ⟨case, _, hcase⟩ := Option.map_eq_some_iff.mp hblock
    exact congrArg Block.file hcase.symm

theorem index_sessionBlocks : (run.sessionBlocks.map Block.index).Sublist (run.named.map Prod.fst) := by
  unfold sessionBlocks
  induction run.named with
  | nil => exact List.Sublist.refl _
  | cons item rest ih =>
    cases hran : run.ran item with
    | none =>
      rw [List.filterMap_cons_none (by rw [hran]; rfl)]
      exact ih.cons _
    | some test =>
      rw [List.filterMap_cons_some (by rw [hran]; rfl), List.map_cons, List.map_cons]
      exact ih.cons_cons _

theorem mem_sessionBlocks {block : Block} : block ∈ run.sessionBlocks ↔
    ∃ item ∈ run.named, ∃ test, run.ran item = some test ∧
      block = { index := item.1, file := 1, cases := test.cases } := by
  unfold sessionBlocks
  simp only [List.mem_filterMap, Option.map_eq_some_iff]
  simp only [@eq_comm Block _ block]

theorem index_named : (run.named.map Prod.fst).Sublist (run.ready.map Prod.fst) :=
  map_fst_zip_sublist ..

theorem index_missing : (run.missing.map Prod.fst).Sublist (run.named.map Prod.fst) := by
  unfold missing
  rw [List.map_map]
  exact List.filter_sublist.map Prod.fst

theorem preResolved_ne_ready {i j : ℕ} (hi : i ∈ run.preResolved.map Prod.fst)
    (hj : j ∈ run.ready.map Prod.fst) : i ≠ j := by
  obtain ⟨first, hfirst, rfl⟩ := List.mem_map.mp hi
  obtain ⟨second, hsecond, rfl⟩ := List.mem_map.mp hj
  obtain ⟨hfirst, hterminal⟩ := List.mem_filter.mp hfirst
  obtain ⟨hsecond, hready⟩ := List.mem_filter.mp hsecond
  intro heq
  have hnodup : (run.decided.map Prod.fst).Nodup := run.ordered.imp Nat.ne_of_lt
  have hsame := List.inj_on_of_nodup_map hnodup hfirst hsecond heq
  rw [hsame, hready] at hterminal
  cases hterminal

theorem nodup_named : (run.named.map Prod.fst).Nodup := by
  have hdecided : (run.decided.map Prod.fst).Nodup := run.ordered.imp Nat.ne_of_lt
  exact hdecided.sublist (run.index_named.trans (List.filter_sublist.map Prod.fst))

theorem session_ne_missing {block : Block} (hblock : block ∈ run.sessionBlocks) {j : ℕ}
    (hj : j ∈ run.missing.map Prod.fst) : block.index ≠ j := by
  obtain ⟨item, hitem, test, hran, rfl⟩ := run.mem_sessionBlocks.mp hblock
  obtain ⟨other, hother, rfl⟩ := List.mem_map.mp hj
  obtain ⟨found, hfound, rfl⟩ := List.mem_map.mp hother
  obtain ⟨hfound, hnone⟩ := List.mem_filter.mp hfound
  intro heq
  have hsame : item = found := List.inj_on_of_nodup_map run.nodup_named hitem hfound heq
  rw [← hsame, hran] at hnone
  cases hnone

/-- The blocks stand in the order of the files, and in one file in declared order; no entry is in
two of them. -/
theorem pairwise_blocks : run.blocks.Pairwise fun first second ↦ first.index ≠ second.index ∧
    (first.file < second.file ∨ first.file = second.file ∧ first.index < second.index) := by
  have hready : (run.ready.map Prod.fst).Pairwise (· < ·) :=
    run.ordered.sublist (List.filter_sublist.map Prod.fst)
  have hnamed : (run.named.map Prod.fst).Pairwise (· < ·) := hready.sublist run.index_named
  have hone : ∀ file, ∀ blocks : List Block, (∀ block ∈ blocks, block.file = file) →
      (blocks.map Block.index).Pairwise (· < ·) → blocks.Pairwise fun first second ↦
        first.index ≠ second.index ∧
          (first.file < second.file ∨ first.file = second.file ∧ first.index < second.index) := by
    intro file blocks hfile hindex
    rw [List.pairwise_map] at hindex
    apply hindex.imp_of_mem
    intro first second hfirst hsecond hlt
    exact ⟨hlt.ne, Or.inr ⟨(hfile first hfirst).trans (hfile second hsecond).symm, hlt⟩⟩
  have hsessionFile : ∀ block ∈ run.sessionBlocks, block.file = 1 := by
    intro block hblock
    obtain ⟨item, _, test, _, rfl⟩ := run.mem_sessionBlocks.mp hblock
    rfl
  have hterminal : (run.preResolved.map Prod.fst).Pairwise (· < ·) :=
    run.ordered.sublist (List.filter_sublist.map Prod.fst)
  unfold blocks
  rw [List.append_assoc, List.pairwise_append, List.pairwise_append]
  refine ⟨?_, ⟨?_, ?_, ?_⟩, ?_⟩
  · apply hone 0 _ fun block hblock ↦ file_stubBlocks hblock
    exact hterminal.sublist (index_stubBlocks 0 run.preResolved)
  · apply hone 1 _ hsessionFile
    exact hnamed.sublist run.index_sessionBlocks
  · apply hone 2 _ fun block hblock ↦ file_stubBlocks hblock
    exact hnamed.sublist ((index_stubBlocks 2 run.missing).trans run.index_missing)
  · intro first hfirst second hsecond
    have hindex := (index_stubBlocks 2 run.missing).subset (List.mem_map_of_mem hsecond)
    refine ⟨run.session_ne_missing hfirst hindex, Or.inl ?_⟩
    rw [hsessionFile first hfirst, file_stubBlocks hsecond]
    exact Nat.one_lt_two
  · intro first hfirst second hsecond
    have hindex := (index_stubBlocks 0 run.preResolved).subset (List.mem_map_of_mem hfirst)
    rw [file_stubBlocks hfirst]
    rcases List.mem_append.mp hsecond with hsession | hmissing
    · have hnamed := run.index_sessionBlocks.subset (List.mem_map_of_mem hsession)
      refine ⟨run.preResolved_ne_ready hindex (run.index_named.subset hnamed), Or.inl ?_⟩
      rw [hsessionFile second hsession]
      exact zero_lt_one
    · have hnamed := run.index_missing.subset
        ((index_stubBlocks 2 run.missing).subset (List.mem_map_of_mem hmissing))
      refine ⟨run.preResolved_ne_ready hindex (run.index_named.subset hnamed), Or.inl ?_⟩
      rw [file_stubBlocks hmissing]
      exact Nat.two_pos

theorem mem_filed {placed : Placed} : placed ∈ run.filed ↔
    ∃ block ∈ run.blocks, ∃ case ∈ block.cases, placed = ⟨block.index, case⟩ := by
  unfold filed Block.placed
  simp only [List.mem_flatMap, List.mem_map, @eq_comm Placed _ placed]

theorem index_mem_decided {block : Block} (h : block ∈ run.blocks) :
    block.index ∈ run.decided.map Prod.fst := by
  have hready : ∀ i ∈ run.named.map Prod.fst, i ∈ run.decided.map Prod.fst := by
    intro i hi
    exact (List.filter_sublist.map Prod.fst).subset (run.index_named.subset hi)
  rcases List.mem_append.mp h with hearly | hmissing
  · rcases List.mem_append.mp hearly with hstub | hsession
    · exact (List.filter_sublist.map Prod.fst).subset
        ((index_stubBlocks 0 run.preResolved).subset (List.mem_map_of_mem hstub))
    · exact hready _ (run.index_sessionBlocks.subset (List.mem_map_of_mem hsession))
  · exact hready _ (run.index_missing.subset
      ((index_stubBlocks 2 run.missing).subset (List.mem_map_of_mem hmissing)))

/-- A relation between the filed test cases is one between the blocks and one inside each block. -/
theorem pairwise_filed {R : Placed → Placed → Prop} : run.filed.Pairwise R ↔
    (∀ block ∈ run.blocks, block.cases.Pairwise fun case other ↦
      R ⟨block.index, case⟩ ⟨block.index, other⟩) ∧
    run.blocks.Pairwise fun first second ↦ ∀ case ∈ first.cases, ∀ other ∈ second.cases,
      R ⟨first.index, case⟩ ⟨second.index, other⟩ := by
  unfold filed Block.placed
  simp only [List.pairwise_flatMap, List.pairwise_map, List.forall_mem_map]

/-! ## When the order is kept -/

/-- Sorted by their names, the test cases are in declared order exactly if the names keep it. -/
theorem arranged_eq_iff :
    (run.arranged = (run.decided.map Prod.fst).flatMap fun index ↦
      run.filed.filter (·.index = index)) ↔ run.NamesKeepOrder := by
  have hindex : ∀ placed ∈ run.filed, placed.index ∈ run.decided.map Prod.fst := by
    intro placed hplaced
    obtain ⟨block, hblock, case, _, rfl⟩ := run.mem_filed.mp hplaced
    exact run.index_mem_decided hblock
  have hblocks := run.pairwise_blocks
  rw [flatMap_filter_eq_sortByKey run.ordered hindex]
  unfold arranged
  rw [sortByKey_eq_sortByKey_iff, run.pairwise_filed, run.pairwise_filed]
  constructor
  · rintro ⟨hapart, ⟨hsubtests, _⟩, _, hfiles⟩
    constructor
    · intro first hfirst second hsecond hlt case hcase other hother
      have hle := hapart ⟨first.index, case⟩ (run.mem_filed.mpr ⟨first, hfirst, case, hcase, rfl⟩)
        ⟨second.index, other⟩ (run.mem_filed.mpr ⟨second, hsecond, other, hother, rfl⟩) hlt
      refine ⟨hle, ?_⟩
      -- Of two blocks one stands first in the files, and then their positions decide.
      have hforward : run.blocks.Pairwise fun first second ↦ first.index < second.index →
          ∀ case ∈ first.cases, ∀ other ∈ second.cases,
            position entries case = position entries other → first.file ≤ second.file := by
        apply hblocks.imp
        intro a b hab _ _ _ _ _ _
        omega
      have hflip : run.blocks.Pairwise fun second first ↦ first.index < second.index →
          ∀ case ∈ first.cases, ∀ other ∈ second.cases,
            position entries case = position entries other → first.file ≤ second.file := by
        apply hfiles.imp
        intro b a hba hindex case hcase other hother heq
        have hback := hba other hother case hcase heq.symm
        change b.index ≤ a.index at hback
        omega
      have hself : ∀ block ∈ run.blocks, block.index < block.index →
          ∀ case ∈ block.cases, ∀ other ∈ block.cases,
            position entries case = position entries other → block.file ≤ block.file :=
        fun block _ _ _ _ _ _ _ ↦ le_rfl
      exact hforward.forall_of_forall_of_flip hself hflip hfirst hsecond hlt case hcase other hother
    · intro block hblock
      apply (hsubtests block hblock).imp
      intro case other h
      exact h rfl
  · intro hkept
    refine ⟨?_, ⟨?_, ?_⟩, ?_, ?_⟩
    · intro first hfirst second hsecond hlt
      obtain ⟨block, hblock, case, hcase, rfl⟩ := run.mem_filed.mp hfirst
      obtain ⟨next, hnext, other, hother, rfl⟩ := run.mem_filed.mp hsecond
      exact (hkept.apart block hblock next hnext hlt case hcase other hother).1
    · intro block hblock
      apply (hkept.subtests block hblock).imp
      intro case other h _
      exact h
    · apply hblocks.imp
      intro first second hne case _ other _ heq
      exact absurd heq hne.1
    · intro block _
      apply List.pairwise_of_forall
      intro case other _
      exact le_rfl
    · apply hblocks.imp_of_mem
      intro first second hfirst hsecond hbetween case hcase other hother heq
      by_contra hnot
      have hlt : second.index < first.index := Nat.lt_of_not_le hnot
      have hback := (hkept.apart second hsecond first hfirst hlt other hother case hcase).2 heq.symm
      omega

/-- The test cases of an entry which ran are its own, followed by those of its subtests. -/
theorem filter_filed {item : ℕ × ResolvedEntry} (hitem : item ∈ run.named) {test : RanTest}
    (hran : run.ran item = some test) :
    run.filed.filter (·.index = item.1) = (test.cases).map (Placed.mk item.1) := by
  have hblock : { index := item.1, file := 1, cases := test.cases } ∈ run.blocks :=
    List.mem_append_left _ (List.mem_append_right _
      (run.mem_sessionBlocks.mpr ⟨item, hitem, test, hran, rfl⟩))
  obtain ⟨before, after, hsplit⟩ := List.append_of_mem hblock
  have hblocks := run.pairwise_blocks
  rw [hsplit, List.pairwise_append, List.pairwise_cons] at hblocks
  have hnone : ∀ blocks : List Block, (∀ block ∈ blocks, block.index ≠ item.1) →
      (blocks.flatMap Block.placed).filter (·.index = item.1) = [] := by
    intro blocks hother
    rw [List.filter_eq_nil_iff]
    intro placed hplaced
    obtain ⟨block, hmem, hcase⟩ := List.mem_flatMap.mp hplaced
    obtain ⟨case, _, rfl⟩ := List.mem_map.mp hcase
    simpa using hother block hmem
  have hown : (Block.placed ⟨item.1, 1, test.cases⟩).filter (·.index = item.1) =
      (test.cases).map (Placed.mk item.1) := by
    apply List.filter_eq_self.mpr
    intro placed hplaced
    obtain ⟨case, _, rfl⟩ := List.mem_map.mp hplaced
    exact decide_eq_true rfl
  unfold filed
  rw [hsplit, List.flatMap_append, List.flatMap_cons, List.filter_append, List.filter_append, hown,
    hnone before, hnone after, List.nil_append, List.append_nil]
  · exact fun block hmem ↦ (hblocks.2.1.1 block hmem).1.symm
  · exact fun block hmem ↦ (hblocks.2.2 block hmem _ (List.mem_cons_self ..)).1

/-- A suite of the report is in the order of the configuration exactly where the names under which
its entries are reported keep that order. -/
theorem report_order_iff {redact : XmlText → XmlText} {docs : List JUnitDoc} {report : List Suite}
    (hmerge : mergeJunitXmls redact docs (entries.map ValidationEntry.name) = .ok report)
    (hfiles : (docs.flatMap fun doc ↦ doc.casesUnder run.name.val) =
      run.files.flatMap fun doc ↦ doc.casesUnder run.name.val) :
    run.InConfigOrder redact report ↔ run.NamesKeepOrder := by
  rw [← run.arranged_eq_iff]
  constructor
  · exact InConfigOrder.declared
  · intro hdeclared
    constructor
    · intro suite hsuite hkey
      rw [cases_mergeJunitXmls hmerge hsuite, hkey, hfiles, casesUnder_files]
      unfold arranged sortByKey
      rw [← List.map_insertionSort (r := fun a b : Placed ↦
        position entries a.case ≤ position entries b.case), List.map_map]
      · rfl
      · intro a _ b _
        rfl
    · exact hdeclared
    · intro item hitem test hran
      exact run.filter_filed hitem hran

/-! ## Suites in which every test ran -/

/-- All entries are ready, and the tests of all of them passed without subtests. -/
def allPassed (entries : List ValidationEntry) : SuiteRun entries where
  name := ⟨"vm/test", by decide⟩
  decided := entries.zipIdx.map fun item ↦
    (item.2, { entry := item.1, renderedParams := some [] })
  declared := by
    intro item hitem
    obtain ⟨entry, hentry, rfl⟩ := List.mem_map.mp hitem
    exact List.mem_zipIdx_iff_getElem?.mp hentry
  ordered := by
    rw [List.map_map]
    change (entries.zipIdx.map Prod.snd).Pairwise (· < ·)
    rw [List.zipIdx_map_snd]
    exact List.pairwise_lt_range'
  ran item := (xmlText? item.2.entry.name).map fun id ↦ { id }
  listed := by
    intro item test hran
    obtain ⟨id, hid, rfl⟩ := Option.map_eq_some_iff.mp hran
    exact xmlText?_eq_some hid

/-- A check in a category, without parameters. -/
def plainEntry (name category : String) : ValidationEntry := ⟨name, category, .dict [], none, none, [], []⟩

theorem report_order_iff_distinct :
    ∃ report, mergeJunitXmls id
        (allPassed [plainEntry "PingCheck" "network", plainEntry "DiskCheck" "network"]).files
        ["PingCheck", "DiskCheck"] = .ok report ∧
      (allPassed [plainEntry "PingCheck" "network", plainEntry "DiskCheck" "network"]).InConfigOrder
        id report := by
  obtain ⟨report, hreport⟩ := exists_of_isOk (show (mergeJunitXmls id
    (allPassed [plainEntry "PingCheck" "network", plainEntry "DiskCheck" "network"]).files
    ["PingCheck", "DiskCheck"]).isOk = true by decide +kernel)
  refine ⟨report, hreport, ?_⟩
  apply (report_order_iff (allPassed _) hreport rfl).mpr
  decide +kernel

/-- The entries of a duplicated name come after an entry which is declared behind them. -/
theorem duplicates_reported_last :
    ∃ report, mergeJunitXmls id
        (allPassed [plainEntry "PingCheck" "network", plainEntry "PingCheck" "gpu",
          plainEntry "DiskCheck" "network"]).files
        ["PingCheck", "PingCheck", "DiskCheck"] = .ok report ∧
      ¬(allPassed [plainEntry "PingCheck" "network", plainEntry "PingCheck" "gpu",
        plainEntry "DiskCheck" "network"]).InConfigOrder id report := by
  obtain ⟨report, hreport⟩ := exists_of_isOk (show (mergeJunitXmls id
    (allPassed [plainEntry "PingCheck" "network", plainEntry "PingCheck" "gpu",
      plainEntry "DiskCheck" "network"]).files
    ["PingCheck", "PingCheck", "DiskCheck"]).isOk = true by decide +kernel)
  refine ⟨report, hreport, fun h ↦ ?_⟩
  exact absurd h.declared (by decide +kernel)

end SuiteRun

end IsvValidation.Orchestrator
