import IsvValidation.Library.Ledger
import IsvValidation.Orchestrator.WholeRun

/-!
# Every validation is accounted for

The loop settles entries piecemeal: by phase, before the session, after it, by deselection and in
the pass over what is left. The invariant of the loop is a ledger: each phase result is a page which
lists the positions of the entries it reports, no position is listed twice, and the listed
positions are those which have a record. A finished run has a record for every position.
-/

namespace IsvValidation.Orchestrator

open Config Host Junit Library Pytest Resolution

variable {env : RunEnv} {s s' : LoopState} {phase : String}

/-- The record of an entry: terminal, and the entry apart from its name. -/
structure RecordOf (entry : ValidationEntry) (record : ResolvedEntry) : Prop where
  same : SameEntry record.entry entry
  terminal : record.IsTerminal

/-- Nothing is lost and nothing doubled: one record for each entry, in order, and each entry in the
details of exactly one phase result. -/
structure Complete (entries : List ValidationEntry) (result : OrchestratorResult) : Prop where
  records : List.Forall₂ RecordOf entries result.validations
  phases : ∃ pages : List (List ℕ),
    List.Forall₂ (fun page phase ↦
      phase.validations.map some = page.map fun i ↦ result.validations[i]?.map toResultDict)
      pages result.phases ∧
    pages.flatten.Perm (List.range entries.length)

/-! ## Records of one phase -/

/-- Weaving relates every decided record to what takes its place. -/
theorem weave_forall₂ {R : ResolvedEntry → ResolvedEntry → Prop}
    {decided executed : List ResolvedEntry} (hkept : ∀ record ∈ decided, record.isReady = false →
      R record record)
    (hexecuted : List.Forall₂ R (decided.filter ResolvedEntry.isReady) executed) :
    ∃ records, weave decided executed = .ok records ∧ List.Forall₂ R decided records := by
  induction decided generalizing executed with
  | nil => exact ⟨[], by simp [weave], .nil⟩
  | cons record rest ih =>
    have hrest := fun other hmem ↦ hkept other (List.mem_cons_of_mem record hmem)
    cases hready : record.isReady with
    | true =>
      rw [List.filter_cons, if_pos hready, List.forall₂_cons_left_iff] at hexecuted
      obtain ⟨first, others, hfirst, hothers, rfl⟩ := hexecuted
      obtain ⟨records, hweave, hrecords⟩ := ih hrest hothers
      exact ⟨first :: records, by simp [weave, hready, hweave, Except.map], .cons hfirst hrecords⟩
    | false =>
      rw [List.filter_cons, if_neg (by simp [hready])] at hexecuted
      obtain ⟨records, hweave, hrecords⟩ := ih hrest hexecuted
      exact ⟨record :: records, by simp [weave, hready, hweave, Except.map],
        .cons (hkept record (List.mem_cons_self ..) hready) hrecords⟩

/-- Executed records are the ready ones, renamed and terminal. -/
theorem executed_forall₂ {ready : List ResolvedEntry} (captured : List ValidationResult)
    (hready : ∀ record ∈ ready, record.isReady = true) :
    List.Forall₂ (fun record after ↦ RecordOf record.entry after) ready
      (applyPytestResults (entriesWithPytestNames ready) captured) := by
  have hnames := entriesWithPytestNames_forall₂ hready
  have hresults := applyPytestResults_forall₂ (entriesWithPytestNames ready) captured
  rw [List.forall₂_iff_get] at hnames hresults ⊢
  refine ⟨hnames.1.trans hresults.1, fun i h₁ h₂ ↦ ?_⟩
  have hmiddle : i < (entriesWithPytestNames ready).length := hnames.1 ▸ h₁
  obtain ⟨key, hkey⟩ := hnames.2 i h₁ hmiddle
  obtain ⟨hentry, hterminal⟩ := hresults.2 i hmiddle h₂
  refine ⟨?_, hterminal⟩
  rw [hentry, hkey]
  exact ⟨rfl, rfl, rfl, rfl⟩

/-- A record decided before the session is the record of its entry. -/
theorem keeps_of_decides {entries : List ValidationEntry} {decided : List ResolvedEntry}
    (h : List.Forall₂ (fun entry record ↦ record.Decides entry) entries decided) :
    ∀ record ∈ decided, record.isReady = false → RecordOf record.entry record := by
  intro record hmem hnot
  obtain ⟨i, hi, rfl⟩ := List.getElem_of_mem hmem
  have hdecides := h.get (h.length_eq ▸ hi) hi
  exact ⟨.refl _, hdecides.decided hnot⟩

/-- Where the decided records come from their entries, the woven ones do. -/
theorem weave_records {entries : List ValidationEntry} {decided executed records : List ResolvedEntry}
    (hdecided : List.Forall₂ (fun entry record ↦ record.Decides entry) entries decided)
    (hexecuted : List.Forall₂ (fun record after ↦ RecordOf record.entry after)
      (decided.filter ResolvedEntry.isReady) executed)
    (hwoven : weave decided executed = .ok records) : List.Forall₂ RecordOf entries records := by
  obtain ⟨found, hfound, hrecords⟩ := weave_forall₂ (keeps_of_decides hdecided) hexecuted
  rw [hwoven] at hfound
  cases hfound
  rw [List.forall₂_iff_get] at hdecided hrecords ⊢
  refine ⟨hdecided.1.trans hrecords.1, fun i h₁ h₂ ↦ ?_⟩
  have hmiddle : i < decided.length := hdecided.1 ▸ h₁
  have hrecord := hrecords.2 i hmiddle h₂
  rw [(hdecided.2 i h₁ hmiddle).entry] at hrecord
  exact hrecord

theorem decideEntries_forall₂ {entries : List ValidationEntry} {decided : List ResolvedEntry}
    (h : decideEntries env s entries = .ok decided) :
    List.Forall₂ (fun entry record ↦ record.Decides entry) entries decided := by
  unfold decideEntries at h
  cases hexclude : env.plan.excludeTests.toSet with
  | error raised => rw [hexclude] at h; cases h
  | ok excludeTests =>
    rw [hexclude] at h
    exact resolveEntries_decides h

/-- The records of a phase belong to its entries, in order. -/
theorem PhaseRan.records {exec : ExecState} {log : PhaseLog}
    (h : PhaseRan env s phase exec log s') :
    List.Forall₂ RecordOf ((phaseEntries env s phase).map Prod.snd) log.records := by
  refine weave_records (decideEntries_forall₂ h.decided) ?_ h.woven
  rcases h.session with ⟨_, hexecuted, hready⟩ | ⟨_, _, captured, _, _, _, _, _, hexecuted⟩
  · rw [hexecuted, show log.decided.filter ResolvedEntry.isReady = [] from hready]
    exact .nil
  · rw [hexecuted]
    exact executed_forall₂ captured fun record hmem ↦ (List.mem_filter.mp hmem).2

/-! ## The ledger -/

/-- The page of a phase result: the records at these positions are its validations. -/
def Listed (resolved : OrderedMap ℕ ResolvedEntry) (page : List ℕ) (result : PhaseResult) : Prop :=
  result.validations.map some = page.map fun i ↦ (resolved.get? i).map toResultDict

/-- The invariant of the loop. -/
structure Accounted (entries : List ValidationEntry) (resolved : OrderedMap ℕ ResolvedEntry)
    (results : List PhaseResult) : Prop where
  records : ∀ i record, resolved.get? i = some record →
    ∃ entry, entries[i]? = some entry ∧ RecordOf entry record
  pages : ∃ pages, Books pages (· ∈ resolved.keys) ∧ List.Forall₂ (Listed resolved) pages results

/-- Every record is related to the entry at its position. -/
def RecordsMatch (R : ValidationEntry → ResolvedEntry → Prop) (entries : List ValidationEntry)
    (resolved : OrderedMap ℕ ResolvedEntry) : Prop :=
  ∀ i record, resolved.get? i = some record → ∃ entry, entries[i]? = some entry ∧ R entry record

theorem mem_openEntries {i : ℕ} {entry : ValidationEntry} :
    (i, entry) ∈ openEntries env s ↔
      env.plan.entries[i]? = some entry ∧ i ∉ s.resolved.keys := by
  unfold openEntries
  simp only [List.mem_filter, List.mem_map, Prod.mk.injEq, Option.isNone_iff_eq_none,
    OrderedMap.get?_eq_none_iff]
  apply and_congr_left'
  constructor
  · rintro ⟨item, hitem, rfl, rfl⟩
    exact List.mem_zipIdx_iff_getElem?.mp hitem
  · intro h
    exact ⟨(entry, i), List.mem_zipIdx_iff_getElem?.mpr h, rfl, rfl⟩

theorem nodup_openEntries (env : RunEnv) (s : LoopState) :
    ((openEntries env s).map Prod.fst).Nodup := by
  unfold openEntries
  refine (List.filter_sublist.map Prod.fst).nodup ?_
  rw [List.map_map]
  change (env.plan.entries.zipIdx.map Prod.snd).Nodup
  rw [List.zipIdx_map_snd]
  exact List.nodup_range'

theorem phaseEntries_sublist (env : RunEnv) (s : LoopState) (phase : String) :
    List.Sublist (phaseEntries env s phase) (openEntries env s) := List.filter_sublist

section Settle

variable {pairs : List (ℕ × ValidationEntry)} {records : List ResolvedEntry}

/-- A record is found at the position for which it was settled. -/
theorem get?_settle (hpairs : List.Sublist pairs (openEntries env s)) {i : ℕ}
    {record : ResolvedEntry} (h : (i, record) ∈ (pairs.map Prod.fst).zip records) :
    (settle s.resolved ((pairs.map Prod.fst).zip records)).get? i = some record := by
  have hnodup := (hpairs.map Prod.fst).nodup (nodup_openEntries env s)
  exact OrderedMap.get?_foldl_insert_of_mem ((map_fst_zip_sublist ..).nodup hnodup) h

theorem get?_settle_of_mem (hpairs : List.Sublist pairs (openEntries env s)) {i : ℕ}
    (h : i ∈ s.resolved.keys) :
    (settle s.resolved ((pairs.map Prod.fst).zip records)).get? i = s.resolved.get? i := by
  apply OrderedMap.get?_foldl_insert_of_notMem
  intro hmem
  obtain ⟨pair, hpair, rfl⟩ := List.mem_map.mp ((map_fst_zip_sublist ..).subset hmem)
  exact (mem_openEntries.mp (hpairs.subset hpair)).2 h

/-- The positions with a record after settling some open entries. -/
theorem mem_keys_settle (hlength : pairs.length = records.length) {i : ℕ} :
    i ∈ (settle s.resolved ((pairs.map Prod.fst).zip records)).keys ↔
      i ∈ s.resolved.keys ∨ i ∈ pairs.map Prod.fst := by
  have hfst : (((pairs.map Prod.fst).zip records).map Prod.fst) = pairs.map Prod.fst :=
    List.map_fst_zip (by simp [hlength])
  rw [settle, OrderedMap.mem_keys_foldl_insert, hfst]

/-- Records which are related to the entries at their positions stay so when further ones are
settled. -/
theorem RecordsMatch.settle {R : ValidationEntry → ResolvedEntry → Prop}
    (h : RecordsMatch R env.plan.entries s.resolved)
    (hpairs : List.Sublist pairs (openEntries env s))
    (hrecords : List.Forall₂ R (pairs.map Prod.snd) records) :
    RecordsMatch R env.plan.entries
      (Orchestrator.settle s.resolved ((pairs.map Prod.fst).zip records)) := by
  have hlength : pairs.length = records.length := by simpa using hrecords.length_eq
  intro i record hget
  have hmem := OrderedMap.mem_keys_iff.mpr ⟨record, hget⟩
  rw [mem_keys_settle hlength] at hmem
  by_cases hold : i ∈ s.resolved.keys
  · rw [get?_settle_of_mem hpairs hold] at hget
    exact h i record hget
  · have hnew := hmem.resolve_left hold
    obtain ⟨n, hn, hi⟩ := List.getElem_of_mem hnew
    rw [List.length_map] at hn
    have hn' : n < records.length := hlength ▸ hn
    have hzip : (i, records[n]) ∈ (pairs.map Prod.fst).zip records := by
      rw [← hi, List.mem_iff_getElem]
      exact ⟨n, by simpa using ⟨hn, hn'⟩, by simp⟩
    have hfound := get?_settle hpairs hzip
    rw [hget, Option.some.injEq] at hfound
    have hentry : (i, pairs[n].2) ∈ openEntries env s := by
      apply hpairs.subset
      rw [← hi, List.getElem_map]
      exact List.getElem_mem hn
    have hrecord := hrecords.get (by simpa using hn) hn'
    refine ⟨pairs[n].2, (mem_openEntries.mp hentry).1, ?_⟩
    rw [hfound]
    simpa using hrecord

/-- Settling open entries keeps the ledger when new results list them on pages of their own. -/
theorem Accounted.settle {results added : List PhaseResult} {pages : List (List ℕ)}
    (h : Accounted env.plan.entries s.resolved results)
    (hpairs : List.Sublist pairs (openEntries env s))
    (hrecords : List.Forall₂ RecordOf (pairs.map Prod.snd) records)
    (hpages : Books pages (· ∈ pairs.map Prod.fst))
    (hlisted : List.Forall₂ (Listed (settle s.resolved ((pairs.map Prod.fst).zip records)))
      pages added) :
    Accounted env.plan.entries (Orchestrator.settle s.resolved ((pairs.map Prod.fst).zip records))
      (results ++ added) := by
  have hlength : pairs.length = records.length := by simpa using hrecords.length_eq
  constructor
  · exact RecordsMatch.settle h.records hpairs hrecords
  · obtain ⟨old, hbooks, hold⟩ := h.pages
    refine ⟨old ++ pages, ?_, ?_⟩
    · apply (hbooks.append hpages ?_).congr
      · exact fun i ↦ mem_keys_settle hlength
      · intro i hi hmem
        obtain ⟨pair, hpair, rfl⟩ := List.mem_map.mp hi
        exact (mem_openEntries.mp (hpairs.subset hpair)).2 hmem
    · apply List.rel_append _ hlisted
      rw [List.forall₂_iff_zip] at hold ⊢
      refine ⟨hold.1, fun {page result} hmem ↦ ?_⟩
      have hlist : Listed s.resolved page result := hold.2 hmem
      unfold Listed at hlist ⊢
      rw [hlist]
      apply List.map_congr_left
      intro i hi
      have hkey : i ∈ s.resolved.keys := by
        rw [← hbooks.mem]
        exact List.mem_flatten.mpr ⟨page, (List.of_mem_zip hmem).1, hi⟩
      rw [get?_settle_of_mem hpairs hkey]

/-- The records settled together, read back position by position. -/
theorem map_get?_settle (hpairs : List.Sublist pairs (openEntries env s))
    (hlength : pairs.length = records.length) :
    (pairs.map Prod.fst).map
      (settle s.resolved ((pairs.map Prod.fst).zip records)).get? = records.map some := by
  apply List.ext_getElem
  · simpa using hlength
  · intro n h₁ h₂
    simp only [List.length_map] at h₁ h₂
    simp only [List.getElem_map]
    apply get?_settle hpairs
    rw [List.mem_iff_getElem]
    exact ⟨n, by simpa using ⟨h₁, h₂⟩, by simp⟩

end Settle

/-! ## The loop keeps the ledger -/

theorem forall₂_map_snd {pairs : List (ℕ × ValidationEntry)} {records : List ResolvedEntry}
    (h : List.Forall₂ RecordOf (pairs.map Prod.snd) records) : pairs.length = records.length := by
  simpa using h.length_eq

theorem Accounted.visited (h : Accounted env.plan.entries s.resolved s.phaseResults)
    (hvisited : Visited env s phase s') :
    Accounted env.plan.entries s'.resolved s'.phaseResults := by
  cases hvisited with
  | notRequested _ hstate =>
    rw [hstate]
    exact h
  | skipped reason _ _ hstate =>
    rw [hstate]
    obtain ⟨pages, hbooks, hlisted⟩ := h.pages
    refine ⟨h.records, pages ++ [[]], ?_, ?_⟩
    · exact (hbooks.append (.single List.nodup_nil) (by simp)).congr (by simp)
    · exact List.rel_append hlisted (.cons rfl .nil)
  | executed exec log _ _ hran =>
    have hsublist := phaseEntries_sublist env s phase
    have hrecords := hran.records
    have hlength := forall₂_map_snd hrecords
    rw [hran.resolved, hran.indexes]
    have hpage : Books [(phaseEntries env s phase).map Prod.fst]
        (· ∈ (phaseEntries env s phase).map Prod.fst) :=
      .single ((hsublist.map Prod.fst).nodup (nodup_openEntries env s))
    rcases hran.result with ⟨hresults, _, hnone, _⟩ | ⟨result, hcreate, hresults, _⟩
    · rw [hnone, List.length_nil, List.length_eq_zero_iff] at hlength
      rw [hresults, hlength, hnone]
      simpa [Orchestrator.settle] using h
    · rw [hresults]
      refine h.settle hsublist hrecords hpage (.cons ?_ .nil)
      calc
        result.validations.map some = (log.records.map some).map (Option.map toResultDict) := by
          rw [(createPhaseResult_ok hcreate).1]
          simp
        _ = _ := by
          rw [← map_get?_settle hsublist hlength]
          simp

/-! ## The last pass -/

theorem recordOf_terminalizeLeftover {stepPhases : String → Option String} {entry : ValidationEntry}
    {record : ResolvedEntry} (h : record.Decides entry) :
    RecordOf entry (terminalizeLeftover env stepPhases record) := by
  unfold terminalizeLeftover
  cases hready : record.isReady with
  | true =>
    rw [if_pos rfl]
    exact ⟨h.entry ▸ .refl _, rfl, by simp, by simp⟩
  | false =>
    rw [if_neg Bool.false_ne_true]
    exact ⟨h.entry ▸ .refl _, h.decided hready⟩

theorem Remaining.records_forall₂ {records : List ResolvedEntry} (h : Remaining env s records s') :
    List.Forall₂ RecordOf ((openEntries env s).map Prod.snd) records := by
  obtain ⟨decided, hdecided, rfl⟩ := h.decided
  rw [List.forall₂_map_right_iff]
  exact (decideEntries_forall₂ hdecided).imp fun _ _ ↦ recordOf_terminalizeLeftover

/-- A group holds the records of its phase, in order. -/
theorem mem_byPhase {stepPhases : String → Option String} {records : List ResolvedEntry}
    {group : String × List ResolvedEntry} (h : group ∈ (byPhase stepPhases records).entries) :
    group.2 = records.filter fun record ↦ getEntryPhase record.entry stepPhases = group.1 := by
  have hget : (byPhase stepPhases records).get? group.1 = some group.2 :=
    OrderedMap.mem_entries_iff.mp h
  calc
    group.2 = ((byPhase stepPhases records).get? group.1).getD [] := by rw [hget]; rfl
    _ = _ := by
      unfold byPhase
      rw [OrderedMap.getD_groupWith_append, List.filter_map, List.flatMap_map]
      exact List.flatMap_singleton' _

theorem mem_keys_byPhase {stepPhases : String → Option String} {records : List ResolvedEntry}
    {key : String} : key ∈ (byPhase stepPhases records).keys ↔
      ∃ record ∈ records, getEntryPhase record.entry stepPhases = key := by
  unfold byPhase
  rw [OrderedMap.mem_keys_groupWith, List.map_map, List.mem_map]
  rfl

/-- The results of the last pass are pages of the positions grouped by phase. -/
theorem Accounted.remaining {records : List ResolvedEntry}
    (h : Accounted env.plan.entries s.resolved s.phaseResults)
    (hremaining : Remaining env s records s') :
    Accounted env.plan.entries s'.resolved s'.phaseResults := by
  have hrecords := hremaining.records_forall₂
  have hlength := forall₂_map_snd hrecords
  have hfst : (((openEntries env s).map Prod.fst).zip records).map Prod.fst =
      (openEntries env s).map Prod.fst := List.map_fst_zip (by simp [hlength])
  have hsnd : (((openEntries env s).map Prod.fst).zip records).map Prod.snd = records :=
    List.map_snd_zip (by simp [hlength])
  have hnodup := nodup_openEntries env s
  rw [hremaining.state]
  let phaseOf : ResolvedEntry → String := fun record ↦
    getEntryPhase record.entry s.context.stepPhases.get?
  let groups := byPhase s.context.stepPhases.get? records
  let items := ((openEntries env s).map Prod.fst).zip records
  have hpages : Books (groups.keys.map fun k ↦ (items.filter fun item ↦
      phaseOf item.2 = k).map Prod.fst) (· ∈ items.map Prod.fst) := by
    apply Books.classes (hfst ▸ hnodup) groups.nodup_keys
    intro item hitem
    exact mem_keys_byPhase.mpr ⟨item.2, (List.of_mem_zip hitem).2, rfl⟩
  refine h.settle (List.Sublist.refl _) hrecords (hpages.congr fun i ↦ by rw [hfst]) ?_
  unfold OrderedMap.keys
  rw [List.map_map, List.forall₂_map_left_iff, List.forall₂_map_right_iff, List.forall₂_same]
  intro group hgroup
  calc
    (resolutionOnlyResult group).validations.map some
        = (records.filter fun record ↦ phaseOf record = group.1).map (some ∘ toResultDict) := by
      rw [← mem_byPhase hgroup, ← List.map_map]
      rfl
    _ = (items.filter fun item ↦ phaseOf item.2 = group.1).map
          fun item ↦ some (toResultDict item.2) := by
      conv_lhs => rw [← hsnd]
      rw [List.filter_map, List.map_map]
      rfl
    _ = _ := by
      rw [Function.comp_apply, List.map_map]
      apply List.map_congr_left
      intro item hitem
      have hmem : (item.1, item.2) ∈ items := (List.mem_filter.mp hitem).1
      rw [Function.comp_apply, get?_settle (List.Sublist.refl _) hmem, Option.map_some]

/-! ## Finished runs -/

/-- After the last pass every position has a record. -/
theorem keys_of_resolveRemaining (h : resolveRemaining env s = .ok s') {i : ℕ}
    (hi : i < env.plan.entries.length) : i ∈ s'.resolved.keys := by
  have hopen : i ∈ s.resolved.keys ∨ i ∈ (openEntries env s).map Prod.fst := by
    by_cases hmem : i ∈ s.resolved.keys
    · exact Or.inl hmem
    · refine Or.inr (List.mem_map.mpr ⟨(i, env.plan.entries[i]), mem_openEntries.mpr ⟨?_, hmem⟩, rfl⟩)
      exact List.getElem?_eq_getElem hi
  rcases resolveRemaining_ok h with ⟨hnone, rfl⟩ | ⟨_, records, hremaining⟩
  · simpa [hnone] using hopen
  · rw [hremaining.state]
    exact (mem_keys_settle (forall₂_map_snd hremaining.records_forall₂)).mpr hopen

theorem Accounted.lt_length {entries : List ValidationEntry} {resolved : OrderedMap ℕ ResolvedEntry}
    {results : List PhaseResult} (h : Accounted entries resolved results) {i : ℕ}
    (hi : i ∈ resolved.keys) : i < entries.length := by
  obtain ⟨record, hrecord⟩ := OrderedMap.mem_keys_iff.mp hi
  obtain ⟨entry, hentry, _⟩ := h.records i record hrecord
  exact (List.getElem?_eq_some_iff.mp hentry).1

/-- With a record for every position, the records come in the order of the positions. -/
theorem getElem?_sortedRecords {resolved : OrderedMap ℕ ResolvedEntry} {n : ℕ}
    (h : ∀ i, i ∈ resolved.keys ↔ i < n) :
    (sortedRecords resolved).length = n ∧
      ∀ i < n, (sortedRecords resolved)[i]? = resolved.get? i := by
  have hperm : resolved.keys.Perm (List.range n) :=
    (List.perm_ext_iff_of_nodup resolved.nodup_keys List.nodup_range).mpr fun i ↦ by
      rw [h, List.mem_range]
  have hsorted : resolved.keys.insertionSort (· ≤ ·) = List.range n := by
    apply List.Perm.eq_of_pairwise
    · exact fun a b _ _ hab hba ↦ Nat.le_antisymm hab hba
    · exact List.pairwise_insertionSort (· ≤ ·) resolved.keys
    · exact List.pairwise_le_range
    · exact (List.perm_insertionSort (· ≤ ·) resolved.keys).trans hperm
  have hmap : (sortedRecords resolved).map some = (List.range n).map resolved.get? := by
    unfold sortedRecords
    rw [hsorted]
    apply map_some_filterMap
    intro i hi
    rw [Option.isSome_iff_exists]
    exact OrderedMap.mem_keys_iff.mp ((h i).mpr (List.mem_range.mp hi))
  constructor
  · simpa using congrArg List.length hmap
  · intro i hi
    have hat := congrArg (·[i]?) hmap
    obtain ⟨record, hrecord⟩ := OrderedMap.mem_keys_iff.mp ((h i).mpr hi)
    simp only [List.getElem?_map, List.getElem?_range hi, Option.map_some, hrecord] at hat ⊢
    cases hget : (sortedRecords resolved)[i]? with
    | none => simp [hget] at hat
    | some found => simpa [hget] using hat

/-- The ledger of a finished run is complete. -/
theorem Accounted.complete {entries : List ValidationEntry} {resolved : OrderedMap ℕ ResolvedEntry}
    {results : List PhaseResult} (h : Accounted entries resolved results)
    (hall : ∀ i < entries.length, i ∈ resolved.keys) (result : OrchestratorResult)
    (hphases : result.phases = results) (hvalidations : result.validations = sortedRecords resolved) :
    Complete entries result := by
  have hkeys : ∀ i, i ∈ resolved.keys ↔ i < entries.length := fun i ↦ ⟨h.lt_length, hall i⟩
  obtain ⟨hlength, hget⟩ := getElem?_sortedRecords hkeys
  constructor
  · rw [hvalidations, List.forall₂_iff_get]
    refine ⟨hlength.symm, fun i h₁ h₂ ↦ ?_⟩
    have hrecord := hget i h₁
    rw [List.getElem?_eq_getElem h₂] at hrecord
    obtain ⟨entry, hentry, hof⟩ := h.records i _ hrecord.symm
    rw [List.getElem?_eq_getElem h₁, Option.some.injEq] at hentry
    rw [List.get_eq_getElem, List.get_eq_getElem, hentry]
    exact hof
  · obtain ⟨pages, hbooks, hlisted⟩ := h.pages
    refine ⟨pages, ?_, hbooks.perm List.nodup_range fun i ↦ by rw [hkeys, List.mem_range]⟩
    rw [hphases, hvalidations]
    rw [List.forall₂_iff_zip] at hlisted ⊢
    refine ⟨hlisted.1, fun {page phase} hmem ↦ ?_⟩
    rw [show phase.validations.map some = _ from hlisted.2 hmem]
    apply List.map_congr_left
    intro i hi
    have hbooked := (hbooks.mem i).mp (List.mem_flatten.mpr ⟨page, (List.of_mem_zip hmem).1, hi⟩)
    rw [hget i (h.lt_length hbooked)]

/-- The loop and the pass after it keep the ledger. -/
theorem FinishedRun.accounted {world : World} {config : RunConfig} {options : RunOptions}
    {f : Finished} (h : FinishedRun world config options f) :
    Accounted f.env.plan.entries f.state.resolved f.state.phaseResults := by
  obtain ⟨context, s, _, hloop, hremaining⟩ := h.loop
  have hinitial : Accounted f.env.plan.entries ({ context } : LoopState).resolved [] :=
    ⟨by simp, [], Books.nil.congr (by simp), .nil⟩
  have hs : Accounted f.env.plan.entries s.resolved s.phaseResults :=
    runPhases_rule (I := fun _ s ↦ Accounted f.env.plan.entries s.resolved s.phaseResults) hinitial
      (fun _ _ _ _ hdone hvisited ↦ hdone.visited hvisited) hloop
  rcases resolveRemaining_ok hremaining with ⟨_, hsame⟩ | ⟨_, records, hlast⟩
  · rw [hsame]
    exact hs
  · exact hs.remaining hlast

/-- Whatever the steps, the resolution and the sessions did, a finished run accounts for every
declared validation. -/
theorem validations_complete {world : World} {config : RunConfig} {options : RunOptions}
    {f : Finished} (h : run world config options = .finished f) :
    Complete (parseValidations world.host (config.tests.getD {}).validations) f.result := by
  have hrun := run_finished h
  obtain ⟨_, _, _, _, hremaining⟩ := hrun.loop
  rw [← hrun.world, ← hrun.planned.entries]
  apply hrun.accounted.complete (fun i hi ↦ keys_of_resolveRemaining hremaining hi)
  · rw [hrun.result]
  · rw [hrun.result]

theorem validations_complete_lifecycle :
    (run .plain .lifecycle {}).Finishes fun f ↦
      Complete (parseValidations World.plain.host (RunConfig.lifecycle.tests.getD {}).validations)
        f.result :=
  RunOutcome.finishes_of (by decide +kernel) fun _ hf ↦ validations_complete hf

end IsvValidation.Orchestrator
