import IsvValidation.K8s.VersionSupport
import IsvValidation.Library.Sequence

/-!
# When a pass means support

A pass is sound when each of the most recent minors is offered or new, and the cluster runs one of
them that is offered, or was pushed out of the window by a minor that is new. The check takes the
window and the distance of the cluster as positions in the sorted index. Positions count entries
rather than minors, and an index which repeats a minor sets the two apart.
-/

namespace IsvValidation.K8s

open Config Host Library CheckHost

/-! ## Support -/

section Support

variable (cycles : List UpstreamCycle)

def minors : List Minor := cycles.map UpstreamCycle.minor

/-- How many distinct minors of the index are newer. -/
def newer (minor : Minor) : ℕ := ((minors cycles).toFinset.filter (minor < ·)).card

/-- The index says of the minor that it was released at most so many days ago. -/
def ReleasedWithin (graceDays today : ℤ) (minor : Minor) : Prop :=
  ∃ cycle ∈ cycles, cycle.minor = minor ∧ isFresh graceDays today cycle = true

/-- What a pass is meant to say about the offered minors and the minor of the cluster. Ages are
measured at the check's two readings of the clock. -/
structure Supported (today : ℕ → ℤ) (count : ℕ) (graceDays : ℤ) (offered : List Minor)
    (server : Minor) : Prop where
  window : ∀ minor ∈ minors cycles, newer cycles minor < count →
    minor ∈ offered ∨ ReleasedWithin cycles graceDays (today 0) minor
  cluster : server ∈ minors cycles ∧
    (newer cycles server < count ∧ server ∈ offered ∨
      ∃ minor ∈ minors cycles, newer cycles minor + count = newer cycles server ∧
        ReleasedWithin cycles graceDays (today 1) minor)

/-- How many entries of the index are for newer minors. -/
def ahead (minor : Minor) : ℕ := (cycles.filter fun cycle ↦ minor < cycle.minor).length

/-- The positions lead to the right minors: one of the most recent minors whose entries all stand
behind the window is new itself, while the entry which the check takes for the one that displaced it
is not; and for an older minor, where this entry is new, so is the minor which displaced it. -/
def PositionsFit (today : ℕ → ℤ) (count : ℕ) (graceDays : ℤ) : Prop :=
  ∀ minor ∈ minors cycles,
    (newer cycles minor < count → count ≤ ahead cycles minor →
      ReleasedWithin cycles graceDays (today 0) minor ∧
        ∀ cycle ∈ cycles[ahead cycles minor - count]?, isFresh graceDays (today 1) cycle = false) ∧
    (count ≤ newer cycles minor →
      ∀ cycle ∈ cycles[ahead cycles minor - count]?, isFresh graceDays (today 1) cycle = true →
        ∃ other ∈ minors cycles, newer cycles other + count = newer cycles minor ∧
          ReleasedWithin cycles graceDays (today 1) other)

end Support

/-! ## The sorted index -/

/-- Newest minors first. -/
def Sorted (cycles : List UpstreamCycle) : Prop :=
  cycles.Pairwise fun cycle other ↦ other.minor ≤ cycle.minor

theorem sortCycles_sorted (cycles : List UpstreamCycle) : Sorted (sortCycles cycles) := by
  have htotal : Std.Total fun cycle other : UpstreamCycle ↦ other.minor ≤ cycle.minor :=
    ⟨fun cycle other ↦ le_total other.minor cycle.minor⟩
  have htrans : IsTrans UpstreamCycle fun cycle other ↦ other.minor ≤ cycle.minor :=
    ⟨fun _ _ _ h h' ↦ h'.trans h⟩
  exact List.pairwise_insertionSort _ cycles

/-- In a sorted index, the first entry of a minor stands behind those of newer minors. -/
theorem findIdx?_minor {cycles : List UpstreamCycle} (hsorted : Sorted cycles) {minor : Minor}
    (hmem : minor ∈ minors cycles) :
    (cycles.findIdx? fun cycle ↦ cycle.minor = minor) = some (ahead cycles minor) := by
  induction cycles with
  | nil => cases hmem
  | cons cycle rest ih =>
    have ⟨hfirst, hrest⟩ := List.pairwise_cons.mp hsorted
    rw [List.findIdx?_cons]
    by_cases heq : cycle.minor = minor
    · have hnone : ∀ other ∈ cycle :: rest, ¬ minor < other.minor := by
        intro other hother
        rw [← heq, not_lt]
        match List.mem_cons.mp hother with
        | .inl hsame => rw [hsame]
        | .inr hrest => exact hfirst other hrest
      rw [if_pos (decide_eq_true heq), ahead, List.filter_eq_nil_iff.mpr (by simpa using hnone)]
      rfl
    · have htail : minor ∈ minors rest := (List.mem_cons.mp hmem).resolve_left (Ne.symm heq)
      have ⟨other, hother, hminor⟩ := List.mem_map.mp htail
      have hlt : minor < cycle.minor := lt_of_le_of_ne (hminor ▸ hfirst other hother) (Ne.symm heq)
      rw [if_neg (by simpa using heq), ih hrest htail, ahead, ahead,
        List.filter_cons_of_pos (by simpa using hlt)]
      rfl

/-- The newer minors are those of the entries ahead. -/
theorem newer_eq_card (cycles : List UpstreamCycle) (minor : Minor) : newer cycles minor =
    ((cycles.filter fun cycle ↦ minor < cycle.minor).map UpstreamCycle.minor).toFinset.card := by
  unfold newer minors
  congr 1
  ext other
  simp only [Finset.mem_filter, List.mem_toFinset, List.mem_map, List.mem_filter, decide_eq_true_eq]
  constructor
  · intro ⟨⟨cycle, hcycle, hminor⟩, hlt⟩
    exact ⟨cycle, ⟨hcycle, hminor ▸ hlt⟩, hminor⟩
  · intro ⟨cycle, ⟨hcycle, hlt⟩, hminor⟩
    exact ⟨⟨cycle, hcycle, hminor⟩, hminor ▸ hlt⟩

/-- A minor has at least as many entries before it as there are newer minors. -/
theorem newer_le_ahead (cycles : List UpstreamCycle) (minor : Minor) :
    newer cycles minor ≤ ahead cycles minor := by
  calc
    _ = ((cycles.filter fun cycle ↦ minor < cycle.minor).map UpstreamCycle.minor).toFinset.card :=
      newer_eq_card cycles minor
    _ ≤ ((cycles.filter fun cycle ↦ minor < cycle.minor).map UpstreamCycle.minor).length :=
      List.toFinset_card_le _
    _ = ahead cycles minor := List.length_map ..

/-! ## What a pass has seen -/

section Pass

variable {host : CheckHost}

theorem verifyDisplacedCluster_passes {server : Patch} {cycles : List UpstreamCycle}
    {behind count : ℕ} {graceDays : ℤ} :
    (∃ note, host.verifyDisplacedCluster server cycles behind count graceDays = .ok note) ↔
      ∃ cycle ∈ cycles[behind - count]?, isFresh graceDays (host.today 1) cycle = true := by
  unfold verifyDisplacedCluster
  match cycles[behind - count]? with
  | none => simp
  | some cycle =>
    by_cases h : isFresh graceDays (host.today 1) cycle = true
    · simp [h]
    · simp [h]

/-- The cluster passes where its first entry stands in the window and its minor is offered, or where
the entry which stands a window before it is new. -/
theorem verifyClusterVersion_passes {kubectl : CommandResult} {offered : List Minor}
    {cycles : List UpstreamCycle} (hsorted : Sorted cycles) {count : ℕ} {graceDays : ℤ} :
    (∃ note, host.verifyClusterVersion kubectl offered cycles count graceDays = .ok note) ↔
      ∃ server, host.serverVersion kubectl = .ok server ∧ minorOf server ∈ minors cycles ∧
        (ahead cycles (minorOf server) < count ∧ minorOf server ∈ offered ∨
          count ≤ ahead cycles (minorOf server) ∧
            ∃ cycle ∈ cycles[ahead cycles (minorOf server) - count]?,
              isFresh graceDays (host.today 1) cycle = true) := by
  unfold verifyClusterVersion
  simp only [bind_eq_ok]
  rw [exists_comm]
  refine exists_congr fun server ↦ ?_
  rw [exists_and_left]
  refine and_congr_right fun _ ↦ ?_
  by_cases hmem : minorOf server ∈ minors cycles
  · rw [findIdx?_minor hsorted hmem]
    simp only
    by_cases hbehind : count ≤ ahead cycles (minorOf server)
    · simp only [if_pos hbehind, verifyDisplacedCluster_passes]
      have hnot : ¬ ahead cycles (minorOf server) < count := by omega
      simp [hmem, hbehind, hnot]
    · have hin : ahead cycles (minorOf server) < count := by omega
      by_cases hoffered : minorOf server ∈ offered
      · simp [hmem, hbehind, hin, hoffered, pure, Except.pure]
      · simp [hmem, hbehind, hoffered, throw, throwThe, MonadExceptOf.throw]
  · have hnone : (cycles.findIdx? fun cycle ↦ cycle.minor = minorOf server) = none := by
      rw [List.findIdx?_eq_none_iff]
      intro cycle hcycle
      have hne : cycle.minor ≠ minorOf server := fun heq ↦
        hmem (heq ▸ List.mem_map_of_mem hcycle)
      simpa using hne
    rw [hnone]
    simp [hmem, throw, throwThe, MonadExceptOf.throw]

/-- The check passes where every entry of the window is offered or new and the cluster passes. -/
theorem run_passes {config output : Items} {kubectl : CommandResult} {offered : List Minor}
    {cycles : List UpstreamCycle} {count graceDays : ℤ}
    (houtput : host.stepOutput config "Kubernetes version support" = .ok output)
    (hoffered : host.offeredMinors output = .ok offered)
    (hcount : host.parsePositiveInt config "supported_minor_count" 3 = .ok count)
    (hgrace : host.parsePositiveInt config "availability_grace_days" 42 = .ok graceDays)
    (hcycles : host.upstreamCycles config = .ok cycles) :
    (∃ message, host.run config kubectl = .ok message) ↔
      (∀ cycle ∈ cycles.take count.toNat,
        cycle.minor ∈ offered ∨ isFresh graceDays (host.today 0) cycle = true) ∧
      ∃ note, host.verifyClusterVersion kubectl offered cycles count.toNat graceDays = .ok note := by
  have hmissing : (((cycles.take count.toNat).filter fun cycle ↦ cycle.minor ∉ offered).filter
        fun cycle ↦ !isFresh graceDays (host.today 0) cycle).map (describe (host.today 0)) = [] ↔
      ∀ cycle ∈ cycles.take count.toNat,
        cycle.minor ∈ offered ∨ isFresh graceDays (host.today 0) cycle = true := by
    simp [or_iff_not_imp_right]
  unfold run
  simp only [houtput, hoffered, hcount, hgrace, hcycles, bind, Except.bind]
  by_cases hwindow : ∀ cycle ∈ cycles.take count.toNat,
      cycle.minor ∈ offered ∨ isFresh graceDays (host.today 0) cycle = true
  · rw [if_neg (not_not.mpr (hmissing.mpr hwindow))]
    match host.verifyClusterVersion kubectl offered cycles count.toNat graceDays with
    | .ok note => exact ⟨fun _ ↦ ⟨hwindow, note, rfl⟩, fun _ ↦ ⟨_, rfl⟩⟩
    | .error stop => simp
  · rw [if_pos (fun h ↦ hwindow (hmissing.mp h))]
    simp [hwindow, throw, throwThe, MonadExceptOf.throw]

end Pass

/-! ## Versions as text -/

section Text

variable {host : CheckHost}

/-- Both numbers are small enough for `int` to read them. -/
structure Readable (minor : Minor) : Prop where
  major : (ofLex minor).1 < 10 ^ maxStrDigits
  minor : (ofLex minor).2 < 10 ^ maxStrDigits

theorem maxStrDigits_pos : 0 < maxStrDigits := by
  unfold maxStrDigits
  decide

theorem intOfDigits_lt {digits : List Char} {number : ℕ}
    (h : host.intOfDigits digits = .ok number) : number < 10 ^ maxStrDigits := by
  unfold intOfDigits at h
  by_cases hlength : maxStrDigits < digits.length
  · rw [if_pos hlength] at h
    cases h
  · rw [if_neg hlength, Except.ok.injEq] at h
    calc
      number = host.data.toNat digits := h.symm
      _ < 10 ^ digits.length := UnicodeData.toNat_lt digits
      _ ≤ 10 ^ maxStrDigits := Nat.pow_le_pow_right (by decide) (not_lt.mp hlength)

theorem intOfDigits_toDigits {number : ℕ} (h : number < 10 ^ maxStrDigits) :
    host.intOfDigits (Nat.toDigits 10 number) = .ok number := by
  have hlength : (Nat.toDigits 10 number).length ≤ maxStrDigits :=
    (Nat.length_toDigits_le_iff (by decide) maxStrDigits_pos).mpr h
  rw [intOfDigits, if_neg (not_lt.mpr hlength), UnicodeData.toNat_toDigits]

theorem parseMinor_readable {value : Value} {minor : Minor}
    (h : host.parseMinor value = .ok (some minor)) : Readable minor := by
  unfold parseMinor at h
  match hmatch : host.versionMatch value with
  | none => rw [hmatch] at h; cases h
  | some (major, small, patch) =>
    rw [hmatch] at h
    have ⟨first, hfirst, h⟩ := bind_eq_ok.mp h
    have ⟨second, hsecond, h⟩ := bind_eq_ok.mp h
    cases h
    exact ⟨intOfDigits_lt hfirst, intOfDigits_lt hsecond⟩

theorem isDecimal_toDigits {number : ℕ} {c : Char} (h : c ∈ Nat.toDigits 10 number) :
    host.data.isDecimal c = true :=
  UnicodeData.isDecimal_eq_true (Nat.isDigit_of_mem_toDigits (by decide) (by decide) h)

theorem isDecimal_dot : host.data.isDecimal '.' = false :=
  UnicodeData.isDecimal_eq_false (by decide) (by decide)

/-- Reading a number which a dot follows. -/
theorem match?_number_dot {γ : Type} (number : ℕ) {rest : List Char}
    {next : List Char → Pattern Char γ} {way : γ × List Char}
    (h : (next (Nat.toDigits 10 number)).match? ('.' :: rest) = some way) :
    (Pattern.some host.data.isDecimal >>= next).match? (Nat.toDigits 10 number ++ '.' :: rest) =
      some way := by
  refine Pattern.match?_some_bind Nat.toDigits_ne_nil (fun _ ↦ isDecimal_toDigits) ?_ h
  intro c hc
  cases hc
  exact isDecimal_dot

/-- Reading a number at the end. -/
theorem match?_number_end (number : ℕ) :
    (Pattern.some host.data.isDecimal).match? (Nat.toDigits 10 number) =
      some (Nat.toDigits 10 number, []) := by
  have h : (Pattern.some host.data.isDecimal).match? (Nat.toDigits 10 number ++ []) =
      some (Nat.toDigits 10 number, []) :=
    Pattern.match?_some Nat.toDigits_ne_nil (fun _ ↦ isDecimal_toDigits) fun c hc ↦ by cases hc
  rwa [List.append_nil] at h

theorem one_v_toDigits (number : ℕ) (rest : List Char) :
    Pattern.one (· == 'v') (Nat.toDigits 10 number ++ rest) = [] := by
  match h : Nat.toDigits 10 number with
  | [] => exact absurd h Nat.toDigits_ne_nil
  | c :: others =>
    have hdigit : c.isDigit = true :=
      Nat.isDigit_of_mem_toDigits (by decide) (by decide) (h ▸ List.mem_cons_self)
    have hne : ¬ (c == 'v') = true := by
      intro heq
      rw [beq_iff_eq.mp heq] at hdigit
      exact absurd hdigit (by decide)
    rw [List.cons_append, Pattern.one, if_neg hne]

theorem match?_versionPattern_minor (major minor : ℕ) :
    host.versionPattern.match? (Nat.toDigits 10 major ++ '.' :: Nat.toDigits 10 minor) =
      some ((Nat.toDigits 10 major, Nat.toDigits 10 minor, none), []) := by
  have hdot : ∀ rest : List Char, (Pattern.one (· == '.')).match? ('.' :: rest) = some ('.', rest) :=
    fun rest ↦ Pattern.match?_one rfl rest
  refine Pattern.match?_bind (Pattern.match?_optional_of_nil (one_v_toDigits major _)) ?_
  refine match?_number_dot major (Pattern.match?_bind (hdot _) ?_)
  exact Pattern.match?_bind (match?_number_end minor)
    (Pattern.match?_bind (Pattern.match?_optional_of_nil rfl) rfl)

theorem match?_versionPattern_patch (major minor patch : ℕ) :
    host.versionPattern.match?
        ('v' :: (Nat.toDigits 10 major ++ '.' :: (Nat.toDigits 10 minor ++ '.' :: Nat.toDigits 10 patch))) =
      some ((Nat.toDigits 10 major, Nat.toDigits 10 minor, some (Nat.toDigits 10 patch)), []) := by
  have hdot : ∀ rest : List Char, (Pattern.one (· == '.')).match? ('.' :: rest) = some ('.', rest) :=
    fun rest ↦ Pattern.match?_one rfl rest
  refine Pattern.match?_bind (Pattern.match?_optional_of_some (Pattern.match?_one rfl _)) ?_
  refine match?_number_dot major (Pattern.match?_bind (hdot _) ?_)
  refine match?_number_dot minor (Pattern.match?_bind (Pattern.match?_optional_of_some ?_) rfl)
  exact Pattern.match?_bind (hdot _) (match?_number_end patch)

theorem match?_gitVersionPattern (major minor patch : ℕ) :
    host.gitVersionPattern.match?
        ('v' :: (Nat.toDigits 10 major ++ '.' :: (Nat.toDigits 10 minor ++ '.' :: Nat.toDigits 10 patch))) =
      some ('v' :: (Nat.toDigits 10 major ++ '.' :: (Nat.toDigits 10 minor ++ '.' ::
        Nat.toDigits 10 patch)), []) := by
  have hdot : ∀ rest : List Char, (Pattern.one (· == '.')).match? ('.' :: rest) = some ('.', rest) :=
    fun rest ↦ Pattern.match?_one rfl rest
  refine Pattern.match?_bind (Pattern.match?_one rfl _) ?_
  refine match?_number_dot major (Pattern.match?_bind (hdot _) ?_)
  refine match?_number_dot minor (Pattern.match?_bind (hdot _) ?_)
  refine Pattern.match?_bind (match?_number_end patch) ?_
  exact congrArg (fun text ↦ some (text, [])) (by simp)

theorem toList_renderMinor (minor : Minor) : (renderMinor minor).toList =
    Nat.toDigits 10 (ofLex minor).1 ++ '.' :: Nat.toDigits 10 (ofLex minor).2 := by
  simp [renderMinor, toString]

theorem toList_version (major minor patch : ℕ) : s!"v{major}.{minor}.{patch}".toList =
    'v' :: (Nat.toDigits 10 major ++ '.' :: (Nat.toDigits 10 minor ++ '.' ::
      Nat.toDigits 10 patch)) := by
  simp [toString]

/-- A text between ASCII letters or digits has no white space at its ends. -/
theorem strip_toDigits {first : Char} {text : List Char} {number : ℕ}
    (hfirst : host.data.isSpace first = false) :
    host.data.stripChars (first :: text ++ Nat.toDigits 10 number) =
      first :: text ++ Nat.toDigits 10 number := by
  rw [List.cons_append]
  refine UnicodeData.stripChars_eq_self hfirst ?_
  intro c hc
  have hlast : c ∈ (Nat.toDigits 10 number).getLast? := by
    rwa [← List.cons_append, List.getLast?_append_of_ne_nil _ Nat.toDigits_ne_nil] at hc
  exact UnicodeData.isSpace_digit
    (Nat.isDigit_of_mem_toDigits (by decide) (by decide) (List.mem_of_mem_getLast? hlast))

theorem parseMinor_renderMinor {minor : Minor} (h : Readable minor) :
    host.parseMinor (.str (renderMinor minor)) = .ok (some minor) := by
  have hstrip : host.data.stripChars (renderMinor minor).toList = (renderMinor minor).toList := by
    rw [toList_renderMinor]
    match hdigits : Nat.toDigits 10 (ofLex minor).1 with
    | [] => exact absurd hdigits Nat.toDigits_ne_nil
    | c :: others =>
      have hc : c.isDigit = true :=
        Nat.isDigit_of_mem_toDigits (by decide) (by decide) (hdigits ▸ List.mem_cons_self)
      have hsplit : c :: others ++ '.' :: Nat.toDigits 10 (ofLex minor).2 =
          c :: (others ++ ['.']) ++ Nat.toDigits 10 (ofLex minor).2 := by simp
      rw [hsplit]
      exact strip_toDigits (UnicodeData.isSpace_digit hc)
  have hmatch : host.versionMatch (.str (renderMinor minor)) =
      some (Nat.toDigits 10 (ofLex minor).1, Nat.toDigits 10 (ofLex minor).2, none) := by
    rw [versionMatch, Value.str?, Option.bind_some, hstrip, toList_renderMinor,
      match?_versionPattern_minor, Option.map_some]
  unfold parseMinor
  rw [hmatch]
  simp only [intOfDigits_toDigits h.major, intOfDigits_toDigits h.minor, bind, Except.bind]
  rfl

theorem parsePatch_version {major minor patch : ℕ} (hmajor : major < 10 ^ maxStrDigits)
    (hminor : minor < 10 ^ maxStrDigits) (hpatch : patch < 10 ^ maxStrDigits) :
    host.parsePatch (.str s!"v{major}.{minor}.{patch}") = .ok (some (major, minor, patch)) := by
  have hv : host.data.isSpace 'v' = false := by
    rw [host.data.asciiSpace 'v' (by decide)]
    rfl
  have hstrip : host.data.stripChars (s!"v{major}.{minor}.{patch}").toList =
      (s!"v{major}.{minor}.{patch}").toList := by
    rw [toList_version]
    have hsplit : 'v' :: (Nat.toDigits 10 major ++ '.' :: (Nat.toDigits 10 minor ++ '.' ::
        Nat.toDigits 10 patch)) = 'v' :: (Nat.toDigits 10 major ++ '.' ::
          (Nat.toDigits 10 minor ++ ['.'])) ++ Nat.toDigits 10 patch := by simp
    rw [hsplit]
    exact strip_toDigits hv
  have hmatch : host.versionMatch (.str s!"v{major}.{minor}.{patch}") =
      some (Nat.toDigits 10 major, Nat.toDigits 10 minor, some (Nat.toDigits 10 patch)) := by
    rw [versionMatch, Value.str?, Option.bind_some, hstrip, toList_version,
      match?_versionPattern_patch, Option.map_some]
  unfold parsePatch
  rw [hmatch]
  simp only [intOfDigits_toDigits hmajor, intOfDigits_toDigits hminor, intOfDigits_toDigits hpatch,
    bind, Except.bind]
  rfl

end Text

/-! ## What the check can be given -/

section Inputs

variable {host : CheckHost}

theorem orRaise_eq_ok {α : Type} {result : Except PyError α} {value : α} :
    orRaise result = .ok value ↔ result = .ok value := by
  cases result with
  | error raised => simp [orRaise, Except.mapError]
  | ok found => simp [orRaise, Except.mapError]

theorem cycle_readable {entry : Value} {found : UpstreamCycle}
    (h : host.cycle entry = .ok (some found)) : Readable found.minor := by
  unfold cycle at h
  split at h
  · have ⟨parsed, hparsed, h⟩ := bind_eq_ok.mp h
    cases parsed with
    | none => cases h
    | some minor =>
      have ⟨patch, _, h⟩ := bind_eq_ok.mp h
      cases h
      exact parseMinor_readable hparsed
  · cases h

/-- The check has the usable entries of the index, newest first. -/
theorem upstreamCycles_ok {config : Items} {cycles : List UpstreamCycle}
    (h : host.upstreamCycles config = .ok cycles) :
    ∃ entries found, host.upstreamIndex config = .ok (.list entries) ∧
      entries.mapM host.cycle = .ok found ∧ cycles.Perm (found.filterMap id) ∧
      Sorted cycles ∧ cycles ≠ [] := by
  have ⟨raw, hraw, h⟩ := bind_eq_ok.mp h
  match raw, hraw, h with
  | .list (first :: others), hraw, h =>
    have ⟨found, hfound, h⟩ := bind_eq_ok.mp h
    match husable : found.filterMap id with
    | [] => rw [husable] at h; cases h
    | cycle :: rest =>
      rw [husable] at h
      cases h
      have hperm : (sortCycles (cycle :: rest)).Perm (cycle :: rest) := List.perm_insertionSort _ _
      refine ⟨first :: others, found, hraw, orRaise_eq_ok.mp hfound, husable ▸ hperm,
        sortCycles_sorted _, fun hnil ↦ ?_⟩
      rw [hnil] at hperm
      exact absurd hperm.symm.eq_nil (List.cons_ne_nil cycle rest)
  | .list [], _, h => cases h
  | .scalar _, _, h => cases h
  | .dict _, _, h => cases h
  | .set _, _, h => cases h

theorem upstreamCycles_readable {config : Items} {cycles : List UpstreamCycle}
    (h : host.upstreamCycles config = .ok cycles) : ∀ minor ∈ minors cycles, Readable minor := by
  intro minor hminor
  have ⟨entries, found, _, hfound, hperm, _⟩ := upstreamCycles_ok h
  have ⟨cycle, hcycle, heq⟩ := List.mem_map.mp hminor
  have ⟨usable, husable, hid⟩ := List.mem_filterMap.mp (hperm.mem_iff.mp hcycle)
  have ⟨entry, _, hentry⟩ := (mem_of_mapM_ok hfound usable).mp husable
  rw [id_eq] at hid
  rw [hid] at hentry
  exact heq ▸ cycle_readable hentry

theorem parsePositiveInt_pos {config : Items} {key : String} {default value : ℤ}
    (hdefault : 1 ≤ default) (h : host.parsePositiveInt config key default = .ok value) :
    1 ≤ value := by
  unfold parsePositiveInt at h
  match hlookup : config.lookup (.str key) with
  | none =>
    rw [hlookup] at h
    cases h
    exact hdefault
  | some raw =>
    rw [hlookup] at h
    simp only at h
    split at h
    · cases h
    · match hint : host.int raw with
      | .ok found =>
        rw [hint] at h
        by_cases hsmall : found < 1
        · simp [hsmall] at h
        · simp only [if_neg hsmall, Except.ok.injEq] at h
          omega
      | .error raised =>
        rw [hint] at h
        cases raised <;> cases h

/-- A catalogue which lists minors. -/
def catalogue (offered : List Minor) : Items :=
  [(.str "offered_versions", .list (offered.map fun minor ↦ .str (renderMinor minor)))]

theorem offeredMinors_of_list {output : Items} {first : Value} {others : List Value}
    {offered : List Minor} (hlookup : output.lookup (.str "offered_versions") =
      some (.list (first :: others)))
    (hparsed : (first :: others).mapM host.parseMinor = .ok (offered.map some)) (hne : offered ≠ []) :
    host.offeredMinors output = .ok offered := by
  have husable : (offered.map some).filterMap id = offered := by simp
  unfold offeredMinors
  rw [hlookup, Option.getD_some]
  simp only
  rw [hparsed]
  cases offered with
  | nil => exact absurd rfl hne
  | cons newest rest =>
    simp only [orRaise, Except.mapError, bind, Except.bind, husable]
    rfl

theorem offeredMinors_catalogue {offered : List Minor} (hne : offered ≠ [])
    (h : ∀ minor ∈ offered, Readable minor) :
    host.offeredMinors (catalogue offered) = .ok offered := by
  have hone : ∀ minor ∈ offered, host.parseMinor (.str (renderMinor minor)) = .ok (some minor) :=
    fun minor hmem ↦ parseMinor_renderMinor (h minor hmem)
  have hparsed : (offered.map fun minor ↦ Value.str (renderMinor minor)).mapM host.parseMinor =
      .ok (offered.map some) := mapM_map_eq_ok_iff.mpr hone
  match hlist : offered.map fun minor ↦ Value.str (renderMinor minor) with
  | [] => exact absurd (List.map_eq_nil_iff.mp hlist) hne
  | first :: others =>
    rw [hlist] at hparsed
    exact offeredMinors_of_list (congrArg (fun items ↦ some (Value.list items)) hlist) hparsed hne

/-- The first version of a minor, as a server names it. -/
def versionText (minor : Minor) : String := s!"v{(ofLex minor).1}.{(ofLex minor).2}.{0}"

/-- What `kubectl version -o json` prints of a server, as far as the check reads it. -/
def versionDocument (minor : Minor) : Json :=
  .obj [("serverVersion", .obj [("gitVersion", .str (versionText minor))])]

/-- For every version there is an answer of `kubectl` which `json.loads` reads as this version. -/
def ReadsVersions (host : CheckHost) : Prop :=
  ∀ minor : Minor, ∃ stdout, host.loads stdout = .ok (versionDocument minor)

theorem toList_versionText (minor : Minor) : (versionText minor).toList =
    'v' :: (Nat.toDigits 10 (ofLex minor).1 ++ '.' :: (Nat.toDigits 10 (ofLex minor).2 ++ '.' ::
      Nat.toDigits 10 0)) := toList_version _ _ _

theorem parseServerVersion_document {stdout : String} {minor : Minor}
    (h : host.loads stdout = .ok (versionDocument minor)) :
    host.parseServerVersion stdout = .ok (some (versionText minor)) := by
  have hmatch : host.gitVersionPattern.match? (versionText minor).toList =
      some ((versionText minor).toList, []) := by
    rw [toList_versionText]
    exact match?_gitVersionPattern _ _ _
  have hne : versionText minor ≠ "" := by
    intro heq
    have hnil := congrArg String.toList heq
    rw [toList_versionText] at hnil
    cases hnil
  unfold parseServerVersion
  rw [h]
  simp [versionDocument, Json.get, Json.truthy, Option.filter_some, hne, hmatch, bind, Except.bind,
    pure, Except.pure]

theorem serverVersion_document {stdout : String} {minor : Minor} (hreadable : Readable minor)
    (h : host.loads stdout = .ok (versionDocument minor)) :
    host.serverVersion ⟨0, stdout, ""⟩ = .ok ((ofLex minor).1, (ofLex minor).2, 0) := by
  have hpatch : host.parsePatch (.str (versionText minor)) =
      .ok (some ((ofLex minor).1, (ofLex minor).2, 0)) :=
    parsePatch_version hreadable.major hreadable.minor (Nat.pow_pos (by decide))
  have hparsed := parseServerVersion_document h
  unfold serverVersion
  simp only [hparsed, ne_eq, not_true_eq_false, if_false, orRaise, Except.mapError, bind, Except.bind,
    Option.map_some, Option.getD_some, hpatch]
  rfl

/-- The configuration of the check with another step output. -/
def withOutput (config output : Items) : Items := Value.assign "step_output" (.dict output) config

theorem lookup_withOutput {key : String} (h : key ≠ "step_output") (config output : Items) :
    (withOutput config output).lookup (.str key) = config.lookup (.str key) :=
  Value.lookup_assignKey_of_ne (by simpa using h) _ _

theorem upstreamCycles_withOutput (config output : Items) :
    host.upstreamCycles (withOutput config output) = host.upstreamCycles config := by
  rw [upstreamCycles, upstreamCycles, upstreamIndex, upstreamIndex,
    lookup_withOutput (by decide)]

theorem parsePositiveInt_withOutput {key : String} (h : key ≠ "step_output")
    (config output : Items) (default : ℤ) :
    host.parsePositiveInt (withOutput config output) key default =
      host.parsePositiveInt config key default := by
  rw [parsePositiveInt, parsePositiveInt, lookup_withOutput h]

theorem stepOutput_withOutput {config output found : Items} {subject : String}
    (h : host.stepOutput (withOutput config output) subject = .ok found) : found = output := by
  have hlookup : (withOutput config output).lookup (.str "step_output") = some (.dict output) :=
    Value.lookup_assignKey ..
  rw [stepOutput, hlookup] at h
  simp only at h
  split at h
  · cases h
  · cases h
    rfl

theorem stepOutput_catalogue (config : Items) (offered : List Minor) (subject : String) :
    host.stepOutput (withOutput config (catalogue offered)) subject = .ok (catalogue offered) := by
  have hlookup : (withOutput config (catalogue offered)).lookup (.str "step_output") =
      some (.dict (catalogue offered)) := Value.lookup_assignKey ..
  rw [stepOutput, hlookup]
  rfl

end Inputs

/-! ## When a pass means support -/

section Sound

variable {host : CheckHost} {config : Items} {cycles : List UpstreamCycle} {count graceDays : ℤ}

/-- A provider and a cluster for which the check passes. -/
theorem exists_pass (hreads : ReadsVersions host) (hcycles : host.upstreamCycles config = .ok cycles)
    (hcount : host.parsePositiveInt config "supported_minor_count" 3 = .ok count)
    (hgrace : host.parsePositiveInt config "availability_grace_days" 42 = .ok graceDays)
    {offered : List Minor} {server : Minor} (hoffered : offered ≠ []) (hsub : offered ⊆ minors cycles)
    (hwindow : ∀ cycle ∈ cycles.take count.toNat,
      cycle.minor ∈ offered ∨ isFresh graceDays (host.today 0) cycle = true)
    (hserver : server ∈ minors cycles)
    (hcluster : ahead cycles server < count.toNat ∧ server ∈ offered ∨
      count.toNat ≤ ahead cycles server ∧
        ∃ cycle ∈ cycles[ahead cycles server - count.toNat]?,
          isFresh graceDays (host.today 1) cycle = true) :
    ∃ output kubectl message version, host.run (withOutput config output) kubectl = .ok message ∧
      host.offeredMinors output = .ok offered ∧ host.serverVersion kubectl = .ok version ∧
      minorOf version = server := by
  have hreadable := upstreamCycles_readable hcycles
  have ⟨_, _, _, _, _, hsorted, _⟩ := upstreamCycles_ok hcycles
  have ⟨stdout, hstdout⟩ := hreads server
  have hversion := serverVersion_document (hreadable server hserver) hstdout
  have hlisted : host.offeredMinors (catalogue offered) = .ok offered :=
    offeredMinors_catalogue hoffered fun minor hmem ↦ hreadable minor (hsub hmem)
  have ⟨message, hmessage⟩ := (run_passes (stepOutput_catalogue config offered _) hlisted
    ((parsePositiveInt_withOutput (by decide) config _ 3).trans hcount)
    ((parsePositiveInt_withOutput (by decide) config _ 42).trans hgrace)
    ((upstreamCycles_withOutput config _).trans hcycles)).mpr
    ⟨hwindow, (verifyClusterVersion_passes hsorted).mpr ⟨_, hversion, hserver, hcluster⟩⟩
  exact ⟨_, _, message, _, hmessage, hlisted, hversion, rfl⟩

/-- Entries of the window are for other minors than one whose entries all stand behind it. -/
theorem minor_ne_of_mem_take (hsorted : Sorted cycles) {minor : Minor} (hmem : minor ∈ minors cycles)
    {size : ℕ} (hbehind : size ≤ ahead cycles minor) {cycle : UpstreamCycle}
    (hcycle : cycle ∈ cycles.take size) : cycle.minor ≠ minor := by
  have ⟨i, hi, hget⟩ := List.getElem_of_mem hcycle
  rw [List.length_take] at hi
  rw [List.getElem_take] at hget
  have ⟨_, _, hbefore⟩ := List.findIdx?_eq_some_iff_getElem.mp (findIdx?_minor hsorted hmem)
  have hnot := hbefore i (by omega)
  rw [hget] at hnot
  simpa using hnot

/-- The newest minor stands at the start of the index. -/
theorem ahead_newest {newest : UpstreamCycle} {rest : List UpstreamCycle}
    (hsorted : Sorted (newest :: rest)) : ahead (newest :: rest) newest.minor = 0 := by
  have hfind := findIdx?_minor hsorted List.mem_cons_self
  rw [List.findIdx?_cons, if_pos (decide_eq_true rfl), Option.some.injEq] at hfind
  exact hfind.symm

/-- Positions which fit turn what a pass has seen into support. -/
theorem supported_of_fit (hsorted : Sorted cycles) {size : ℕ} {today : ℕ → ℤ}
    (hfit : PositionsFit cycles today size graceDays) {offered : List Minor} {server : Minor}
    (hwindow : ∀ cycle ∈ cycles.take size,
      cycle.minor ∈ offered ∨ isFresh graceDays (today 0) cycle = true)
    (hserver : server ∈ minors cycles)
    (hcluster : ahead cycles server < size ∧ server ∈ offered ∨
      size ≤ ahead cycles server ∧
        ∃ cycle ∈ cycles[ahead cycles server - size]?, isFresh graceDays (today 1) cycle = true) :
    Supported cycles today size graceDays offered server where
  window := by
    intro minor hminor hnewer
    by_cases hbehind : size ≤ ahead cycles minor
    · exact Or.inr ((hfit minor hminor).1 hnewer hbehind).1
    · have ⟨hlt, hat, _⟩ := List.findIdx?_eq_some_iff_getElem.mp (findIdx?_minor hsorted hminor)
      have hsame : cycles[ahead cycles minor].minor = minor := of_decide_eq_true hat
      have htake : cycles[ahead cycles minor] ∈ cycles.take size := by
        rw [List.mem_take_iff_getElem]
        exact ⟨ahead cycles minor, by omega, rfl⟩
      match hwindow _ htake with
      | Or.inl hoffered => exact Or.inl (hsame ▸ hoffered)
      | Or.inr hfresh => exact Or.inr ⟨_, List.getElem_mem hlt, hsame, hfresh⟩
  cluster := by
    refine ⟨hserver, ?_⟩
    match hcluster with
    | Or.inl ⟨hahead, hoffered⟩ =>
      have hnewer := newer_le_ahead cycles server
      exact Or.inl ⟨by omega, hoffered⟩
    | Or.inr ⟨hahead, cycle, hcycle, hfresh⟩ =>
      by_cases hnewer : newer cycles server < size
      · have hold := ((hfit server hserver).1 hnewer hahead).2 cycle hcycle
        rw [hfresh] at hold
        cases hold
      · exact Or.inr ((hfit server hserver).2 (by omega) cycle hcycle hfresh)

/-- Passing means support, whatever the provider offers and the cluster runs, exactly if the
positions in the index lead to the right minors. -/
theorem run_supported_iff (hreads : ReadsVersions host)
    (hcycles : host.upstreamCycles config = .ok cycles)
    (hcount : host.parsePositiveInt config "supported_minor_count" 3 = .ok count)
    (hgrace : host.parsePositiveInt config "availability_grace_days" 42 = .ok graceDays) :
    (∀ output kubectl message, host.run (withOutput config output) kubectl = .ok message →
      ∃ offered server, host.offeredMinors output = .ok offered ∧
        host.serverVersion kubectl = .ok server ∧
        Supported cycles host.today count.toNat graceDays offered (minorOf server)) ↔
      PositionsFit cycles host.today count.toNat graceDays := by
  have ⟨_, _, _, _, _, hsorted, hne⟩ := upstreamCycles_ok hcycles
  have hpos := parsePositiveInt_pos (by decide) hcount
  constructor
  · intro hsound
    have hsupported : ∀ {offered : List Minor} {server : Minor}, offered ≠ [] →
        offered ⊆ minors cycles → (∀ cycle ∈ cycles.take count.toNat,
          cycle.minor ∈ offered ∨ isFresh graceDays (host.today 0) cycle = true) →
        server ∈ minors cycles →
        (ahead cycles server < count.toNat ∧ server ∈ offered ∨ count.toNat ≤ ahead cycles server ∧
          ∃ cycle ∈ cycles[ahead cycles server - count.toNat]?,
            isFresh graceDays (host.today 1) cycle = true) →
        Supported cycles host.today count.toNat graceDays offered server := by
      intro offered server hoffered hsub hwindow hserver hcluster
      have ⟨output, kubectl, message, version, hrun, hlisted, hversion, hminor⟩ :=
        exists_pass hreads hcycles hcount hgrace hoffered hsub hwindow hserver hcluster
      have ⟨offered', server', hlisted', hversion', h⟩ := hsound output kubectl message hrun
      rw [hlisted, Except.ok.injEq] at hlisted'
      rw [hversion, Except.ok.injEq] at hversion'
      rwa [← hlisted', ← hversion', hminor] at h
    intro minor hminor
    constructor
    · intro hnewer hbehind
      -- the provider offers every other minor
      match hlist : cycles, hne with
      | newest :: rest, _ =>
        have hwindow : ∀ cycle ∈ (newest :: rest).take count.toNat,
            cycle.minor ∈ (minors (newest :: rest)).filter (· ≠ minor) := by
          intro cycle hcycle
          rw [List.mem_filter]
          exact ⟨List.mem_map_of_mem (List.mem_of_mem_take hcycle),
            by simpa using minor_ne_of_mem_take hsorted hminor hbehind hcycle⟩
        have hnewest : newest.minor ∈ (minors (newest :: rest)).filter (· ≠ minor) := by
          apply hwindow
          rw [List.take_cons (by omega)]
          exact List.mem_cons_self
        have hunoffered : minor ∉ (minors (newest :: rest)).filter (· ≠ minor) := by simp
        constructor
        · have h := hsupported (List.ne_nil_of_mem hnewest) (List.filter_subset_self _)
            (fun cycle hcycle ↦ Or.inl (hwindow cycle hcycle)) List.mem_cons_self
            (Or.inl ⟨by rw [ahead_newest hsorted]; omega, hnewest⟩)
          exact (h.window minor hminor hnewer).resolve_left hunoffered
        · intro cycle hcycle
          by_contra hfresh
          rw [Bool.not_eq_false] at hfresh
          have h := hsupported (List.ne_nil_of_mem hnewest) (List.filter_subset_self _)
            (fun cycle hcycle ↦ Or.inl (hwindow cycle hcycle)) hminor
            (Or.inr ⟨hbehind, cycle, hcycle, hfresh⟩)
          match h.cluster.2 with
          | Or.inl ⟨_, hoffered⟩ => exact hunoffered hoffered
          | Or.inr ⟨other, _, hrank, _⟩ => omega
    · intro hnewer cycle hcycle hfresh
      -- the provider offers everything
      have hahead := newer_le_ahead cycles minor
      have h := hsupported (List.ne_nil_of_mem hminor) (List.Subset.refl _)
        (fun cycle hcycle ↦ Or.inl (List.mem_map_of_mem (List.mem_of_mem_take hcycle))) hminor
        (Or.inr ⟨by omega, cycle, hcycle, hfresh⟩)
      match h.cluster.2 with
      | Or.inl ⟨hlt, _⟩ => omega
      | Or.inr hdisplaced => exact hdisplaced
  · intro hfit output kubectl message hrun
    have ⟨found, hfound, h⟩ := bind_eq_ok.mp hrun
    have hsame := stepOutput_withOutput hfound
    subst hsame
    have ⟨offered, hoffered, h⟩ := bind_eq_ok.mp h
    have ⟨hwindow, hcluster⟩ := (run_passes hfound hoffered
      ((parsePositiveInt_withOutput (by decide) config _ 3).trans hcount)
      ((parsePositiveInt_withOutput (by decide) config _ 42).trans hgrace)
      ((upstreamCycles_withOutput config _).trans hcycles)).mp ⟨message, hrun⟩
    have ⟨server, hserver, hlisted, hplace⟩ := (verifyClusterVersion_passes hsorted).mp hcluster
    exact ⟨offered, server, hoffered, hserver, supported_of_fit hsorted hfit hwindow hlisted hplace⟩

/-- In an index which names every minor once, positions fit: ranks and positions are the same. -/
theorem positionsFit_of_nodup (hsorted : Sorted cycles) (hnodup : (minors cycles).Nodup)
    (today : ℕ → ℤ) (size : ℕ) (graceDays : ℤ) : PositionsFit cycles today size graceDays := by
  have hsame : ∀ minor, newer cycles minor = ahead cycles minor := by
    intro minor
    have hsub := (List.filter_sublist (p := fun cycle : UpstreamCycle ↦ minor < cycle.minor)
      (l := cycles)).map UpstreamCycle.minor
    rw [newer_eq_card, List.toFinset_card_of_nodup (hsub.nodup hnodup), List.length_map]
    rfl
  intro minor hminor
  rw [hsame]
  refine ⟨fun hnewer hbehind ↦ by omega, fun hnewer cycle hcycle hfresh ↦ ?_⟩
  have ⟨hlt, hget⟩ := List.getElem?_eq_some_iff.mp hcycle
  have hmem : cycle ∈ cycles := hget ▸ List.getElem_mem hlt
  refine ⟨cycle.minor, List.mem_map_of_mem hmem, ?_, cycle, hmem, rfl, hfresh⟩
  have ⟨hlt', hat, _⟩ := List.findIdx?_eq_some_iff_getElem.mp
    (findIdx?_minor hsorted (List.mem_map_of_mem hmem))
  have hplace : ahead cycles cycle.minor = ahead cycles minor - size := by
    have hlength : (minors cycles).length = cycles.length := List.length_map ..
    have hequal : (minors cycles)[ahead cycles cycle.minor] =
        (minors cycles)[ahead cycles minor - size] := by
      simp only [minors, List.getElem_map, hget]
      exact of_decide_eq_true hat
    exact hnodup.getElem_inj_iff.mp hequal
  rw [hsame, hplace]
  omega

end Sound

/-! ## An index which repeats a minor -/

section Repeated

def documentOpen : List Char := "\x7b\"serverVersion\": \x7b\"gitVersion\": \"".toList

def documentClose : List Char := "\"\x7d\x7d".toList

/-- A host with ASCII text, which reads the documents of `kubectl` and three dates, on the first of
March 2026. -/
def marchHost : CheckHost where
  data := .ascii
  str := fun _ ↦ ""
  repr := fun _ ↦ ""
  typeName := fun _ ↦ "str"
  int := fun _ ↦ .error (.typeError "int() argument must be a string or a number")
  loads := fun text ↦
    let inner := (text.toList.drop documentOpen.length).rdrop documentClose.length
    if text.toList = documentOpen ++ inner ++ documentClose then
      .ok (.obj [("serverVersion", .obj [("gitVersion", .str (.ofList inner))])])
    else .error (.other "JSONDecodeError" "Expecting value")
  fromIsoformat := fun text ↦
    if text = "2025-08-27" then some 739490
    else if text = "2025-04-23" then some 739364
    else if text = "2024-12-11" then some 739231
    else none
  today := fun _ ↦ 739676

def entry (minor released : String) : Value :=
  .dict [(.str "minor", .str minor), (.str "released", .str released)]

def configOf (entries : List Value) : Items :=
  [(.str "step_output", .dict []), (.str "upstream_cycles", .list entries)]

theorem marchHost_readsVersions : ReadsVersions marchHost := by
  intro minor
  refine ⟨.ofList (documentOpen ++ (versionText minor).toList ++ documentClose), ?_⟩
  have hinner : ((documentOpen ++ (versionText minor).toList ++ documentClose).drop
      documentOpen.length).rdrop documentClose.length = (versionText minor).toList := by
    rw [List.append_assoc, List.drop_left, List.rdrop_append_length]
  simp only [marchHost, String.toList_ofList, hinner, if_true, String.ofList_toList]
  rfl

/-- An index of three minors, each named once, is fit, and lets every pass mean support. -/
theorem run_supported_distinct :
    PositionsFit [⟨toLex (1, 34), some 739490, none, none⟩, ⟨toLex (1, 33), some 739364, none, none⟩,
        ⟨toLex (1, 32), some 739231, none, none⟩] marchHost.today 3 42 ∧
      ∀ output kubectl message,
        marchHost.run (withOutput (configOf [entry "1.32" "2024-12-11", entry "1.34" "2025-08-27",
          entry "1.33" "2025-04-23"]) output) kubectl = .ok message →
        ∃ offered server, marchHost.offeredMinors output = .ok offered ∧
          marchHost.serverVersion kubectl = .ok server ∧
          Supported [⟨toLex (1, 34), some 739490, none, none⟩, ⟨toLex (1, 33), some 739364, none, none⟩,
            ⟨toLex (1, 32), some 739231, none, none⟩] marchHost.today 3 42 offered (minorOf server) := by
  have hcycles : marchHost.upstreamCycles (configOf [entry "1.32" "2024-12-11",
      entry "1.34" "2025-08-27", entry "1.33" "2025-04-23"]) =
      .ok [⟨toLex (1, 34), some 739490, none, none⟩, ⟨toLex (1, 33), some 739364, none, none⟩,
        ⟨toLex (1, 32), some 739231, none, none⟩] := by decide +kernel
  have ⟨_, _, _, _, _, hsorted, _⟩ := upstreamCycles_ok hcycles
  have hfit := positionsFit_of_nodup hsorted (by decide +kernel) marchHost.today 3 42
  exact ⟨hfit, (run_supported_iff marchHost_readsVersions hcycles rfl rfl).mpr hfit⟩

/-- With the newest minor named twice, a provider passes without offering the third one. -/
theorem repeated_minor_hides_third :
    ∃ output kubectl message offered server,
      marchHost.run (withOutput (configOf [entry "1.34" "2025-08-27", entry "1.34" "2025-08-27",
        entry "1.33" "2025-04-23", entry "1.32" "2024-12-11"]) output) kubectl = .ok message ∧
      marchHost.offeredMinors output = .ok offered ∧ marchHost.serverVersion kubectl = .ok server ∧
      ¬ Supported [⟨toLex (1, 34), some 739490, none, none⟩, ⟨toLex (1, 34), some 739490, none, none⟩,
          ⟨toLex (1, 33), some 739364, none, none⟩, ⟨toLex (1, 32), some 739231, none, none⟩]
        marchHost.today 3 42 offered (minorOf server) := by
  refine ⟨catalogue [toLex (1, 34), toLex (1, 33)],
    ⟨0, .ofList (documentOpen ++ "v1.34.0".toList ++ documentClose), ""⟩,
    "Provider offers the upstream maintenance window (1.34, 1.34, 1.33); cluster runs 1.34.0",
    [toLex (1, 34), toLex (1, 33)], (1, 34, 0), by decide +kernel, by decide +kernel,
    by decide +kernel, ?_⟩
  intro h
  have hthird := h.window (toLex (1, 32)) (by decide +kernel) (by decide +kernel)
  match hthird with
  | Or.inl hoffered => exact absurd hoffered (by decide +kernel)
  | Or.inr hreleased =>
    unfold ReleasedWithin at hreleased
    revert hreleased
    decide +kernel

end Repeated

end IsvValidation.K8s
