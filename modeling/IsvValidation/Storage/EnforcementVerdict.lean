import IsvValidation.Storage.QuotaProbe

/-!
# The verdict of the enforcement subtest

A backend stores the bytes of a write one after the other, until what it accounts for would exceed the
limit; what it accounts for may lag behind what is stored. The subtest writes a quarter of the limit, and
then more than the rest of it again and again until a write is refused. Its sizes are whole MiB, so the
first of them is below the limit when the limit is at least one MiB.
-/

namespace IsvValidation.Storage.QuotaProbe

open Host K8s Library

/-! ## Backends which enforce a limit -/

/-- What is accounted for may lag behind what is stored. -/
def Accounts (lag stored accounted : ℕ) : Prop := accounted ≤ stored ∧ stored ≤ accounted + lag

/-- From a usage, so many bytes of a write are stored: each while the accounted usage allows it, and not
all of them only when it does not allow the next one. -/
structure Stores (limit lag usage size stored : ℕ) : Prop where
  le : stored ≤ size
  accepts : ∀ byte < stored,
    ∃ accounted, Accounts lag (usage + byte) accounted ∧ accounted + 1 ≤ limit
  refuses : stored < size →
    ∃ accounted, Accounts lag (usage + stored) accounted ∧ limit < accounted + 1

variable {limit lag usage size stored : ℕ}

/-- A write which is cut short would have taken the usage above the limit. -/
theorem Stores.exceeds (h : Stores limit lag usage size stored) (hcut : stored < size) :
    limit < usage + size := by
  have ⟨accounted, haccounts, hlimit⟩ := h.refuses hcut
  have := haccounts.1
  omega

/-- Without a lag a write which does not fit is cut short. -/
theorem Stores.lt_of_exceeds (h : Stores limit 0 usage size stored) (hsize : 0 < size)
    (hexceeds : limit < usage + size) : stored < size := by
  by_contra hnot
  have heq : stored = size := Nat.le_antisymm h.le (Nat.le_of_not_lt hnot)
  have ⟨accounted, haccounts, hlimit⟩ := h.accepts (size - 1) (by omega)
  have := haccounts.2
  omega

/-- A result with a no-space or quota error in its text. -/
def Check.saysNoSpace (check : Check) (result : CommandResult) : Bool :=
  enospcTokens.any fun token ↦
    Text.contains (check.host.lower s!"{result.stdout}\n{result.stderr}") token

/-- A backend takes the quota and stores what fits; a write succeeds when all of it was stored, and is
refused with a quota error. -/
def EnforcesLimit (check : Check) (limit lag : ℕ) (usage : ℕ) (call : Call) (reply : Reply call)
    (after : ℕ) : Prop :=
  match call, reply with
  | .setQuota _ _ _, reply => reply = .ok () ∧ after = usage
  | .write _ count, result => ∃ stored, Stores limit lag usage (count * mib) stored ∧
      after = usage + stored ∧ (result.exitCode = 0 ↔ stored = count * mib) ∧
      (stored < count * mib → check.saysNoSpace result = true)
  | _, _ => after = usage

/-! ## The loop of writes -/

namespace Check

variable {check : Check} {World : Type} {ε : Type}
  {step : World → (call : Call) → Reply call → World → Prop} {world final : World}
  {trace : List (Exchange World Reply)} {writer : String → ℕ → String} {dir : String}

/-- A write is among the exchanges of a trace. -/
def Wrote (trace : List (Exchange World Reply)) (count : ℕ) (result : CommandResult) : Prop :=
  ∃ before text after, (⟨before, .write text count, result, after⟩ : Exchange World Reply) ∈ trace

theorem le_chunkMib (check : Check) : 16 ≤ check.chunkMib := Nat.le_max_left 16 _

/-- The loop ends, as each write brings it nearer to the cap; its last result is one of its writes. -/
theorem overWrites_execution {written chunk : ℕ} {last : CommandResult}
    {outcome : Except ε (CommandResult × ℕ)}
    (h : Execution step world (check.overWrites writer dir written chunk last) trace final outcome) :
    trace.length * check.chunkMib ≤ check.capMib - written + (check.chunkMib - 1) ∧
      ∃ result after, outcome = .ok (result, after) ∧
        (result = last ∨ Wrote trace check.chunkMib result) := by
  have hchunk := check.le_chunkMib
  induction hroom : check.capMib - written using Nat.strong_induction_on
    generalizing written chunk last world trace with
  | _ room ih =>
    rw [overWrites] at h
    by_cases hcap : written < check.capMib
    · rw [if_pos hcap] at h
      have ⟨result, middle, rest, _, htrace, hrest⟩ := Execution.call_iff.mp h
      have hwrote : Wrote trace check.chunkMib result :=
        ⟨_, _, _, htrace ▸ List.mem_cons_self⟩
      by_cases hexit : result.exitCode ≠ 0
      · rw [if_pos hexit] at hrest
        have ⟨hnil, _, houtcome⟩ := Execution.done_iff.mp hrest
        rw [htrace, hnil]
        refine ⟨?_, result, written, houtcome, Or.inr (by rwa [htrace, hnil] at hwrote)⟩
        simp only [List.length_singleton]
        omega
      · rw [if_neg hexit] at hrest
        have ⟨hlength, final', after, houtcome, hlast⟩ :=
          ih (check.capMib - (written + check.chunkMib)) (by omega) hrest rfl
        refine ⟨?_, final', after, houtcome, Or.inr ?_⟩
        · rw [htrace, List.length_cons, Nat.succ_mul]
          by_cases hroom' : written + check.chunkMib < check.capMib
          · omega
          · have hzero : rest.length = 0 := by
              by_contra hne
              have := Nat.mul_le_mul_right check.chunkMib (Nat.pos_of_ne_zero hne)
              omega
            rw [hzero]
            omega
        · match hlast with
          | .inl heq => rwa [heq]
          | .inr ⟨before, text, after, hmem⟩ =>
            exact ⟨before, text, after, htrace ▸ List.mem_cons_of_mem _ hmem⟩
    · rw [if_neg hcap] at h
      have ⟨hnil, _, houtcome⟩ := Execution.done_iff.mp h
      rw [hnil]
      exact ⟨by simp, last, written, houtcome, Or.inl rfl⟩

theorem verdict_passes {last : CommandResult} {written : ℕ} :
    (check.verdict last written).1 = true ↔ last.exitCode ≠ 0 ∧ check.saysNoSpace last = true := by
  unfold verdict saysNoSpace
  by_cases hexit : last.exitCode = 0
  · simp [hexit]
  · by_cases hreason : (enospcTokens.any fun token ↦
        Text.contains (check.host.lower s!"{last.stdout}\n{last.stderr}") token) = true
    · rw [if_pos ⟨hexit, hreason⟩]
      exact ⟨fun _ ↦ ⟨hexit, hreason⟩, fun _ ↦ rfl⟩
    · rw [if_neg fun h ↦ hreason h.2, if_pos hexit]
      exact ⟨fun h ↦ (nomatch h), fun h ↦ absurd h.2 hreason⟩

/-- The first write is refused and the subtest has failed, or it goes on to the loop. -/
theorem writePastLimit_execution {outcome : Except ε (Bool × String)}
    (h : Execution step world (check.writePastLimit writer dir) trace final outcome) :
    ∃ text under middle rest, trace = ⟨world, .write text check.underMib, under, middle⟩ :: rest ∧
      step world (.write text check.underMib) under middle ∧
      ((under.exitCode ≠ 0 ∧ rest = [] ∧ ∃ message, outcome = .ok (false, message)) ∨
        under.exitCode = 0 ∧ ∃ last written, outcome = .ok (check.verdict last written) ∧
          Execution step middle
            (check.overWrites writer dir check.underMib 0 under : Run ε (CommandResult × ℕ))
            rest final (.ok (last, written))) := by
  have ⟨under, middle, rest, hstep, htrace, hrest⟩ := Execution.call_iff.mp h
  refine ⟨_, under, middle, rest, htrace, hstep, ?_⟩
  by_cases hexit : under.exitCode ≠ 0
  · rw [if_pos hexit] at hrest
    have ⟨hnil, _, houtcome⟩ := Execution.done_iff.mp hrest
    exact Or.inl ⟨hexit, hnil, _, houtcome⟩
  · rw [if_neg hexit, Program.bind_eq] at hrest
    have ⟨first, result, between, second, happend, hreturns, hsecond⟩ :=
      Execution.bind_of_returns (R := fun first between result ↦ Execution step middle
        (check.overWrites writer dir check.underMib 0 under : Run ε (CommandResult × ℕ)) first between
          (.ok result)) (fun hrun ↦ by
            have ⟨_, result, after, houtcome, _⟩ := overWrites_execution hrun
            exact ⟨(result, after), houtcome, houtcome ▸ hrun⟩) hrest
    have ⟨hnil, hlast, houtcome⟩ := Execution.done_iff.mp hsecond
    rw [hnil, List.append_nil] at happend
    rw [happend, hlast]
    exact Or.inr ⟨not_not.mp hexit, result.1, result.2, houtcome, hreturns⟩

/-- A subtest which passes and is not skipped. -/
def Passes (outcome : Except ApiError Subtest) : Prop :=
  ∃ subtest, outcome = .ok subtest ∧ subtest.passed = true ∧ subtest.skipped = false

variable {tag : String} {quota : QuotaName} {tenantId : String}

/-- The quota is refused and the subtest does not pass, or the writes decide. -/
theorem enforcement_execution {outcome : Except ApiError Subtest}
    (h : Execution step world (check.enforcement tag quota tenantId dir writer) trace final outcome) :
    ∃ reply middle rest,
      trace = ⟨world, .setQuota quota tenantId check.enforceHard, reply, middle⟩ :: rest ∧
      step world (.setQuota quota tenantId check.enforceHard) reply middle ∧
      ((reply ≠ .ok () ∧ rest = [] ∧ ¬ Passes outcome) ∨
        reply = .ok () ∧ ∃ passed message, (Passes outcome ↔ passed = true) ∧
          Execution step middle (check.writePastLimit writer dir : Run ApiError (Bool × String))
            rest final (.ok (passed, message))) := by
  have ⟨reply, middle, rest, hstep, htrace, hrest⟩ := Execution.call_iff.mp h
  refine ⟨reply, middle, rest, htrace, hstep, ?_⟩
  match reply with
  | .ok () =>
    have ⟨first, result, between, second, happend, hreturns, hsecond⟩ :=
      Execution.bind_of_returns (R := fun first between result ↦ Execution step middle
        (check.writePastLimit writer dir : Run ApiError (Bool × String)) first between (.ok result))
        (fun hrun ↦ by
          have ⟨_, _, _, _, _, _, hcases⟩ := writePastLimit_execution hrun
          match hcases with
          | .inl ⟨_, _, message, houtcome⟩ => exact ⟨_, houtcome, houtcome ▸ hrun⟩
          | .inr ⟨_, last, written, houtcome, _⟩ => exact ⟨_, houtcome, houtcome ▸ hrun⟩) hrest
    have ⟨hnil, hlast, houtcome⟩ := Execution.done_iff.mp hsecond
    rw [hnil, List.append_nil] at happend
    rw [happend, hlast, houtcome]
    refine Or.inr ⟨rfl, result.1, result.2, ?_, hreturns⟩
    exact ⟨fun ⟨_, hok, hpassed, _⟩ ↦
        (congrArg Subtest.passed (Except.ok.inj hok)).trans hpassed,
      fun hpassed ↦ ⟨_, rfl, hpassed, rfl⟩⟩
  | .error error =>
    refine Or.inl ⟨fun h ↦ (nomatch h), ?_⟩
    simp only at hrest
    by_cases hrefused : check.kind = .user ∧ error.isNotSupported = true
    · rw [if_pos hrefused] at hrest
      have ⟨hnil, _, houtcome⟩ := Execution.done_iff.mp hrest
      exact ⟨hnil, fun ⟨_, hok, _, hskipped⟩ ↦ by
        rw [houtcome] at hok
        rw [← Except.ok.inj hok] at hskipped
        cases hskipped⟩
    · rw [if_neg hrefused] at hrest
      by_cases hstorage : error.isStorageApi = true
      · rw [if_pos hstorage] at hrest
        have ⟨hnil, _, houtcome⟩ := Execution.done_iff.mp hrest
        exact ⟨hnil, fun ⟨_, hok, hpassed, _⟩ ↦ by
          rw [houtcome] at hok
          rw [← Except.ok.inj hok] at hpassed
          cases hpassed⟩
      · rw [if_neg hstorage] at hrest
        have ⟨hnil, _, houtcome⟩ := Execution.raise_iff.mp hrest
        exact ⟨hnil, fun ⟨_, hok, _⟩ ↦ by
          rw [houtcome] at hok
          cases hok⟩

/-! ## The verdict against backends -/

/-- The run of the subtest ended as stated, with the exchanges and the usage it left. -/
def Ran (check : Check) (step : World → (call : Call) → Reply call → World → Prop) (world : World)
    (trace : List (Exchange World Reply)) (outcome : Except ApiError Subtest) : Prop :=
  ∃ tag quota tenantId dir writer final,
    Execution step world (check.enforcement tag quota tenantId dir writer) trace final outcome

/-- The verdict is exact: a run ends after at most 35 calls, whatever it meets. Against a backend which
enforces the limit from an empty directory without a lag it passes. When it passes with a lag, a write
within the limit succeeded at first, and a later one was refused which would have taken the usage above
the limit. It does not pass when no write is refused, or each for another reason. -/
structure VerdictExact (check : Check) : Prop where
  ends : ∀ {World : Type} {step : World → (call : Call) → Reply call → World → Prop}
    {world trace outcome}, check.Ran step world trace outcome → trace.length ≤ 35
  runs : ∃ trace outcome, check.Ran (EnforcesLimit check check.enforceHard.toNat 0) 0 trace outcome
  passes : ∀ {trace outcome},
    check.Ran (EnforcesLimit check check.enforceHard.toNat 0) 0 trace outcome → Passes outcome
  sound : ∀ {lag trace outcome},
    check.Ran (EnforcesLimit check check.enforceHard.toNat lag) 0 trace outcome → Passes outcome →
      ∃ setting text count under after rest,
        trace = setting :: ⟨0, .write text count, under, after⟩ :: rest ∧
        under.exitCode = 0 ∧ count * mib ≤ check.enforceHard.toNat ∧
        ∃ before text' count' beyond after',
          (⟨before, .write text' count', beyond, after'⟩ : Exchange ℕ Reply) ∈ rest ∧
          beyond.exitCode ≠ 0 ∧ check.enforceHard.toNat < before + count' * mib
  fails : ∀ {World : Type} {step : World → (call : Call) → Reply call → World → Prop}
    {world trace outcome}, check.Ran step world trace outcome →
    (∀ before text count result after,
      (⟨before, .write text count, result, after⟩ : Exchange World Reply) ∈ trace →
        result.exitCode = 0 ∨ check.saysNoSpace result = false) → ¬ Passes outcome

theorem ends_of_ran {outcome : Except ApiError Subtest} (h : check.Ran step world trace outcome) :
    trace.length ≤ 35 := by
  have ⟨tag, quota, tenantId, dir, writer, final, hrun⟩ := h
  have ⟨reply, middle, rest, htrace, _, hcases⟩ := enforcement_execution hrun
  rw [htrace, List.length_cons]
  match hcases with
  | .inl ⟨_, hnil, _⟩ =>
    rw [hnil, List.length_nil]
    omega
  | .inr ⟨_, _, _, _, hwrites⟩ =>
    have ⟨_, under, after, later, hlater, _, hunder⟩ := writePastLimit_execution hwrites
    rw [hlater, List.length_cons]
    match hunder with
    | .inl ⟨_, hnil, _⟩ =>
      rw [hnil, List.length_nil]
      omega
    | .inr ⟨_, last, written, _, hloop⟩ =>
      have hlength := (overWrites_execution hloop).1
      have hchunk := check.le_chunkMib
      have hcap : check.capMib ≤ 33 * check.chunkMib := by
        unfold capMib chunkMib
        omega
      have hunder : 1 ≤ check.underMib := Nat.le_max_left 1 _
      have hlater : later.length ≤ 33 := by
        by_contra hmany
        have := Nat.mul_le_mul_right check.chunkMib (Nat.lt_of_not_le hmany)
        omega
      omega

/-- A subtest passes on a first write which succeeded and a later one which ran out of space. -/
theorem passes_writes {outcome : Except ApiError Subtest} (h : check.Ran step world trace outcome)
    (hpasses : Passes outcome) : ∃ quota tenantId middle text under after rest,
      step world (.setQuota quota tenantId check.enforceHard) (.ok ()) middle ∧
      trace = ⟨world, .setQuota quota tenantId check.enforceHard, .ok (), middle⟩ ::
        ⟨middle, .write text check.underMib, under, after⟩ :: rest ∧
      under.exitCode = 0 ∧ ∃ beyond, Wrote rest check.chunkMib beyond ∧ beyond.exitCode ≠ 0 ∧
        check.saysNoSpace beyond = true := by
  have ⟨tag, quota, tenantId, dir, writer, final, hrun⟩ := h
  have ⟨reply, middle, rest, htrace, hset, hcases⟩ := enforcement_execution hrun
  match hcases with
  | .inl ⟨_, _, hnot⟩ => exact absurd hpasses hnot
  | .inr ⟨hreply, passed, message, hiff, hwrites⟩ =>
    have ⟨text, under, after, later, hlater, _, hunder⟩ := writePastLimit_execution hwrites
    match hunder with
    | .inl ⟨_, _, _, houtcome⟩ =>
      have hfalse := congrArg Prod.fst (Except.ok.inj houtcome)
      rw [hiff.mp hpasses] at hfalse
      cases hfalse
    | .inr ⟨hexit, last, written, houtcome, hloop⟩ =>
      have hverdict : (check.verdict last written).1 = true :=
        (congrArg Prod.fst (Except.ok.inj houtcome)).symm.trans (hiff.mp hpasses)
      have ⟨hrefused, hreason⟩ := verdict_passes.mp hverdict
      have ⟨_, result, _, hresult, hlast⟩ := overWrites_execution hloop
      have heq : last = result := congrArg Prod.fst (Except.ok.inj hresult)
      rw [hreply] at hset htrace
      refine ⟨quota, tenantId, middle, text, under, after, later, hset, by rw [htrace, hlater], hexit,
        last, ?_, hrefused, hreason⟩
      match hlast with
      | .inl hunder => exact absurd (by rw [heq, hunder, hexit]) hrefused
      | .inr hwrote => rwa [heq]

/-- The sizes are whole MiB: the first is within a limit of at least one MiB, and the first two exceed
any limit. -/
theorem underMib_le (h : (mib : ℤ) ≤ check.enforceHard) :
    check.underMib * mib ≤ check.enforceHard.toNat := by
  unfold underMib hardMib
  unfold mib at h ⊢
  omega

theorem lt_underMib_add_chunkMib (check : Check) :
    check.enforceHard.toNat < check.underMib * mib + check.chunkMib * mib := by
  unfold underMib chunkMib hardMib mib
  omega

theorem underMib_of_lt (h : check.enforceHard < mib) : check.underMib = 1 := by
  unfold underMib hardMib
  unfold mib at h ⊢
  omega

/-- A refused write of a backend which enforces the limit would have exceeded it. -/
theorem exceeds_of_refused {limit lag usage after count : ℕ} {text : String} {result : CommandResult}
    (h : EnforcesLimit check limit lag usage (.write text count) result after)
    (hexit : result.exitCode ≠ 0) : limit < usage + count * mib := by
  have ⟨stored, hstores, _, hsuccess, _⟩ := h
  exact hstores.exceeds (Nat.lt_of_le_of_ne hstores.le fun heq ↦ hexit (hsuccess.mpr heq))

theorem sound_of_le (h : (mib : ℤ) ≤ check.enforceHard) {lag : ℕ} {trace : List (Exchange ℕ Reply)}
    {outcome : Except ApiError Subtest}
    (hran : check.Ran (EnforcesLimit check check.enforceHard.toNat lag) 0 trace outcome)
    (hpasses : Passes outcome) : ∃ setting text count under after rest,
      trace = setting :: ⟨0, .write text count, under, after⟩ :: rest ∧
      under.exitCode = 0 ∧ count * mib ≤ check.enforceHard.toNat ∧
      ∃ before text' count' beyond after',
        (⟨before, .write text' count', beyond, after'⟩ : Exchange ℕ Reply) ∈ rest ∧
        beyond.exitCode ≠ 0 ∧ check.enforceHard.toNat < before + count' * mib := by
  have ⟨quota, tenantId, middle, text, under, after, rest, hset, htrace, hexit, beyond, hwrote,
    hrefused, _⟩ := passes_writes hran hpasses
  have ⟨before, text', after', hmem⟩ := hwrote
  have hmiddle : middle = 0 := hset.2
  rw [hmiddle] at htrace
  have ⟨_, _, _, _, _, _, hrun⟩ := hran
  have hstep := hrun.step_of_mem _
    (htrace ▸ List.mem_cons_of_mem _ (List.mem_cons_of_mem _ hmem))
  exact ⟨_, text, check.underMib, under, after, rest, htrace, hexit, underMib_le h, before, text',
    check.chunkMib, beyond, after', hmem, hrefused, exceeds_of_refused hstep hrefused⟩

theorem fails_of_ran {outcome : Except ApiError Subtest} (h : check.Ran step world trace outcome)
    (hother : ∀ before text count result after,
      (⟨before, .write text count, result, after⟩ : Exchange World Reply) ∈ trace →
        result.exitCode = 0 ∨ check.saysNoSpace result = false) : ¬ Passes outcome := by
  intro hpasses
  have ⟨_, _, _, _, _, _, rest, _, htrace, _, beyond, hwrote, hrefused, hreason⟩ :=
    passes_writes h hpasses
  have ⟨before, text, after, hmem⟩ := hwrote
  match hother before text check.chunkMib beyond after
    (htrace ▸ List.mem_cons_of_mem _ (List.mem_cons_of_mem _ hmem)) with
  | .inl hexit => exact hrefused hexit
  | .inr hspace => exact absurd hreason (by rw [hspace]; decide)

theorem passes_of_le (h : (mib : ℤ) ≤ check.enforceHard) {trace : List (Exchange ℕ Reply)}
    {outcome : Except ApiError Subtest}
    (hran : check.Ran (EnforcesLimit check check.enforceHard.toNat 0) 0 trace outcome) :
    Passes outcome := by
  have ⟨tag, quota, tenantId, dir, writer, final, hrun⟩ := hran
  have ⟨reply, middle, rest, _, hset, hcases⟩ := enforcement_execution hrun
  match hcases with
  | .inl ⟨hreply, _⟩ => exact absurd hset.1 hreply
  | .inr ⟨_, passed, message, hiff, hwrites⟩ =>
    have ⟨text, under, after, later, _, hstep, hunder⟩ := writePastLimit_execution hwrites
    have hmiddle : middle = 0 := hset.2
    have hfits := underMib_le h
    rw [hmiddle] at hstep
    match hunder with
    | .inl ⟨hrefused, _⟩ =>
      have hexceeds := exceeds_of_refused hstep hrefused
      omega
    | .inr ⟨hexit, last, written, houtcome, hloop⟩ =>
      have ⟨stored, _, hafter, hsuccess, _⟩ := hstep
      rw [hsuccess.mp hexit] at hafter
      have hcap : check.underMib < check.capMib := by
        unfold capMib underMib hardMib
        omega
      -- the first write of the loop does not fit any more
      rw [overWrites, if_pos hcap] at hloop
      have ⟨result, _, _, hover, _, hdone⟩ := Execution.call_iff.mp hloop
      have ⟨stored', hstores, _, hsuccess', hreason⟩ := hover
      have hexceeds := check.lt_underMib_add_chunkMib
      have hchunk := check.le_chunkMib
      have hcut := hstores.lt_of_exceeds (by unfold mib; omega) (by omega)
      have hrefused : result.exitCode ≠ 0 := fun heq ↦ Nat.ne_of_lt hcut (hsuccess'.mp heq)
      rw [if_pos hrefused] at hdone
      have hlast : last = result :=
        congrArg Prod.fst (Except.ok.inj (Execution.done_iff.mp hdone).2.2)
      have hverdict : passed = (check.verdict last written).1 :=
        congrArg Prod.fst (Except.ok.inj houtcome)
      rw [hiff, hverdict, verdict_passes, hlast]
      exact ⟨hrefused, hreason hcut⟩

/-- What `dd` prints when the space is used up. -/
def noSpace : CommandResult where
  exitCode := 1
  stdout := "no space left"
  stderr := ""

theorem saysNoSpace_noSpace (check : Check) : check.saysNoSpace noSpace = true := by
  have htext : s!"{noSpace.stdout}\n{noSpace.stderr}" = "no space left\n" := by decide
  rw [saysNoSpace, htext, check.host.lowerAscii _ (by decide)]
  decide

theorem stores_exact {limit usage size : ℕ} (h : usage ≤ limit) :
    Stores limit 0 usage size (min size (limit - usage)) where
  le := Nat.min_le_left _ _
  accepts := by
    intro byte hbyte
    exact ⟨usage + byte, ⟨by omega, by omega⟩, by omega⟩
  refuses := by
    intro hcut
    exact ⟨usage + (limit - usage), ⟨by omega, by omega⟩, by omega⟩

/-- A write which does not fit is refused with what `dd` prints. -/
theorem enforcesLimit_refuses {limit usage count : ℕ} {text : String} (h : usage ≤ limit)
    (hexceeds : limit < usage + count * mib) :
    EnforcesLimit check limit 0 usage (.write text count) noSpace limit := by
  have hstored : min (count * mib) (limit - usage) < count * mib := by omega
  refine ⟨_, stores_exact h, by omega, ?_, fun _ ↦ check.saysNoSpace_noSpace⟩
  exact ⟨fun hexit ↦ absurd hexit (by decide), fun heq ↦ absurd heq (Nat.ne_of_lt hstored)⟩

theorem enforcesLimit_stores {limit usage count : ℕ} {text : String}
    (hfits : usage + count * mib ≤ limit) :
    EnforcesLimit check limit 0 usage (.write text count) ⟨0, "", ""⟩ (usage + count * mib) := by
  have hstores : Stores limit 0 usage (count * mib) (min (count * mib) (limit - usage)) :=
    stores_exact (by omega)
  rw [show min (count * mib) (limit - usage) = count * mib by omega] at hstores
  refine ⟨_, hstores, rfl, Iff.intro (fun _ ↦ rfl) fun _ ↦ rfl, ?_⟩
  exact fun hcut ↦ absurd hcut (Nat.lt_irrefl _)

/-- A run from an empty directory, whose second write is refused. -/
theorem exists_run_of_le (h : (mib : ℤ) ≤ check.enforceHard) : ∃ trace outcome,
    check.Ran (EnforcesLimit check check.enforceHard.toNat 0) 0 trace outcome := by
  have hfits := underMib_le h
  have hexceeds := check.lt_underMib_add_chunkMib
  have hcap : check.underMib < check.capMib := by
    unfold capMib underMib hardMib
    omega
  have hloop : Execution (EnforcesLimit check check.enforceHard.toNat 0) (0 + check.underMib * mib)
      (check.overWrites (fun _ _ ↦ "") "" check.underMib 0 ⟨0, "", ""⟩ :
        Run ApiError (CommandResult × ℕ))
      [⟨0 + check.underMib * mib, .write "" check.chunkMib, noSpace, check.enforceHard.toNat⟩]
      check.enforceHard.toNat (.ok (noSpace, check.underMib)) := by
    rw [overWrites, if_pos hcap]
    exact .call (enforcesLimit_refuses (by omega) (by omega)) (.done _ _)
  have hwrites : Execution (EnforcesLimit check check.enforceHard.toNat 0) 0
      (check.writePastLimit (fun _ _ ↦ "") "" : Run ApiError (Bool × String))
      [⟨0, .write "" check.underMib, ⟨0, "", ""⟩, 0 + check.underMib * mib⟩,
        ⟨0 + check.underMib * mib, .write "" check.chunkMib, noSpace, check.enforceHard.toNat⟩]
      check.enforceHard.toNat (.ok (check.verdict noSpace check.underMib)) :=
    .call (enforcesLimit_stores (by omega))
      (Execution.bind_ok_iff.mpr ⟨_, _, _, _, (List.append_nil _).symm, hloop, .done _ _⟩)
  exact ⟨_, _, "", ⟨.directory, ⟨"", ""⟩, ""⟩, "", "", fun _ _ ↦ "", _,
    .call ⟨rfl, rfl⟩ (Execution.bind_ok_iff.mpr ⟨_, _, _, _, (List.append_nil _).symm, hwrites, .done _ _⟩)⟩

/-- With a limit of less than one MiB the first write already exceeds it. -/
theorem fails_of_lt (h : check.enforceHard < mib) : ∃ trace outcome,
    check.Ran (EnforcesLimit check check.enforceHard.toNat 0) 0 trace outcome ∧ ¬ Passes outcome := by
  have hrefuses : ∀ text, EnforcesLimit check check.enforceHard.toNat 0 0
      (.write text check.underMib) noSpace check.enforceHard.toNat := by
    intro text
    refine enforcesLimit_refuses (Nat.zero_le _) ?_
    rw [underMib_of_lt h]
    unfold mib at h ⊢
    omega
  have hrun : check.Ran (EnforcesLimit check check.enforceHard.toNat 0) 0 _ _ :=
    ⟨"", ⟨.directory, ⟨"", ""⟩, ""⟩, "", "", fun _ _ ↦ "", _,
      .call ⟨rfl, rfl⟩ (.call (hrefuses _) (.done _ _))⟩
  refine ⟨_, _, hrun, ?_⟩
  intro ⟨_, hok, hpassed, _⟩
  rw [← Except.ok.inj hok] at hpassed
  cases hpassed

/-- The verdict is exact for the limits of at least one MiB. -/
theorem verdictExact_iff (check : Check) : check.VerdictExact ↔ (mib : ℤ) ≤ check.enforceHard := by
  constructor
  · intro h
    by_contra hlt
    have ⟨trace, outcome, hran, hnot⟩ := fails_of_lt (not_le.mp hlt)
    exact hnot (h.passes hran)
  · intro h
    exact ⟨ends_of_ran, exists_run_of_le h, passes_of_le h, sound_of_le h, fails_of_ran⟩

/-! ## A limit below one MiB -/

/-- Strings of ASCII, and no documents. -/
def asciiHost : ProbeHost where
  lower := fun text ↦ text
  isSpace := fun c ↦ c == ' ' || c == '\n'
  isAlnum := Char.isAlphanum
  decimal := fun c ↦ if c.isDigit then some (c.toNat - '0'.toNat) else none
  loads := fun _ ↦ .error "Expecting value"
  str := fun _ ↦ ""
  lowerAscii := fun _ _ ↦ rfl

/-- The check of directory quotas with a limit of 512 KiB. -/
def halfMibCheck : Check := storageDirectoryQuotaEnforcementCheck asciiHost
  { enforcementHardBytes := some 524288 } "" none

/-- The subtest fails against a backend which enforces the limit exactly: it writes one MiB as the
write which is below the limit. -/
theorem half_mib_fails : 1 ≤ halfMibCheck.enforceHard ∧ halfMibCheck.underMib = 1 ∧
    (∃ trace outcome, halfMibCheck.Ran
      (EnforcesLimit halfMibCheck halfMibCheck.enforceHard.toNat 0) 0 trace outcome ∧
        ¬ Passes outcome) ∧ ¬ halfMibCheck.VerdictExact := by
  have hlt : halfMibCheck.enforceHard < mib := by decide
  have ⟨trace, outcome, hran, hnot⟩ := fails_of_lt hlt
  exact ⟨by decide, by decide, ⟨trace, outcome, hran, hnot⟩, fun h ↦ hnot (h.passes hran)⟩

/-- The limit a check has without configuration is one for which the verdict is exact. -/
example (host : ProbeHost) (kubectl : Option String) :
    (mib : ℤ) ≤ (storageUserQuotaEnforcementCheck host {} "" kubectl).enforceHard := by
  change (mib : ℤ) ≤ 64 * mib
  decide

end Check

end IsvValidation.Storage.QuotaProbe
