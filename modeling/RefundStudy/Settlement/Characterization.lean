/-
  When the evaluator establishes settlement, in terms of the samples alone.
-/
import RefundStudy.Settlement.Window

set_option autoImplicit false

namespace RefundStudy.Settlement

open Record

/-! ## Settled windows -/

variable (judged : List SettlementSample)

/-- The sample before a position; the first sample has none. -/
def predecessor : Nat → Option SettlementSample
  | 0 => none
  | index + 1 => judged[index]?

/-- The sample at a position is inactive relative to its predecessor. -/
def InactiveAt (index : Nat) : Prop :=
  ∃ sample, judged[index]? = some sample ∧
    activityCauses sample (predecessor judged index) = []

/-- A window may start at a position: it is the first one, or the sample before it is active. -/
def OpensAt : Nat → Prop
  | 0 => True
  | index + 1 => ¬ InactiveAt judged index

/-- The sample at `until_` is an observation at least `stabilizationMs` after the one at `start`. -/
def CompletesAt (policy : SettlementPolicy) (judged : List SettlementSample)
    (start until_ : Nat) : Prop :=
  start ≤ until_ ∧ ∃ first last, judged[start]? = some first ∧ judged[until_]? = some last ∧
    last.phase = .observation ∧ first.observedAt + policy.stabilizationMs ≤ last.observedAt

/-- A window from `start`, completed at `until_` and rechecked at `recheck`, settles the samples. -/
structure SettledBy (policy : SettlementPolicy) (judged : List SettlementSample)
    (start until_ recheck : Nat) : Prop where
  opens : OpensAt judged start
  quiet : ∀ index, start ≤ index → index ≤ recheck → InactiveAt judged index
  completes : CompletesAt policy judged start until_
  before : until_ < recheck
  rechecked : ∃ sample, judged[recheck]? = some sample ∧ sample.phase = .preFreezeRecheck

def restartAt (index : Nat) : Option SettlementRestart :=
  judged[index]?.bind fun sample =>
    (activityCauses sample (predecessor judged index)).head?.map fun cause =>
      ⟨sample.observedAt, if sample.phase = .preFreezeRecheck then .preFreezeActivity else cause⟩

/-- The restarts of the active samples before a position, in order. -/
def restartsBefore (index : Nat) : List SettlementRestart :=
  (List.range index).filterMap (restartAt judged)

/-! ## Longer histories -/

section Append

variable {policy : SettlementPolicy} {judged back : List SettlementSample} {index : Nat}

theorem predecessor_append (h : index ≤ judged.length) :
    predecessor (judged ++ back) index = predecessor judged index := by
  cases index with
  | zero => rfl
  | succ earlier => exact List.getElem?_append_left h

theorem predecessor_length (judged : List SettlementSample) :
    predecessor judged judged.length = judged.getLast? := by
  cases hlength : judged.length with
  | zero => simp [List.length_eq_zero_iff.mp hlength, predecessor]
  | succ earlier => rw [List.getLast?_eq_getElem?, hlength]; rfl

theorem inactiveAt_append (h : index < judged.length) :
    InactiveAt (judged ++ back) index ↔ InactiveAt judged index := by
  unfold InactiveAt
  rw [List.getElem?_append_left h, predecessor_append (Nat.le_of_lt h)]

theorem inactiveAt_concat {sample : SettlementSample} :
    InactiveAt (judged ++ [sample]) judged.length ↔
      activityCauses sample judged.getLast? = [] := by
  unfold InactiveAt
  rw [predecessor_append (Nat.le_refl _), predecessor_length]
  simp

theorem opensAt_append (h : index ≤ judged.length) :
    OpensAt (judged ++ back) index ↔ OpensAt judged index := by
  cases index with
  | zero => exact Iff.rfl
  | succ earlier => exact not_congr (inactiveAt_append h)

theorem completesAt_append {start until_ : Nat} (h : until_ < judged.length) :
    CompletesAt policy (judged ++ back) start until_ ↔ CompletesAt policy judged start until_ := by
  unfold CompletesAt
  constructor
  · intro hcompletes
    refine ⟨hcompletes.1, ?_⟩
    have hstart : start < judged.length := Nat.lt_of_le_of_lt hcompletes.1 h
    rw [← List.getElem?_append_left h, ← List.getElem?_append_left hstart]
    exact hcompletes.2
  · intro hcompletes
    refine ⟨hcompletes.1, ?_⟩
    have hstart : start < judged.length := Nat.lt_of_le_of_lt hcompletes.1 h
    rw [List.getElem?_append_left h, List.getElem?_append_left hstart]
    exact hcompletes.2

theorem CompletesAt.lt_length {start until_ : Nat} (h : CompletesAt policy judged start until_) :
    until_ < judged.length := by
  obtain ⟨-, first, last, -, hlast, -⟩ := h
  exact (List.getElem?_eq_some_iff.mp hlast).1

theorem settledBy_append {start until_ recheck : Nat} (h : recheck < judged.length) :
    SettledBy policy (judged ++ back) start until_ recheck ↔
      SettledBy policy judged start until_ recheck := by
  constructor
  · intro hsettled
    have huntil : until_ < judged.length := hsettled.before.trans h
    refine ⟨(opensAt_append (hsettled.completes.1.trans huntil.le)).mp hsettled.opens, ?_,
      (completesAt_append huntil).mp hsettled.completes, hsettled.before, ?_⟩
    · intro index hstart hrecheck
      exact (inactiveAt_append (Nat.lt_of_le_of_lt hrecheck h)).mp
        (hsettled.quiet index hstart hrecheck)
    · rw [← List.getElem?_append_left h]
      exact hsettled.rechecked
  · intro hsettled
    have huntil : until_ < judged.length := hsettled.before.trans h
    refine ⟨(opensAt_append (hsettled.completes.1.trans huntil.le)).mpr hsettled.opens, ?_,
      (completesAt_append huntil).mpr hsettled.completes, hsettled.before, ?_⟩
    · intro index hstart hrecheck
      exact (inactiveAt_append (Nat.lt_of_le_of_lt hrecheck h)).mpr
        (hsettled.quiet index hstart hrecheck)
    · rw [List.getElem?_append_left h]
      exact hsettled.rechecked

theorem restartAt_append (h : index < judged.length) :
    restartAt (judged ++ back) index = restartAt judged index := by
  unfold restartAt
  rw [List.getElem?_append_left h, predecessor_append (Nat.le_of_lt h)]

theorem restartsBefore_append (h : index ≤ judged.length) :
    restartsBefore (judged ++ back) index = restartsBefore judged index := by
  unfold restartsBefore
  apply List.filterMap_congr
  intro earlier hearlier
  exact restartAt_append (Nat.lt_of_lt_of_le (List.mem_range.mp hearlier) h)

theorem restartsBefore_succ (judged : List SettlementSample) (index : Nat) :
    restartsBefore judged (index + 1) =
      restartsBefore judged index ++ (restartAt judged index).toList := by
  unfold restartsBefore
  rw [List.range_succ, List.filterMap_append]
  cases h : restartAt judged index <;> simp [h]

end Append

/-! ## The run at the end -/

/-- The maximal quiet run that reaches the last judged sample starts here. -/
structure RunFrom (judged : List SettlementSample) (start : Nat) : Prop where
  inside : start < judged.length
  opens : OpensAt judged start
  quiet : ∀ index, start ≤ index → index < judged.length → InactiveAt judged index

section Run

variable {policy : SettlementPolicy} {judged : List SettlementSample} {sample : SettlementSample}
  {start other until_ recheck : Nat}

theorem RunFrom.unique (h : RunFrom judged start) (h' : RunFrom judged other) : start = other := by
  have hnot : ∀ {first second : Nat}, RunFrom judged first → RunFrom judged second →
      ¬ first < second := by
    intro first second hfirst hsecond hlt
    cases second with
    | zero => omega
    | succ earlier =>
      exact hsecond.opens (hfirst.quiet earlier (by omega) (by have := hsecond.inside; omega))
  have hle := hnot h h'
  have hge := hnot h' h
  omega

/-- The run at the end of one more sample: there is none behind an active sample; a quiet one
continues the run before it or starts one. -/
theorem runFrom_concat :
    RunFrom (judged ++ [sample]) start ↔
      activityCauses sample judged.getLast? = [] ∧
        (RunFrom judged start ∨ (start = judged.length ∧ OpensAt judged judged.length)) := by
  constructor
  · intro hrun
    have hlast : judged.length < (judged ++ [sample]).length := by simp
    have hinside := hrun.inside
    rw [List.length_append, List.length_singleton] at hinside
    refine ⟨inactiveAt_concat.mp (hrun.quiet judged.length (by omega) hlast), ?_⟩
    by_cases hstart : start < judged.length
    · refine Or.inl ⟨hstart, (opensAt_append hstart.le).mp hrun.opens, ?_⟩
      intro index hle hlt
      exact (inactiveAt_append hlt).mp
        (hrun.quiet index hle (by rw [List.length_append]; omega))
    · obtain rfl : start = judged.length := by omega
      exact Or.inr ⟨rfl, (opensAt_append (Nat.le_refl _)).mp hrun.opens⟩
  · intro h
    obtain ⟨hquiet, hrun | ⟨rfl, hopens⟩⟩ := h
    · refine ⟨by rw [List.length_append]; have := hrun.inside; omega,
        (opensAt_append hrun.inside.le).mpr hrun.opens, ?_⟩
      intro index hle hlt
      rw [List.length_append, List.length_singleton] at hlt
      by_cases hindex : index < judged.length
      · exact (inactiveAt_append hindex).mpr (hrun.quiet index hle hindex)
      · obtain rfl : index = judged.length := by omega
        exact inactiveAt_concat.mpr hquiet
    · refine ⟨by simp, (opensAt_append (Nat.le_refl _)).mpr hopens, ?_⟩
      intro index hle hlt
      rw [List.length_append, List.length_singleton] at hlt
      obtain rfl : index = judged.length := by omega
      exact inactiveAt_concat.mpr hquiet

/-- Either a run reaches the end or a window may start behind it. -/
theorem opensAt_length_of_no_run (h : ∀ start, ¬ RunFrom judged start) :
    OpensAt judged judged.length := by
  induction judged using List.reverseRecOn with
  | nil => exact trivial
  | append_singleton front sample ih =>
    rw [List.length_append, List.length_singleton]
    intro hinactive
    have hquiet := inactiveAt_concat.mp hinactive
    by_cases hfront : ∃ start, RunFrom front start
    · obtain ⟨start, hrun⟩ := hfront
      exact h start (runFrom_concat.mpr ⟨hquiet, Or.inl hrun⟩)
    · exact h front.length (runFrom_concat.mpr
        ⟨hquiet, Or.inr ⟨rfl, ih (fun start hrun => hfront ⟨start, hrun⟩)⟩⟩)

/-- One more sample settles the window exactly when it is a quiet recheck behind a completed run. -/
theorem settledBy_concat :
    SettledBy policy (judged ++ [sample]) start until_ judged.length ↔
      activityCauses sample judged.getLast? = [] ∧ sample.phase = .preFreezeRecheck ∧
        RunFrom judged start ∧ CompletesAt policy judged start until_ := by
  constructor
  · intro hsettled
    have huntil := hsettled.before
    have hstart : start < judged.length := Nat.lt_of_le_of_lt hsettled.completes.1 huntil
    refine ⟨inactiveAt_concat.mp (hsettled.quiet _ hstart.le (Nat.le_refl _)), ?_,
      ⟨hstart, (opensAt_append hstart.le).mp hsettled.opens, ?_⟩,
      (completesAt_append huntil).mp hsettled.completes⟩
    · obtain ⟨found, hfound, hphase⟩ := hsettled.rechecked
      simp only [List.getElem?_concat_length, Option.some.injEq] at hfound
      rw [hfound]
      exact hphase
    · intro index hle hlt
      exact (inactiveAt_append hlt).mp (hsettled.quiet index hle hlt.le)
  · intro h
    obtain ⟨hquiet, hphase, hrun, hcompletes⟩ := h
    have huntil := hcompletes.lt_length
    refine ⟨(opensAt_append hrun.inside.le).mpr hrun.opens, ?_,
      (completesAt_append huntil).mpr hcompletes, huntil, sample, by simp, hphase⟩
    intro index hle hrecheck
    by_cases hindex : index < judged.length
    · exact (inactiveAt_append hindex).mpr (hrun.quiet index hle hindex)
    · obtain rfl : index = judged.length := by omega
      exact inactiveAt_concat.mpr hquiet

end Run

/-! ## The loop -/

/-- The loop's variables, in terms of the samples judged so far. -/
structure Scan (policy : SettlementPolicy) (judged : List SettlementSample)
    (state : EvaluatorState) : Prop where
  previous : state.previous = judged.getLast?
  restarts : state.restarts = restartsBefore judged judged.length
  opened : ∀ first, state.windowStart = some first → ∃ start,
    judged[start]? = some first ∧ RunFrom judged start
  unopened : state.windowStart = none → ∀ start, ¬ RunFrom judged start
  completed : ∀ last, state.quietUntil = some last → ∃ start until_,
    RunFrom judged start ∧ judged[until_]? = some last ∧ CompletesAt policy judged start until_ ∧
      ∀ other, CompletesAt policy judged start other → other ≤ until_
  incomplete : state.quietUntil = none → ∀ start until_, RunFrom judged start →
    ¬ CompletesAt policy judged start until_
  unsettled : ∀ start until_ recheck, ¬ SettledBy policy judged start until_ recheck

section Loop

variable {policy : SettlementPolicy} {judged : List SettlementSample} {sample : SettlementSample}
  {state state' : EvaluatorState}

theorem scan_start : Scan policy [] EvaluatorState.start := by
  have hnorun : ∀ start, ¬ RunFrom [] start := by
    intro start hrun
    exact absurd hrun.inside (Nat.not_lt_zero _)
  refine ⟨rfl, rfl, ?_, fun _ => hnorun, ?_, ?_, ?_⟩
  · intro first hfirst
    cases hfirst
  · intro last hlast
    cases hlast
  · intro _ start until_ hrun
    exact absurd hrun (hnorun start)
  · intro start until_ recheck hsettled
    obtain ⟨found, hfound, -⟩ := hsettled.rechecked
    cases hfound

theorem restartAt_concat : restartAt (judged ++ [sample]) judged.length =
    (activityCauses sample judged.getLast?).head?.map fun cause =>
      ⟨sample.observedAt,
        if sample.phase = .preFreezeRecheck then .preFreezeActivity else cause⟩ := by
  unfold restartAt
  rw [predecessor_append (Nat.le_refl _), predecessor_length]
  simp

theorem restartsBefore_concat : restartsBefore (judged ++ [sample]) (judged ++ [sample]).length =
    restartsBefore judged judged.length ++
      (restartAt (judged ++ [sample]) judged.length).toList := by
  rw [List.length_append, List.length_singleton, restartsBefore_succ,
    restartsBefore_append (Nat.le_refl _)]

theorem completesAt_concat {start : Nat} :
    CompletesAt policy (judged ++ [sample]) start judged.length ↔
      ∃ first, (judged ++ [sample])[start]? = some first ∧ sample.phase = .observation ∧
        first.observedAt + policy.stabilizationMs ≤ sample.observedAt := by
  unfold CompletesAt
  constructor
  · intro h
    obtain ⟨-, first, last, hfirst, hlast, hphase, hfar⟩ := h
    simp only [List.getElem?_concat_length, Option.some.injEq] at hlast
    subst hlast
    exact ⟨first, hfirst, hphase, hfar⟩
  · intro h
    obtain ⟨first, hfirst, hphase, hfar⟩ := h
    have hinside := (List.getElem?_eq_some_iff.mp hfirst).1
    rw [List.length_append, List.length_singleton] at hinside
    exact ⟨by omega, first, sample, hfirst, by simp, hphase, hfar⟩

/-- Nothing settles one sample more unless that sample does. -/
theorem unsettled_concat
    (hbefore : ∀ start until_ recheck, ¬ SettledBy policy judged start until_ recheck)
    (hlast : ∀ start until_, ¬ SettledBy policy (judged ++ [sample]) start until_ judged.length)
    (start until_ recheck : Nat) : ¬ SettledBy policy (judged ++ [sample]) start until_ recheck := by
  intro hsettled
  obtain ⟨found, hfound, -⟩ := hsettled.rechecked
  have hinside := (List.getElem?_eq_some_iff.mp hfound).1
  rw [List.length_append, List.length_singleton] at hinside
  by_cases hrecheck : recheck < judged.length
  · exact hbefore start until_ recheck ((settledBy_append hrecheck).mp hsettled)
  · obtain rfl : recheck = judged.length := by omega
    exact hlast start until_ hsettled

theorem Scan.restart (hscan : Scan policy judged state) {firstCause : SettlementRestartCause}
    {others : List SettlementRestartCause}
    (hcauses : activityCauses sample state.previous = firstCause :: others) :
    Scan policy (judged ++ [sample])
      (restartWindow state sample firstCause (firstCause :: others)) := by
  rw [hscan.previous] at hcauses
  have hnorun : ∀ start, ¬ RunFrom (judged ++ [sample]) start := by
    intro start hrun
    have hquiet := (runFrom_concat.mp hrun).1
    rw [hcauses] at hquiet
    cases hquiet
  refine ⟨by simp [restartWindow], ?_, ?_, fun _ => hnorun, ?_, ?_, ?_⟩
  · rw [restartsBefore_concat, restartAt_concat, hcauses, ← hscan.restarts]
    rfl
  · intro first hfirst
    cases hfirst
  · intro last hlast
    cases hlast
  · intro _ start until_ hrun
    exact absurd hrun (hnorun start)
  · apply unsettled_concat hscan.unsettled
    intro start until_ hsettled
    have hquiet := (settledBy_concat.mp hsettled).1
    rw [hcauses] at hquiet
    cases hquiet

/-- A quiet sample continues the window or starts one; either way the window has a position. -/
theorem Scan.windowed (hscan : Scan policy judged state)
    (hquiet : activityCauses sample judged.getLast? = []) :
    ∃ start, (judged ++ [sample])[start]? = some (state.windowStart.getD sample) ∧
      RunFrom (judged ++ [sample]) start := by
  cases hopen : state.windowStart with
  | none =>
    have hopens := opensAt_length_of_no_run (hscan.unopened hopen)
    exact ⟨judged.length, by simp, runFrom_concat.mpr ⟨hquiet, Or.inr ⟨rfl, hopens⟩⟩⟩
  | some first =>
    obtain ⟨start, hfirst, hrun⟩ := hscan.opened first hopen
    refine ⟨start, ?_, runFrom_concat.mpr ⟨hquiet, Or.inl hrun⟩⟩
    rw [List.getElem?_append_left hrun.inside]
    exact hfirst

theorem Scan.completed_concat (hscan : Scan policy judged state)
    (hquiet : activityCauses sample judged.getLast? = []) {last : SettlementSample}
    (hlast : state.quietUntil = some last)
    (hnear : ∀ start, RunFrom (judged ++ [sample]) start →
      ¬ CompletesAt policy (judged ++ [sample]) start judged.length) :
    ∃ start until_, RunFrom (judged ++ [sample]) start ∧
      (judged ++ [sample])[until_]? = some last ∧
      CompletesAt policy (judged ++ [sample]) start until_ ∧
      ∀ other, CompletesAt policy (judged ++ [sample]) start other → other ≤ until_ := by
  obtain ⟨start, until_, hrun, hfound, hcompletes, hmax⟩ := hscan.completed last hlast
  have hrun' : RunFrom (judged ++ [sample]) start := runFrom_concat.mpr ⟨hquiet, Or.inl hrun⟩
  have huntil := hcompletes.lt_length
  refine ⟨start, until_, hrun', ?_, (completesAt_append huntil).mpr hcompletes, ?_⟩
  · rw [List.getElem?_append_left huntil]
    exact hfound
  · intro other hother
    have hinside := hother.lt_length
    rw [List.length_append, List.length_singleton] at hinside
    by_cases hbefore : other < judged.length
    · exact hmax other ((completesAt_append hbefore).mp hother)
    · obtain rfl : other = judged.length := by omega
      exact absurd hother (hnear start hrun')

theorem Scan.extend (hscan : Scan policy judged state)
    (hquiet : activityCauses sample state.previous = [])
    (hopen : sample.phase = .preFreezeRecheck → state.windowStart ≠ none →
      state.quietUntil = none) :
    Scan policy (judged ++ [sample]) (extendWindow policy state sample) := by
  rw [hscan.previous] at hquiet
  obtain ⟨start, hfirst, hrun⟩ := hscan.windowed hquiet
  -- the new sample completes the window exactly when the loop moves `quietUntil` to it
  have hcompletes : ∀ other, RunFrom (judged ++ [sample]) other →
      (CompletesAt policy (judged ++ [sample]) other judged.length ↔
        sample.phase = .observation ∧
          (state.windowStart.getD sample).observedAt + policy.stabilizationMs ≤
            sample.observedAt) := by
    intro other hother
    rw [hother.unique hrun, completesAt_concat, hfirst]
    simp
  refine ⟨by simp [extendWindow], ?_, ?_, ?_, ?_, ?_, ?_⟩
  · rw [restartsBefore_concat, restartAt_concat, hquiet, ← hscan.restarts]
    simp [extendWindow]
  · intro first hopened
    cases Option.some.inj hopened
    exact ⟨start, hfirst, hrun⟩
  · intro hnone
    cases hnone
  · intro last hlast
    simp only [extendWindow] at hlast
    split at hlast
    · rename_i hfar
      cases Option.some.inj hlast
      refine ⟨start, judged.length, hrun, by simp, (hcompletes start hrun).mpr hfar, ?_⟩
      intro other hother
      have hinside := hother.lt_length
      rw [List.length_append, List.length_singleton] at hinside
      omega
    · rename_i hnear
      exact hscan.completed_concat hquiet hlast
        (fun other hother hcomplete => hnear ((hcompletes other hother).mp hcomplete))
  · intro hnone other until_ hother hcomplete
    simp only [extendWindow] at hnone
    split at hnone
    · cases hnone
    · rename_i hnear
      have hinside := hcomplete.lt_length
      rw [List.length_append, List.length_singleton] at hinside
      by_cases hbefore : until_ < judged.length
      · have hstart := hcomplete.1
        rcases (runFrom_concat.mp hother).2 with hold | ⟨hnew, -⟩
        · exact hscan.incomplete hnone other until_ hold ((completesAt_append hbefore).mp hcomplete)
        · omega
      · obtain rfl : until_ = judged.length := by omega
        exact hnear ((hcompletes other hother).mp hcomplete)
  · apply unsettled_concat hscan.unsettled
    intro other until_ hsettled
    obtain ⟨-, hphase, hold, hcomplete⟩ := settledBy_concat.mp hsettled
    have hopened : state.windowStart ≠ none := fun hnone => hscan.unopened hnone other hold
    exact hscan.incomplete (hopen hphase hopened) other until_ hold hcomplete

theorem Scan.step (hscan : Scan policy judged state)
    (h : judgeSample policy state sample = .ok state') :
    Scan policy (judged ++ [sample]) state' := by
  have hcases := judgeSample_cases policy state sample
  rw [h] at hcases
  cases hcases with
  | restarts firstCause others hcauses => exact hscan.restart hcauses
  | continues hquiet hopen => exact hscan.extend hquiet hopen

theorem judgeSamples_scan (h : judgeSamples policy judged = .ok state) :
    Scan policy judged state := by
  induction judged using List.reverseRecOn generalizing state with
  | nil =>
    obtain rfl : EvaluatorState.start = state := Except.ok.inj h
    exact scan_start
  | append_singleton front sample ih =>
    obtain ⟨before, hfront, hjudged⟩ := judgeSamples_front h
    exact (ih hfront).step hjudged

def instantAt (judged : List SettlementSample) (index : Nat) : Option UtcMillis :=
  judged[index]?.map SettlementSample.observedAt

/-- What an established assessment says: its recheck is the earliest one that settles, and the
completing observation the last one before it. -/
structure EstablishedBy (policy : SettlementPolicy) (judged : List SettlementSample)
    (members : Established) (start until_ recheck : Nat) : Prop where
  settled : SettledBy policy judged start until_ recheck
  earliest : ∀ start' until' recheck', SettledBy policy judged start' until' recheck' →
    recheck ≤ recheck'
  last : ∀ until', SettledBy policy judged start until' recheck → until' ≤ until_
  windowStart : instantAt judged start = some members.windowStart
  establishedAt : instantAt judged until_ = some members.establishedAt
  recheckedAt : instantAt judged recheck = some members.recheckedAt
  restarts : members.restarts = restartsBefore judged recheck

theorem judgeSamples_establishedBy {members : Established}
    (h : judgeSamples policy judged = .error members) :
    ∃ start until_ recheck, EstablishedBy policy judged members start until_ recheck := by
  obtain ⟨front, recheck, back, state, rfl, hstate, hjudged⟩ := judgeSamples_error h
  have hscan := judgeSamples_scan hstate
  have hcases := judgeSample_cases policy state recheck
  rw [hjudged] at hcases
  cases hcases with
  | establishes first last hquiet hphase hstart huntil =>
    rw [hscan.previous] at hquiet
    obtain ⟨start, hfirst, hrun⟩ := hscan.opened first hstart
    obtain ⟨start', until_, hrun', hlast, hcompletes, hmax⟩ := hscan.completed last huntil
    cases hrun.unique hrun'
    have hsplit : front ++ recheck :: back = (front ++ [recheck]) ++ back := by simp
    have hinside : front.length < (front ++ [recheck]).length := by simp
    have hsettles : ∀ {other : Nat}, SettledBy policy (front ++ recheck :: back) start other
        front.length ↔ CompletesAt policy front start other := by
      intro other
      rw [hsplit, settledBy_append hinside, settledBy_concat]
      exact ⟨fun h => h.2.2.2, fun h => ⟨hquiet, hphase, hrun, h⟩⟩
    have huntil := hcompletes.lt_length
    refine ⟨start, until_, front.length, hsettles.mpr hcompletes, ?_,
      fun other hother => hmax other (hsettles.mp hother), ?_, ?_, ?_, ?_⟩
    · intro other others recheck' hsettled
      by_contra hlt
      exact hscan.unsettled other others recheck'
        ((settledBy_append (by omega)).mp hsettled)
    · unfold instantAt
      rw [List.getElem?_append_left hrun.inside, hfirst]
      rfl
    · unfold instantAt
      rw [List.getElem?_append_left huntil, hlast]
      rfl
    · simp [instantAt]
    · rw [restartsBefore_append (Nat.le_refl _)]
      exact hscan.restarts

end Loop

/-- `evaluateSettlement`, characterized: it is established exactly when some window settles the
judged samples, and then its members are those of the earliest recheck that settles. -/
theorem evaluateSettlement_characterized (samples : List SettlementSample)
    (policy : SettlementPolicy) (publishedAt : UtcMillis) :
    ((evaluateSettlement samples policy publishedAt).isEstablished = true ↔
      ∃ start until_ recheck,
        SettledBy policy (judgedSamples samples policy publishedAt) start until_ recheck) ∧
    ∀ members, evaluateSettlement samples policy publishedAt = .established members →
      ∃ start until_ recheck,
        EstablishedBy policy (judgedSamples samples policy publishedAt) members start until_
          recheck := by
  constructor
  · rw [evaluateSettlement_isEstablished]
    constructor
    · intro h
      obtain ⟨members, hmembers⟩ := h
      obtain ⟨start, until_, recheck, hestablished⟩ := judgeSamples_establishedBy hmembers
      exact ⟨start, until_, recheck, hestablished.settled⟩
    · intro h
      obtain ⟨start, until_, recheck, hsettled⟩ := h
      cases hjudged : judgeSamples policy (judgedSamples samples policy publishedAt) with
      | error members => exact ⟨members, rfl⟩
      | ok state =>
        exact absurd hsettled ((judgeSamples_scan hjudged).unsettled start until_ recheck)
  · intro members h
    exact judgeSamples_establishedBy (evaluateSettlement_established.mp h)

end RefundStudy.Settlement
