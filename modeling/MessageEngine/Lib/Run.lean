import MessageEngine.Lib.Outcome

/-!
# Runs of a checked step function

A system is a step function: an input and a state give an output and the next state, or stop the
run with an error. A run is a list of inputs.

`Along` says that a condition on input and state before the step holds at every step of a run;
`EachStep` that a law relating the outputs so far to the step just taken does. Both walk the run
itself and end where the run ends, so on a concrete run they can be evaluated.

Every law about runs comes from the same two facts about one step: the start satisfies an
invariant, and a step from a state that satisfies it re-establishes it and obeys the law
(`eachStep_of_inv`); where a step breaks the law unless a condition holds, the condition is exact
(`eachStep_iff_along`). A law that looks back at the states of a run is one about its `history`
(`history_inv`).
-/

namespace Run

variable {ε ι σ ο : Type}

/-- The outputs and the final state of a run. -/
def runAll (step : ι → σ → Except ε (ο × σ)) : List ι → σ → Except ε (List ο × σ)
  | [], s => .ok ([], s)
  | i :: is, s => do
    let (o, s) ← step i s
    let (os, s) ← runAll step is s
    pure (o :: os, s)

/-- The condition holds before every step of the run. -/
def Along (step : ι → σ → Except ε (ο × σ)) (cond : σ → ι → Prop) : List ι → σ → Prop
  | [], _ => True
  | i :: is, s => cond s i ∧
    match step i s with
    | .ok (_, s') => Along step cond is s'
    | .error _ => True

/-- The law holds of every step of the run: of the outputs before it, the state before it, the
input, the output and the state after it. -/
def EachStep (step : ι → σ → Except ε (ο × σ)) (law : List ο → σ → ι → ο → σ → Prop) :
    List ο → List ι → σ → Prop
  | _, [], _ => True
  | past, i :: is, s =>
    match step i s with
    | .ok (o, s') => law past s i o s' ∧ EachStep step law (past ++ [o]) is s'
    | .error _ => True

variable {step : ι → σ → Except ε (ο × σ)} {cond : σ → ι → Prop}

instance decidableAlong [∀ s i, Decidable (cond s i)] :
    ∀ (is : List ι) (s : σ), Decidable (Along step cond is s)
  | [], _ => .isTrue trivial
  | i :: is, s =>
    have : Decidable (match step i s with
        | .ok (_, s') => Along step cond is s'
        | .error _ => True) :=
      match step i s with
      | .ok (_, s') => decidableAlong is s'
      | .error _ => .isTrue trivial
    inferInstanceAs (Decidable (_ ∧ _))

instance decidableEachStep {law : List ο → σ → ι → ο → σ → Prop}
    [decLaw : ∀ past s i o s', Decidable (law past s i o s')] :
    ∀ (past : List ο) (is : List ι) (s : σ), Decidable (EachStep step law past is s)
  | _, [], _ => .isTrue trivial
  | past, i :: is, s =>
    let decide : (r : Except ε (ο × σ)) → Decidable (match r with
        | .ok (o, s') => law past s i o s' ∧ EachStep step law (past ++ [o]) is s'
        | .error _ => True)
      | .ok (o, s') =>
        @instDecidableAnd _ _ (decLaw past s i o s') (decidableEachStep (past ++ [o]) is s')
      | .error _ => .isTrue trivial
    decide (step i s)

theorem along_cons {i : ι} {is : List ι} {s : σ} :
    Along step cond (i :: is) s ↔
      cond s i ∧ ∀ o s', step i s = .ok (o, s') → Along step cond is s' := by
  rw [Along]
  cases h : step i s with
  | ok r =>
    obtain ⟨o, s'⟩ := r
    simp
  | error e => simp

theorem eachStep_cons {law : List ο → σ → ι → ο → σ → Prop} {past : List ο} {i : ι} {is : List ι}
    {s : σ} : EachStep step law past (i :: is) s ↔
      ∀ o s', step i s = .ok (o, s') → law past s i o s' ∧ EachStep step law (past ++ [o]) is s' := by
  rw [EachStep]
  cases h : step i s with
  | ok r =>
    obtain ⟨o, s'⟩ := r
    simp
  | error e => simp

theorem Along.of_forall (h : ∀ s i, cond s i) (is : List ι) (s : σ) : Along step cond is s := by
  induction is generalizing s with
  | nil => trivial
  | cons i is ih => exact along_cons.mpr ⟨h s i, fun _ s' _ => ih s'⟩

theorem Along.and {cond' : σ → ι → Prop} {is : List ι} {s : σ} (h : Along step cond is s)
    (h' : Along step cond' is s) : Along step (fun s i => cond s i ∧ cond' s i) is s := by
  induction is generalizing s with
  | nil => trivial
  | cons i is ih =>
    rw [along_cons] at h h' ⊢
    exact ⟨⟨h.1, h'.1⟩, fun o s' hs => ih (h.2 o s' hs) (h'.2 o s' hs)⟩

/-- What holds of every input can be asked at every step. -/
theorem Along.and_inputs {p : ι → Prop} {is : List ι} {s : σ} (h : Along step cond is s)
    (hall : ∀ i ∈ is, p i) : Along step (fun s i => cond s i ∧ p i) is s := by
  induction is generalizing s with
  | nil => trivial
  | cons i is ih =>
    rw [along_cons] at h ⊢
    refine ⟨⟨h.1, hall i List.mem_cons_self⟩, fun o s' hs => ?_⟩
    exact ih (h.2 o s' hs) fun j hj => hall j (List.mem_cons_of_mem i hj)

/-- The invariant rule: what every step from a good state obeys, every step of a run obeys. -/
theorem eachStep_of_inv {law : List ο → σ → ι → ο → σ → Prop} (Inv : List ο → σ → Prop)
    (preserved : ∀ past s i o s', Inv past s → cond s i → step i s = .ok (o, s') →
      law past s i o s' ∧ Inv (past ++ [o]) s')
    (is : List ι) (past : List ο) (s : σ) (start : Inv past s) (along : Along step cond is s) :
    EachStep step law past is s := by
  induction is generalizing past s with
  | nil => trivial
  | cons i is ih =>
    rw [eachStep_cons]
    intro o s' hs
    obtain ⟨hc, hrest⟩ := along_cons.mp along
    obtain ⟨hlaw, hinv⟩ := preserved past s i o s' start hc hs
    exact ⟨hlaw, ih (past ++ [o]) s' hinv (hrest o s' hs)⟩

/-- The exact rule: when a step from a good state obeys the law if the condition holds and breaks it
if not, a run obeys the law at every step exactly when the condition holds along it. -/
theorem eachStep_iff_along {pre : σ → ι → Prop} {law : List ο → σ → ι → ο → σ → Prop}
    (Inv : List ο → σ → Prop)
    (kept : ∀ past s i o s', Inv past s → pre s i → cond s i → step i s = .ok (o, s') →
      law past s i o s' ∧ Inv (past ++ [o]) s')
    (broken : ∀ past s i, Inv past s → pre s i → ¬ cond s i →
      ∃ o s', step i s = .ok (o, s') ∧ ¬ law past s i o s')
    (is : List ι) (past : List ο) (s : σ) (start : Inv past s) (along : Along step pre is s) :
    EachStep step law past is s ↔ Along step cond is s := by
  induction is generalizing past s with
  | nil => exact ⟨fun _ => trivial, fun _ => trivial⟩
  | cons i is ih =>
    obtain ⟨hpre, hrest⟩ := along_cons.mp along
    rw [eachStep_cons, along_cons]
    constructor
    · intro h
      have hcond : cond s i := by
        by_contra hnot
        obtain ⟨o, s', hs, hbad⟩ := broken past s i start hpre hnot
        exact hbad (h o s' hs).1
      refine ⟨hcond, fun o s' hs => ?_⟩
      have hinv := (kept past s i o s' start hpre hcond hs).2
      exact (ih (past ++ [o]) s' hinv (hrest o s' hs)).mp (h o s' hs).2
    · rintro ⟨hcond, h⟩ o s' hs
      obtain ⟨hlaw, hinv⟩ := kept past s i o s' start hpre hcond hs
      exact ⟨hlaw, (ih (past ++ [o]) s' hinv (hrest o s' hs)).mpr (h o s' hs)⟩

/-- A law that implies another: where the other fails, so does the first. -/
theorem EachStep.mono {law : List ο → σ → ι → ο → σ → Prop} {is : List ι} {past : List ο} {s : σ}
    (h : EachStep step law past is s) (other : List ο → σ → ι → ο → σ → Prop)
    (weaker : ∀ past s i o s', law past s i o s' → other past s i o s') :
    EachStep step other past is s := by
  induction is generalizing past s with
  | nil => trivial
  | cons i is ih =>
    rw [eachStep_cons] at h ⊢
    intro o s' hs
    obtain ⟨hlaw, hrest⟩ := h o s' hs
    exact ⟨weaker past s i o s' hlaw, ih hrest⟩

/-- The partial rule: an invariant that every step that returns keeps, every run that returns
keeps. -/
theorem runAll_inv {I : σ → Prop} {is : List ι} {s s' : σ} {os : List ο}
    (preserved : ∀ i ∈ is, ∀ s o s', I s → step i s = .ok (o, s') → I s')
    (start : I s) (h : runAll step is s = .ok (os, s')) : I s' := by
  induction is generalizing s os with
  | nil =>
    cases h
    exact start
  | cons i is ih =>
    obtain ⟨⟨o, s₁⟩, h₁, h⟩ := Outcome.bind_eq_ok.mp h
    obtain ⟨⟨os', s₂⟩, h₂, h⟩ := Outcome.bind_eq_ok.mp h
    cases h
    have hinv := preserved i List.mem_cons_self s o s₁ start h₁
    exact ih (fun j hj => preserved j (List.mem_cons_of_mem i hj)) hinv h₂

/-- A run with one more step. -/
theorem runAll_concat {is : List ι} {i : ι} {s s'' : σ} {os' : List ο} :
    runAll step (is ++ [i]) s = .ok (os', s'') ↔
      ∃ os s' o, runAll step is s = .ok (os, s') ∧ step i s' = .ok (o, s'') ∧ os' = os ++ [o] := by
  induction is generalizing s os' with
  | nil =>
    constructor
    · intro h
      obtain ⟨⟨o, s₁⟩, hstep, h⟩ := Outcome.bind_eq_ok.mp h
      cases h
      exact ⟨[], s, o, rfl, hstep, rfl⟩
    · rintro ⟨os, s', o, hrun, hstep, rfl⟩
      cases hrun
      exact Outcome.bind_eq_ok.mpr ⟨(o, s''), hstep, rfl⟩
  | cons j is ih =>
    constructor
    · intro h
      obtain ⟨⟨o₁, s₁⟩, hfirst, h⟩ := Outcome.bind_eq_ok.mp h
      obtain ⟨⟨os₁, s₂⟩, hrest, h⟩ := Outcome.bind_eq_ok.mp h
      cases h
      obtain ⟨os, s', o, hrun, hstep, rfl⟩ := ih.mp hrest
      refine ⟨o₁ :: os, s', o, ?_, hstep, rfl⟩
      exact Outcome.bind_eq_ok.mpr ⟨(o₁, s₁), hfirst, Outcome.bind_eq_ok.mpr ⟨(os, s'), hrun, rfl⟩⟩
    · rintro ⟨os, s', o, hrun, hstep, rfl⟩
      obtain ⟨⟨o₁, s₁⟩, hfirst, hrun⟩ := Outcome.bind_eq_ok.mp hrun
      obtain ⟨⟨os₁, s₂⟩, hrest, hrun⟩ := Outcome.bind_eq_ok.mp hrun
      cases hrun
      have hall := ih.mpr ⟨os₁, s', o, hrest, hstep, rfl⟩
      exact Outcome.bind_eq_ok.mpr ⟨(o₁, s₁), hfirst, Outcome.bind_eq_ok.mpr ⟨(os₁ ++ [o], s''), hall, rfl⟩⟩

/-- A run stops in a step that fails: when every failure of the run is harmless, every step of it
fails harmlessly, and the other way round. -/
theorem runAll_error_iff {I : σ → Prop} {harmless : ε → Prop} {is : List ι} {s : σ}
    (preserved : ∀ i ∈ is, ∀ s o s', I s → step i s = .ok (o, s') → I s')
    (fails : ∀ i ∈ is, ∀ s, I s → (cond s i ↔ ∀ f, step i s = .error f → harmless f)) (start : I s) :
    (∀ f, runAll step is s = .error f → harmless f) ↔ Along step cond is s := by
  induction is generalizing s with
  | nil =>
    refine ⟨fun _ => trivial, fun _ f h => ?_⟩
    cases h
  | cons i is ih =>
    have hfails := fails i List.mem_cons_self s start
    rw [along_cons, hfails]
    cases hs : step i s with
    | error f =>
      constructor
      · intro h
        refine ⟨fun f' hf => h f' ?_, fun o s' hok => ?_⟩
        · rw [runAll, hs, Outcome.error_bind, Except.error.inj hf]
        · cases hok
      · rintro ⟨h, -⟩ f' hf
        rw [runAll, hs, Outcome.error_bind] at hf
        cases hf
        exact h f rfl
    | ok r =>
      obtain ⟨o, s'⟩ := r
      have hrest := ih (s := s') (fun j hj => preserved j (List.mem_cons_of_mem i hj))
        (fun j hj => fails j (List.mem_cons_of_mem i hj)) (preserved i List.mem_cons_self s o s' start hs)
      have hrun (f : ε) : runAll step (i :: is) s = .error f ↔ runAll step is s' = .error f := by
        rw [runAll, hs, Outcome.ok_bind, Outcome.bind_eq_error]
        constructor
        · rintro (h | ⟨a, -, h⟩)
          · exact h
          · cases h
        · exact .inl
      simp only [hrun]
      rw [hrest]
      constructor
      · intro h
        refine ⟨fun f hf => ?_, fun o' s'' hok => ?_⟩
        · cases hf
        · cases hok
          exact h
      · rintro ⟨-, h⟩
        exact h o s' rfl

/-- The run ends in a state with the property. -/
def Ends (step : ι → σ → Except ε (ο × σ)) (is : List ι) (s : σ) (Q : σ → Prop) : Prop :=
  match runAll step is s with
  | .ok (_, s') => Q s'
  | .error _ => False

instance {is : List ι} {s : σ} {Q : σ → Prop} [DecidablePred Q] : Decidable (Ends step is s Q) := by
  unfold Ends
  split
  · infer_instance
  · infer_instance

theorem Ends.exists {is : List ι} {s : σ} {Q : σ → Prop} (h : Ends step is s Q) :
    ∃ os s', runAll step is s = .ok (os, s') ∧ Q s' := by
  unfold Ends at h
  split at h
  case h_1 os s' hrun => exact ⟨os, s', hrun, h⟩
  case h_2 _ => exact h.elim

/-- The run ends, and its outputs and final state have the property. -/
def Yields (step : ι → σ → Except ε (ο × σ)) (is : List ι) (s : σ) (Q : List ο → σ → Prop) : Prop :=
  match runAll step is s with
  | .ok (os, s') => Q os s'
  | .error _ => False

instance {is : List ι} {s : σ} {Q : List ο → σ → Prop} [∀ os s', Decidable (Q os s')] :
    Decidable (Yields step is s Q) := by
  unfold Yields
  split
  · infer_instance
  · infer_instance

theorem Yields.exists {is : List ι} {s : σ} {Q : List ο → σ → Prop} (h : Yields step is s Q) :
    ∃ os s', runAll step is s = .ok (os, s') ∧ Q os s' := by
  unfold Yields at h
  split at h
  case h_1 os s' hrun => exact ⟨os, s', hrun, h⟩
  case h_2 _ => exact h.elim

/-- The total rule: when every step from a good state succeeds and is good again, so is the run,
and what each step's output satisfies, each output of the run does. -/
theorem runAll_total {Inv : σ → Prop} {law : ι → ο → Prop}
    (total : ∀ s i, Inv s → cond s i → ∃ o s', step i s = .ok (o, s') ∧ Inv s' ∧ law i o)
    (is : List ι) (s : σ) (start : Inv s) (along : Along step cond is s) :
    ∃ os s', runAll step is s = .ok (os, s') ∧ Inv s' ∧ ∀ i o, (i, o) ∈ is.zip os → law i o := by
  induction is generalizing s with
  | nil => exact ⟨[], s, rfl, start, by simp⟩
  | cons i is ih =>
    obtain ⟨hc, hrest⟩ := along_cons.mp along
    obtain ⟨o, s₁, hs, hinv, hlaw⟩ := total s i start hc
    obtain ⟨os, s', hrun, hfin, hall⟩ := ih s₁ hinv (hrest o s₁ hs)
    refine ⟨o :: os, s', ?_, hfin, ?_⟩
    · simp only [runAll, hs, Outcome.ok_bind, hrun, Outcome.pure_eq_ok]
    · intro j p hj
      rw [List.zip_cons_cons, List.mem_cons] at hj
      rcases hj with hj | hj
      · cases hj
        exact hlaw
      · exact hall j p hj

/-! ## Histories -/

/-- One step that was taken. -/
structure Taken (σ ι ο : Type) where
  before : σ
  input : ι
  output : ο
  after : σ

/-- A count, added up over the steps of a run. -/
def total (f : Taken σ ι ο → Nat) (past : List (Taken σ ι ο)) : Nat := past.foldl (fun n t => n + f t) 0

theorem total_append (f : Taken σ ι ο → Nat) (past : List (Taken σ ι ο)) (t : Taken σ ι ο) :
    total f (past ++ [t]) = total f past + f t := by
  simp [total]

/-- The steps of a run, up to the one that stops it. -/
def history (step : ι → σ → Except ε (ο × σ)) : List ι → σ → List (Taken σ ι ο)
  | [], _ => []
  | i :: is, s =>
    match step i s with
    | .ok (o, s') => ⟨s, i, o, s'⟩ :: history step is s'
    | .error _ => []

theorem history_nil {s : σ} : history step [] s = [] := by
  rw [history]

theorem history_cons_ok {i : ι} {is : List ι} {s s' : σ} {o : ο} (h : step i s = .ok (o, s')) :
    history step (i :: is) s = ⟨s, i, o, s'⟩ :: history step is s' := by
  rw [history, h]

theorem history_cons_error {i : ι} {is : List ι} {s : σ} {f : ε} (h : step i s = .error f) :
    history step (i :: is) s = [] := by
  rw [history, h]

/-- The inputs of the steps taken are the first ones of the run. -/
theorem history_inputs (is : List ι) (s : σ) : (history step is s).map Taken.input <+: is := by
  induction is generalizing s with
  | nil => exact List.prefix_refl []
  | cons i is ih =>
    cases h : step i s with
    | error f =>
      rw [history_cons_error h]
      exact List.nil_prefix
    | ok r =>
      obtain ⟨o, s'⟩ := r
      rw [history_cons_ok h, List.map_cons]
      exact List.cons_prefix_cons.mpr ⟨rfl, ih s'⟩

theorem history_length_le (is : List ι) (s : σ) : (history step is s).length ≤ is.length := by
  have hle := (@history_inputs _ _ _ _ step is s).length_le
  rwa [List.length_map] at hle

/-- The outputs of a run that returned are those of the steps taken. -/
theorem history_outputs {is : List ι} {s s' : σ} {os : List ο} (h : runAll step is s = .ok (os, s')) :
    (history step is s).map Taken.output = os := by
  induction is generalizing s os with
  | nil =>
    cases h
    rw [history_nil]
    rfl
  | cons i is ih =>
    obtain ⟨⟨o, s₁⟩, hstep, h⟩ := Outcome.bind_eq_ok.mp h
    obtain ⟨⟨os', s₂⟩, hrun, h⟩ := Outcome.bind_eq_ok.mp h
    cases h
    rw [history_cons_ok hstep, List.map_cons, ih hrun]

/-- The rule of histories: what every step keeps of the history before it holds of the whole
history. -/
theorem history_inv {I : List (Taken σ ι ο) → σ → Prop}
    (preserved : ∀ past s i o s', I past s → step i s = .ok (o, s') → I (past ++ [⟨s, i, o, s'⟩]) s')
    (is : List ι) (past : List (Taken σ ι ο)) (s : σ) (start : I past s) :
    ∃ s', I (past ++ history step is s) s' := by
  induction is generalizing past s with
  | nil => exact ⟨s, by simpa [history] using start⟩
  | cons i is ih =>
    cases h : step i s with
    | error f =>
      rw [history_cons_error h, List.append_nil]
      exact ⟨s, start⟩
    | ok r =>
      obtain ⟨o, s'⟩ := r
      obtain ⟨last, hlast⟩ := ih (past ++ [⟨s, i, o, s'⟩]) s' (preserved past s i o s' start h)
      rw [List.append_assoc] at hlast
      rw [history_cons_ok h]
      exact ⟨last, hlast⟩

/-- The total rule of histories: when every step from a good past succeeds and the past stays good,
the run ends and its whole history is good. -/
theorem history_total {I : List (Taken σ ι ο) → σ → Prop} {is : List ι}
    (total : ∀ i ∈ is, ∀ past s, I past s → ∃ o s', step i s = .ok (o, s') ∧ I (past ++ [⟨s, i, o, s'⟩]) s')
    {past : List (Taken σ ι ο)} {s : σ} (start : I past s) :
    ∃ os s', runAll step is s = .ok (os, s') ∧ I (past ++ history step is s) s' := by
  induction is generalizing past s with
  | nil =>
    refine ⟨[], s, rfl, ?_⟩
    rw [history, List.append_nil]
    exact start
  | cons i is ih =>
    obtain ⟨o, s₁, hstep, hgood⟩ := total i List.mem_cons_self past s start
    obtain ⟨os, s', hrun, hlast⟩ := ih (fun j hj => total j (List.mem_cons_of_mem i hj)) hgood
    refine ⟨o :: os, s', ?_, ?_⟩
    · simp only [runAll, hstep, Outcome.ok_bind, hrun, Outcome.pure_eq_ok]
    · rw [history_cons_ok hstep]
      rw [List.append_assoc] at hlast
      exact hlast

/-- The partial rule of histories: a run that returned kept what every step keeps of the history before
it. -/
theorem runAll_history {I : List (Taken σ ι ο) → σ → Prop} {is : List ι}
    (preserved : ∀ i ∈ is, ∀ past s o s', I past s → step i s = .ok (o, s') → I (past ++ [⟨s, i, o, s'⟩]) s')
    {past : List (Taken σ ι ο)} {s s' : σ} {os : List ο} (start : I past s)
    (h : runAll step is s = .ok (os, s')) : I (past ++ history step is s) s' := by
  induction is generalizing past s os with
  | nil =>
    cases h
    rw [history, List.append_nil]
    exact start
  | cons i is ih =>
    obtain ⟨⟨o, s₁⟩, hstep, h⟩ := Outcome.bind_eq_ok.mp h
    obtain ⟨⟨os', s₂⟩, hrun, h⟩ := Outcome.bind_eq_ok.mp h
    cases h
    have hnext := preserved i List.mem_cons_self past s o s₁ start hstep
    have hlast := ih (fun j hj => preserved j (List.mem_cons_of_mem i hj)) hnext hrun
    rw [List.append_assoc] at hlast
    rw [history_cons_ok hstep]
    exact hlast

/-- The law holds of every step and the steps before it. -/
def Lawful {α : Type} (L : List α → α → Prop) (past : List α) : Prop :=
  ∀ p t q, past = p ++ t :: q → L p t

theorem Lawful.nil {α : Type} {L : List α → α → Prop} : Lawful L [] :=
  fun _ _ _ h => absurd h (by simp)

theorem Lawful.snoc {α : Type} {L : List α → α → Prop} {past : List α} {last : α} (h : Lawful L past)
    (hlast : L past last) : Lawful L (past ++ [last]) := by
  intro p t q hsplit
  rcases List.eq_nil_or_concat q with rfl | ⟨q', x, rfl⟩
  · obtain ⟨rfl, heq⟩ := List.append_inj' hsplit rfl
    cases heq
    exact hlast
  · rw [List.concat_eq_append, ← List.cons_append, ← List.append_assoc] at hsplit
    obtain ⟨hpast, -⟩ := List.append_inj' hsplit rfl
    exact h p t q' hpast

theorem Lawful.init {α : Type} {L : List α → α → Prop} {past : List α} {last : α} (h : Lawful L (past ++ [last])) :
    Lawful L past :=
  fun p t q hsplit => h p t (q ++ [last]) (by rw [hsplit, List.append_assoc, List.cons_append])

theorem Lawful.last {α : Type} {L : List α → α → Prop} {past : List α} {last : α} (h : Lawful L (past ++ [last])) :
    L past last :=
  h past last [] rfl

/-- What holds before every step of a run is a law of its history. -/
theorem Along.lawful {is : List ι} {s : σ} (h : Along step cond is s) :
    Lawful (fun _ t => cond t.before t.input) (history step is s) := by
  suffices hall : ∀ t ∈ history step is s, cond t.before t.input by
    intro p t q hsplit
    apply hall
    rw [hsplit]
    exact List.mem_append_right p List.mem_cons_self
  induction is generalizing s with
  | nil =>
    intro t ht
    rw [history_nil] at ht
    cases ht
  | cons i is ih =>
    obtain ⟨hnow, hrest⟩ := along_cons.mp h
    intro t ht
    cases hstep : step i s with
    | error f =>
      rw [history_cons_error hstep] at ht
      cases ht
    | ok r =>
      obtain ⟨o, s'⟩ := r
      rw [history_cons_ok hstep] at ht
      rcases List.mem_cons.mp ht with rfl | ht
      · exact hnow
      · exact ih (hrest o s' hstep) t ht

/-- A law about each step of a history and the steps before it, from an invariant of the past. -/
theorem history_split {I : List (Taken σ ι ο) → σ → Prop} {L : List (Taken σ ι ο) → Taken σ ι ο → Prop}
    (preserved : ∀ past s i o s', I past s → step i s = .ok (o, s') →
      L past ⟨s, i, o, s'⟩ ∧ I (past ++ [⟨s, i, o, s'⟩]) s')
    {is : List ι} {s : σ} (start : I [] s) {past rest : List (Taken σ ι ο)} {t : Taken σ ι ο}
    (h : history step is s = past ++ t :: rest) : L past t := by
  have hinv := @history_inv _ _ _ _ step (fun past s => I past s ∧ Lawful L past) ?_ is [] s
    ⟨start, Lawful.nil⟩
  · obtain ⟨_, -, hlaw⟩ := hinv
    exact hlaw past t rest h
  · rintro past s i o s' ⟨hinv, hlaw⟩ hstep
    obtain ⟨hnew, hinv'⟩ := preserved past s i o s' hinv hstep
    exact ⟨hinv', hlaw.snoc hnew⟩

-- The elaborator would otherwise evaluate a concrete run to see what a statement about it says.
attribute [irreducible] Along EachStep Ends Yields history

end Run
