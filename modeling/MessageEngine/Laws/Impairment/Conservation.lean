import MessageEngine.Laws.Impairment.Inbound
import MessageEngine.Lib.Run

/-!
# No message is made or lost

The engine holds messages back in two places, the delay buffer on the way out and the window on the way
in. Over a whole run the messages that came out of a place and those still in it are the ones that went
into it.

## What is proved

- `delay_conserved`: what was collected and what waits is what was accepted, and once more what was
  duplicated; no assertion of the delay buffer fails, and an error leaves it as it was;
- `window_conserved`: what was emitted and what is in the window is what was accepted, and every call on a
  valid message returns.
-/

namespace MessageEngine

open Outcome Table

namespace ImpairmentEngine

/-- The calls of the engine. -/
inductive Call where
  | processOutbound (inEnv : MessageEnvelope) (nowUs : UInt64)
  | collectDeliverable (nowUs : UInt64) (bufCap : Nat)
  | processInbound (inEnv : MessageEnvelope) (nowUs : UInt64) (bufCap : Nat)
  | isPartitionActive (nowUs : UInt64)

inductive Answer where
  | outbound (res : Result)
  | collected (out : List MessageEnvelope)
  | inbound (res : Result) (out : Option MessageEnvelope)
  | partitioned (active : Bool)

def step (call : Call) (e : ImpairmentEngine) : Checked (Answer × ImpairmentEngine) :=
  match call with
  | .processOutbound inEnv nowUs => do
    let (res, e) ← e.processOutbound inEnv nowUs
    pure (.outbound res, e)
  | .collectDeliverable nowUs bufCap => do
    let (out, e) ← e.collectDeliverable nowUs bufCap
    pure (.collected out, e)
  | .processInbound inEnv nowUs bufCap => do
    let ((res, out), e) ← e.processInbound inEnv nowUs bufCap
    pure (.inbound res out, e)
  | .isPartitionActive nowUs => do
    let (active, e) ← e.isPartitionActive nowUs
    pure (.partitioned active, e)

/-- The caller's buffer has room for a message. -/
def Call.HasBuffer : Call → Prop
  | .collectDeliverable _ bufCap | .processInbound _ _ bufCap => bufCap ≥ 1
  | .processOutbound _ _ | .isPartitionActive _ => True

variable {e e' : ImpairmentEngine} {env : MessageEnvelope} {nowUs : UInt64} {cfg : ImpairmentConfig} {entropy : UInt64}

/-! ## The delay buffer -/

/-- A call on the way in leaves the delay buffer alone. -/
theorem processInbound_delays {bufCap : Nat} {r : Result × Option MessageEnvelope}
    (h : e.processInbound env nowUs bufCap = .ok (r, e')) : SameDelays e e' := by
  have store {c c' : ImpairmentEngine} (hsame : SameDelays e c) (hstore : c.storeReorder env = .ok c') :
      SameDelays e c' := by
    unfold storeReorder at hstore
    split at hstore
    case isTrue _ =>
      cases hstore
      exact hsame.trans ⟨rfl, rfl, rfl, rfl⟩
    case isFalse _ => cases hstore
  unfold processInbound at h
  obtain ⟨-, h⟩ := ensure_bind_eq_ok.mp h
  obtain ⟨-, h⟩ := ensure_bind_eq_ok.mp h
  simp only [ite_bind] at h
  obtain ⟨⟨partitioned, e₁⟩, hpart, h⟩ := bind_eq_ok.mp h
  have hsame : SameDelays e e₁ := by
    split at hpart
    case isTrue _ =>
      obtain ⟨⟨_, _, _, rfl⟩, -⟩ := isPartitionActive_frame hpart
      exact ⟨rfl, rfl, rfl, rfl⟩
    case isFalse _ =>
      cases hpart
      exact .refl e
  cases partitioned with
  | true =>
    cases h
    exact hsame.trans ⟨rfl, rfl, rfl, rfl⟩
  | false =>
    simp only [Bool.false_eq_true, if_false] at h
    split at h
    case isTrue _ =>
      obtain ⟨-, h⟩ := ensure_bind_eq_ok.mp h
      cases h
      exact hsame
    case isFalse _ =>
      split at h
      case isTrue _ =>
        obtain ⟨e₂, hstore, h⟩ := bind_eq_ok.mp h
        obtain ⟨-, h⟩ := ensure_bind_eq_ok.mp h
        cases h
        exact (store hsame hstore).trans ⟨rfl, rfl, rfl, rfl⟩
      case isFalse _ =>
        obtain ⟨⟨releaseIdx, prng⟩, -, h⟩ := bind_eq_ok.mp h
        obtain ⟨-, h⟩ := ensure_bind_eq_ok.mp h
        split at h
        case isFalse _ => cases h
        case isTrue _ =>
          obtain ⟨e₂, hstore, h⟩ := bind_eq_ok.mp h
          obtain ⟨-, h⟩ := ensure_bind_eq_ok.mp h
          obtain ⟨-, h⟩ := ensure_bind_eq_ok.mp h
          obtain ⟨-, h⟩ := ensure_bind_eq_ok.mp h
          cases h
          have hreleased := hsame.trans (⟨rfl, rfl, rfl, rfl⟩ : SameDelays e₁ { e₁ with
            prng
            reorderBuf := Compact.shiftLeft e₁.reorderBuf releaseIdx.toNat (e₁.reorderCount - 1 - releaseIdx.toNat)
            reorderCount := e₁.reorderCount - 1 })
          split at hstore
          case isTrue _ => exact store hreleased hstore
          case isFalse _ =>
            cases hstore
            exact hreleased

/-- After `init` the delay buffer is empty. -/
theorem delays_init (h : init cfg entropy = .ok e) : e.Counted ∧ e.waiting = [] ∧ e.stats.duplicateInjects = 0 ∧
    e.cfg = cfg := by
  obtain ⟨-, -, seed, rfl⟩ := init_spec h
  have hnone : ((Vector.replicate impairDelayBufSize ⟨envelopeInit, 0, false⟩ : Vector DelayEntry _).toList.filter
      DelayEntry.active) = [] := by
    simp
  have hzero : (0 : Nat) = (Vector.replicate impairDelayBufSize ⟨envelopeInit, 0, false⟩ :
      Vector DelayEntry _).countP DelayEntry.active := by
    rw [← Vector.countP_toList, List.countP_eq_length_filter, hnone]
    rfl
  exact ⟨hzero, congrArg (List.map DelayEntry.env) hnone, rfl, rfl⟩

/-- One call of the run, with the engine before and after it. -/
abbrev Taken := Run.Taken ImpairmentEngine Call Answer

/-- The messages the call collected. -/
def collectedIn (t : Taken) : List MessageEnvelope :=
  match t.output with
  | .collected out => out
  | _ => []

/-- The message the call accepted on the way out. -/
def acceptedIn (t : Taken) : List MessageEnvelope :=
  match t.input, t.output with
  | .processOutbound inEnv _, .outbound .ok => [inEnv]
  | _, _ => []

/-- The message the call counted a copy of. -/
def injectedIn (t : Taken) : List MessageEnvelope :=
  match t.input with
  | .processOutbound inEnv _ =>
    if t.after.stats.duplicateInjects = t.before.stats.duplicateInjects then [] else [inEnv]
  | _ => []

/-- What one call does to the account. -/
structure Balances (t : Taken) : Prop where
  counted : t.after.Counted
  conserved : (collectedIn t ++ t.after.waiting).Perm (acceptedIn t ++ (injectedIn t ++ t.before.waiting))
  injects : t.after.stats.duplicateInjects = t.before.stats.duplicateInjects + UInt32.ofNat (injectedIn t).length

theorem SameDelays.balances {call : Call} {a : Answer} (same : SameDelays e e') (counted : e.Counted)
    (hcollected : collectedIn ⟨e, call, a, e'⟩ = []) (haccepted : acceptedIn ⟨e, call, a, e'⟩ = []) :
    Balances ⟨e, call, a, e'⟩ := by
  have hinjected : injectedIn ⟨e, call, a, e'⟩ = [] := by
    unfold injectedIn
    split
    · exact if_pos same.injects
    · rfl
  refine ⟨same.counted counted, ?_, ?_⟩
  · rw [hcollected, haccepted, hinjected, List.nil_append, List.nil_append, List.nil_append]
    exact .of_eq same.waiting
  · rw [hinjected, same.injects]
    exact (UInt32.add_zero _).symm

theorem Outbound.balances {res : Result} (h : Outbound e env nowUs res e') (counted : e.Counted) :
    Balances ⟨e, .processOutbound env nowUs, .outbound res, e'⟩ := by
  cases h with
  | refused same why =>
    refine same.balances counted rfl ?_
    rcases why with rfl | ⟨rfl, -⟩
    · rfl
    · rfl
  | @queued i releaseUs _ due free single same =>
    have hfree := freeSlot?_inactive free
    have hinjected : injectedIn ⟨e, .processOutbound env nowUs, .outbound .ok, e'⟩ = [] := if_pos same.injects
    refine ⟨same.counted (counted.put hfree), ?_, ?_⟩
    · rw [hinjected]
      exact (List.Perm.of_eq same.waiting).trans (waiting_put hfree)
    · rw [hinjected]
      exact same.injects.trans (UInt32.add_zero _).symm
  | @duplicated i j releaseUs jitterUs _ due free next copies delay same =>
    have hfree := freeSlot?_inactive free
    have hnext := freeSlot?_inactive next
    have hadd : e'.stats.duplicateInjects = e.stats.duplicateInjects + 1 := same.injects
    have hinjected : injectedIn ⟨e, .processOutbound env nowUs, .outbound .ok, e'⟩ = [env] := by
      refine if_neg fun heq => ?_
      have hone : e.stats.duplicateInjects + 1 = e.stats.duplicateInjects + 0 := by
        rw [UInt32.add_zero, ← hadd]
        exact heq
      exact absurd ((UInt32.add_right_inj _).mp hone) (by decide)
    refine ⟨same.counted ((counted.put hfree).put hnext), ?_, ?_⟩
    · rw [hinjected]
      exact (List.Perm.of_eq same.waiting).trans ((waiting_put hnext).trans ((waiting_put hfree).cons env))
    · rw [hinjected]
      exact hadd

/-- Every call balances. -/
theorem step_balances {call : Call} {a : Answer} (counted : e.Counted) (hbuf : call.HasBuffer)
    (h : step call e = .ok (a, e')) : Balances ⟨e, call, a, e'⟩ := by
  cases call with
  | processOutbound inEnv nowUs =>
    obtain ⟨⟨res, e₁⟩, hcall, h⟩ := bind_eq_ok.mp h
    cases h
    exact (processOutbound_spec counted hcall).balances counted
  | collectDeliverable nowUs bufCap =>
    obtain ⟨out, e₁, hcall, collects⟩ := collectDeliverable_spec counted nowUs hbuf
    rw [step, hcall] at h
    cases h
    refine ⟨collects.counted, collects.kept, ?_⟩
    exact collects.injects.trans (UInt32.add_zero _).symm
  | processInbound inEnv nowUs bufCap =>
    obtain ⟨⟨⟨res, out⟩, e₁⟩, hcall, h⟩ := bind_eq_ok.mp h
    cases h
    exact (processInbound_delays hcall).balances counted rfl rfl
  | isPartitionActive nowUs =>
    obtain ⟨⟨active, e₁⟩, hcall, h⟩ := bind_eq_ok.mp h
    cases h
    obtain ⟨⟨_, _, _, rfl⟩, -⟩ := isPartitionActive_frame hcall
    exact SameDelays.balances ⟨rfl, rfl, rfl, rfl⟩ counted rfl rfl

/-- The account of the delay buffer after the calls in `past`. -/
structure Conserves (past : List Taken) (e : ImpairmentEngine) : Prop where
  counted : e.Counted
  conserved : (past.flatMap collectedIn ++ e.waiting).Perm (past.flatMap acceptedIn ++ past.flatMap injectedIn)
  injects : e.stats.duplicateInjects = UInt32.ofNat (past.flatMap injectedIn).length

/-- The next call stops at no assertion of the delay buffer, and answering with an error it leaves the
buffer as it was. -/
structure SafeNext (call : Call) (e : ImpairmentEngine) : Prop where
  fails : FailsOnly Elsewhere (step call e)
  refuses : ∀ res e', step call e = .ok (.outbound res, e') → res ≠ .ok →
    e'.delayBuf = e.delayBuf ∧ e'.delayCount = e.delayCount

theorem Conserves.snoc {past : List Taken} {call : Call} {a : Answer} (h : Conserves past e)
    (balances : Balances ⟨e, call, a, e'⟩) : Conserves (past ++ [⟨e, call, a, e'⟩]) e' := by
  have hcollected := balances.conserved
  dsimp only at hcollected
  refine ⟨balances.counted, ?_, ?_⟩
  · simp only [List.flatMap_append, List.flatMap_singleton]
    classical
    rw [List.perm_iff_count]
    intro x
    have hpast := h.conserved.count_eq x
    have hstep := hcollected.count_eq x
    simp only [List.count_append] at hpast hstep ⊢
    omega
  · rw [List.flatMap_append, List.flatMap_singleton, List.length_append, UInt32.ofNat_add, ← h.injects]
    exact balances.injects

theorem storeReorder_fails (e : ImpairmentEngine) (env : MessageEnvelope) : FailsOnly Elsewhere (e.storeReorder env) := by
  intro fault h
  unfold storeReorder at h
  split at h
  case isTrue _ => cases h
  case isFalse _ =>
    cases h
    decide

theorem processInbound_fails (e : ImpairmentEngine) (env : MessageEnvelope) (nowUs : UInt64) (bufCap : Nat) :
    FailsOnly Elsewhere (e.processInbound env nowUs bufCap) := by
  unfold processInbound
  simp only [ite_bind]
  refine .bind (.ensure (by decide)) fun _ _ => .bind (.ensure (by decide)) fun _ _ => .bind ?_ fun r _ => ?_
  · obtain ⟨active, e₁, hquery⟩ := e.isPartitionActive_total nowUs
    rw [hquery]
    exact .ite (fun _ => .ok _) fun _ => .ok _
  refine .ite (fun _ => .ok _) fun _ => .ite (fun _ => ?_) fun _ => .ite (fun _ => ?_) fun _ => ?_
  · exact .bind (.ensure (by decide)) fun _ _ => .ok _
  · exact .bind (storeReorder_fails _ _) fun _ _ => .bind (.ensure (by decide)) fun _ _ => .ok _
  · refine .bind (nextRange_fails _ _ _) fun _ _ => .bind (.ensure (by decide)) fun _ _ => ?_
    split
    case isTrue _ =>
      refine .bind (.ite (fun _ => storeReorder_fails _ _) fun _ => .ok _) fun _ _ => ?_
      exact .bind (.ensure (by decide)) fun _ _ => .bind (.ensure (by decide)) fun _ _ =>
        .bind (.ensure (by decide)) fun _ _ => .ok _
    case isFalse _ =>
      intro fault h
      cases h
      decide

/-- With a counter that counts, the next call is safe. -/
theorem safeNext (counted : e.Counted) {call : Call} (hbuf : call.HasBuffer) : SafeNext call e := by
  cases call with
  | processOutbound inEnv nowUs =>
    refine ⟨.bind (processOutbound_fails counted) fun _ _ => .ok _, fun res e' h hres => ?_⟩
    obtain ⟨⟨res, e₁⟩, hcall, h⟩ := bind_eq_ok.mp h
    cases h
    cases processOutbound_spec counted hcall with
    | refused same _ => exact ⟨same.buf, same.count⟩
    | queued => exact absurd rfl hres
    | duplicated => exact absurd rfl hres
  | collectDeliverable nowUs bufCap =>
    obtain ⟨out, e₁, hcall, -⟩ := collectDeliverable_spec counted nowUs hbuf
    refine ⟨?_, fun res e' h => ?_⟩
    · rw [step, hcall]
      exact .ok _
    · rw [step, hcall] at h
      cases h
  | processInbound inEnv nowUs bufCap =>
    refine ⟨.bind (processInbound_fails e inEnv nowUs bufCap) fun _ _ => .ok _, fun res e' h => ?_⟩
    obtain ⟨⟨⟨_, _⟩, e₁⟩, -, h⟩ := bind_eq_ok.mp h
    cases h
  | isPartitionActive nowUs =>
    obtain ⟨active, e₁, hcall⟩ := e.isPartitionActive_total nowUs
    refine ⟨?_, fun res e' h => ?_⟩
    · rw [step, hcall]
      exact .ok _
    · rw [step, hcall] at h
      cases h

/-- In every state the engine reaches by calls of any kind: the counter counts the messages that wait;
what was collected and what waits is what was accepted, and once more what was duplicated; and the next
call keeps the delay buffer's promises. -/
theorem delay_conserved {cfg : ImpairmentConfig} {entropy : UInt64} {start : ImpairmentEngine}
    (hinit : init cfg entropy = .ok start) {calls : List Call} (hbuf : ∀ call ∈ calls, call.HasBuffer)
    {answers : List Answer} (run : Run.runAll step calls start = .ok (answers, e)) :
    Conserves (Run.history step calls start) e ∧ ∀ call : Call, call.HasBuffer → SafeNext call e := by
  obtain ⟨hcounted, hwaiting, hinjects, -⟩ := delays_init hinit
  have hstart : Conserves [] start := by
    refine ⟨hcounted, ?_, hinjects⟩
    rw [hwaiting]
    exact .refl _
  have hlast := Run.runAll_history (I := Conserves) (fun call hcall past e₁ a e₂ h hstep =>
    h.snoc (step_balances h.counted (hbuf call hcall) hstep)) hstart run
  rw [List.nil_append] at hlast
  exact ⟨hlast, fun call hcall => safeNext hlast.counted hcall⟩

/-- Every message is doubled, and takes a millisecond. -/
def doubling : ImpairmentConfig :=
  { impairmentConfigDefault with
    enabled := true, fixedLatencyMs := 1, duplicationProbability := 1, prngSeed := 42 }

/-- A message of node one. -/
def someMessage (payloadLength : UInt32) : MessageEnvelope :=
  { envelopeInit with messageType := .data, sourceId := 1, destinationId := 2, payloadLength }

theorem delay_conserved_doubling :
    ∃ start answers e, init doubling 0 = .ok start ∧
      Run.runAll step [.processOutbound (someMessage 0) 1000, .collectDeliverable 2000 4] start = .ok (answers, e) ∧
      Conserves (Run.history step [.processOutbound (someMessage 0) 1000, .collectDeliverable 2000 4] start) e := by
  have hends : Succeeds (init doubling 0) fun start =>
      Run.Ends step [.processOutbound (someMessage 0) 1000, .collectDeliverable 2000 4] start fun e =>
        e.delayCount = 1 := by decide +kernel
  obtain ⟨start, hinit, hrun⟩ := hends.exists
  obtain ⟨answers, e, hrun, -⟩ := hrun.exists
  refine ⟨start, answers, e, hinit, hrun, ?_⟩
  refine (delay_conserved hinit (fun call hcall => ?_) hrun).1
  simp only [List.mem_cons, List.not_mem_nil, or_false] at hcall
  rcases hcall with rfl | rfl
  · trivial
  · exact Nat.le_of_ble_eq_true rfl

/-! ## The window -/

/-- After `init` the window is empty. -/
theorem windowed_init (h : init cfg entropy = .ok e) : e.Windowed ∧ e.window = [] ∧ e.cfg = cfg := by
  obtain ⟨hsize, -, seed, rfl⟩ := init_spec h
  exact ⟨⟨Nat.zero_le _, hsize, PrngEngine.seed_ne_zero _⟩, rfl, rfl⟩

/-- A valid message comes in, and the caller's buffer has room for one. -/
def Call.BringsValid : Call → Prop
  | .processInbound inEnv _ bufCap => envelopeValid inEnv ∧ bufCap ≥ 1
  | _ => False

/-- The message the call emitted. -/
def emittedIn (t : Taken) : List MessageEnvelope :=
  match t.output with
  | .inbound _ (some out) => [out]
  | _ => []

/-- The message the call accepted on the way in. -/
def admittedIn (t : Taken) : List MessageEnvelope :=
  match t.input, t.output with
  | .processInbound inEnv _ _, .inbound .ok _ => [inEnv]
  | _, _ => []

/-- The account of the window after the calls in `past`. -/
structure Keeps (cfg : ImpairmentConfig) (past : List Taken) (e : ImpairmentEngine) : Prop where
  windowed : e.Windowed
  cfg : e.cfg = cfg
  conserved : (past.flatMap emittedIn ++ e.window).Perm (past.flatMap admittedIn)

/-- What one call does to the account. -/
theorem Inbound.balances {res : Result} {out : Option MessageEnvelope} (h : Inbound e env res out e'.window)
    (nowUs : UInt64) (bufCap : Nat) :
    (emittedIn ⟨e, .processInbound env nowUs bufCap, .inbound res out, e'⟩ ++ e'.window).Perm
      (admittedIn ⟨e, .processInbound env nowUs bufCap, .inbound res out, e'⟩ ++ e.window) := by
  generalize e'.window = w at h
  cases h with
  | dropped => exact .refl _
  | passed => exact .refl _
  | kept =>
    change (e.window ++ [env]).Perm ([env] ++ e.window)
    exact List.perm_append_comm
  | swapped i =>
    have hback := List.getElem_cons_eraseIdx_perm i.isLt
    have hmoved : ((e.window[i] :: e.window.eraseIdx i) ++ [env]).Perm ([env] ++ e.window[i] :: e.window.eraseIdx i) :=
      List.perm_append_comm
    exact hmoved.trans (hback.cons env)

theorem Keeps.step {past : List Taken} {call : Call} (h : Keeps cfg past e) (brings : call.BringsValid) :
    ∃ a e', ImpairmentEngine.step call e = .ok (a, e') ∧ Keeps cfg (past ++ [⟨e, call, a, e'⟩]) e' := by
  cases call with
  | processOutbound | collectDeliverable | isPartitionActive => exact brings.elim
  | processInbound inEnv nowUs bufCap =>
    obtain ⟨res, out, e', hcall, windowed, hcfg, inbound⟩ :=
      processInbound_spec h.windowed brings.1 nowUs brings.2
    refine ⟨.inbound res out, e', ?_, windowed, hcfg.trans h.cfg, ?_⟩
    · rw [ImpairmentEngine.step, hcall]
      rfl
    · have hnew := inbound.balances nowUs bufCap
      simp only [List.flatMap_append, List.flatMap_singleton]
      classical
      rw [List.perm_iff_count]
      intro x
      have hpast := h.conserved.count_eq x
      have hstep := hnew.count_eq x
      simp only [List.count_append] at hpast hstep ⊢
      omega

/-- Whatever messages come in and whatever the generator draws: every call returns, the window keeps to its
size, and what was emitted and what is in the window is what was accepted. -/
theorem window_conserved {cfg : ImpairmentConfig} {entropy : UInt64} {start : ImpairmentEngine}
    (hinit : init cfg entropy = .ok start) {calls : List Call} (brings : ∀ call ∈ calls, call.BringsValid) :
    ∃ answers e, Run.runAll step calls start = .ok (answers, e) ∧
      e.reorderCount ≤ cfg.reorderWindowSize.toNat ∧ e.window.length = e.reorderCount ∧
      (∀ t ∈ Run.history step calls start, (emittedIn t).length ≤ 1) ∧
      ((Run.history step calls start).flatMap emittedIn ++ e.window).Perm
        ((Run.history step calls start).flatMap admittedIn) := by
  obtain ⟨hwindowed, hempty, hcfg⟩ := windowed_init hinit
  have hstart : Keeps cfg [] start := by
    refine ⟨hwindowed, hcfg, ?_⟩
    rw [hempty]
    exact .refl _
  obtain ⟨answers, e, hrun, keeps⟩ :=
    Run.history_total (I := Keeps cfg) (fun call hcall past e h => h.step (brings call hcall)) hstart
  rw [List.nil_append] at keeps
  refine ⟨answers, e, hrun, ?_, keeps.windowed.length, fun t _ => ?_, keeps.conserved⟩
  · rw [← keeps.cfg]
    exact keeps.windowed.count
  · unfold emittedIn
    split
    · exact Nat.le_refl 1
    · exact Nat.zero_le 1

/-- The window has one place. -/
def shuffling : ImpairmentConfig :=
  { impairmentConfigDefault with enabled := true, reorderEnabled := true, reorderWindowSize := 1, prngSeed := 7 }

theorem window_conserved_shuffling :
    ∃ start answers e, init shuffling 0 = .ok start ∧
      Run.runAll step [.processInbound (someMessage 0) 5 1, .processInbound (someMessage 1) 6 1] start =
        .ok (answers, e) ∧ e.reorderCount ≤ 1 := by
  have hinit : Succeeds (init shuffling 0) fun _ => True := by decide +kernel
  obtain ⟨start, hinit, -⟩ := hinit.exists
  have brings : ∀ call ∈ [Call.processInbound (someMessage 0) 5 1, .processInbound (someMessage 1) 6 1],
      call.BringsValid := by
    intro call hcall
    simp only [List.mem_cons, List.not_mem_nil, or_false] at hcall
    rcases hcall with rfl | rfl
    · exact ⟨by decide, Nat.le_refl 1⟩
    · exact ⟨by decide, Nat.le_refl 1⟩
  obtain ⟨answers, e, hrun, hcount, -⟩ := window_conserved hinit brings
  exact ⟨start, answers, e, hinit, hrun, hcount⟩

end ImpairmentEngine

end MessageEngine
