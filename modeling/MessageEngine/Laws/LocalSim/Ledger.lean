import MessageEngine.Core.LocalSimHarness
import MessageEngine.Laws.Impairment.Passage
import MessageEngine.Laws.LocalSim.Queue

/-!
# What two linked harnesses make of what they are given

A message that is sent waits in the delay buffer of the sender, once or twice; from there it goes to the
window or the receive queue of the other side, where it is returned; and it can be dropped on every step of
the way. Whatever the impairments are and whatever the generators draw, nothing else is ever returned, and
nothing more often than it was given to send, twice where copies are made. That `send_message` answers
`ERR_FULL` does not say that the message is lost: it can wait in the window of the other side.

## What is proved

- `deliverFromPeer_takes`, `sendMessage_sends`, `receiveMessage_gives`: what each call does to what is on the
  way;
- `Ledger.step`, `harness_account`: the account of every run.
-/

namespace MessageEngine

open Outcome Table

namespace LocalSimHarness

variable {h h' peer peer' : LocalSimHarness} {env : MessageEnvelope} {nowUs : UInt64} {res : Result}

/-! ## One harness -/

/-- The tables of the harness are in order. -/
structure Sane (h : LocalSimHarness) : Prop where
  counted : h.inbox.impairment.Counted
  windowed : h.inbox.impairment.Windowed
  bounded : h.inbox.recvQueue.Bounded

/-- What has come from the other side and was not returned yet. -/
def arrived (h : LocalSimHarness) : List MessageEnvelope := h.inbox.recvQueue.queued ++ h.inbox.impairment.window

/-- What waits to go to the other side. -/
def leaving (h : LocalSimHarness) : List MessageEnvelope := h.inbox.impairment.waiting

/-- The harness was given a batch, and kept some of it. -/
structure Takes (batch : List MessageEnvelope) (h h' : LocalSimHarness) : Prop where
  sane : h'.Sane
  cfg : h'.inbox.impairment.cfg = h.inbox.impairment.cfg
  leaving : h'.leaving = h.leaving
  account : ∃ lost, (lost ++ h'.arrived).Perm (batch ++ h.arrived)

theorem Takes.refl (sane : h.Sane) : Takes [] h h := ⟨sane, rfl, rfl, [], .refl _⟩

theorem Takes.trans {h₁ : LocalSimHarness} {batch batch' : List MessageEnvelope} (first : Takes batch h h₁)
    (second : Takes batch' h₁ h') : Takes (batch ++ batch') h h' := by
  obtain ⟨lost, hlost⟩ := first.account
  obtain ⟨lost', hlost'⟩ := second.account
  refine ⟨second.sane, second.cfg.trans first.cfg, second.leaving.trans first.leaving, lost ++ lost', ?_⟩
  rw [List.perm_iff_count] at hlost hlost' ⊢
  intro x
  have hx := hlost x
  have hx' := hlost' x
  simp only [List.count_append] at hx hx' ⊢
  omega

/-- A push into the receive queue. -/
theorem takes_push {recvQueue : RingBuffer} (sane : h.Sane) (hpush : h.inbox.recvQueue.push env = .ok (res, recvQueue)) :
    Takes [env] h { h with inbox := { h.inbox with recvQueue } } := by
  obtain ⟨res', queue', hspec, hbounded, hcases⟩ := RingBuffer.push_spec sane.bounded env
  cases hspec.symm.trans hpush
  refine ⟨⟨sane.counted, sane.windowed, hbounded⟩, rfl, rfl, ?_⟩
  rcases hcases with ⟨-, hqueue, -⟩ | ⟨-, rfl, -⟩
  · refine ⟨[], ?_⟩
    show (recvQueue.queued ++ h.inbox.impairment.window).Perm _
    rw [hqueue, List.append_assoc]
    exact List.perm_middle
  · exact ⟨[env], .refl _⟩

/-- What the window gives out in place of a message, or with it, goes on. -/
theorem deliverFromPeer_takes (sane : h.Sane) (hrun : h.deliverFromPeer env nowUs = .ok (res, h')) :
    Takes [env] h h' := by
  obtain ⟨-, hrun⟩ := ensure_bind_eq_ok.mp hrun
  obtain ⟨hvalid, hrun⟩ := ensure_bind_eq_ok.mp hrun
  obtain ⟨⟨partitioned, i₁⟩, hpart, hrun⟩ := bind_eq_ok.mp hrun
  have hkept := ImpairmentEngine.keepsWindow_isPartitionActive hpart
  have hsame : ImpairmentEngine.SameDelays h.inbox.impairment i₁ := by
    obtain ⟨⟨_, _, _, rfl⟩, -⟩ := ImpairmentEngine.isPartitionActive_frame hpart
    exact ⟨rfl, rfl, rfl, rfl⟩
  have sane₁ : Sane { h with inbox := { h.inbox with impairment := i₁ } } :=
    ⟨hsame.counted sane.counted, hkept.windowed sane.windowed, sane.bounded⟩
  have harrived : { h with inbox := { h.inbox with impairment := i₁ } }.arrived = h.arrived :=
    congrArg (h.inbox.recvQueue.queued ++ ·) hkept.window
  have hleaving : i₁.waiting = h.leaving := hsame.waiting
  dsimp only at hrun
  split at hrun
  · cases hrun
    refine ⟨sane₁, hkept.cfg, hleaving, [env], ?_⟩
    rw [harrived]
  · obtain ⟨⟨⟨inRes, out⟩, i₂⟩, hinbound, hrun⟩ := bind_eq_ok.mp hrun
    obtain ⟨inRes', out', i', hspec, hwindowed, hcfg, inbound⟩ :=
      ImpairmentEngine.processInbound_spec sane₁.windowed hvalid nowUs (Nat.le_refl 1)
    cases hspec.symm.trans hinbound
    have hdelays := ImpairmentEngine.processInbound_delays hinbound
    have sane₂ : Sane { h with inbox := { h.inbox with impairment := i₂ } } :=
      ⟨hdelays.counted sane₁.counted, hwindowed, sane.bounded⟩
    have hwindow : i₁.window = h.inbox.impairment.window := hkept.window
    have hcfg₂ : i₂.cfg = h.inbox.impairment.cfg := hcfg.trans hkept.cfg
    have hleaving₂ : i₂.waiting = h.leaving := hdelays.waiting.trans hleaving
    have hbalance := inbound.balances nowUs 1
    dsimp only at hrun
    split at hrun
    case isTrue hfailed =>
      cases hrun
      refine ⟨sane₂, hcfg₂, hleaving₂, [env], ?_⟩
      have hsamewindow : i₂.window = h.inbox.impairment.window := by
        rw [← hwindow]
        generalize i₂.window = w at inbound
        cases inbound with
        | dropped => rfl
        | passed => exact absurd rfl hfailed
        | kept => exact absurd rfl hfailed
        | swapped i => exact absurd rfl hfailed
      show ([env] ++ (h.inbox.recvQueue.queued ++ i₂.window)).Perm _
      rw [hsamewindow]
      exact .refl _
    case isFalse hok =>
      have hres : inRes = .ok := not_ne_iff.mp hok
      subst hres
      rw [hwindow] at hbalance
      cases out with
      | none =>
        cases hrun
        refine ⟨sane₂, hcfg₂, hleaving₂, [], ?_⟩
        show (h.inbox.recvQueue.queued ++ i₂.window).Perm ([env] ++ (h.inbox.recvQueue.queued ++ h.inbox.impairment.window))
        have hstored : i₂.window.Perm ([env] ++ h.inbox.impairment.window) := hbalance
        refine (hstored.append_left _).trans ?_
        exact List.perm_middle
      | some inboundOut =>
        obtain ⟨⟨pushRes, recvQueue⟩, hpush, hrun⟩ := bind_eq_ok.mp hrun
        cases hrun
        obtain ⟨hsane, hcfg', hleaving', lost, hlost⟩ := takes_push sane₂ hpush
        refine ⟨hsane, hcfg'.trans hcfg₂, hleaving'.trans hleaving₂, lost, hlost.trans ?_⟩
        show ([inboundOut] ++ (h.inbox.recvQueue.queued ++ i₂.window)).Perm
          ([env] ++ (h.inbox.recvQueue.queued ++ h.inbox.impairment.window))
        have hmoved : ([inboundOut] ++ i₂.window).Perm ([env] ++ h.inbox.impairment.window) := hbalance
        rw [List.perm_iff_count] at hmoved ⊢
        intro x
        have hx := hmoved x
        simp only [List.count_append] at hx ⊢
        omega

theorem flushRounds_takes {envelope : MessageEnvelope} (batch : List MessageEnvelope) :
    ∀ {peer : LocalSimHarness} {start : Result}, peer.Sane →
      batch.foldlM (flushOutboundBatch.round envelope nowUs) (start, peer) = .ok (res, peer') →
      Takes batch peer peer' := by
  induction batch with
  | nil =>
    intro peer start sane hrun
    cases hrun
    exact .refl sane
  | cons env rest ih =>
    intro peer start sane hrun
    rw [List.foldlM_cons] at hrun
    obtain ⟨⟨current, peer₁⟩, hround, hrun⟩ := bind_eq_ok.mp hrun
    obtain ⟨⟨deliverRes, peer₂⟩, hdeliver, hround⟩ := bind_eq_ok.mp hround
    have htakes := deliverFromPeer_takes sane hdeliver
    have hsame : peer₁ = peer₂ := by
      dsimp only at hround
      split at hround
      · cases hround
        rfl
      · cases hround
        rfl
    rw [hsame] at hrun
    exact htakes.trans (ih htakes.sane hrun)

theorem flushOutboundBatch_takes {batch : List MessageEnvelope} {envelope : MessageEnvelope} (sane : peer.Sane)
    (hrun : flushOutboundBatch peer envelope batch nowUs = .ok (res, peer')) : Takes batch peer peer' := by
  obtain ⟨-, hrun⟩ := ensure_bind_eq_ok.mp hrun
  exact flushRounds_takes batch sane hrun

/-- The message was sent from one harness to the other. -/
structure Sends (env : MessageEnvelope) (h peer h' peer' : LocalSimHarness) : Prop where
  sane : h'.Sane
  cfg : h'.inbox.impairment.cfg = h.inbox.impairment.cfg
  arrived : h'.arrived = h.arrived
  saneThere : peer'.Sane
  cfgThere : peer'.inbox.impairment.cfg = peer.inbox.impairment.cfg
  leavingThere : peer'.leaving = peer.leaving
  account : ∃ n ≤ ImpairmentEngine.copies h.inbox.impairment.cfg, ∃ lost,
    (lost ++ (peer'.arrived ++ h'.leaving)).Perm (List.replicate n env ++ (peer.arrived ++ h.leaving))

theorem sendMessage_sends (sane : h.Sane) (saneThere : peer.Sane)
    (hrun : h.sendMessage peer env nowUs = .ok (res, h', peer')) : Sends env h peer h' peer' := by
  obtain ⟨-, hrun⟩ := ensure_bind_eq_ok.mp hrun
  obtain ⟨-, hrun⟩ := ensure_bind_eq_ok.mp hrun
  obtain ⟨-, hrun⟩ := ensure_bind_eq_ok.mp hrun
  obtain ⟨⟨outboundRes, i₁⟩, houtbound, hrun⟩ := bind_eq_ok.mp hrun
  obtain ⟨hcounted, n, hn, hwaiting⟩ := ImpairmentEngine.processOutbound_waiting sane.counted houtbound
  have hkept := ImpairmentEngine.keepsWindow_processOutbound houtbound
  have sane₁ : Sane { h with inbox := { h.inbox with impairment := i₁ } } :=
    ⟨hcounted, hkept.windowed sane.windowed, sane.bounded⟩
  have harrived : { h with inbox := { h.inbox with impairment := i₁ } }.arrived = h.arrived :=
    congrArg (h.inbox.recvQueue.queued ++ ·) hkept.window
  have hstays : Sends env h peer { h with inbox := { h.inbox with impairment := i₁ } } peer := by
    refine ⟨sane₁, hkept.cfg, harrived, saneThere, rfl, rfl, n, hn, [], ?_⟩
    show (peer.arrived ++ i₁.waiting).Perm _
    have hmoved : (i₁.waiting).Perm (List.replicate n env ++ h.leaving) := hwaiting
    rw [List.perm_iff_count] at hmoved ⊢
    intro x
    have hx := hmoved x
    simp only [List.count_append] at hx ⊢
    omega
  dsimp only at hrun
  split at hrun
  · cases hrun
    exact hstays
  · split at hrun
    · cases hrun
      exact hstays
    · obtain ⟨⟨delayed, i₂⟩, hcollect, hrun⟩ := bind_eq_ok.mp hrun
      obtain ⟨out, i', hspec, collects⟩ :=
        ImpairmentEngine.collectDeliverable_spec hcounted nowUs (show impairDelayBufSize > 0 by decide)
      cases hspec.symm.trans hcollect
      have hkept₂ := hkept.trans (ImpairmentEngine.keepsWindow_collectDeliverable hcollect)
      obtain ⟨⟨flushRes, peer₁⟩, hflush, hrun⟩ := bind_eq_ok.mp hrun
      cases hrun
      obtain ⟨hsane, hcfg, hleaving, lost, hlost⟩ := flushOutboundBatch_takes saneThere hflush
      refine ⟨⟨collects.counted, hkept₂.windowed sane.windowed, sane.bounded⟩, hkept₂.cfg, ?_, hsane, hcfg, hleaving,
        n, hn, lost, ?_⟩
      · exact congrArg (h.inbox.recvQueue.queued ++ ·) hkept₂.window
      · show (lost ++ (peer₁.arrived ++ i₂.waiting)).Perm _
        have hmoved : i₁.waiting.Perm (List.replicate n env ++ h.leaving) := hwaiting
        have htaken : (delayed ++ i₂.waiting).Perm i₁.waiting := collects.kept
        rw [List.perm_iff_count] at hlost hmoved htaken ⊢
        intro x
        have hx := hmoved x
        have hx' := htaken x
        have hx'' := hlost x
        simp only [List.count_append] at hx hx' hx'' ⊢
        omega

/-- A call to `receive_message` gives out at most the oldest message of the queue. -/
structure Gives (reply : Reply) (h h' : LocalSimHarness) : Prop where
  sane : h'.Sane
  cfg : h'.inbox.impairment.cfg = h.inbox.impairment.cfg
  leaving : h'.leaving = h.leaving
  account : reply.toOption.toList ++ h'.arrived = h.arrived

theorem gives_pop {reply : Reply} {recvQueue : RingBuffer} (sane : h.Sane)
    (hpop : h.inbox.recvQueue.pop = .ok (reply, recvQueue)) :
    Gives reply h { h with inbox := { h.inbox with recvQueue } } := by
  obtain ⟨reply', queue', hspec, hbounded, hcases⟩ := RingBuffer.pop_spec sane.bounded
  cases hspec.symm.trans hpop
  refine ⟨⟨sane.counted, sane.windowed, hbounded⟩, rfl, rfl, ?_⟩
  rcases hcases with ⟨rfl, rfl, -⟩ | ⟨env, rfl, hqueue⟩
  · rfl
  · show [env] ++ (recvQueue.queued ++ h.inbox.impairment.window) = h.inbox.recvQueue.queued ++ h.inbox.impairment.window
    rw [hqueue]
    rfl

/-- A pop that found nothing leaves all as it was. -/
theorem Gives.nothing {h₁ : LocalSimHarness} {r : Result} {reply : Reply} (first : Gives (.error r) h h₁)
    (second : Gives reply h₁ h') : Gives reply h h' :=
  ⟨second.sane, second.cfg.trans first.cfg, second.leaving.trans first.leaving,
    second.account.trans first.account⟩

theorem gives_timeout (sane : h.Sane) : Gives (.error .errTimeout) h h := ⟨sane, rfl, rfl, rfl⟩

theorem receiveRounds_gives (left : Nat) :
    ∀ {h : LocalSimHarness} {reply : Reply}, h.Sane → receiveMessage.rounds left h = .ok (reply, h') →
      Gives reply h h' := by
  induction left with
  | zero =>
    intro h reply sane hrun
    cases hrun
    exact gives_timeout sane
  | succ left ih =>
    intro h reply sane hrun
    obtain ⟨⟨popped, recvQueue⟩, hpop, hrun⟩ := bind_eq_ok.mp hrun
    have hgives := gives_pop sane hpop
    cases popped with
    | ok env =>
      cases hrun
      exact hgives
    | error r => exact hgives.nothing (ih hgives.sane hrun)

theorem receiveMessage_gives {timeoutMs : UInt32} {reply : Reply} (sane : h.Sane)
    (hrun : h.receiveMessage timeoutMs = .ok (reply, h')) : Gives reply h h' := by
  obtain ⟨-, hrun⟩ := ensure_bind_eq_ok.mp hrun
  obtain ⟨⟨popped, recvQueue⟩, hpop, hrun⟩ := bind_eq_ok.mp hrun
  have hgives := gives_pop sane hpop
  cases popped with
  | ok env =>
    cases hrun
    exact hgives
  | error r =>
    dsimp only at hrun
    split at hrun
    · cases hrun
      exact hgives.nothing (gives_timeout hgives.sane)
    · exact hgives.nothing (receiveRounds_gives _ hgives.sane hrun)

theorem inject_takes (sane : h.Sane) (hrun : h.inject env = .ok (res, h')) : Takes [env] h h' := by
  obtain ⟨-, hrun⟩ := ensure_bind_eq_ok.mp hrun
  split at hrun
  · cases hrun
    exact ⟨sane, rfl, rfl, [env], .refl _⟩
  · obtain ⟨⟨pushRes, recvQueue⟩, hpush, hrun⟩ := bind_eq_ok.mp hrun
    obtain ⟨-, hrun⟩ := ensure_bind_eq_ok.mp hrun
    cases hrun
    exact takes_push sane hpush

theorem init_sane {channel : Option ImpairmentConfig} {entropy : UInt64} (hinit : init channel entropy = .ok h) :
    h.Sane ∧ h.arrived = [] ∧ h.leaving = [] ∧ h.inbox.impairment.cfg = channel.getD impairmentConfigDefault := by
  obtain ⟨i, himpairment, hinit⟩ := bind_eq_ok.mp hinit
  cases hinit
  obtain ⟨hcounted, hwaiting, -, hcfg⟩ := ImpairmentEngine.delays_init himpairment
  obtain ⟨hwindowed, hwindow, -⟩ := ImpairmentEngine.windowed_init himpairment
  refine ⟨⟨hcounted, hwindowed, RingBuffer.bounded_init⟩, ?_, hwaiting, hcfg⟩
  show RingBuffer.init.queued ++ i.window = []
  rw [hwindow]
  rfl

end LocalSimHarness

namespace LocalSimPair

open LocalSimHarness

variable {p p' : LocalSimPair} {s t : Side}

/-! ## Two harnesses -/

@[simp] theorem get_set (p : LocalSimPair) (s t : Side) (h : LocalSimHarness) :
    (p.set s h).get t = if s = t then h else p.get t := by
  cases s <;> cases t <;> rfl

theorem other_ne (s : Side) : s ≠ s.other := by
  cases s <;> decide

theorem other_other (s : Side) : s.other.other = s := by
  cases s <;> rfl

/-- There are two sides. -/
theorem eq_other (h : s ≠ t) : t = s.other := by
  cases s <;> cases t <;> first | rfl | exact absurd rfl h

/-- What is on the way to a side. -/
def inFlight (p : LocalSimPair) (t : Side) : List MessageEnvelope := (p.get t).arrived ++ (p.get t.other).leaving

/-- One call that was made. -/
abbrev Made := Run.Taken LocalSimPair Call Answer

/-- The message that a call gives to send to a side, whatever the call answers. -/
def sent? (t : Side) (m : Made) : Option MessageEnvelope :=
  match m.input with
  | .send side envelope _ => if side.other = t then some envelope else none
  | _ => none

/-- The message that a call gives to inject into the queue of a side, whatever the call answers. -/
def injected? (t : Side) (m : Made) : Option MessageEnvelope :=
  match m.input with
  | .inject side envelope => if side = t then some envelope else none
  | _ => none

/-- The message that a side returns. -/
def returned? (t : Side) (m : Made) : Option MessageEnvelope :=
  match m.input, m.output with
  | .receive side _, .reply (.ok env) => if side = t then some env else none
  | _, _ => none

def sentTo (t : Side) (past : List Made) : List MessageEnvelope := past.filterMap (sent? t)

def injectedAt (t : Side) (past : List Made) : List MessageEnvelope := past.filterMap (injected? t)

def returnedAt (t : Side) (past : List Made) : List MessageEnvelope := past.filterMap (returned? t)

theorem filterMap_snoc {f : Made → Option MessageEnvelope} (past : List Made) (m : Made) :
    (past ++ [m]).filterMap f = past.filterMap f ++ (f m).toList := by
  rw [List.filterMap_append]
  cases h : f m with
  | none => simp [h]
  | some env => simp [h]

/-- The account of each side: all that was returned, or is on the way, was given to send or to inject. -/
structure Ledger (cfg : Side → ImpairmentConfig) (past : List Made) (p : LocalSimPair) : Prop where
  sane : ∀ t, (p.get t).Sane
  config : ∀ t, (p.get t).inbox.impairment.cfg = cfg t
  account : ∀ t x, (returnedAt t past).count x + (inFlight p t).count x ≤
    ImpairmentEngine.copies (cfg t.other) * (sentTo t past).count x + (injectedAt t past).count x

variable {cfg : Side → ImpairmentConfig} {past : List Made} {call : Call} {answer : Answer}

/-- A call keeps the account of a side if it keeps it balanced itself. -/
theorem account_snoc {m : Made} {x : MessageEnvelope} {n : Nat}
    (old : (returnedAt t past).count x + (inFlight p t).count x ≤
      n * (sentTo t past).count x + (injectedAt t past).count x)
    (new : (returned? t m).toList.count x + (inFlight p' t).count x ≤
      n * (sent? t m).toList.count x + (injected? t m).toList.count x + (inFlight p t).count x) :
    (returnedAt t (past ++ [m])).count x + (inFlight p' t).count x ≤
      n * (sentTo t (past ++ [m])).count x + (injectedAt t (past ++ [m])).count x := by
  unfold returnedAt sentTo injectedAt at old ⊢
  rw [filterMap_snoc, filterMap_snoc, filterMap_snoc, List.count_append, List.count_append, List.count_append,
    Nat.mul_add]
  omega

/-- A call on one side. -/
theorem Ledger.here {side : Side} {h : LocalSimHarness} (ledger : Ledger cfg past p) (sane : h.Sane)
    (hcfg : h.inbox.impairment.cfg = (p.get side).inbox.impairment.cfg)
    (hleaving : h.leaving = (p.get side).leaving)
    (quiet : ∀ t, sent? t ⟨p, call, answer, p.set side h⟩ = none)
    (elsewhere : ∀ t, side ≠ t → returned? t ⟨p, call, answer, p.set side h⟩ = none)
    (account : ∀ x, (returned? side ⟨p, call, answer, p.set side h⟩).toList.count x + h.arrived.count x ≤
      (injected? side ⟨p, call, answer, p.set side h⟩).toList.count x + (p.get side).arrived.count x) :
    Ledger cfg (past ++ [⟨p, call, answer, p.set side h⟩]) (p.set side h) := by
  refine ⟨fun t => ?_, fun t => ?_, fun t x => account_snoc (ledger.account t x) ?_⟩
  · rw [get_set]
    split
    · exact sane
    · exact ledger.sane t
  · rw [get_set]
    split
    case isTrue ht =>
      rw [hcfg, ledger.config, ht]
    case isFalse _ => exact ledger.config t
  · rw [quiet t]
    by_cases ht : side = t
    · subst ht
      have hflight : inFlight (p.set side h) side = h.arrived ++ (p.get side.other).leaving := by
        rw [inFlight, get_set, get_set, if_pos rfl, if_neg (other_ne side)]
      have hx := account x
      rw [hflight, inFlight, List.count_append, List.count_append]
      omega
    · have hflight : inFlight (p.set side h) t = inFlight p t := by
        rw [eq_other ht, inFlight, inFlight, get_set, get_set, other_other, if_pos rfl, if_neg (other_ne side),
          hleaving]
      rw [hflight, elsewhere t ht, Option.toList_none, List.count_nil]
      omega

/-- A call that touches both sides. -/
theorem Ledger.send {side : Side} {envelope : MessageEnvelope} {nowUs : UInt64} {res : Result}
    {h peer : LocalSimHarness} (ledger : Ledger cfg past p)
    (sends : Sends envelope (p.get side) (p.get side.other) h peer) :
    Ledger cfg (past ++ [⟨p, .send side envelope nowUs, .result res, (p.set side h).set side.other peer⟩])
      ((p.set side h).set side.other peer) := by
  have hhere : ((p.set side h).set side.other peer).get side = h := by
    simp [(other_ne side).symm]
  have hthere : ((p.set side h).set side.other peer).get side.other = peer := by
    simp
  refine ⟨fun t => ?_, fun t => ?_, fun t x => account_snoc (ledger.account t x) ?_⟩
  · by_cases ht : side = t
    · rw [← ht, hhere]
      exact sends.sane
    · rw [eq_other ht, hthere]
      exact sends.saneThere
  · by_cases ht : side = t
    · rw [← ht, hhere, sends.cfg]
      exact ledger.config side
    · rw [eq_other ht, hthere, sends.cfgThere]
      exact ledger.config side.other
  · by_cases ht : side = t
    · subst ht
      have hsame : inFlight ((p.set side h).set side.other peer) side = inFlight p side := by
        rw [inFlight, inFlight, hhere, hthere, sends.arrived, sends.leavingThere]
      rw [hsame]
      exact Nat.le_trans (Nat.le_of_eq (Nat.zero_add _)) (Nat.le_add_left _ _)
    · rw [eq_other ht]
      obtain ⟨n, hn, lost, hmoved⟩ := sends.account
      have hx := hmoved.count_eq x
      have hafter : inFlight ((p.set side h).set side.other peer) side.other = peer.arrived ++ h.leaving := by
        rw [inFlight, hthere, other_other, hhere]
      have hbefore : inFlight p side.other = (p.get side.other).arrived ++ (p.get side).leaving := by
        rw [inFlight, other_other]
      have hsent : sent? side.other ⟨p, .send side envelope nowUs, .result res, (p.set side h).set side.other peer⟩ =
          some envelope := if_pos rfl
      have hmade : (List.replicate n envelope).count x ≤
          ImpairmentEngine.copies (cfg side.other.other) * ([envelope] : List MessageEnvelope).count x := by
        rw [other_other, ← ledger.config side, List.count_replicate, List.count_singleton]
        split
        · rw [Nat.mul_one]
          exact hn
        · exact Nat.zero_le _
      have hreturned : returned? side.other
          ⟨p, .send side envelope nowUs, .result res, (p.set side h).set side.other peer⟩ = none := rfl
      have hinjected : injected? side.other
          ⟨p, .send side envelope nowUs, .result res, (p.set side h).set side.other peer⟩ = none := rfl
      rw [hafter, hbefore, hsent, hreturned, hinjected, Option.toList_none, Option.toList_some, List.count_nil]
      simp only [List.count_append] at hx ⊢
      omega

/-- One call. -/
theorem Ledger.step (ledger : Ledger cfg past p) (hexec : exec call p = .ok (answer, p')) :
    Ledger cfg (past ++ [⟨p, call, answer, p'⟩]) p' := by
  cases call with
  | send side envelope nowUs =>
    obtain ⟨⟨res, h, peer⟩, hsend, hdone⟩ := bind_eq_ok.mp hexec
    cases hdone
    exact ledger.send (sendMessage_sends (ledger.sane side) (ledger.sane side.other) hsend)
  | inject side envelope =>
    obtain ⟨⟨res, h⟩, hinject, hdone⟩ := bind_eq_ok.mp hexec
    cases hdone
    have htakes := inject_takes (ledger.sane side) hinject
    refine ledger.here htakes.sane htakes.cfg htakes.leaving (fun _ => rfl) (fun _ _ => rfl) fun x => ?_
    obtain ⟨lost, hlost⟩ := htakes.account
    have hx := hlost.count_eq x
    have hinjected : injected? side ⟨p, .inject side envelope, .result res, p.set side h⟩ = some envelope := if_pos rfl
    have hreturned : returned? side ⟨p, .inject side envelope, .result res, p.set side h⟩ = none := rfl
    rw [hinjected, hreturned]
    simp only [List.count_append] at hx
    show [].count x + _ ≤ [envelope].count x + _
    rw [List.count_nil]
    omega
  | receive side timeoutMs =>
    obtain ⟨⟨reply, h⟩, hreceive, hdone⟩ := bind_eq_ok.mp hexec
    cases hdone
    have hgives := receiveMessage_gives (ledger.sane side) hreceive
    refine ledger.here hgives.sane hgives.cfg hgives.leaving (fun _ => rfl) (fun t ht => ?_) fun x => ?_
    · cases reply with
      | ok env => exact if_neg ht
      | error r => rfl
    · have hreturned : returned? side ⟨p, .receive side timeoutMs, .reply reply, p.set side h⟩ = reply.toOption := by
        cases reply with
        | ok env => exact if_pos rfl
        | error r => rfl
      have hx := congrArg (List.count x) hgives.account
      rw [List.count_append] at hx
      rw [hreturned, hx]
      exact Nat.le_add_left _ _

theorem ledger_init {channel : Side → Option ImpairmentConfig} {entropy : Side → UInt64}
    (hinit : init channel entropy = .ok p) :
    Ledger (fun t => (channel t).getD impairmentConfigDefault) [] p := by
  obtain ⟨left, hleft, hinit⟩ := bind_eq_ok.mp hinit
  obtain ⟨right, hright, hinit⟩ := bind_eq_ok.mp hinit
  cases hinit
  obtain ⟨lsane, larrived, lleaving, lcfg⟩ := init_sane hleft
  obtain ⟨rsane, rarrived, rleaving, rcfg⟩ := init_sane hright
  refine ⟨fun t => ?_, fun t => ?_, fun t x => ?_⟩
  · cases t with
    | left => exact ⟨lsane.counted, lsane.windowed, lsane.bounded⟩
    | right => exact ⟨rsane.counted, rsane.windowed, rsane.bounded⟩
  · cases t with
    | left => exact lcfg
    | right => exact rcfg
  · have hempty : inFlight ⟨left.link, right.link⟩ t = [] := by
      cases t with
      | left => exact List.append_eq_nil_iff.mpr ⟨larrived, rleaving⟩
      | right => exact List.append_eq_nil_iff.mpr ⟨rarrived, lleaving⟩
    rw [hempty]
    exact Nat.zero_le _

/-- Whatever the impairments of the two sides are and whatever their generators draw: each side has returned,
and still has on the way to it, no message more often than it was given to send to it and copied, or given to
inject there. -/
theorem harness_account {channel : Side → Option ImpairmentConfig} {entropy : Side → UInt64} {calls : List Call}
    {answers : List Answer} (hinit : init channel entropy = .ok p)
    (hrun : Run.runAll exec calls p = .ok (answers, p')) (t : Side) (x : MessageEnvelope) :
    (returnedAt t (Run.history exec calls p)).count x + (inFlight p' t).count x ≤
      ImpairmentEngine.copies ((channel t.other).getD impairmentConfigDefault) *
          (sentTo t (Run.history exec calls p)).count x +
        (injectedAt t (Run.history exec calls p)).count x := by
  have hledger := Run.runAll_history
    (I := Ledger fun t => (channel t).getD impairmentConfigDefault)
    (fun call _ past p answer p' ledger hexec => ledger.step hexec) (ledger_init hinit) hrun
  exact hledger.account t x

/-- The left side sends, and the right side returns the message and its copy. -/
def doublingCalls : List Call :=
  [.send .left (ImpairmentEngine.someMessage 0) 1000, .send .left (ImpairmentEngine.someMessage 1) 5000,
   .receive .right 0, .receive .right 0]

theorem harness_account_doubling : ∃ p answers p', init (fun _ => some ImpairmentEngine.doubling) (fun _ => 7) = .ok p ∧
    Run.runAll exec doublingCalls p = .ok (answers, p') ∧ ∀ x,
      (returnedAt .right (Run.history exec doublingCalls p)).count x + (inFlight p' .right).count x ≤
        ImpairmentEngine.copies ImpairmentEngine.doubling * (sentTo .right (Run.history exec doublingCalls p)).count x +
          (injectedAt .right (Run.history exec doublingCalls p)).count x := by
  have hruns : Succeeds (init (fun _ => some ImpairmentEngine.doubling) fun _ => 7)
      fun p => Run.Ends exec doublingCalls p fun _ => True := by decide +kernel
  obtain ⟨p, hinit, hends⟩ := hruns.exists
  obtain ⟨answers, p', hrun, -⟩ := hends.exists
  exact ⟨p, answers, p', hinit, hrun, harness_account hinit hrun .right⟩

end LocalSimPair

end MessageEngine
