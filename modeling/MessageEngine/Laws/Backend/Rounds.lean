import MessageEngine.Core.DatagramTransport
import MessageEngine.Core.TcpTransport
import MessageEngine.Core.TlsTransport
import MessageEngine.Laws.Backend.Inbox
import MessageEngine.Laws.Serializer.Frame

/-!
# How often receive_message polls

`receive_message` rounds its timeout up to tenths of a second, and polls once for each. The sum that rounds
up is one of 32 bits: it is `0` for the timeout `0`, and again for the last ninety-nine.

## What is proved

- `pollCount_pos_iff`, `pollCount_le`: where the number of rounds is positive, and that it grows with the
  timeout up to there;
- `Pump.rounds_mono`: a call with more rounds polls at least as often;
- `receive_polls_iff`: in each of the four backends the timeouts for which a call that times out has polled,
  and has polled at least as often as one with a shorter timeout, are those from `1` to `2 ^ 32 - 100`.
-/

namespace MessageEngine

open Outcome

/-- The timeouts that are rounded up without overflow, and are not `0`. -/
def Rounded (timeoutMs : UInt32) : Prop := 1 ≤ timeoutMs.toNat ∧ timeoutMs.toNat ≤ 2 ^ 32 - 100

instance (timeoutMs : UInt32) : Decidable (Rounded timeoutMs) := inferInstanceAs (Decidable (_ ∧ _))

theorem pollCount_toNat (timeoutMs : UInt32) :
    (pollCount timeoutMs).toNat = min ((timeoutMs.toNat + 99) % 2 ^ 32 / 100) 50 := by
  have hquot : ((timeoutMs + 99) / 100).toNat = (timeoutMs.toNat + 99) % 2 ^ 32 / 100 := by
    rw [UInt32.toNat_div, UInt32.toNat_add]
    rfl
  unfold pollCount
  dsimp only
  split
  case isTrue hgt =>
    have hmany : 50 < ((timeoutMs + 99) / 100).toNat := hgt
    have hcap : (50 : UInt32).toNat = 50 := rfl
    omega
  case isFalse hle =>
    have hfew : ¬ 50 < ((timeoutMs + 99) / 100).toNat := hle
    omega

theorem pollCount_pos_iff (timeoutMs : UInt32) : 0 < (pollCount timeoutMs).toNat ↔ Rounded timeoutMs := by
  have hlt := timeoutMs.toNat_lt
  rw [pollCount_toNat]
  unfold Rounded
  omega

theorem pollCount_le {shorter longer : UInt32} (hle : shorter ≤ longer) (hrounded : Rounded longer) :
    (pollCount shorter).toNat ≤ (pollCount longer).toNat := by
  have hle : shorter.toNat ≤ longer.toNat := hle
  have hlast := hrounded.2
  rw [pollCount_toNat, pollCount_toNat]
  omega

theorem pollCount_le_cap (timeoutMs : UInt32) : pollCount timeoutMs ≤ 50 := by
  have hcap : (pollCount timeoutMs).toNat ≤ 50 := by
    rw [pollCount_toNat]
    omega
  exact hcap

/-! ## Rounds -/

namespace Pump

variable {τ σ : Type} {p : Pump τ σ} {turns : Nat → τ} {s s' : σ} {d : Delivery}

/-- Nothing is queued. -/
def Waits (p : Pump τ σ) (s : σ) : Prop := p.pop s = .ok (.error .errEmpty, s)

/-- One round: a message was queued by the polling or by the flush, or the next round follows. -/
theorem rounds_cases {left attempt : Nat} (h : p.rounds turns (left + 1) attempt s = .ok (d, s')) :
    d.polls = attempt + 1 ∧ (∃ env, d.reply = .ok env) ∧
        (∀ left', p.rounds turns (left' + 1) attempt s = .ok (d, s')) ∨
      ∃ s₁, ∀ left', p.rounds turns (left' + 1) attempt s = p.rounds turns left' (attempt + 1) s₁ := by
  rw [rounds] at h
  obtain ⟨s₁, hpoll, h⟩ := bind_eq_ok.mp h
  obtain ⟨⟨reply, s₂⟩, hpop, h⟩ := bind_eq_ok.mp h
  cases reply with
  | ok env =>
    left
    cases h
    refine ⟨rfl, ⟨env, rfl⟩, fun left' => ?_⟩
    rw [rounds, hpoll, ok_bind, hpop]
    rfl
  | error res =>
    obtain ⟨s₃, hflush, h⟩ := bind_eq_ok.mp h
    obtain ⟨⟨reply, s₄⟩, hpop', h⟩ := bind_eq_ok.mp h
    cases reply with
    | ok env =>
      left
      cases h
      refine ⟨rfl, ⟨env, rfl⟩, fun left' => ?_⟩
      rw [rounds, hpoll, ok_bind, hpop, ok_bind]
      dsimp only
      rw [hflush, ok_bind, hpop']
      rfl
    | error res' =>
      right
      refine ⟨s₄, fun left' => ?_⟩
      rw [rounds, hpoll, ok_bind, hpop, ok_bind]
      dsimp only
      rw [hflush, ok_bind, hpop']
      rfl

/-- A call that times out has gone through all its rounds. -/
theorem rounds_timeout {left attempt : Nat} (h : p.rounds turns left attempt s = .ok (d, s'))
    (htimeout : d.reply = .error .errTimeout) : d.polls = attempt + left := by
  induction left generalizing attempt s with
  | zero => cases h; rfl
  | succ left ih =>
    rcases rounds_cases h with ⟨-, ⟨env, hreply⟩, -⟩ | ⟨s₁, hnext⟩
    · rw [hreply] at htimeout
      cases htimeout
    · rw [hnext] at h
      rw [ih h]
      omega

theorem rounds_polls_ge {left attempt : Nat} (h : p.rounds turns left attempt s = .ok (d, s')) :
    attempt ≤ d.polls := by
  induction left generalizing attempt s with
  | zero => cases h; exact Nat.le_refl _
  | succ left ih =>
    rcases rounds_cases h with ⟨hpolls, -⟩ | ⟨s₁, hnext⟩
    · omega
    · rw [hnext] at h
      exact Nat.le_of_succ_le (ih h)

/-- With more rounds the sockets are polled at least as often. -/
theorem rounds_mono {fewer more attempt : Nat} (hle : fewer ≤ more) {d' : Delivery} {s'' : σ}
    (hfewer : p.rounds turns fewer attempt s = .ok (d', s''))
    (hmore : p.rounds turns more attempt s = .ok (d, s')) : d'.polls ≤ d.polls := by
  induction fewer generalizing more attempt s with
  | zero =>
    cases hfewer
    exact rounds_polls_ge hmore
  | succ fewer ih =>
    obtain ⟨more, rfl⟩ := Nat.exists_eq_add_of_le' (Nat.le_trans (Nat.succ_pos _) hle)
    rcases rounds_cases hfewer with ⟨-, -, hsame⟩ | ⟨s₁, hnext⟩
    · rw [hsame] at hmore
      cases hmore
      exact Nat.le_refl _
    · rw [hnext] at hfewer hmore
      exact ih (by omega) hfewer hmore

/-- The rule for `receive_message`: what every flush and pop keeps, and every round that meets a good turn, the
call keeps when the turns it meets are good. -/
theorem rounds_inv {I : σ → Prop} {good : τ → Prop}
    (hpoll : ∀ turn s s', I s → good turn → p.poll turn s = .ok s' → I s')
    (hflush : ∀ turn s s', I s → p.flush turn s = .ok s' → I s')
    (hpop : ∀ s reply s', I s → p.pop s = .ok (reply, s') → I s') {left attempt : Nat}
    (h : p.rounds turns left attempt s = .ok (d, s')) (start : I s)
    (hgood : ∀ n, attempt ≤ n → n < d.polls → good (turns n)) : I s' := by
  induction left generalizing attempt s with
  | zero =>
    cases h
    exact start
  | succ left ih =>
    have hpolled : attempt < d.polls := by
      rcases rounds_cases h with ⟨hpolls, -⟩ | ⟨s₁, hnext⟩
      · omega
      · rw [hnext] at h
        exact rounds_polls_ge h
    rw [rounds] at h
    obtain ⟨s₁, hrun, h⟩ := bind_eq_ok.mp h
    have h₁ := hpoll _ _ _ start (hgood attempt (Nat.le_refl _) hpolled) hrun
    obtain ⟨⟨reply, s₂⟩, hrun, h⟩ := bind_eq_ok.mp h
    have h₂ := hpop _ _ _ h₁ hrun
    cases reply with
    | ok env =>
      cases h
      exact h₂
    | error res =>
      obtain ⟨s₃, hrun, h⟩ := bind_eq_ok.mp h
      have h₃ := hflush _ _ _ h₂ hrun
      obtain ⟨⟨reply, s₄⟩, hrun, h⟩ := bind_eq_ok.mp h
      have h₄ := hpop _ _ _ h₃ hrun
      cases reply with
      | ok env =>
        cases h
        exact h₄
      | error res' => exact ih h h₄ fun n hn hlt => hgood n (Nat.le_of_succ_le hn) hlt

theorem receiveMessage_inv {I : σ → Prop} {good : τ → Prop} {site : Site} {timeoutMs : UInt32}
    (hpoll : ∀ turn s s', I s → good turn → p.poll turn s = .ok s' → I s')
    (hflush : ∀ turn s s', I s → p.flush turn s = .ok s' → I s')
    (hpop : ∀ s reply s', I s → p.pop s = .ok (reply, s') → I s')
    (h : p.receiveMessage site timeoutMs turns s = .ok (d, s')) (start : I s)
    (hgood : ∀ n < d.polls, good (turns n)) : I s' := by
  unfold receiveMessage at h
  obtain ⟨⟨reply, s₁⟩, hrun, h⟩ := bind_eq_ok.mp h
  have h₁ := hpop _ _ _ start hrun
  cases reply with
  | ok env =>
    cases h
    exact h₁
  | error res =>
    obtain ⟨-, h⟩ := ensure_bind_eq_ok.mp h
    exact rounds_inv hpoll hflush hpop h h₁ fun n _ hlt => hgood n hlt

theorem receiveMessage_eq {site : Site} (hwaits : p.Waits s) (timeoutMs : UInt32) :
    p.receiveMessage site timeoutMs turns s = p.rounds turns (pollCount timeoutMs).toNat 0 s := by
  unfold receiveMessage
  rw [hwaits, ok_bind]
  dsimp only
  rw [neverCompiledOutAssert, ensure, if_pos (pollCount_le_cap timeoutMs)]
  rfl

/-- A call with this timeout that times out has polled, and a call with a shorter timeout, in the same
circumstances, does not poll more often. -/
def Polls (receive : UInt32 → (Nat → τ) → Checked (Delivery × σ)) (timeoutMs : UInt32) : Prop :=
  (∀ turns d s', receive timeoutMs turns = .ok (d, s') → d.reply = .error .errTimeout → 1 ≤ d.polls) ∧
    ∀ shorter ≤ timeoutMs, ∀ turns d' s'' d s', receive shorter turns = .ok (d', s'') →
      receive timeoutMs turns = .ok (d, s') → d'.polls ≤ d.polls

theorem polls_iff {receive : UInt32 → (Nat → τ) → Checked (Delivery × σ)}
    (hreceive : ∀ timeoutMs turns, receive timeoutMs turns = p.rounds turns (pollCount timeoutMs).toNat 0 s)
    (turn : τ) (timeoutMs : UInt32) : Polls receive timeoutMs ↔ Rounded timeoutMs := by
  constructor
  · intro hpolls
    by_contra hnot
    have hnone : (pollCount timeoutMs).toNat = 0 :=
      Nat.eq_zero_of_not_pos fun hpos => hnot ((pollCount_pos_iff timeoutMs).mp hpos)
    have hidle : receive timeoutMs (fun _ => turn) = .ok (⟨.error .errTimeout, 0⟩, s) := by
      rw [hreceive, hnone]
      rfl
    have hpolled : 1 ≤ 0 := hpolls.1 _ _ _ hidle rfl
    omega
  · intro hrounded
    refine ⟨fun turns d s' hrun htimeout => ?_, fun shorter hle turns d' s'' d s' hshorter hrun => ?_⟩
    · rw [hreceive] at hrun
      have hpos := (pollCount_pos_iff timeoutMs).mpr hrounded
      have hall := rounds_timeout hrun htimeout
      omega
    · rw [hreceive] at hshorter hrun
      exact rounds_mono (pollCount_le hle hrounded) hshorter hrun

end Pump

/-! ## The four backends -/

/-- The receive queue is empty. -/
def Inbox.IsEmpty (b : Inbox) : Prop := b.recvQueue.tail = b.recvQueue.head

theorem Inbox.IsEmpty.pop {b : Inbox} (h : b.IsEmpty) :
    b.recvQueue.pop = .ok (.error .errEmpty, b.recvQueue) := by
  unfold RingBuffer.pop
  dsimp only
  rw [h, UInt32.sub_self]
  rfl

/-- In each backend, on an open socket with nothing queued: exactly the timeouts from `1` to `2 ^ 32 - 100`
are such that a call that times out has polled, and no call with a shorter one polls more often. -/
theorem receive_polls_iff (timeoutMs : UInt32) :
    (∀ t : TcpTransport, t.isOpen → t.backend.inbox.IsEmpty →
      (Pump.Polls t.receiveMessage timeoutMs ↔ Rounded timeoutMs)) ∧
    (∀ t : UdpTransport, t.backend.isOpen → t.backend.fd ≥ 0 → t.backend.inbox.IsEmpty →
      (Pump.Polls t.receiveMessage timeoutMs ↔ Rounded timeoutMs)) ∧
    (∀ t : TlsTransport, t.isOpen → t.backend.inbox.IsEmpty →
      (Pump.Polls t.receiveMessage timeoutMs ↔ Rounded timeoutMs)) ∧
    (∀ t : DtlsTransport, t.backend.isOpen → t.backend.sockFd ≥ 0 →
      t.backend.inbox.IsEmpty → (Pump.Polls t.receiveMessage timeoutMs ↔ Rounded timeoutMs)) := by
  refine ⟨?_, ?_, ?_, ?_⟩
  · intro t hopen hempty
    have hwaits : TcpTransport.pump.Waits t := by
      unfold Pump.Waits TcpTransport.pump
      dsimp only
      rw [hempty.pop]
      rfl
    refine Pump.polls_iff (p := TcpTransport.pump) (s := t) (fun timeoutMs turns => ?_)
      ⟨0, none, -1, fun _ => .timeout, 0, fun _ => ⟨none, 0⟩, 0⟩ timeoutMs
    unfold TcpTransport.receiveMessage
    rw [neverCompiledOutAssert, ensure_pos hopen, ok_bind, Pump.receiveMessage_eq hwaits]
  · intro t hopen hfd hempty
    have hwaits : UdpTransport.pump.Waits t := by
      unfold Pump.Waits UdpTransport.pump
      dsimp only
      rw [hempty.pop]
      rfl
    refine Pump.polls_iff (p := UdpTransport.pump) (s := t) (fun timeoutMs turns => ?_) ⟨⟨none, 0⟩, 0⟩ timeoutMs
    unfold UdpTransport.receiveMessage
    rw [neverCompiledOutAssert, ensure_pos hopen, ok_bind, neverCompiledOutAssert, ensure_pos hfd, ok_bind,
      Pump.receiveMessage_eq hwaits]
  · intro t hopen hempty
    have hwaits : TlsTransport.pump.Waits t := by
      unfold Pump.Waits TlsTransport.pump
      dsimp only
      rw [hempty.pop]
      rfl
    refine Pump.polls_iff (p := TlsTransport.pump) (s := t) (fun timeoutMs turns => ?_)
      ⟨0, -1, fun _ => .timeout, fun _ => .failed, 0, fun _ => false, fun _ => false, fun _ => ⟨none, 0⟩, 0⟩ timeoutMs
    unfold TlsTransport.receiveMessage
    rw [neverCompiledOutAssert, ensure_pos hopen, ok_bind, Pump.receiveMessage_eq hwaits]
  · intro t hopen hfd hempty
    have hwaits : DtlsTransport.pump.Waits t := by
      unfold Pump.Waits DtlsTransport.pump
      dsimp only
      rw [hempty.pop]
      rfl
    refine Pump.polls_iff (p := DtlsTransport.pump) (s := t) (fun timeoutMs turns => ?_) ⟨⟨none, 0⟩, 0⟩ timeoutMs
    unfold DtlsTransport.receiveMessage
    rw [neverCompiledOutAssert, ensure_pos hopen, ok_bind, neverCompiledOutAssert, ensure_pos hfd, ok_bind,
      Pump.receiveMessage_eq hwaits]

/-! ### A frame that has arrived -/

/-- A server whose client `2` has said `HELLO`; nothing is queued. -/
def greetedSocket : UdpTransport where
  backend := { UdpBackend.start ⟨[49], 7⟩ 3 .calm with peer := ⟨2, true⟩ }
  localNodeId := 1
  out := ⟨[], fun _ => true, 0⟩

/-- A message of the client, as it comes over the wire. -/
def arrivedFrame : Frame :=
  ⟨Serializer.encode { envelopeInit with messageType := .data, messageId := 1, sourceId := 2, destinationId := 1 },
    by decide +kernel⟩

/-- A round in which the message is there to be received. -/
def arrivedTurn : DatagramTurn := ⟨⟨some (⟨[49], 7⟩, arrivedFrame), 1⟩, 1⟩

theorem greetedSocket_receives : Succeeds (greetedSocket.receiveMessage 1 fun _ => arrivedTurn) fun r =>
    r.1.polls = 1 ∧ Succeeds r.1.reply fun env => env.sourceId = 2 ∧ env.messageId = 1 := by
  decide +kernel

/-- The timeout `1` is one of the good ones. -/
theorem greetedSocket_polls : Pump.Polls greetedSocket.receiveMessage 1 ∧
    ¬ Pump.Polls greetedSocket.receiveMessage 0 := by
  have hiff := fun timeoutMs => (receive_polls_iff timeoutMs).2.1 greetedSocket rfl (by decide) rfl
  exact ⟨(hiff 1).mpr (by decide), fun h => absurd ((hiff 0).mp h) (by decide)⟩

/-- With the timeouts `0` and `2 ^ 32 - 1` the message is left where it is: the call times out and has not
polled. With the timeout `1` it is received. -/
theorem zero_leaves_frame :
    greetedSocket.receiveMessage 0 (fun _ => arrivedTurn) = .ok (⟨.error .errTimeout, 0⟩, greetedSocket) ∧
    greetedSocket.receiveMessage 4294967295 (fun _ => arrivedTurn) =
      .ok (⟨.error .errTimeout, 0⟩, greetedSocket) ∧
    ∃ env s', greetedSocket.receiveMessage 1 (fun _ => arrivedTurn) = .ok (⟨.ok env, 1⟩, s') ∧
      env.sourceId = 2 ∧ env.messageId = 1 := by
  refine ⟨rfl, rfl, ?_⟩
  obtain ⟨⟨⟨reply, polls⟩, s'⟩, hrun, rfl, hreply⟩ := greetedSocket_receives.exists
  obtain ⟨env, rfl, hsource, hid⟩ := hreply.exists
  exact ⟨env, s', hrun, hsource, hid⟩

end MessageEngine
