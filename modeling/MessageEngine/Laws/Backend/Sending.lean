import MessageEngine.Laws.Backend.Rounds
import MessageEngine.Laws.Backend.SendingLaw
import MessageEngine.Laws.Datagram

/-!
# What the datagram backends send

The laws of `SendingLaw` over the runs of the two datagram backends. A `HELLO` goes out past the impairments, when
the node is registered and, in a DTLS server, when the peer has introduced itself.

## What is proved

- `UdpTransport.runs_keep`, `DtlsTransport.runs_keep`: every run keeps every law;
- `datagrams_accounted`: the datagrams that were sent or wait are those of messages that were given, no more often
  than they were given and copied, and of `HELLO`s, and went to the peer;
- `datagrams_in_order`: with the master switch off, and when every datagram is taken, they are sent at once and in
  order;
- `is_open_answers`: the assertion of `is_open` never fails.
-/

namespace MessageEngine

open Outcome

variable {toPeer : Option Source → Prop} {cfg : ImpairmentConfig} {said : List Said} {i : ImpairmentEngine}
  {o : DatagramOutbound} {m : MessageEnvelope} {nowUs : UInt64} {res : Result}

/-- A datagram that comes in leaves the delay buffer alone. -/
theorem Datagrams.Step.delays {FromPeer : Source → Prop} {v v' : Datagrams} {a : Attempt}
    {effects : List DatagramEffect} (step : Step FromPeer v (.arrival a) effects v') :
    ImpairmentEngine.SameDelays v.inbox.impairment v'.inbox.impairment := by
  cases step with
  | ignored => exact .refl _
  | dropped => exact .refl _
  | greeted => exact .refl _
  | admitted peer data greeted speaks inbound =>
    obtain ⟨⟨⟨res, out⟩, impairment⟩, hinbound, hqueue⟩ := bind_eq_ok.mp inbound
    have hsame := ImpairmentEngine.processInbound_delays hinbound
    dsimp only at hqueue
    split at hqueue
    · cases hqueue
      exact hsame
    · cases out with
      | none =>
        cases hqueue
        exact hsame
      | some out =>
        obtain ⟨⟨res', recvQueue⟩, -, hqueue⟩ := bind_eq_ok.mp hqueue
        cases hqueue
        exact hsame

/-- A peer that has introduced itself stays so. -/
theorem Datagrams.Step.introduced {FromPeer : Source → Prop} {v v' : Datagrams} {a : Attempt}
    {effects : List DatagramEffect} (step : Step FromPeer v (.arrival a) effects v')
    (h : v.peer.helloReceived = true) : v'.peer.helloReceived = true := by
  cases step with
  | ignored => exact h
  | dropped => exact h
  | greeted => rfl
  | admitted => exact h

/-! ## UdpBackend -/

namespace UdpTransport

variable {t t' : UdpTransport} {b : UdpBackend} {peerAddress : Source}
  {L : List Said → ImpairmentEngine → DatagramOutbound → List MessageEnvelope → Prop}

/-- The backend is as it was, up to its impairments. -/
def Framed (b : UdpBackend) (t : UdpTransport) : Prop :=
  ∃ impairment, t.backend = { b with inbox := { b.inbox with impairment } }

theorem Framed.sameSocket (h : Framed b t) : UdpBackend.SameSocket b t.backend := by
  obtain ⟨impairment, hb⟩ := h
  rw [hb]
  exact ⟨rfl, rfl, rfl⟩

/-- Sending goes to the configured peer. -/
theorem sendOneEnvelope_sends {isCurrent failed : Bool} (valid : envelopeValid m)
    (h : t.sendOneEnvelope m isCurrent = .ok (failed, t')) :
    t' = { t with out := (t.out.send (some t.backend.peerAddress) (Serializer.encode m)).2 } := by
  obtain ⟨-, h⟩ := ensure_bind_eq_ok.mp h
  obtain ⟨wire, hwire, h⟩ := bind_eq_ok.mp h
  obtain ⟨buf, len, rfl, htake, -⟩ := serializeToWire_bytes valid hwire
  dsimp only at h
  rw [htake] at h
  split at h
  · cases h
    rfl
  · cases h
    rfl

/-- The peer is the configured one, and the flag says whether there is a socket. -/
structure Sound (peerAddress : Source) (t : UdpTransport) : Prop where
  peer : t.backend.peerAddress = peerAddress
  isOpen : t.backend.isOpen = decide (t.backend.fd ≥ 0)

theorem Sound.start {fd : Int} (hfd : fd ≥ 0) (os : Nat → Bool) : Sound peerAddress (.start peerAddress fd i os) :=
  ⟨rfl, (decide_eq_true hfd).symm⟩

theorem Sound.of_same (sound : Sound peerAddress t) (same : UdpBackend.SameSocket t.backend t'.backend) :
    Sound peerAddress t' := by
  refine ⟨?_, ?_⟩
  · rw [same.peerAddress]
    exact sound.peer
  · rw [same.isOpen, same.fd]
    exact sound.isOpen

theorem Sound.speaks (sound : Sound peerAddress t) :
    sender.Speaks (· = some peerAddress) UdpTransport.out (Framed t.backend) where
  one := by
    intro t₁ t₂ m isCurrent failed framed hm hone
    rw [sendOneEnvelope_sends hm.1 hone]
    refine ⟨framed, rfl, some t₁.backend.peerAddress, ?_, rfl⟩
    rw [framed.sameSocket.peerAddress, sound.peer]
  impairment := rfl
  out := rfl
  good := by
    intro t₁ i framed
    obtain ⟨impairment, hb⟩ := framed
    refine ⟨i, ?_⟩
    show { t₁.backend with inbox := { t₁.backend.inbox with impairment := i } } = _
    rw [hb]

/-- The law holds of the sending side. -/
def Obeys (L : List Said → ImpairmentEngine → DatagramOutbound → List MessageEnvelope → Prop) (said : List Said)
    (t : UdpTransport) : Prop := L said t.backend.inbox.impairment t.out []

theorem flushDelayedToWire_keeps (law : SendingLaw (· = some peerAddress) L) (sound : Sound peerAddress t)
    (holds : Obeys L said t) (h : t.flushDelayedToWire nowUs = .ok t') : Sound peerAddress t' ∧ Obeys L said t' := by
  obtain ⟨-, h⟩ := ensure_bind_eq_ok.mp h
  obtain ⟨-, h⟩ := ensure_bind_eq_ok.mp h
  obtain ⟨⟨delayed, i⟩, hcollect, h⟩ := bind_eq_ok.mp h
  obtain ⟨hframed, hholds⟩ := sound.speaks.flushed law ⟨_, rfl⟩ (fun s m s' hround => by
    obtain ⟨⟨failed, s₁⟩, hone, hround⟩ := bind_eq_ok.mp hround
    cases hround
    exact ⟨failed, hone⟩) holds hcollect h
  exact ⟨sound.of_same hframed.sameSocket, hholds⟩

theorem receiveMessage_keeps {timeoutMs : UInt32} {turns : Nat → DatagramTurn} {delivery : Delivery}
    (law : SendingLaw (· = some peerAddress) L) (sound : Sound peerAddress t) (holds : Obeys L said t)
    (h : t.receiveMessage timeoutMs turns = .ok (delivery, t')) : Sound peerAddress t' ∧ Obeys L said t' := by
  obtain ⟨-, h⟩ := ensure_bind_eq_ok.mp h
  obtain ⟨-, h⟩ := ensure_bind_eq_ok.mp h
  have hpoll (turn : DatagramTurn) (t₁ t₂ : UdpTransport) (hkept : Sound peerAddress t₁ ∧ Obeys L said t₁) (_ : True)
      (hrun : pump.poll turn t₁ = .ok t₂) : Sound peerAddress t₂ ∧ Obeys L said t₂ := by
    obtain ⟨⟨received, backend⟩, hrecv, hrun⟩ := bind_eq_ok.mp hrun
    cases hrun
    obtain ⟨hsame, effects, -, hstep⟩ := UdpBackend.recvOneDatagram_step hrecv
    exact ⟨hkept.1.of_same hsame, law.same hkept.2 hstep.delays⟩
  have hflush (turn : DatagramTurn) (t₁ t₂ : UdpTransport) (hkept : Sound peerAddress t₁ ∧ Obeys L said t₁)
      (hrun : pump.flush turn t₁ = .ok t₂) : Sound peerAddress t₂ ∧ Obeys L said t₂ :=
    flushDelayedToWire_keeps law hkept.1 hkept.2 hrun
  have hpop (t₁ : UdpTransport) (reply : Reply) (t₂ : UdpTransport) (hkept : Sound peerAddress t₁ ∧ Obeys L said t₁)
      (hrun : pump.pop t₁ = .ok (reply, t₂)) : Sound peerAddress t₂ ∧ Obeys L said t₂ := by
    obtain ⟨⟨answer, recvQueue⟩, -, hrun⟩ := bind_eq_ok.mp hrun
    cases hrun
    exact ⟨hkept.1.of_same ⟨rfl, rfl, rfl⟩, hkept.2⟩
  exact Pump.receiveMessage_inv (I := fun t => Sound peerAddress t ∧ Obeys L said t) hpoll hflush hpop h
    ⟨sound, holds⟩ fun _ _ => trivial

/-- A peer was configured that a `HELLO` can be sent to. -/
def Greets (peerAddress : Source) : Prop := ¬ (peerAddress.ip = [] ∨ peerAddress.port = 0)

instance (peerAddress : Source) : Decidable (Greets peerAddress) := inferInstanceAs (Decidable (¬ _))

theorem sendHelloDatagram_keeps (law : SendingLaw (· = some peerAddress) L) (sound : Sound peerAddress t)
    (holds : Obeys L said t) (h : t.sendHelloDatagram = .ok (res, t')) : Sound peerAddress t' ∧
      Obeys L (said ++ if Greets peerAddress then [.hello (helloOf t.localNodeId)] else []) t' := by
  obtain ⟨hid, h⟩ := ensure_bind_eq_ok.mp h
  obtain ⟨-, h⟩ := ensure_bind_eq_ok.mp h
  have hm := fitsDatagram_hello hid
  rw [sound.peer] at h
  split at h
  case isTrue hnone =>
    cases h
    have hnot : ¬ Greets peerAddress := not_not.mpr hnone
    rw [if_neg hnot, List.append_nil]
    exact ⟨sound, holds⟩
  case isFalse hsome =>
    have hgreets : Greets peerAddress := hsome
    rw [if_pos hgreets]
    obtain ⟨wire, hwire, h⟩ := bind_eq_ok.mp h
    obtain ⟨buf, len, rfl, htake, -⟩ := serializeToWire_bytes hm.1 hwire
    have hsaid : Obeys L (said ++ [.hello (helloOf t.localNodeId)])
        { t with out := (t.out.send (some peerAddress) (Serializer.encode (helloOf t.localNodeId))).2 } :=
      law.say (law.hello holds hm) ⟨_, rfl, rfl⟩
    dsimp only at h
    rw [htake] at h
    split at h
    · cases h
      exact ⟨sound.of_same ⟨rfl, rfl, rfl⟩, hsaid⟩
    · obtain ⟨-, h⟩ := ensure_bind_eq_ok.mp h
      cases h
      exact ⟨sound.of_same ⟨rfl, rfl, rfl⟩, hsaid⟩

/-- One call that was made. -/
abbrev Made := Run.Taken UdpTransport (TransportCall DatagramTurn) Nat

/-- What is said by a call. -/
def saidIn (made : Made) : List Said :=
  match made.input with
  | .send env _ => saidOf env
  | .registerLocalId id => if Greets made.before.backend.peerAddress then [.hello (helloOf id)] else []
  | _ => []

/-- What is said by the calls of a run. -/
def saidOver (calls : List (TransportCall DatagramTurn)) (t : UdpTransport) : List Said :=
  (Run.history exec calls t).flatMap saidIn

theorem exec_keeps {call : TransportCall DatagramTurn} {polls : Nat} (law : SendingLaw (· = some peerAddress) L)
    (sound : Sound peerAddress t) (holds : Obeys L said t) (hexec : exec call t = .ok (polls, t')) :
    Sound peerAddress t' ∧ Obeys L (said ++ saidIn ⟨t, call, polls, t'⟩) t' := by
  cases call with
  | send env nowUs =>
    obtain ⟨⟨res, t₁⟩, hsend, hexec⟩ := bind_eq_ok.mp hexec
    cases hexec
    obtain ⟨-, hsend⟩ := ensure_bind_eq_ok.mp hsend
    obtain ⟨-, hsend⟩ := ensure_bind_eq_ok.mp hsend
    obtain ⟨hvalid, hsend⟩ := ensure_bind_eq_ok.mp hsend
    obtain ⟨hframed, hholds⟩ := sound.speaks.sendMessage law ⟨_, rfl⟩ hvalid holds hsend
    exact ⟨sound.of_same hframed.sameSocket, hholds⟩
  | receive timeoutMs turns =>
    obtain ⟨⟨delivery, t₁⟩, hreceive, hexec⟩ := bind_eq_ok.mp hexec
    cases hexec
    rw [saidIn, List.append_nil]
    exact receiveMessage_keeps law sound holds hreceive
  | registerLocalId id =>
    obtain ⟨⟨res, t₁⟩, hregister, hexec⟩ := bind_eq_ok.mp hexec
    cases hexec
    obtain ⟨-, hregister⟩ := ensure_bind_eq_ok.mp hregister
    obtain ⟨-, hregister⟩ := ensure_bind_eq_ok.mp hregister
    have hnamed : Sound peerAddress { t with localNodeId := id } := ⟨sound.peer, sound.isOpen⟩
    rw [saidIn, sound.peer]
    exact sendHelloDatagram_keeps law hnamed holds hregister
  | popHelloPeer =>
    cases hexec
    rw [saidIn, List.append_nil]
    exact ⟨sound, holds⟩
  | close =>
    cases hexec
    rw [saidIn, List.append_nil]
    exact ⟨⟨sound.peer, rfl⟩, holds⟩

/-- A law holds after every run. -/
theorem runs_keep {calls : List (TransportCall DatagramTurn)} {polls : List Nat}
    (law : SendingLaw (· = some peerAddress) L) (sound : Sound peerAddress t) (holds : Obeys L [] t)
    (hrun : Run.runAll exec calls t = .ok (polls, t')) :
    Sound peerAddress t' ∧ Obeys L (saidOver calls t) t' := by
  have hstart : Sound peerAddress t ∧ Obeys L ([].flatMap saidIn) t := ⟨sound, holds⟩
  exact Run.runAll_history (I := fun past t => Sound peerAddress t ∧ Obeys L (past.flatMap saidIn) t)
    (fun call _ past t polls t' h hexec => by
      rw [List.flatMap_append, List.flatMap_singleton]
      exact exec_keeps law h.1 h.2 hexec) hstart hrun

end UdpTransport

/-! ## DtlsUdpBackend -/

namespace DtlsTransport

variable {t t' t₀ : DtlsTransport} {isServer tlsEnabled : Bool} {peerAddress : Source}
  {L : List Said → ImpairmentEngine → DatagramOutbound → List MessageEnvelope → Prop}

/-- Through the session, or without DTLS to the address of the peer; a client also knows the port. -/
def ToPeer (isServer tlsEnabled : Bool) (peerAddress : Source) (dest : Option Source) : Prop :=
  if tlsEnabled then dest = none
  else ∃ src, dest = some src ∧ src.ip = peerAddress.ip ∧ (isServer = true ∨ src.port = peerAddress.port)

/-- The configuration is this one, and the flag says whether there is a socket. -/
structure Sound (isServer tlsEnabled : Bool) (peerAddress : Source) (t : DtlsTransport) : Prop where
  server : t.backend.isServer = isServer
  tls : t.backend.tlsEnabled = tlsEnabled
  peer : t.backend.peerAddress = peerAddress
  isOpen : t.backend.isOpen = decide (t.backend.sockFd ≥ 0)

theorem Sound.start {fd : Int} (hfd : fd ≥ 0) (os : Nat → Bool) :
    Sound isServer tlsEnabled peerAddress (.start isServer tlsEnabled peerAddress fd i os) :=
  ⟨rfl, rfl, rfl, (decide_eq_true hfd).symm⟩

theorem Sound.of_same (sound : Sound isServer tlsEnabled peerAddress t)
    (same : DtlsUdpBackend.SameSocket t.backend t'.backend) : Sound isServer tlsEnabled peerAddress t' := by
  refine ⟨?_, ?_, ?_, ?_⟩
  · rw [same.isServer]
    exact sound.server
  · rw [same.tlsEnabled]
    exact sound.tls
  · rw [same.peerAddress]
    exact sound.peer
  · rw [same.isOpen, same.sockFd]
    exact sound.isOpen

/-- The backend is as it was, up to its impairments. -/
def Framed (b : DtlsUdpBackend) (t : DtlsTransport) : Prop :=
  ∃ impairment, t.backend = { b with inbox := { b.inbox with impairment } }

theorem Framed.sameSocket {b : DtlsUdpBackend} (h : Framed b t) : DtlsUdpBackend.SameSocket b t.backend := by
  obtain ⟨impairment, hb⟩ := h
  rw [hb]
  exact ⟨rfl, rfl, rfl, rfl, rfl, rfl⟩

/-- Sending goes to the peer, and touches nothing else. -/
theorem sendWireBytes_sends {buf : List UInt8} {len : UInt32} (sound : Sound isServer tlsEnabled peerAddress t)
    (h : t.sendWireBytes buf len = .ok (res, t')) :
    ∃ dest, ToPeer isServer tlsEnabled peerAddress dest ∧
      t' = { t with out := (t.out.send dest (buf.take len.toNat)).2 } := by
  obtain ⟨-, h⟩ := ensure_bind_eq_ok.mp h
  obtain ⟨-, h⟩ := ensure_bind_eq_ok.mp h
  have hdone (dest : Option Source) (h : (if !(t.out.os t.out.sends) then
      pure (.errIo, { t with out := (t.out.send dest (buf.take len.toNat)).2 })
      else pure (.ok, { t with out := (t.out.send dest (buf.take len.toNat)).2 }) : Checked (Result × DtlsTransport)) =
        .ok (res, t')) : t' = { t with out := (t.out.send dest (buf.take len.toNat)).2 } := by
    split at h
    · cases h
      rfl
    · cases h
      rfl
  refine ⟨_, ?_, hdone _ h⟩
  unfold ToPeer
  rw [sound.tls, sound.server, sound.peer]
  split
  · rfl
  · refine ⟨_, rfl, rfl, ?_⟩
    cases isServer with
    | true => exact .inl rfl
    | false => exact .inr rfl

theorem sendOneEnvelope_sends {isCurrent failed : Bool} (sound : Sound isServer tlsEnabled peerAddress t)
    (hm : FitsDatagram m) (h : t.sendOneEnvelope m isCurrent = .ok (failed, t')) :
    ∃ dest, ToPeer isServer tlsEnabled peerAddress dest ∧
      t' = { t with out := (t.out.send dest (Serializer.encode m)).2 } := by
  obtain ⟨wire, hwire, h⟩ := bind_eq_ok.mp h
  obtain ⟨buf, len, rfl, htake, hlen⟩ := serializeToWire_bytes hm.1 hwire
  have hshort : ¬ len > dtlsMaxDatagramBytes := fun hlong =>
    Nat.not_le.mpr (UInt32.lt_iff_toNat_lt.mp hlong) (hlen ▸ hm.2)
  dsimp only at h
  rw [if_neg hshort] at h
  obtain ⟨⟨sendRes, t₁⟩, hsend, h⟩ := bind_eq_ok.mp h
  have hsent := sendWireBytes_sends sound hsend
  rw [htake] at hsent
  dsimp only at h
  split at h
  · cases h
    exact hsent
  · cases h
    exact hsent

theorem Sound.speaks (sound : Sound isServer tlsEnabled peerAddress t) :
    sender.Speaks (ToPeer isServer tlsEnabled peerAddress) DtlsTransport.out (Framed t.backend) where
  one := by
    intro t₁ t₂ m isCurrent failed hframed hm hone
    obtain ⟨dest, hdest, rfl⟩ := sendOneEnvelope_sends (sound.of_same hframed.sameSocket) hm hone
    exact ⟨hframed, rfl, dest, hdest, rfl⟩
  impairment := rfl
  out := rfl
  good := by
    intro t₁ i framed
    obtain ⟨impairment, hb⟩ := framed
    refine ⟨i, ?_⟩
    show { t₁.backend with inbox := { t₁.backend.inbox with impairment := i } } = _
    rw [hb]

/-- The law holds of the sending side. -/
def Obeys (L : List Said → ImpairmentEngine → DatagramOutbound → List MessageEnvelope → Prop) (said : List Said)
    (t : DtlsTransport) : Prop := L said t.backend.inbox.impairment t.out []

theorem flushDelayedToWire_keeps (law : SendingLaw (ToPeer isServer tlsEnabled peerAddress) L)
    (sound : Sound isServer tlsEnabled peerAddress t) (holds : Obeys L said t)
    (h : t.flushDelayedToWire nowUs = .ok t') : Framed t.backend t' ∧ Obeys L said t' := by
  obtain ⟨-, h⟩ := ensure_bind_eq_ok.mp h
  obtain ⟨-, h⟩ := ensure_bind_eq_ok.mp h
  obtain ⟨⟨delayed, i⟩, hcollect, h⟩ := bind_eq_ok.mp h
  exact sound.speaks.flushed law ⟨_, rfl⟩ (fun s m s' hround => by
    obtain ⟨⟨failed, s₁⟩, hone, hround⟩ := bind_eq_ok.mp hround
    cases hround
    exact ⟨failed, hone⟩) holds hcollect h

theorem sendHelloDatagram_keeps (law : SendingLaw (ToPeer isServer tlsEnabled peerAddress) L)
    (sound : Sound isServer tlsEnabled peerAddress t) (holds : Obeys L said t)
    (h : t.sendHelloDatagram = .ok (res, t')) :
    t'.backend = t.backend ∧ Obeys L (said ++ [.hello (helloOf t.backend.localNodeId)]) t' := by
  obtain ⟨hid, h⟩ := ensure_bind_eq_ok.mp h
  have hm := fitsDatagram_hello hid
  obtain ⟨wire, hwire, h⟩ := bind_eq_ok.mp h
  obtain ⟨buf, len, rfl, htake, hlen⟩ := serializeToWire_bytes hm.1 hwire
  have hshort : ¬ len > dtlsMaxDatagramBytes := fun hlong =>
    Nat.not_le.mpr (UInt32.lt_iff_toNat_lt.mp hlong) (hlen ▸ hm.2)
  dsimp only at h
  rw [if_neg hshort] at h
  obtain ⟨⟨sendRes, t₁⟩, hsend, h⟩ := bind_eq_ok.mp h
  obtain ⟨dest, hdest, rfl⟩ := sendWireBytes_sends sound hsend
  rw [htake] at h
  have hsaid : Obeys L (said ++ [.hello (helloOf t.backend.localNodeId)])
      { t with out := (t.out.send dest (Serializer.encode (helloOf t.backend.localNodeId))).2 } :=
    law.say (law.hello holds hm) ⟨dest, hdest, rfl⟩
  dsimp only at h
  split at h
  · cases h
    exact ⟨rfl, hsaid⟩
  · obtain ⟨-, h⟩ := ensure_bind_eq_ok.mp h
    cases h
    exact ⟨rfl, hsaid⟩

/-- What a server answers when its peer has introduced itself from one state to another. -/
def greeting (t t' : DtlsTransport) : List Said :=
  if t.backend.peer.helloReceived = false ∧ t'.backend.peer.helloReceived = true ∧ t'.backend.isServer = true ∧
      t'.backend.localNodeId ≠ nodeIdInvalid then [.hello (helloOf t'.backend.localNodeId)]
  else []

/-- How far a call of `receive_message` has come. -/
structure Receives (L : List Said → ImpairmentEngine → DatagramOutbound → List MessageEnvelope → Prop)
    (said : List Said) (t t' : DtlsTransport) : Prop where
  same : DtlsUdpBackend.SameSocket t.backend t'.backend
  greeted : t.backend.peer.helloReceived = true → t'.backend.peer.helloReceived = true
  holds : Obeys L (said ++ greeting t t') t'

/-- A step that leaves the peer alone. -/
theorem Receives.quiet (h : Receives L said t₀ t) (same : DtlsUdpBackend.SameSocket t.backend t'.backend)
    (peer : t'.backend.peer.helloReceived = t.backend.peer.helloReceived)
    (holds : ∀ said, Obeys L said t → Obeys L said t') : Receives L said t₀ t' := by
  refine ⟨h.same.trans same, fun hgreeted => ?_, ?_⟩
  · rw [peer]
    exact h.greeted hgreeted
  · have hsaid : greeting t₀ t' = greeting t₀ t := by
      unfold greeting
      rw [peer, same.isServer, same.localNodeId]
    rw [hsaid]
    exact holds _ h.holds

theorem Receives.poll {turn : DatagramTurn} (law : SendingLaw (ToPeer isServer tlsEnabled peerAddress) L)
    (sound : Sound isServer tlsEnabled peerAddress t) (h : Receives L said t₀ t)
    (hpoll : t.recvOneDtlsDatagram turn.attempt = .ok t') : Receives L said t₀ t' := by
  obtain ⟨⟨received, backend⟩, hrecv, hpoll⟩ := bind_eq_ok.mp hpoll
  obtain ⟨hsame, effects, -, hstep⟩ := DtlsUdpBackend.recvOneDtlsDatagram_step hrecv
  have hdelays := hstep.delays
  have hkept (said : List Said) (holds : Obeys L said t) : Obeys L said { t with backend } := law.same holds hdelays
  have hlater : t.backend.peer.helloReceived = true → backend.peer.helloReceived = true := hstep.introduced
  dsimp only at hpoll
  by_cases hfirst : t.backend.peer.helloReceived = false ∧ backend.peer.helloReceived = true
  · have hbefore : t₀.backend.peer.helloReceived = false := by
      by_contra hnot
      have hthen := h.greeted (Bool.not_eq_false _ |>.mp hnot)
      rw [hfirst.1] at hthen
      cases hthen
    have hnone : greeting t₀ t = [] := if_neg fun hwhen => by
      rw [hfirst.1] at hwhen
      exact Bool.false_ne_true hwhen.2.1
    have hholds := h.holds
    rw [hnone, List.append_nil] at hholds
    rw [hfirst.1, hfirst.2] at hpoll
    simp only [Bool.not_false, Bool.and_true, true_and] at hpoll
    split at hpoll
    case isTrue hanswer =>
      obtain ⟨⟨sendRes, t₁⟩, hhello, hpoll⟩ := bind_eq_ok.mp hpoll
      cases hpoll
      have hsound : Sound isServer tlsEnabled peerAddress { t with backend } := sound.of_same hsame
      obtain ⟨hbackend, hsaid⟩ := sendHelloDatagram_keeps law hsound (hkept said hholds) hhello
      refine ⟨?_, fun _ => ?_, ?_⟩
      · rw [hbackend]
        exact h.same.trans hsame
      · rw [hbackend]
        exact hfirst.2
      · have hgreeting : greeting t₀ t₁ = [.hello (helloOf backend.localNodeId)] := by
          unfold greeting
          rw [hbackend]
          exact if_pos ⟨hbefore, hfirst.2, hanswer⟩
        rw [hgreeting]
        exact hsaid
    case isFalse hquiet =>
      cases hpoll
      refine ⟨h.same.trans hsame, fun _ => hfirst.2, ?_⟩
      have hgreeting : greeting t₀ { t with backend } = [] := if_neg fun hwhen => hquiet hwhen.2.2
      rw [hgreeting, List.append_nil]
      exact hkept said hholds
  · have hpeer : backend.peer.helloReceived = t.backend.peer.helloReceived := by
      cases hbefore : t.backend.peer.helloReceived with
      | true => exact hlater hbefore
      | false =>
        by_contra hnot
        exact hfirst ⟨hbefore, Bool.not_eq_false _ |>.mp hnot⟩
    rw [hpeer] at hpoll
    simp only [Bool.not_and_self, Bool.false_eq_true, false_and, if_false] at hpoll
    cases hpoll
    exact h.quiet hsame hpeer hkept

theorem receiveMessage_keeps {timeoutMs : UInt32} {turns : Nat → DatagramTurn} {delivery : Delivery}
    (law : SendingLaw (ToPeer isServer tlsEnabled peerAddress) L) (sound : Sound isServer tlsEnabled peerAddress t)
    (holds : Obeys L said t) (h : t.receiveMessage timeoutMs turns = .ok (delivery, t')) : Receives L said t t' := by
  obtain ⟨-, h⟩ := ensure_bind_eq_ok.mp h
  obtain ⟨-, h⟩ := ensure_bind_eq_ok.mp h
  have hstart : Receives L said t t := by
    refine ⟨⟨rfl, rfl, rfl, rfl, rfl, rfl⟩, id, ?_⟩
    have hnone : greeting t t = [] := if_neg fun hwhen => by
      rw [hwhen.1] at hwhen
      exact Bool.false_ne_true hwhen.2.1
    rw [hnone, List.append_nil]
    exact holds
  have hpoll (turn : DatagramTurn) (t₁ t₂ : DtlsTransport) (hkept : Receives L said t t₁) (_ : True)
      (hrun : pump.poll turn t₁ = .ok t₂) : Receives L said t t₂ := hkept.poll law (sound.of_same hkept.same) hrun
  have hflush (turn : DatagramTurn) (t₁ t₂ : DtlsTransport) (hkept : Receives L said t t₁)
      (hrun : pump.flush turn t₁ = .ok t₂) : Receives L said t t₂ := by
    have hsound := sound.of_same hkept.same
    obtain ⟨i, hb⟩ := (flushDelayedToWire_keeps law hsound hkept.holds hrun).1
    refine hkept.quiet ?_ ?_ fun said holds => (flushDelayedToWire_keeps law hsound holds hrun).2
    · rw [hb]
      exact ⟨rfl, rfl, rfl, rfl, rfl, rfl⟩
    · rw [hb]
  have hpop (t₁ : DtlsTransport) (reply : Reply) (t₂ : DtlsTransport) (hkept : Receives L said t t₁)
      (hrun : pump.pop t₁ = .ok (reply, t₂)) : Receives L said t t₂ := by
    obtain ⟨⟨answer, recvQueue⟩, -, hrun⟩ := bind_eq_ok.mp hrun
    cases hrun
    exact hkept.quiet ⟨rfl, rfl, rfl, rfl, rfl, rfl⟩ rfl fun _ holds => holds
  exact Pump.receiveMessage_inv hpoll hflush hpop h hstart fun _ _ => trivial

/-- One call that was made. -/
abbrev Made := Run.Taken DtlsTransport (TransportCall DatagramTurn) Nat

/-- What is said by a call. -/
def saidIn (made : Made) : List Said :=
  match made.input with
  | .send env _ => saidOf env
  | .receive _ _ => greeting made.before made.after
  | .registerLocalId id => if made.before.backend.isServer then [] else [.hello (helloOf id)]
  | _ => []

/-- What is said by the calls of a run. -/
def saidOver (calls : List (TransportCall DatagramTurn)) (t : DtlsTransport) : List Said :=
  (Run.history exec calls t).flatMap saidIn

theorem exec_keeps {call : TransportCall DatagramTurn} {polls : Nat}
    (law : SendingLaw (ToPeer isServer tlsEnabled peerAddress) L) (sound : Sound isServer tlsEnabled peerAddress t)
    (holds : Obeys L said t) (hexec : exec call t = .ok (polls, t')) :
    Sound isServer tlsEnabled peerAddress t' ∧ Obeys L (said ++ saidIn ⟨t, call, polls, t'⟩) t' := by
  cases call with
  | send env nowUs =>
    obtain ⟨⟨res, t₁⟩, hsend, hexec⟩ := bind_eq_ok.mp hexec
    cases hexec
    obtain ⟨-, hsend⟩ := ensure_bind_eq_ok.mp hsend
    obtain ⟨hvalid, hsend⟩ := ensure_bind_eq_ok.mp hsend
    obtain ⟨hframed, hholds⟩ := sound.speaks.sendMessage law ⟨_, rfl⟩ hvalid holds hsend
    exact ⟨sound.of_same hframed.sameSocket, hholds⟩
  | receive timeoutMs turns =>
    obtain ⟨⟨delivery, t₁⟩, hreceive, hexec⟩ := bind_eq_ok.mp hexec
    cases hexec
    have hreceives := receiveMessage_keeps law sound holds hreceive
    exact ⟨sound.of_same hreceives.same, hreceives.holds⟩
  | registerLocalId id =>
    obtain ⟨⟨res, t₁⟩, hregister, hexec⟩ := bind_eq_ok.mp hexec
    cases hexec
    obtain ⟨-, hregister⟩ := ensure_bind_eq_ok.mp hregister
    obtain ⟨-, hregister⟩ := ensure_bind_eq_ok.mp hregister
    have hnamed : Sound isServer tlsEnabled peerAddress { t with backend := { t.backend with localNodeId := id } } :=
      ⟨sound.server, sound.tls, sound.peer, sound.isOpen⟩
    unfold saidIn
    dsimp only at hregister ⊢
    split at hregister
    case isTrue hclient =>
      have hnot : ¬ t.backend.isServer = true := by simpa using hclient
      obtain ⟨hbackend, hsaid⟩ := sendHelloDatagram_keeps law hnamed holds hregister
      rw [if_neg hnot]
      refine ⟨hnamed.of_same ?_, hsaid⟩
      rw [hbackend]
      exact ⟨rfl, rfl, rfl, rfl, rfl, rfl⟩
    case isFalse hserver =>
      cases hregister
      rw [if_pos (by simpa using hserver), List.append_nil]
      exact ⟨hnamed, holds⟩
  | popHelloPeer =>
    cases hexec
    rw [saidIn, List.append_nil]
    exact ⟨sound, holds⟩
  | close =>
    cases hexec
    rw [saidIn, List.append_nil]
    exact ⟨⟨sound.server, sound.tls, sound.peer, rfl⟩, holds⟩

/-- A law holds after every run. -/
theorem runs_keep {calls : List (TransportCall DatagramTurn)} {polls : List Nat}
    (law : SendingLaw (ToPeer isServer tlsEnabled peerAddress) L) (sound : Sound isServer tlsEnabled peerAddress t)
    (holds : Obeys L [] t) (hrun : Run.runAll exec calls t = .ok (polls, t')) :
    Sound isServer tlsEnabled peerAddress t' ∧ Obeys L (saidOver calls t) t' := by
  have hstart : Sound isServer tlsEnabled peerAddress t ∧ Obeys L ([].flatMap saidIn) t := ⟨sound, holds⟩
  exact Run.runAll_history
    (I := fun past t => Sound isServer tlsEnabled peerAddress t ∧ Obeys L (past.flatMap saidIn) t)
    (fun call _ past t polls t' h hexec => by
      rw [List.flatMap_append, List.flatMap_singleton]
      exact exec_keeps law h.1 h.2 hexec) hstart hrun

end DtlsTransport

/-! ## Every run -/

/-- What a run of a sending side leaves behind: of every datagram no more was sent, or waits, than may be, and what
was sent went to the peer and is the datagram of something that was said. -/
structure Accounted (toPeer : Option Source → Prop) (cfg : ImpairmentConfig) (said : List Said)
    (waiting : List MessageEnvelope) (sent : List (Option Source × List UInt8)) : Prop where
  balance : ∀ bytes, (sent.map Prod.snd).count bytes + (datagramsOf waiting).count bytes ≤ allowed cfg said bytes
  origin : ∀ d ∈ sent, toPeer d.1 ∧ ∃ x ∈ said, FitsDatagram x.message ∧ d.2 = Serializer.encode x.message

theorem SendingAccount.accounted (h : SendingAccount toPeer cfg said i o []) :
    Accounted toPeer cfg said i.waiting o.sent := by
  refine ⟨h.balance, fun d hd => ⟨h.peer d hd, ?_⟩⟩
  obtain ⟨x, hx, hbytes⟩ := h.origin hd
  exact ⟨x, hx, h.short x hx, hbytes⟩

/-- Whatever the impairments are, and whatever the operating system takes: every run of either backend leaves a
balanced account. -/
theorem datagrams_accounted {entropy : UInt64} (hinit : ImpairmentEngine.init cfg entropy = .ok i)
    (os : Nat → Bool) (peerAddress : Source) {fd : Int} (hfd : fd ≥ 0) (calls : List (TransportCall DatagramTurn)) :
    (∀ polls t, Run.runAll UdpTransport.exec calls (.start peerAddress fd i os) = .ok (polls, t) →
      Accounted (· = some peerAddress) cfg (UdpTransport.saidOver calls (.start peerAddress fd i os))
        t.backend.inbox.impairment.waiting t.out.sent) ∧
    (∀ isServer tlsEnabled polls t,
      Run.runAll DtlsTransport.exec calls (.start isServer tlsEnabled peerAddress fd i os) = .ok (polls, t) →
      Accounted (DtlsTransport.ToPeer isServer tlsEnabled peerAddress) cfg
        (DtlsTransport.saidOver calls (.start isServer tlsEnabled peerAddress fd i os))
        t.backend.inbox.impairment.waiting t.out.sent) := by
  constructor
  · intro polls t hrun
    exact (UdpTransport.runs_keep SendingAccount.law (.start hfd os) (SendingAccount.start hinit os) hrun).2.accounted
  · intro isServer tlsEnabled polls t hrun
    exact (DtlsTransport.runs_keep SendingAccount.law (.start hfd os) (SendingAccount.start hinit os) hrun).2.accounted

/-- The `HELLO` of the peer, as it comes over the wire. -/
def peerHello : Frame := ⟨Serializer.encode (helloOf 2), by decide +kernel⟩

/-- The node is registered, the peer says `HELLO`, two messages are given to send, and two rounds flush. -/
def sendingCalls : List (TransportCall DatagramTurn) :=
  [.registerLocalId 1, .receive 100 fun _ => ⟨⟨some (⟨[49], 7⟩, peerHello), 500⟩, 500⟩,
   .send (ImpairmentEngine.someMessage 0) 1000, .send (ImpairmentEngine.someMessage 1) 2000,
   .receive 100 fun _ => ⟨⟨none, 2100⟩, 2100⟩, .receive 100 fun _ => ⟨⟨none, 3000⟩, 3000⟩]

/-- Every message is doubled, and the third datagram is not taken: four are handed to the socket, and the last copy
still waits. -/
theorem datagrams_accounted_doubling : ∃ i, ImpairmentEngine.init ImpairmentEngine.doubling 0 = .ok i ∧
    (∃ polls t, Run.runAll UdpTransport.exec sendingCalls (.start ⟨[49], 7⟩ 3 i (· ≠ 2)) = .ok (polls, t) ∧
      (t.out.sent.length = 3 ∧ t.out.sends = 4 ∧ t.backend.inbox.impairment.waiting.length = 1) ∧
      Accounted (· = some ⟨[49], 7⟩) ImpairmentEngine.doubling
        (UdpTransport.saidOver sendingCalls (.start ⟨[49], 7⟩ 3 i (· ≠ 2)))
        t.backend.inbox.impairment.waiting t.out.sent) ∧
    (∃ polls t, Run.runAll DtlsTransport.exec sendingCalls (.start true false ⟨[49], 0⟩ 3 i (· ≠ 2)) = .ok (polls, t) ∧
      (t.out.sent.length = 3 ∧ t.out.sends = 4 ∧ t.backend.inbox.impairment.waiting.length = 1) ∧
      Accounted (DtlsTransport.ToPeer true false ⟨[49], 0⟩) ImpairmentEngine.doubling
        (DtlsTransport.saidOver sendingCalls (.start true false ⟨[49], 0⟩ 3 i (· ≠ 2)))
        t.backend.inbox.impairment.waiting t.out.sent) := by
  have hends : Succeeds (ImpairmentEngine.init ImpairmentEngine.doubling 0) fun i =>
      Run.Ends UdpTransport.exec sendingCalls (.start ⟨[49], 7⟩ 3 i (· ≠ 2)) (fun t =>
        t.out.sent.length = 3 ∧ t.out.sends = 4 ∧ t.backend.inbox.impairment.waiting.length = 1) ∧
      Run.Ends DtlsTransport.exec sendingCalls (.start true false ⟨[49], 0⟩ 3 i (· ≠ 2)) (fun t =>
        t.out.sent.length = 3 ∧ t.out.sends = 4 ∧ t.backend.inbox.impairment.waiting.length = 1) := by decide +kernel
  obtain ⟨i, hinit, hudp, hdtls⟩ := hends.exists
  obtain ⟨polls, t, hrun, hsent⟩ := hudp.exists
  obtain ⟨polls', t', hrun', hsent'⟩ := hdtls.exists
  refine ⟨i, hinit, ⟨polls, t, hrun, hsent, ?_⟩, polls', t', hrun', hsent', ?_⟩
  · exact (datagrams_accounted hinit (· ≠ 2) ⟨[49], 7⟩ (by decide) sendingCalls).1 polls t hrun
  · exact (datagrams_accounted hinit (· ≠ 2) ⟨[49], 0⟩ (by decide) sendingCalls).2 true false polls' t' hrun'

/-- With the master switch off, and when every datagram is taken: nothing waits, and all that was said was sent, in
order. -/
theorem datagrams_in_order {entropy : UInt64} (hinit : ImpairmentEngine.init cfg entropy = .ok i)
    (off : cfg.enabled = false) {os : Nat → Bool} (takes : ∀ n, os n = true) (peerAddress : Source) {fd : Int}
    (hfd : fd ≥ 0) (calls : List (TransportCall DatagramTurn)) :
    (∀ polls t, Run.runAll UdpTransport.exec calls (.start peerAddress fd i os) = .ok (polls, t) →
      t.backend.inbox.impairment.waiting = [] ∧ t.out.sent.map Prod.snd =
        datagramsOf ((UdpTransport.saidOver calls (.start peerAddress fd i os)).map Said.message)) ∧
    (∀ isServer tlsEnabled polls t,
      Run.runAll DtlsTransport.exec calls (.start isServer tlsEnabled peerAddress fd i os) = .ok (polls, t) →
      t.backend.inbox.impairment.waiting = [] ∧ t.out.sent.map Prod.snd =
        datagramsOf ((DtlsTransport.saidOver calls (.start isServer tlsEnabled peerAddress fd i os)).map
          Said.message)) := by
  constructor
  · intro polls t hrun
    have hprompt := (UdpTransport.runs_keep Prompt.law (.start hfd os) (Prompt.start hinit off takes) hrun).2
    exact ⟨hprompt.empty, (List.append_nil _).symm.trans hprompt.order⟩
  · intro isServer tlsEnabled polls t hrun
    have hprompt := (DtlsTransport.runs_keep Prompt.law (.start hfd os) (Prompt.start hinit off takes) hrun).2
    exact ⟨hprompt.empty, (List.append_nil _).symm.trans hprompt.order⟩

/-- A `HELLO` and two messages. -/
theorem datagrams_in_order_calm : ∃ i, ImpairmentEngine.init impairmentConfigDefault 1 = .ok i ∧
    (∃ polls t, Run.runAll UdpTransport.exec sendingCalls (.start ⟨[49], 7⟩ 3 i fun _ => true) = .ok (polls, t) ∧
      t.out.sent.length = 3 ∧ t.backend.inbox.impairment.waiting = [] ∧ t.out.sent.map Prod.snd =
        datagramsOf ((UdpTransport.saidOver sendingCalls (.start ⟨[49], 7⟩ 3 i fun _ => true)).map Said.message)) ∧
    (∃ polls t,
      Run.runAll DtlsTransport.exec sendingCalls (.start true false ⟨[49], 0⟩ 3 i fun _ => true) = .ok (polls, t) ∧
      t.out.sent.length = 3 ∧ t.backend.inbox.impairment.waiting = [] ∧ t.out.sent.map Prod.snd =
        datagramsOf ((DtlsTransport.saidOver sendingCalls (.start true false ⟨[49], 0⟩ 3 i fun _ => true)).map
          Said.message)) := by
  have hends : Succeeds (ImpairmentEngine.init impairmentConfigDefault 1) fun i =>
      Run.Ends UdpTransport.exec sendingCalls (.start ⟨[49], 7⟩ 3 i fun _ => true) (fun t => t.out.sent.length = 3) ∧
      Run.Ends DtlsTransport.exec sendingCalls (.start true false ⟨[49], 0⟩ 3 i fun _ => true)
        (fun t => t.out.sent.length = 3) := by decide +kernel
  obtain ⟨i, hinit, hudp, hdtls⟩ := hends.exists
  obtain ⟨polls, t, hrun, hsent⟩ := hudp.exists
  obtain ⟨polls', t', hrun', hsent'⟩ := hdtls.exists
  refine ⟨i, hinit, ⟨polls, t, hrun, hsent, ?_⟩, polls', t', hrun', hsent', ?_⟩
  · exact (datagrams_in_order hinit rfl (fun _ => rfl) ⟨[49], 7⟩ (by decide) sendingCalls).1 polls t hrun
  · exact (datagrams_in_order hinit rfl (fun _ => rfl) ⟨[49], 0⟩ (by decide) sendingCalls).2 true false polls' t' hrun'

/-- The assertion of `is_open` never fails. -/
theorem is_open_answers {entropy : UInt64} (hinit : ImpairmentEngine.init cfg entropy = .ok i) (os : Nat → Bool)
    (peerAddress : Source) {fd : Int} (hfd : fd ≥ 0) (calls : List (TransportCall DatagramTurn)) :
    (∀ polls t, Run.runAll UdpTransport.exec calls (.start peerAddress fd i os) = .ok (polls, t) →
      t.checkOpen = .ok t.backend.isOpen) ∧
    (∀ isServer tlsEnabled polls t,
      Run.runAll DtlsTransport.exec calls (.start isServer tlsEnabled peerAddress fd i os) = .ok (polls, t) →
      t.checkOpen = .ok t.backend.isOpen) := by
  constructor
  · intro polls t hrun
    have hsound := (UdpTransport.runs_keep SendingAccount.law (.start hfd os) (SendingAccount.start hinit os) hrun).1
    unfold UdpTransport.checkOpen
    rw [neverCompiledOutAssert, ensure_pos (.inl hsound.isOpen)]
    rfl
  · intro isServer tlsEnabled polls t hrun
    have hsound := (DtlsTransport.runs_keep SendingAccount.law (.start hfd os) (SendingAccount.start hinit os) hrun).1
    unfold DtlsTransport.checkOpen
    rw [neverCompiledOutAssert, ensure_pos (.inl hsound.isOpen)]
    rfl

end MessageEngine
