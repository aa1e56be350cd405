import MessageEngine.Laws.Backend.HelloQueue
import MessageEngine.Laws.Backend.Inbox
import MessageEngine.Laws.Backend.Registry
import MessageEngine.Laws.Serializer.Frame
import Mathlib.Data.Set.Card

/-!
# A server and its clients

What the two TCP servers do, event by event, without the arrays they do it with: a set of clients,
the queue of reconnect notifications, and the way into the receive queue. `Step` is what a server is
meant to do with an event; `Slip` is one thing a server can get wrong, marking a client as greeted
that was not.

## What is proved

- `Step.sound`, `Slip.sound`, `Step.greets`: the clients stay told apart, also by a slip; a step also
  keeps that exactly the registered clients have said `HELLO`;
- `Step.deterministic`: two servers that look alike do the same.
-/

namespace MessageEngine

open Outcome

/-! ## What was read -/

namespace Frame

theorem toNat_len (f : Frame) : f.len.toNat = f.bytes.length := by
  have hfits : f.bytes.length ≤ 8192 := f.fits
  rw [Frame.len, UInt32.toNat_ofNat', Nat.mod_eq_of_lt (by omega)]

/-- Decoding a frame answers. -/
theorem deserialize_total (f : Frame) : ∃ reply, f.deserialize = .ok reply :=
  ⟨_, Serializer.deserialize_eq (Nat.le_of_eq f.toNat_len)⟩

/-- A decoded frame is a valid message. -/
theorem deserialize_valid {f : Frame} {env : MessageEnvelope} (h : f.deserialize = .ok (.ok env)) :
    envelopeValid env := by
  unfold Frame.deserialize at h
  rw [Serializer.deserialize_eq (Nat.le_of_eq f.toNat_len)] at h
  injection h with h
  split at h
  case isTrue haccepts =>
    cases h
    exact Serializer.valid_decode haccepts (Nat.le_of_eq f.toNat_len)
  case isFalse => cases h

/-- The message in a frame, if there is one. -/
def message? (f : Frame) : Option MessageEnvelope :=
  match f.deserialize with
  | .ok (.ok env) => some env
  | _ => none

theorem message?_eq_some {f : Frame} {env : MessageEnvelope} :
    f.message? = some env ↔ f.deserialize = .ok (.ok env) := by
  unfold message?
  split
  case h_1 env' h => simp [h]
  case h_2 h =>
    constructor
    · exact fun hnone => nomatch hnone
    · exact fun hsome => absurd hsome (h env)

end Frame

/-- A message of the bare header. -/
def bareMessage (messageType : MessageType) (src : NodeId) : MessageEnvelope :=
  { envelopeInit with messageType, sourceId := src }

namespace Read

/-- The message that was read, if one was. -/
def message? (read : Read) : Option MessageEnvelope := read.frame.bind Frame.message?

/-- A read that finds the frame of a message. -/
def of (env : MessageEnvelope) (nowUs : UInt64) : Read :=
  ⟨if h : (Serializer.encode env).length ≤ socketRecvBufBytes.toNat then some ⟨_, h⟩ else none, nowUs⟩

theorem message?_of_broken {read : Read} (h : read.frame = none) : read.message? = none := by
  rw [message?, h]
  rfl

theorem message?_valid {read : Read} {env : MessageEnvelope} (h : read.message? = some env) :
    envelopeValid env := by
  obtain ⟨f, -, hf⟩ := Option.bind_eq_some_iff.mp h
  exact Frame.deserialize_valid (Frame.message?_eq_some.mp hf)

end Read

/-! ## The server -/

/-- A server without its arrays. -/
structure Server where
  live : Registry
  helloQueue : HelloQueue
  inbox : Inbox
  timeoutUs : UInt64

namespace Server

variable {v v' : Server} {event : ServerEvent} {o o' : ServerObservation}

/-- What a message leaves in the trace on its way into the receive queue. -/
def inboundEffects (fd : Int) (env : MessageEnvelope) (queued : Option MessageEnvelope) :
    List BackendEffect :=
  .received fd env :: .forwarded fd env :: queued.toList.map (.queued fd)

/-- What an event does. -/
inductive Step (v : Server) : ServerEvent → ServerObservation → Server → Prop
  | accepted {fd : Int} {os : Nat → Round} {nowUs : UInt64} (opened : 0 ≤ fd)
      (room : v.live.ncard < maxTcpConnections) :
      Step v (.accept fd os nowUs) ⟨none, [.accepted fd]⟩
        { v with live := insert (Registry.newcomer fd nowUs) v.live }
  | declined {fd : Int} {os : Nat → Round} {nowUs : UInt64}
      (full : fd < 0 ∨ maxTcpConnections ≤ v.live.ncard) : Step v (.accept fd os nowUs) ⟨none, []⟩ v
  | absent {fd : Int} {read : Read} (gone : ¬ v.live.Connected fd) :
      Step v (.receive fd read) ⟨none, []⟩ v
  | failed {fd : Int} {read : Read} (connected : v.live.Connected fd) (broken : read.frame = none) :
      Step v (.receive fd read) ⟨none, [.closed fd]⟩ { v with live := v.live.close fd }
  | malformed {fd : Int} {read : Read} (connected : v.live.Connected fd) (arrived : read.frame ≠ none)
      (garbled : read.message? = none) : Step v (.receive fd read) ⟨none, []⟩ v
  | rejected {fd : Int} {read : Read} {env : MessageEnvelope} (connected : v.live.Connected fd)
      (arrived : read.message? = some env) (hello : env.messageType = .hello)
      (taken : v.live.Greeted fd ∨ v.live.Claimed fd env.sourceId) :
      Step v (.receive fd read) ⟨none, [.received fd env, .closed fd]⟩
        { v with live := v.live.close fd }
  | registered {fd : Int} {read : Read} {env : MessageEnvelope} {q : HelloQueue}
      (connected : v.live.Connected fd) (arrived : read.message? = some env)
      (hello : env.messageType = .hello) (first : ¬ v.live.Greeted fd)
      (free : ¬ v.live.Claimed fd env.sourceId) (push : v.helloQueue.push env.sourceId = .ok q) :
      Step v (.receive fd read) ⟨none, [.received fd env, .registered fd env.sourceId]⟩
        { v with live := v.live.register fd env.sourceId, helloQueue := q }
  | refused {fd : Int} {read : Read} {env : MessageEnvelope} (connected : v.live.Connected fd)
      (arrived : read.message? = some env) (data : env.messageType ≠ .hello)
      (mute : ¬ v.live.Speaks fd env.sourceId) :
      Step v (.receive fd read) ⟨none, [.received fd env]⟩ v
  | forwarded {fd : Int} {read : Read} {env : MessageEnvelope} {site : Site}
      {queued : Option MessageEnvelope} {inbox : Inbox} (connected : v.live.Connected fd)
      (arrived : read.message? = some env) (data : env.messageType ≠ .hello)
      (speaks : v.live.Speaks fd env.sourceId)
      (inbound : v.inbox.applyInboundImpairment site env read.nowUs = .ok (queued, inbox)) :
      Step v (.receive fd read) ⟨none, inboundEffects fd env queued⟩ { v with inbox }
  | swept {nowUs : UInt64} {fds : List Int}
      (timedOut : ∀ fd, fd ∈ fds ↔ ∃ c ∈ v.live, Registry.TimedOut v.timeoutUs nowUs c ∧ c.fd = fd) :
      Step v (.sweep nowUs) ⟨none, fds.map .closed⟩
        { v with live := v.live.sweep v.timeoutUs nowUs }
  | popped {site : Site} {src : NodeId} {q : HelloQueue} (pop : v.helloQueue.pop site = .ok (src, q)) :
      Step v .popHello ⟨some src, []⟩ { v with helloQueue := q }
  | taken {reply : Reply} {recvQueue : RingBuffer} (pop : v.inbox.recvQueue.pop = .ok (reply, recvQueue)) :
      Step v .popMessage ⟨none, []⟩ { v with inbox := { v.inbox with recvQueue } }

/-- A client was turned away because another one has its node, and then a third, that had said
nothing, was marked as greeted. -/
inductive Slip (v : Server) : ServerEvent → ServerObservation → Server → Prop
  | marked {fd : Int} {read : Read} {env : MessageEnvelope} {c : Client} (connected : v.live.Connected fd)
      (arrived : read.message? = some env) (hello : env.messageType = .hello)
      (first : ¬ v.live.Greeted fd) (claimed : v.live.Claimed fd env.sourceId) (victim : c ∈ v.live)
      (other : c.fd ≠ fd) (silent : c.helloReceived = false) :
      Slip v (.receive fd read) ⟨none, [.received fd env, .closed fd]⟩
        { v with live := (v.live.close fd).mark c.fd }

/-- The inbound impairments stop at an assertion, or the receive queue does. -/
def Stuck (v : Server) : ServerEvent → Prop
  | .receive fd read => ∃ env, read.message? = some env ∧ env.messageType ≠ .hello ∧
      v.live.Connected fd ∧ v.live.Speaks fd env.sourceId ∧
      ∀ site r, v.inbox.applyInboundImpairment site env read.nowUs ≠ .ok r
  | .popMessage => ∀ r, v.inbox.recvQueue.pop ≠ .ok r
  | _ => False

/-- The operating system gives a new connection a descriptor that is not in use. -/
def Fresh (v : Server) : ServerEvent → Prop
  | .accept fd _ _ => ¬ v.live.Connected fd
  | _ => True

/-! ## The books -/

theorem Step.sound (h : Step v event o v') (hfresh : v.Fresh event) (hsound : v.live.Sound) :
    v'.live.Sound := by
  cases h with
  | accepted opened => exact hsound.insert opened fun c hc heq => hfresh ⟨c, hc, heq⟩
  | failed | rejected => exact hsound.close _
  | registered _ _ _ _ free => exact hsound.register free
  | swept => exact hsound.sweep
  | declined | absent | malformed | refused | forwarded | popped | taken => exact hsound

theorem Step.greets (h : Step v event o v') (hgreets : v.live.Greets) : v'.live.Greets := by
  cases h with
  | accepted => exact hgreets.insert
  | failed | rejected => exact hgreets.close _
  | registered _ arrived => exact hgreets.register (Read.message?_valid arrived).2.2
  | swept => exact hgreets.sweep
  | declined | absent | malformed | refused | forwarded | popped | taken => exact hgreets

theorem Slip.sound (h : Slip v event o v') (hsound : v.live.Sound) : v'.live.Sound := by
  cases h with
  | marked => exact (hsound.close _).mark _

/-- A slip breaks the books. -/
theorem Slip.not_greets (h : Slip v event o v') (hgreets : v.live.Greets) : ¬ v'.live.Greets := by
  cases h with
  | @marked fd read env c _ _ _ _ _ victim other silent =>
    intro hafter
    have hnode : c.nodeId = nodeIdInvalid := by
      by_contra hne
      rw [(hgreets c victim).mpr hne] at silent
      cases silent
    have hmarked := hafter { c with helloReceived := true } ⟨c, ⟨victim, other⟩, by simp⟩
    exact hmarked.mp rfl hnode

/-! ## Determinism -/

/-- The messages an event sends on to inbound processing, each with its connection. -/
def forwardedBy (effects : List BackendEffect) : List (Int × MessageEnvelope) :=
  effects.filterMap fun
    | .forwarded fd env => some (fd, env)
    | _ => none

/-- The nodes an event registers. -/
def registeredBy (effects : List BackendEffect) : List NodeId :=
  effects.filterMap fun
    | .registered _ src => some src
    | _ => none

theorem forwardedBy_closed (fds : List Int) : forwardedBy (fds.map .closed) = [] := by
  simp [forwardedBy]

theorem registeredBy_closed (fds : List Int) : registeredBy (fds.map .closed) = [] := by
  simp [registeredBy]

theorem registeredBy_inboundEffects (fd : Int) (env : MessageEnvelope) (queued : Option MessageEnvelope) :
    registeredBy (inboundEffects fd env queued) = [] := by
  cases queued with
  | none => rfl
  | some out => rfl

theorem Step.not_stuck (h : Step v event o v') : ¬ v.Stuck event := by
  intro hstuck
  cases h with
  | forwarded connected arrived data speaks inbound =>
    obtain ⟨env, harrived, -, -, -, hnever⟩ := hstuck
    cases arrived.symm.trans harrived
    exact hnever _ _ inbound
  | absent gone =>
    obtain ⟨env, -, -, hconnected, -⟩ := hstuck
    exact gone hconnected
  | failed _ broken =>
    obtain ⟨env, harrived, -⟩ := hstuck
    cases (Read.message?_of_broken broken).symm.trans harrived
  | malformed _ _ garbled =>
    obtain ⟨env, harrived, -⟩ := hstuck
    cases garbled.symm.trans harrived
  | rejected _ arrived hello | registered _ arrived hello =>
    obtain ⟨env, harrived, hdata, -⟩ := hstuck
    cases arrived.symm.trans harrived
    exact hdata hello
  | refused _ arrived _ mute =>
    obtain ⟨env, harrived, -, -, hspeaks, -⟩ := hstuck
    cases arrived.symm.trans harrived
    exact mute hspeaks
  | taken pop => exact hstuck _ pop
  | accepted | declined | swept | popped => exact hstuck

/-- What an event does follows from what the server looks like. -/
theorem Step.deterministic {v'' : Server} (h : Step v event o v') (h' : Step v event o' v'') :
    v' = v'' ∧ o.popped = o'.popped ∧ forwardedBy o.effects = forwardedBy o'.effects ∧
      registeredBy o.effects = registeredBy o'.effects := by
  cases h with
  | accepted opened room =>
    cases h' with
    | accepted => exact ⟨rfl, rfl, rfl, rfl⟩
    | declined full => omega
  | declined full =>
    cases h' with
    | accepted opened room => omega
    | declined => exact ⟨rfl, rfl, rfl, rfl⟩
  | absent gone =>
    cases h' with
    | absent => exact ⟨rfl, rfl, rfl, rfl⟩
    | failed connected | malformed connected | rejected connected | registered connected
    | refused connected | forwarded connected => exact absurd connected gone
  | failed connected broken =>
    have hnone := Read.message?_of_broken broken
    cases h' with
    | failed => exact ⟨rfl, rfl, rfl, rfl⟩
    | absent gone => exact absurd connected gone
    | malformed _ arrived => exact absurd broken arrived
    | rejected _ arrived | registered _ arrived | refused _ arrived | forwarded _ arrived =>
      cases hnone.symm.trans arrived
  | malformed connected arrived garbled =>
    cases h' with
    | malformed => exact ⟨rfl, rfl, rfl, rfl⟩
    | absent gone => exact absurd connected gone
    | failed _ broken => exact absurd broken arrived
    | rejected _ arrived | registered _ arrived | refused _ arrived | forwarded _ arrived =>
      cases garbled.symm.trans arrived
  | rejected connected arrived hello taken =>
    cases h' with
    | rejected _ arrived' => exact ⟨rfl, rfl, rfl, rfl⟩
    | absent gone => exact absurd connected gone
    | failed _ broken => cases (Read.message?_of_broken broken).symm.trans arrived
    | malformed _ _ garbled => cases garbled.symm.trans arrived
    | registered _ arrived' _ first free =>
      cases arrived.symm.trans arrived'
      exact absurd taken (not_or.mpr ⟨first, free⟩)
    | refused _ arrived' data | forwarded _ arrived' data =>
      cases arrived.symm.trans arrived'
      exact absurd hello data
  | registered connected arrived hello first free push =>
    cases h' with
    | registered _ arrived' _ _ _ push' =>
      cases arrived.symm.trans arrived'
      cases push.symm.trans push'
      exact ⟨rfl, rfl, rfl, rfl⟩
    | absent gone => exact absurd connected gone
    | failed _ broken => cases (Read.message?_of_broken broken).symm.trans arrived
    | malformed _ _ garbled => cases garbled.symm.trans arrived
    | rejected _ arrived' _ taken =>
      cases arrived.symm.trans arrived'
      exact absurd taken (not_or.mpr ⟨first, free⟩)
    | refused _ arrived' data | forwarded _ arrived' data =>
      cases arrived.symm.trans arrived'
      exact absurd hello data
  | refused connected arrived data mute =>
    cases h' with
    | refused => exact ⟨rfl, rfl, rfl, rfl⟩
    | absent gone => exact absurd connected gone
    | failed _ broken => cases (Read.message?_of_broken broken).symm.trans arrived
    | malformed _ _ garbled => cases garbled.symm.trans arrived
    | rejected _ arrived' hello | registered _ arrived' hello =>
      cases arrived.symm.trans arrived'
      exact absurd hello data
    | forwarded _ arrived' _ speaks =>
      cases arrived.symm.trans arrived'
      exact absurd speaks mute
  | forwarded connected arrived data speaks inbound =>
    cases h' with
    | forwarded _ arrived' _ _ inbound' =>
      cases arrived.symm.trans arrived'
      cases (Inbox.applyInboundImpairment_site _ inbound).symm.trans inbound'
      exact ⟨rfl, rfl, rfl, rfl⟩
    | absent gone => exact absurd connected gone
    | failed _ broken => cases (Read.message?_of_broken broken).symm.trans arrived
    | malformed _ _ garbled => cases garbled.symm.trans arrived
    | rejected _ arrived' hello | registered _ arrived' hello =>
      cases arrived.symm.trans arrived'
      exact absurd hello data
    | refused _ arrived' _ mute =>
      cases arrived.symm.trans arrived'
      exact absurd speaks mute
  | swept =>
    cases h' with
    | swept =>
      exact ⟨rfl, rfl, (forwardedBy_closed _).trans (forwardedBy_closed _).symm,
        (registeredBy_closed _).trans (registeredBy_closed _).symm⟩
  | popped pop =>
    cases h' with
    | popped pop' =>
      cases (HelloQueue.pop_site _ pop).symm.trans pop'
      exact ⟨rfl, rfl, rfl, rfl⟩
  | taken pop =>
    cases h' with
    | taken pop' =>
      cases pop.symm.trans pop'
      exact ⟨rfl, rfl, rfl, rfl⟩

end Server

end MessageEngine
