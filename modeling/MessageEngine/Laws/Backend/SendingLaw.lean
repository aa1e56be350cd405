import MessageEngine.Core.DatagramTransport
import MessageEngine.Laws.Backend.Discard
import MessageEngine.Laws.Impairment.Passage

/-!
# Sending datagrams

A message that is given to `send_message` of a datagram backend waits in the delay buffer, once or twice, and leaves
it as one datagram: in the same call, in a later one, or in a round of `receive_message`. A datagram that the
operating system does not take is gone.

A `SendingLaw` is about the sending side alone: what has been said, what is in the delay buffer, what was sent, and
which messages the code has in its hands. Both backends send through the same code, up to `send_one_envelope`;
`Speaks` says what is asked of that.

## What is proved

- `SendingAccount.law`: no datagram is sent more often than its messages were given and copied;
- `Prompt.law`: with the master switch off a message is sent when it is given;
- `Speaks.sendMessage`, `Speaks.flushed`: `send_message` and the flushes keep every law.
-/

namespace MessageEngine

open Outcome

/-- The message is sent as one datagram: `send_message` refuses those that are longer. -/
def FitsDatagram (m : MessageEnvelope) : Prop :=
  envelopeValid m ∧ (Serializer.encode m).length ≤ dtlsMaxDatagramBytes.toNat

instance (m : MessageEnvelope) : Decidable (FitsDatagram m) := inferInstanceAs (Decidable (_ ∧ _))

/-- What a backend says: a message that was given to it, or a `HELLO` of its own. -/
inductive Said where
  | given (m : MessageEnvelope)
  | hello (m : MessageEnvelope)

namespace Said

def message : Said → MessageEnvelope
  | given m => m
  | hello m => m

/-- How often it is sent at most. -/
def times (cfg : ImpairmentConfig) : Said → Nat
  | given _ => ImpairmentEngine.copies cfg
  | hello _ => 1

end Said

/-- What is said by a message that was given. -/
def saidOf (m : MessageEnvelope) : List Said := if FitsDatagram m then [.given m] else []

/-- The datagrams of some messages. -/
def datagramsOf (ms : List MessageEnvelope) : List (List UInt8) := ms.map Serializer.encode

/-- How often a datagram may be sent. -/
def allowed (cfg : ImpairmentConfig) (said : List Said) (bytes : List UInt8) : Nat :=
  (said.map fun x => if Serializer.encode x.message = bytes then x.times cfg else 0).sum

/-- The datagram of the message was handed to the socket. -/
def Says (toPeer : Option Source → Prop) (m : MessageEnvelope) (o o' : DatagramOutbound) : Prop :=
  ∃ dest, toPeer dest ∧ o' = (o.send dest (Serializer.encode m)).2

variable {toPeer : Option Source → Prop} {cfg : ImpairmentConfig} {said : List Said} {hand : List MessageEnvelope}
  {i i' : ImpairmentEngine} {o o' : DatagramOutbound} {m : MessageEnvelope} {nowUs : UInt64} {res : Result}

theorem sent_send (o : DatagramOutbound) (dest : Option Source) (bytes : List UInt8) :
    (o.send dest bytes).2.sent = if o.os o.sends then o.sent ++ [(dest, bytes)] else o.sent := rfl

theorem datagramsOf_append (ms ms' : List MessageEnvelope) :
    datagramsOf (ms ++ ms') = datagramsOf ms ++ datagramsOf ms' := List.map_append

theorem allowed_concat (x : Said) (bytes : List UInt8) : allowed cfg (said ++ [x]) bytes =
    allowed cfg said bytes + if Serializer.encode x.message = bytes then x.times cfg else 0 := by
  simp [allowed]

/-- Only what was said may be sent. -/
theorem allowed_pos {bytes : List UInt8} (h : 0 < allowed cfg said bytes) :
    ∃ x ∈ said, bytes = Serializer.encode x.message := by
  by_contra hnone
  have hzero : allowed cfg said bytes = 0 := by
    rw [allowed, List.sum_eq_zero_iff]
    intro n hn
    obtain ⟨x, hx, rfl⟩ := List.mem_map.mp hn
    exact if_neg fun heq => hnone ⟨x, hx, heq.symm⟩
  omega

/-- What is written for a message that is valid is its encoding. -/
theorem serializeToWire_bytes {r : Except Result (List UInt8 × UInt32)} (valid : envelopeValid m)
    (h : serializeToWire m = .ok r) :
    ∃ buf len, r = .ok (buf, len) ∧ buf.take len.toNat = Serializer.encode m ∧
      len.toNat = (Serializer.encode m).length := by
  obtain ⟨buf, hwire, -, htake⟩ := serializeToWire_eq valid
  cases hwire.symm.trans h
  have hlength := Serializer.length_encode valid
  have hle : m.payloadLength.toNat ≤ 4096 := valid.2.1
  have hval : (UInt32.ofNat (Serializer.encode m).length).toNat = (Serializer.encode m).length := by
    rw [UInt32.toNat_ofNat', Nat.mod_eq_of_lt]
    rw [hlength]
    unfold wireHeaderSize
    omega
  refine ⟨buf, _, rfl, ?_, hval⟩
  rw [hval]
  exact htake

/-- A `HELLO` is short. -/
theorem fitsDatagram_hello {id : NodeId} (valid : id ≠ nodeIdInvalid) : FitsDatagram (helloOf id) := by
  have hvalid : envelopeValid (helloOf id) := by
    refine ⟨?_, ?_, valid⟩
    · show MessageType.hello ≠ .invalid
      decide
    · exact Nat.zero_le _
  refine ⟨hvalid, ?_⟩
  rw [Serializer.length_encode hvalid]
  show wireHeaderSize + 0 ≤ dtlsMaxDatagramBytes.toNat
  decide

/-! ## Laws -/

/-- A law on the sending side that its operations keep. The last argument are the messages in hand, which are said
next, in order. -/
structure SendingLaw (toPeer : Option Source → Prop)
    (L : List Said → ImpairmentEngine → DatagramOutbound → List MessageEnvelope → Prop) : Prop where
  fits : ∀ {said i o m hand}, L said i o (m :: hand) → FitsDatagram m
  say : ∀ {said i o o' m hand}, L said i o (m :: hand) → Says toPeer m o o' → L said i o' hand
  hello : ∀ {said i o m}, L said i o [] → FitsDatagram m → L (said ++ [.hello m]) i o [m]
  refused : ∀ {said i i' o m nowUs res}, L said i o [] → FitsDatagram m →
    i.processOutbound m nowUs = .ok (res, i') → res ≠ .ok → L (said ++ [.given m]) i' o []
  given : ∀ {said i i' i'' o m nowUs out}, L said i o [] → FitsDatagram m →
    i.processOutbound m nowUs = .ok (.ok, i') → i'.collectDeliverable nowUs impairDelayBufSize = .ok (out, i'') →
      L (said ++ [.given m]) i'' o out
  due : ∀ {said i i' o nowUs out}, L said i o [] →
    i.collectDeliverable nowUs impairDelayBufSize = .ok (out, i') → L said i' o out
  same : ∀ {said i i' o}, L said i o [] → ImpairmentEngine.SameDelays i i' → L said i' o []

/-- Of every datagram, those that were sent, those in hand and those that wait are no more than may be. What was
sent went to the peer. -/
structure SendingAccount (toPeer : Option Source → Prop) (cfg : ImpairmentConfig) (said : List Said)
    (i : ImpairmentEngine) (o : DatagramOutbound) (hand : List MessageEnvelope) : Prop where
  counted : i.Counted
  config : i.cfg = cfg
  short : ∀ x ∈ said, FitsDatagram x.message
  fits : ∀ m ∈ hand ++ i.waiting, FitsDatagram m
  peer : ∀ d ∈ o.sent, toPeer d.1
  balance : ∀ bytes, (o.sent.map Prod.snd).count bytes + (datagramsOf (hand ++ i.waiting)).count bytes ≤
    allowed cfg said bytes

namespace SendingAccount

theorem start {entropy : UInt64} (hinit : ImpairmentEngine.init cfg entropy = .ok i) (os : Nat → Bool) :
    SendingAccount toPeer cfg [] i ⟨[], os, 0⟩ [] := by
  obtain ⟨hcounted, hwaiting, -, hcfg⟩ := ImpairmentEngine.delays_init hinit
  refine ⟨hcounted, hcfg, fun x hx => ?_, fun m hm => ?_, fun d hd => ?_, fun bytes => ?_⟩
  · cases hx
  · rw [hwaiting] at hm
    cases hm
  · cases hd
  · rw [hwaiting]
    exact Nat.zero_le _

theorem say (h : SendingAccount toPeer cfg said i o (m :: hand)) (hspoken : Says toPeer m o o') :
    SendingAccount toPeer cfg said i o' hand := by
  obtain ⟨dest, hdest, rfl⟩ := hspoken
  have hsent := sent_send o dest (Serializer.encode m)
  have hfits (m' : MessageEnvelope) (hm' : m' ∈ hand ++ i.waiting) : FitsDatagram m' :=
    h.fits m' (List.mem_cons_of_mem m hm')
  have hbalance (bytes : List UInt8) : (o.sent.map Prod.snd).count bytes +
      (([Serializer.encode m] : List (List UInt8)).count bytes + (datagramsOf (hand ++ i.waiting)).count bytes) ≤
        allowed cfg said bytes := by
    have hbytes := h.balance bytes
    rw [List.cons_append, ← List.singleton_append, datagramsOf_append, List.count_append] at hbytes
    exact hbytes
  cases htaken : o.os o.sends with
  | false =>
    rw [htaken, if_neg Bool.false_ne_true] at hsent
    refine ⟨h.counted, h.config, h.short, hfits, ?_, fun bytes => ?_⟩
    · rw [hsent]
      exact h.peer
    · have hbytes := hbalance bytes
      rw [hsent]
      omega
  | true =>
    rw [htaken, if_pos rfl] at hsent
    refine ⟨h.counted, h.config, h.short, hfits, fun d hd => ?_, fun bytes => ?_⟩
    · rw [hsent, List.mem_append, List.mem_singleton] at hd
      rcases hd with hd | rfl
      · exact h.peer d hd
      · exact hdest
    · rw [hsent, List.map_append, List.count_append, Nat.add_assoc]
      exact hbalance bytes

theorem hello (h : SendingAccount toPeer cfg said i o []) (hm : FitsDatagram m) :
    SendingAccount toPeer cfg (said ++ [.hello m]) i o [m] := by
  refine ⟨h.counted, h.config, fun x hx => ?_, fun m' hm' => ?_, h.peer, fun bytes => ?_⟩
  · rcases List.mem_append.mp hx with hx | hx
    · exact h.short x hx
    · rw [List.mem_singleton.mp hx]
      exact hm
  · rcases List.mem_cons.mp hm' with rfl | hm'
    · exact hm
    · exact h.fits m' hm'
  · have hbytes := h.balance bytes
    rw [List.nil_append] at hbytes
    rw [allowed_concat, datagramsOf_append, List.count_append]
    show _ + (([Serializer.encode m] : List (List UInt8)).count bytes + _) ≤
      _ + if Serializer.encode m = bytes then 1 else 0
    rw [List.count_singleton]
    simp only [beq_iff_eq]
    omega

theorem handed (h : SendingAccount toPeer cfg said i o []) (hm : FitsDatagram m)
    (houtbound : i.processOutbound m nowUs = .ok (res, i')) :
    SendingAccount toPeer cfg (said ++ [.given m]) i' o [] := by
  obtain ⟨hcounted, n, hn, hwaiting⟩ := ImpairmentEngine.processOutbound_waiting h.counted houtbound
  have hcfg := (ImpairmentEngine.keepsWindow_processOutbound houtbound).cfg.trans h.config
  refine ⟨hcounted, hcfg, fun x hx => ?_, fun m' hm' => ?_, h.peer, fun bytes => ?_⟩
  · rcases List.mem_append.mp hx with hx | hx
    · exact h.short x hx
    · rw [List.mem_singleton.mp hx]
      exact hm
  · rcases List.mem_append.mp (hwaiting.mem_iff.mp hm') with hnew | hold
    · rw [(List.mem_replicate.mp hnew).2]
      exact hm
    · exact h.fits m' hold
  · have hbytes := h.balance bytes
    have hmoved := (hwaiting.map Serializer.encode).count_eq bytes
    rw [List.map_append, List.map_replicate, List.count_append, List.count_replicate] at hmoved
    rw [List.nil_append] at hbytes ⊢
    rw [h.config] at hn
    rw [allowed_concat]
    show _ + (i'.waiting.map Serializer.encode).count bytes ≤
      _ + if Serializer.encode m = bytes then ImpairmentEngine.copies cfg else 0
    rw [hmoved]
    simp only [beq_iff_eq]
    have hcopies : (if Serializer.encode m = bytes then n else 0) ≤
        if Serializer.encode m = bytes then ImpairmentEngine.copies cfg else 0 := by
      split
      · exact hn
      · exact Nat.le_refl 0
    have hold : (datagramsOf i.waiting).count bytes = (i.waiting.map Serializer.encode).count bytes := rfl
    omega

theorem due {out : List MessageEnvelope} (h : SendingAccount toPeer cfg said i o [])
    (hcollect : i.collectDeliverable nowUs impairDelayBufSize = .ok (out, i')) :
    SendingAccount toPeer cfg said i' o out := by
  obtain ⟨out', e', hspec, collects⟩ :=
    ImpairmentEngine.collectDeliverable_spec h.counted nowUs (show impairDelayBufSize > 0 by decide)
  cases hspec.symm.trans hcollect
  refine ⟨collects.counted, collects.cfg.trans h.config, h.short, fun m hm => ?_, h.peer, fun bytes => ?_⟩
  · exact h.fits m (collects.kept.mem_iff.mp hm)
  · have hkept : (datagramsOf (out ++ i'.waiting)).count bytes = (datagramsOf i.waiting).count bytes :=
      (collects.kept.map Serializer.encode).count_eq bytes
    rw [hkept]
    exact h.balance bytes

theorem same (h : SendingAccount toPeer cfg said i o hand) (hsame : ImpairmentEngine.SameDelays i i') :
    SendingAccount toPeer cfg said i' o hand := by
  refine ⟨hsame.counted h.counted, hsame.cfg.trans h.config, h.short, ?_, h.peer, ?_⟩
  · rw [hsame.waiting]
    exact h.fits
  · rw [hsame.waiting]
    exact h.balance

/-- The account is a law. -/
theorem law : SendingLaw toPeer (SendingAccount toPeer cfg) where
  fits h := h.fits _ List.mem_cons_self
  say := say
  hello := hello
  refused h hm houtbound _ := h.handed hm houtbound
  given h hm houtbound hcollect := (h.handed hm houtbound).due hcollect
  due := due
  same := same

/-- What was sent is the datagram of something that was said. -/
theorem origin (h : SendingAccount toPeer cfg said i o hand) {d : Option Source × List UInt8} (hd : d ∈ o.sent) :
    ∃ x ∈ said, d.2 = Serializer.encode x.message := by
  have hsent : 0 < (o.sent.map Prod.snd).count d.2 := List.count_pos_iff.mpr (List.mem_map_of_mem hd)
  have hbalance := h.balance d.2
  have hallowed : 0 < allowed cfg said d.2 := by omega
  exact allowed_pos hallowed

end SendingAccount

/-- Nothing waits, and what was sent or is in hand is all that was said, in order. -/
structure Prompt (said : List Said) (i : ImpairmentEngine) (o : DatagramOutbound) (hand : List MessageEnvelope) :
    Prop where
  off : i.cfg.enabled = false
  counted : i.Counted
  empty : i.waiting = []
  takes : ∀ n, o.os n = true
  fits : ∀ m ∈ hand, FitsDatagram m
  order : o.sent.map Prod.snd ++ datagramsOf hand = datagramsOf (said.map Said.message)

namespace Prompt

theorem start {entropy : UInt64} (hinit : ImpairmentEngine.init cfg entropy = .ok i) (off : cfg.enabled = false)
    {os : Nat → Bool} (takes : ∀ n, os n = true) : Prompt [] i ⟨[], os, 0⟩ [] := by
  obtain ⟨hcounted, hwaiting, -, hcfg⟩ := ImpairmentEngine.delays_init hinit
  refine ⟨?_, hcounted, hwaiting, takes, fun m hm => ?_, rfl⟩
  · rw [hcfg]
    exact off
  · cases hm

theorem say (h : Prompt said i o (m :: hand)) (hspoken : Says toPeer m o o') : Prompt said i o' hand := by
  obtain ⟨dest, -, rfl⟩ := hspoken
  have hsent := sent_send o dest (Serializer.encode m)
  rw [h.takes, if_pos rfl] at hsent
  refine ⟨h.off, h.counted, h.empty, h.takes, fun m' hm' => h.fits m' (List.mem_cons_of_mem m hm'), ?_⟩
  rw [hsent, List.map_append, List.append_assoc]
  exact h.order

/-- One more message is in hand. -/
theorem one (h : Prompt said i o []) (hm : FitsDatagram m) {x : Said} (hx : x.message = m) :
    Prompt (said ++ [x]) i o [m] := by
  refine ⟨h.off, h.counted, h.empty, h.takes, fun m' hm' => ?_, ?_⟩
  · rw [List.mem_singleton.mp hm']
    exact hm
  · have horder := h.order
    rw [show datagramsOf ([] : List MessageEnvelope) = [] from rfl, List.append_nil] at horder
    rw [horder, List.map_append, datagramsOf_append, List.map_singleton, hx]

theorem due {out : List MessageEnvelope} (h : Prompt said i o [])
    (hcollect : i.collectDeliverable nowUs impairDelayBufSize = .ok (out, i')) : Prompt said i' o out := by
  obtain ⟨out', e', hspec, collects⟩ :=
    ImpairmentEngine.collectDeliverable_spec h.counted nowUs (show impairDelayBufSize > 0 by decide)
  cases hspec.symm.trans hcollect
  have hkept : out ++ i'.waiting = [] := by
    have hperm := collects.kept
    rw [h.empty] at hperm
    exact hperm.eq_nil
  obtain ⟨rfl, hwaiting⟩ := List.append_eq_nil_iff.mp hkept
  refine ⟨?_, collects.counted, hwaiting, h.takes, h.fits, h.order⟩
  rw [collects.cfg]
  exact h.off

theorem same (h : Prompt said i o []) (hsame : ImpairmentEngine.SameDelays i i') : Prompt said i' o [] := by
  refine ⟨?_, hsame.counted h.counted, ?_, h.takes, h.fits, h.order⟩
  · rw [hsame.cfg]
    exact h.off
  · rw [hsame.waiting]
    exact h.empty

/-- Being prompt is a law: a message that is given is due at once. -/
theorem law : SendingLaw toPeer Prompt where
  fits h := h.fits _ List.mem_cons_self
  say := say
  hello h hm := h.one hm rfl
  refused h hm houtbound hres := by
    obtain ⟨e₁, e₂, hout, -⟩ := ImpairmentEngine.outbound_off h.off h.counted h.empty hm.1 _
    cases hout.symm.trans houtbound
    exact absurd rfl hres
  given h hm houtbound hcollect := by
    obtain ⟨e₁, e₂, hout, hcollected, hcounted, hempty, hkeeps⟩ :=
      ImpairmentEngine.outbound_off h.off h.counted h.empty hm.1 _
    cases hout.symm.trans houtbound
    cases hcollected.symm.trans hcollect
    have hone := h.one hm (x := .given _) rfl
    refine ⟨?_, hcounted, hempty, hone.takes, hone.fits, hone.order⟩
    rw [hkeeps.cfg]
    exact h.off
  due := due
  same := same

end Prompt

/-! ## Sending a batch -/

/-- What the code that both backends share asks of one: `send_one_envelope` says what it is given, and touches
nothing else that matters. -/
structure DatagramSender.Speaks {σ : Type} (p : DatagramSender σ) (toPeer : Option Source → Prop)
    (out : σ → DatagramOutbound) (Good : σ → Prop) : Prop where
  one : ∀ {s s' m isCurrent failed}, Good s → FitsDatagram m → p.sendOneEnvelope s m isCurrent = .ok (failed, s') →
    Good s' ∧ p.impairment s' = p.impairment s ∧ Says toPeer m (out s) (out s')
  impairment : ∀ {s i}, p.impairment (p.withImpairment s i) = i
  out : ∀ {s i}, out (p.withImpairment s i) = out s
  good : ∀ {s i}, Good s → Good (p.withImpairment s i)

namespace DatagramSender.Speaks

variable {σ : Type} {p : DatagramSender σ} {out : σ → DatagramOutbound} {Good : σ → Prop}
  {L : List Said → ImpairmentEngine → DatagramOutbound → List MessageEnvelope → Prop} {s s' : σ}
  {envelope : MessageEnvelope} {site flushSite : Site}

/-- One message in hand is said. -/
theorem next {isCurrent failed : Bool} (speaks : p.Speaks toPeer out Good) (law : SendingLaw toPeer L) (good : Good s)
    (holds : L said (p.impairment s) (out s) (m :: hand))
    (hone : p.sendOneEnvelope s m isCurrent = .ok (failed, s')) :
    Good s' ∧ L said (p.impairment s') (out s') hand := by
  obtain ⟨hgood, himpairment, hspoken⟩ := speaks.one good (law.fits holds) hone
  refine ⟨hgood, ?_⟩
  rw [himpairment]
  exact law.say holds hspoken

/-- All that is in hand is said. -/
theorem batch {batch : List MessageEnvelope} {failed : Bool} (speaks : p.Speaks toPeer out Good)
    (law : SendingLaw toPeer L) (good : Good s) (holds : L said (p.impairment s) (out s) batch)
    (hflush : p.flushOutboundBatch site s envelope batch = .ok (failed, s')) :
    Good s' ∧ L said (p.impairment s') (out s') [] := by
  obtain ⟨-, hflush⟩ := ensure_bind_eq_ok.mp hflush
  refine foldlM_rest (I := fun hand r => Good r.2 ∧ L said (p.impairment r.2) (out r.2) hand) ?_ ⟨good, holds⟩ hflush
  intro m hand r r' hkept hround
  obtain ⟨currentFailed, s₁⟩ := r
  obtain ⟨hgood, hholds⟩ := hkept
  obtain ⟨⟨failed, s₃⟩, hone, hround⟩ := bind_eq_ok.mp hround
  cases hround
  exact speaks.next law hgood hholds hone

theorem sendMessage (speaks : p.Speaks toPeer out Good) (law : SendingLaw toPeer L) (good : Good s)
    (valid : envelopeValid envelope) (holds : L said (p.impairment s) (out s) [])
    (hsend : p.sendMessage site flushSite s envelope nowUs = .ok (res, s')) :
    Good s' ∧ L (said ++ saidOf envelope) (p.impairment s') (out s') [] := by
  obtain ⟨wire, hwire, hsend⟩ := bind_eq_ok.mp hsend
  obtain ⟨buf, len, rfl, -, hlen⟩ := serializeToWire_bytes valid hwire
  dsimp only at hsend
  split at hsend
  case isTrue hlong =>
    cases hsend
    have hnot : ¬ FitsDatagram envelope := fun hfits =>
      Nat.not_le.mpr (UInt32.lt_iff_toNat_lt.mp hlong) (hlen ▸ hfits.2)
    rw [saidOf, if_neg hnot, List.append_nil]
    exact ⟨good, holds⟩
  case isFalse hshort =>
    have hfits : FitsDatagram envelope := by
      refine ⟨valid, ?_⟩
      rw [← hlen]
      exact Nat.not_lt.mp fun hlt => hshort (UInt32.lt_iff_toNat_lt.mpr hlt)
    rw [saidOf, if_pos hfits]
    obtain ⟨⟨outRes, i₁⟩, houtbound, hsend⟩ := bind_eq_ok.mp hsend
    have hrefused (hnot : outRes ≠ .ok) : Good (p.withImpairment s i₁) ∧
        L (said ++ [.given envelope]) (p.impairment (p.withImpairment s i₁)) (out (p.withImpairment s i₁)) [] := by
      rw [speaks.impairment, speaks.out]
      exact ⟨speaks.good good, law.refused holds hfits houtbound hnot⟩
    dsimp only at hsend
    split at hsend
    case isTrue hlost =>
      cases hsend
      exact hrefused (by rw [hlost]; decide)
    case isFalse =>
      split at hsend
      case isTrue hnot =>
        cases hsend
        exact hrefused hnot
      case isFalse hok =>
        rw [not_ne_iff] at hok
        subst hok
        obtain ⟨⟨delayed, i₂⟩, hcollect, hsend⟩ := bind_eq_ok.mp hsend
        rw [speaks.impairment] at hcollect
        have hgood : Good (p.withImpairment (p.withImpairment s i₁) i₂) := speaks.good (speaks.good good)
        have hholds : L (said ++ [.given envelope]) (p.impairment (p.withImpairment (p.withImpairment s i₁) i₂))
            (out (p.withImpairment (p.withImpairment s i₁) i₂)) delayed := by
          rw [speaks.impairment, speaks.out, speaks.out]
          exact law.given holds hfits houtbound hcollect
        obtain ⟨⟨currentFailed, s₁⟩, hflush, hsend⟩ := bind_eq_ok.mp hsend
        have hdone := speaks.batch law hgood hholds hflush
        dsimp only at hsend
        split at hsend
        · cases hsend
          exact hdone
        · obtain ⟨-, hsend⟩ := ensure_bind_eq_ok.mp hsend
          cases hsend
          exact hdone

/-- A flush says what is due. -/
theorem flushed {round : σ → MessageEnvelope → Checked σ} {delayed : List MessageEnvelope}
    (speaks : p.Speaks toPeer out Good) (law : SendingLaw toPeer L) (good : Good s)
    (hround : ∀ s m s', round s m = .ok s' → ∃ failed, p.sendOneEnvelope s m false = .ok (failed, s'))
    (holds : L said (p.impairment s) (out s) [])
    (hcollect : (p.impairment s).collectDeliverable nowUs impairDelayBufSize = .ok (delayed, i))
    (hflush : delayed.foldlM round (p.withImpairment s i) = .ok s') :
    Good s' ∧ L said (p.impairment s') (out s') [] := by
  have hholds : L said (p.impairment (p.withImpairment s i)) (out (p.withImpairment s i)) delayed := by
    rw [speaks.impairment, speaks.out]
    exact law.due holds hcollect
  refine foldlM_rest (I := fun hand s => Good s ∧ L said (p.impairment s) (out s) hand) ?_
    ⟨speaks.good good, hholds⟩ hflush
  intro m hand s₁ s₂ hkept hone
  obtain ⟨hgood, hheld⟩ := hkept
  obtain ⟨failed, hone⟩ := hround _ _ _ hone
  exact speaks.next law hgood hheld hone

end DatagramSender.Speaks

end MessageEngine
