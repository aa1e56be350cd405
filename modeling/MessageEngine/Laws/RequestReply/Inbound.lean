import MessageEngine.Laws.RequestReply.Step
import MessageEngine.Laws.Runs.Staging

/-!
# What a remote peer can do to the pump

`pump_inbound` hands whatever the delivery engine returns to a parser, two handlers and two stashes,
each with assertions of its own. Over every reachable state they can be run into by one kind of
envelope only: a data message without a byte, which the delivery engine does return and the parser
asserts it never sees.

## What is proved

- `inbound_safety_iff`: from every reachable state, a pump reaches none of its own assertions and
  routes every data message to exactly one place exactly when no empty data message is handed up;
- `empty_data_stops_pump`: a peer can send one.
-/

namespace MessageEngine

open Outcome Table

namespace RequestReplyEngine

variable {r r' : RequestReplyEngine} {nowUs : UInt64}

/-- The functions of the engine that hold an assertion. -/
def ownSites : List Site :=
  [.rrBuildWirePayload, .rrParseRrHeader, .rrFindPending, .rrHandleInboundResponse,
   .rrHandleInboundRequest, .rrDispatchInboundEnvelope, .rrStashNonRrData, .rrReceiveNonRr,
   .rrSendRequest, .rrReceiveRequest, .rrSweepTimeouts]

/-- The run stopped in the engine itself, not in the delivery engine underneath. -/
def OwnFault : Fault → Prop
  | .assertion site => site ∈ ownSites
  | .outOfBounds => True

/-- Every data message went to exactly one place, and nothing else moved. -/
def Routes : Desk → List MessageEnvelope → Desk → Prop
  | d, [], d' => d' = d
  | d, env :: envs, d' => ∃ d₁,
      (if envelopeIsData env then ∃! place, Desk.RoutedTo place d env d₁ else d₁ = d) ∧ Routes d₁ envs d'

/-- The pump reaches no failing assertion and routes what it is handed. -/
def PumpsSafely (r : RequestReplyEngine) (nowUs : UInt64) : Prop :=
  (∀ fault, r.pumpInbound nowUs = .error fault → ¬ OwnFault fault) ∧
  ∀ r', r.pumpInbound nowUs = .ok r' → ∃ envs, r'.arrivals = r.arrivals ++ envs ∧
    Routes r.desk envs r'.desk

theorem routes_foldl (d : Desk) (envs : List MessageEnvelope) : Routes d envs (envs.foldl Desk.sort d) := by
  induction envs generalizing d with
  | nil => rfl
  | cons env envs ih =>
    refine ⟨d.sort env, ?_, ih (d.sort env)⟩
    split
    case isTrue hdata => exact Desk.sort_routed hdata
    case isFalse hdata => exact if_pos hdata

/-! ## Assertions of the delivery engine -/

theorem controlFault_foreign {t : AckTracker} {env : MessageEnvelope} {site : Site}
    (h : DeliveryEngine.controlFault t env = some site) : site ∉ ownSites := by
  unfold DeliveryEngine.controlFault at h
  split at h
  case isTrue _ => cases h
  split at h
  case isTrue _ =>
    cases h
    decide
  split at h
  case isTrue _ =>
    cases h
    decide
  case isFalse _ => cases h

theorem frameFault_foreign {e : DeliveryEngine} {frame : MessageEnvelope} {site : Site}
    (h : e.frameFault frame nowUs = some site) : site ∉ ownSites := by
  unfold DeliveryEngine.frameFault at h
  split at h
  case isTrue _ =>
    cases h
    decide
  split at h
  case h_1 _ => cases h
  case h_2 _ =>
    split at h
    case isTrue _ => cases h
    split at h
    case isTrue _ => exact controlFault_foreign h
    split at h
    case isTrue _ => cases h
    case isFalse _ =>
      cases h
      decide

theorem pollFault_foreign {e : DeliveryEngine} {timeoutMs : UInt32} {site : Site}
    (h : e.pollFault timeoutMs nowUs = some site) : site ∉ ownSites := by
  unfold DeliveryEngine.pollFault at h
  split at h
  case h_1 _ => cases h
  case h_2 _ => exact frameFault_foreign h

/-- `DeliveryEngine::receive` stops at assertions of other functions only. -/
theorem receiveFault_foreign {e : DeliveryEngine} {timeoutMs : UInt32} {site : Site}
    (h : e.receiveFault timeoutMs nowUs = some site) : site ∉ ownSites := by
  unfold DeliveryEngine.receiveFault at h
  split at h
  case isTrue _ =>
    cases h
    decide
  split at h
  case isTrue _ => cases h
  split at h
  case h_2 _ => cases h
  case h_1 d _ =>
    unfold DeliveryEngine.drainedFault at h
    split at h
    case h_1 _ => exact pollFault_foreign h
    case h_2 _ =>
      split at h
      case isFalse _ => cases h
      case isTrue _ =>
        split at h
        case isTrue _ => exact pollFault_foreign h
        case isFalse _ =>
          cases h
          decide

/-- A call of `receive` returns, or stops at an assertion of the delivery engine. -/
theorem receive_returns_or_stops {e : DeliveryEngine} (inv : e.Inv (fun _ => True))
    (transport : Transport) (nowUs : UInt64) :
    (∃ reply e', (e.attach transport).receive 0 nowUs = .ok (reply, e') ∧ e'.Inv fun _ => True) ∨
    ∃ site, (e.attach transport).receive 0 nowUs = .error (.assertion site) ∧ site ∉ ownSites := by
  have hinv := DeliveryEngine.Inv.attach inv transport
  cases hfault : (e.attach transport).receiveFault 0 nowUs with
  | none =>
    have hcall : DeliveryEngine.callFault (.receive 0 nowUs) (e.attach transport) = none := hfault
    obtain ⟨answer, e', hrun, hinv', -⟩ :=
      DeliveryEngine.run_spec DeliveryEngine.headerProperty_true hinv (fun _ _ _ => trivial) hcall
    obtain ⟨⟨reply, e₁⟩, hreceive, heq⟩ := bind_eq_ok.mp hrun
    cases heq
    exact .inl ⟨reply, e', hreceive, hinv'⟩
  | some site =>
    have hcall : DeliveryEngine.callFault (.receive 0 nowUs) (e.attach transport) = some site := hfault
    have hrun :=
      DeliveryEngine.run_fault DeliveryEngine.headerProperty_true hinv (fun _ _ _ => trivial) hcall
    refine .inr ⟨site, ?_, receiveFault_foreign hfault⟩
    rcases bind_eq_error.mp hrun with hreceive | ⟨a, -, heq⟩
    · exact hreceive
    · cases heq

/-! ## The pump -/

/-- A round that is handed an envelope. -/
theorem loop_succ_ok {rounds : Nat} {env : MessageEnvelope} {engine : DeliveryEngine}
    (h : (r.engine.attach r.nextLink).receive 0 nowUs = .ok (.ok env, engine)) :
    pumpInbound.loop nowUs (rounds + 1) r =
      ({ r with engine, links := r.links.tail, arrivals := r.arrivals ++ [env] }.sortInbound env >>=
        pumpInbound.loop nowUs rounds) := by
  simp only [pumpInbound.loop, receiveFromEngine, h, ok_bind, pure_eq_ok]

/-- A pump that is handed no empty data message stops, if it stops, in the delivery engine. -/
theorem loop_stops_outside {rounds : Nat} (tidy : Tidy r) (inv : r.engine.Inv fun _ => True)
    (hnone : ∀ env ∈ handedUp nowUs rounds r.engine r.links, ¬ EmptyData env) {fault : Fault}
    (h : pumpInbound.loop nowUs rounds r = .error fault) : ¬ OwnFault fault := by
  induction rounds generalizing r with
  | zero => cases h
  | succ rounds ih =>
    unfold handedUp at hnone
    rcases receive_returns_or_stops inv r.nextLink nowUs with
      ⟨reply, engine, hreceive, hinv⟩ | ⟨site, hreceive, hforeign⟩
    · cases reply with
      | error res =>
        rw [pumpInbound.loop, receiveFromEngine, hreceive] at h
        cases h
      | ok env =>
        rw [loop_succ_ok hreceive] at h
        rw [nextLink] at hreceive
        rw [hreceive] at hnone
        obtain ⟨r₁, hsort, -, htidy, -, hengine, hlinks, -⟩ := sortInbound_spec
          (r := { r with engine, links := r.links.tail, arrivals := r.arrivals ++ [env] })
          { tidy with } (hnone env List.mem_cons_self)
        rw [hsort, ok_bind] at h
        refine ih htidy (hengine ▸ hinv) ?_ h
        rw [hengine, hlinks]
        exact fun x hx => hnone x (List.mem_cons_of_mem env hx)
    · rw [pumpInbound.loop, receiveFromEngine, hreceive] at h
      cases h
      exact hforeign

/-- A pump that is handed an empty data message stops in the parser. -/
theorem loop_stops_inside {rounds : Nat} (tidy : Tidy r) {env : MessageEnvelope}
    (hmem : env ∈ handedUp nowUs rounds r.engine r.links) (hempty : EmptyData env) :
    pumpInbound.loop nowUs rounds r = .error (.assertion .rrParseRrHeader) := by
  induction rounds generalizing r with
  | zero => cases hmem
  | succ rounds ih =>
    unfold handedUp at hmem
    split at hmem
    case h_2 _ => cases hmem
    case h_1 first engine hreceive =>
    rw [loop_succ_ok hreceive]
    by_cases hfirst : EmptyData first
    · rw [sortInbound_empty _ hfirst, error_bind]
    · obtain ⟨r₁, hsort, -, htidy, -, hengine, hlinks, -⟩ := sortInbound_spec
        (r := { r with engine, links := r.links.tail, arrivals := r.arrivals ++ [first] })
        { tidy with } hfirst
      rw [hsort, ok_bind]
      refine ih htidy ?_
      rw [hengine, hlinks]
      rcases List.mem_cons.mp hmem with rfl | hmem
      · exact absurd hempty hfirst
      · exact hmem

/-- What every reachable state keeps. -/
theorem reachable_tidy {engine : DeliveryEngine} {inputs : List Input} {os : List Observation}
    (inv : engine.Inv fun _ => True) (h : Run.runAll exec inputs (init engine) = .ok (os, r)) :
    Tidy r ∧ r.engine.Inv fun _ => True := by
  refine Run.runAll_inv (I := fun r => Tidy r ∧ r.engine.Inv fun _ => True) ?_ ⟨tidy_init engine, inv⟩ h
  rintro i - r o r' ⟨tidy, inv⟩ hexec
  obtain ⟨-, hkept, -⟩ := exec_turn tidy hexec
  exact ⟨hkept.tidy, hkept.serves.inv inv⟩

/-- From every reachable state a pump is safe exactly when no empty data message is handed up. -/
theorem inbound_safety_iff (cfg : ChannelConfig) (localId : NodeId) (entropy : UInt64)
    (inputs : List Input) (os : List Observation) (r : RequestReplyEngine)
    (hlocal : localId ≠ nodeIdInvalid)
    (hrun : Run.runAll exec inputs (init (.init cfg localId entropy)) = .ok (os, r))
    (links : List Transport) (nowUs : UInt64) :
    PumpsSafely { r with links } nowUs ↔
      ∀ env ∈ handedUp nowUs maxStashSize r.engine links, ¬ EmptyData env := by
  obtain ⟨htidy, hinv⟩ := reachable_tidy (DeliveryEngine.inv_init cfg entropy hlocal) hrun
  have htidy' : Tidy { r with links } := { htidy with }
  constructor
  · rintro ⟨hsafe, -⟩ env hmem hempty
    have hown : Site.rrParseRrHeader ∈ ownSites := by decide
    exact hsafe _ (loop_stops_inside htidy' hmem hempty) hown
  · intro hnone
    refine ⟨fun fault hfault => loop_stops_outside htidy' hinv hnone hfault, fun r' hpump => ?_⟩
    obtain ⟨envs, harrivals, hdesk, -⟩ := pumpInbound_sorted htidy' hpump
    refine ⟨envs, harrivals, ?_⟩
    rw [hdesk]
    exact routes_foldl _ envs

/-! ## A peer that sends nothing, and one that answers -/

/-- The transport hands up one frame. -/
def delivering (frame : MessageEnvelope) : Transport := ⟨[], fun _ => .ok frame, []⟩

/-- Node 2 sends a data message without a byte: the first poll stops the program. -/
theorem empty_data_stops_pump :
    ¬ PumpsSafely { init (.init DeliveryEngine.orderedConfig 1 7) with
      links := [delivering (DeliveryEngine.plainData 2 0 0)] } 1 := by
  rintro ⟨hsafe, -⟩
  have hhanded : ∃ env ∈ handedUp 1 maxStashSize (.init DeliveryEngine.orderedConfig 1 7)
      [delivering (DeliveryEngine.plainData 2 0 0)], EmptyData env := by
    decide +kernel
  obtain ⟨env, hmem, hempty⟩ := hhanded
  have htidy := tidy_init (.init DeliveryEngine.orderedConfig 1 7)
  have hown : Site.rrParseRrHeader ∈ ownSites := by decide
  exact hsafe _ (loop_stops_inside { htidy with } hmem hempty) hown

theorem responseFrame_fits : 0 + 13 ≤ msgMaxPayloadBytes := by decide

/-- A response to node 1, for an id below 256 and with one byte for the application. -/
def responseFrame (source : NodeId) (cid byte : UInt8) : MessageEnvelope :=
  { DeliveryEngine.plainData source 0 0 with
    payloadLength := 13
    payload := Bytes.blit envelopeInit.payload 0 [1, 0, 0, 0, 0, 0, 0, 0, cid, 0, 0, 0, byte]
      responseFrame_fits }

/-- Node 1 asks node 2 one byte. -/
def askingRun : List Input := [⟨.sendRequest 2 #[7] 1 0 1, []⟩]

theorem inbound_safety_answered :
    ∃ os r, Run.runAll exec askingRun (init (.init DeliveryEngine.orderedConfig 1 7)) = .ok (os, r) ∧
      PumpsSafely { r with links := [delivering (responseFrame 2 1 9)] } 2 := by
  have hends : Run.Ends exec askingRun (init (.init DeliveryEngine.orderedConfig 1 7))
      fun r => ∀ env ∈ handedUp 2 maxStashSize r.engine [delivering (responseFrame 2 1 9)],
        ¬ EmptyData env := by
    decide +kernel
  obtain ⟨os, r, hrun, hnone⟩ := hends.exists
  refine ⟨os, r, hrun, ?_⟩
  exact (inbound_safety_iff DeliveryEngine.orderedConfig 1 7 askingRun os r (by decide) hrun _ 2).mpr hnone

end RequestReplyEngine

end MessageEngine
