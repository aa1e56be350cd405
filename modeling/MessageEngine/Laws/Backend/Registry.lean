import MessageEngine.Core.Backend
import Mathlib.Data.Set.Card

/-!
# The registration of clients

What the two TCP servers are for, apart from how they store it: a set of live clients, each with its
descriptor, its node once it has said `HELLO`, and the time it was accepted. A client whose `HELLO`
claims a node that another client has, and one that says `HELLO` again, is closed.

## What is proved

- `Sound.insert`, `Sound.close`, `Sound.register`, `Sound.mark`, `Sound.sweep`: descriptors and nodes stay told
  apart;
- `Greets.insert`, `Greets.close`, `Greets.register`, `Greets.sweep`: exactly the registered clients
  have said `HELLO`;
- `Closes.swept`: closing the clients that timed out, one after the other, until none is left is a
  sweep.
-/

namespace MessageEngine

/-- A live client. -/
@[ext] structure Client where
  fd : Int
  nodeId : NodeId
  helloReceived : Bool
  acceptTs : UInt64
  deriving DecidableEq

/-- A set of live clients. -/
abbrev Registry := Set Client

namespace Registry

/-- A client that was just accepted. -/
def newcomer (fd : Int) (nowUs : UInt64) : Client := ⟨fd, nodeIdInvalid, false, nowUs⟩

/-- The client has been silent for too long. -/
def TimedOut (timeoutUs nowUs : UInt64) (c : Client) : Prop :=
  c.helloReceived = false ∧ c.acceptTs ≠ 0 ∧ nowUs - c.acceptTs > timeoutUs

instance (timeoutUs nowUs : UInt64) (c : Client) : Decidable (TimedOut timeoutUs nowUs c) :=
  inferInstanceAs (Decidable (_ ∧ _ ∧ _))

/-- Without the client on a descriptor. -/
def close (live : Registry) (fd : Int) : Registry := {c | c ∈ live ∧ c.fd ≠ fd}

/-- With the client on a descriptor registered for a node. -/
def register (live : Registry) (fd : Int) (src : NodeId) : Registry :=
  {c | c ∈ close live fd ∨
    ∃ c₀ ∈ live, c₀.fd = fd ∧ c = { c₀ with nodeId := src, helloReceived := true }}

/-- Without the clients that were silent for too long. -/
def sweep (live : Registry) (timeoutUs nowUs : UInt64) : Registry :=
  {c | c ∈ live ∧ ¬ TimedOut timeoutUs nowUs c}

/-- With the client on a descriptor marked as greeted, registered or not. -/
def mark (live : Registry) (fd : Int) : Registry :=
  {c | ∃ c₀ ∈ live, c = { c₀ with helloReceived := c₀.helloReceived || decide (c₀.fd = fd) }}

/-- There is a client on the descriptor. -/
def Connected (live : Registry) (fd : Int) : Prop := ∃ c ∈ live, c.fd = fd

/-- The client on the descriptor has said `HELLO`. -/
def Greeted (live : Registry) (fd : Int) : Prop := ∃ c ∈ live, c.fd = fd ∧ c.helloReceived = true

/-- A client on another descriptor has the node. -/
def Claimed (live : Registry) (fd : Int) (src : NodeId) : Prop :=
  ∃ c ∈ live, c.nodeId = src ∧ c.fd ≠ fd

/-- The client on the descriptor may send messages from `src`. -/
def Speaks (live : Registry) (fd : Int) (src : NodeId) : Prop :=
  ∃ c ∈ live, c.fd = fd ∧ c.nodeId ≠ nodeIdInvalid ∧ c.nodeId = src

/-- Descriptors are open and tell the clients apart, and so do the nodes of the registered ones. -/
structure Sound (live : Registry) : Prop where
  opened : ∀ c ∈ live, c.fd ≥ 0
  keyed : ∀ c ∈ live, ∀ c' ∈ live, c.fd = c'.fd → c = c'
  unique : ∀ c ∈ live, ∀ c' ∈ live, c.nodeId ≠ nodeIdInvalid → c.nodeId = c'.nodeId → c = c'

/-- Exactly the registered clients have said `HELLO`. -/
def Greets (live : Registry) : Prop := ∀ c ∈ live, c.helloReceived = true ↔ c.nodeId ≠ nodeIdInvalid

variable {live : Registry} {fd : Int} {src : NodeId} {nowUs timeoutUs : UInt64}

theorem Sound.mono {live' : Registry} (h : Sound live) (hsub : ∀ c ∈ live', c ∈ live) : Sound live' where
  opened c hc := h.opened c (hsub c hc)
  keyed c hc c' hc' := h.keyed c (hsub c hc) c' (hsub c' hc')
  unique c hc c' hc' := h.unique c (hsub c hc) c' (hsub c' hc')

theorem Greets.mono {live' : Registry} (h : Greets live) (hsub : ∀ c ∈ live', c ∈ live) :
    Greets live' :=
  fun c hc => h c (hsub c hc)

theorem Sound.close (h : Sound live) (fd : Int) : Sound (close live fd) := h.mono fun _ hc => hc.1

theorem Greets.close (h : Greets live) (fd : Int) : Greets (Registry.close live fd) :=
  h.mono fun _ hc => hc.1

theorem Sound.sweep (h : Sound live) : Sound (sweep live timeoutUs nowUs) := h.mono fun _ hc => hc.1

theorem Greets.sweep (h : Greets live) : Greets (Registry.sweep live timeoutUs nowUs) :=
  h.mono fun _ hc => hc.1

/-- A new descriptor. -/
theorem Sound.insert (h : Sound live) (hfd : fd ≥ 0) (hnew : ∀ c ∈ live, c.fd ≠ fd) :
    Sound (insert (newcomer fd nowUs) live) where
  opened c hc := by
    rcases hc with rfl | hc
    · exact hfd
    · exact h.opened c hc
  keyed c hc c' hc' heq := by
    rcases hc with rfl | hc
    · rcases hc' with rfl | hc'
      · rfl
      · exact absurd heq.symm (hnew c' hc')
    · rcases hc' with rfl | hc'
      · exact absurd heq (hnew c hc)
      · exact h.keyed c hc c' hc' heq
  unique c hc c' hc' hne heq := by
    rcases hc with rfl | hc
    · exact absurd rfl hne
    · rcases hc' with rfl | hc'
      · exact absurd heq hne
      · exact h.unique c hc c' hc' hne heq

theorem Greets.insert (h : Greets live) : Greets (insert (newcomer fd nowUs) live) := by
  intro c hc
  rcases hc with rfl | hc
  · simp [newcomer]
  · exact h c hc

/-- A client that is registered for a node no other client has. -/
theorem Sound.register (h : Sound live) (hfree : ¬ Claimed live fd src) : Sound (register live fd src) where
  opened c hc := by
    rcases hc with hc | ⟨c₀, hc₀, -, rfl⟩
    · exact h.opened c hc.1
    · exact h.opened c₀ hc₀
  keyed c hc c' hc' heq := by
    rcases hc with ⟨hc, hne⟩ | ⟨c₀, hc₀, hfd, rfl⟩
    · rcases hc' with ⟨hc', -⟩ | ⟨c₁, -, hfd', rfl⟩
      · exact h.keyed c hc c' hc' heq
      · exact absurd (heq.trans hfd') hne
    · rcases hc' with ⟨-, hne'⟩ | ⟨c₁, hc₁, hfd', rfl⟩
      · exact absurd (heq.symm.trans hfd) hne'
      · rw [h.keyed c₀ hc₀ c₁ hc₁ (hfd.trans hfd'.symm)]
  unique c hc c' hc' hne heq := by
    rcases hc with ⟨hc, hother⟩ | ⟨c₀, hc₀, hfd, rfl⟩
    · rcases hc' with ⟨hc', -⟩ | ⟨c₁, -, -, rfl⟩
      · exact h.unique c hc c' hc' hne heq
      · exact absurd ⟨c, hc, heq, hother⟩ hfree
    · rcases hc' with ⟨hc', hother'⟩ | ⟨c₁, hc₁, hfd', rfl⟩
      · exact absurd ⟨c', hc', heq.symm, hother'⟩ hfree
      · rw [h.keyed c₀ hc₀ c₁ hc₁ (hfd.trans hfd'.symm)]

theorem Sound.mark (h : Sound live) (fd : Int) : Sound (mark live fd) where
  opened := by
    rintro c ⟨c₀, hc₀, rfl⟩
    exact h.opened c₀ hc₀
  keyed := by
    rintro c ⟨c₀, hc₀, rfl⟩ c' ⟨c₁, hc₁, rfl⟩ heq
    rw [h.keyed c₀ hc₀ c₁ hc₁ heq]
  unique := by
    rintro c ⟨c₀, hc₀, rfl⟩ c' ⟨c₁, hc₁, rfl⟩ hne heq
    rw [h.unique c₀ hc₀ c₁ hc₁ hne heq]

theorem Greets.register (h : Greets live) (hsrc : src ≠ nodeIdInvalid) :
    Greets (Registry.register live fd src) := by
  intro c hc
  rcases hc with hc | ⟨c₀, -, -, rfl⟩
  · exact h c hc.1
  · simp [hsrc]

/-- Registering a client does not change how many there are. -/
theorem Sound.ncard_register (h : Sound live) : (Registry.register live fd src).ncard = live.ncard := by
  have himage : Registry.register live fd src =
      (fun c : Client => if c.fd = fd then { c with nodeId := src, helloReceived := true } else c) '' live := by
    ext c
    constructor
    · rintro (⟨hc, hne⟩ | ⟨c₀, hc₀, hfd, rfl⟩)
      · exact ⟨c, hc, if_neg hne⟩
      · exact ⟨c₀, hc₀, if_pos hfd⟩
    · rintro ⟨c₀, hc₀, rfl⟩
      by_cases hfd : c₀.fd = fd
      · exact .inr ⟨c₀, hc₀, hfd, if_pos hfd⟩
      · simp only [if_neg hfd]
        exact .inl ⟨hc₀, hfd⟩
  rw [himage]
  refine Set.InjOn.ncard_image fun c hc c' hc' heq => h.keyed c hc c' hc' ?_
  have hfd (c : Client) : (if c.fd = fd then { c with nodeId := src, helloReceived := true } else c).fd
      = c.fd := by
    split
    · rfl
    · rfl
  rw [← hfd c, ← hfd c']
  exact congrArg Client.fd heq

/-! ## Sweeping client by client -/

/-- Clients that timed out are closed one after the other. -/
inductive Closes (timeoutUs nowUs : UInt64) : Registry → List Int → Registry → Prop
  | nil {live : Registry} : Closes timeoutUs nowUs live [] live
  | cons {live live' : Registry} {c : Client} {fds : List Int} (mem : c ∈ live)
      (timedOut : TimedOut timeoutUs nowUs c) (rest : Closes timeoutUs nowUs (live.close c.fd) fds live') :
      Closes timeoutUs nowUs live (c.fd :: fds) live'

theorem Closes.snoc {live' : Registry} {fds : List Int} {c : Client}
    (h : Closes timeoutUs nowUs live fds live') (mem : c ∈ live') (htimed : TimedOut timeoutUs nowUs c) :
    Closes timeoutUs nowUs live (fds ++ [c.fd]) (live'.close c.fd) := by
  induction h with
  | nil => exact .cons mem htimed .nil
  | cons mem₀ timedOut₀ _ ih => exact .cons mem₀ timedOut₀ (ih mem)

/-- Taking out a client that timed out does not change what a sweep leaves. -/
theorem sweep_close {c : Client} (h : Sound live) (hc : c ∈ live)
    (htimed : TimedOut timeoutUs nowUs c) :
    Registry.sweep (Registry.close live c.fd) timeoutUs nowUs = Registry.sweep live timeoutUs nowUs := by
  ext c'
  constructor
  · rintro ⟨⟨hc', -⟩, hnot⟩
    exact ⟨hc', hnot⟩
  · rintro ⟨hc', hnot⟩
    refine ⟨⟨hc', fun heq => ?_⟩, hnot⟩
    rw [h.keyed c' hc' c hc heq] at hnot
    exact hnot htimed

/-- When nobody is left that timed out, the others have been swept. -/
theorem Closes.swept {live' : Registry} {fds : List Int} (h : Closes timeoutUs nowUs live fds live')
    (hsound : Sound live) (hdone : ∀ c ∈ live', ¬ TimedOut timeoutUs nowUs c) :
    live' = Registry.sweep live timeoutUs nowUs ∧
      ∀ fd, fd ∈ fds ↔ ∃ c ∈ live, TimedOut timeoutUs nowUs c ∧ c.fd = fd := by
  induction h with
  | @nil live =>
    refine ⟨Set.ext fun c => ⟨fun hc => ⟨hc, hdone c hc⟩, fun hc => hc.1⟩, fun fd => ?_⟩
    refine ⟨fun hfd => absurd hfd List.not_mem_nil, ?_⟩
    rintro ⟨c, hc, htimed, -⟩
    exact absurd htimed (hdone c hc)
  | @cons live live' c fds mem htimed _ ih =>
    obtain ⟨hlive, hfds⟩ := ih (hsound.close c.fd) hdone
    refine ⟨hlive.trans (sweep_close hsound mem htimed), fun fd => ?_⟩
    rw [List.mem_cons, hfds]
    constructor
    · rintro (rfl | ⟨c', ⟨hc', -⟩, hc''⟩)
      · exact ⟨c, mem, htimed, rfl⟩
      · exact ⟨c', hc', hc''⟩
    · rintro ⟨c', hc', htimed', rfl⟩
      by_cases heq : c'.fd = c.fd
      · exact .inl heq
      · exact .inr ⟨c', ⟨hc', heq⟩, htimed', rfl⟩

end Registry

end MessageEngine
