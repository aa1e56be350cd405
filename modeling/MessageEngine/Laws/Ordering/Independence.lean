import MessageEngine.Laws.Ordering.Lanes

/-!
# The order of one source does not depend on the others

The messages of a source arrive among those of any number of others, and once more alone. Both runs are
compared lane by lane: as long as the source keeps its entry, a message of another source leaves its lane
alone, and its own messages find equal lanes and so get equal answers.

The shared tables are where this can fail. The holds are one: when a message of the source finds room
among the others, it finds room alone. The peer table is the other: a source that holds nothing can lose
its entry to a new one, and then starts from the beginning.

## What is proved

- `sources_independent`: in every interleaving in which no message takes the entry of the source, the
  source gets the same answers as alone.
- `entry_taken_differs`: seventeen sources, and the first one is answered differently.
-/

namespace MessageEngine

open Outcome Table Gate

namespace OrderingBuffer

variable {b b' : OrderingBuffer} {src : NodeId}

/-- The answers to the messages of a source. -/
def answersFor (src : NodeId) (arrivals : List Incoming) (outs : List Presented) : List Presented :=
  ((arrivals.zip outs).filter fun p => p.1.msg.sourceId == src).map Prod.snd

/-- The gate among the other sources, and the gate alone. -/
structure Alike (src : NodeId) (b b' : OrderingBuffer) : Prop where
  among : Ready (fun _ => True) (fun _ => True) b
  alone : Ready (fun env => env.sourceId = src) (fun _ => True) b'
  lane : b.lane src = b'.lane src

/-- A gate that holds messages of one source only is not full: the source has its share. -/
theorem free_of_single (ready : Ready (fun env => env.sourceId = src) (fun _ => True) b) :
    ¬ ∀ i : Fin orderingHoldCount, b.hold[i].active = true := by
  intro hall
  have hcount : b.holdCount src = orderingHoldCount := by
    rw [holdCount, countP_eq_size]
    intro i
    have hsrc := ready.inv.holdOk _ ⟨i, hall i, rfl⟩
    rw [hall i, hsrc, beq_self_eq_true]
    rfl
  have hquota := ready.quota src
  rw [hcount] at hquota
  exact absurd hquota (by decide)

/-- A message of another source leaves the lane alone. -/
theorem Alike.other {a : Incoming} {o : Presented} {b₁ : OrderingBuffer} (h : Alike src b b')
    (hother : a.msg.sourceId ≠ src) (spared : ¬ b.TakesEntry a.msg src) (presents : Presents b a.msg o b₁)
    (ready : Ready (fun _ => True) (fun _ => True) b₁) : Alike src b₁ b' := by
  refine ⟨ready, h.alone, ?_⟩
  rcases presents.others src (Ne.symm hother) with hsame | ⟨htakes, -⟩
  · rw [hsame, h.lane]
  · exact absurd htakes spared

/-- A message of the source gets the same answer in both gates, if it finds room among the others. -/
theorem Alike.own (eager : Bool) {a : Incoming} {o : Presented} {b₁ : OrderingBuffer} (h : Alike src b b')
    (wellFormed : a.WellFormed) (hown : a.msg.sourceId = src) (room : ¬ o.Full)
    (presents : Presents b a.msg o b₁) (ready : Ready (fun _ => True) (fun _ => True) b₁) :
    ∃ b₁', present eager a b' = .ok (o, b₁') ∧ Alike src b₁ b₁' := by
  obtain ⟨o', b₁', hpresent, presents', ready'⟩ := present_spec eager h.alone wellFormed trivial hown
  subst hown
  rcases presents.own with ⟨rfl, -, -⟩ | ⟨out, rfl, arrives⟩
  · exact absurd rfl room
  rcases presents'.own with ⟨rfl, ⟨hahead, hnew, hfull⟩, -⟩ | ⟨out', rfl, arrives'⟩
  · -- The message waits among the others, so that its source has room for it there.
    exfalso
    have hheld : b.heldOf a.msg.sourceId = b'.heldOf a.msg.sourceId := congrArg Lane.held h.lane
    rcases hfull with hmax | hall
    · rw [holdCount_eq_ncard h.alone.inv, ← hheld] at hmax
      have hquota := ready.quota a.msg.sourceId
      rw [holdCount_eq_ncard ready.inv] at hquota
      have hlt : (b.lane a.msg.sourceId).cursor < num a.msg := by
        rw [h.lane]
        exact UInt32.lt_iff_toNat_lt.mp hahead
      have hfresh (y : MessageEnvelope) (hy : y ∈ b.heldOf a.msg.sourceId) : num y ≠ num a.msg := by
        rw [hheld] at hy
        exact fun hsame => hnew y hy.1 hy.2 (UInt32.toNat_inj.mp hsame)
      obtain ⟨-, hlane⟩ := arrives.unique (h.among.inv.injOn_num _) (.waits hlt hfresh)
      have hinsert : b₁.heldOf a.msg.sourceId = insert a.msg (b.heldOf a.msg.sourceId) :=
        congrArg Lane.held hlane
      have hnot : a.msg ∉ b.heldOf a.msg.sourceId := fun hmem => hfresh a.msg hmem rfl
      rw [hinsert, Set.ncard_insert_of_notMem hnot heldOf_finite] at hquota
      omega
    · exact free_of_single h.alone hall
  · rw [← h.lane] at arrives'
    obtain ⟨rfl, hlane⟩ := arrives.unique (h.among.inv.injOn_num _) arrives'
    exact ⟨b₁', hpresent, ready, ready', hlane⟩

theorem answersFor_cons (a : Incoming) (arrivals : List Incoming) (o : Presented) (outs : List Presented) :
    answersFor src (a :: arrivals) (o :: outs) =
      if a.msg.sourceId = src then o :: answersFor src arrivals outs else answersFor src arrivals outs := by
  unfold answersFor
  rw [List.zip_cons_cons, List.filter_cons]
  by_cases h : a.msg.sourceId = src
  · rw [if_pos (beq_iff_eq.mpr h), if_pos h, List.map_cons]
  · rw [if_neg (fun hb => h (beq_iff_eq.mp hb)), if_neg h]

/-- From alike gates, the messages of the source get the same answers. -/
theorem Alike.run (eager : Bool) {arrivals : List Incoming} {outs : List Presented} {b₁ : OrderingBuffer}
    (h : Alike src b b') (wellFormed : ∀ a ∈ arrivals, a.WellFormed)
    (spared : Run.Along (present eager) (fun b a => ¬ b.TakesEntry a.msg src) arrivals b)
    (run : Run.runAll (present eager) arrivals b = .ok (outs, b₁))
    (room : ∀ o ∈ outs, ¬ o.Full) :
    ∃ b₁', Run.runAll (present eager) (arrivals.filter fun a => a.msg.sourceId == src) b' =
      .ok (answersFor src arrivals outs, b₁') := by
  induction arrivals generalizing b b' outs with
  | nil =>
    cases run
    exact ⟨b', rfl⟩
  | cons a arrivals ih =>
    obtain ⟨hspared, hrest⟩ := Run.along_cons.mp spared
    obtain ⟨⟨o, b₂⟩, hpresent, run⟩ := bind_eq_ok.mp run
    obtain ⟨⟨outs', b₃⟩, hrun, run⟩ := bind_eq_ok.mp run
    cases run
    have hwell := wellFormed a List.mem_cons_self
    obtain ⟨o', b₂', hpresent', presents, ready⟩ := present_spec eager h.among hwell trivial trivial
    rw [hpresent] at hpresent'
    cases hpresent'
    have hlater (c : Incoming) (hc : c ∈ arrivals) := wellFormed c (List.mem_cons_of_mem a hc)
    have hroom (p : Presented) (hp : p ∈ outs') := room p (List.mem_cons_of_mem o hp)
    rw [answersFor_cons, List.filter_cons]
    by_cases hown : a.msg.sourceId = src
    · obtain ⟨b₂', halone, halike⟩ :=
        h.own eager hwell hown (room o List.mem_cons_self) presents ready
      obtain ⟨b₁', hrun'⟩ := ih halike hlater (hrest o b₂ hpresent) hrun hroom
      rw [if_pos (beq_iff_eq.mpr hown), if_pos hown]
      exact ⟨b₁', bind_eq_ok.mpr ⟨_, halone, bind_eq_ok.mpr ⟨_, hrun', rfl⟩⟩⟩
    · rw [if_neg (fun hb => hown (beq_iff_eq.mp hb)), if_neg hown]
      exact ih (h.other hown hspared presents ready) hlater (hrest o b₂ hpresent) hrun hroom

/-- Every interleaving returns. When no message takes the entry of the source, and none finds the tables
full, the messages of the source get the answers they get alone. -/
theorem sources_independent (eager : Bool) (src : NodeId) (arrivals : List Incoming)
    (wellFormed : ∀ a ∈ arrivals, a.WellFormed)
    (spared : Run.Along (present eager) (fun b a => ¬ b.TakesEntry a.msg src) arrivals init) :
    ∃ outs b, Run.runAll (present eager) arrivals init = .ok (outs, b) ∧
      ((∀ o ∈ outs, ¬ o.Full) →
        ∃ b', Run.runAll (present eager) (arrivals.filter fun a => a.msg.sourceId == src) init =
          .ok (answersFor src arrivals outs, b')) := by
  have hready : Ready (fun _ => True) (fun _ => True) init := ready_init
  obtain ⟨outs, b, hrun⟩ := present_run eager hready wellFormed fun _ _ => trivial
  exact ⟨outs, b, hrun, (Alike.mk ready_init ready_init rfl).run eager wellFormed spared hrun⟩

/-- A message of source `n + 1`. -/
def sentBy (n : Nat) (seq : UInt32) : Incoming :=
  ⟨{ envelopeInit with messageType := .data, sourceId := UInt32.ofNat (n + 1), sequenceNum := seq }, 50⟩

/-- The messages of the first source come out of order, and between them those of sixteen others: the last of
these finds every entry in use and takes that of the second source. -/
def interleaved : List Incoming :=
  [sentBy 0 2] ++ (List.range 16).map (fun n => sentBy (n + 1) 1) ++ [sentBy 0 1, sentBy 0 3]

theorem sources_independent_evicting :
    ∃ outs b b', Run.runAll (present true) interleaved init = .ok (outs, b) ∧
      ¬ Run.Along (present true) (fun b a => ¬ b.TakesEntry a.msg 2) interleaved init ∧
      Run.runAll (present true) (interleaved.filter fun a => a.msg.sourceId == 1) init =
        .ok (answersFor 1 interleaved outs, b') := by
  obtain ⟨outs, b, hrun, halone⟩ := sources_independent true 1 interleaved (by decide +kernel)
    (by decide +kernel)
  have hroom : Run.Yields (present true) interleaved init fun outs _ => outs.all (fun o => !decide o.Full) := by
    decide +kernel
  have htaken : ¬ Run.Along (present true) (fun b a => ¬ b.TakesEntry a.msg 2) interleaved init := by
    decide +kernel
  obtain ⟨outs', b₁, hrun', hroom⟩ := hroom.exists
  rw [hrun] at hrun'
  cases hrun'
  obtain ⟨b', hsame⟩ := halone fun o ho => by simpa using List.all_eq_true.mp hroom o ho
  exact ⟨outs, b, b', hrun, htaken, hsame⟩

/-- The first source sends, sixteen others follow, and the first source sends again. -/
def seventeen : List Incoming := (List.range 17).map (fun n => sentBy n 1) ++ [sentBy 0 2]

/-- The second message of the first source passes when it comes alone, and waits for ever when the other
sources came between. -/
theorem entry_taken_differs :
    ∃ outs b outs' b', Run.runAll (present true) seventeen init = .ok (outs, b) ∧ (∀ o ∈ outs, ¬ o.Full) ∧
      Run.runAll (present true) (seventeen.filter fun a => a.msg.sourceId == 1) init = .ok (outs', b') ∧
      answersFor 1 seventeen outs ≠ outs' := by
  have hamong : Run.Yields (present true) seventeen init fun outs _ =>
      outs.all (fun o => !decide o.Full) ∧
        (answersFor 1 seventeen outs).map (fun o => o.out.length) = [1, 0] := by decide +kernel
  have halone : Run.Yields (present true) (seventeen.filter fun a => a.msg.sourceId == 1) init fun outs _ =>
      outs.map (fun o => o.out.length) = [1, 1] := by decide +kernel
  obtain ⟨outs, b, hrun, hroom, hlost⟩ := hamong.exists
  obtain ⟨outs', b', hrun', hpassed⟩ := halone.exists
  refine ⟨outs, b, outs', b', hrun, fun o ho => ?_, hrun', fun hsame => ?_⟩
  · simpa using List.all_eq_true.mp hroom o ho
  · rw [hsame, hpassed] at hlost
    cases hlost

end OrderingBuffer

end MessageEngine
