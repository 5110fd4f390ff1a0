import FlowProbe.Proofs.Window.AckLedger
import FlowProbe.Proofs.Window.PacketTally

/-! The two sides of a flow.

Where the ends of a flow can be told apart, by who owns them or else by the overlay, one of them is
the local side, and the direction of the flow and of its reverse follow from that alone: hints have
no say (`direction_of_sourceIsLocal`, `direction_of_destIsLocal`). What an analyzer keeps under a
flow it has filed by the direction of a segment of that flow, so it keeps nothing of such a flow
that another hint would have filed elsewhere (`sides_of_flow`). -/
namespace FlowProbe
open Windowed

/-! ### What a table says of a flow -/

theorem Direction.code_opposite_ne (d : Direction) : d.opposite.code ≠ d.code := by
  cases d <;> decide

namespace InterfaceTable

variable {t : InterfaceTable} {f : Flow}

/-- Whether exactly one end of a flow is a local address, or this is no difference between them
and exactly one is in the overlay. -/
def TellsSides (t : InterfaceTable) (f : Flow) : Prop :=
  t.owns f.source ≠ t.owns f.dest ∨
    (t.owns f.source = t.owns f.dest ∧ t.inOverlay f.source ≠ t.inOverlay f.dest)

/-- Whether the source of a flow is the local side. -/
def SourceIsLocal (t : InterfaceTable) (f : Flow) : Prop :=
  (t.owns f.source = true ∧ t.owns f.dest = false) ∨
    (t.owns f.source = t.owns f.dest ∧
      t.inOverlay f.source = true ∧ t.inOverlay f.dest = false)

theorem direction_of_sourceIsLocal (h : t.SourceIsLocal f) (hint : UInt8) :
    t.direction f hint = .sent := by
  rcases h with ⟨hsource, hdest⟩ | ⟨howns, hsource, hdest⟩
  · simp [direction, hsource, hdest]
  · simp [direction, howns, hsource, hdest]

theorem direction_of_destIsLocal (h : t.SourceIsLocal f.reverse) (hint : UInt8) :
    t.direction f hint = .received := by
  rcases h with ⟨hdest, hsource⟩ | ⟨howns, hdest, hsource⟩
  · have hdest : t.owns f.dest = true := hdest
    have hsource : t.owns f.source = false := hsource
    simp [direction, hsource, hdest]
  · have howns : t.owns f.dest = t.owns f.source := howns
    have hdest : t.inOverlay f.dest = true := hdest
    have hsource : t.inOverlay f.source = false := hsource
    simp [direction, howns, hsource, hdest]

namespace TellsSides

variable (h : t.TellsSides f)
include h

theorem sourceIsLocal_or : t.SourceIsLocal f ∨ t.SourceIsLocal f.reverse := by
  -- two bits that differ are one true and one false
  have hbits {x y : Bool} (hne : x ≠ y) : (x = true ∧ y = false) ∨ (y = true ∧ x = false) := by
    revert x y
    decide
  rcases h with howns | ⟨howns, hoverlay⟩
  · exact (hbits howns).imp .inl .inl
  · exact (hbits hoverlay).imp (fun h => .inr ⟨howns, h⟩) fun h => .inr ⟨howns.symm, h⟩

/-- A hint makes no difference, and turning the flow around turns the direction around. -/
theorem direction_eq (hint hint' : UInt8) :
    t.direction f hint = t.direction f hint' ∧
      t.direction f hint = (t.direction f.reverse hint').opposite := by
  rcases h.sourceIsLocal_or with hlocal | hlocal
  · rw [direction_of_sourceIsLocal hlocal, direction_of_sourceIsLocal hlocal,
      direction_of_destIsLocal hlocal]
    exact ⟨rfl, rfl⟩
  · rw [direction_of_destIsLocal hlocal, direction_of_destIsLocal hlocal,
      direction_of_sourceIsLocal hlocal]
    exact ⟨rfl, rfl⟩

theorem sourceIsLocal_of_sent {hint : UInt8} (hsent : t.direction f hint = .sent) :
    t.SourceIsLocal f := by
  refine h.sourceIsLocal_or.resolve_right fun hlocal => ?_
  rw [direction_of_destIsLocal hlocal] at hsent
  cases hsent

theorem destIsLocal_of_received {hint : UInt8} (hreceived : t.direction f hint = .received) :
    t.SourceIsLocal f.reverse := by
  refine h.sourceIsLocal_or.resolve_left fun hlocal => ?_
  rw [direction_of_sourceIsLocal hlocal] at hreceived
  cases hreceived

end TellsSides

theorem TellsSides.reverse (h : t.TellsSides f) : t.TellsSides f.reverse :=
  h.imp Ne.symm fun h => ⟨h.1.symm, h.2.symm⟩

/-- Only one of the ends is the local side. -/
theorem not_sourceIsLocal_reverse (h : t.SourceIsLocal f) : ¬t.SourceIsLocal f.reverse := by
  intro hreverse
  have hsent : t.direction f 0 = .sent := direction_of_sourceIsLocal h 0
  rw [direction_of_destIsLocal hreverse] at hsent
  cases hsent

end InterfaceTable

/-! ### What a segment files -/

namespace AckDelays

variable {t : InterfaceTable} {a : AckDelays} {s : Segment} {k : Flow}

/-- A queue that a segment leaves was there, or the segment was sent under its flow. -/
theorem contains_queues_ingest (h : (a.ingest t s).queues.contains k = true) :
    a.queues.contains k = true ∨ t.direction k s.hint = .sent := by
  rcases a.ingest_cases t s with ⟨-, hsent, he⟩ | ⟨-, -, he⟩ | ⟨-, he⟩
  · by_cases hk : k = s.flow
    · exact .inr (hk ▸ hsent)
    · rw [he, enqueue, Keyed.contains, Keyed.find?_alter, if_neg hk] at h
      exact .inl h
  · refine .inl ?_
    cases hlast : ((a.admitted s).covered s).getLast? with
    | none =>
      rw [he, onAck_of_nil (List.getLast?_eq_none_iff.1 hlast)] at h
      exact h
    | some last =>
      rw [he, onAck_of_last hlast, Keyed.contains, Keyed.find?_alter] at h
      split at h
      · next hk =>
        rw [hk]
        exact Option.isSome_of_isSome_bind h
      · exact h
  · rw [he] at h
    exact .inl h

/-- Samples that a segment leaves were there, or the segment was received under its flow. -/
theorem isSome_live_ingest (h : (live k (a.ingest t s)).isSome = true) :
    (live k a).isSome = true ∨ t.direction k s.hint = .received := by
  rcases a.ingest_cases t s with ⟨-, -, he⟩ | ⟨-, hreceived, he⟩ | ⟨-, he⟩
  · rw [he] at h
    exact .inl h
  · by_cases hk : k = s.flow
    · exact .inr (hk ▸ hreceived)
    · refine .inl ?_
      cases hlast : ((a.admitted s).covered s).getLast? with
      | none =>
        rw [he, onAck_of_nil (List.getLast?_eq_none_iff.1 hlast)] at h
        exact h
      | some last =>
        have hlive : live k (a.ingest t s) = live k a := by
          rw [he, onAck_of_last hlast]
          exact (Keyed.find?_alter ..).trans (if_neg hk)
        rwa [hlive] at h
  · rw [he] at h
    exact .inl h

section Run

variable {calls : List (Call AckDelays)} (htable : ∀ e ∈ intake calls, e.1 = t) (interval : Nanos)
include htable

/-- What waits was sent. -/
theorem sent_of_queues (h : (run (ofInterval interval) calls).queues.contains k = true) :
    ∃ hint, t.direction k hint = .sent := by
  have hsteady : Steady fun a : AckDelays => a.queues.contains k :=
    ⟨fun _ => rfl, fun _ _ => rfl⟩
  refine held_run_invariant hsteady
    (P := fun held => held = true → ∃ hint, t.direction k hint = .sent) htable ?_ ?_ ?_ h
  · intro a s ha hafter
    exact (contains_queues_ingest hafter).elim ha fun hsent => ⟨s.hint, hsent⟩
  · intro t' a out _ hafter
    cases hafter
  · intro hnew
    cases hnew

/-- What was sampled was received. -/
theorem received_of_live (h : (live k (run (ofInterval interval) calls)).isSome = true) :
    ∃ hint, t.direction k hint = .received := by
  refine live_run_invariant (P := fun b => b.isSome = true → ∃ hint, t.direction k hint = .received)
    htable ?_ nofun ?_ h
  · intro a s ha hafter
    exact (isSome_live_ingest hafter).elim ha fun hreceived => ⟨s.hint, hreceived⟩
  · intro hnew
    cases hnew

end Run

end AckDelays

namespace PacketCounts

variable {t : InterfaceTable} {p : PacketCounts} {e : Segment ⊕ SocketReport} {k : Flow}

/-- The direction of a total was there, or is that of the event. -/
theorem direction_ingest {b : PacketTotal} (h : live k (Analyzing.ingest t p e) = some b) :
    (∃ b', live k p = some b' ∧ b.direction = b'.direction) ∨
      b.direction = t.direction k (hintOf e) := by
  have hitem : Folding.item? t p e = entryOf t e := rfl
  rw [live, Folding.aggregates_ingest, hitem, entryOf_eq] at h
  split at h
  · rw [Option.elim_some, Keyed.find?_alter] at h
    split at h
    · next hk =>
      have hk : k = flowOf e := hk
      have hput : (entry t e).put (live k p) = b := by
        rw [hk]
        exact Option.some.inj h
      cases hlive : live k p with
      | none =>
        rw [hlive, put_entry_none, ← hk] at hput
        exact .inr (hput ▸ rfl)
      | some b' =>
        rw [hlive, put_entry_some] at hput
        exact .inl ⟨b', rfl, hput ▸ rfl⟩
    · exact .inl ⟨b, h, rfl⟩
  · exact .inl ⟨b, h, rfl⟩

/-- A total has the direction that some hint gives its flow. -/
theorem direction_of_live {calls : List (Call PacketCounts)}
    (htable : ∀ e ∈ intake calls, e.1 = t) (interval : Nanos) {b : PacketTotal}
    (h : live k (run (ofInterval interval) calls) = some b) :
    ∃ hint, b.direction = t.direction k hint := by
  refine live_run_invariant
    (P := fun held : Option PacketTotal => ∀ b ∈ held, ∃ hint, b.direction = t.direction k hint)
    htable ?_ nofun ?_ b h
  · intro p e hp b hb
    rcases direction_ingest hb with ⟨b', hb', hsame⟩ | hdirection
    · rw [hsame]
      exact hp b' hb'
    · exact ⟨hintOf e, hdirection⟩
  · intro b hb
    cases hb

/-- A record shows the direction of its total. -/
theorem get?_record (time : Nanos) (f : Flow) (b : PacketTotal) :
    (record time f b).get? "direction_type" = some (.i32 b.direction.code) := by
  simp [record, Flow.record, Record.set, Record.maxAttributes, Record.get?]

end PacketCounts

/-! ### Both ways of a flow -/

/-- **A flow has two sides and never changes them.** Where a table tells the ends of a flow apart,
its direction is the same for every hint and the opposite of that of its reverse. So in every state
that a run by this table leaves, whatever hints its segments and reports carried, segments of the
flow wait only under the way whose source is the local side and samples are kept only under the
other one, neither ever under both; and if there are totals for both ways, the directions that
their records show differ. -/
theorem sides_of_flow (t : InterfaceTable) (f : Flow) (h : t.TellsSides f) :
    (∀ hint hint', t.direction f hint = t.direction f hint' ∧
      t.direction f hint = (t.direction f.reverse hint').opposite) ∧
    (∀ interval (calls : List (Call AckDelays)), (∀ e ∈ intake calls, e.1 = t) →
      let a := run (AckDelays.ofInterval interval) calls
      let queued (k : Flow) : Prop := a.queues.contains k = true
      let sampled (k : Flow) : Prop := a.window.aggregates.contains k = true
      (∀ k, k = f ∨ k = f.reverse →
        (queued k → t.SourceIsLocal k) ∧ (sampled k → t.SourceIsLocal k.reverse)) ∧
      ¬(queued f ∧ queued f.reverse) ∧ ¬(sampled f ∧ sampled f.reverse)) ∧
    ∀ interval (calls : List (Call PacketCounts)), (∀ e ∈ intake calls, e.1 = t) →
      let p := run (PacketCounts.ofInterval interval) calls
      ∀ b b', live f p = some b → live f.reverse p = some b' → ∀ time time',
        (PacketCounts.record time f b).get? "direction_type" ≠
          (PacketCounts.record time' f.reverse b').get? "direction_type" := by
  refine ⟨h.direction_eq, fun interval calls htable => ?_, fun interval calls htable => ?_⟩
  · intro a queued sampled
    have hsides : ∀ k, k = f ∨ k = f.reverse →
        (queued k → t.SourceIsLocal k) ∧ (sampled k → t.SourceIsLocal k.reverse) := by
      intro k hk
      have hk : t.TellsSides k := by
        rcases hk with rfl | rfl
        · exact h
        · exact h.reverse
      refine ⟨fun hqueued => ?_, fun hsampled => ?_⟩
      · obtain ⟨hint, hsent⟩ := AckDelays.sent_of_queues htable interval hqueued
        exact hk.sourceIsLocal_of_sent hsent
      · obtain ⟨hint, hreceived⟩ := AckDelays.received_of_live htable interval hsampled
        exact hk.destIsLocal_of_received hreceived
    refine ⟨hsides, fun ⟨hf, hreverse⟩ => ?_, fun ⟨hf, hreverse⟩ => ?_⟩
    · exact InterfaceTable.not_sourceIsLocal_reverse ((hsides f (.inl rfl)).1 hf)
        ((hsides f.reverse (.inr rfl)).1 hreverse)
    · exact InterfaceTable.not_sourceIsLocal_reverse ((hsides f.reverse (.inr rfl)).2 hreverse)
        ((hsides f (.inl rfl)).2 hf)
  · intro p b b' hb hb' time time'
    obtain ⟨hint, hdirection⟩ := PacketCounts.direction_of_live htable interval hb
    obtain ⟨hint', hdirection'⟩ := PacketCounts.direction_of_live htable interval hb'
    rw [PacketCounts.get?_record, PacketCounts.get?_record, hdirection, hdirection',
      (h.direction_eq hint hint').2, Ne, Option.some.injEq, Value.i32.injEq]
    exact Direction.code_opposite_ne _

/-- Two segments and an acknowledgment whose hints speak against the owner of their ends: what is
left of the two waits under the way out, the sample is under the way in, and both have totals. -/
theorem sides_of_flow_against_hints :
    let flow : Flow := ⟨⟨1⟩, ⟨2⟩, 1000, 80, 7⟩
    let table : InterfaceTable :=
      { kinds := Keyed.empty.insert 7 .container, owners := Keyed.empty.insert ⟨1⟩ 7 }
    let segment (f : Flow) (seq ack : UInt32) (hint : UInt8) : Segment :=
      { time := 10, flow := f, seq, ack, flags := TcpFlag.ack.bit, hint }
    let segments :=
      [segment flow 100 1 1, segment flow 200 1 2, segment flow.reverse 1 150 2]
    let a := run (AckDelays.ofInterval 5) (segments.map fun s => .ingest table s)
    let p := run (PacketCounts.ofInterval 5) (segments.map fun s => .ingest table (Sum.inl s))
    table.TellsSides flow ∧
      table.direction flow 1 = table.direction flow 2 ∧
      table.direction flow 1 = (table.direction flow.reverse 2).opposite ∧
      a.queues.contains flow = true ∧ table.SourceIsLocal flow ∧
      ¬a.queues.contains flow.reverse = true ∧
      a.window.aggregates.contains flow.reverse = true ∧
      ¬a.window.aggregates.contains flow = true ∧
      ∃ b b', live flow p = some b ∧ live flow.reverse p = some b' ∧
        (PacketCounts.record 10 flow b).get? "direction_type" ≠
          (PacketCounts.record 10 flow.reverse b').get? "direction_type" := by
  intro flow table segment segments a p
  have htells : table.TellsSides flow := .inl (by decide)
  obtain ⟨hdirection, hdelays, hcounts⟩ := sides_of_flow table flow htells
  have hdelaysTable : ∀ e ∈ intake (segments.map fun s => (.ingest table s : Call AckDelays)),
      e.1 = table := by
    intro e he
    fin_cases he <;> rfl
  have hcountsTable : ∀ e ∈ intake
      (segments.map fun s => (.ingest table (Sum.inl s) : Call PacketCounts)), e.1 = table := by
    intro e he
    fin_cases he <;> rfl
  obtain ⟨hsides, hqueues, hsamples⟩ := hdelays 5 _ hdelaysTable
  have hqueued : a.queues.contains flow = true := by decide
  have hsampled : a.window.aggregates.contains flow.reverse = true := by decide
  refine ⟨htells, (hdirection 1 2).1, (hdirection 1 2).2, hqueued,
    (hsides flow (.inl rfl)).1 hqueued, fun h => hqueues ⟨hqueued, h⟩, hsampled, fun h => hsamples ⟨h, hsampled⟩, ?_⟩
  exact ⟨⟨2, .sent⟩, ⟨1, .received⟩, by decide, by decide,
    hcounts 5 _ hcountsTable _ _ (by decide) (by decide) 10 10⟩

end FlowProbe
