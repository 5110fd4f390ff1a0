import FlowProbe.Proofs.Path.Order

/-! Replays in any order.

The maps of a monitor have no order that anyone may rely on, yet a poll walks them in one. A
`Walk` is a run in which any order of them may come up before every call. One call keeps monitors
the same but for their orders, as long as nothing is left for lack of room, and what it writes
differs inside the block of each analyzer alone (`Same.alike_turn`). So walks of the same calls stay
together (`Walk.alike`): the orders show in the order of the records, and only inside a block of
one call (`replay_of_any_order`). -/
namespace FlowProbe.Monitor

/-- The same monitor, but for the order of its maps. -/
structure Same (m n : Monitor) : Prop where
  table : m.table.Same n.table
  handshakes : m.handshakes.Same n.handshakes
  ackDelays : m.ackDelays.Same n.ackDelays
  packets : m.packets.Same n.packets
  paths : m.paths.Same n.paths
  events : m.events = n.events
  latest : m.latest = n.latest

theorem equivalence_same : Equivalence Same where
  refl _ := ⟨InterfaceTable.equivalence_same.refl _, Handshakes.equivalence_same.refl _,
    AckDelays.equivalence_same.refl _, PacketCounts.equivalence_same.refl _,
    PathTracker.equivalence_same.refl _, rfl, rfl⟩
  symm h := ⟨InterfaceTable.equivalence_same.symm h.table,
    Handshakes.equivalence_same.symm h.handshakes, AckDelays.equivalence_same.symm h.ackDelays,
    PacketCounts.equivalence_same.symm h.packets, PathTracker.equivalence_same.symm h.paths,
    h.events.symm, h.latest.symm⟩
  trans h h' := ⟨InterfaceTable.equivalence_same.trans h.table h'.table,
    Handshakes.equivalence_same.trans h.handshakes h'.handshakes,
    AckDelays.equivalence_same.trans h.ackDelays h'.ackDelays,
    PacketCounts.equivalence_same.trans h.packets h'.packets,
    PathTracker.equivalence_same.trans h.paths h'.paths, h.events.trans h'.events,
    h.latest.trans h'.latest⟩

/-! ### Calls -/

/-- A call on a monitor. One that writes says how much room its output has. -/
inductive Call where
  | ingest (s : Segment)
  | report (r : SocketReport)
  | focus (a b : Ipv4) (span : Span) (op : FocusOp)
  | poll (room : Nat)
  | flushAll (room : Nat)

/-- Whether an output has the room that a call says. -/
def Call.Fits (out : Buffer) : Call → Prop
  | .poll room => out.remaining = room
  | .flushAll room => out.remaining = room
  | .ingest _ | .report _ | .focus .. => True

def outcome (m : Monitor) (out : Buffer) : Call → Written Monitor
  | .ingest s => ⟨m.ingest s, out, 0⟩
  | .report r => ⟨m.ingestReport r, out, 0⟩
  | .focus a b span op => ⟨m.updateFocus a b span op, out, 0⟩
  | .poll _ => m.poll out
  | .flushAll _ => m.flushAll out

/-- How many records are left for lack of room on the way from `m` to `n`, as the analyzers count
them. -/
def refused (m n : Monitor) : Nat :=
  let left (before after : Counters) : Nat := after.truncated - before.truncated
  left m.handshakes.window.counters n.handshakes.window.counters +
    left m.ackDelays.window.counters n.ackDelays.window.counters +
    left m.packets.window.counters n.packets.window.counters +
    left m.paths.counters n.paths.counters

/-- What a call writes, and how many records it leaves for lack of room. -/
structure Turn where
  blocks : Blocks
  refused : Nat

def turn (m : Monitor) (out : Buffer) (call : Call) : Turn where
  blocks := match call with
    | .poll _ => m.blocks out Windowed.poll
    | .flushAll _ => m.blocks out Windowed.close
    | .ingest _ | .report _ | .focus .. => ⟨[], [], [], []⟩
  refused := m.refused (m.outcome out call).state

/-- The blocks are what a call appends to its output. -/
theorem news_outcome (m : Monitor) (out : Buffer) (call : Call) :
    (m.outcome out call).news out = (m.turn out call).blocks.all := by
  cases call with
  | ingest s => exact news_of_out rfl
  | report r => exact news_of_out rfl
  | focus a b span op => exact news_of_out rfl
  | poll room => exact news_of_records (m.writes_poll out).records
  | flushAll room => exact news_of_records (m.writes_flushAll out).records

/-- The same records in each block, in any order. -/
structure Blocks.Alike (b c : Blocks) : Prop where
  handshakes : b.handshakes.Perm c.handshakes
  ackDelays : b.ackDelays.Perm c.ackDelays
  packets : b.packets.Perm c.packets
  paths : b.paths.Perm c.paths

structure Turn.Alike (b c : Turn) : Prop where
  blocks : b.blocks.Alike c.blocks
  refused : b.refused = c.refused

/-! ### One call -/

section Call

variable {m n : Monitor} (h : m.Same n)
include h

theorem Same.ingest (s : Segment) : (m.ingest s).Same (n.ingest s) :=
  ⟨h.table, h.handshakes.ingest h.table s, h.ackDelays.ingest h.table s,
    h.packets.enter h.table _ _ _ _ _, h.paths.ingest h.table s, congrArg (· + 1) h.events, rfl⟩

theorem Same.ingestReport (r : SocketReport) : (m.ingestReport r).Same (n.ingestReport r) :=
  ⟨h.table, h.handshakes, h.ackDelays,
    h.packets.enter h.table r.time r.flow r.hint r.count.toNat (max · r.count.toNat), h.paths,
    congrArg (· + 1) h.events, rfl⟩

theorem Same.updateFocus (a b : Ipv4) (span : Span) (op : FocusOp) :
    (m.updateFocus a b span op).Same (n.updateFocus a b span op) :=
  ⟨h.table, h.handshakes, h.ackDelays, h.packets, h.paths.update a b span op, h.events, h.latest⟩

theorem Same.refused_eq {m' n' : Monitor} (h' : m'.Same n') : m.refused m' = n.refused n' := by
  rw [refused, refused, h.handshakes.window.counters, h.ackDelays.window.counters,
    h.packets.window.counters, h.paths.counters, h'.handshakes.window.counters,
    h'.ackDelays.window.counters, h'.packets.window.counters, h'.paths.counters]

/-- The analyzers write one after the other, each in a way that keeps orders to itself. -/
theorem Same.alike_write
    {write : {σ : Type} → [Windowed σ] → InterfaceTable → σ → Buffer → Written σ}
    (hwrite : Windowed.Orderless write)
    {out out' : Buffer} (hroom : out.remaining = out'.remaining)
    (hspared : m.refused (pollPaths (m.writeWindows out write)).state = 0) :
    (pollPaths (m.writeWindows out write)).state.Same (pollPaths (n.writeWindows out' write)).state ∧
      (m.blocks out write).Alike (n.blocks out' write) := by
  let hs := write m.table m.handshakes out
  let as := write m.table m.ackDelays hs.out
  let ps := write m.table m.packets as.out
  let hs' := write n.table n.handshakes out'
  let as' := write n.table n.ackDelays hs'.out
  let ps' := write n.table n.packets as'.out
  have hleft : m.refused (pollPaths (m.writeWindows out write)).state =
      (hs.state.window.counters.truncated - m.handshakes.window.counters.truncated) +
        (as.state.window.counters.truncated - m.ackDelays.window.counters.truncated) +
        (ps.state.window.counters.truncated - m.packets.window.counters.truncated) +
        ((m.paths.poll m.latest ps.out).state.counters.truncated -
          m.paths.counters.truncated) := rfl
  rw [hleft, Nat.add_eq_zero_iff, Nat.add_eq_zero_iff, Nat.add_eq_zero_iff] at hspared
  obtain ⟨⟨⟨hhandshakes, hackDelays⟩, hpackets⟩, hpaths⟩ := hspared
  have hh := hwrite m.handshakes n.handshakes h.table h.handshakes hroom
    (Nat.sub_eq_zero_iff_le.1 hhandshakes)
  have ha := hwrite m.ackDelays n.ackDelays h.table h.ackDelays hh.remaining
    (Nat.sub_eq_zero_iff_le.1 hackDelays)
  have hp := hwrite m.packets n.packets h.table h.packets ha.remaining
    (Nat.sub_eq_zero_iff_le.1 hpackets)
  have ht : Written.Alike PathTracker.Same ps.out ps'.out (m.paths.poll m.latest ps.out)
      (n.paths.poll n.latest ps'.out) := by
    rw [← h.latest]
    exact PathTracker.alike_poll h.paths hp.remaining (Nat.sub_eq_zero_iff_le.1 hpaths)
  exact ⟨⟨h.table, hh.state, ha.state, hp.state, ht.state, h.events, h.latest⟩,
    ⟨hh.news, ha.news, hp.news, ht.news⟩⟩

/-- One call keeps the same monitors the same, and shows their orders inside the blocks alone. -/
theorem Same.alike_turn {call : Call} {out out' : Buffer} (hout : call.Fits out)
    (hout' : call.Fits out') (hspared : (m.turn out call).refused = 0) :
    (m.outcome out call).state.Same (n.outcome out' call).state ∧
      (m.turn out call).Alike (n.turn out' call) := by
  suffices hboth : (m.outcome out call).state.Same (n.outcome out' call).state ∧
      (m.turn out call).blocks.Alike (n.turn out' call).blocks from
    ⟨hboth.1, hboth.2, h.refused_eq hboth.1⟩
  have hnone : Blocks.Alike ⟨[], [], [], []⟩ ⟨[], [], [], []⟩ := ⟨.nil, .nil, .nil, .nil⟩
  cases call with
  | ingest s => exact ⟨h.ingest s, hnone⟩
  | report r => exact ⟨h.ingestReport r, hnone⟩
  | focus a b span op => exact ⟨h.updateFocus a b span op, hnone⟩
  | poll room =>
    exact h.alike_write Windowed.orderless_poll (hout.trans hout'.symm) hspared
  | flushAll room =>
    exact h.alike_write Windowed.orderless_close (hout.trans hout'.symm) hspared

end Call

/-! ### Walks -/

/-- A run of calls in which any order of the maps may come up before a call. -/
inductive Walk : Monitor → List Call → List Turn → Monitor → Prop
  | done (m : Monitor) : Walk m [] [] m
  | turn {m n last : Monitor} {out : Buffer} {call : Call} {rest : List Call} {turns : List Turn}
      (order : m.Same n) (fits : call.Fits out)
      (next : Walk (n.outcome out call).state rest turns last) :
      Walk m (call :: rest) (n.turn out call :: turns) last

/-- Walks of the same calls from the same monitor stay together. -/
theorem Walk.alike {m n last last' : Monitor} {calls : List Call} {turns turns' : List Turn}
    (hm : Walk m calls turns last) (hn : Walk n calls turns' last') (h : m.Same n)
    (hspared : ∀ t ∈ turns, t.refused = 0) :
    last.Same last' ∧ List.Forall₂ Turn.Alike turns turns' := by
  induction hm generalizing n turns' with
  | done m =>
    cases hn
    exact ⟨h, .nil⟩
  | turn order fits _ ih =>
    cases hn with
    | turn order' fits' next =>
      have hsame := equivalence_same.trans (equivalence_same.symm order)
        (equivalence_same.trans h order')
      obtain ⟨hstate, halike⟩ := hsame.alike_turn fits fits' (hspared _ List.mem_cons_self)
      obtain ⟨hlast, hrest⟩ := ih next hstate fun t ht => hspared t (List.mem_cons_of_mem _ ht)
      exact ⟨hlast, .cons halike hrest⟩

/-- **A replay does not depend on the order of the maps.** On monitors whose maps hold the same
pairs every call that leaves nothing for lack of room ends in such monitors again, and what it
appends to its output is the same but for the order inside the block of each analyzer. So two
walks of the same calls, as from a new monitor, end in the same monitor, and each call writes the
same in both but for those orders. -/
theorem replay_of_any_order :
    (∀ (m : Monitor) (out : Buffer) (call : Call),
      (m.outcome out call).news out = (m.turn out call).blocks.all) ∧
    (∀ (m n : Monitor) (out out' : Buffer) (call : Call), m.Same n → call.Fits out →
      call.Fits out' → (m.turn out call).refused = 0 →
      (m.outcome out call).state.Same (n.outcome out' call).state ∧
        (m.turn out call).Alike (n.turn out' call)) ∧
    ∀ (m n last last' : Monitor) (calls : List Call) (turns turns' : List Turn), m.Same n →
      Walk m calls turns last → Walk n calls turns' last' → (∀ t ∈ turns, t.refused = 0) →
      last.Same last' ∧ List.Forall₂ Turn.Alike turns turns' := by
  refine ⟨news_outcome, fun m n out out' call h hout hout' hspared => ?_,
    fun m n last last' calls turns turns' h hm hn hspared => ?_⟩
  · exact h.alike_turn hout hout' hspared
  · exact hm.alike hn h hspared

/-- Two flows in either order: a flush writes their records in either order, and nothing else
tells the monitors apart. -/
theorem replay_of_any_order_two :
    let flow (port : UInt16) : Flow := ⟨⟨1⟩, ⟨2⟩, port, 80, 1⟩
    let holding (entries : Keyed Flow PacketTotal) : Monitor :=
      { make {} 5 10 with
        packets := { window := { clock := { interval := 5 }, aggregates := entries } } }
    let m := holding ⟨[(flow 1, ⟨3, .sent⟩), (flow 2, ⟨5, .sent⟩)], by decide⟩
    let n := holding ⟨[(flow 2, ⟨5, .sent⟩), (flow 1, ⟨3, .sent⟩)], by decide⟩
    let out : Buffer := { capacity := 2 }
    let call : Call := .flushAll 2
    (m.Same n ∧ call.Fits out ∧ (m.turn out call).refused = 0) ∧
      (m.turn out call).blocks.packets ≠ (n.turn out call).blocks.packets ∧
      (m.turn out call).Alike (n.turn out call) ∧
      ∃ last last', Walk m [call] [m.turn out call] last ∧ Walk n [call] [n.turn out call] last' ∧
        last.Same last' := by
  intro flow holding m n out call
  have hsame : m.Same n :=
    { equivalence_same.refl m with packets := ⟨⟨rfl, rfl, List.Perm.swap ..⟩⟩ }
  have hfits : call.Fits out := rfl
  have hspared : (m.turn out call).refused = 0 := by decide
  have hm : Walk m [call] [m.turn out call] _ := .turn (equivalence_same.refl m) hfits (.done _)
  have hn : Walk n [call] [n.turn out call] _ := .turn (equivalence_same.refl n) hfits (.done _)
  obtain ⟨-, halike⟩ := replay_of_any_order.2.1 m n out out call hsame hfits hfits hspared
  obtain ⟨hlast, -⟩ := replay_of_any_order.2.2 m n _ _ _ _ _ hsame hm hn fun t ht =>
    List.mem_singleton.1 ht ▸ hspared
  exact ⟨⟨hsame, hfits, hspared⟩, by decide, halike, _, _, hm, hn, hlast⟩

end FlowProbe.Monitor
