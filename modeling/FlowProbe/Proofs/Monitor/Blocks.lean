import FlowProbe.Proofs.Path.Wanted
import FlowProbe.Proofs.Window.Run

/-! What each analyzer of a monitor writes.

The analyzers write to one output one after the other, so what a poll appends to it falls into
blocks, one for each analyzer and in a fixed order. A block holds the records of its analyzer
alone, and the analyzer counts it: `Writes` says this of a poll and of a full flush, whatever the
output holds and has room for (`writes_poll`, `writes_flushAll`). -/
namespace FlowProbe

/-- What an outcome has behind the records of the output that it was given. -/
def Written.news {σ : Type} (w : Written σ) (out : Buffer) : List Record :=
  w.out.records.drop out.size

/-- The records that were there stay in front, and those behind them are counted and had
room. -/
structure Appends {σ : Type} (out : Buffer) (w : Written σ) : Prop where
  records : w.out.records = out.records ++ w.news out
  count : w.count = (w.news out).length
  room : w.count + w.out.remaining = out.remaining

section Appends

variable {σ : Type} {out : Buffer} {w : Written σ} {rs : List Record}

theorem news_of_records (h : w.out.records = out.records ++ rs) : w.news out = rs := by
  rw [Written.news, h]
  exact List.drop_left

theorem news_of_out (h : w.out = out) : w.news out = [] := by
  rw [Written.news, h]
  exact List.drop_length

theorem appends_of_records (hrecords : w.out.records = out.records ++ rs)
    (hcount : w.count = rs.length) (hroom : w.count + w.out.remaining = out.remaining) :
    Appends out w := by
  refine ⟨?_, ?_, hroom⟩
  · rw [news_of_records hrecords, hrecords]
  · rw [news_of_records hrecords, hcount]

/-- What is appended to an output does not change its capacity. -/
theorem Appends.capacity (h : Appends out w) : w.out.capacity = out.capacity := by
  have hsize : w.out.size = out.size + w.count := by
    rw [Buffer.size, h.records, List.length_append, h.count]
    rfl
  have hroom := h.room
  rw [w.out.capacity_eq, out.capacity_eq]
  omega

end Appends

/-! ### One analyzer -/

/-- An analyzer's part of an output: records of its name, as many as it adds to its count. -/
structure Publishes {σ : Type} (name : String) (before after : Counters) (out : Buffer)
    (w : Written σ) : Prop where
  appends : Appends out w
  named : ∀ r ∈ w.news out, r.name = name
  emitted : after.emitted = before.emitted + (w.news out).length

namespace Windowed
open Aggregating Analyzing LawfulWindowed

variable {σ : Type} [Windowed σ] [Analyzing σ] (t : InterfaceTable) (s : σ) (out : Buffer)

theorem counters_restart : counters (restart s) = counters s := by
  rw [counters_eq, window_restart, counters_eq]
  rfl

variable [LawfulWindowed σ]

theorem emitted_close :
    (counters (close t s out).state).emitted = (counters s).emitted + (close t s out).count := by
  rw [count_close, close, Written.map, counters_restart, emitted_flush_eq]

theorem publishes_close :
    Publishes (name σ) (counters s) (counters (close t s out).state) out (close t s out) := by
  have hrecords := records_close t s out
  have hcount : (close t s out).count = ((backlog t s).take out.remaining).length := by
    rw [count_close, List.length_take, length_backlog]
  have hnews := news_of_records hrecords
  refine ⟨appends_of_records hrecords hcount ?_, fun r hr => ?_, ?_⟩
  · rw [count_close, remaining_close]
    omega
  · rw [hnews] at hr
    exact name_backlog t s r (List.mem_of_mem_take hr)
  · rw [emitted_close, hcount, hnews]

theorem publishes_poll :
    Publishes (name σ) (counters s) (counters (poll t s out).state) out (poll t s out) := by
  rw [poll]
  split
  · exact publishes_close t s out
  · have hnews := news_of_out (show (⟨s, out, 0⟩ : Written σ).out = out from rfl)
    refine ⟨appends_of_records (List.append_nil _).symm rfl (Nat.zero_add _), fun r hr => ?_, ?_⟩
    · rw [hnews] at hr
      exact absurd hr List.not_mem_nil
    · rw [hnews]
      rfl

end Windowed

theorem PathTracker.publishes_poll (t : PathTracker) (now : Nanos) (out : Buffer) :
    Publishes Sighting.recordName t.counters (t.poll now out).state.counters out
      (t.poll now out) := by
  obtain ⟨delivered, h⟩ := t.exists_delivers now out
  have hrecords : (t.poll now out).out.records =
      out.records ++ delivered.map fun e => e.2.record now := h.records
  have hcount : (t.poll now out).count = (delivered.map fun e => e.2.record now).length := by
    rw [List.length_map]
    exact h.count
  have hnews := news_of_records hrecords
  refine ⟨appends_of_records hrecords hcount ?_, fun r hr => ?_, ?_⟩
  · exact PathIndex.remaining_deliver now (t.index.visits t.focus) t.index.bySeq out
  · rw [hnews] at hr
    obtain ⟨e, -, rfl⟩ := List.mem_map.1 hr
    rfl
  · rw [hnews, ← hcount]
    rfl

/-! ### All of them -/

namespace Monitor

/-- What the analyzers write one after the other. -/
structure Blocks where
  handshakes : List Record
  ackDelays : List Record
  packets : List Record
  paths : List Record

def Blocks.all (b : Blocks) : List Record := b.handshakes ++ b.ackDelays ++ b.packets ++ b.paths

/-- The blocks that are written when the windowed analyzers write their own way. -/
def blocks (m : Monitor) (out : Buffer)
    (write : {σ : Type} → [Windowed σ] → InterfaceTable → σ → Buffer → Written σ) : Blocks :=
  let h := write m.table m.handshakes out
  let a := write m.table m.ackDelays h.out
  let p := write m.table m.packets a.out
  let t := m.paths.poll m.latest p.out
  ⟨h.news out, a.news h.out, p.news a.out, t.news p.out⟩

/-- The blocks `b` stand behind what the output held, they are counted and had room; each has
the records of its analyzer, which counts them as emitted. -/
structure Writes (m : Monitor) (out : Buffer) (b : Blocks) (w : Written Monitor) : Prop where
  records : w.out.records = out.records ++ b.all
  count : w.count = b.all.length
  room : w.count + w.out.remaining = out.remaining
  nameHandshakes : ∀ r ∈ b.handshakes, r.name = Handshakes.recordName
  nameAckDelays : ∀ r ∈ b.ackDelays, r.name = AckDelays.recordName
  namePackets : ∀ r ∈ b.packets, r.name = PacketCounts.recordName
  namePaths : ∀ r ∈ b.paths, r.name = Sighting.recordName
  handshakes : w.state.handshakes.window.counters.emitted =
    m.handshakes.window.counters.emitted + b.handshakes.length
  ackDelays : w.state.ackDelays.window.counters.emitted =
    m.ackDelays.window.counters.emitted + b.ackDelays.length
  packets : w.state.packets.window.counters.emitted =
    m.packets.window.counters.emitted + b.packets.length
  paths : w.state.paths.counters.emitted = m.paths.counters.emitted + b.paths.length

theorem Writes.appends {m : Monitor} {out : Buffer} {b : Blocks} {w : Written Monitor}
    (h : m.Writes out b w) : Appends out w :=
  appends_of_records h.records h.count h.room

theorem writes_of_publishes (m : Monitor) (out : Buffer)
    {write : {σ : Type} → [Windowed σ] → InterfaceTable → σ → Buffer → Written σ}
    (h : ∀ {σ : Type} [Windowed σ] [Analyzing σ] [LawfulWindowed σ] (t : InterfaceTable) (s : σ)
      (out : Buffer), Publishes (Aggregating.name σ) (Windowed.counters s)
        (Windowed.counters (write t s out).state) out (write t s out)) :
    m.Writes out (m.blocks out write) (pollPaths (m.writeWindows out write)) := by
  let hs := write m.table m.handshakes out
  let as := write m.table m.ackDelays hs.out
  let ps := write m.table m.packets as.out
  have hhandshakes := h m.table m.handshakes out
  have hackDelays := h m.table m.ackDelays hs.out
  have hpackets := h m.table m.packets as.out
  have hpaths := m.paths.publishes_poll m.latest ps.out
  have hcount : (pollPaths (m.writeWindows out write)).count =
      hs.count + as.count + ps.count + (m.paths.poll m.latest ps.out).count := rfl
  refine ⟨?_, ?_, ?_, hhandshakes.named, hackDelays.named, hpackets.named, hpaths.named,
    hhandshakes.emitted, hackDelays.emitted, hpackets.emitted, hpaths.emitted⟩
  · show (m.paths.poll m.latest ps.out).out.records = _
    rw [hpaths.appends.records, hpackets.appends.records, hackDelays.appends.records,
      hhandshakes.appends.records]
    simp only [Blocks.all, blocks, List.append_assoc]
    rfl
  · rw [hcount, hhandshakes.appends.count, hackDelays.appends.count, hpackets.appends.count,
      hpaths.appends.count]
    simp only [Blocks.all, List.length_append]
    rfl
  · have hrest : ps.count + (m.paths.poll m.latest ps.out).count +
        (m.paths.poll m.latest ps.out).out.remaining = as.out.remaining := by
      rw [Nat.add_assoc, hpaths.appends.room, hpackets.appends.room]
    have hfront : hs.count + as.count + as.out.remaining = out.remaining := by
      rw [Nat.add_assoc, hackDelays.appends.room, hhandshakes.appends.room]
    rw [hcount, ← hfront, ← hrest]
    simp only [Nat.add_assoc]
    rfl

theorem writes_poll (m : Monitor) (out : Buffer) :
    m.Writes out (m.blocks out Windowed.poll) (m.poll out) :=
  m.writes_of_publishes out fun t s out => Windowed.publishes_poll t s out

theorem writes_flushAll (m : Monitor) (out : Buffer) :
    m.Writes out (m.blocks out Windowed.close) (m.flushAll out) :=
  m.writes_of_publishes out fun t s out => Windowed.publishes_close t s out

end Monitor

end FlowProbe
