import FlowProbe.Proofs.Monitor.Blocks

/-! The windowed analyzers without the order of their maps.

What an analyzer does with an event it does to single keys of its maps, so analyzers whose maps
have the same pairs stay so (`Same.ingest` of each). A flush walks the aggregates. With room for
all of them it writes one record for each and leaves none, so the order shows in the order of the
records alone; with less room the order decides which aggregates wait. `Unordered` is what the
analyzers have in common here, and `alike_close` and `alike_poll` say it of a window that is closed
or polled and leaves nothing for lack of room. -/
namespace FlowProbe

/-! ### Tables -/

namespace InterfaceTable

/-- The same table, but for the order of its maps. -/
structure Same (t u : InterfaceTable) : Prop where
  kinds : t.kinds.Same u.kinds
  owners : t.owners.Same u.owners
  overlay : t.overlay = u.overlay

variable {t u : InterfaceTable}

theorem equivalence_same : Equivalence Same where
  refl _ := ⟨.refl _, .refl _, rfl⟩
  symm h := ⟨h.kinds.symm, h.owners.symm, h.overlay.symm⟩
  trans h h' := ⟨h.kinds.trans h'.kinds, h.owners.trans h'.owners, h.overlay.trans h'.overlay⟩

theorem Same.isContainer (h : t.Same u) (index : UInt32) :
    t.isContainer index = u.isContainer index := by
  rw [InterfaceTable.isContainer, kind?, h.kinds.find? index]
  rfl

theorem Same.owns (h : t.Same u) (ip : Ipv4) : t.owns ip = u.owns ip := by
  rw [InterfaceTable.owns, owner?, h.owners.find? ip]
  rfl

theorem Same.inOverlay (h : t.Same u) (ip : Ipv4) : t.inOverlay ip = u.inOverlay ip := by
  rw [InterfaceTable.inOverlay, h.overlay]
  rfl

theorem Same.direction (h : t.Same u) (f : Flow) (hint : UInt8) :
    t.direction f hint = u.direction f hint := by
  rw [InterfaceTable.direction, h.owns, h.owns, h.inOverlay, h.inOverlay]
  rfl

end InterfaceTable

/-! ### Windows -/

namespace Window

variable {β : Type}

/-- The same window, but for the order of its aggregates. -/
structure Same (w x : Window β) : Prop where
  clock : w.clock = x.clock
  counters : w.counters = x.counters
  aggregates : w.aggregates.Same x.aggregates

theorem equivalence_same : Equivalence (Same (β := β)) where
  refl _ := ⟨rfl, rfl, .refl _⟩
  symm h := ⟨h.clock.symm, h.counters.symm, h.aggregates.symm⟩
  trans h h' :=
    ⟨h.clock.trans h'.clock, h.counters.trans h'.counters, h.aggregates.trans h'.aggregates⟩

section Same

variable {w x : Window β} (h : w.Same x)
include h

theorem Same.observe (t : Nanos) : (w.observe t).Same (x.observe t) :=
  ⟨congrArg (·.observe t) h.clock, h.counters, h.aggregates⟩

theorem Same.restart : w.restart.Same x.restart :=
  ⟨congrArg WindowClock.restart h.clock, h.counters, h.aggregates⟩

theorem Same.ingest : w.ingest.Same x.ingest :=
  ⟨h.clock, congrArg Counters.ingest h.counters, h.aggregates⟩

theorem Same.miss (n : Nat) : (w.miss n).Same (x.miss n) :=
  ⟨h.clock, congrArg (·.miss n) h.counters, h.aggregates⟩

theorem Same.gather (f : Flow) (first : β) (next : β → β) :
    (w.gather f first next).Same (x.gather f first next) :=
  ⟨h.clock, h.counters, h.aggregates.alter f _⟩

theorem Same.pending : w.pending = x.pending := h.aggregates.size

theorem Same.perm_backlog (record : Nanos → Flow → β → Record) :
    (w.backlog record).Perm (x.backlog record) := by
  rw [backlog, backlog, h.clock]
  exact List.Perm.map _ h.aggregates

end Same

/-- A flush with room for all aggregates leaves none. -/
theorem flush_of_room (record : Nanos → Flow → β → Record) {w : Window β} {out : Buffer}
    (h : w.pending ≤ out.remaining) :
    (w.flush record out).state =
      { w with aggregates := .empty, counters := w.counters.flush w.pending 0 } := by
  have hcount : (out.accept (w.aggregates.entries.map fun p => record w.clock.latest p.1 p.2)).2 =
      w.pending := by
    rw [Buffer.count_accept, List.length_map]
    exact Nat.min_eq_right h
  have hrest : w.aggregates.drop w.pending = .empty := Keyed.ext List.drop_length
  rw [flush, hcount, hrest]
  rfl

theorem Same.flush {w x : Window β} (h : w.Same x) (record record' : Nanos → Flow → β → Record)
    {out out' : Buffer} (hroom : w.pending ≤ out.remaining) (hroom' : x.pending ≤ out'.remaining) :
    (w.flush record out).state.Same (x.flush record' out').state := by
  rw [flush_of_room record hroom, flush_of_room record' hroom']
  refine ⟨h.clock, ?_, .refl _⟩
  rw [h.counters, h.pending]

end Window

/-! ### Outcomes -/

/-- Two outcomes that differ in nothing but orders: those of maps, and that of what was
written. -/
structure Written.Alike {σ : Type} (Same : σ → σ → Prop) (out out' : Buffer) (w w' : Written σ) :
    Prop where
  state : Same w.state w'.state
  news : (w.news out).Perm (w'.news out')
  remaining : w.out.remaining = w'.out.remaining

/-- An analyzer that does not depend on the order of its maps, as far as there is room. -/
class Unordered (σ : Type) [Windowed σ] [Analyzing σ] where
  Same : σ → σ → Prop
  clock_same {s s' : σ} : Same s s' → Windowed.clock s = Windowed.clock s'
  window_same {s s' : σ} : Same s s' → (Aggregating.window s).Same (Aggregating.window s')
  record_same {t u : InterfaceTable} : t.Same u →
    Aggregating.record (σ := σ) t = Aggregating.record (σ := σ) u
  restart_same {s s' : σ} : Same s s' → Same (Windowed.restart s) (Windowed.restart s')
  flush_same {t u : InterfaceTable} {s s' : σ} {out out' : Buffer} : Same s s' →
    Windowed.pending s ≤ out.remaining → Windowed.pending s' ≤ out'.remaining →
      Same (Windowed.flush t s out).state (Windowed.flush u s' out').state

namespace Windowed
open Aggregating Analyzing LawfulWindowed Unordered

variable {σ : Type} [Windowed σ] [Analyzing σ]

theorem truncated_close (t : InterfaceTable) (s : σ) (out : Buffer) :
    (counters (close t s out).state).truncated =
      (counters s).truncated + (pending s - out.remaining) := by
  rw [close, Written.map, counters_restart, truncated_flush_eq]

theorem news_close {t : InterfaceTable} {s : σ} {out : Buffer}
    (hroom : pending s ≤ out.remaining) :
    (close t s out).news out = backlog t s := by
  refine (news_of_records (records_close t s out)).trans (List.take_of_length_le ?_)
  rw [length_backlog]
  exact hroom

variable [Unordered σ] {t u : InterfaceTable} {s s' : σ} {out out' : Buffer}

theorem pending_same (h : Same s s') : pending s = pending s' := by
  rw [pending_eq, pending_eq, (window_same h).pending]

theorem perm_backlog (ht : t.Same u) (h : Same s s') : (backlog t s).Perm (backlog u s') := by
  rw [backlog, backlog, record_same ht]
  exact (window_same h).perm_backlog _

variable [LawfulWindowed σ]

/-- Windows that are closed and leave nothing for lack of room. -/
theorem alike_close (ht : t.Same u) (h : Same s s') (hroom : out.remaining = out'.remaining)
    (hspared : (counters (close t s out).state).truncated ≤ (counters s).truncated) :
    Written.Alike Same out out' (close t s out) (close u s' out') := by
  have hpending := pending_same h
  have hfits : pending s ≤ out.remaining := by
    rw [truncated_close] at hspared
    omega
  have hfits' : pending s' ≤ out'.remaining := hpending ▸ hroom ▸ hfits
  refine ⟨restart_same (flush_same h hfits hfits'), ?_, ?_⟩
  · rw [news_close hfits, news_close hfits']
    exact perm_backlog ht h
  · rw [remaining_close, remaining_close, hpending, hroom]

theorem alike_poll (ht : t.Same u) (h : Same s s') (hroom : out.remaining = out'.remaining)
    (hspared : (counters (poll t s out).state).truncated ≤ (counters s).truncated) :
    Written.Alike Same out out' (poll t s out) (poll u s' out') := by
  rw [poll] at hspared ⊢
  rw [poll, ← clock_same h]
  split at hspared
  · next hdue =>
    rw [if_pos hdue, if_pos hdue]
    exact alike_close ht h hroom hspared
  · next hdue =>
    rw [if_neg hdue, if_neg hdue]
    refine ⟨h, ?_, hroom⟩
    rw [news_of_out rfl, news_of_out rfl]

/-- A way of writing that keeps orders to itself: as long as nothing is left for lack of room they
show in the order of the records alone. -/
def Orderless
    (write : {σ : Type} → [Windowed σ] → InterfaceTable → σ → Buffer → Written σ) : Prop :=
  ∀ {σ : Type} [Windowed σ] [Analyzing σ] [LawfulWindowed σ] [Unordered σ]
    {t u : InterfaceTable} (s s' : σ) {out out' : Buffer}, t.Same u → Same s s' →
    out.remaining = out'.remaining →
    (counters (write t s out).state).truncated ≤ (counters s).truncated →
    Written.Alike (Same (σ := σ)) out out' (write t s out) (write u s' out')

theorem orderless_poll : Orderless poll := fun _ _ => alike_poll

theorem orderless_close : Orderless close := fun _ _ => alike_close

end Windowed

/-! ### The three analyzers -/

namespace Handshakes

structure Same (h g : Handshakes) : Prop where
  window : h.window.Same g.window
  openings : h.openings.Same g.openings

theorem equivalence_same : Equivalence Same where
  refl _ := ⟨Window.equivalence_same.refl _, .refl _⟩
  symm h := ⟨Window.equivalence_same.symm h.window, h.openings.symm⟩
  trans h h' := ⟨Window.equivalence_same.trans h.window h'.window, h.openings.trans h'.openings⟩

section Same

variable {h g : Handshakes} (hs : h.Same g)
include hs

theorem Same.onSyn (s : Segment) : (h.onSyn s).Same (g.onSyn s) :=
  ⟨hs.window, hs.openings.alter s.flow _⟩

theorem Same.onSynAck (s : Segment) : (h.onSynAck s).Same (g.onSynAck s) := by
  rw [Handshakes.onSynAck, Handshakes.onSynAck, hs.openings.find?]
  cases g.openings.find? s.flow.reverse with
  | none => exact ⟨hs.window.miss 1, hs.openings⟩
  | some o => exact ⟨hs.window, hs.openings.insert s.flow.reverse _⟩

theorem Same.onAck (s : Segment) : (h.onAck s).Same (g.onAck s) := by
  rw [Handshakes.onAck, Handshakes.onAck, hs.openings.find?]
  cases g.openings.find? s.flow with
  | none => exact hs
  | some o =>
    obtain ⟨synTime, stamp⟩ := o
    cases stamp with
    | none => exact hs
    | some stamp => exact ⟨hs.window.gather s.flow _ _, hs.openings.erase s.flow⟩

theorem Same.ingest {t u : InterfaceTable} (ht : t.Same u) (s : Segment) :
    (h.ingest t s).Same (g.ingest u s) := by
  rw [Handshakes.ingest, Handshakes.ingest, ht.isContainer]
  cases u.isContainer s.flow.iface with
  | false => exact hs
  | true =>
    have hobserved := hs.window.observe s.time
    have hadmitted : Same { h with window := (h.window.observe s.time).ingest }
        { g with window := (g.window.observe s.time).ingest } := ⟨hobserved.ingest, hs.openings⟩
    cases s.has .syn <;> cases s.has .ack
    · exact ⟨hobserved, hs.openings⟩
    · exact hadmitted.onAck s
    · exact hadmitted.onSyn s
    · exact hadmitted.onSynAck s

theorem Same.evict : h.evict.Same g.evict := by
  have hkept := hs.openings.filter fun _ o => isFresh g.window.clock o
  rw [Handshakes.evict, Handshakes.evict, hs.window.clock, hs.openings.size, hkept.size]
  exact ⟨hs.window.miss _, hkept⟩

end Same

theorem record_same {t u : InterfaceTable} (ht : t.Same u) : record t = record u := by
  funext time f r
  rw [record, ht.direction]
  rfl

instance : Unordered Handshakes where
  Same := Same
  clock_same hs := hs.window.clock
  window_same hs := hs.window
  record_same := record_same
  restart_same hs := ⟨hs.window.restart, hs.openings⟩
  flush_same hs hroom hroom' := Same.evict ⟨hs.window.flush _ _ hroom hroom', hs.openings⟩

end Handshakes

namespace AckDelays

structure Same (a b : AckDelays) : Prop where
  window : a.window.Same b.window
  queues : a.queues.Same b.queues

theorem equivalence_same : Equivalence Same where
  refl _ := ⟨Window.equivalence_same.refl _, .refl _⟩
  symm h := ⟨Window.equivalence_same.symm h.window, h.queues.symm⟩
  trans h h' := ⟨Window.equivalence_same.trans h.window h'.window, h.queues.trans h'.queues⟩

section Same

variable {a b : AckDelays} (h : a.Same b)
include h

theorem Same.enqueue (s : Segment) : (a.enqueue s).Same (b.enqueue s) :=
  ⟨h.window, h.queues.alter s.flow _⟩

theorem Same.onAck (s : Segment) : (a.onAck s).Same (b.onAck s) := by
  rw [AckDelays.onAck, AckDelays.onAck, h.queues.find?]
  cases (((b.queues.find? s.flow.reverse).getD []).takeWhile (covers s)).getLast? with
  | none => exact ⟨h.window.miss 1, h.queues⟩
  | some last => exact ⟨h.window.gather s.flow _ _, h.queues.alter s.flow.reverse _⟩

theorem Same.ingest {t u : InterfaceTable} (ht : t.Same u) (s : Segment) :
    (a.ingest t s).Same (b.ingest u s) := by
  rw [AckDelays.ingest, AckDelays.ingest, ht.isContainer, ht.direction]
  split
  · have hadmitted : Same { a with window := (a.window.observe s.time).ingest }
        { b with window := (b.window.observe s.time).ingest } :=
      ⟨(h.window.observe s.time).ingest, h.queues⟩
    cases u.direction s.flow s.hint with
    | received => exact hadmitted.onAck s
    | sent => exact hadmitted.enqueue s
  · exact h

end Same

instance : Unordered AckDelays where
  Same := Same
  clock_same h := h.window.clock
  window_same h := h.window
  record_same _ := rfl
  restart_same h := ⟨h.window.restart, h.queues⟩
  flush_same h hroom hroom' := ⟨h.window.flush _ _ hroom hroom', .refl _⟩

end AckDelays

namespace PacketCounts

structure Same (p q : PacketCounts) : Prop where
  window : p.window.Same q.window

theorem equivalence_same : Equivalence Same where
  refl _ := ⟨Window.equivalence_same.refl _⟩
  symm h := ⟨Window.equivalence_same.symm h.window⟩
  trans h h' := ⟨Window.equivalence_same.trans h.window h'.window⟩

theorem Same.enter {t u : InterfaceTable} (ht : t.Same u) {p q : PacketCounts} (h : p.Same q)
    (time : Nanos) (f : Flow) (hint : UInt8) (first : Nat) (next : Nat → Nat) :
    (p.enter t time f hint first next).Same (q.enter u time f hint first next) := by
  rw [PacketCounts.enter, PacketCounts.enter, ht.isContainer, ht.direction]
  split
  · exact ⟨(h.window.observe time).ingest.gather f _ _⟩
  · exact h

instance : Unordered PacketCounts where
  Same := Same
  clock_same h := h.window.clock
  window_same h := h.window
  record_same _ := rfl
  restart_same h := ⟨h.window.restart⟩
  flush_same h hroom hroom' := ⟨h.window.flush _ _ hroom hroom'⟩

end PacketCounts

end FlowProbe
