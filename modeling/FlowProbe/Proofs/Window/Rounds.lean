import FlowProbe.Proofs.Window.Run

/-! Flushing in rounds.

A round is a flush that walks the aggregates in some order and writes to some output. It takes a
part of the entries out, writes one record for each and books what it wrote and what it left;
`perm_round` says that the records written and the backlog that stays are the backlog before. So
however the outputs of the rounds are cut, their records and what is left at the end are the
backlog of the start (`perm_rounds`), and rounds with enough room for it write what one flush
would have written. `DrainsInRounds` puts this together for an analyzer, and `drains_in_rounds`
says it of the three. -/
namespace FlowProbe.Windowed
open Aggregating Analyzing LawfulWindowed

variable {σ : Type} [Windowed σ] [Analyzing σ]

/-- A flush: the order in which it walks the aggregates, and its output. -/
structure Round (σ : Type) [Windowed σ] [Analyzing σ] where
  order : Keyed Flow (Aggregate σ)
  out : Buffer

def entries (s : σ) : List (Flow × Aggregate σ) := (window s).aggregates.entries

/-- The record that a flush writes for an entry. -/
def recordOf (t : InterfaceTable) (s : σ) (e : Flow × Aggregate σ) : Record :=
  record t (window s).clock.latest e.1 e.2

def round (t : InterfaceTable) (s : σ) (r : Round σ) : Written σ :=
  flush t (reorder s r.order) r.out

/-- What a round appends to its output. -/
def written (t : InterfaceTable) (s : σ) (r : Round σ) : List Record :=
  (round t s r).out.records.drop r.out.size

/-- The analyzer behind a list of rounds, and what they wrote. -/
def rounds (t : InterfaceTable) (s : σ) : List (Round σ) → σ × List Record
  | [] => (s, [])
  | r :: rest =>
    let (last, records) := rounds t (round t s r).state rest
    (last, written t s r ++ records)

/-- The room that the outputs of a list of rounds have. -/
def room : List (Round σ) → Nat
  | [] => 0
  | r :: rest => r.out.remaining + room rest

/-! ### One round -/

section One

variable (t : InterfaceTable) (s : σ) (r : Round σ)

theorem backlog_eq : backlog t s = (entries s).map (recordOf t s) := rfl

theorem backlog_of_pending {s : σ} (h : pending s = 0) : backlog t s = [] := by
  rw [← List.length_eq_zero_iff, length_backlog, h]

@[simp] theorem pending_reorder (order : Keyed Flow (Aggregate σ)) :
    pending (reorder s order) = pending s := by
  rw [pending_eq, window_reorder, Window.pending_reorder, pending_eq]

theorem perm_entries_reorder (order : Keyed Flow (Aggregate σ)) :
    (entries (reorder s order)).Perm (entries s) := by
  rw [entries, window_reorder]
  exact (window s).perm_reorder order

theorem recordOf_reorder (order : Keyed Flow (Aggregate σ)) :
    recordOf t (reorder s order) = recordOf t s := by
  funext e
  rw [recordOf, window_reorder, Window.clock_reorder, recordOf]

theorem recordOf_round : recordOf t (round t s r).state = recordOf t s := by
  rw [← recordOf_reorder t s r.order]
  funext e
  rw [recordOf, round, latest_flush, recordOf]

theorem written_eq : written t s r = (backlog t (reorder s r.order)).take r.out.remaining := by
  rw [written, round, records_flush]
  exact List.drop_left

/-- A round takes entries out and writes the record of each. -/
theorem exists_taken :
    ∃ taken, (taken ++ entries (round t s r).state).Perm (entries s) ∧
      written t s r = taken.map (recordOf t s) := by
  refine ⟨(entries (reorder s r.order)).take r.out.remaining, ?_, ?_⟩
  · have hleft : entries (round t s r).state =
        (entries (reorder s r.order)).drop r.out.remaining := entries_flush t _ r.out
    rw [hleft, List.take_append_drop]
    exact perm_entries_reorder s r.order
  · rw [written_eq, backlog_eq, List.map_take, recordOf_reorder]

theorem perm_round : (written t s r ++ backlog t (round t s r).state).Perm (backlog t s) := by
  obtain ⟨taken, hperm, hwritten⟩ := exists_taken t s r
  rw [hwritten, backlog_eq, backlog_eq, recordOf_round, ← List.map_append]
  exact hperm.map _

theorem records_round : (round t s r).out.records = r.out.records ++ written t s r := by
  rw [written_eq, round, records_flush]

variable [LawfulWindowed σ]

theorem count_round : (round t s r).count = min r.out.remaining (pending s) := by
  rw [round, count_flush, pending_reorder]

theorem pending_round : pending (round t s r).state = pending s - r.out.remaining := by
  rw [round, LawfulWindowed.pending_flush, pending_reorder]

theorem length_written : (written t s r).length = (round t s r).count := by
  rw [written_eq, List.length_take, length_backlog, pending_reorder, count_round]

theorem emitted_round :
    (counters (round t s r).state).emitted = (counters s).emitted + (round t s r).count := by
  rw [count_round, round, emitted_flush_eq, counters_reorder, pending_reorder]

theorem truncated_round :
    (counters (round t s r).state).truncated =
      (counters s).truncated + pending (round t s r).state := by
  rw [pending_round, round, truncated_flush_eq, counters_reorder, pending_reorder]

/-- A round with room for all writes the backlog. -/
theorem perm_written_of_room (h : pending s ≤ r.out.remaining) :
    (written t s r).Perm (backlog t s) := by
  have hnil : backlog t (round t s r).state = [] := by
    refine backlog_of_pending t ?_
    rw [pending_round, Nat.sub_eq_zero_of_le h]
  have hperm := perm_round t s r
  rwa [hnil, List.append_nil] at hperm

/-- With nothing pending a round is nothing to its output. -/
theorem round_of_pending (h : pending s = 0) :
    (round t s r).out = r.out ∧ pending (round t s r).state = 0 := by
  have hentries : (window (reorder s r.order)).aggregates.entries = [] :=
    entries_of_pending ((pending_reorder s r.order).trans h)
  constructor
  · rw [round, out_flush, Window.flush, hentries]
    rfl
  · rw [pending_round, h, Nat.zero_sub]

end One

/-! ### Rounds -/

section Rounds

variable (t : InterfaceTable) (s : σ)

/-- What the rounds wrote and what they left are what waited before them. -/
theorem perm_rounds (rs : List (Round σ)) :
    ((rounds t s rs).2 ++ backlog t (rounds t s rs).1).Perm (backlog t s) := by
  induction rs generalizing s with
  | nil => rfl
  | cons r rest ih =>
    rw [rounds, List.append_assoc]
    exact ((ih (round t s r).state).append_left _).trans (perm_round t s r)

theorem pending_rounds [LawfulWindowed σ] (rs : List (Round σ)) :
    pending (rounds t s rs).1 = pending s - room rs := by
  induction rs generalizing s with
  | nil => rfl
  | cons r rest ih =>
    rw [rounds, ih, pending_round, room, Nat.sub_sub]

/-- Rounds that leave nothing have written the backlog. -/
theorem perm_rounds_of_pending {rs : List (Round σ)} (h : pending (rounds t s rs).1 = 0) :
    (rounds t s rs).2.Perm (backlog t s) := by
  have hperm := perm_rounds t s rs
  rwa [backlog_of_pending t h, List.append_nil] at hperm

end Rounds

/-- What rounds of flushes do, from any state and with any outputs and orders. -/
structure DrainsInRounds (σ : Type) [Windowed σ] [Analyzing σ] (t : InterfaceTable) : Prop where
  /-- A round writes as many records as there is room for, behind those that are there. -/
  writes (s : σ) (r : Round σ) :
    (round t s r).count = min r.out.remaining (pending s) ∧
      (written t s r).length = (round t s r).count ∧
      (round t s r).out.records = r.out.records ++ written t s r
  /-- It books what it wrote and what it left. -/
  books (s : σ) (r : Round σ) :
    (counters (round t s r).state).emitted = (counters s).emitted + (round t s r).count ∧
      (counters (round t s r).state).truncated =
        (counters s).truncated + pending (round t s r).state
  /-- What it wrote are the records of some entries, and the others stay as they are. -/
  parts (s : σ) (r : Round σ) :
    ∃ taken, (taken ++ entries (round t s r).state).Perm (entries s) ∧
      written t s r = taken.map (recordOf t s)
  /-- Rounds use up all the room that there is. -/
  left (s : σ) (rs : List (Round σ)) :
    pending (rounds t s rs).1 = pending s - room rs
  /-- Rounds that leave nothing have written one record for each flow, as one round with room
  for all of them does. -/
  whole (s : σ) (rs : List (Round σ)) (big : Round σ) (hdrained : pending (rounds t s rs).1 = 0)
    (hbig : pending s ≤ big.out.remaining) :
    (rounds t s rs).2.Perm (written t s big) ∧
      (rounds t s rs).2.Perm ((entries s).map (recordOf t s)) ∧
      ((entries s).map Prod.fst).Nodup
  /-- A round behind them is nothing to its output. -/
  idle (s : σ) (r : Round σ) (hdrained : pending s = 0) :
    (round t s r).out = r.out ∧ pending (round t s r).state = 0

theorem drainsInRounds [LawfulWindowed σ] (t : InterfaceTable) : DrainsInRounds σ t where
  writes s r := ⟨count_round t s r, length_written t s r, records_round t s r⟩
  books s r := ⟨emitted_round t s r, truncated_round t s r⟩
  parts := exists_taken t
  left s rs := pending_rounds t s rs
  whole s _ big hdrained hbig :=
    have hrounds := perm_rounds_of_pending t s hdrained
    ⟨hrounds.trans (perm_written_of_room t s big hbig).symm, hrounds,
      (window s).aggregates.distinct⟩
  idle s r hdrained := round_of_pending t s r hdrained

/-- **Flushing in rounds is flushing at once.** Whatever order the aggregates of the three
analyzers are walked in, each round writes and books as many as its output has room for and
leaves the others as they are; once none is left the rounds have written, one record for each
flow, what a single round with enough room writes, and the next round writes nothing. -/
theorem drains_in_rounds (t : InterfaceTable) :
    DrainsInRounds Handshakes t ∧ DrainsInRounds AckDelays t ∧ DrainsInRounds PacketCounts t :=
  ⟨drainsInRounds t, drainsInRounds t, drainsInRounds t⟩

/-- The counts of three flows through two outputs of two records. -/
example :
    let flow (port : UInt16) : Flow := ⟨⟨1⟩, ⟨2⟩, port, 80, 1⟩
    let p : PacketCounts :=
      { window :=
          { clock := { interval := 1 }
            aggregates := ⟨[(flow 1, ⟨1, .sent⟩), (flow 2, ⟨5, .sent⟩), (flow 3, ⟨2, .received⟩)],
              by decide⟩ } }
    let done := rounds {} p [⟨.empty, { capacity := 2 }⟩, ⟨.empty, { capacity := 2 }⟩]
    done.2 = backlog {} p ∧ (counters done.1).emitted = 3 ∧ (counters done.1).truncated = 1 := by
  decide

end FlowProbe.Windowed
