import FlowProbe.Proofs.Window.AckLedger

/-! Sequence numbers that start elsewhere.

Each way of a connection numbers its bytes from a start of its own, and the numbers go around at
the end of a word. An acknowledgment is matched by the plain order of these words. A shift of a
space, by a constant that is added to every number of it, keeps the order of two numbers exactly if
it carries both of them past the end of the word or neither (`add_le_add_iff`). So where it does
not part the numbers of a run, the shifted run is the same run with other numbers in its queues
(`Tracks`), and writes the same records (`output_of_shifted_spaces`); where it parts a segment from
its acknowledgment, the delay of the two is lost (`records_change_across_the_end`). -/
namespace FlowProbe.AckDelays
open Windowed
open PathIndex (listed)

/-! ### The order of shifted numbers -/

/-- Whether adding `c` carries a number past the end of a word. -/
def Carries (c n : UInt32) : Prop := UInt32.size ≤ n.toNat + c.toNat

/-- Adding `c` carries all of the numbers or none of them. -/
def Together (c : UInt32) (l : List UInt32) : Prop :=
  (∀ n ∈ l, Carries c n) ∨ ∀ n ∈ l, ¬Carries c n

instance (c n : UInt32) : Decidable (Carries c n) := inferInstanceAs (Decidable (_ ≤ _))

-- over the list: found by itself, the instance would go through all words
instance (c : UInt32) (l : List UInt32) : Decidable (Together c l) :=
  @instDecidableOr _ _ (l.decidableBAll _) (l.decidableBAll _)

/-- The order of two numbers stays what it is exactly if both are carried or neither is. -/
theorem add_le_add_iff (c x y : UInt32) :
    (x + c ≤ y + c ↔ x ≤ y) ↔ (Carries c x ↔ Carries c y) := by
  have hx := x.toNat_lt
  have hy := y.toNat_lt
  have hc := c.toNat_lt
  rw [UInt32.le_iff_toNat_le, UInt32.le_iff_toNat_le, UInt32.toNat_add, UInt32.toNat_add, Carries,
    Carries, UInt32.size]
  omega

theorem Together.le_iff {c : UInt32} {l : List UInt32} (h : Together c l) {x y : UInt32}
    (hx : x ∈ l) (hy : y ∈ l) : x + c ≤ y + c ↔ x ≤ y := by
  refine (add_le_add_iff c x y).2 ?_
  rcases h with hall | hnone
  · exact iff_of_true (hall x hx) (hall y hy)
  · exact iff_of_false (hnone x hx) (hnone y hy)

/-- The same where the shift is only of the numbers of a space. -/
theorem Together.ite_le_ite_iff {c : UInt32} {l : List UInt32} (h : Together c l) {p : Prop}
    [Decidable p] {x y : UInt32} (hx : p → x ∈ l) (hy : p → y ∈ l) :
    (if p then x + c else x) ≤ (if p then y + c else y) ↔ x ≤ y := by
  split
  · next hp => exact h.le_iff (hx hp) (hy hp)
  · exact Iff.rfl

/-! ### Shifts -/

/-- The numbers of the space of `k` among those of a segment under `g`: its own segments number the
space and those of its reverse acknowledge it. -/
def numbers (k g : Flow) (seq ack : UInt32) : List UInt32 :=
  (if g = k then [seq] else []) ++ if g = k.reverse then [ack] else []

section Shift

variable (k : Flow) (c : UInt32)

/-- A segment with `c` added to the numbers of the space of `k`. -/
def shifted (s : Segment) : Segment :=
  { s with
    seq := if s.flow = k then s.seq + c else s.seq
    ack := if s.flow = k.reverse then s.ack + c else s.ack }

@[simp] theorem flow_shifted (s : Segment) : (shifted k c s).flow = s.flow := rfl

/-- The same of a segment that waits under `g`. -/
def shiftedUnder (g : Flow) (w : Waiting) : Waiting :=
  { w with
    seq := if g = k then w.seq + c else w.seq
    ack := if g = k.reverse then w.ack + c else w.ack }

/-- A call whose segment, if it takes one in, has `c` added to the numbers of the space of `k`. -/
def shiftedCall : Call AckDelays → Call AckDelays
  | .ingest t s => .ingest t (shifted k c s)
  | call => call

/-- A run with `c` added to the numbers of the space of `k`. -/
def shift (calls : List (Call AckDelays)) : List (Call AckDelays) := calls.map (shiftedCall k c)

end Shift

/-- The numbers of the space of `k` in a run. -/
def space (k : Flow) (calls : List (Call AckDelays)) : List UInt32 :=
  (intake calls).flatMap fun e =>
    let s : Segment := e.2
    numbers k s.flow s.seq s.ack

theorem subset_space {k : Flow} {calls : List (Call AckDelays)} {t : InterfaceTable} {s : Segment}
    (h : .ingest t s ∈ calls) : numbers k s.flow s.seq s.ack ⊆ space k calls := by
  intro n hn
  exact List.mem_flatMap.2 ⟨(t, s), List.mem_filterMap.2 ⟨_, h, rfl⟩, hn⟩

/-- A shift that parts no numbers changes nothing about which segments are covered. -/
theorem covers_shifted {k : Flow} {c : UInt32} {l : List UInt32} (hl : Together c l) {s : Segment}
    (hs : numbers k s.flow s.seq s.ack ⊆ l) {w : Waiting}
    (hw : numbers k s.flow.reverse w.seq w.ack ⊆ l) :
    covers (shifted k c s) (shiftedUnder k c s.flow.reverse w) = covers s w := by
  have hseq : (shiftedUnder k c s.flow.reverse w).seq ≤ (shifted k c s).ack ↔ w.seq ≤ s.ack := by
    simp only [shiftedUnder, shifted, Flow.reverse_eq_iff]
    exact hl.ite_le_ite_iff (fun hk => hw (by simp [numbers, hk])) fun hk =>
      hs (by simp [numbers, hk])
  have hack : (shiftedUnder k c s.flow.reverse w).ack ≤ (shifted k c s).seq ↔ w.ack ≤ s.seq := by
    simp only [shiftedUnder, shifted, Flow.reverse_inj]
    exact hl.ite_le_ite_iff (fun hk => hw (by simp [numbers, hk])) fun hk =>
      hs (by simp [numbers, hk])
  rw [covers, covers, decide_eq_decide.2 hseq, decide_eq_decide.2 hack]

/-! ### Two runs -/

/-- The second analyzer holds what the first one holds, with the numbers of the space of `k`
shifted, and these numbers are known. -/
structure Tracks (k : Flow) (c : UInt32) (l : List UInt32) (a b : AckDelays) : Prop where
  window : b.window = a.window
  queues : ∀ g, listed b.queues g = (listed a.queues g).map (shiftedUnder k c g)
  known : ∀ g, ∀ w ∈ listed a.queues g, numbers k g w.seq w.ack ⊆ l

namespace Tracks

variable {k : Flow} {c : UInt32} {l : List UInt32} {a b : AckDelays}

/-- Nothing waits, so there is nothing to shift. -/
theorem of_window {w : Window Delays} : Tracks k c l { window := w } { window := w } where
  window := rfl
  queues _ := rfl
  known g w hw := by cases hw

theorem withWindow (h : Tracks k c l a b) {w w' : Window Delays} (hw : w' = w) :
    Tracks k c l { a with window := w } { b with window := w' } :=
  ⟨hw, h.queues, h.known⟩

theorem admitted (h : Tracks k c l a b) (s : Segment) :
    Tracks k c l (a.admitted s) (b.admitted (shifted k c s)) :=
  h.withWindow (congrArg (fun w => (w.observe s.time).ingest) h.window)

theorem enqueue (h : Tracks k c l a b) {s : Segment}
    (hs : numbers k s.flow s.seq s.ack ⊆ l) :
    Tracks k c l (a.enqueue s) (b.enqueue (shifted k c s)) := by
  refine ⟨h.window, fun g => ?_, fun g w hw => ?_⟩
  · rw [listed_enqueue, listed_enqueue, flow_shifted, h.queues, h.queues]
    split
    · next hg =>
      rw [hg, List.map_append]
      rfl
    · rfl
  · rw [listed_enqueue] at hw
    split at hw
    · next hg =>
      rw [hg]
      rcases List.mem_append.1 hw with hw | hw
      · exact h.known s.flow w hw
      · rw [List.mem_singleton.1 hw]
        exact hs
    · exact h.known g w hw

/-- Both runs take the same part of a queue. -/
theorem covered (h : Tracks k c l a b) (hl : Together c l) {s : Segment}
    (hs : numbers k s.flow s.seq s.ack ⊆ l) :
    b.covered (shifted k c s) = (a.covered s).map (shiftedUnder k c s.flow.reverse) := by
  have hknown := h.known s.flow.reverse
  rw [AckDelays.covered, AckDelays.covered, flow_shifted, h.queues]
  generalize listed a.queues s.flow.reverse = queue at hknown
  induction queue with
  | nil => rfl
  | cons w rest ih =>
    have hw : numbers k s.flow.reverse w.seq w.ack ⊆ l := hknown w List.mem_cons_self
    rw [List.map_cons, List.takeWhile_cons, List.takeWhile_cons, covers_shifted hl hs hw]
    split
    · rw [List.map_cons, ih fun w' hw' => hknown w' (List.mem_cons_of_mem _ hw')]
    · rfl

theorem onAck (h : Tracks k c l a b) (hl : Together c l) {s : Segment}
    (hs : numbers k s.flow s.seq s.ack ⊆ l) :
    Tracks k c l (a.onAck s) (b.onAck (shifted k c s)) := by
  have hcovered := h.covered hl hs
  cases hlast : (a.covered s).getLast? with
  | none =>
    have hnil : a.covered s = [] := List.getLast?_eq_none_iff.1 hlast
    rw [hnil, List.map_nil] at hcovered
    rw [onAck_of_nil hnil, onAck_of_nil hcovered]
    exact h.withWindow (congrArg (fun w => w.miss 1) h.window)
  | some last =>
    have hlast' : (b.covered (shifted k c s)).getLast? =
        some (shiftedUnder k c s.flow.reverse last) := by
      rw [hcovered, List.getLast?_map, hlast, Option.map_some]
    rw [onAck_of_last hlast, onAck_of_last hlast', h.window]
    refine ⟨rfl, fun g => ?_, fun g w hw => ?_⟩
    · rw [listed_dequeue, listed_dequeue, flow_shifted, h.queues, hcovered, List.length_map]
      split
      · rw [List.map_drop]
      · rfl
    · rw [listed_dequeue] at hw
      split at hw
      · exact h.known g w (List.mem_of_mem_drop hw)
      · exact h.known g w hw

theorem ingest (h : Tracks k c l a b) (hl : Together c l) (t : InterfaceTable) {s : Segment}
    (hs : numbers k s.flow s.seq s.ack ⊆ l) :
    Tracks k c l (a.ingest t s) (b.ingest t (shifted k c s)) := by
  -- a shift keeps what decides between the cases: the interface, the flags, the flow and the hint
  have hadmits' : admits t (shifted k c s) = admits t s := rfl
  rcases a.ingest_cases t s with ⟨hadmits, hsent, he⟩ | ⟨hadmits, hreceived, he⟩ | ⟨hadmits, he⟩
  · rw [he, ingest_of_sent (hadmits'.trans hadmits) hsent]
    exact (h.admitted s).enqueue hs
  · rw [he, ingest_of_received (hadmits'.trans hadmits) hreceived]
    exact (h.admitted s).onAck hl hs
  · rw [he, ingest_of_not_admits (hadmits'.trans hadmits)]
    exact h

/-- A flush throws the queues away and writes what the windows hold. -/
theorem flush (h : Tracks k c l a b) (t : InterfaceTable) (out : Buffer) :
    Tracks k c l (Windowed.flush t a out).state (Windowed.flush t b out).state ∧
      (Windowed.flush t b out).news out = (Windowed.flush t a out).news out := by
  have hflush : Windowed.flush t b out =
      (a.window.flush record out).map fun window => { window } :=
    congrArg (fun w : Window Delays =>
      (w.flush record out).map fun window => ({ window } : AckDelays)) h.window
  rw [hflush]
  exact ⟨of_window, rfl⟩

theorem poll (h : Tracks k c l a b) (t : InterfaceTable) (out : Buffer) :
    Tracks k c l (Windowed.poll t a out).state (Windowed.poll t b out).state ∧
      (Windowed.poll t b out).news out = (Windowed.poll t a out).news out := by
  have hdue : (clock b).isDue = (clock a).isDue :=
    congrArg (fun w : Window Delays => w.clock.isDue) h.window
  obtain ⟨hstate, hnews⟩ := h.flush t out
  rw [Windowed.poll, Windowed.poll, hdue]
  split
  · exact ⟨hstate.withWindow (congrArg Window.restart hstate.window), hnews⟩
  · exact ⟨h, rfl⟩

/-- Every call keeps the track, and writes the same. -/
theorem step (h : Tracks k c l a b) (hl : Together c l) {call : Call AckDelays}
    (hcall : ∀ t s, call = .ingest t s → numbers k s.flow s.seq s.ack ⊆ l) :
    Tracks k c l (Windowed.step a call) (Windowed.step b (shiftedCall k c call)) ∧
      news b (shiftedCall k c call) = news a call := by
  cases call with
  | ingest t s => exact ⟨h.ingest hl t (hcall t s rfl), rfl⟩
  | flush t out => exact h.flush t out
  | poll t out => exact h.poll t out
  | restart => exact ⟨h.withWindow (congrArg Window.restart h.window), rfl⟩
  | reorder order => exact ⟨h.withWindow (congrArg (fun w => w.reorder order) h.window), rfl⟩

/-- So does every run. -/
theorem output (h : Tracks k c l a b) (hl : Together c l) {calls : List (Call AckDelays)}
    (hcalls : ∀ t s, .ingest t s ∈ calls → numbers k s.flow s.seq s.ack ⊆ l) :
    Windowed.output b (shift k c calls) = Windowed.output a calls := by
  induction calls generalizing a b with
  | nil => rfl
  | cons call rest ih =>
    obtain ⟨hstep, hnews⟩ := h.step hl fun t s he => hcalls t s (he ▸ List.mem_cons_self)
    have hrest := ih hstep fun t s hs => hcalls t s (List.mem_cons_of_mem _ hs)
    rw [shift, List.map_cons, Windowed.output, Windowed.output, hnews]
    exact congrArg _ hrest

end Tracks

/-- A shift that parts no numbers of a space leaves the records of a run alone. -/
theorem output_shift {k : Flow} {c : UInt32} {calls : List (Call AckDelays)}
    (h : Together c (space k calls)) (interval : Nanos) :
    output (ofInterval interval) (shift k c calls) = output (ofInterval interval) calls :=
  Tracks.of_window.output h fun _ _ hs => subset_space hs

/-- The space of the reverse is another one, unless the flow is its own reverse. -/
theorem space_reverse_shift {k : Flow} (hk : k ≠ k.reverse) (c : UInt32)
    (calls : List (Call AckDelays)) : space k.reverse (shift k c calls) = space k.reverse calls := by
  have hnumbers (s : Segment) :
      numbers k.reverse (shifted k c s).flow (shifted k c s).seq (shifted k c s).ack =
        numbers k.reverse s.flow s.seq s.ack := by
    simp only [numbers, shifted, Flow.reverse_reverse]
    by_cases hflow : s.flow = k
    · simp [hflow, hk]
    · simp [hflow]
  induction calls with
  | nil => rfl
  | cons call rest ih =>
    cases call with
    | ingest t s =>
      show numbers k.reverse (shifted k c s).flow (shifted k c s).seq (shifted k c s).ack ++
          space k.reverse (shift k c rest) =
        numbers k.reverse s.flow s.seq s.ack ++ space k.reverse rest
      rw [hnumbers, ih]
    | flush | poll | restart | reorder => exact ih

/-- **Where a connection's numbers start does not matter, as long as a shift parts none of them.**
Add `c` to the numbers that the segments of a flow carry and those of its reverse acknowledge, and
`d` to those of the other space: if `c` takes all numbers of the first space past the end of a word
or none of them, and `d` so with the second, every run of calls writes the same records as before,
one by one. The second space is as it was, unless the flow is its own reverse and both are one. -/
theorem output_of_shifted_spaces (interval : Nanos) (k : Flow) (c d : UInt32)
    (calls : List (Call AckDelays)) (hc : Together c (space k calls))
    (hd : Together d (space k.reverse (shift k c calls))) :
    output (ofInterval interval) (shift k.reverse d (shift k c calls)) =
        output (ofInterval interval) calls ∧
      (k ≠ k.reverse → space k.reverse (shift k c calls) = space k.reverse calls) :=
  ⟨(output_shift hd interval).trans (output_shift hc interval),
    fun hk => space_reverse_shift hk c calls⟩

/-- A segment and its acknowledgment around the middle of a word, with numbers that are both
carried past its end in one space and neither in the other. -/
theorem output_of_shifted_exchange :
    let flow : Flow := ⟨⟨1⟩, ⟨2⟩, 1000, 80, 7⟩
    let table : InterfaceTable :=
      { kinds := Keyed.empty.insert 7 .container, owners := Keyed.empty.insert ⟨1⟩ 7 }
    let segment (f : Flow) (seq ack : UInt32) (time : Nanos) : Call AckDelays :=
      .ingest table { time, flow := f, seq, ack, flags := TcpFlag.ack.bit }
    let calls := [segment flow 2147483600 0 1000, segment flow.reverse 1 2147483700 1250,
      .flush table { capacity := 8 }]
    let moved := shift flow.reverse 70 (shift flow 2147483700 calls)
    Together 2147483700 (space flow calls) ∧
      Together 70 (space flow.reverse (shift flow 2147483700 calls)) ∧
      (output (ofInterval 5) calls).map (fun r => r.number "acktime_delta") = [250] ∧
      (space flow moved, space flow.reverse moved) = ([4, 104], [70, 71]) ∧
      output (ofInterval 5) moved = output (ofInterval 5) calls := by
  intro flow table segment calls moved
  have hc : Together 2147483700 (space flow calls) := by decide
  have hd : Together 70 (space flow.reverse (shift flow 2147483700 calls)) := by decide
  exact ⟨hc, hd, by decide, by decide, (output_of_shifted_spaces 5 flow _ _ calls hc hd).1⟩

/-- Numbers of a small span are not enough: a segment that ends up before the end of a word and its
acknowledgment that ends up behind it do not match, and the one record of the run is lost. -/
theorem records_change_across_the_end :
    let flow : Flow := ⟨⟨1⟩, ⟨2⟩, 1000, 80, 7⟩
    let table : InterfaceTable :=
      { kinds := Keyed.empty.insert 7 .container, owners := Keyed.empty.insert ⟨1⟩ 7 }
    let segment (f : Flow) (seq ack : UInt32) (time : Nanos) : Call AckDelays :=
      .ingest table { time, flow := f, seq, ack, flags := TcpFlag.ack.bit }
    let calls := [segment flow 100 0 1000, segment flow.reverse 1 200 1250,
      .flush table { capacity := 8 }]
    let moved := shift flow.reverse 0 (shift flow 4294967146 calls)
    table.direction flow 0 = .sent ∧
      (∀ x ∈ space flow calls, ∀ y ∈ space flow calls, x.toNat < y.toNat + 2 ^ 31) ∧
      (∀ x ∈ space flow.reverse calls, ∀ y ∈ space flow.reverse calls,
        x.toNat < y.toNat + 2 ^ 31) ∧
      (output (ofInterval 5) calls).length = 1 ∧ output (ofInterval 5) moved = [] := by
  intro flow table segment calls moved
  have hspaces : space flow calls = [100, 200] ∧ space flow.reverse calls = [0, 1] := by decide
  rw [hspaces.1, hspaces.2]
  exact ⟨by decide, by simp, by simp, by decide, by decide⟩

end FlowProbe.AckDelays
