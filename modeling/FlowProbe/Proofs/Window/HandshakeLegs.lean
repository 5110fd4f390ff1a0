import FlowProbe.Proofs.Window.HandshakeLedger

/-! The legs that records show.

A record of handshakes shows the leg that its side measured, summed over the handshakes that were
folded into it, and `-1` for the other. The spans are added as signed words, so what is shown is
the word of their sum (`Shows`). A reader takes it for the sum itself, and that is right as long as
the sum is less than `2 ^ 63`; `one_leg_iff` says so of every record of every run. One span of
`2 ^ 64 - 1` is shown as `-1`, and then the record has no leg at all (`no_leg_of_widest_span`). -/
namespace FlowProbe.Handshakes
open Windowed Folding

/-! ### Legs -/

/-- The time from the SYN to its answer on the side that sent the ACK, from the answer to the ACK on
the side that received it. A time that runs backwards is none. -/
def Trip.span (i : Trip) : Direction → Nat
  | .sent => i.stamp.toNat - i.syn.toNat
  | .received => i.ack.time.toNat - i.stamp.toNat

/-- The sum of the leg that a side measures. -/
def leg (r : RoundTrips) : Direction → Int
  | .sent => r.synSum
  | .received => r.ackSum

/-- The attribute that shows the leg of a side. -/
def legKey : Direction → String
  | .sent => "synrtt_delta"
  | .received => "ackrtt_delta"

def otherKey : Direction → String
  | .sent => "ackrtt_delta"
  | .received => "synrtt_delta"

/-- What a reader takes a record for: it counts its handshakes, one leg is `-1`, and the other is not
negative and is the sum of its spans. -/
def HasOneLeg (r : Record) (trips : List Trip) : Prop :=
  r.number "data_counts" = trips.length ∧
    (r.number "ackrtt_delta" = -1 ∧ 0 ≤ r.number "synrtt_delta" ∧
        r.number "synrtt_delta" = (trips.map fun i => i.span .sent).sum ∨
      r.number "synrtt_delta" = -1 ∧ 0 ≤ r.number "ackrtt_delta" ∧
        r.number "ackrtt_delta" = (trips.map fun i => i.span .received).sum)

instance : DecidableEq (Item Handshakes) := inferInstanceAs (DecidableEq Trip)

instance (r : Record) (trips : List Trip) : Decidable (HasOneLeg r trips) :=
  inferInstanceAs (Decidable (_ ∧ (_ ∨ _)))

/-! ### The words of the legs -/

/-- The leg of an aggregate as the word that carries it, zero if there is none. -/
def legWord (side : Direction) (trips : Option RoundTrips) : Int64 :=
  trips.elim 0 fun r => .ofInt (leg r side)

theorem legWord_put (i : Trip) (trips : Option RoundTrips) (side : Direction) :
    legWord side (some (i.put trips)) = legWord side trips + .ofNat (i.span side) := by
  cases trips <;> cases side <;>
    simp [legWord, leg, Trip.put, Track.completed, Trip.span, Int64.ofInt_add, Nanos.ofInt_signed,
      Nanos.toNat_elapsed, Int64.ofInt_eq_ofNat]

theorem folded_concat_trip (l : List Trip) (i : Trip) :
    folded (σ := Handshakes) (l ++ [i]) = some (i.put (folded (σ := Handshakes) l)) :=
  folded_concat (σ := Handshakes) l i

/-- The leg of an aggregate is the sum of its spans, as a word. -/
theorem legWord_folded (l : List Trip) (side : Direction) :
    legWord side (folded (σ := Handshakes) l) = .ofNat (l.map fun i => i.span side).sum := by
  induction l using List.reverseRecOn with
  | nil => rfl
  | append_singleton l i ih =>
    rw [folded_concat_trip, legWord_put, ih, List.map_append, List.sum_append, List.map_singleton,
      List.sum_singleton, Int64.ofNat_add]

/-- The hint of an aggregate is that of its first ACK. -/
theorem hint_folded (l : List Trip) :
    (folded (σ := Handshakes) l).map RoundTrips.hint = l.head?.map fun i => i.ack.hint := by
  induction l using List.reverseRecOn with
  | nil => rfl
  | append_singleton l i ih =>
    rw [folded_concat_trip]
    cases l with
    | nil => rfl
    | cons first l =>
      obtain ⟨r, hr, hhint⟩ := Option.map_eq_some_iff.1 ih
      rw [hr]
      exact congrArg some hhint

/-! ### What a record shows -/

/-- A record shows how many handshakes there are and the spans of the side that the first ACK tells,
as words, and `-1` for the other side. -/
structure Shows (e : Emitted Handshakes) (trips : List Trip) (side : Direction) : Prop where
  told : (trips.head?.map fun i => e.table.direction e.flow i.ack.hint) = some side
  count : e.record.number "data_counts" = (trips.length % UInt64.size : Nat)
  measured : e.record.number (legKey side) =
    (Int64.ofNat (trips.map fun i => i.span side).sum).toInt
  other : e.record.number (otherKey side) = -1

theorem legs_record {t : InterfaceTable} {f : Flow} {r : RoundTrips} {side : Direction}
    (h : t.direction f r.hint = side) (time : Nanos) :
    (record t time f r).number (legKey side) = (Int64.ofInt (leg r side)).toInt ∧
      (record t time f r).number (otherKey side) = -1 := by
  rw [record, h]
  cases side <;>
    simp [legKey, otherKey, leg, noLeg, Flow.record, Record.set, Record.maxAttributes, Record.number,
      Record.get?, Value.number]

/-- The record of an aggregate shows what the aggregate is made of. -/
theorem exists_shows {e : Emitted Handshakes} {trips : List Trip}
    (h : folded (σ := Handshakes) trips = some e.aggregate) : ∃ side, Shows e trips side := by
  have hrecord : e.record = record e.table e.time e.flow e.aggregate := by
    rw [Emitted.record]
    rfl
  have hhint := hint_folded trips
  have hcount := count_folded (σ := Handshakes) (l := trips) fun i _ => Trip.count_put i
  have hword := legWord_folded trips (e.table.direction e.flow e.aggregate.hint)
  rw [h] at hhint hcount hword
  obtain ⟨hmeasured, hother⟩ := legs_record (t := e.table) (f := e.flow) (r := e.aggregate) rfl e.time
  rw [← hrecord] at hmeasured hother
  refine ⟨e.table.direction e.flow e.aggregate.hint, ?_, ?_, ?_, hother⟩
  · have htold := congrArg (Option.map (e.table.direction e.flow)) hhint
    rw [Option.map_map (e.table.direction e.flow) fun i : Trip => i.ack.hint] at htold
    exact htold.symm
  · rw [← hcount]
    exact Folding.number_record e.table e.time e.flow e.aggregate
  · rw [← hword]
    exact hmeasured

theorem toInt_ofNat_eq_iff {n : Nat} : (Int64.ofNat n).toInt = n ↔ n < 2 ^ 63 := by
  refine ⟨fun h => ?_, Int64.toInt_ofNat_of_lt⟩
  have hlt := (Int64.ofNat n).toInt_lt
  omega

/-- What is shown is what a reader takes it for as long as it fits in its word. -/
theorem Shows.hasOneLeg_iff {e : Emitted Handshakes} {trips : List Trip} {side : Direction}
    (h : Shows e trips side) :
    HasOneLeg e.record trips ↔
      trips.length < UInt64.size ∧ (trips.map fun i => i.span side).sum < 2 ^ 63 := by
  obtain ⟨-, hcount, hmeasured, hother⟩ := h
  have hlength : e.record.number "data_counts" = trips.length ↔ trips.length < UInt64.size := by
    rw [hcount, Nat.cast_inj, Nat.mod_eq_iff_lt (by decide)]
  rw [HasOneLeg, hlength, ← toInt_ofNat_eq_iff, ← hmeasured]
  refine and_congr_right fun _ => ?_
  -- the leg that is -1 is no sum of spans
  cases side with
  | sent =>
    simp only [legKey, otherKey] at hmeasured hother ⊢
    rw [hother]
    omega
  | received =>
    simp only [legKey, otherKey] at hmeasured hother ⊢
    rw [hother]
    omega

/-! ### A run -/

/-- **A record has one leg as long as its spans fit in a word.** In any run of calls on a new
analyzer, with any times and any outputs, the handshakes that a flow completed fall into groups that
follow each other, one for each record of the flow that was written and one for what is held. A
record shows its group: the side that the first ACK tells has the sum of the spans of its leg as a
signed word, and the other has `-1`. It has exactly one leg, and that leg is the sum itself, if and
only if its handshakes can be counted in a word and the sum is less than `2 ^ 63`. -/
theorem one_leg_iff (interval : Nanos) (calls : List (Call Handshakes)) :
    let new := ofInterval interval
    (history new calls).map Emitted.record = output new calls ∧
      ∀ k, ∃ groups rest,
        itemsOf k (items new calls) = groups.flatten ++ rest ∧
          folded (σ := Handshakes) rest = live k (run new calls) ∧
          List.Forall₂
            (fun e trips => ∃ side, Shows e trips side ∧
              (HasOneLeg e.record trips ↔
                trips.length < UInt64.size ∧ (trips.map fun i => i.span side).sum < 2 ^ 63))
            (writtenOf k (history new calls)) groups := by
  intro new
  refine ⟨map_record_history new calls, fun k => ?_⟩
  obtain ⟨groups, rest, hitems, hwritten, hheld⟩ := grouped_run (s := new) (k := k) rfl calls
  refine ⟨groups, rest, hitems, hheld, hwritten.imp fun e trips hfolded => ?_⟩
  obtain ⟨side, hshows⟩ := exists_shows hfolded
  exact ⟨side, hshows, hshows.hasOneLeg_iff⟩

/-- A span of `2 ^ 64 - 1` from the answer to the ACK is shown as `-1`, next to the `-1` of the
other leg. -/
theorem no_leg_of_widest_span :
    let flow : Flow := ⟨⟨1⟩, ⟨2⟩, 1000, 80, 7⟩
    let table : InterfaceTable := { kinds := Keyed.empty.insert 7 .container }
    let ack : Segment := { time := 18446744073709551615, flow, seq := 0, ack := 0, flags := 16 }
    let calls : List (Call Handshakes) :=
      [.ingest table { ack with time := 0, flags := 2 },
        .ingest table { ack with time := 0, flow := flow.reverse, flags := 18 },
        .ingest table ack, .flush table { capacity := 8 }]
    items (ofInterval 5) calls = [(flow, ⟨0, 0, ack⟩)] ∧
      (output (ofInterval 5) calls).map
          (fun r => (r.number "data_counts", r.number "synrtt_delta", r.number "ackrtt_delta")) =
        [(1, -1, -1)] ∧
      ∀ r ∈ output (ofInterval 5) calls, ¬HasOneLeg r [⟨0, 0, ack⟩] := by
  decide

end FlowProbe.Handshakes
