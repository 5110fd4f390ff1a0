import FlowProbe.Monitor
import FlowProbe.Proofs.Wire.Ring

/-! The slots that a walk through a ring visits.

`Walk` is the loop by itself: it stops where the cursors meet and nothing else stops it. Every step
brings it one slot nearer to the tail (`distance_next`), so it ends (`exists_walk`) and comes to no
place twice (`Walk.nodup`); the items of the ring are what stands in the places it visits
(`Walk.items`). `walks_between_cursors` adds where those places lie and what a monitor makes of
them. -/
namespace FlowProbe.Ring

variable {α : Type}

/-- The places visited from `pos` on, in their order. -/
inductive Walk (r : Ring α) : Nat → List Nat → Prop where
  | meet : Walk r r.tail []
  | visit {pos : Nat} {rest : List Nat} :
    pos ≠ r.tail → Walk r (r.next pos) rest → Walk r pos (pos :: rest)

variable {r : Ring α} {pos : Nat} {visited : List Nat}

theorem Walk.unique {other : List Nat} (h : r.Walk pos visited) (h' : r.Walk pos other) :
    other = visited := by
  induction h generalizing other with
  | meet =>
    cases h' with
    | meet => rfl
    | visit hne _ => exact absurd rfl hne
  | visit hne _ ih =>
    cases h' with
    | meet => exact absurd rfl hne
    | visit _ hrest => rw [ih hrest]

theorem exists_walk (r : Ring α) (pos : Nat) (h : pos < r.slots.length) :
    ∃ visited, r.Walk pos visited := by
  fun_induction itemsFrom r pos h with
  | case1 h => exact ⟨[], .meet⟩
  | case2 pos h hne _ ih =>
    obtain ⟨rest, hrest⟩ := ih
    exact ⟨pos :: rest, .visit hne hrest⟩

namespace Walk

variable (h : r.Walk pos visited) (hpos : pos < r.slots.length)
include h hpos

/-- The walk stays in the row, off the tail, and never gets farther from the tail. -/
theorem of_mem : ∀ p ∈ visited,
    p < r.slots.length ∧ p ≠ r.tail ∧ r.distance p ≤ r.distance pos := by
  induction h with
  | meet => exact List.forall_mem_nil _
  | @visit pos rest hne _ ih =>
    have hnext := r.distance_next hpos hne
    refine List.forall_mem_cons.2 ⟨⟨hpos, hne, Nat.le_refl _⟩, fun p hp => ?_⟩
    obtain ⟨hlt, htail, hle⟩ := ih (r.next_lt pos) p hp
    exact ⟨hlt, htail, by omega⟩

theorem nodup : visited.Nodup := by
  induction h with
  | meet => exact List.nodup_nil
  | @visit pos rest hne hrest ih =>
    have hnext := r.distance_next hpos hne
    refine List.nodup_cons.2 ⟨fun hp => ?_, ih (r.next_lt pos)⟩
    obtain ⟨-, -, hle⟩ := hrest.of_mem (r.next_lt pos) pos hp
    omega

theorem items : (r.itemsFrom pos hpos).map some = visited.map fun p => r.slots[p]? := by
  induction h with
  | meet => rw [itemsFrom, dif_pos rfl, List.map_nil, List.map_nil]
  | @visit pos rest hne _ ih =>
    rw [itemsFrom, dif_neg hne, List.map_cons, List.map_cons, ih (r.next_lt pos),
      List.getElem?_eq_getElem hpos]

theorem length : visited.length = r.distance pos := by
  have hlength := congrArg List.length (h.items hpos)
  rw [List.length_map, List.length_map, r.length_itemsFrom pos hpos] at hlength
  exact hlength.symm

theorem getElem? {i : Nat} (hi : i < r.distance pos) :
    visited[i]? = some ((pos + i) % r.capacity) := by
  induction h generalizing i with
  | meet =>
    rw [r.distance_tail] at hi
    exact absurd hi (Nat.not_lt_zero i)
  | @visit pos rest hne _ ih =>
    cases i with
    | zero => rw [List.getElem?_cons_zero, Nat.add_zero, capacity, Nat.mod_eq_of_lt hpos]
    | succ i =>
      have hnext := r.distance_next hpos hne
      rw [List.getElem?_cons_succ, ih (r.next_lt pos) (by omega), next, Nat.mod_add_mod,
        Nat.add_assoc, Nat.add_comm 1]

end Walk

theorem isEmpty_iff (r : Ring α) : r.isEmpty = true ↔ r.size = 0 := by
  have hhead := r.head_lt
  have htail := r.tail_lt
  rw [isEmpty, beq_iff_eq, size, r.distance_eq hhead, capacity]
  split <;> omega

theorem make_of_lt {slots : List α} {head tail : Nat} (hhead : head < slots.length)
    (htail : tail < slots.length) :
    make slots head tail = .ok ⟨slots, head, tail, hhead, htail⟩ :=
  dif_pos ⟨hhead, htail⟩

/-- **A walk visits the slots between the cursors.** A ring is made exactly of a row with slots and
two cursors that lie in it. The walk from its head ends, in one way only: it visits as many places
as the ring has items, the one at step `i` being `i` places behind the head around the end of the
row, none of them twice, none outside the row and never the tail, and the items are what stands
there. No number that it forms in a row of up to 2^63 slots needs more than 64 bits. A monitor takes
in what stands in those places, in that order, and says how many they are. -/
theorem walks_between_cursors (α : Type) :
    (∀ (slots : List α) (head tail : Nat),
      (0 < slots.length ∧ head < slots.length ∧ tail < slots.length →
        ∃ r, make slots head tail = .ok r ∧ r.slots = slots ∧ r.head = head ∧ r.tail = tail) ∧
      (¬(0 < slots.length ∧ head < slots.length ∧ tail < slots.length) →
        make slots head tail = .error (.cursor head tail slots.length))) ∧
    (∀ r : Ring α, ∃ visited : List Nat,
      (∀ other, r.Walk r.head other ↔ other = visited) ∧
        visited.length = r.size ∧
        (∀ i < r.size, visited[i]? = some ((r.head + i) % r.capacity)) ∧
        visited.Nodup ∧ r.tail ∉ visited ∧ (∀ p ∈ visited, p < r.capacity) ∧
        r.items.map some = (visited.map fun p => r.slots[p]?) ∧
        (r.capacity ≤ UInt64.size / 2 → r.tail + r.capacity < UInt64.size ∧
          ∀ p ∈ visited, p + 1 < UInt64.size)) ∧
    (∀ r : Ring α, r.isEmpty = true ↔ r.size = 0) ∧
    ∀ (m : Monitor) (r : Ring Segment), ∃ segments : List Segment,
      segments.length = r.size ∧
        (∀ i < r.size, segments[i]? = r.slots[(r.head + i) % r.capacity]?) ∧
        m.ingestRing r = (segments.foldl Monitor.ingest m, r.size) := by
  refine ⟨fun slots head tail => ⟨?_, fun hout => ?_⟩, fun r => ?_, isEmpty_iff, fun m r => ?_⟩
  · rintro ⟨-, hhead, htail⟩
    exact ⟨_, make_of_lt hhead htail, rfl, rfl, rfl⟩
  · have hcursors : ¬(head < slots.length ∧ tail < slots.length) :=
      fun h => hout ⟨Nat.zero_lt_of_lt h.1, h⟩
    exact dif_neg hcursors
  · obtain ⟨visited, hwalk⟩ := r.exists_walk r.head r.head_lt
    have hmem := hwalk.of_mem r.head_lt
    have htail := r.tail_lt
    have hone : ∀ other, r.Walk r.head other ↔ other = visited :=
      fun other => ⟨hwalk.unique, fun h => h ▸ hwalk⟩
    refine ⟨visited, hone, hwalk.length r.head_lt, fun i => hwalk.getElem? r.head_lt,
      hwalk.nodup r.head_lt, fun h => (hmem _ h).2.1 rfl, fun p hp => (hmem p hp).1,
      hwalk.items r.head_lt, fun hcapacity => ?_⟩
    rw [capacity] at hcapacity ⊢
    refine ⟨by omega, fun p hp => ?_⟩
    have hp := (hmem p hp).1
    omega
  · exact ⟨r.items, r.length_items, fun i => r.getElem?_items,
      congrArg (Prod.mk _) r.length_items⟩

end FlowProbe.Ring
