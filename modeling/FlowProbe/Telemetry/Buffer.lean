import FlowProbe.Telemetry.Record

/-! The bounded output of a poll.

A `Buffer` never holds more records than its capacity: `push` refuses the one that does
not fit. `accept` pushes records in order up to the first refusal and counts them, and
`records_accept` says which ones those are: as many from the front as there is room
for. `offer` pushes all of them and does not look at the answers, which comes to the same
(`offer_eq`): what is full stays full. -/
namespace FlowProbe

structure Buffer where
  capacity : Nat
  records : List Record := []
  fits : records.length ≤ capacity := by exact Nat.zero_le _
  deriving DecidableEq, Repr

namespace Buffer

def size (b : Buffer) : Nat := b.records.length

def isFull (b : Buffer) : Bool := b.capacity ≤ b.size

def remaining (b : Buffer) : Nat := b.capacity - b.size

/-- The buffer with one more record, or none if it is full. -/
def push (b : Buffer) (r : Record) : Option Buffer :=
  if h : b.size < b.capacity then
    some { b with
      records := b.records ++ [r]
      fits := by
        rw [List.length_append]
        exact h }
  else none

def clear (b : Buffer) : Buffer := { b with records := [], fits := Nat.zero_le _ }

/-- Pushes records up to the first that is refused, and says how many went in. -/
def accept (b : Buffer) : List Record → Buffer × Nat
  | [] => (b, 0)
  | r :: rest =>
    match b.push r with
    | none => (b, 0)
    | some b =>
      let (b, n) := b.accept rest
      (b, n + 1)

/-- Pushes records one after the other, whether or not there is room for them. -/
def offer (b : Buffer) (rs : List Record) : Buffer :=
  rs.foldl (fun b r => (b.push r).getD b) b

theorem capacity_eq (b : Buffer) : b.capacity = b.size + b.remaining := by
  have h := b.fits
  simp only [size, remaining]
  omega

theorem isFull_iff {b : Buffer} : b.isFull = true ↔ b.remaining = 0 := by
  simp only [isFull, remaining, decide_eq_true_eq]
  omega

theorem push_eq_none_iff {b : Buffer} {r : Record} : b.push r = none ↔ b.remaining = 0 := by
  rw [push, remaining]
  split
  · simp only [reduceCtorEq, false_iff]
    omega
  · simp only [true_iff]
    omega

theorem push_eq_some {b c : Buffer} {r : Record} (h : b.push r = some c) :
    c.records = b.records ++ [r] ∧ c.capacity = b.capacity ∧ 0 < b.remaining := by
  rw [push] at h
  split at h
  · cases h
    refine ⟨rfl, rfl, ?_⟩
    rw [remaining]
    omega
  · exact absurd h nofun

theorem accept_eq (b : Buffer) (rs : List Record) :
    (b.accept rs).1.records = b.records ++ rs.take b.remaining ∧
      (b.accept rs).1.capacity = b.capacity ∧
      (b.accept rs).2 = min b.remaining rs.length := by
  induction rs generalizing b with
  | nil => simp [accept]
  | cons r rest ih =>
    rw [accept]
    cases hp : b.push r with
    | none =>
      have h0 := push_eq_none_iff.1 hp
      simp [h0]
    | some c =>
      obtain ⟨hr, hc, hlt⟩ := push_eq_some hp
      obtain ⟨ih1, ih2, ih3⟩ := ih c
      have hrem : b.remaining = c.remaining + 1 := by
        simp only [remaining, size, hc, hr, List.length_append, List.length_singleton] at hlt ⊢
        omega
      refine ⟨?_, ?_, ?_⟩
      · simp only [ih1, hr, hrem, List.take_succ_cons, List.append_assoc, List.cons_append,
          List.nil_append]
      · simp only [ih2, hc]
      · simp only [ih3, hrem, List.length_cons]
        omega

theorem records_accept (b : Buffer) (rs : List Record) :
    (b.accept rs).1.records = b.records ++ rs.take b.remaining :=
  (b.accept_eq rs).1

theorem capacity_accept (b : Buffer) (rs : List Record) :
    (b.accept rs).1.capacity = b.capacity :=
  (b.accept_eq rs).2.1

theorem count_accept (b : Buffer) (rs : List Record) :
    (b.accept rs).2 = min b.remaining rs.length :=
  (b.accept_eq rs).2.2

theorem remaining_accept (b : Buffer) (rs : List Record) :
    (b.accept rs).1.remaining = b.remaining - rs.length := by
  have h := b.accept_eq rs
  simp only [remaining, size, h.1, h.2.1, List.length_append, List.length_take]
  omega

theorem clear_eq {b : Buffer} (h : b.records = []) : b.clear = b := by
  obtain ⟨capacity, records, fits⟩ := b
  cases h
  rfl

theorem offer_eq (b : Buffer) (rs : List Record) : b.offer rs = (b.accept rs).1 := by
  induction rs generalizing b with
  | nil => rfl
  | cons r rest ih =>
    cases hpush : b.push r with
    | none =>
      -- a buffer that is full stays full, so it takes none of the others either
      have hfull := push_eq_none_iff.1 hpush
      have hrest : (b.accept rest).1 = b := by
        cases rest with
        | nil => rfl
        | cons r' rest => rw [accept, push_eq_none_iff.2 hfull]
      rw [accept, hpush, offer, List.foldl_cons, hpush]
      exact (ih b).trans hrest
    | some c =>
      rw [accept, hpush, offer, List.foldl_cons, hpush]
      exact ih c

/-- What there is room for is taken whole. -/
theorem records_offer {b : Buffer} {rs : List Record} (h : rs.length ≤ b.remaining) :
    (b.offer rs).records = b.records ++ rs := by
  rw [offer_eq, records_accept, List.take_of_length_le h]

theorem capacity_offer (b : Buffer) (rs : List Record) : (b.offer rs).capacity = b.capacity := by
  rw [offer_eq, capacity_accept]

theorem remaining_offer (b : Buffer) (rs : List Record) :
    (b.offer rs).remaining = b.remaining - rs.length := by
  rw [offer_eq, remaining_accept]

end Buffer

/-- The outcome of writing to an output: what is left, the output, and how many records went
in. -/
structure Written (σ : Type) where
  state : σ
  out : Buffer
  count : Nat
  deriving DecidableEq, Repr

namespace Written

variable {σ τ : Type}

/-- The same outcome seen through a change of the state. -/
def map (f : σ → τ) (w : Written σ) : Written τ := ⟨f w.state, w.out, w.count⟩

end Written

end FlowProbe
