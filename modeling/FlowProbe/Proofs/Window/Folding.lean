import FlowProbe.Proofs.Window.Acts
import FlowProbe.Proofs.Window.Totals

/-! What the aggregates are made of.

An event puts at most one item into the aggregate of one flow; `Folding` says which item, and what
becomes of the aggregate. A flush takes the aggregate of a flow out or leaves it alone, and the
next item goes on with what it left or starts anew. So the items that a run puts into a flow fall
into groups that follow each other, one for each aggregate that was written and one for what is
held at the end (`grouped_run`), and where every item counts once what was written and what is
held count all items (`counted_run`). A record shows a count as a word, and what a sum of such
words says of the sum is `InWords`. -/
namespace FlowProbe
open Windowed

/-! ### Sums that are read off words -/

/-- What was read stands for a number: it is the number up to whole turns of a word, and the
number itself if that fits in a word. -/
structure InWords (read : Int) (n : Nat) : Prop where
  modEq : read ≡ n [ZMOD UInt64.size]
  eq_of_lt : n < UInt64.size → read = n

namespace InWords

theorem nat (n : Nat) : InWords n n := ⟨Int.ModEq.refl _, fun _ => rfl⟩

theorem word (n : Nat) : InWords (n % UInt64.size : Nat) n := by
  refine ⟨?_, fun h => ?_⟩
  · rw [Int.natCast_mod]
    exact Int.mod_modEq _ _
  · rw [Nat.mod_eq_of_lt h]

theorem add {read read' : Int} {m n : Nat} (h : InWords read m) (h' : InWords read' n) :
    InWords (read + read') (m + n) := by
  refine ⟨?_, fun hlt => ?_⟩
  · rw [Int.natCast_add]
    exact h.modEq.add h'.modEq
  · rw [h.eq_of_lt (by omega), h'.eq_of_lt (by omega), Int.natCast_add]

theorem sum_map {α : Type} {read : α → Int} {value : α → Nat} {l : List α}
    (h : ∀ x ∈ l, InWords (read x) (value x)) : InWords (l.map read).sum (l.map value).sum := by
  induction l with
  | nil => exact nat 0
  | cons x rest ih =>
    rw [List.map_cons, List.sum_cons, List.map_cons, List.sum_cons]
    exact (h x List.mem_cons_self).add (ih fun y hy => h y (List.mem_cons_of_mem _ hy))

theorem finset_sum {α : Type} [DecidableEq α] {read : α → Int} {value : α → Nat} (l : Finset α)
    (h : ∀ x, InWords (read x) (value x)) : InWords (∑ x ∈ l, read x) (∑ x ∈ l, value x) := by
  induction l using Finset.induction_on with
  | empty => exact nat 0
  | insert x l hx ih =>
    rw [Finset.sum_insert hx, Finset.sum_insert hx]
    exact (h x).add ih

end InWords

/-! ### Totals of a map -/

namespace Keyed

variable {κ β : Type} (weigh : β → Nat)

theorem total_eq_sum (m : Keyed κ β) : m.total weigh = (m.entries.map fun e => weigh e.2).sum := by
  rw [total]
  induction m.entries with
  | nil => rfl
  | cons e rest ih => rw [totalEntries, ih, List.map_cons, List.sum_cons]

theorem sum_own (k : κ) (b : Option β) :
    ((own k b).map fun e => weigh e.2).sum = b.elim 0 weigh := by
  cases b <;> simp

/-- A change at one key trades the weight of what it held for that of what it holds. -/
theorem total_alter [DecidableEq κ] (m : Keyed κ β) (k : κ) (f : Option β → Option β) :
    (m.alter k f).total weigh + (m.find? k).elim 0 weigh =
      m.total weigh + (f (m.find? k)).elim 0 weigh := by
  have hsum := ((m.perm_alter_own k f).map fun e => weigh e.2).sum_nat
  rwa [List.map_append, List.sum_append, sum_own, List.map_append, List.sum_append, sum_own,
    ← total_eq_sum, ← total_eq_sum] at hsum

end Keyed

/-! ### Items -/

/-- Folding an event into the aggregate of a flow changes what is held for the flow. -/
theorem Window.aggregates_gather {β : Type} (w : Window β) (f : Flow) {first : β} {next : β → β}
    {put : Option β → β} (hfirst : put none = first) (hnext : ∀ b, put (some b) = next b) :
    (w.gather f first next).aggregates = w.aggregates.alter f fun b => some (put b) := by
  refine congrArg (w.aggregates.alter f) (funext fun b => ?_)
  cases b with
  | none => rw [hfirst]
  | some b => rw [hnext]

/-- An analyzer whose aggregates are made of items, each from one event. -/
class Folding (σ : Type) [Windowed σ] extends Analyzing σ where
  Item : Type
  /-- What an event puts in, and for which flow. -/
  item? : InterfaceTable → σ → Event → Option (Flow × Item)
  put : Item → Option Aggregate → Aggregate
  count : Aggregate → Nat
  /-- The attribute that shows the count. -/
  countKey : String
  aggregates_ingest (t : InterfaceTable) (s : σ) (e : Event) :
    (window (ingest t s e)).aggregates =
      (item? t s e).elim (window s).aggregates fun p =>
        (window s).aggregates.alter p.1 fun b => some (put p.2 b)
  number_record (t : InterfaceTable) (time : Nanos) (f : Flow) (b : Aggregate) :
    (record t time f b).number countKey = (count b % UInt64.size : Nat)

namespace Windowed
open Aggregating Analyzing Folding

variable {σ : Type} [Windowed σ] [Folding σ]

/-- The aggregate that is held for a flow. -/
def live (k : Flow) (s : σ) : Option (Aggregate σ) := (window s).aggregates.find? k

/-- What the aggregates that are held count together. -/
def heldCount (s : σ) : Nat := (window s).aggregates.total count

theorem steady_live (k : Flow) : Steady (live (σ := σ) k) where
  restart s := by rw [live, window_restart]; rfl
  reorder s order := Keyed.same_iff.1 (perm_entries_reorder s order) k

theorem steady_heldCount : Steady (heldCount (σ := σ)) where
  restart s := by rw [heldCount, window_restart]; rfl
  reorder s order := by
    rw [heldCount, heldCount, Keyed.total_eq_sum, Keyed.total_eq_sum]
    exact ((perm_entries_reorder s order).map _).sum_eq

/-- What an act puts into the aggregates. -/
def Act.items : Act σ → List (Flow × Item σ)
  | ingest t s e => (item? t s e).toList
  | flush .. => []

/-- What a run puts into the aggregates. -/
def items (s : σ) (calls : List (Call σ)) : List (Flow × Item σ) :=
  (acts s calls).flatMap Act.items

theorem items_cons (s : σ) (call : Call σ) (rest : List (Call σ)) :
    items s (call :: rest) = (act? s call).toList.flatMap Act.items ++ items (step s call) rest :=
  List.flatMap_append

/-! ### The items of one flow -/

section Flow

variable (k : Flow)

/-- The items of a flow, in their order. -/
def itemsOf (l : List (Flow × Item σ)) : List (Item σ) := (l.filter fun p => p.1 = k).map Prod.snd

/-- The aggregates of a flow that were written, in their order. -/
def writtenOf (l : List (Emitted σ)) : List (Emitted σ) := l.filter fun e => e.flow = k

theorem itemsOf_append (l l' : List (Flow × Item σ)) :
    itemsOf k (l ++ l') = itemsOf k l ++ itemsOf k l' := by
  rw [itemsOf, List.filter_append, List.map_append]
  rfl

/-- An event puts an item into the aggregate of a flow, or leaves it alone. -/
theorem ingest_cases (t : InterfaceTable) (s : σ) (e : Analyzing.Event σ) :
    (∃ i, itemsOf k (Act.ingest t s e).items = [i] ∧
      live k (ingest t s e) = some (put i (live k s))) ∨
    (itemsOf k (Act.ingest t s e).items = [] ∧ live k (ingest t s e) = live k s) := by
  simp only [live, aggregates_ingest, Act.items, itemsOf]
  cases item? t s e with
  | none => exact .inr ⟨rfl, rfl⟩
  | some p =>
    rw [Option.toList_some, Option.elim_some, Keyed.find?_alter]
    by_cases hflow : p.1 = k
    · subst hflow
      exact .inl ⟨p.2, by simp, if_pos rfl⟩
    · exact .inr ⟨by simp [hflow], if_neg (Ne.symm hflow)⟩

/-- A flush takes the aggregate of a flow out and leaves none, or leaves it alone. -/
theorem flush_cases (t : InterfaceTable) (s : σ) (out : Buffer) :
    (∃ e, writtenOf k (Act.flush t s out).emits = [e] ∧ live k s = some e.aggregate ∧
      live k (flush t s out).state = none) ∨
    (writtenOf k (Act.flush t s out).emits = [] ∧ live k (flush t s out).state = live k s) := by
  have hown (s : σ) : ((entries s).filter fun e => e.1 = k).map Prod.snd = (live k s).toList := by
    rw [entries, Keyed.filter_entries, Keyed.own, List.map_map]
    exact List.map_id _
  have htaken : (writtenOf k (Act.flush t s out).emits).map Emitted.aggregate =
      (((entries s).take out.remaining).filter fun e => e.1 = k).map Prod.snd := by
    rw [writtenOf, Act.emits, List.filter_map, List.map_map]
    rfl
  have hleft : entries (flush t s out).state = (entries s).drop out.remaining := entries_flush t s out
  have hcut : (writtenOf k (Act.flush t s out).emits).map Emitted.aggregate ++
      (live k (flush t s out).state).toList = (live k s).toList := by
    rw [htaken, ← hown, ← hown, hleft, ← List.map_append, ← List.filter_append,
      List.take_append_drop]
  cases hwritten : writtenOf k (Act.flush t s out).emits with
  | nil =>
    rw [hwritten, List.map_nil, List.nil_append] at hcut
    exact .inr ⟨rfl, Option.ext fun b => by rw [← Option.mem_toList, hcut, Option.mem_toList]⟩
  | cons e others =>
    rw [hwritten, List.map_cons, List.cons_append] at hcut
    cases hlive : live k s with
    | none =>
      rw [hlive] at hcut
      cases hcut
    | some b =>
      rw [hlive, Option.toList_some, List.cons.injEq, List.append_eq_nil_iff,
        List.map_eq_nil_iff, Option.toList_eq_nil_iff] at hcut
      obtain ⟨rfl, rfl, hafter⟩ := hcut
      exact .inl ⟨e, rfl, rfl, hafter⟩

end Flow

/-- An aggregate of these items. -/
def folded (l : List (Item σ)) : Option (Aggregate σ) := l.foldl (fun b i => some (put i b)) none

theorem folded_concat (l : List (Item σ)) (i : Item σ) :
    folded (l ++ [i]) = some (put i (folded l)) := by
  rw [folded, List.foldl_append]
  rfl

/-- An item that adds one to the count of an aggregate. -/
def CountsOnce (i : Item σ) : Prop := ∀ b, count (put i b) = b.elim 0 count + 1

/-- Where every item counts once, an aggregate counts its items. -/
theorem count_folded {l : List (Item σ)} (h : ∀ i ∈ l, CountsOnce i) :
    (folded l).elim 0 count = l.length := by
  induction l using List.reverseRecOn with
  | nil => rfl
  | append_singleton l i ih =>
    have hlast : CountsOnce i := h i (by simp)
    rw [folded_concat, Option.elim_some, hlast, List.length_append,
      ih fun j hj => h j (List.mem_append_left _ hj)]
    rfl

theorem count_groups {written : List (Emitted σ)} {groups : List (List (Item σ))}
    (hwritten : List.Forall₂ (fun e group => folded group = some e.aggregate) written groups)
    (h : ∀ i ∈ groups.flatten, CountsOnce i) :
    (written.map fun e => count e.aggregate).sum = groups.flatten.length := by
  induction hwritten with
  | nil => rfl
  | @cons e group written groups hgroup _ ih =>
    rw [List.flatten_cons] at h ⊢
    have hone := count_folded fun i hi => h i (List.mem_append_left _ hi)
    rw [hgroup, Option.elim_some] at hone
    rw [List.map_cons, List.sum_cons, List.length_append, hone,
      ih fun i hi => h i (List.mem_append_right _ hi)]

/-- Items in groups that follow each other: one for each aggregate that was written, and the rest
for what is held. -/
def Grouped (items : List (Item σ)) (written : List (Emitted σ)) (held : Option (Aggregate σ)) :
    Prop :=
  ∃ groups rest, items = groups.flatten ++ rest ∧
    List.Forall₂ (fun e group => folded group = some e.aggregate) written groups ∧
    folded rest = held

namespace Grouped

variable {items : List (Item σ)} {written : List (Emitted σ)} {held : Option (Aggregate σ)}

theorem nil : Grouped (σ := σ) [] [] none := ⟨[], [], rfl, .nil, rfl⟩

/-- One more item goes to what is held. -/
theorem put (h : Grouped items written held) (i : Item σ) :
    Grouped (items ++ [i]) written (some (Folding.put i held)) := by
  obtain ⟨groups, rest, hitems, hwritten, hheld⟩ := h
  refine ⟨groups, rest ++ [i], ?_, hwritten, ?_⟩
  · rw [hitems, List.append_assoc]
  · rw [folded_concat, hheld]

/-- What is held is written, and what comes next is another group. -/
theorem write {e : Emitted σ} (h : Grouped items written (some e.aggregate)) :
    Grouped items (written ++ [e]) none := by
  obtain ⟨groups, rest, hitems, hwritten, hheld⟩ := h
  refine ⟨groups ++ [rest], [], ?_, List.rel_append hwritten (.cons hheld .nil), rfl⟩
  rw [hitems, List.flatten_append, List.flatten_singleton, List.append_nil]

theorem act (k : Flow) (a : Act σ) (h : Grouped items written (live k a.before)) :
    Grouped (items ++ itemsOf k a.items) (written ++ writtenOf k a.emits) (live k a.after) := by
  cases a with
  | ingest t s e =>
    have hwritten : written ++ writtenOf k (Act.ingest t s e).emits = written := List.append_nil _
    rw [hwritten, Act.after]
    rcases ingest_cases k t s e with ⟨i, hitems, hlive⟩ | ⟨hitems, hlive⟩
    · rw [hitems, hlive]
      exact h.put i
    · rw [hitems, hlive, List.append_nil]
      exact h
  | flush t s out =>
    have hitems : items ++ itemsOf k (Act.flush t s out).items = items := List.append_nil _
    rw [hitems, Act.after]
    rcases flush_cases k t s out with ⟨e, hwritten, hbefore, hlive⟩ | ⟨hwritten, hlive⟩
    · rw [Act.before, hbefore] at h
      rw [hwritten, hlive]
      exact h.write
    · rw [hwritten, hlive, List.append_nil]
      exact h

/-- Where every item counts once, what was written and what is held count the items. -/
theorem count (h : Grouped items written held) (honce : ∀ i ∈ items, CountsOnce i) :
    (written.map fun e => Folding.count e.aggregate).sum + held.elim 0 Folding.count =
      items.length := by
  obtain ⟨groups, rest, hitems, hwritten, hheld⟩ := h
  subst hitems
  rw [← hheld, count_folded fun i hi => honce i (List.mem_append_right _ hi), List.length_append,
    count_groups hwritten fun i hi => honce i (List.mem_append_left _ hi)]

end Grouped

/-- What a run writes of a flow and what it leaves are the items of the flow, in groups. -/
theorem grouped_run {s : σ} {k : Flow} (h : live k s = none) (calls : List (Call σ)) :
    Grouped (itemsOf k (items s calls)) (writtenOf k (history s calls)) (live k (run s calls)) := by
  refine acts_run (steady_live k)
    (P := fun l held => Grouped (itemsOf k (l.flatMap Act.items)) (writtenOf k (l.flatMap Act.emits))
      held) ?_ ?_
  · rw [h]
    exact .nil
  · intro l a _ hl
    rw [List.flatMap_append, List.flatMap_singleton, itemsOf_append, List.flatMap_append,
      List.flatMap_singleton, writtenOf, List.filter_append]
    exact hl.act k a

/-- Where nothing of a flow is written, its items are put one after the other into what was held. -/
theorem live_run_of_kept {s : σ} {k : Flow} {calls : List (Call σ)}
    (h : writtenOf k (history s calls) = []) :
    live k (run s calls) =
      (itemsOf k (items s calls)).foldl (fun b i => some (put i b)) (live k s) := by
  have hkept : ∀ a ∈ acts s calls, writtenOf k a.emits = [] := by
    intro a ha
    refine List.filter_eq_nil_iff.2 fun e he => ?_
    exact List.filter_eq_nil_iff.1 h e (List.mem_flatMap.2 ⟨a, ha, he⟩)
  refine acts_run (steady_live k)
    (P := fun l held => held = (itemsOf k (l.flatMap Act.items)).foldl (fun b i => some (put i b))
      (live k s)) rfl ?_
  intro l a ha hl
  rw [List.flatMap_append, List.flatMap_singleton, itemsOf_append, List.foldl_append, ← hl]
  cases a with
  | ingest t s e =>
    rcases ingest_cases k t s e with ⟨i, hitems, hlive⟩ | ⟨hitems, hlive⟩
    · rw [hitems]
      exact hlive
    · rw [hitems]
      exact hlive
  | flush t s out =>
    rcases flush_cases k t s out with ⟨e, hwritten, -, -⟩ | ⟨-, hlive⟩
    · rw [hkept _ ha] at hwritten
      cases hwritten
    · exact hlive

/-- What holds of no aggregate and is kept by every event of a run holds of what is left of a
flow. -/
theorem live_run_invariant {P : Option (Aggregate σ) → Prop} {t : InterfaceTable} {k : Flow}
    {calls : List (Call σ)} (htable : ∀ e ∈ intake calls, e.1 = t)
    (hingest : ∀ s e, P (live k s) → P (live k (ingest t s e))) (hnone : P none) {s : σ}
    (h : P (live k s)) : P (live k (run s calls)) := by
  refine held_run_invariant (steady_live k) htable hingest (fun t' s out hs => ?_) h
  rcases flush_cases k t' s out with ⟨e, -, -, hlive⟩ | ⟨-, hlive⟩
  · rw [hlive]
    exact hnone
  · rw [hlive]
    exact hs

/-! ### Counts -/

/-- An act whose items count once moves the rest of the counts from what is held to what is
written. -/
theorem counted_act {a : Act σ} (h : ∀ p ∈ a.items, CountsOnce p.2) :
    heldCount a.after + (a.emits.map fun e => count e.aggregate).sum =
      heldCount a.before + a.items.length := by
  cases a with
  | ingest t s e =>
    rw [Act.emits, List.map_nil, List.sum_nil, Nat.add_zero, Act.after, heldCount,
      aggregates_ingest]
    rw [Act.items] at h ⊢
    cases hitem : item? t s e with
    | none => rfl
    | some p =>
      have honce : CountsOnce p.2 := h p (by simp [hitem])
      have hmoved := (window s).aggregates.total_alter count p.1 fun b => some (put p.2 b)
      rw [Option.elim_some, honce] at hmoved
      rw [Option.toList_some, List.length_singleton, Option.elim_some, Act.before, heldCount]
      omega
  | flush t s out =>
    have hcut := congrArg (fun l => (l.map fun e => count e.2).sum)
      (List.take_append_drop out.remaining (entries s))
    simp only [List.map_append, List.sum_append] at hcut
    rw [Act.items, List.length_nil, Nat.add_zero, Act.emits, List.map_map, Act.after, Act.before,
      heldCount, Keyed.total_eq_sum, entries_flush, heldCount, Keyed.total_eq_sum, add_comm]
    exact hcut

/-- Where every item counts once, what is held and what was written count the items. -/
theorem counted_run {s : σ} {calls : List (Call σ)}
    (h : ∀ p ∈ items s calls, CountsOnce p.2) :
    heldCount (run s calls) + ((history s calls).map fun e => count e.aggregate).sum =
      heldCount s + (items s calls).length := by
  rw [history, items, sum_flatMap, List.length_flatMap]
  refine balance_run steady_heldCount fun a ha => counted_act fun p hp => ?_
  exact h p (List.mem_flatMap.2 ⟨a, ha, hp⟩)

/-! ### Counts that are read off records -/

/-- The counts that records show stand for those of their aggregates. -/
theorem inWords_records (l : List (Emitted σ)) :
    InWords (l.map fun e => e.record.number (countKey σ)).sum
      (l.map fun e => count e.aggregate).sum := by
  refine InWords.sum_map fun e _ => ?_
  rw [Emitted.record, number_record]
  exact InWords.word _

theorem inWords_output (s : σ) (calls : List (Call σ)) :
    InWords ((output s calls).map fun r => r.number (countKey σ)).sum
      ((history s calls).map fun e => count e.aggregate).sum := by
  rw [← map_record_history, List.map_map]
  exact inWords_records _

end Windowed

end FlowProbe
