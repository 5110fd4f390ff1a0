import FlowProbe.Proofs.Monitor.Blocks
import FlowProbe.Proofs.Window.Rounds
import Mathlib

/-! What a run does.

Of the calls of a run some do nothing to the aggregates: a poll before the window is over, a
restart, another order. What is left are its acts (`Act`): events that are taken in and flushes,
each with the state that it finds. Every account of a run is drawn up from them: what is gained
and lost in every act is gained and lost in the run (`balance_run`), and the records that the
calls append to their outputs are those of the aggregates that its flushes take out
(`map_record_history`). -/
namespace FlowProbe.Windowed
open Aggregating Analyzing

variable {σ : Type} [Windowed σ] [Analyzing σ]

/-- Whether a call flushes. A poll does so if the window is over. -/
def flushes (s : σ) : Call σ → Bool
  | .flush .. => true
  | .poll .. => (clock s).isDue
  | .ingest .. | .restart | .reorder _ => false

/-- A poll flushes and opens the next window, or does nothing. -/
theorem step_poll (s : σ) (t : InterfaceTable) (out : Buffer) :
    step s (.poll t out) =
      if (clock s).isDue then restart (flush t s out).state else s := by
  rw [step, poll]
  split <;> rfl

/-! ### Acts -/

/-- What moves the aggregates, with the state that it finds. -/
inductive Act (σ : Type) [Windowed σ] [Analyzing σ] where
  | ingest (t : InterfaceTable) (s : σ) (e : Analyzing.Event σ)
  | flush (t : InterfaceTable) (s : σ) (out : Buffer)

namespace Act

def before : Act σ → σ
  | ingest _ s _ => s
  | flush _ s _ => s

def after : Act σ → σ
  | ingest t s e => Analyzing.ingest t s e
  | flush t s out => (Windowed.flush t s out).state

end Act

/-- What a call does, if anything. -/
def act? (s : σ) : Call σ → Option (Act σ)
  | .ingest t e => some (.ingest t s e)
  | .flush t out => some (.flush t s out)
  | .poll t out => if (clock s).isDue then some (.flush t s out) else none
  | .restart | .reorder _ => none

/-- What a run does. -/
def acts (s : σ) : List (Call σ) → List (Act σ)
  | [] => []
  | call :: rest => (act? s call).toList ++ acts (step s call) rest

/-! ### Balances -/

/-- A quantity that does not show when a window opened and in what order the aggregates are. -/
structure Steady {α : Type} (held : σ → α) : Prop where
  restart (s : σ) : held (Windowed.restart s) = held s
  reorder (s : σ) (order : Keyed Flow (Aggregate σ)) : held (Windowed.reorder s order) = held s

theorem steady_counter (counter : Counters → Nat) : Steady fun s : σ => counter (counters s) where
  restart s := congrArg counter (counters_restart s)
  reorder s order := congrArg counter (counters_reorder s order)

/-- What is held moves with the acts alone. -/
theorem held_step {α : Type} {held : σ → α} (hsteady : Steady held) (s : σ) (call : Call σ) :
    held (step s call) = ((act? s call).map fun a => held a.after).getD (held s) := by
  cases call with
  | ingest t e => rfl
  | flush t out => rfl
  | poll t out =>
    rw [step_poll, act?]
    split
    · exact hsteady.restart _
    · rfl
  | restart => exact hsteady.restart s
  | reorder order => exact hsteady.reorder s order

/-- What events by one table and all flushes keep, a run by that table keeps. -/
theorem held_run_invariant {α : Type} {held : σ → α} (hsteady : Steady held) {P : α → Prop}
    {t : InterfaceTable} {calls : List (Call σ)} (htable : ∀ e ∈ intake calls, e.1 = t)
    (hingest : ∀ s e, P (held s) → P (held (ingest t s e)))
    (hflush : ∀ t s out, P (held s) → P (held (flush t s out).state)) {s : σ} (h : P (held s)) :
    P (held (run s calls)) := by
  refine run_invariant_of_mem (P := fun s => P (held s)) (fun s call hcall hs => ?_) h
  rw [held_step hsteady]
  cases call with
  | ingest t' e =>
    obtain rfl : t' = t := htable (t', e) (List.mem_filterMap.2 ⟨_, hcall, rfl⟩)
    exact hingest s e hs
  | flush t' out => exact hflush t' s out hs
  | poll t' out =>
    rw [act?]
    split
    · exact hflush t' s out hs
    · exact hs
  | restart | reorder => exact hs

theorem before_of_act? {s : σ} {call : Call σ} {a : Act σ} (h : act? s call = some a) :
    a.before = s := by
  cases call with
  | ingest | flush =>
    cases h
    rfl
  | poll =>
    rw [act?] at h
    split at h
    · cases h
      rfl
    · cases h
  | restart | reorder => cases h

/-- What holds of nothing done and of what is held at the start, and is kept by every act of a
run, holds of all its acts and of what is held at its end. -/
theorem acts_run {α : Type} {held : σ → α} (hsteady : Steady held)
    {P : List (Act σ) → α → Prop} {s : σ} {calls : List (Call σ)} (hnil : P [] (held s))
    (hact : ∀ l, ∀ a ∈ acts s calls, P l (held a.before) → P (l ++ [a]) (held a.after)) :
    P (acts s calls) (held (run s calls)) := by
  -- the acts that are done already are carried along in front
  suffices h : ∀ l, P l (held s) → P (l ++ acts s calls) (held (run s calls)) from h [] hnil
  clear hnil
  induction calls generalizing s with
  | nil =>
    intro l hl
    rw [acts, List.append_nil]
    exact hl
  | cons call rest ih =>
    intro l hl
    have hrest := ih (s := step s call) fun l a ha => hact l a (List.mem_append_right _ ha)
    rw [held_step hsteady] at hrest
    cases hcall : act? s call with
    | none =>
      rw [hcall] at hrest
      simp only [acts, hcall, Option.toList_none, List.nil_append]
      exact hrest l hl
    | some a =>
      rw [hcall] at hrest
      simp only [acts, hcall, Option.toList_some, ← List.append_assoc]
      refine hrest (l ++ [a]) (hact l a (List.mem_append_left _ (by simp [hcall])) ?_)
      rw [before_of_act? hcall]
      exact hl

section Balance

variable {held : σ → Nat} {gain loss : Act σ → Nat}

/-- What balances in every act of a run balances in the run. -/
theorem balance_run (hsteady : Steady held) {s : σ} {calls : List (Call σ)}
    (hact : ∀ a ∈ acts s calls, held a.after + loss a = held a.before + gain a) :
    held (run s calls) + ((acts s calls).map loss).sum =
      held s + ((acts s calls).map gain).sum := by
  refine acts_run (P := fun l x => x + (l.map loss).sum = held s + (l.map gain).sum) hsteady rfl ?_
  intro l a ha hl
  have hone := hact a ha
  simp only [List.map_append, List.sum_append, List.map_singleton, List.sum_singleton]
  omega

/-- What every act adds to, the run adds to. -/
theorem sum_run (hsteady : Steady held) {s : σ} {calls : List (Call σ)}
    (hact : ∀ a ∈ acts s calls, held a.after = held a.before + gain a) :
    held (run s calls) = held s + ((acts s calls).map gain).sum := by
  have hbalance : held (run s calls) + ((acts s calls).map fun _ => 0).sum = _ :=
    balance_run hsteady hact
  rwa [List.sum_map_zero, Nat.add_zero] at hbalance

/-- What the acts of a run yield weighs what each of them yields. -/
theorem sum_flatMap {α : Type} (weight : α → Nat) (f : Act σ → List α) (l : List (Act σ)) :
    ((l.flatMap f).map weight).sum = (l.map fun a => ((f a).map weight).sum).sum := by
  induction l with
  | nil => rfl
  | cons a rest ih =>
    rw [List.flatMap_cons, List.map_append, List.sum_append, ih, List.map_cons, List.sum_cons]

end Balance

section Perm

variable {α : Type} {held : σ → List α} {enters leaves lost : Act σ → List α}

/-- What trades one by one in every act of a run does so in the run, in any order. -/
theorem perm_run_of_act (hsteady : Steady held) {s : σ} {calls : List (Call σ)}
    (hact : ∀ a ∈ acts s calls, (held a.after ++ leaves a).Perm (held a.before ++ enters a)) :
    (held (run s calls) ++ (acts s calls).flatMap leaves).Perm
      (held s ++ (acts s calls).flatMap enters) := by
  refine acts_run (P := fun l x => (x ++ l.flatMap leaves).Perm (held s ++ l.flatMap enters))
    hsteady (.refl _) ?_
  intro l a ha hl
  have hswap (x y z : List α) : (x ++ y ++ z).Perm (x ++ z ++ y) := by
    rw [List.append_assoc, List.append_assoc]
    exact List.perm_append_comm.append_left x
  rw [List.flatMap_append, List.flatMap_singleton, List.flatMap_append, List.flatMap_singleton,
    ← List.append_assoc, ← List.append_assoc]
  exact (hswap _ _ _).trans (((hact a ha).append_right _).trans
    ((hswap _ _ _).trans (hl.append_right _)))

/-- What comes in is held, or leaves in one way or the other. -/
theorem perm_run (hsteady : Steady held) {s : σ} {calls : List (Call σ)}
    (hact : ∀ a ∈ acts s calls,
      (held a.after ++ (leaves a ++ lost a)).Perm (held a.before ++ enters a)) :
    (held (run s calls) ++ ((acts s calls).flatMap leaves ++ (acts s calls).flatMap lost)).Perm
      (held s ++ (acts s calls).flatMap enters) :=
  ((List.flatMap_append_perm _ _ _).append_left _).trans (perm_run_of_act hsteady hact)

end Perm

/-! ### Aggregates that are written -/

/-- An aggregate that was written, with what its record was made of. -/
structure Emitted (σ : Type) [Windowed σ] [Analyzing σ] where
  table : InterfaceTable
  time : Nanos
  flow : Flow
  aggregate : Aggregate σ

def Emitted.record (e : Emitted σ) : Record := Aggregating.record e.table e.time e.flow e.aggregate

/-- The aggregates that a flush takes out and writes. -/
def Act.emits : Act σ → List (Emitted σ)
  | ingest .. => []
  | flush t s out =>
    ((entries s).take out.remaining).map fun e => ⟨t, (window s).clock.latest, e.1, e.2⟩

/-- The aggregates that a run writes. -/
def history (s : σ) (calls : List (Call σ)) : List (Emitted σ) :=
  (acts s calls).flatMap Act.emits

/-- A run of events writes nothing. -/
theorem history_ingests (t : InterfaceTable) (s : σ) (events : List (Analyzing.Event σ)) :
    history s (events.map fun e => .ingest t e) = [] := by
  induction events generalizing s with
  | nil => rfl
  | cons e rest ih => exact ih (ingest t s e)

/-- What a call appends to its output. -/
def news (s : σ) : Call σ → List Record
  | .flush t out => (flush t s out).news out
  | .poll t out => (poll t s out).news out
  | .ingest .. | .restart | .reorder _ => []

/-- What a run appends to its outputs. -/
def output (s : σ) : List (Call σ) → List Record
  | [] => []
  | call :: rest => news s call ++ output (step s call) rest

theorem map_record_emits (t : InterfaceTable) (s : σ) (out : Buffer) :
    ((Act.flush t s out).emits).map Emitted.record = (flush t s out).news out := by
  rw [news_of_records (records_flush t s out), backlog_eq, ← List.map_take, Act.emits, List.map_map]
  rfl

theorem news_eq (s : σ) (call : Call σ) :
    news s call = (((act? s call).toList).flatMap Act.emits).map Emitted.record := by
  cases call with
  | ingest t e => rfl
  | flush t out =>
    rw [act?, Option.toList_some, List.flatMap_singleton, map_record_emits]
    rfl
  | poll t out =>
    rw [news, poll, act?]
    split
    · rw [Option.toList_some, List.flatMap_singleton, map_record_emits]
      rfl
    · exact news_of_out rfl
  | restart => rfl
  | reorder order => rfl

/-- The records of the aggregates that were written are what was written. -/
theorem map_record_history (s : σ) (calls : List (Call σ)) :
    (history s calls).map Emitted.record = output s calls := by
  induction calls generalizing s with
  | nil => rfl
  | cons call rest ih =>
    rw [history, acts, List.flatMap_append, List.map_append, output, news_eq]
    exact congrArg _ (ih (step s call))

end FlowProbe.Windowed
