import FlowProbe.Keyed
import FlowProbe.Telemetry.Buffer

/-! System calls that take too long.

A thread has at most one call under way. A call that ends after the latency threshold or
later is reported as slow; one that is still under way after the timeout is evicted by a
sweep. A sweep takes the calls past the timeout as it comes to them. Only where its output
has no room for all of them does it put them in order, the oldest first and those that began
together by their threads, and take the first ones. -/
namespace FlowProbe

structure Syscall where
  start : Nanos := 0
  kind : UInt16 := 0
  pid : UInt32 := 0
  deriving DecidableEq, Repr, Inhabited

/-- A call that a sweep finds past the timeout. -/
structure TimedOut where
  tid : UInt32
  call : Syscall
  elapsed : Nanos
  deriving DecidableEq, Repr

namespace TimedOut

def recordName : String := "syscall_timeout"

def record (now : Nanos) (t : TimedOut) : Record :=
  { name := recordName, time := now,
    attributes := [⟨"tid", .u32 t.tid⟩, ⟨"pid", .u32 t.call.pid⟩,
      ⟨"syscall_type", .u16 t.call.kind⟩, ⟨"start_time", .u64 t.call.start⟩,
      ⟨"elapsed", .u64 t.elapsed⟩] }

/-- Older calls come first, and threads in their order. -/
def before (a b : TimedOut) : Bool :=
  a.call.start < b.call.start || (a.call.start == b.call.start && a.tid ≤ b.tid)

end TimedOut

structure SyscallTracker where
  threshold : Nanos
  timeout : Nanos
  calls : Keyed UInt32 Syscall := .empty
  deriving DecidableEq, Repr

namespace SyscallTracker

def slowName : String := "slow_syscall"

def size (t : SyscallTracker) : Nat := t.calls.size

def isEmpty (t : SyscallTracker) : Bool := t.calls.isEmpty

def isTracked (t : SyscallTracker) (tid : UInt32) : Bool := t.calls.contains tid

def insert (t : SyscallTracker) (tid : UInt32) (call : Syscall) : SyscallTracker :=
  { t with calls := t.calls.insert tid call }

def erase (t : SyscallTracker) (tid : UInt32) : SyscallTracker :=
  { t with calls := t.calls.erase tid }

def find? (t : SyscallTracker) (tid : UInt32) : Option Syscall := t.calls.find? tid

/-- The call of a thread, which is tracked from then on if it was not. -/
def get (t : SyscallTracker) (tid : UInt32) : SyscallTracker × Syscall :=
  match t.find? tid with
  | some call => (t, call)
  | none => (t.insert tid {}, {})

def enter (t : SyscallTracker) (tid pid : UInt32) (kind : UInt16) (now : Nanos) :
    SyscallTracker :=
  t.insert tid { start := now, kind, pid }

def slowRecord (tid : UInt32) (call : Syscall) (latency now : Nanos) : Record :=
  { name := slowName, time := now,
    attributes := [⟨"tid", .u32 tid⟩, ⟨"pid", .u32 call.pid⟩, ⟨"syscall_type", .u16 call.kind⟩,
      ⟨"latency", .u64 latency⟩, ⟨"start_time", .u64 call.start⟩] }

/-- Ends the call of a thread, and reports it if it was slow. -/
def exit (t : SyscallTracker) (tid : UInt32) (now : Nanos) : SyscallTracker × Option Record :=
  match t.find? tid with
  | none => (t, none)
  | some call =>
    let latency := Nanos.elapsed call.start now
    (t.erase tid, if latency < t.threshold then none else some (slowRecord tid call latency now))

/-- The calls past the timeout, in the order of the entries. -/
def expired (t : SyscallTracker) (now : Nanos) : List TimedOut :=
  t.calls.entries.filterMap fun (tid, call) =>
    let elapsed := Nanos.elapsed call.start now
    if t.timeout ≤ elapsed then some { tid, call, elapsed } else none

/-- What a sweep takes that may take so many: all calls past the timeout as they come, or the
first of them in order if they are more. -/
def taken (t : SyscallTracker) (now : Nanos) (limit : Nat) : List TimedOut :=
  let found := t.expired now
  if limit < found.length then (found.mergeSort TimedOut.before).take limit else found

def evict (t : SyscallTracker) (evicted : List TimedOut) : SyscallTracker :=
  evicted.foldl (fun t e => t.erase e.tid) t

/-- Evicts no more than so many calls past the timeout. -/
def sweepLimited (t : SyscallTracker) (now : Nanos) (limit : Nat) :
    SyscallTracker × List TimedOut :=
  (t.evict (t.taken now limit), t.taken now limit)

/-- Evicts every call past the timeout: the limit is the greatest word. -/
def sweep (t : SyscallTracker) (now : Nanos) : SyscallTracker × List TimedOut :=
  t.sweepLimited now (UInt64.size - 1)

/-- Evicts as many calls past the timeout as `out` has room for, and pushes a record for each
without a look at whether it went in. -/
def sweepInto (t : SyscallTracker) (now : Nanos) (out : Buffer) : Written SyscallTracker :=
  let (swept, evicted) := t.sweepLimited now out.remaining
  ⟨swept, out.offer (evicted.map (TimedOut.record now)), evicted.length⟩

theorem taken_subset (t : SyscallTracker) (now : Nanos) (limit : Nat) :
    t.taken now limit ⊆ t.expired now := by
  intro e he
  rw [taken] at he
  split at he
  · exact List.mem_mergeSort.1 (List.mem_of_mem_take he)
  · exact he

theorem mem_keys_of_expired {t : SyscallTracker} {now : Nanos} {e : TimedOut}
    (h : e ∈ t.expired now) : e.tid ∈ t.calls.keys := by
  rw [expired, List.mem_filterMap] at h
  obtain ⟨⟨tid, call⟩, hmem, he⟩ := h
  rw [Option.ite_none_right_eq_some, Option.some.injEq] at he
  obtain ⟨_, rfl⟩ := he
  exact List.mem_map_of_mem hmem

theorem size_evict_le (t : SyscallTracker) (evicted : List TimedOut) :
    (t.evict evicted).size ≤ t.size := by
  induction evicted generalizing t with
  | nil => exact Nat.le_refl _
  | cons e rest ih => exact Nat.le_trans (ih (t.erase e.tid)) (t.calls.size_erase_le e.tid)

/-- A sweep that reports a call has fewer left to track. -/
theorem size_sweepInto_lt {t : SyscallTracker} {now : Nanos} {out : Buffer}
    (h : (t.sweepInto now out).count ≠ 0) : (t.sweepInto now out).state.size < t.size := by
  have hsubset := t.taken_subset now out.remaining
  rw [sweepInto, sweepLimited] at h ⊢
  cases htaken : t.taken now out.remaining with
  | nil =>
    rw [htaken] at h
    exact absurd rfl h
  | cons e rest =>
    have hmem : e ∈ t.expired now := hsubset (htaken ▸ List.mem_cons_self)
    exact Nat.lt_of_le_of_lt ((t.erase e.tid).size_evict_le rest)
      (Keyed.size_erase_lt (mem_keys_of_expired hmem))

end SyscallTracker

end FlowProbe
