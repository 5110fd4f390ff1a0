import FlowProbe.Proofs.Syscall.Sweep

/-! What becomes of a system call.

A call that a thread begins is under way until something ends it: the thread begins another one,
the call exits, it is erased, or a sweep evicts it. `ending` says what a single call of the
tracker does to the call that a thread has under way, and `fate` is the first ending in a run.
The calls have no order that anyone may rely on, yet a sweep comes to them in one; `reorder` lets
any order of them come up between two calls.
`perm_step` and `perm_written` say of one step that the tracker keeps what does not end and
writes the records of what ends; so after every run the calls that have not ended are the
tracked ones, and what was written is a record of each call that ended slowly or was reported,
and nothing else (`told_run`). Which call it was and how it ended is read off the record
(`Story.eq_of_record`). -/
namespace FlowProbe.SyscallTracker

/-! ### Runs -/

inductive Call where
  | enter (tid pid : UInt32) (kind : UInt16) (now : Nanos)
  | exit (tid : UInt32) (now : Nanos)
  | erase (tid : UInt32)
  | sweep (now : Nanos)
  | sweepInto (now : Nanos) (out : Buffer)
  | reorder (order : Keyed UInt32 Syscall)

def step (t : SyscallTracker) : Call → SyscallTracker
  | .enter tid pid kind now => t.enter tid pid kind now
  | .exit tid now => (t.exit tid now).1
  | .erase tid => t.erase tid
  | .sweep now => (t.sweep now).1
  | .sweepInto now out => (t.sweepInto now out).state
  | .reorder order => t.reorder order

def run (t : SyscallTracker) : List Call → SyscallTracker
  | [] => t
  | call :: rest => run (t.step call) rest

/-- The records that a call gives rise to: what an exit hands back, and what a sweep appends to
its output. -/
def written (t : SyscallTracker) : Call → List Record
  | .exit tid now => (t.exit tid now).2.toList
  | .sweepInto now out => (t.sweepInto now out).out.records.drop out.size
  | .enter .. | .erase _ | .sweep _ | .reorder _ => []

/-- The records that a run gives rise to. -/
def records (t : SyscallTracker) : List Call → List Record
  | [] => []
  | call :: rest => t.written call ++ (t.step call).records rest

theorem run_append (t : SyscallTracker) (calls more : List Call) :
    t.run (calls ++ more) = (t.run calls).run more := by
  induction calls generalizing t with
  | nil => rfl
  | cons call rest ih => exact ih (t.step call)

theorem records_append (t : SyscallTracker) (calls more : List Call) :
    t.records (calls ++ more) = t.records calls ++ (t.run calls).records more := by
  induction calls generalizing t with
  | nil => rfl
  | cons call rest ih =>
    rw [List.cons_append, records, ih, records, List.append_assoc]
    rfl

/-! ### Fates -/

/-- How a system call stops being under way. -/
inductive Ending where
  /-- Its thread began another one. -/
  | overwritten
  | exited (now : Nanos)
  | erased
  /-- A sweep without an output evicted it. -/
  | swept (now : Nanos)
  /-- A sweep with an output evicted it. -/
  | reported (now : Nanos)
  deriving DecidableEq, Repr

/-- What a call of the tracker does to the call that a thread has under way. One that is tracked
before a sweep and not after it was evicted. -/
def ending (t : SyscallTracker) (tid : UInt32) : Call → Option Ending
  | .enter tid' _ _ _ => if tid' = tid then some .overwritten else none
  | .exit tid' now => if tid' = tid then some (.exited now) else none
  | .erase tid' => if tid' = tid then some .erased else none
  | .sweep now => if (t.sweep now).1.isTracked tid then none else some (.swept now)
  | .sweepInto now out =>
    if (t.sweepInto now out).state.isTracked tid then none else some (.reported now)
  | .reorder _ => none

/-- The first ending of the call that a thread has under way, if a run ends it. -/
def fate (t : SyscallTracker) (tid : UInt32) : List Call → Option Ending
  | [] => none
  | call :: rest => (t.ending tid call).or ((t.step call).fate tid rest)

/-- The call that is begun, and its thread. -/
def Call.entry : Call → Option (UInt32 × Syscall)
  | .enter tid pid kind now => some (tid, { start := now, kind, pid })
  | .exit .. | .erase _ | .sweep _ | .sweepInto .. | .reorder _ => none

/-- A system call with what became of it. -/
structure Story where
  tid : UInt32
  call : Syscall
  ending : Option Ending
  deriving DecidableEq, Repr

/-- The record that a call gives rise to when it ends: one for a call that exits at the
threshold or later, one for a call that is reported, none otherwise. -/
def Ending.record? (threshold : Nanos) (tid : UInt32) (call : Syscall) : Ending → Option Record
  | .exited now =>
    let latency := Nanos.elapsed call.start now
    if latency < threshold then none else some (slowRecord tid call latency now)
  | .reported now => some (TimedOut.record now ⟨tid, call, Nanos.elapsed call.start now⟩)
  | .overwritten | .erased | .swept _ => none

theorem Ending.record?_cases {threshold : Nanos} {tid : UInt32} {call : Syscall} {ending : Ending}
    {r : Record} (h : ending.record? threshold tid call = some r) :
    (∃ now, ending = .exited now ∧ slowRecord tid call (Nanos.elapsed call.start now) now = r) ∨
      ∃ now, ending = .reported now ∧
        TimedOut.record now ⟨tid, call, Nanos.elapsed call.start now⟩ = r := by
  cases ending with
  | exited now =>
    rw [record?, Option.ite_none_left_eq_some, Option.some.injEq] at h
    exact .inl ⟨now, rfl, h.2⟩
  | reported now => exact .inr ⟨now, rfl, Option.some.inj h⟩
  | overwritten | erased | swept => cases h

namespace Story

def entry (s : Story) : UInt32 × Syscall := (s.tid, s.call)

def isOpen (s : Story) : Bool := s.ending.isNone

def record? (threshold : Nanos) (s : Story) : Option Record :=
  s.ending.bind (Ending.record? threshold s.tid s.call)

/-- A record tells which call ended, and how. -/
theorem eq_of_record {threshold : Nanos} {s s' : Story} {r : Record}
    (h : s.record? threshold = some r) (h' : s'.record? threshold = some r) : s = s' := by
  have hnames : SyscallTracker.slowName ≠ TimedOut.recordName := by decide
  obtain ⟨tid, call, ending⟩ := s
  obtain ⟨tid', call', ending'⟩ := s'
  obtain ⟨ending, rfl, hr⟩ := Option.bind_eq_some_iff.1 h
  obtain ⟨ending', rfl, hr'⟩ := Option.bind_eq_some_iff.1 h'
  rcases Ending.record?_cases hr with ⟨now, rfl, rfl⟩ | ⟨now, rfl, rfl⟩
  · rcases Ending.record?_cases hr' with ⟨now', rfl, hsame⟩ | ⟨now', rfl, hsame⟩
    · obtain ⟨rfl, rfl, -, rfl⟩ := slowRecord_inj hsame
      rfl
    · exact absurd (congrArg Record.name hsame).symm hnames
  · rcases Ending.record?_cases hr' with ⟨now', rfl, hsame⟩ | ⟨now', rfl, hsame⟩
    · exact absurd (congrArg Record.name hsame) hnames
    · obtain ⟨rfl, hcall⟩ := TimedOut.record_inj hsame
      cases hcall
      rfl

end Story

/-- The story that a run tells of a call that is under way at its start. -/
def story (t : SyscallTracker) (calls : List Call) (e : UInt32 × Syscall) : Story :=
  ⟨e.1, e.2, t.fate e.1 calls⟩

/-- The stories of the calls that a run begins, in their order. -/
def begun (t : SyscallTracker) : List Call → List Story
  | [] => []
  | call :: rest => call.entry.toList.map ((t.step call).story rest) ++ (t.step call).begun rest

/-- The stories of the calls that a run finds under way and of those that it begins. -/
def stories (t : SyscallTracker) (calls : List Call) : List Story :=
  t.calls.entries.map (t.story calls) ++ t.begun calls

theorem fate_append (t : SyscallTracker) (tid : UInt32) (calls more : List Call) :
    t.fate tid (calls ++ more) = (t.fate tid calls).or ((t.run calls).fate tid more) := by
  induction calls generalizing t with
  | nil => rfl
  | cons call rest ih =>
    rw [List.cons_append, fate, ih, fate, Option.or_assoc]
    rfl

/-- A call is under way only as long as its thread begins no other. -/
theorem ne_of_fate_eq_none {t : SyscallTracker} {tid : UInt32} {calls : List Call}
    (h : t.fate tid calls = none) : ∀ e ∈ calls.filterMap Call.entry, e.1 ≠ tid := by
  induction calls generalizing t with
  | nil => exact nofun
  | cons call rest ih =>
    rw [fate, Option.or_eq_none_iff] at h
    intro e he
    rw [List.mem_filterMap] at he
    obtain ⟨c, hc, he⟩ := he
    rcases List.mem_cons.1 hc with rfl | hc
    · cases c with
      | enter tid' pid kind now =>
        cases he
        intro htid
        have hending := h.1
        rw [ending, if_pos htid] at hending
        cases hending
      | _ => cases he
    · exact ih h.2 e (List.mem_filterMap.2 ⟨c, hc, he⟩)

theorem entry_begun (t : SyscallTracker) (calls : List Call) :
    (t.begun calls).map Story.entry = calls.filterMap Call.entry := by
  induction calls generalizing t with
  | nil => rfl
  | cons call rest ih =>
    rw [begun, List.map_append, List.map_map, ih]
    have hid : Story.entry ∘ (t.step call).story rest = id := rfl
    rw [hid, List.map_id]
    cases call <;> rfl

/-! ### One step -/

theorem threshold_evict (t : SyscallTracker) (evicted : List TimedOut) :
    (t.evict evicted).threshold = t.threshold := by
  rw [evict_eq_calls]

theorem threshold_step (t : SyscallTracker) (call : Call) :
    (t.step call).threshold = t.threshold := by
  cases call with
  | enter tid pid kind now => rfl
  | exit tid now =>
    rw [step, exit]
    cases t.find? tid <;> rfl
  | erase tid => rfl
  | sweep now => exact threshold_evict ..
  | sweepInto now out => exact threshold_evict ..
  | reorder order => rfl

theorem isTracked_evict {t : SyscallTracker} {evicted : List TimedOut} {e : UInt32 × Syscall}
    (he : e ∈ t.calls.entries) :
    (t.evict evicted).isTracked e.1 = decide (e.1 ∉ evicted.map TimedOut.tid) := by
  rw [isTracked, Bool.eq_iff_iff, Keyed.contains_iff, Keyed.keys, entries_evict, List.mem_map,
    decide_eq_true_eq]
  constructor
  · rintro ⟨e', he', htid⟩
    exact htid ▸ of_decide_eq_true (List.mem_filter.1 he').2
  · exact fun h => ⟨e, List.mem_filter.2 ⟨he, decide_eq_true h⟩, rfl⟩

theorem ending_sweep (t : SyscallTracker) (now : Nanos) {e : UInt32 × Syscall}
    (he : e ∈ t.calls.entries) :
    t.ending e.1 (.sweep now) =
      if e.1 ∈ (t.overdue now).map TimedOut.tid then some (.swept now) else none := by
  simp only [ending, sweep_eq, isTracked_evict he, decide_eq_true_eq, ite_not]

theorem ending_sweepInto (t : SyscallTracker) (now : Nanos) (out : Buffer)
    {e : UInt32 × Syscall} (he : e ∈ t.calls.entries) :
    t.ending e.1 (.sweepInto now out) =
      if e.1 ∈ (t.taken now out.remaining).map TimedOut.tid then
        some (.reported now) else none := by
  simp only [ending, state_sweepInto, isTracked_evict he, decide_eq_true_eq, ite_not]

/-- A step keeps the calls that it does not end, and tracks the one that it begins. -/
theorem perm_step (t : SyscallTracker) (call : Call) :
    (t.step call).calls.entries.Perm
      ((t.calls.entries.filter fun e => (t.ending e.1 call).isNone) ++ call.entry.toList) := by
  have hothers : ∀ (tid : UInt32) (ending : Ending), (t.calls.entries.filter fun e =>
      (if tid = e.1 then some ending else none).isNone) = t.calls.others tid := by
    intro tid ending
    refine List.filter_congr fun e _ => ?_
    by_cases htid : tid = e.1
    · simp [htid]
    · simp [htid, Ne.symm htid]
  cases call with
  | enter tid pid kind now =>
    simp only [ending]
    rw [hothers]
    exact (t.calls.perm_alter tid _).trans List.perm_append_comm
  | exit tid now =>
    simp only [ending]
    rw [hothers, Call.entry, Option.toList_none, List.append_nil, step, exit]
    cases hfind : t.find? tid with
    | none => exact .of_eq (Keyed.others_eq_entries hfind).symm
    | some _ => exact .of_eq (Keyed.entries_erase t.calls tid)
  | erase tid =>
    simp only [ending]
    rw [hothers, Call.entry, Option.toList_none, List.append_nil]
    exact .of_eq (Keyed.entries_erase t.calls tid)
  | sweep now =>
    rw [Call.entry, Option.toList_none, List.append_nil, step, sweep_eq, entries_evict]
    refine .of_eq (List.filter_congr fun e he => ?_)
    rw [ending_sweep t now he]
    split <;> simp_all
  | sweepInto now out =>
    rw [Call.entry, Option.toList_none, List.append_nil, step, state_sweepInto, entries_evict]
    refine .of_eq (List.filter_congr fun e he => ?_)
    rw [ending_sweepInto t now out he]
    split <;> simp_all
  | reorder order =>
    have hall : (t.calls.entries.filter fun e => (t.ending e.1 (.reorder order)).isNone) =
        t.calls.entries := List.filter_eq_self.2 fun _ _ => rfl
    rw [hall, Call.entry, Option.toList_none, List.append_nil]
    exact t.perm_reorder order

/-- What a sweep takes, read off the entries. -/
theorem perm_taken_entries (t : SyscallTracker) (now : Nanos) (limit : Nat) :
    (t.taken now limit).Perm
      ((t.calls.entries.filter fun e => e.1 ∈ (t.taken now limit).map TimedOut.tid).map
        fun e => ⟨e.1, e.2, Nanos.elapsed e.2.start now⟩) := by
  have hsubset := t.taken_subset_overdue now limit
  refine (List.perm_ext_iff_of_nodup (t.nodup_taken now limit).of_map ?_).2 fun o => ?_
  · refine List.Nodup.of_map TimedOut.tid ?_
    rw [List.map_map]
    exact t.calls.distinct.sublist (List.filter_sublist.map Prod.fst)
  · rw [List.mem_map]
    constructor
    · intro ho
      obtain ⟨hmem, -, helapsed⟩ := mem_overdue_iff.1 (hsubset ho)
      refine ⟨(o.tid, o.call), List.mem_filter.2 ⟨hmem, ?_⟩, ?_⟩
      · exact decide_eq_true (List.mem_map_of_mem ho)
      · rw [← helapsed]
    · rintro ⟨e, he, rfl⟩
      obtain ⟨hmem, htid⟩ := List.mem_filter.1 he
      obtain ⟨o, ho, htid⟩ := List.mem_map.1 (of_decide_eq_true htid)
      rw [← eq_of_mem_overdue (hsubset ho) hmem htid]
      exact ho

theorem written_sweepInto (t : SyscallTracker) (now : Nanos) (out : Buffer) :
    t.written (.sweepInto now out) =
      (t.taken now out.remaining).map (TimedOut.record now) := by
  rw [written, records_sweepInto, Buffer.size, List.drop_left]

/-- What a step writes are the records of the calls that it ends. -/
theorem perm_written (t : SyscallTracker) (call : Call) :
    (t.written call).Perm (t.calls.entries.filterMap fun e =>
      (t.ending e.1 call).bind (Ending.record? t.threshold e.1 e.2)) := by
  cases call with
  | enter | erase | sweep =>
    -- these end calls without a record
    refine .of_eq (List.filterMap_eq_nil_iff.2 fun e _ => ?_).symm
    rw [ending]
    split <;> rfl
  | exit tid now =>
    refine .trans (.of_eq ?_) ((t.calls.perm_entries tid).filterMap _).symm
    have hothers : ((t.calls.others tid).filterMap fun e =>
        (t.ending e.1 (.exit tid now)).bind (Ending.record? t.threshold e.1 e.2)) = [] := by
      refine List.filterMap_eq_nil_iff.2 fun e he => ?_
      rw [ending, if_neg (Ne.symm (Keyed.mem_others.1 he).1)]
      rfl
    rw [List.filterMap_append, hothers, List.append_nil, written, exit, find?]
    cases t.calls.find? tid with
    | none => rfl
    | some call =>
      simp only [Keyed.own_some, List.filterMap_cons, List.filterMap_nil, ending, if_true,
        Option.bind_some, Ending.record?]
      split <;> rfl
  | sweepInto now out =>
    have hmap : (t.calls.entries.filterMap fun e =>
        (t.ending e.1 (.sweepInto now out)).bind (Ending.record? t.threshold e.1 e.2)) =
        ((t.calls.entries.filter fun e =>
          e.1 ∈ (t.taken now out.remaining).map TimedOut.tid).map fun e =>
            ⟨e.1, e.2, Nanos.elapsed e.2.start now⟩).map (TimedOut.record now) := by
      rw [List.map_map, ← List.filterMap_eq_map, List.filterMap_filter]
      refine List.filterMap_congr fun e he => ?_
      rw [ending_sweepInto t now out he]
      split <;> simp_all [Ending.record?]
    rw [hmap, written_sweepInto]
    exact (t.perm_taken_entries now out.remaining).map _
  | reorder order => exact .of_eq (List.filterMap_eq_nil_iff.2 fun _ _ => rfl).symm

/-! ### Runs of stories -/

/-- The stories that a step brings to an end. -/
def ended (t : SyscallTracker) (call : Call) : List Story :=
  t.calls.entries.filterMap fun e => (t.ending e.1 call).map fun ending => ⟨e.1, e.2, some ending⟩

/-- What `f` is undecided about is left to `g`. -/
theorem perm_map_getD {α β : Type} (f : α → Option β) (g : α → β) (l : List α) :
    (l.map fun a => (f a).getD (g a)).Perm
      (l.filterMap f ++ (l.filter fun a => (f a).isNone).map g) := by
  induction l with
  | nil => rfl
  | cons a rest ih =>
    cases h : f a with
    | none => simpa [h] using (ih.cons _).trans List.perm_middle.symm
    | some b => simpa [h] using ih

/-- A step ends some stories, and the rest of the run tells the others. -/
theorem perm_stories_cons (t : SyscallTracker) (call : Call) (rest : List Call) :
    (t.stories (call :: rest)).Perm (t.ended call ++ (t.step call).stories rest) := by
  have hstory : t.story (call :: rest) = fun e =>
      ((t.ending e.1 call).map fun ending => (⟨e.1, e.2, some ending⟩ : Story)).getD
        ((t.step call).story rest e) := by
    funext e
    rw [story, fate]
    cases t.ending e.1 call <;> rfl
  have hfound := perm_map_getD (fun e => (t.ending e.1 call).map fun ending =>
    (⟨e.1, e.2, some ending⟩ : Story)) ((t.step call).story rest) t.calls.entries
  simp only [Option.isNone_map] at hfound
  rw [← hstory, ← ended] at hfound
  have hkept := ((t.perm_step call).map ((t.step call).story rest)).symm
  rw [List.map_append] at hkept
  rw [stories, begun, stories, ← List.append_assoc, ← List.append_assoc]
  refine .append_right _ ((hfound.append_right _).trans ?_)
  rw [List.append_assoc]
  exact hkept.append_left _

theorem filter_isOpen_ended (t : SyscallTracker) (call : Call) :
    (t.ended call).filter Story.isOpen = [] := by
  refine List.filter_eq_nil_iff.2 fun s hs => ?_
  obtain ⟨e, _, he⟩ := List.mem_filterMap.1 hs
  obtain ⟨ending, _, rfl⟩ := Option.map_eq_some_iff.1 he
  exact Bool.false_ne_true

theorem perm_written_ended (t : SyscallTracker) (call : Call) :
    (t.written call).Perm ((t.ended call).filterMap (Story.record? t.threshold)) := by
  rw [ended, List.filterMap_filterMap]
  refine (t.perm_written call).trans (.of_eq (List.filterMap_congr fun e _ => ?_))
  cases t.ending e.1 call <;> rfl

theorem ending_of_mem_stories_nil {t : SyscallTracker} {s : Story} (h : s ∈ t.stories []) :
    s.ending = none := by
  rw [stories, begun, List.append_nil] at h
  obtain ⟨e, _, rfl⟩ := List.mem_map.1 h
  rfl

/-- The open stories of a run are those of the calls that are tracked after it. -/
theorem perm_isOpen (t : SyscallTracker) (calls : List Call) :
    (((t.stories calls).filter Story.isOpen).map Story.entry).Perm
      (t.run calls).calls.entries := by
  induction calls generalizing t with
  | nil =>
    have hopen : (t.stories []).filter Story.isOpen = t.stories [] :=
      List.filter_eq_self.2 fun s hs => by rw [Story.isOpen, ending_of_mem_stories_nil hs]; rfl
    rw [hopen, stories, begun, List.append_nil, List.map_map]
    exact .of_eq (List.map_id _)
  | cons call rest ih =>
    refine (((t.perm_stories_cons call rest).filter _).map _).trans ?_
    rw [List.filter_append, filter_isOpen_ended, List.nil_append]
    exact ih (t.step call)

/-- The records of a run are those of its stories. -/
theorem perm_records (t : SyscallTracker) (calls : List Call) :
    (t.records calls).Perm ((t.stories calls).filterMap (Story.record? t.threshold)) := by
  induction calls generalizing t with
  | nil =>
    refine .of_eq (List.filterMap_eq_nil_iff.2 fun s hs => ?_).symm
    rw [Story.record?, ending_of_mem_stories_nil hs]
    rfl
  | cons call rest ih =>
    refine .trans ?_ ((t.perm_stories_cons call rest).filterMap _).symm
    rw [records, List.filterMap_append, ← t.threshold_step call]
    exact (t.threshold_step call ▸ t.perm_written_ended call).append (ih (t.step call))

/-- How a story goes on: one that has ended stays as it is. -/
def resume (t : SyscallTracker) (calls : List Call) (s : Story) : Story :=
  { s with ending := s.ending.or (t.fate s.tid calls) }

theorem story_append (t : SyscallTracker) (calls more : List Call) (e : UInt32 × Syscall) :
    t.story (calls ++ more) e = (t.run calls).resume more (t.story calls e) := by
  rw [story, fate_append]
  rfl

theorem begun_append (t : SyscallTracker) (calls more : List Call) :
    t.begun (calls ++ more) =
      (t.begun calls).map ((t.run calls).resume more) ++ (t.run calls).begun more := by
  induction calls generalizing t with
  | nil => rfl
  | cons call rest ih =>
    rw [List.cons_append, begun, ih, begun, List.map_append, List.append_assoc, List.map_map]
    exact congrArg (· ++ _) (List.map_congr_left fun e _ => (t.step call).story_append rest more e)

/-- The stories go on from where a run leaves them. -/
theorem stories_append (t : SyscallTracker) (calls more : List Call) :
    t.stories (calls ++ more) =
      (t.stories calls).map ((t.run calls).resume more) ++ (t.run calls).begun more := by
  rw [stories, begun_append, stories, List.map_append, List.append_assoc, List.map_map]
  exact congrArg (· ++ _) (List.map_congr_left fun e _ => t.story_append calls more e)

/-- An open story is the last one of its thread. -/
theorem pairwise_stories (t : SyscallTracker) (calls : List Call) :
    (t.stories calls).Pairwise fun s later => s.isOpen = true → later.tid ≠ s.tid := by
  have hbegun : ∀ {t : SyscallTracker} {calls : List Call} {tid : UInt32} {later : Story},
      (t.fate tid calls).isNone = true → later ∈ t.begun calls → later.tid ≠ tid := by
    intro t calls tid later hopen hlater
    refine ne_of_fate_eq_none (Option.isNone_iff_eq_none.1 hopen) later.entry ?_
    exact t.entry_begun calls ▸ List.mem_map_of_mem hlater
  have hrun : (t.begun calls).Pairwise fun s later => s.isOpen = true → later.tid ≠ s.tid := by
    induction calls generalizing t with
    | nil => exact .nil
    | cons call rest ih =>
      refine List.pairwise_append.2 ⟨?_, ih (t.step call), ?_⟩
      · cases call.entry <;> simp
      · intro s hs later hlater hopen
        obtain ⟨e, _, rfl⟩ := List.mem_map.1 hs
        exact hbegun hopen hlater
  refine List.pairwise_append.2 ⟨?_, hrun, ?_⟩
  · rw [List.pairwise_map]
    have hdistinct := t.calls.distinct
    rw [List.Nodup, List.pairwise_map] at hdistinct
    exact hdistinct.imp fun h _ => h.symm
  · intro s hs later hlater hopen
    obtain ⟨e, _, rfl⟩ := List.mem_map.1 hs
    exact hbegun hopen hlater

/-- What a run says of its system calls: each of them has one story, which goes on with the run
until it ends. The open ones are those of the calls that the tracker still holds, each the last
of its thread, and what the run gives rise to are the records of the others, each of which tells
its story. -/
structure Told (t : SyscallTracker) (calls : List Call) : Prop where
  entries : (t.stories calls).map Story.entry = t.calls.entries ++ calls.filterMap Call.entry
  isOpen : (((t.stories calls).filter Story.isOpen).map Story.entry).Perm
    (t.run calls).calls.entries
  latest : (t.stories calls).Pairwise fun s later => s.isOpen = true → later.tid ≠ s.tid
  goesOn : ∀ more, t.stories (calls ++ more) =
    (t.stories calls).map ((t.run calls).resume more) ++ (t.run calls).begun more
  records : (t.records calls).Perm ((t.stories calls).filterMap (Story.record? t.threshold))
  tells : ∀ s s' : Story, ∀ r, s.record? t.threshold = some r →
    s'.record? t.threshold = some r → s = s'

theorem told_run (t : SyscallTracker) (calls : List Call) : t.Told calls where
  entries := by
    have hid : Story.entry ∘ t.story calls = id := rfl
    rw [stories, List.map_append, entry_begun, List.map_map, hid, List.map_id]
  isOpen := t.perm_isOpen calls
  latest := t.pairwise_stories calls
  goesOn := t.stories_append calls
  records := t.perm_records calls
  tells _ _ _ := Story.eq_of_record

end FlowProbe.SyscallTracker
