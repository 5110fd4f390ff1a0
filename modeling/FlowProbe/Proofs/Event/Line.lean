import FlowProbe.Event.Line
import FlowProbe.Proofs.Net.Ipv4
import FlowProbe.Proofs.Text.Blank
import FlowProbe.Proofs.Text.Json.Values

/-! Reading back the line of an event.

An event may be written with its members in any order, and without those that have the value they
default to (`Event.ListedBy`). A field finds its member in such a list, or finds none and falls back
on that value (`ListedBy.required`, `ListedBy.defaulted`), so the members read back as the event
(`ListedBy.ofJson?`). -/
namespace FlowProbe

/-! ### Values -/

namespace Json

@[simp] theorem ipv4?_dotted (ip : Ipv4) : ipv4? (.str ip.dotted) = some ip :=
  ip.ofDotted?_dotted

@[simp] theorem choice?_flag (f : TcpFlag) : choice? TcpFlag.options (.str f.label) = some f := by
  cases f <;> rfl

@[simp] theorem choice?_hint (h : CaptureHint) :
    choice? CaptureHint.options (.str h.label) = some h := by
  cases h <;> rfl

@[simp] theorem choice?_op (o : FocusOp) : choice? FocusOp.options (.str o.label) = some o := by
  cases o <;> rfl

@[simp] theorem list?_flags (flags : List TcpFlag) :
    list? (choice? TcpFlag.options) (.arr (flags.map fun f => .str f.label)) = some flags :=
  list?_map choice?_flag flags

theorem kind?_label (k : EventKind) : Event.kind? (.str k.label) = some k := by
  cases k <;> rfl

end Json

/-! ### Members -/

namespace Fields

variable {ν α : Type} {ms omitted full : Fields ν} {name : String} {v : ν}

/-- What is left of the only member of a name in a part of the members: that member, or none. -/
theorem named_of_perm (h : (ms ++ omitted).Perm full) (hfull : full.named name = [v]) :
    ms.named name = [v] ∨ (ms.named name = [] ∧ (name, v) ∈ omitted) := by
  have hperm : (ms.named name ++ omitted.named name).Perm (full.named name) := by
    rw [named, named, ← List.map_append, ← List.filter_append]
    exact (h.filter _).map _
  rw [hfull, List.perm_singleton, List.append_eq_singleton_iff] at hperm
  rcases hperm with ⟨hms, homitted⟩ | ⟨hms, -⟩
  · right
    have hmem : v ∈ omitted.named name := homitted ▸ List.mem_singleton_self v
    obtain ⟨m, hm, rfl⟩ := List.mem_map.1 hmem
    obtain ⟨hm, hname⟩ := List.mem_filter.1 hm
    exact ⟨hms, (of_decide_eq_true hname) ▸ hm⟩
  · exact .inl hms

end Fields

namespace EventKind

/-- The members that an event of this kind may be written without. -/
def defaults : EventKind → Members
  | .segment =>
    [("flags", .arr []), ("seq", .int 0), ("ack_seq", .int 0), ("direction", .str "unknown")]
  | .reported => [("seq", .int 0), ("ack_seq", .int 0), ("direction", .str "unknown")]
  | .focusPod | .syscallEnter | .syscallExit => []

end EventKind

namespace Event

/-- All members of the object that an event is written as. -/
def fields (e : Event) : Members := ("kind", .str e.kind.label) :: e.members

/-- The members are those of the event, in any order, and none is left out but with the value that
it defaults to. -/
def ListedBy (e : Event) (ms : Members) : Prop :=
  ∃ omitted, (ms ++ omitted).Perm e.fields ∧ ∀ m ∈ omitted, m ∈ e.kind.defaults

namespace ListedBy

variable {e : Event} {k : EventKind} {ms : Members} {name : String} {v : Json} {α : Type}
  {read : Json → Option α}

/-- A field that has no default finds its member. -/
theorem required (h : e.ListedBy ms) (hk : e.kind = k) (hv : e.fields.named name = [v])
    (hneeded : name ∉ k.defaults.map Prod.fst) : Fields.required ms name read = read v := by
  obtain ⟨omitted, hperm, hdefaults⟩ := h
  rcases Fields.named_of_perm hperm hv with hms | ⟨-, homitted⟩
  · rw [Fields.required, hms]
  · have hmem := hdefaults _ homitted
    exact absurd (List.mem_map_of_mem (f := Prod.fst) (hk ▸ hmem)) hneeded

/-- A field that has one finds its member, or nothing where the member has the default. -/
theorem defaulted (h : e.ListedBy ms) (hk : e.kind = k) (hv : e.fields.named name = [v])
    {a default : α} {w : Json} (hread : read v = some a) (hreadDefault : read w = some default)
    (hdefault : ∀ w', (name, w') ∈ k.defaults → w' = w) :
    Fields.defaulted ms name default read = some a := by
  obtain ⟨omitted, hperm, hdefaults⟩ := h
  rcases Fields.named_of_perm hperm hv with hms | ⟨hms, homitted⟩
  · rw [Fields.defaulted, hms]
    exact hread
  · have hmem := hdefaults _ homitted
    rw [Fields.defaulted, hms]
    exact hreadDefault.symm.trans (hdefault v (hk ▸ hmem) ▸ hread)

end ListedBy

end Event

namespace Event.ListedBy
open Json

variable {ms : Members}

/-- A flow whose members are among those of the event. -/
theorem flow {e : Event} {k : EventKind} {f : Flow} (h : e.ListedBy ms) (hk : e.kind = k)
    (hmembers : ∀ m ∈ f.members, e.fields.named m.1 = [m.2])
    (hneeded : ∀ m ∈ f.members, m.1 ∉ k.defaults.map Prod.fst) : Flow.ofMembers? ms = some f := by
  have hread : ∀ m ∈ f.members, ∀ {α : Type} {read : Json → Option α},
      Fields.required ms m.1 read = read m.2 :=
    fun m hm => h.required hk (hmembers m hm) (hneeded m hm)
  simp only [Flow.members, List.forall_mem_cons] at hread
  obtain ⟨hsource, hdest, hsourcePort, hdestPort, hiface, -⟩ := hread
  rw [Flow.ofMembers?, hsource, hdest, hsourcePort, hdestPort, hiface, ipv4?_dotted, ipv4?_dotted,
    u16?_toNat, u16?_toNat, u32?_toNat]
  rfl

theorem segment {e : SegmentEvent} (h : (Event.segment e).ListedBy ms) :
    SegmentEvent.ofMembers? ms = some e := by
  have hk : (Event.segment e).kind = .segment := rfl
  have htime : Fields.required ms "timestamp" u64? = some e.time :=
    (h.required hk rfl (by decide)).trans (u64?_toNat e.time)
  have hflow : Flow.ofMembers? ms = some e.flow := by
    refine h.flow hk ?_ (by simp [Flow.members, EventKind.defaults])
    simp only [Flow.members, List.forall_mem_cons]
    exact ⟨rfl, rfl, rfl, rfl, rfl, List.forall_mem_nil _⟩
  have hflags : Fields.defaulted ms "flags" [] (list? (choice? TcpFlag.options)) = some e.flags :=
    h.defaulted hk rfl (list?_flags e.flags) (list?_flags []) (by simp [EventKind.defaults])
  have hseq : Fields.defaulted ms "seq" 0 u32? = some e.seq :=
    h.defaulted hk rfl (u32?_toNat e.seq) (u32?_toNat 0) (by simp [EventKind.defaults])
  have hack : Fields.defaulted ms "ack_seq" 0 u32? = some e.ack :=
    h.defaulted hk rfl (u32?_toNat e.ack) (u32?_toNat 0) (by simp [EventKind.defaults])
  have hhint : Fields.defaulted ms "direction" .unknown (choice? CaptureHint.options) =
      some e.hint :=
    h.defaulted hk rfl (choice?_hint e.hint) (choice?_hint .unknown)
      (by simp [EventKind.defaults, CaptureHint.label])
  rw [SegmentEvent.ofMembers?, htime, hflow, hflags, hseq, hack, hhint]
  rfl

theorem reported {e : ReportEvent} (h : (Event.reported e).ListedBy ms) :
    ReportEvent.ofMembers? ms = some e := by
  have hk : (Event.reported e).kind = .reported := rfl
  have htime : Fields.required ms "timestamp" u64? = some e.time :=
    (h.required hk rfl (by decide)).trans (u64?_toNat e.time)
  have hflow : Flow.ofMembers? ms = some e.flow := by
    refine h.flow hk ?_ (by simp [Flow.members, EventKind.defaults])
    simp only [Flow.members, List.forall_mem_cons]
    exact ⟨rfl, rfl, rfl, rfl, rfl, List.forall_mem_nil _⟩
  have hcount : Fields.required ms "packet_counts" u32? = some e.count :=
    (h.required hk rfl (by decide)).trans (u32?_toNat e.count)
  have hseq : Fields.defaulted ms "seq" 0 u32? = some e.seq :=
    h.defaulted hk rfl (u32?_toNat e.seq) (u32?_toNat 0) (by simp [EventKind.defaults])
  have hack : Fields.defaulted ms "ack_seq" 0 u32? = some e.ack :=
    h.defaulted hk rfl (u32?_toNat e.ack) (u32?_toNat 0) (by simp [EventKind.defaults])
  have hhint : Fields.defaulted ms "direction" .unknown (choice? CaptureHint.options) =
      some e.hint :=
    h.defaulted hk rfl (choice?_hint e.hint) (choice?_hint .unknown)
      (by simp [EventKind.defaults, CaptureHint.label])
  rw [ReportEvent.ofMembers?, htime, hflow, hcount, hseq, hack, hhint]
  rfl

/-- The members of an event read back as the event. -/
theorem ofMembers? {e : Event} (h : e.ListedBy ms) : Event.ofMembers? ms e.kind = some e := by
  cases e with
  | segment e => exact congrArg (Option.map Event.segment) h.segment
  | reported e => exact congrArg (Option.map Event.reported) h.reported
  | focusPod source dest span op =>
    have hk : (Event.focusPod source dest span op).kind = .focusPod := rfl
    have hsource : Fields.required ms "src" ipv4? = some source :=
      (h.required hk rfl (by decide)).trans (ipv4?_dotted source)
    have hdest : Fields.required ms "dst" ipv4? = some dest :=
      (h.required hk rfl (by decide)).trans (ipv4?_dotted dest)
    have hfirst : Fields.required ms "begin" u64? = some span.first :=
      (h.required hk rfl (by decide)).trans (u64?_toNat span.first)
    have hlast : Fields.required ms "end" u64? = some span.last :=
      (h.required hk rfl (by decide)).trans (u64?_toNat span.last)
    have hop : Fields.required ms "op" (choice? FocusOp.options) = some op :=
      (h.required hk rfl (by decide)).trans (choice?_op op)
    simp only [kind, Event.ofMembers?, hsource, hdest, hfirst, hlast, hop]
    rfl
  | syscallEnter tid pid number time =>
    have hk : (Event.syscallEnter tid pid number time).kind = .syscallEnter := rfl
    have htid : Fields.required ms "tid" u32? = some tid :=
      (h.required hk rfl (by decide)).trans (u32?_toNat tid)
    have hpid : Fields.required ms "pid" u32? = some pid :=
      (h.required hk rfl (by decide)).trans (u32?_toNat pid)
    have hnumber : Fields.required ms "syscall_type" u16? = some number :=
      (h.required hk rfl (by decide)).trans (u16?_toNat number)
    have htime : Fields.required ms "timestamp" u64? = some time :=
      (h.required hk rfl (by decide)).trans (u64?_toNat time)
    simp only [kind, Event.ofMembers?, htid, hpid, hnumber, htime]
    rfl
  | syscallExit tid time =>
    have hk : (Event.syscallExit tid time).kind = .syscallExit := rfl
    have htid : Fields.required ms "tid" u32? = some tid :=
      (h.required hk rfl (by decide)).trans (u32?_toNat tid)
    have htime : Fields.required ms "timestamp" u64? = some time :=
      (h.required hk rfl (by decide)).trans (u64?_toNat time)
    simp only [kind, Event.ofMembers?, htid, htime]
    rfl

theorem ofJson? {e : Event} (h : e.ListedBy ms) : Event.ofJson? (.obj ms) = some e := by
  have hkind : Fields.required ms "kind" kind? = some e.kind := by
    have hneeded : ∀ k : EventKind, "kind" ∉ k.defaults.map Prod.fst := by
      intro k
      cases k <;> decide
    refine (h.required rfl ?_ (hneeded e.kind)).trans (kind?_label e.kind)
    cases e <;> rfl
  rw [Event.ofJson?, hkind, Option.bind_some, h.ofMembers?]

end Event.ListedBy

/-! ### Text -/

theorem Flow.fits_members {depth : Nat} (f : Flow) : ∀ m ∈ f.members, Json.Fits depth m.2 := by
  simp only [members, List.forall_mem_cons]
  exact ⟨.str _, .str _, Json.fits_u16 _, Json.fits_u16 _, Json.fits_u32 _, List.forall_mem_nil _⟩

namespace Event
open Json

/-- The members of an event nest one list deep at most. -/
theorem fits_fields {depth : Nat} (e : Event) : ∀ m ∈ e.fields, Fits (depth + 1) m.2 := by
  rw [fields, List.forall_mem_cons]
  refine ⟨.str _, ?_⟩
  cases e with
  | segment e =>
    have hflags : Fits (depth + 1) (.arr (e.flags.map fun f => .str f.label)) := by
      refine .arr fun j hj => ?_
      obtain ⟨f, -, rfl⟩ := List.mem_map.1 hj
      exact .str f.label
    simp only [members, SegmentEvent.members, List.cons_append, List.forall_mem_cons,
      List.forall_mem_append]
    exact ⟨fits_u64 e.time, e.flow.fits_members, hflags, fits_u32 e.seq, fits_u32 e.ack,
      .str e.hint.label, List.forall_mem_nil _⟩
  | reported e =>
    simp only [members, ReportEvent.members, List.cons_append, List.forall_mem_cons,
      List.forall_mem_append]
    exact ⟨fits_u64 e.time, e.flow.fits_members, fits_u32 e.count, fits_u32 e.seq, fits_u32 e.ack,
      .str e.hint.label, List.forall_mem_nil _⟩
  | focusPod source dest span op =>
    simp only [members, List.forall_mem_cons]
    exact ⟨.str _, .str _, fits_u64 span.first, fits_u64 span.last, .str op.label,
      List.forall_mem_nil _⟩
  | syscallEnter tid pid number time =>
    simp only [members, List.forall_mem_cons]
    exact ⟨fits_u32 tid, fits_u32 pid, fits_u16 number, fits_u64 time, List.forall_mem_nil _⟩
  | syscallExit tid time =>
    simp only [members, List.forall_mem_cons]
    exact ⟨fits_u32 tid, fits_u64 time, List.forall_mem_nil _⟩

theorem ListedBy.ofText? {e : Event} {ms : Members} (h : e.ListedBy ms) :
    (Json.ofText? (Json.render (.obj ms))).bind Event.ofJson? = some e := by
  have hfits : Fits maxDepth (.obj ms) := by
    obtain ⟨omitted, hperm, -⟩ := h
    refine .obj fun m hm => e.fits_fields m (hperm.subset ?_)
    exact List.mem_append_left omitted hm
  rw [ofText?_render hfits, Option.bind_some, h.ofJson?]

/-- An event may be written with all its members, in their order. -/
theorem listedBy_fields (e : Event) : e.ListedBy e.fields :=
  ⟨[], by rw [List.append_nil], List.forall_mem_nil _⟩

/-- The text of an object is what is left of it between blanks. -/
theorem trim_obj {front back : List Char} (hfront : ∀ c ∈ front, Blank.isBlank c = true)
    (hback : ∀ c ∈ back, Blank.isBlank c = true) (ms : Members) :
    Blank.trim (front ++ Json.render (.obj ms) ++ back) = Json.render (.obj ms) := by
  refine Blank.trim_append hfront hback ?_ ?_ nofun
  · rintro c ⟨⟩
    decide
  · intro c hc
    rw [Json.render, List.getLast?_cons, List.getLast?_concat] at hc
    cases hc
    decide

theorem ListedBy.ofLine {e : Event} {ms : Members} (h : e.ListedBy ms) {front back : List Char}
    (hfront : ∀ c ∈ front, Blank.isBlank c = true) (hback : ∀ c ∈ back, Blank.isBlank c = true)
    (number : Nat) :
    Event.ofLine (String.ofList (front ++ Json.render (.obj ms) ++ back)) number =
      .ok (some e) := by
  rw [Event.ofLine, String.toList_ofList, trim_obj hfront hback]
  simp only [h.ofText?]
  rfl

/-- The line that an event is written as. -/
theorem ofLine_text (e : Event) (number : Nat) :
    ofLine (Json.text e.json) number = .ok (some e) := by
  have hread := e.listedBy_fields.ofLine (List.forall_mem_nil _) (List.forall_mem_nil _) number
  rwa [List.nil_append, List.append_nil] at hread

/-- **The line of an event reads back as the event.** The object that the event is written as, with
every field and its kind, is one of the lists that stand for it. Any such list, whatever the order
of its members and with or without those that have the value they default to, is read back from its
text as the same event, between blanks and on a line of any number. -/
theorem lines_read_back (e : Event) (number : Nat) :
    (e.json = .obj e.fields ∧ e.ListedBy e.fields ∧
      ofLine (Json.text e.json) number = .ok (some e)) ∧
    ∀ (ms : Members) (front back : List Char), e.ListedBy ms →
      (∀ c ∈ front, Blank.isBlank c = true) → (∀ c ∈ back, Blank.isBlank c = true) →
        ofLine (String.ofList (front ++ Json.render (.obj ms) ++ back)) number = .ok (some e) := by
  refine ⟨⟨rfl, e.listedBy_fields, e.ofLine_text number⟩, ?_⟩
  intro ms front back hlisted hfront hback
  exact hlisted.ofLine hfront hback number

/-- The kind comes last, a time takes all 64 bits, four members are left out, and the blanks are not
of ASCII. -/
theorem lines_read_back_kind_last :
    let flow : Flow :=
      { source := ⟨0x0AF40105⟩, dest := ⟨0x0A60000A⟩, sourcePort := 40000, destPort := 80,
        iface := 9 }
    let e : Event := .segment { time := 18446744073709551615, flow }
    let ms : Members :=
      (("kind", .str "segment") :: ("timestamp", .int 18446744073709551615) :: flow.members).reverse
    let text : String := "\u00a0\x7b\"ifindex\":9,\"dport\":80,\"sport\":40000," ++
      "\"daddr\":\"10.96.0.10\",\"saddr\":\"10.244.1.5\"," ++
      "\"timestamp\":18446744073709551615,\"kind\":\"segment\"\x7d\u3000"
    e.ListedBy ms ∧ ofLine text 7 = .ok (some e) := by
  intro flow e ms text
  have hlisted : e.ListedBy ms :=
    ⟨EventKind.segment.defaults, (List.reverse_perm _).append_right _, fun _ => id⟩
  have htext : text = String.ofList (['\u00a0'] ++ Json.render (.obj ms) ++ ['\u3000']) := by
    decide +kernel
  refine ⟨hlisted, ?_⟩
  rw [htext]
  exact (lines_read_back e 7).2 ms ['\u00a0'] ['\u3000'] hlisted
    (List.forall_mem_singleton.2 rfl) (List.forall_mem_singleton.2 rfl)

end Event

end FlowProbe
