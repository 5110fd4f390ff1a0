import FlowProbe.Proofs.Wire.Image
import FlowProbe.Wire.Parameters

/-! Which parameters decode, and what is complained of in those that do not.

Only the first parameter of a name counts (`IsFirst`). What a segment is read from is listed once,
in the order in which it is looked at (`expected`), and an expected parameter is met or offends.
`Checks` says of a computation that it complains of the first one that offends; one more read in
front is one more parameter to check (`Checks.bind`), so decoding checks the whole list
(`checks_ofParameters`). What it returns has the very parameters that were read
(`ofParameters_eq_ok_iff`). -/
namespace FlowProbe

namespace Parameters
open Words

/-! ### The first of a name -/

/-- The bytes of the first parameter of that name. -/
def IsFirst (ps : Parameters) (name : String) (b : List UInt8) : Prop :=
  ∃ front back, ps = front ++ (name, b) :: back ∧ ∀ p ∈ front, p.1 ≠ name

def Lacks (ps : Parameters) (name : String) : Prop := ∀ p ∈ ps, p.1 ≠ name

variable {ps qs : Parameters} {name : String} {width : Nat} {b : List UInt8} {fault : Fault}

theorem find?_eq_none_iff : ps.find? name = none ↔ ps.Lacks name := by
  simp [find?, Lacks]

theorem find?_eq_some_iff : ps.find? name = some b ↔ ps.IsFirst name b := by
  simp only [find?, Option.map_eq_some_iff, List.find?_eq_some_iff_append, decide_eq_true_eq,
    Bool.not_eq_true', decide_eq_false_iff_not]
  constructor
  · rintro ⟨⟨_, _⟩, ⟨rfl, front, back, rfl, hfront⟩, rfl⟩
    exact ⟨front, back, rfl, hfront⟩
  · rintro ⟨front, back, rfl, hfront⟩
    exact ⟨(name, b), ⟨rfl, front, back, rfl, hfront⟩, rfl⟩

theorem IsFirst.not_lacks (h : ps.IsFirst name b) : ¬ps.Lacks name := by
  rw [← find?_eq_some_iff] at h
  rw [← find?_eq_none_iff, h]
  exact nofun

theorem IsFirst.unique {b' : List UInt8} (h : ps.IsFirst name b) (h' : ps.IsFirst name b') :
    b = b' := by
  rw [← find?_eq_some_iff] at h h'
  exact Option.some.inj (h.symm.trans h')

theorem find?_append : find? (ps ++ qs) name = (ps.find? name).or (qs.find? name) := by
  rw [find?, List.find?_append, Option.map_or]
  rfl

theorem find?_cons_ne {p : String × List UInt8} (h : p.1 ≠ name) :
    find? (p :: ps) name = ps.find? name := by
  rw [find?, List.find?_cons_of_neg (by simpa using h)]
  rfl

theorem find?_eq_head?_filter :
    ps.find? name = ((ps.filter fun p => p.1 = name).head?).map Prod.snd := by
  rw [List.head?_filter]
  rfl

/-! ### Expected parameters -/

/-- A parameter that is looked for. -/
structure Expected where
  name : String
  width : Nat
  optional : Bool := false

namespace Expected

/-- The first of the name is there in its size, or none is and none need be. -/
def IsMet (x : Expected) (ps : Parameters) : Prop :=
  (∃ b, ps.IsFirst x.name b ∧ b.length = x.width) ∨ (x.optional = true ∧ ps.Lacks x.name)

/-- What there is to complain of. -/
inductive Offends (x : Expected) (ps : Parameters) : Fault → Prop where
  | missing : x.optional = false → ps.Lacks x.name → Offends x ps (.missing x.name)
  | size {b : List UInt8} :
    ps.IsFirst x.name b → b.length ≠ x.width → Offends x ps (.size x.width b.length)

theorem IsMet.not_offends {x : Expected} (h : x.IsMet ps) : ¬x.Offends ps fault := by
  intro hoffends
  rcases h with ⟨b, hfirst, hlength⟩ | ⟨hoptional, hlacks⟩
  · cases hoffends with
    | missing _ hlacks => exact hfirst.not_lacks hlacks
    | size hfirst' hne => exact hne (hfirst.unique hfirst' ▸ hlength)
  · cases hoffends with
    | missing hneeded _ => exact absurd (hneeded.symm.trans hoptional) (by decide)
    | size hfirst _ => exact hfirst.not_lacks hlacks

theorem isMet_or_offends (x : Expected) (ps : Parameters) :
    x.IsMet ps ∨ ∃ fault, x.Offends ps fault := by
  cases hfind : ps.find? x.name with
  | none =>
    have hlacks := find?_eq_none_iff.1 hfind
    cases hoptional : x.optional with
    | true => exact .inl (.inr ⟨hoptional, hlacks⟩)
    | false => exact .inr ⟨_, .missing hoptional hlacks⟩
  | some b =>
    have hfirst := find?_eq_some_iff.1 hfind
    by_cases hlength : b.length = x.width
    · exact .inl (.inl ⟨b, hfirst, hlength⟩)
    · exact .inr ⟨_, .size hfirst hlength⟩

end Expected

/-- Something offends, and everything in front of it is met. -/
def FirstOffends (ps : Parameters) (xs : List Expected) (fault : Fault) : Prop :=
  ∃ front x back, xs = front ++ x :: back ∧ (∀ y ∈ front, y.IsMet ps) ∧ x.Offends ps fault

theorem not_firstOffends_nil : ¬ps.FirstOffends [] fault := by
  rintro ⟨front, x, back, hxs, -⟩
  simp at hxs

theorem firstOffends_cons {x : Expected} {xs : List Expected} :
    ps.FirstOffends (x :: xs) fault ↔
      x.Offends ps fault ∨ (x.IsMet ps ∧ ps.FirstOffends xs fault) := by
  constructor
  · rintro ⟨front, y, back, hxs, hfront, hy⟩
    cases front with
    | nil =>
      obtain ⟨rfl, -⟩ := List.cons.inj hxs
      exact .inl hy
    | cons z front =>
      obtain ⟨rfl, rfl⟩ := List.cons.inj hxs
      obtain ⟨hx, hfront⟩ := List.forall_mem_cons.1 hfront
      exact .inr ⟨hx, front, y, back, rfl, hfront, hy⟩
  · rintro (hx | ⟨hx, front, y, back, rfl, hfront, hy⟩)
    · exact ⟨[], x, xs, rfl, List.forall_mem_nil _, hx⟩
    · exact ⟨x :: front, y, back, rfl, List.forall_mem_cons.2 ⟨hx, hfront⟩, hy⟩

theorem forall_isMet_iff {xs : List Expected} :
    (∀ x ∈ xs, x.IsMet ps) ↔ ∀ fault, ¬ps.FirstOffends xs fault := by
  induction xs with
  | nil => exact ⟨fun _ _ => not_firstOffends_nil, fun _ => List.forall_mem_nil _⟩
  | cons x xs ih =>
    rw [List.forall_mem_cons, ih]
    constructor
    · rintro ⟨hx, hxs⟩ fault hfirst
      rcases firstOffends_cons.1 hfirst with hoffends | ⟨-, hrest⟩
      · exact hx.not_offends hoffends
      · exact hxs fault hrest
    · intro hnone
      have hx : x.IsMet ps := (x.isMet_or_offends ps).resolve_right fun ⟨fault, hoffends⟩ =>
        hnone fault (firstOffends_cons.2 (.inl hoffends))
      exact ⟨hx, fun fault hrest => hnone fault (firstOffends_cons.2 (.inr ⟨hx, hrest⟩))⟩

/-! ### Reads that check -/

/-- A computation that complains of the first that offends, and of nothing else. -/
def Checks (ps : Parameters) (xs : List Expected) {α : Type} (c : Except Fault α) : Prop :=
  ∀ fault, c = .error fault ↔ ps.FirstOffends xs fault

theorem Checks.pure {α : Type} (a : α) : ps.Checks [] (.ok a) :=
  fun _ => ⟨nofun, fun h => absurd h not_firstOffends_nil⟩

/-- A read in front of a computation is one more parameter in front of those it checks. -/
theorem Checks.bind {α β : Type} {x : Expected} {xs : List Expected} {read : Except Fault β}
    {next : β → Except Fault α} (hread : ∀ fault, read = .error fault ↔ x.Offends ps fault)
    (hnext : ∀ b, ps.Checks xs (next b)) : ps.Checks (x :: xs) (read >>= next) := by
  intro fault
  rw [firstOffends_cons]
  cases hresult : read with
  | error fault' =>
    have hoffends := (hread fault').1 hresult
    have hunmet : ¬x.IsMet ps := fun hx => hx.not_offends hoffends
    simp only [hunmet, false_and, or_false, ← hread, hresult, Bind.bind, Except.bind,
      Except.error.injEq]
  | ok b =>
    have hnone : ∀ fault, ¬x.Offends ps fault := fun fault hoffends => by
      have herror := (hread fault).2 hoffends
      rw [hresult] at herror
      cases herror
    have hmet : x.IsMet ps :=
      (x.isMet_or_offends ps).resolve_right fun ⟨fault, hoffends⟩ => hnone fault hoffends
    simp only [hnone fault, hmet, true_and, false_or]
    exact hnext b fault

theorem Checks.isOk_iff {α : Type} {xs : List Expected} {c : Except Fault α}
    (h : ps.Checks xs c) : (∃ a, c = .ok a) ↔ ∀ x ∈ xs, x.IsMet ps := by
  rw [forall_isMet_iff]
  cases c with
  | ok a =>
    have hnone : ∀ fault, ¬ps.FirstOffends xs fault := fun fault hfirst => by
      have herror := (h fault).2 hfirst
      cases herror
    exact ⟨fun _ => hnone, fun _ => ⟨a, rfl⟩⟩
  | error fault => exact ⟨nofun, fun hnone => absurd ((h fault).1 rfl) (hnone fault)⟩

theorem bytes_eq_ok_iff :
    ps.bytes name width = .ok b ↔ ps.IsFirst name b ∧ b.length = width := by
  rw [bytes, ← find?_eq_some_iff]
  cases ps.find? name with
  | none => exact ⟨nofun, fun h => nomatch h.1⟩
  | some b' =>
    simp only [Option.some.injEq]
    split
    · next hlength =>
      rw [Except.ok.injEq]
      exact ⟨fun h => ⟨h, h ▸ hlength⟩, And.left⟩
    · next hlength =>
      exact ⟨nofun, fun h => absurd (h.1.symm ▸ h.2) hlength⟩

theorem bytes_eq_error_iff :
    ps.bytes name width = .error fault ↔ Expected.Offends ⟨name, width, false⟩ ps fault := by
  constructor
  · intro h
    rw [bytes] at h
    cases hfind : ps.find? name with
    | none =>
      simp only [hfind, Except.error.injEq] at h
      exact h ▸ .missing rfl (find?_eq_none_iff.1 hfind)
    | some b =>
      simp only [hfind] at h
      split at h
      · cases h
      · next hlength =>
        cases h
        exact .size (find?_eq_some_iff.1 hfind) hlength
  · rintro (⟨-, hlacks⟩ | ⟨hfirst, hlength⟩)
    · rw [bytes, find?_eq_none_iff.2 hlacks]
    · rw [bytes, find?_eq_some_iff.2 hfirst]
      exact if_neg hlength

theorem map_eq_error_iff {α β : Type} {c : Except Fault α} {f : α → β} :
    c.map f = .error fault ↔ c = .error fault := by
  cases c with
  | ok a => exact ⟨nofun, nofun⟩
  | error fault' => simp only [Except.map, Except.error.injEq]

theorem lowFirst_eq_error_iff :
    ps.lowFirst name width = .error fault ↔ Expected.Offends ⟨name, width, false⟩ ps fault :=
  map_eq_error_iff.trans bytes_eq_error_iff

theorem highFirst_eq_error_iff :
    ps.highFirst name width = .error fault ↔ Expected.Offends ⟨name, width, false⟩ ps fault :=
  map_eq_error_iff.trans bytes_eq_error_iff

theorem hint_eq_error_iff :
    ps.hint = .error fault ↔ Expected.Offends ⟨"packet_type", 1, true⟩ ps fault := by
  rw [hint]
  cases hfind : ps.find? "packet_type" with
  | none =>
    have hmet : Expected.IsMet ⟨"packet_type", 1, true⟩ ps :=
      .inr ⟨rfl, find?_eq_none_iff.1 hfind⟩
    exact ⟨nofun, fun h => absurd h hmet.not_offends⟩
  | some b =>
    have hfirst := find?_eq_some_iff.1 hfind
    refine map_eq_error_iff.trans (lowFirst_eq_error_iff.trans ⟨?_, ?_⟩)
    · rintro (⟨-, hlacks⟩ | ⟨hfirst', hlength⟩)
      · exact absurd hlacks hfirst.not_lacks
      · exact .size hfirst' hlength
    · rintro (⟨hneeded, -⟩ | ⟨hfirst', hlength⟩)
      · cases hneeded
      · exact .size hfirst' hlength

theorem map_eq_ok_iff {α β : Type} {c : Except Fault α} {f : α → β} {b : β} :
    c.map f = .ok b ↔ ∃ a, c = .ok a ∧ f a = b := by
  cases c with
  | ok a => simp [Except.map]
  | error fault => simp [Except.map]

theorem lowFirst_eq_ok_iff {n : Nat} :
    ps.lowFirst name width = .ok n ↔
      n < range width ∧ ps.IsFirst name (Words.lowFirst width n) := by
  rw [lowFirst, map_eq_ok_iff]
  constructor
  · rintro ⟨b, hb, rfl⟩
    obtain ⟨hfirst, rfl⟩ := bytes_eq_ok_iff.1 hb
    exact ⟨ofLowFirst_lt b, (lowFirst_ofLowFirst b).symm ▸ hfirst⟩
  · rintro ⟨hn, hfirst⟩
    exact ⟨_, bytes_eq_ok_iff.2 ⟨hfirst, length_lowFirst width n⟩, ofLowFirst_lowFirst hn⟩

theorem highFirst_eq_ok_iff {n : Nat} :
    ps.highFirst name width = .ok n ↔
      n < range width ∧ ps.IsFirst name (Words.highFirst width n) := by
  rw [highFirst, map_eq_ok_iff]
  constructor
  · rintro ⟨b, hb, rfl⟩
    obtain ⟨hfirst, rfl⟩ := bytes_eq_ok_iff.1 hb
    have hlt := ofLowFirst_lt b.reverse
    rw [List.length_reverse] at hlt
    exact ⟨hlt, (highFirst_ofHighFirst b).symm ▸ hfirst⟩
  · rintro ⟨hn, hfirst⟩
    exact ⟨_, bytes_eq_ok_iff.2 ⟨hfirst, length_highFirst width n⟩, ofHighFirst_highFirst hn⟩

theorem hint_eq_ok_iff {code : UInt8} :
    ps.hint = .ok code ↔
      ps.IsFirst "packet_type" [code] ∨
        (ps.Lacks "packet_type" ∧ code = CaptureHint.unknown.code) := by
  rw [hint]
  cases hfind : ps.find? "packet_type" with
  | none =>
    have hlacks := find?_eq_none_iff.1 hfind
    rw [Except.ok.injEq]
    exact ⟨fun h => .inr ⟨hlacks, h.symm⟩,
      fun h => (h.resolve_left fun hfirst => hfirst.not_lacks hlacks).2.symm⟩
  | some b =>
    have hfirst := find?_eq_some_iff.1 hfind
    refine map_eq_ok_iff.trans ⟨?_, ?_⟩
    · rintro ⟨n, hn, rfl⟩
      exact .inl (lowFirst_eq_ok_iff.1 hn).2
    · rintro (hcode | ⟨hlacks, -⟩)
      · have hone : ps.IsFirst "packet_type" (Words.lowFirst 1 code.toNat) := by
          simpa [Words.lowFirst] using hcode
        exact ⟨code.toNat, lowFirst_eq_ok_iff.2 ⟨code.toNat_lt, hone⟩, UInt8.ofNat_toNat⟩
      · exact absurd hlacks hfirst.not_lacks

/-- What a segment is read from, in the order in which it is looked at. -/
def expected : List Expected :=
  [⟨"saddr", 4, false⟩, ⟨"daddr", 4, false⟩, ⟨"sport", 2, false⟩, ⟨"dport", 2, false⟩,
    ⟨"ifindex", 4, false⟩, ⟨"packet_type", 1, true⟩, ⟨"timestamp", 8, false⟩, ⟨"seq", 4, false⟩,
    ⟨"ack_seq", 4, false⟩, ⟨"flags", 1, false⟩]

end Parameters

namespace Segment
open Words Parameters

variable {ps : Parameters}

theorem checks_ofParameters (ps : Parameters) : ps.Checks expected (ofParameters ps) :=
  .bind (fun _ => highFirst_eq_error_iff) fun _ =>
  .bind (fun _ => highFirst_eq_error_iff) fun _ =>
  .bind (fun _ => highFirst_eq_error_iff) fun _ =>
  .bind (fun _ => highFirst_eq_error_iff) fun _ =>
  .bind (fun _ => lowFirst_eq_error_iff) fun _ =>
  .bind (fun _ => hint_eq_error_iff) fun _ =>
  .bind (fun _ => lowFirst_eq_error_iff) fun _ =>
  .bind (fun _ => lowFirst_eq_error_iff) fun _ =>
  .bind (fun _ => lowFirst_eq_error_iff) fun _ =>
  .bind (fun _ => lowFirst_eq_error_iff) fun _ => .pure _

/-- The fields of the segment are the first parameters of their names, but there may be none for a
hint that is unknown, and there is no padding. -/
structure IsReadFrom (s : Segment) (ps : Parameters) : Prop where
  source : ps.IsFirst "saddr" (Words.highFirst 4 s.flow.source.word.toNat)
  dest : ps.IsFirst "daddr" (Words.highFirst 4 s.flow.dest.word.toNat)
  sourcePort : ps.IsFirst "sport" (Words.highFirst 2 s.flow.sourcePort.toNat)
  destPort : ps.IsFirst "dport" (Words.highFirst 2 s.flow.destPort.toNat)
  iface : ps.IsFirst "ifindex" (Words.lowFirst 4 s.flow.iface.toNat)
  hint : ps.IsFirst "packet_type" [s.hint] ∨
    (ps.Lacks "packet_type" ∧ s.hint = CaptureHint.unknown.code)
  time : ps.IsFirst "timestamp" (Words.lowFirst 8 s.time.toNat)
  seq : ps.IsFirst "seq" (Words.lowFirst 4 s.seq.toNat)
  ack : ps.IsFirst "ack_seq" (Words.lowFirst 4 s.ack.toNat)
  flags : ps.IsFirst "flags" [s.flags]
  padding : s.padding = .replicate 6 0

theorem bind_eq_ok_iff {α β : Type} {c : Except Fault α} {next : α → Except Fault β} {b : β} :
    (c >>= next) = .ok b ↔ ∃ a, c = .ok a ∧ next a = .ok b := by
  cases c with
  | ok a => simp [bind, Except.bind]
  | error fault => simp [bind, Except.bind]

theorem ofParameters_eq_ok_iff {s : Segment} : ofParameters ps = .ok s ↔ s.IsReadFrom ps := by
  have hbyte : ∀ b : UInt8, Words.lowFirst 1 b.toNat = [b] := fun b => by simp [Words.lowFirst]
  simp only [ofParameters, bind_eq_ok_iff, highFirst_eq_ok_iff, lowFirst_eq_ok_iff, hint_eq_ok_iff]
  constructor
  · rintro ⟨source, ⟨hs, hsource⟩, dest, ⟨hd, hdest⟩, sourcePort, ⟨hsp, hsourcePort⟩, destPort,
      ⟨hdp, hdestPort⟩, iface, ⟨hi, hiface⟩, hint, hhint, time, ⟨ht, htime⟩, seq, ⟨hq, hseq⟩, ack,
      ⟨ha, hack⟩, flags, ⟨hf, hflags⟩, hsegment⟩
    rw [← UInt32.toNat_ofNat_of_lt hs] at hsource
    rw [← UInt32.toNat_ofNat_of_lt hd] at hdest
    rw [← UInt16.toNat_ofNat_of_lt hsp] at hsourcePort
    rw [← UInt16.toNat_ofNat_of_lt hdp] at hdestPort
    rw [← UInt32.toNat_ofNat_of_lt hi] at hiface
    rw [← UInt64.toNat_ofNat_of_lt ht] at htime
    rw [← UInt32.toNat_ofNat_of_lt hq] at hseq
    rw [← UInt32.toNat_ofNat_of_lt ha] at hack
    rw [← UInt8.toNat_ofNat_of_lt hf, hbyte] at hflags
    cases hsegment
    exact ⟨hsource, hdest, hsourcePort, hdestPort, hiface, hhint, htime, hseq, hack, hflags, rfl⟩
  · rintro ⟨hsource, hdest, hsourcePort, hdestPort, hiface, hhint, htime, hseq, hack, hflags,
      hpadding⟩
    refine ⟨_, ⟨toNat_lt_range_four _, hsource⟩, _, ⟨toNat_lt_range_four _, hdest⟩,
      _, ⟨toNat_lt_range_two _, hsourcePort⟩, _, ⟨toNat_lt_range_two _, hdestPort⟩,
      _, ⟨toNat_lt_range_four _, hiface⟩, _, hhint, _, ⟨toNat_lt_range_eight _, htime⟩,
      _, ⟨toNat_lt_range_four _, hseq⟩, _, ⟨toNat_lt_range_four _, hack⟩,
      s.flags.toNat, ⟨s.flags.toNat_lt, hbyte s.flags ▸ hflags⟩, ?_⟩
    simp only [pure, Except.pure, UInt8.ofNat_toNat, UInt16.ofNat_toNat, UInt32.ofNat_toNat,
      UInt64.ofNat_toNat, ← hpadding]

theorem ofParameters_congr {qs : Parameters}
    (h : ∀ x ∈ expected, ps.find? x.name = qs.find? x.name) :
    ofParameters ps = ofParameters qs := by
  simp only [expected, List.forall_mem_cons] at h
  obtain ⟨hsource, hdest, hsourcePort, hdestPort, hiface, hhint, htime, hseq, hack, hflags, -⟩ := h
  simp only [ofParameters, Parameters.highFirst, Parameters.lowFirst, Parameters.hint,
    Parameters.bytes, hsource, hdest, hsourcePort, hdestPort, hiface, hhint, htime, hseq, hack,
    hflags]

theorem ofParameters_skip_unknown {front back : Parameters} {name : String} {b : List UInt8}
    (h : name ∉ expected.map Expected.name) :
    ofParameters (front ++ (name, b) :: back) = ofParameters (front ++ back) := by
  refine ofParameters_congr fun x hx => ?_
  have hne : name ≠ x.name := fun heq => h (heq ▸ List.mem_map_of_mem hx)
  rw [find?_append, find?_append, find?_cons_ne hne]

theorem ofParameters_skip_later {front back : Parameters} {p : String × List UInt8}
    (h : ∃ q ∈ front, q.1 = p.1) :
    ofParameters (front ++ p :: back) = ofParameters (front ++ back) := by
  refine ofParameters_congr fun x _ => ?_
  rw [find?_append, find?_append]
  by_cases hname : p.1 = x.name
  · obtain ⟨q, hq, hqp⟩ := h
    have hthere : find? front x.name ≠ none := fun hnone =>
      find?_eq_none_iff.1 hnone q hq (hqp.trans hname)
    obtain ⟨b, hb⟩ := Option.ne_none_iff_exists'.1 hthere
    rw [hb, Option.some_or, Option.some_or]
  · rw [find?_cons_ne hname]

theorem ofParameters_reorder {qs : Parameters}
    (h : ∀ name, (ps.filter fun p => p.1 = name) = qs.filter fun p => p.1 = name) :
    ofParameters ps = ofParameters qs := by
  refine ofParameters_congr fun x _ => ?_
  rw [find?_eq_head?_filter, find?_eq_head?_filter, h x.name]

end Segment

end FlowProbe
