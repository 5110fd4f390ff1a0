import FlowProbe.Monitor
import FlowProbe.Proofs.Wire.Layout
import FlowProbe.Proofs.Wire.Parameters

/-! What a monitor makes of bytes that may be malformed.

An `Attempt` works on the monitor in place and may stop with a fault, whatever it has changed by
then. Both ways in that can fail decode before they touch anything, so an attempt that fails leaves
the monitor as it was, and a run of attempts ends where the sound ones alone end
(`after_run`). `reads_first_parameters` puts this beside what decodes. -/
namespace FlowProbe

/-- What comes in as bytes: the parameters of an event, or the image of a report. -/
inductive Attempt where
  | event (ps : Parameters)
  | report (bytes : List UInt8)

namespace Attempt

/-- Decodes, then takes in, in place. -/
def make : Attempt → EStateM Fault Monitor Unit
  | .event ps => do
    let s ← ofExcept (Segment.ofParameters ps)
    modify fun m => m.ingest s
  | .report bytes => do
    let r ← ofExcept (SocketReport.ofBytes bytes)
    modify fun m => m.ingestReport r

/-- The same by value: the monitor afterwards, if there is no fault. -/
def result (m : Monitor) : Attempt → Except Fault Monitor
  | .event ps => m.ingestParameters ps
  | .report bytes => m.ingestReportBytes bytes

/-- Whether the bytes decode. -/
def isSound : Attempt → Bool
  | .event ps => (Segment.ofParameters ps).isOk
  | .report bytes => (SocketReport.ofBytes bytes).isOk

/-- Where a monitor stands after an attempt, failed or not. -/
def after (m : Monitor) (a : Attempt) : Monitor :=
  match a.make.run m with
  | .ok _ m' => m'
  | .error _ m' => m'

theorem run_decode {α : Type} (c : Except Fault α) (take : α → Monitor → Monitor) (m : Monitor) :
    (do let a ← ofExcept c; modify (take a) : EStateM Fault Monitor Unit).run m =
      match c with
      | .ok a => .ok () (take a m)
      | .error fault => .error fault m := by
  cases c <;> rfl

theorem run_make (a : Attempt) (m : Monitor) :
    a.make.run m =
      match a.result m with
      | .ok m' => .ok () m'
      | .error fault => .error fault m := by
  cases a with
  | event ps =>
    rw [make, run_decode, result, Monitor.ingestParameters]
    cases Segment.ofParameters ps <;> rfl
  | report bytes =>
    rw [make, run_decode, result, Monitor.ingestReportBytes]
    cases SocketReport.ofBytes bytes <;> rfl

section Outcomes
variable (m : Monitor)

theorem event_of_ok {ps : Parameters} {s : Segment} (h : Segment.ofParameters ps = .ok s) :
    m.ingestParameters ps = .ok (m.ingest s) ∧ (event ps).make.run m = .ok () (m.ingest s) := by
  have hresult : m.ingestParameters ps = .ok (m.ingest s) := by
    rw [Monitor.ingestParameters, h]
    rfl
  exact ⟨hresult, by rw [run_make, result, hresult]⟩

theorem event_of_error {ps : Parameters} {fault : Fault}
    (h : Segment.ofParameters ps = .error fault) :
    m.ingestParameters ps = .error fault ∧ (event ps).make.run m = .error fault m := by
  have hresult : m.ingestParameters ps = .error fault := by
    rw [Monitor.ingestParameters, h]
    rfl
  exact ⟨hresult, by rw [run_make, result, hresult]⟩

theorem report_of_ok {bytes : List UInt8} {r : SocketReport}
    (h : SocketReport.ofBytes bytes = .ok r) :
    m.ingestReportBytes bytes = .ok (m.ingestReport r) ∧
      (report bytes).make.run m = .ok () (m.ingestReport r) := by
  have hresult : m.ingestReportBytes bytes = .ok (m.ingestReport r) := by
    rw [Monitor.ingestReportBytes, h]
    rfl
  exact ⟨hresult, by rw [run_make, result, hresult]⟩

theorem report_of_error {bytes : List UInt8} {fault : Fault}
    (h : SocketReport.ofBytes bytes = .error fault) :
    m.ingestReportBytes bytes = .error fault ∧ (report bytes).make.run m = .error fault m := by
  have hresult : m.ingestReportBytes bytes = .error fault := by
    rw [Monitor.ingestReportBytes, h]
    rfl
  exact ⟨hresult, by rw [run_make, result, hresult]⟩

end Outcomes

theorem after_of_not_isSound {a : Attempt} (h : a.isSound = false) (m : Monitor) :
    a.after m = m := by
  rw [after]
  cases a with
  | event ps =>
    cases hread : Segment.ofParameters ps with
    | ok s =>
      rw [isSound, hread] at h
      cases h
    | error fault => rw [(event_of_error m hread).2]
  | report bytes =>
    cases hread : SocketReport.ofBytes bytes with
    | ok r =>
      rw [isSound, hread] at h
      cases h
    | error fault => rw [(report_of_error m hread).2]

/-- The attempts that fail might as well not have been made. -/
theorem after_run (m : Monitor) (as : List Attempt) :
    as.foldl (fun m a => a.after m) m = (as.filter isSound).foldl (fun m a => a.after m) m := by
  induction as generalizing m with
  | nil => rfl
  | cons a rest ih =>
    rw [List.foldl_cons, List.filter_cons, ih]
    cases hsound : a.isSound with
    | true => rw [if_pos rfl, List.foldl_cons]
    | false => rw [if_neg Bool.false_ne_true, after_of_not_isSound hsound]

open Parameters in
/-- **What decodes are the first parameters of the expected names, and what fails leaves no trace.**
A list of parameters decodes exactly if each expected parameter is met, and then to the one segment
that is read from it; otherwise the fault is that of the first expected parameter that offends.
Parameters of other names, later ones of a name that was there before, and the order between
parameters of different names make no difference. A report decodes exactly from its own image. An
attempt that does not decode stops with the fault and leaves the monitor as it was, any other takes
in what was decoded, and so a run of attempts ends as if those that fail had not been made. -/
theorem reads_first_parameters :
    (∀ ps, (∃ s, Segment.ofParameters ps = .ok s) ↔ ∀ x ∈ expected, x.IsMet ps) ∧
    (∀ ps s, Segment.ofParameters ps = .ok s ↔ s.IsReadFrom ps) ∧
    (∀ ps fault, Segment.ofParameters ps = .error fault ↔
      ∃ front x back, expected = front ++ x :: back ∧ (∀ y ∈ front, y.IsMet ps) ∧
        x.Offends ps fault) ∧
    (∀ (front back : Parameters) (name : String) (b : List UInt8),
      name ∉ expected.map Expected.name →
        Segment.ofParameters (front ++ (name, b) :: back) = Segment.ofParameters (front ++ back)) ∧
    (∀ (front back : Parameters) (p : String × List UInt8), (∃ q ∈ front, q.1 = p.1) →
      Segment.ofParameters (front ++ p :: back) = Segment.ofParameters (front ++ back)) ∧
    (∀ ps qs : Parameters,
      (∀ name, (ps.filter fun p => p.1 = name) = qs.filter fun p => p.1 = name) →
        Segment.ofParameters ps = Segment.ofParameters qs) ∧
    (∀ (m : Monitor) (ps : Parameters),
      (∀ s, Segment.ofParameters ps = .ok s →
        m.ingestParameters ps = .ok (m.ingest s) ∧
          (event ps).make.run m = .ok () (m.ingest s)) ∧
      (∀ fault, Segment.ofParameters ps = .error fault →
        m.ingestParameters ps = .error fault ∧ (event ps).make.run m = .error fault m)) ∧
    (∀ (m : Monitor) (bytes : List UInt8),
      (∀ r : SocketReport, r.bytes = bytes →
        m.ingestReportBytes bytes = .ok (m.ingestReport r) ∧
          (report bytes).make.run m = .ok () (m.ingestReport r)) ∧
      (bytes.length = 40 → ∃ r : SocketReport, r.bytes = bytes) ∧
      (bytes.length ≠ 40 →
        m.ingestReportBytes bytes = .error (.size 40 bytes.length) ∧
          (report bytes).make.run m = .error (.size 40 bytes.length) m)) ∧
    ∀ (m : Monitor) (as : List Attempt),
      as.foldl (fun m a => a.after m) m = (as.filter isSound).foldl (fun m a => a.after m) m := by
  refine ⟨fun ps => (Segment.checks_ofParameters ps).isOk_iff,
    fun _ _ => Segment.ofParameters_eq_ok_iff, Segment.checks_ofParameters,
    fun _ _ _ _ => Segment.ofParameters_skip_unknown, fun _ _ _ => Segment.ofParameters_skip_later,
    fun _ _ => Segment.ofParameters_reorder,
    fun m ps => ⟨fun s => event_of_ok m, fun fault => event_of_error m⟩,
    fun m bytes => ⟨fun r hread => ?_, fun hlength => ?_, fun hlength => ?_⟩, after_run⟩
  · exact report_of_ok m (SocketReport.ofBytes_eq_ok_iff.2 hread)
  · exact ⟨_, SocketReport.bytes_ofImage hlength⟩
  · exact report_of_error m (SocketReport.ofBytes_eq_error_iff.2 ⟨hlength, rfl⟩)

end Attempt

end FlowProbe
