import FlowProbe.Net.Interfaces
import FlowProbe.Proofs.Keyed
import Mathlib.Data.List.Infix

/-! What the interface table says of the devices it was built from.

The prefixes of two kinds never begin the same name, so a name announces at most one kind, whatever
the order in which the prefixes are tried (`InterfaceKind.ofName?_eq_some_iff`). Entering a device
changes the kind of its own index, if its name announces one, and the owner of its own addresses,
unless it is loopback (`kind?_add`, `owner?_add`). By induction from the last device to the first,
the table holds for each index and each address what the last device that had something to say
about it said (`kind?_ofInterfaces`, `owner?_ofInterfaces`). -/
namespace FlowProbe

/-! ### The last element with a property -/

section Last

variable {α : Type} {p : α → Prop} {l : List α} {a b : α}

/-- The last element of a list that has a property. -/
def IsLast (l : List α) (p : α → Prop) (a : α) : Prop :=
  ∃ front back, l = front ++ a :: back ∧ p a ∧ ∀ b ∈ back, ¬p b

theorem not_isLast_nil : ¬IsLast [] p a := by
  rintro ⟨front, back, hl, -⟩
  exact List.append_ne_nil_of_right_ne_nil front (List.cons_ne_nil a back) hl.symm

theorem isLast_concat : IsLast (l ++ [b]) p a ↔ (p b ∧ a = b) ∨ (¬p b ∧ IsLast l p a) := by
  constructor
  · rintro ⟨front, back, hl, ha, hback⟩
    -- Behind `a` stands nothing, so `a` is `b`, or a list that ends with `b`.
    rcases List.eq_nil_or_concat back with rfl | ⟨back, c, rfl⟩
    · obtain ⟨rfl, hb⟩ := List.append_inj' hl rfl
      obtain rfl : b = a := List.singleton_inj.1 hb
      exact .inl ⟨ha, rfl⟩
    · rw [List.concat_eq_append] at hl hback
      rw [← List.cons_append, ← List.append_assoc] at hl
      obtain ⟨rfl, hc⟩ := List.append_inj' hl rfl
      obtain rfl : b = c := List.singleton_inj.1 hc
      rw [List.forall_mem_append, List.forall_mem_singleton] at hback
      exact .inr ⟨hback.2, front, back, rfl, ha, hback.1⟩
  · rintro (⟨hb, rfl⟩ | ⟨hb, front, back, rfl, ha, hback⟩)
    · exact ⟨l, [], rfl, hb, List.forall_mem_nil _⟩
    · refine ⟨front, back ++ [b], by rw [List.append_assoc, List.cons_append], ha, ?_⟩
      exact List.forall_mem_append.2 ⟨hback, List.forall_mem_singleton.2 hb⟩

theorem IsLast.mem (h : IsLast l p a) : a ∈ l := by
  obtain ⟨front, back, rfl, -⟩ := h
  exact List.mem_append_right front List.mem_cons_self

theorem IsLast.holds (h : IsLast l p a) : p a := by
  obtain ⟨front, back, -, ha, -⟩ := h
  exact ha

/-- Where any element has the property, one of them is the last. -/
theorem exists_isLast (ha : a ∈ l) (hp : p a) : ∃ b, IsLast l p b := by
  induction l using List.reverseRecOn with
  | nil => exact absurd ha List.not_mem_nil
  | append_singleton l b ih =>
    by_cases hb : p b
    · exact ⟨b, isLast_concat.2 (.inl ⟨hb, rfl⟩)⟩
    · have hl : a ∈ l := by
        rcases List.mem_append.1 ha with hl | hb'
        · exact hl
        · exact absurd (List.mem_singleton.1 hb' ▸ hp) hb
      obtain ⟨c, hc⟩ := ih hl
      exact ⟨c, isLast_concat.2 (.inr ⟨hb, hc⟩)⟩

end Last

/-! ### Names and kinds -/

namespace InterfaceKind

/-- How the names of a kind begin. -/
def prefixes : InterfaceKind → List String
  | .container => ["veth", "cali"]
  | .physical => ["en", "eth"]
  | .networkDevice => ["cni0", "flannel"]

/-- The name begins as those of the kind do. -/
def IsAnnouncedBy (kind : InterfaceKind) (name : String) : Prop :=
  ∃ s ∈ kind.prefixes, s.toList <+: name.toList

variable {kind other : InterfaceKind} {name : String}

/-- No prefix of one kind goes on with a prefix of another. -/
theorem prefixes_apart : ∀ kind other : InterfaceKind, kind ≠ other →
    ∀ s ∈ kind.prefixes, ∀ s' ∈ other.prefixes, ¬s.toList <+: s'.toList := by
  intro kind other
  cases kind <;> cases other <;> simp [prefixes]

theorem IsAnnouncedBy.unique (h : kind.IsAnnouncedBy name) (h' : other.IsAnnouncedBy name) :
    kind = other := by
  obtain ⟨s, hs, hname⟩ := h
  obtain ⟨s', hs', hname'⟩ := h'
  by_contra hne
  rcases List.prefix_or_prefix_of_prefix hname hname' with hle | hle
  · exact prefixes_apart kind other hne s hs s' hs' hle
  · exact prefixes_apart other kind (Ne.symm hne) s' hs' s hs hle

theorem not_isAnnouncedBy_lo : ¬kind.IsAnnouncedBy "lo" := by
  cases kind <;> simp [IsAnnouncedBy, prefixes]

/-- The order in which the prefixes are tried does not count. -/
theorem ofName?_eq_some_iff : ofName? name = some kind ↔ kind.IsAnnouncedBy name := by
  have hpair : ∀ s s' : String,
      (s.toList.isPrefixOf name.toList || s'.toList.isPrefixOf name.toList) = true ↔
        ∃ t ∈ [s, s'], t.toList <+: name.toList := by
    simp
  have hsome : ∀ {k : InterfaceKind}, k.IsAnnouncedBy name →
      (some k = some kind ↔ kind.IsAnnouncedBy name) := by
    intro k hk
    rw [Option.some.injEq]
    exact ⟨fun h => h ▸ hk, hk.unique⟩
  simp only [ofName?]
  split_ifs with hlo hcontainer hphysical hfabric
  · subst hlo
    simp only [not_isAnnouncedBy_lo]
  · exact hsome (k := container) ((hpair _ _).1 hcontainer)
  · exact hsome (k := physical) ((hpair _ _).1 hphysical)
  · exact hsome (k := networkDevice) ((hpair _ _).1 hfabric)
  · simp only [false_iff]
    intro h
    cases kind with
    | container => exact hcontainer ((hpair _ _).2 h)
    | physical => exact hphysical ((hpair _ _).2 h)
    | networkDevice => exact hfabric ((hpair _ _).2 h)

theorem ofName?_lo : ofName? "lo" = none := rfl

end InterfaceKind

/-! ### Entering devices -/

namespace Interface

/-- The name of the device announces a kind. -/
def IsClassified (d : Interface) : Prop := ∃ kind : InterfaceKind, kind.IsAnnouncedBy d.name

/-- The device names the address, and not as loopback. -/
def Lists (d : Interface) (ip : Ipv4) : Prop := d.name ≠ "lo" ∧ ip ∈ d.addresses

instance (d : Interface) (ip : Ipv4) : Decidable (d.Lists ip) := inferInstanceAs (Decidable (_ ∧ _))

theorem ofName?_eq_none_iff {d : Interface} :
    InterfaceKind.ofName? d.name = none ↔ ¬d.IsClassified := by
  simp only [IsClassified, ← InterfaceKind.ofName?_eq_some_iff, Option.eq_none_iff_forall_ne_some,
    not_exists, ne_eq]

end Interface

namespace InterfaceTable

variable {index : UInt32} {kind : InterfaceKind} {ip : Ipv4}

theorem kind?_add (t : InterfaceTable) (d : Interface) (index : UInt32) :
    (t.add d).kind? index =
      if d.index = index then (InterfaceKind.ofName? d.name).or (t.kind? index)
      else t.kind? index := by
  rw [add]
  by_cases hlo : d.name = "lo"
  · simp [hlo, InterfaceKind.ofName?_lo]
  · rw [if_neg hlo]
    cases hname : InterfaceKind.ofName? d.name with
    | none => simp [kind?]
    | some kind => simp [kind?, eq_comm]

theorem owner?_add (t : InterfaceTable) (d : Interface) (ip : Ipv4) :
    (t.add d).owner? ip = if d.Lists ip then some d.index else t.owner? ip := by
  rw [add]
  by_cases hlo : d.name = "lo"
  · simp [hlo, Interface.Lists]
  · simp [hlo, Interface.Lists, owner?, Keyed.find?_foldl_insert]

variable (devices : List Interface) (overlay : Option Overlay)

theorem ofInterfaces_concat (d : Interface) :
    ofInterfaces (devices ++ [d]) overlay = (ofInterfaces devices overlay).add d :=
  List.foldl_concat add { overlay } d devices

/-- The kind of an index is that of the last device that has the index and a classified name. -/
theorem kind?_ofInterfaces : (ofInterfaces devices overlay).kind? index = some kind ↔
    ∃ d, IsLast devices (fun d => d.index = index ∧ d.IsClassified) d ∧
      kind.IsAnnouncedBy d.name := by
  induction devices using List.reverseRecOn with
  | nil => simp [not_isLast_nil, ofInterfaces, kind?]
  | append_singleton devices d ih =>
    rw [ofInterfaces_concat, kind?_add]
    simp only [isLast_concat]
    -- The device that is entered last decides, or it leaves what those before it said.
    by_cases hd : d.index = index ∧ d.IsClassified
    · obtain ⟨k, hk⟩ := hd.2
      have hname : InterfaceKind.ofName? d.name = some k := InterfaceKind.ofName?_eq_some_iff.2 hk
      simp [hd, hname, ← InterfaceKind.ofName?_eq_some_iff]
    · have hkept : (if d.index = index then
          (InterfaceKind.ofName? d.name).or ((ofInterfaces devices overlay).kind? index)
          else (ofInterfaces devices overlay).kind? index) =
            (ofInterfaces devices overlay).kind? index := by
        split_ifs with hindex
        · have hname := Interface.ofName?_eq_none_iff.2 fun h => hd ⟨hindex, h⟩
          rw [hname, Option.none_or]
        · rfl
      simp [hkept, hd, ih]

/-- The owner of an address is the index of the last device that lists it. -/
theorem owner?_ofInterfaces : (ofInterfaces devices overlay).owner? ip = some index ↔
    ∃ d, IsLast devices (fun d => d.Lists ip) d ∧ d.index = index := by
  induction devices using List.reverseRecOn with
  | nil => simp [not_isLast_nil, ofInterfaces, owner?]
  | append_singleton devices d ih =>
    rw [ofInterfaces_concat, owner?_add]
    simp only [isLast_concat]
    by_cases hd : d.Lists ip
    · simp [hd]
    · simp [hd, ih]

theorem overlay_ofInterfaces : (ofInterfaces devices overlay).overlay = overlay := by
  induction devices using List.reverseRecOn with
  | nil => rfl
  | append_singleton devices d ih =>
    rw [ofInterfaces_concat, add]
    split_ifs <;> exact ih

/-! ### The image of a device list -/

/-- The table shows of each index and each address what the last device that says something about it
says. -/
structure Shows (t : InterfaceTable) (devices : List Interface) (overlay : Option Overlay) :
    Prop where
  kind : ∀ index kind, t.kind? index = some kind ↔
    ∃ d, IsLast devices (fun d => d.index = index ∧ d.IsClassified) d ∧ kind.IsAnnouncedBy d.name
  unclassified : ∀ index, t.kind? index = none ↔
    ∀ d ∈ devices, d.index = index → ¬d.IsClassified
  owner : ∀ ip index, t.owner? ip = some index ↔
    ∃ d, IsLast devices (fun d => d.Lists ip) d ∧ d.index = index
  unowned : ∀ ip, t.owner? ip = none ↔ ∀ d ∈ devices, ip ∈ d.addresses → d.name = "lo"
  overlay : t.overlay = overlay

theorem shows_ofInterfaces : (ofInterfaces devices overlay).Shows devices overlay where
  kind _ _ := kind?_ofInterfaces devices overlay
  unclassified index := by
    simp only [Option.eq_none_iff_forall_ne_some, ne_eq, kind?_ofInterfaces]
    constructor
    · intro h d hd hindex hclassified
      obtain ⟨b, hb⟩ := exists_isLast (p := fun d => d.index = index ∧ d.IsClassified) hd
        ⟨hindex, hclassified⟩
      obtain ⟨kind, hkind⟩ := hb.holds.2
      exact h kind ⟨b, hb, hkind⟩
    · rintro h kind ⟨d, hd, hkind⟩
      exact h d hd.mem hd.holds.1 ⟨kind, hkind⟩
  owner _ _ := owner?_ofInterfaces devices overlay
  unowned ip := by
    simp only [Option.eq_none_iff_forall_ne_some, ne_eq, owner?_ofInterfaces]
    constructor
    · intro h d hd hip
      by_contra hlo
      obtain ⟨b, hb⟩ := exists_isLast (p := fun d => d.Lists ip) hd ⟨hlo, hip⟩
      exact h b.index ⟨b, hb, rfl⟩
    · rintro h index ⟨d, hd, -⟩
      exact hd.holds.1 (h d hd.mem hd.holds.2)
  overlay := overlay_ofInterfaces devices overlay

/-- **The table shows the last device that counts.** Whatever devices a source enumerates, with or
without an overlay, a table is built that shows them: the kind of an index is that of the last
device with that index whose name has a prefix of a kind, the owner of an address is the last device
but loopback that lists it, and nothing else is there. A source that fails leaves its own fault, that
of the interfaces first. -/
theorem build_last_wins :
    (∀ devices overlay, ∃ t, build ⟨.ok devices, .ok overlay⟩ = .ok t ∧ t.Shows devices overlay) ∧
    (∀ fault overlay, build ⟨.error fault, overlay⟩ = .error fault) ∧
    ∀ devices fault, build ⟨.ok devices, .error fault⟩ = .error fault :=
  ⟨fun devices overlay => ⟨_, rfl, shows_ofInterfaces devices overlay⟩, fun _ _ => rfl,
    fun _ _ => rfl⟩

-- A bridge without a kind takes an address over and leaves the kind; loopback changes nothing.
example :
    let devices : List Interface :=
      [⟨"veth9a1b", 7, [⟨1⟩, ⟨2⟩]⟩, ⟨"docker0", 7, [⟨3⟩]⟩, ⟨"br0", 8, [⟨2⟩]⟩, ⟨"lo", 7, [⟨1⟩, ⟨4⟩]⟩]
    let t := ofInterfaces devices none
    t.kind? 7 = some .container ∧ [1, 2, 3, 4].map (fun ip => t.owner? ⟨ip⟩) =
      [some 7, some 8, some 7, none] := by
  decide

end InterfaceTable

end FlowProbe
