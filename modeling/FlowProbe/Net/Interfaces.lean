import FlowProbe.Fault
import FlowProbe.Flow
import FlowProbe.Keyed

/-! The interfaces of a node and what they say about a flow.

An interface's kind is read off its name. `InterfaceTable.build` turns an enumeration into
the kind of each index, the owner of each address and the overlay network; the last
device that names an index or an address wins, and loopback names nothing. A source that
fails leaves no table.

`direction` says which way a packet of a flow travels as the local workload sees it. It
asks three questions in turn: which endpoint is a local address, which one is in the
overlay, and what the capture's hint says. A veth pair is captured on the host's side, so
a packet received there was sent by the workload. -/
namespace FlowProbe

inductive InterfaceKind where
  /-- The host's side of a workload's veth pair. -/
  | container
  | physical
  /-- A device of the network fabric. -/
  | networkDevice
  deriving DecidableEq, Repr

namespace InterfaceKind

def label : InterfaceKind → String
  | .container => "Container"
  | .physical => "Physical"
  | .networkDevice => "NetworkDevice"

/-- The kind a name announces. -/
def ofName? (name : String) : Option InterfaceKind :=
  let starts (s : String) : Bool := s.toList.isPrefixOf name.toList
  if name = "lo" then none
  else if starts "veth" || starts "cali" then some .container
  else if starts "en" || starts "eth" then some .physical
  else if starts "cni0" || starts "flannel" then some .networkDevice
  else none

end InterfaceKind

structure Interface where
  name : String
  index : UInt32
  addresses : List Ipv4
  deriving DecidableEq, Repr

/-- The network that the cluster lays over its nodes, and the bridge that leads to it. -/
structure Overlay where
  network : Subnet
  index : UInt32
  deriving DecidableEq, Repr

def Overlay.ofCidr (text : String) (index : UInt32) : Except Fault Overlay :=
  match Subnet.ofCidr text with
  | .ok network => .ok ⟨network, index⟩
  | .error cause => .error (.subnet text cause)

/-- What enumerates the interfaces of a node. Either answer may fail. -/
structure InterfaceSource where
  interfaces : Except Fault (List Interface)
  overlay : Except Fault (Option Overlay)

inductive Direction where
  /-- Out of the local side. -/
  | sent
  /-- Into the local side. -/
  | received
  deriving DecidableEq, Repr

namespace Direction

def label : Direction → String
  | .sent => "Sent"
  | .received => "Received"

def code : Direction → Int32
  | .sent => 1
  | .received => 0

def opposite : Direction → Direction
  | .sent => .received
  | .received => .sent

end Direction

structure InterfaceTable where
  kinds : Keyed UInt32 InterfaceKind := .empty
  owners : Keyed Ipv4 UInt32 := .empty
  overlay : Option Overlay := none
  deriving DecidableEq, Repr, Inhabited

namespace InterfaceTable

/-- Enters one device. -/
def add (t : InterfaceTable) (i : Interface) : InterfaceTable :=
  if i.name = "lo" then t
  else
    { t with
      kinds := match InterfaceKind.ofName? i.name with
        | some kind => t.kinds.insert i.index kind
        | none => t.kinds
      owners := i.addresses.foldl (fun owners ip => owners.insert ip i.index) t.owners }

def ofInterfaces (interfaces : List Interface) (overlay : Option Overlay) : InterfaceTable :=
  interfaces.foldl add { overlay }

def build (source : InterfaceSource) : Except Fault InterfaceTable :=
  match source.interfaces with
  | .error fault => .error fault
  | .ok interfaces =>
    match source.overlay with
    | .error fault => .error fault
    | .ok overlay => .ok (ofInterfaces interfaces overlay)

def kind? (t : InterfaceTable) (index : UInt32) : Option InterfaceKind := t.kinds.find? index

/-- Whether packets captured on `index` are traffic of a workload. -/
def isContainer (t : InterfaceTable) (index : UInt32) : Bool := t.kind? index == some .container

def owner? (t : InterfaceTable) (ip : Ipv4) : Option UInt32 := t.owners.find? ip

def owns (t : InterfaceTable) (ip : Ipv4) : Bool := (t.owner? ip).isSome

def inOverlay (t : InterfaceTable) (ip : Ipv4) : Bool :=
  match t.overlay with
  | some overlay => overlay.network.contains ip
  | none => false

/-- Which way a packet of `f` travels, `hint` deciding when the endpoints do not. -/
def direction (t : InterfaceTable) (f : Flow) (hint : UInt8) : Direction :=
  if t.owns f.source != t.owns f.dest then
    if t.owns f.source then .sent else .received
  else if t.inOverlay f.source != t.inOverlay f.dest then
    if t.inOverlay f.source then .sent else .received
  else if hint = CaptureHint.receive.code then .sent
  else .received

end InterfaceTable

end FlowProbe
