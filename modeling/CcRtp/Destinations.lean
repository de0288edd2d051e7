/-
# The destinations of packets

Models the destination list of `OutgoingDataQueue` (`src/outqueue.cpp`), with the loops of
`dispatchImmediate` and `sendControlToDestinations` (`src/control.cpp`) over it.  A socket
remembers the peer that was set last and sends to it.  What is sent, and whether it is protected
before, does not matter here; the destinations are IPv4 ones.

With a single destination `dispatchImmediate` sets the peer nevertheless ("if going from multi
destinations to single destinations"), and `sendControlToDestinations` does not.

* `dispatchImmediate_fst` : data packets always go to the destinations;
* `sendControlToDestinations_fst_iff` : when control packets do;
* `packets_reach_destinations_iff` : the same over whole runs.
-/
import CcRtp.Membership
import CcRtp.AlongRun

/-- `TransportAddress`: an entry of the destination list. -/
structure TransportAddress where
  networkAddress : InetAddress
  dataTransportPort : BitVec 16
  controlTransportPort : BitVec 16
  deriving DecidableEq

namespace TransportAddress

/-- Where data packets for the entry go. -/
def data (d : TransportAddress) : SocketAddress := ⟨d.networkAddress, d.dataTransportPort⟩

/-- Where control packets for the entry go. -/
def control (d : TransportAddress) : SocketAddress := ⟨d.networkAddress, d.controlTransportPort⟩

end TransportAddress

/-- The destination list, and the peers that the two sockets remember. -/
structure Destinations where
  destList : List TransportAddress
  dataPeer : Option SocketAddress
  controlPeer : Option SocketAddress

/-! ## The functions of the source -/

namespace Destinations

/-- No destination has been added. -/
def new : Destinations := ⟨[], none, none⟩

/-- `isSingleDestination()` -/
def isSingleDestination (s : Destinations) : Bool := s.destList.length = 1

/-- `setDataPeer(host, port)` -/
def setDataPeer (s : Destinations) (addr : SocketAddress) : Destinations :=
  { s with dataPeer := some addr }

/-- `setControlPeer(host, port)` -/
def setControlPeer (s : Destinations) (addr : SocketAddress) : Destinations :=
  { s with controlPeer := some addr }

/-- `sendData(buffer, len)`: where the packet goes. -/
def sendData (s : Destinations) : List SocketAddress := s.dataPeer.toList

/-- `sendControl(buffer, len)`: where the packet goes. -/
def sendControl (s : Destinations) : List SocketAddress := s.controlPeer.toList

/-- The control port that is used if none is given. -/
def controlPortFor (dataPort controlPort : BitVec 16) : BitVec 16 :=
  if controlPort = 0 then dataPort + 1 else controlPort

/-- `addDestination(ia, dataPort, controlPort)` -/
def addDestination (s : Destinations) (ia : InetAddress) (dataPort controlPort : BitVec 16) :
    Destinations :=
  let addr : TransportAddress := ⟨ia, dataPort, controlPortFor dataPort controlPort⟩
  -- `addDestinationToList`
  let s := { s with destList := s.destList ++ [addr] }
  if s.isSingleDestination then (s.setDataPeer addr.data).setControlPeer addr.control else s

/-- `forgetDestination(ia, dataPort, controlPort)`: whether there was such an entry; only the
first one is removed. -/
def forgetDestination (s : Destinations) (ia : InetAddress) (dataPort controlPort : BitVec 16) :
    Bool × Destinations :=
  let addr : TransportAddress := ⟨ia, dataPort, controlPortFor dataPort controlPort⟩
  -- `removeDestinationFromList`
  (decide (addr ∈ s.destList), { s with destList := s.destList.erase addr })

/-- The loop of `dispatchImmediate`. -/
def dataLoop : List TransportAddress → Destinations → List SocketAddress × Destinations
  | [], s => ([], s)
  | dest :: l, s =>
      let s := s.setDataPeer dest.data
      let r := dataLoop l s
      (s.sendData ++ r.1, r.2)

/-- `dispatchImmediate(packet)`: where the packet goes. -/
def dispatchImmediate (s : Destinations) : List SocketAddress × Destinations :=
  match s.isSingleDestination, s.destList with
  | true, tmp :: _ =>
      let s := s.setDataPeer tmp.data
      (s.sendData, s)
  | _, _ => dataLoop s.destList s

/-- The loop of `sendControlToDestinations`. -/
def controlLoop : List TransportAddress → Destinations → List SocketAddress × Destinations
  | [], s => ([], s)
  | dest :: l, s =>
      let s := s.setControlPeer dest.control
      let r := controlLoop l s
      (s.sendControl ++ r.1, r.2)

/-- `sendControlToDestinations(buffer, len)`: where the packet goes. -/
def sendControlToDestinations (s : Destinations) : List SocketAddress × Destinations :=
  if s.isSingleDestination then (s.sendControl, s) else controlLoop s.destList s

end Destinations

/-- A change of the list, or a packet to be sent. -/
inductive DestinationCall : Type where
  | addDestination (ia : InetAddress) (dataPort controlPort : BitVec 16)
  | forgetDestination (ia : InetAddress) (dataPort controlPort : BitVec 16)
  | dispatchImmediate
  | sendControlToDestinations

namespace Destinations

/-- One call. -/
def perform (s : Destinations) : DestinationCall → Destinations
  | .addDestination ia dataPort controlPort => s.addDestination ia dataPort controlPort
  | .forgetDestination ia dataPort controlPort => (s.forgetDestination ia dataPort controlPort).2
  | .dispatchImmediate => s.dispatchImmediate.2
  | .sendControlToDestinations => s.sendControlToDestinations.2

/-- A packet is sent once to each entry of the list, and to no other address. -/
def Reaches (s : Destinations) : DestinationCall → Prop
  | .dispatchImmediate => s.dispatchImmediate.1.Perm (s.destList.map TransportAddress.data)
  | .sendControlToDestinations =>
      s.sendControlToDestinations.1.Perm (s.destList.map TransportAddress.control)
  | _ => True

/-- If there is a single destination, the control socket remembers it. -/
def PeerIsCurrent (s : Destinations) : Prop :=
  ∀ d, s.destList = [d] → s.controlPeer = some d.control

/-- The single destination is remembered when a control packet is sent to it. -/
def SendsToCurrentPeer (s : Destinations) (call : DestinationCall) : Prop :=
  call = .sendControlToDestinations → s.PeerIsCurrent

/-- The list shrinks to a single destination. -/
def LeavesSingle (s : Destinations) (call : DestinationCall) : Prop :=
  ∃ ia dataPort controlPort, call = .forgetDestination ia dataPort controlPort ∧
    s.isSingleDestination = false ∧ (s.perform call).isSingleDestination = true

/-! ## Where packets go -/

variable {s : Destinations}

/-- There is one destination. -/
theorem isSingleDestination_iff : s.isSingleDestination = true ↔ ∃ d, s.destList = [d] := by
  rw [isSingleDestination, decide_eq_true_iff]
  exact List.length_eq_one_iff

/-- The packets go to the data ports of the destinations, in their order. -/
theorem dataLoop_fst (l : List TransportAddress) :
    ∀ s : Destinations, (dataLoop l s).1 = l.map TransportAddress.data := by
  induction l with
  | nil => exact fun _ => rfl
  | cons dest l ih =>
      intro s
      rw [dataLoop, List.map_cons, ← ih (s.setDataPeer dest.data)]
      rfl

/-- The packets go to the control ports of the destinations, in their order. -/
theorem controlLoop_fst (l : List TransportAddress) :
    ∀ s : Destinations, (controlLoop l s).1 = l.map TransportAddress.control := by
  induction l with
  | nil => exact fun _ => rfl
  | cons dest l ih =>
      intro s
      rw [controlLoop, List.map_cons, ← ih (s.setControlPeer dest.control)]
      rfl

/-- **Data packets go to the destinations**, whatever is remembered. -/
theorem dispatchImmediate_fst (s : Destinations) :
    s.dispatchImmediate.1 = s.destList.map TransportAddress.data := by
  rw [dispatchImmediate]
  cases hsingle : s.isSingleDestination with
  | false => exact dataLoop_fst s.destList s
  | true =>
      obtain ⟨d, hd⟩ := isSingleDestination_iff.mp hsingle
      rw [hd]
      rfl

/-- **Control packets go to the destinations** if there is not a single one, or the control
socket remembers it. -/
theorem sendControlToDestinations_fst_iff (s : Destinations) :
    s.sendControlToDestinations.1.Perm (s.destList.map TransportAddress.control) ↔
      s.PeerIsCurrent := by
  rw [sendControlToDestinations]
  split_ifs with hsingle
  · obtain ⟨d, hd⟩ := isSingleDestination_iff.mp hsingle
    rw [hd, List.map_singleton, List.perm_singleton, PeerIsCurrent, hd, sendControl]
    constructor
    · rintro hpeer d' ⟨⟩
      cases hcontrol : s.controlPeer with
      | none =>
          rw [hcontrol] at hpeer
          cases hpeer
      | some addr =>
          rw [hcontrol] at hpeer
          exact congrArg some (List.cons.inj hpeer).1
    · intro hpeer
      rw [hpeer d rfl]
      rfl
  · rw [controlLoop_fst]
    refine iff_of_true (List.Perm.refl _) ?_
    intro d hd
    exact absurd (isSingleDestination_iff.mpr ⟨d, hd⟩) hsingle

/-- One call. -/
theorem reaches_iff (s : Destinations) (call : DestinationCall) :
    s.Reaches call ↔ s.SendsToCurrentPeer call := by
  cases call with
  | dispatchImmediate =>
      refine iff_of_true ?_ (fun h => by cases h)
      rw [Reaches, dispatchImmediate_fst]
  | sendControlToDestinations =>
      rw [Reaches, sendControlToDestinations_fst_iff]
      exact ⟨fun h _ => h, fun h => h rfl⟩
  | addDestination ia dataPort controlPort => exact iff_of_true trivial (fun h => by cases h)
  | forgetDestination ia dataPort controlPort => exact iff_of_true trivial (fun h => by cases h)

/-- The list stays as it is, and so does the control peer. -/
theorem dataLoop_snd (l : List TransportAddress) :
    ∀ s : Destinations, (dataLoop l s).2.destList = s.destList ∧
      (dataLoop l s).2.controlPeer = s.controlPeer := by
  induction l with
  | nil => exact fun _ => ⟨rfl, rfl⟩
  | cons dest l ih => exact fun s => ih (s.setDataPeer dest.data)

/-- The list stays as it is. -/
theorem controlLoop_snd (l : List TransportAddress) :
    ∀ s : Destinations, (controlLoop l s).2.destList = s.destList := by
  induction l with
  | nil => exact fun _ => rfl
  | cons dest l ih => exact fun s => ih (s.setControlPeer dest.control)

/-- Data packets leave the list and the control socket alone. -/
theorem dispatchImmediate_snd (s : Destinations) :
    s.dispatchImmediate.2.destList = s.destList ∧
      s.dispatchImmediate.2.controlPeer = s.controlPeer := by
  rw [dispatchImmediate]
  split
  · exact ⟨rfl, rfl⟩
  · exact dataLoop_snd s.destList s

/-- **The peer becomes outdated only when the list shrinks to a single destination.** -/
theorem peerIsCurrent_perform (h : s.PeerIsCurrent) {call : DestinationCall}
    (hcall : ¬ s.LeavesSingle call) : (s.perform call).PeerIsCurrent := by
  cases call with
  | addDestination ia dataPort controlPort =>
      rw [perform, addDestination]
      split_ifs with hsingle
      · -- the new entry is the only one, and its addresses have just been set
        intro d hd
        have hlast := congrArg List.getLast? hd
        rw [setControlPeer, setDataPeer, List.getLast?_concat, List.getLast?_singleton,
          Option.some_inj] at hlast
        rw [← hlast]
        rfl
      · intro d hd
        exact absurd (isSingleDestination_iff.mpr ⟨d, hd⟩) hsingle
  | forgetDestination ia dataPort controlPort =>
      intro d hd
      have hsingle : s.isSingleDestination = true := by
        by_contra hmany
        exact hcall ⟨ia, dataPort, controlPort, rfl, (Bool.not_eq_true _).mp hmany,
          isSingleDestination_iff.mpr ⟨d, hd⟩⟩
      -- nothing was removed
      obtain ⟨d', hd'⟩ := isSingleDestination_iff.mp hsingle
      have hsub : [d].Sublist [d'] := by
        rw [← hd', ← hd]
        exact List.erase_sublist
      rw [List.singleton_sublist, List.mem_singleton] at hsub
      exact h d (hsub ▸ hd')
  | dispatchImmediate =>
      obtain ⟨hlist, hpeer⟩ := s.dispatchImmediate_snd
      intro d hd
      exact hpeer.trans (h d (hlist.symm.trans hd))
  | sendControlToDestinations =>
      rw [perform, sendControlToDestinations]
      split_ifs with hsingle
      · exact h
      · intro d hd
        rw [controlLoop_snd] at hd
        exact absurd (isSingleDestination_iff.mpr ⟨d, hd⟩) hsingle

end Destinations

open Destinations

/-- **Packets go to exactly the current destinations** if and only if, whenever a control packet
is sent to a single destination, the control socket remembers that one.  This is so in every
run in which `forgetDestination` never leaves a single destination of several. -/
theorem packets_reach_destinations_iff (calls : List DestinationCall) :
    (AlongRun perform Reaches new calls ↔ AlongRun perform SendsToCurrentPeer new calls) ∧
      (AlongRun perform (fun s call => ¬ s.LeavesSingle call) new calls →
        AlongRun perform Reaches new calls) := by
  have hiff : AlongRun perform Reaches new calls ↔ AlongRun perform SendsToCurrentPeer new calls :=
    ⟨AlongRun.mono (fun s call => (s.reaches_iff call).mp),
      AlongRun.mono (fun s call => (s.reaches_iff call).mpr)⟩
  refine ⟨hiff, fun hcalls => hiff.mpr ?_⟩
  have hstep : ∀ (s : Destinations) (call : DestinationCall), s.PeerIsCurrent →
      ¬ s.LeavesSingle call → s.SendsToCurrentPeer call ∧ (s.perform call).PeerIsCurrent :=
    fun s call hs hcall => ⟨fun _ => hs, peerIsCurrent_perform hs hcall⟩
  exact alongRun_of_invariant hstep (fun d hd => by cases hd) hcalls

/-- Two destinations, a control packet to both, and the second one is forgotten: the next
control packet goes there nevertheless. -/
theorem packets_reach_forgotten_destination :
    (((new.addDestination 1 5004 0).addDestination 2 5004 0).sendControlToDestinations.2
      |>.forgetDestination 2 5004 0).2.sendControlToDestinations.1 = [⟨2, 5005⟩] ∧
      ¬ AlongRun perform Reaches new
        [.addDestination 1 5004 0, .addDestination 2 5004 0, .sendControlToDestinations,
          .forgetDestination 2 5004 0, .sendControlToDestinations] := by
  refine ⟨rfl, ?_⟩
  rintro ⟨-, -, -, -, hreaches, -⟩
  rw [Reaches, sendControlToDestinations_fst_iff] at hreaches
  exact absurd (hreaches ⟨1, 5004, 5005⟩ rfl) (by decide)
