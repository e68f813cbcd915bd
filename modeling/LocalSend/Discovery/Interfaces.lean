import Mathlib.Data.List.Dedup
import Mathlib.Data.List.Sort

/-!
# The interfaces that multicast uses

`src/discovery/multicast/interfaces.rs`.
-/

namespace LocalSend

/-- An `Ipv4Addr`, as the number that its octets are, which they are ordered by. -/
abbrev Ipv4Addr := BitVec 32

namespace Ipv4Addr

def isUnspecified (a : Ipv4Addr) : Bool := a = 0

def isLoopback (a : Ipv4Addr) : Bool := a >>> 24 = 127

end Ipv4Addr

/-- An interface: its name, an address of it and the netmask of that address. -/
structure InterfaceAddress where
  name : String
  address : Ipv4Addr
  netmask : Ipv4Addr
deriving DecidableEq, Repr

/-- `collect::<BTreeSet<_>>().into_iter().collect()`. -/
def collectSorted (addresses : List Ipv4Addr) : List Ipv4Addr :=
  addresses.dedup.insertionSort fun a b => a ≤ b

def sameSubnet (address primary netmask : Ipv4Addr) : Bool :=
  address &&& netmask = primary &&& netmask

/-- An address that is neither unspecified nor loopback. -/
def isUsable (address : Ipv4Addr) : Bool := !address.isUnspecified && !address.isLoopback

def selectInterfaceAddresses (addresses : List InterfaceAddress)
    (interfaceNames : Option (List String)) (primary : Option Ipv4Addr) : List Ipv4Addr :=
  collectSorted <| ((((addresses
    |>.filter fun e => interfaceNames.all fun names => names.contains e.name)
    |>.filter fun e => isUsable e.address)
    |>.filter fun e => primary.all fun primary => sameSubnet e.address primary e.netmask)
    |>.map InterfaceAddress.address)

def containerBridgePrefixes : List String :=
  ["br-", "docker", "veth", "virbr", "vboxnet", "vmnet", "lxcbr", "lxdbr", "podman", "cni-"]

def isContainerBridge (name : String) : Bool :=
  containerBridgePrefixes.any fun p => p.toList.isPrefixOf name.toList

/-- What `without_container_bridges` keeps, where there is such an entry. -/
def survivesBridgeFilter (primary : Option Ipv4Addr) (e : InterfaceAddress) : Bool :=
  some e.address = primary || !isContainerBridge e.name

def withoutContainerBridges (addresses : List InterfaceAddress) (primary : Option Ipv4Addr) :
    List InterfaceAddress :=
  let kept := addresses.filter (survivesBridgeFilter primary)
  if kept.isEmpty then addresses else kept

def selectMulticastCandidateAddresses (addresses : List InterfaceAddress)
    (interfaceNames : Option (List String)) (primary : Option Ipv4Addr) : List Ipv4Addr :=
  if interfaceNames.isSome then selectInterfaceAddresses addresses interfaceNames none
  else
    let addresses := withoutContainerBridges addresses primary
    let candidates := selectInterfaceAddresses addresses none primary
    (selectInterfaceAddresses addresses none none).foldl
      (fun candidates address =>
        if candidates.contains address then candidates else candidates ++ [address]) candidates

end LocalSend
