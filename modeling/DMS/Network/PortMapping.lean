import DMS.Core.GoMap
import DMS.Core.GoValue
import Mathlib.Data.Finset.Union

/-! # Mapping ports into a subnet

`MapPort` and `UnmapPort` of `network/libp2p/subnet_linux.go`, `DestroySubnet` of `subnet.go`
and the rules of `utils/sys/net_linux.go`. The firewall is a set of rules; what is added and what
is deleted are two different lists of them.
-/

namespace DMS.Network

open List AList

/-- The arguments of `iptables` after the command. -/
abbrev Rule := List GoString

/-! ## Rules -/

/-- `-C` and, when the rule is not there, `-A`. -/
def addRule (rule : Rule) (rules : Finset Rule) : Finset Rule :=
  if rule ∉ rules then insert rule rules else rules

/-- `-C` and, when the rule is there, `-D`. -/
def delRule (rule : Rule) (rules : Finset Rule) : Finset Rule :=
  if rule ∈ rules then rules.erase rule else rules

def nuNetIptablesChain : GoString := ascii "NUNET"

def dnatRule (protocol sourcePort destIP destPort : GoString) : Rule :=
  [nuNetIptablesChain, ascii "-t", ascii "nat", ascii "-p", protocol, ascii "--dport", sourcePort,
    ascii "-j", ascii "DNAT", ascii "--to-destination", destIP ++ ascii ":" ++ destPort]

def forwardRule (protocol destIP destPort : GoString) : Rule :=
  [nuNetIptablesChain, ascii "-t", ascii "filter", ascii "-p", protocol, ascii "-d", destIP,
    ascii "--dport", destPort, ascii "-j", ascii "ACCEPT"]

def forwardCNIRule (protocol sourceIP destIP destPort iiface oiface : GoString) : Rule :=
  [nuNetIptablesChain, ascii "-t", ascii "filter", ascii "-s", sourceIP, ascii "-i", iiface,
    ascii "-o", oiface, ascii "-p", protocol, ascii "-d", destIP, ascii "--dport", destPort,
    ascii "-j", ascii "ACCEPT"]

def outputNatRule (protocol destIP destPort ifaceName : GoString) : Rule :=
  [nuNetIptablesChain, ascii "-t", ascii "nat", ascii "-p", protocol, ascii "--dport", destPort,
    ascii "-o", ifaceName, ascii "-j", ascii "DNAT", ascii "--to-destination",
    destIP ++ ascii ":" ++ destPort]

def masqueradeRule : Rule :=
  [ascii "POSTROUTING", ascii "-t", ascii "nat", ascii "-j", ascii "MASQUERADE"]

/-! ## The mappings of a host -/

inductive ExecutorType
  | docker
  | containerd
  | firecracker
  | wasm
  | other (name : GoString)
deriving DecidableEq, Repr

structure MapPortRequest where
  subnetID : GoString
  protocol : GoString
  executionPort : GoString
  subnetIP : GoString
  subnetPort : GoString
  executorType : ExecutorType
  cniBridge : GoString
deriving DecidableEq, Repr

structure PortMapEntry where
  subnetPort : GoString
  execPort : GoString
  subnetIP : GoString
  protocol : GoString
  executorType : ExecutorType
  cniBridge : GoString
  tunIface : GoString
deriving DecidableEq, Repr

structure Subnet where
  ifaces : GoMap GoString GoString
  portMapping : GoMap GoString PortMapEntry

structure Host where
  rules : Finset Rule
  subnets : GoMap GoString Subnet

/-- `GetNetInterfaceByFlags(net.FlagLoopback)`: an error, no such interface, or its name. -/
inductive Loopback
  | failed
  | absent
  | found (name : GoString)
deriving DecidableEq, Repr

/-- What is taken from the standard library: `strings.ToLower`, and the printed network of an
address with 24 bits, unless the address does not parse. -/
structure NetText where
  toLower : GoString → GoString
  toLower_nil : toLower [] = []
  network : GoString → Option GoString

def NetText.ipToCIDR (t : NetText) (ipStr : GoString) : Except String GoString :=
  match t.network ipStr with
  | none => .error ("invalid IP address: " ++ printed ipStr)
  | some network => .ok (network ++ ascii "/24")

def Subnet.tunNameForIP (s : Subnet) (ip : GoString) : Except String GoString :=
  match s.ifaces.lookup ip with
  | none => .error ("no tun interface for subnet IP " ++ printed ip)
  | some name => .ok name

/-! ## `MapPort` -/

def newEntry (protocol : GoString) (req : MapPortRequest) : PortMapEntry where
  subnetPort := req.subnetPort
  execPort := req.executionPort
  subnetIP := req.subnetIP
  protocol := protocol
  executorType := req.executorType
  cniBridge := req.cniBridge
  tunIface := []

def mapForward (t : NetText) (s : Subnet) (protocol : GoString) (req : MapPortRequest)
    (rules : Finset Rule) : Except String (Finset Rule × PortMapEntry) :=
  let entry := newEntry protocol req
  match req.executorType with
  | .containerd =>
    match s.tunNameForIP req.subnetIP with
    | .error e => .error e
    | .ok tunName =>
      let bridge := if req.cniBridge = [] then ascii "cni-nunet0" else req.cniBridge
      match t.ipToCIDR req.subnetIP with
      | .error e => .error e
      | .ok sip =>
        .ok (addRule (forwardCNIRule protocol sip (ascii "10.68.63.0/24") req.executionPort
          tunName bridge) rules, { entry with tunIface := tunName, cniBridge := bridge })
  | _ => .ok (addRule (forwardRule protocol req.subnetIP req.subnetPort) rules, entry)

/-- Without an interface of the kind there is no error either, and taking its name panics. -/
def mapOutput (lo : Loopback) (protocol : GoString) (req : MapPortRequest) (rules : Finset Rule) :
    Option (Finset Rule) :=
  match lo with
  | .failed => some rules
  | .absent => none
  | .found name => some (addRule (outputNatRule protocol req.subnetIP req.subnetPort name) rules)

def mapPort (t : NetText) (lo : Loopback) (req : MapPortRequest) (h : Host) :
    Option (Host × Except String Unit) :=
  match h.subnets.lookup req.subnetID with
  | none => some (h, .error ("subnet with ID " ++ printed req.subnetID ++ " does not exist"))
  | some s =>
    let protocol := t.toLower req.protocol
    if req.subnetPort ∈ s.portMapping then
      some (h, .error ("port " ++ printed req.subnetPort ++ " is already mapped"))
    else
      match mapForward t s protocol req h.rules with
      | .error e => some (h, .error e)
      | .ok (rules, entry) =>
        match mapOutput lo protocol req rules with
        | none => none
        | some rules =>
          some (⟨rules, h.subnets.insert req.subnetID
            { s with portMapping := s.portMapping.insert req.subnetPort entry }⟩, .ok ())

/-! ## `UnmapPort` -/

def unmapTunName (s : Subnet) (mapping : PortMapEntry) (req : MapPortRequest) :
    Except String GoString :=
  if mapping.tunIface = [] then s.tunNameForIP req.subnetIP else .ok mapping.tunIface

def unmapForward (s : Subnet) (protocol : GoString) (mapping : PortMapEntry)
    (req : MapPortRequest) (rules : Finset Rule) : Except String (Finset Rule) :=
  match mapping.executorType with
  | .containerd =>
    let bridge := if mapping.cniBridge = [] then req.cniBridge else mapping.cniBridge
    match unmapTunName s mapping req with
    | .error e => .error e
    | .ok tunName =>
      .ok (delRule (forwardCNIRule protocol (ascii "0.0.0.0") mapping.subnetIP mapping.execPort
        bridge tunName) rules)
  | _ => .ok (delRule (forwardRule protocol req.subnetIP req.subnetPort) rules)

def unmapOutput (lo : Loopback) (protocol : GoString) (req : MapPortRequest)
    (rules : Finset Rule) : Option (Finset Rule) :=
  match lo with
  | .failed => some rules
  | .absent => none
  | .found name => some (delRule (outputNatRule protocol req.subnetIP req.subnetPort name) rules)

def unmapPort (t : NetText) (lo : Loopback) (req : MapPortRequest) (h : Host) :
    Option (Host × Except String Unit) :=
  match h.subnets.lookup req.subnetID with
  | none => some (h, .error ("subnet with ID " ++ printed req.subnetID ++ " does not exist"))
  | some s =>
    match s.portMapping.lookup req.subnetPort with
    | none => some (h, .error ("port " ++ printed req.subnetPort ++ " is not mapped"))
    | some mapping =>
      if mapping.subnetIP ≠ req.subnetIP ∨ mapping.subnetPort ≠ req.subnetPort then
        some (h, .error ("port " ++ printed req.executionPort ++ " is not mapped to " ++
          printed req.subnetIP ++ ":" ++ printed req.subnetPort))
      else
        let protocol :=
          if mapping.protocol ≠ [] then mapping.protocol else t.toLower req.protocol
        let rules := delRule (dnatRule protocol req.executionPort req.subnetIP req.subnetPort)
          h.rules
        match unmapForward s protocol mapping req rules with
        | .error e => some ({ h with rules := rules }, .error e)
        | .ok rules =>
          match unmapOutput lo protocol req rules with
          | none => none
          | some rules =>
            some (⟨delRule masqueradeRule rules, h.subnets.insert req.subnetID
              { s with portMapping := s.portMapping.erase req.subnetPort }⟩, .ok ())

/-! ## `DestroySubnet` -/

def PortMapEntry.request (mapping : PortMapEntry) (subnetID : GoString) : MapPortRequest where
  subnetID := subnetID
  protocol := mapping.protocol
  executionPort := mapping.execPort
  subnetIP := mapping.subnetIP
  subnetPort := mapping.subnetPort
  executorType := mapping.executorType
  cniBridge := mapping.cniBridge

/-- The loop over the snapshot of the mappings; errors are logged. -/
def unmapAll (t : NetText) (lo : GoString → Loopback) (subnetID : GoString) :
    List PortMapEntry → Host → Option Host
  | [], h => some h
  | mapping :: rest, h =>
    match unmapPort t (lo mapping.subnetPort) (mapping.request subnetID) h with
    | none => none
    | some (h, _) => unmapAll t lo subnetID rest h

/-- The interfaces are gone before the mappings are removed. -/
def destroySubnet (t : NetText) (order : RangeOrder) (lo : GoString → Loopback)
    (subnetID : GoString) (h : Host) : Option (Host × Except String Unit) :=
  match h.subnets.lookup subnetID with
  | none => some (h, .error ("subnet with ID " ++ printed subnetID ++ " does not exist"))
  | some s =>
    let snapshot := (order.visit s.portMapping.entries).map fun e => e.2
    match unmapAll t lo subnetID snapshot
        { h with subnets := h.subnets.insert subnetID { s with ifaces := ∅ } } with
    | none => none
    | some h => some ({ h with subnets := h.subnets.erase subnetID }, .ok ())

/-! ## What is added and what is deleted -/

def entryOf (t : NetText) (s : Subnet) (req : MapPortRequest) : PortMapEntry :=
  let entry := newEntry (t.toLower req.protocol) req
  match req.executorType with
  | .containerd =>
    { entry with
      tunIface := (s.ifaces.lookup req.subnetIP).getD []
      cniBridge := if req.cniBridge = [] then ascii "cni-nunet0" else req.cniBridge }
  | _ => entry

def sourceOf (t : NetText) (req : MapPortRequest) : GoString :=
  (t.network req.subnetIP).getD [] ++ ascii "/24"

namespace PortMapEntry

def forwardAdded (sip : GoString) (m : PortMapEntry) : Rule :=
  match m.executorType with
  | .containerd =>
    forwardCNIRule m.protocol sip (ascii "10.68.63.0/24") m.execPort m.tunIface m.cniBridge
  | _ => forwardRule m.protocol m.subnetIP m.subnetPort

def forwardRemoved (m : PortMapEntry) : Rule :=
  match m.executorType with
  | .containerd =>
    forwardCNIRule m.protocol (ascii "0.0.0.0") m.subnetIP m.execPort m.cniBridge m.tunIface
  | _ => forwardRule m.protocol m.subnetIP m.subnetPort

def natRules (lo : Loopback) (m : PortMapEntry) : List Rule :=
  match lo with
  | .found name => [outputNatRule m.protocol m.subnetIP m.subnetPort name]
  | _ => []

def added (sip : GoString) (lo : Loopback) (m : PortMapEntry) : List Rule :=
  m.forwardAdded sip :: m.natRules lo

/-- `full` says that the removal finds the interface and does not stop at the first rule. -/
def removed (full : Bool) (lo : Loopback) (m : PortMapEntry) : List Rule :=
  dnatRule m.protocol m.execPort m.subnetIP m.subnetPort ::
    if full then m.forwardRemoved :: masqueradeRule :: m.natRules lo else []

end PortMapEntry

/-- The rules for which a mapping and its removal cancel out: those that are deleted are not there
before, apart from the forward rule of a container, which is deleted in another form than it is
added in. The loopback interface is the same at both times, or the rule for the first is there. -/
structure Restorable (full : Bool) (rules : Finset Rule) (m : PortMapEntry) (sip : GoString)
    (lo lo' : Loopback) : Prop where
  dnat : dnatRule m.protocol m.execPort m.subnetIP m.subnetPort ∉ rules
  masquerade : full = true → masqueradeRule ∉ rules
  container : m.executorType = .containerd →
    forwardCNIRule m.protocol sip (ascii "10.68.63.0/24") m.execPort m.tunIface m.cniBridge ∈
        rules ∧
      (full = true → forwardCNIRule m.protocol (ascii "0.0.0.0") m.subnetIP m.execPort m.cniBridge
        m.tunIface ∉ rules)
  forward : m.executorType ≠ .containerd →
    (full = true → forwardRule m.protocol m.subnetIP m.subnetPort ∉ rules) ∧
      (full = false → forwardRule m.protocol m.subnetIP m.subnetPort ∈ rules)
  natRemoved : ∀ name, full = true → lo' = .found name →
    outputNatRule m.protocol m.subnetIP m.subnetPort name ∉ rules
  natAdded : ∀ name, lo = .found name → full = true ∧ lo' = .found name ∨
    outputNatRule m.protocol m.subnetIP m.subnetPort name ∈ rules

/-! ## Rules as lists of arguments -/

theorem ne_of_table {r r' : Rule} (h : r[2]? = some (ascii "filter"))
    (h' : r'[2]? = some (ascii "nat")) : r ≠ r' := by
  rintro rfl
  exact absurd (h.symm.trans h') (by decide)

namespace PortMapEntry

variable {m m' : PortMapEntry} {full : Bool} {lo lo' : Loopback} {sip : GoString}

theorem mem_natRules {r} : r ∈ m.natRules lo ↔
      ∃ name, lo = .found name ∧ r = outputNatRule m.protocol m.subnetIP m.subnetPort name := by
  unfold natRules
  cases lo <;> simp

theorem forwardAdded_eq : m.forwardAdded sip = if m.executorType = .containerd then
        forwardCNIRule m.protocol sip (ascii "10.68.63.0/24") m.execPort m.tunIface m.cniBridge
      else forwardRule m.protocol m.subnetIP m.subnetPort := by
  cases hm : m.executorType <;> simp [forwardAdded, hm]

theorem forwardRemoved_eq : m.forwardRemoved = if m.executorType = .containerd then
        forwardCNIRule m.protocol (ascii "0.0.0.0") m.subnetIP m.execPort m.cniBridge m.tunIface
      else forwardRule m.protocol m.subnetIP m.subnetPort := by
  cases hm : m.executorType <;> simp [forwardRemoved, hm]

theorem table_forwardAdded : (m.forwardAdded sip)[2]? = some (ascii "filter") := by
  rw [forwardAdded_eq]
  split <;> rfl

theorem table_forwardRemoved : m.forwardRemoved[2]? = some (ascii "filter") := by
  rw [forwardRemoved_eq]
  split <;> rfl

theorem mem_removed {r} :
    r ∈ m.removed full lo ↔ r = dnatRule m.protocol m.execPort m.subnetIP m.subnetPort ∨
      full = true ∧ (r = m.forwardRemoved ∨ r = masqueradeRule ∨ r ∈ m.natRules lo) := by
  unfold removed
  cases full <;> simp

theorem forwardAdded_mem_removed (hsip : sip ≠ ascii "0.0.0.0")
    (h : m.forwardAdded sip ∈ m'.removed full lo) :
    full = true ∧ m.executorType ≠ .containerd ∧ m.subnetPort = m'.subnetPort := by
  rcases mem_removed.mp h with heq | ⟨hfull, heq | heq | hmem⟩
  · exact absurd heq (ne_of_table table_forwardAdded rfl)
  · rw [forwardAdded_eq, forwardRemoved_eq] at heq
    split at heq <;> split at heq
    · have hsource : some sip = some (ascii "0.0.0.0") := congrArg (fun r : Rule => r[4]?) heq
      exact absurd (Option.some.inj hsource) hsip
    · exact absurd (show 17 = 11 from congrArg length heq) (by decide)
    · exact absurd (show 11 = 17 from congrArg length heq) (by decide)
    · next hm _ =>
      have hport : some m.subnetPort = some m'.subnetPort := congrArg (fun r : Rule => r[8]?) heq
      exact ⟨hfull, hm, Option.some.inj hport⟩
  · exact absurd heq (ne_of_table table_forwardAdded rfl)
  obtain ⟨name, _, heq⟩ := mem_natRules.mp hmem
  exact absurd heq (ne_of_table table_forwardAdded rfl)

theorem outputNatRule_mem_removed {name}
    (h : outputNatRule m.protocol m.subnetIP m.subnetPort name ∈ m'.removed full lo) :
    full = true ∧ lo = .found name ∧ m.subnetPort = m'.subnetPort := by
  rcases mem_removed.mp h with heq | ⟨hfull, heq | heq | hmem⟩
  · exact absurd (show 13 = 11 from congrArg length heq) (by decide)
  · exact absurd heq.symm (ne_of_table table_forwardRemoved rfl)
  · exact absurd (show 13 = 5 from congrArg length heq) (by decide)
  obtain ⟨name', hlo, heq⟩ := mem_natRules.mp hmem
  have hport : some m.subnetPort = some m'.subnetPort := congrArg (fun r : Rule => r[6]?) heq
  have hname : some name = some name' := congrArg (fun r : Rule => r[8]?) heq
  exact ⟨hfull, Option.some.inj hname ▸ hlo, Option.some.inj hport⟩

theorem forwardAdded_mem_removed_self (hsip : sip ≠ ascii "0.0.0.0") :
    m.forwardAdded sip ∈ m.removed full lo ↔ full = true ∧ m.executorType ≠ .containerd := by
  constructor
  · exact fun h => (forwardAdded_mem_removed hsip h).imp_right And.left
  rintro ⟨hfull, hm⟩
  rw [mem_removed, forwardAdded_eq, if_neg hm, forwardRemoved_eq, if_neg hm]
  exact .inr ⟨hfull, .inl rfl⟩

theorem outputNatRule_mem_removed_self {name} :
    outputNatRule m.protocol m.subnetIP m.subnetPort name ∈ m.removed full lo ↔
      full = true ∧ lo = .found name := by
  constructor
  · exact fun h => (outputNatRule_mem_removed h).imp_right And.left
  · rintro ⟨hfull, hlo⟩
    exact mem_removed.mpr (.inr ⟨hfull, .inr (.inr (mem_natRules.mpr ⟨name, hlo, rfl⟩))⟩)

theorem restorable_iff (hsip : sip ≠ ascii "0.0.0.0") {rules} :
    Restorable full rules m sip lo lo' ↔ (∀ r ∈ m.removed full lo', r ∉ rules) ∧
        ∀ r ∈ m.added sip lo, r ∈ m.removed full lo' ∨ r ∈ rules := by
  constructor
  · intro h
    constructor
    · intro r hr
      rcases mem_removed.mp hr with rfl | ⟨hfull, rfl | rfl | hmem⟩
      · exact h.dnat
      · by_cases hm : m.executorType = .containerd
        · rw [forwardRemoved_eq, if_pos hm]
          exact (h.container hm).2 hfull
        · rw [forwardRemoved_eq, if_neg hm]
          exact (h.forward hm).1 hfull
      · exact h.masquerade hfull
      · obtain ⟨name, hlo, rfl⟩ := mem_natRules.mp hmem
        exact h.natRemoved name hfull hlo
    intro r hr
    rcases mem_cons.mp hr with rfl | hmem
    · rw [forwardAdded_mem_removed_self hsip]
      by_cases hm : m.executorType = .containerd
      · rw [forwardAdded_eq, if_pos hm]
        exact .inr (h.container hm).1
      cases full with
      | true => exact .inl ⟨rfl, hm⟩
      | false =>
        rw [forwardAdded_eq, if_neg hm]
        exact .inr ((h.forward hm).2 rfl)
    obtain ⟨name, hlo, rfl⟩ := mem_natRules.mp hmem
    rw [outputNatRule_mem_removed_self]
    exact h.natAdded name hlo
  rintro ⟨hremoved, hadded⟩
  have hforward := hadded (m.forwardAdded sip) (.head _)
  rw [forwardAdded_mem_removed_self hsip] at hforward
  have hdeleted (hfull : full = true) := hremoved m.forwardRemoved
    (mem_removed.mpr (.inr ⟨hfull, .inl rfl⟩))
  refine ⟨hremoved _ (mem_removed.mpr (.inl rfl)), ?_, ?_, ?_, ?_, ?_⟩
  · exact fun hfull => hremoved _ (mem_removed.mpr (.inr ⟨hfull, .inr (.inl rfl)⟩))
  · intro hm
    rw [forwardAdded_eq, if_pos hm] at hforward
    rw [forwardRemoved_eq, if_pos hm] at hdeleted
    exact ⟨hforward.resolve_left fun hboth => hboth.2 hm, hdeleted⟩
  · intro hm
    rw [forwardAdded_eq, if_neg hm] at hforward
    rw [forwardRemoved_eq, if_neg hm] at hdeleted
    exact ⟨hdeleted, fun hfull => hforward.resolve_left fun hboth => by simp [hfull] at hboth⟩
  · intro name hfull hlo
    exact hremoved _ (mem_removed.mpr (.inr ⟨hfull, .inr (.inr (mem_natRules.mpr
      ⟨name, hlo, rfl⟩))⟩))
  intro name hlo
  have hnat := hadded _ (.tail _ (mem_natRules.mpr ⟨name, hlo, rfl⟩))
  rwa [outputNatRule_mem_removed_self] at hnat

end PortMapEntry

/-! ## The two calls -/

theorem addRule_eq (rule : Rule) (rules : Finset Rule) :
    addRule rule rules = insert rule rules := by
  unfold addRule
  split
  · rfl
  · next h => exact (Finset.insert_eq_of_mem (not_not.mp h)).symm

theorem delRule_eq (rule : Rule) (rules : Finset Rule) : delRule rule rules = rules.erase rule := by
  unfold delRule
  split
  · rfl
  · next h => exact (Finset.erase_eq_of_notMem h).symm

section Entry

variable {t : NetText} {s : Subnet} {req : MapPortRequest}

theorem entryOf_containerd (h : req.executorType = .containerd) :
    entryOf t s req = { newEntry (t.toLower req.protocol) req with
        tunIface := (s.ifaces.lookup req.subnetIP).getD []
        cniBridge := if req.cniBridge = [] then ascii "cni-nunet0" else req.cniBridge } := by
  rw [entryOf, h]

theorem entryOf_of_ne (h : req.executorType ≠ .containerd) :
    entryOf t s req = newEntry (t.toLower req.protocol) req := by
  unfold entryOf
  split
  · next heq => exact absurd heq h
  · rfl

theorem entryOf_fields (t : NetText) (s : Subnet) (req : MapPortRequest) :
    (entryOf t s req).subnetPort = req.subnetPort ∧ (entryOf t s req).execPort = req.executionPort ∧
      (entryOf t s req).subnetIP = req.subnetIP ∧
      (entryOf t s req).protocol = t.toLower req.protocol ∧
      (entryOf t s req).executorType = req.executorType := by
  unfold entryOf
  split <;> exact ⟨rfl, rfl, rfl, rfl, rfl⟩

theorem sourceOf_ne (t : NetText) (req : MapPortRequest) : sourceOf t req ≠ ascii "0.0.0.0" := by
  intro h
  have hlast := congrArg getLast? h
  rw [sourceOf, getLast?_append_of_ne_nil _ (by decide)] at hlast
  exact absurd hlast (by decide)

theorem mapForward_ok {rules rules' entry}
    (hok : mapForward t s (t.toLower req.protocol) req rules = .ok (rules', entry)) :
    entry = entryOf t s req ∧
      rules' = insert ((entryOf t s req).forwardAdded (sourceOf t req)) rules ∧
      (req.executorType = .containerd → req.subnetIP ∈ s.ifaces) := by
  by_cases hreq : req.executorType = .containerd
  · have hentry := entryOf_containerd (t := t) (s := s) hreq
    unfold mapForward at hok
    simp only [hreq] at hok
    unfold Subnet.tunNameForIP NetText.ipToCIDR at hok
    match htun : s.ifaces.lookup req.subnetIP, hnetwork : t.network req.subnetIP, hok with
    | some tunName, some network, hok =>
      obtain ⟨rfl, rfl⟩ := Prod.mk.inj (Except.ok.inj hok)
      rw [PortMapEntry.forwardAdded_eq, if_pos
        ((entryOf_fields t s req).2.2.2.2.trans hreq), hentry, addRule_eq, htun, sourceOf, hnetwork]
      exact ⟨rfl, rfl, fun _ => lookup_isSome.mp (htun ▸ rfl)⟩
  have hexecutor : (entryOf t s req).executorType ≠ .containerd :=
    (entryOf_fields t s req).2.2.2.2 ▸ hreq
  have hforward : mapForward t s (t.toLower req.protocol) req rules =
      .ok (addRule (forwardRule (t.toLower req.protocol) req.subnetIP req.subnetPort) rules,
        newEntry (t.toLower req.protocol) req) := by
    unfold mapForward
    split
    · next heq => exact absurd heq hreq
    · rfl
  rw [hforward] at hok
  obtain ⟨rfl, rfl⟩ := hok
  rw [PortMapEntry.forwardAdded_eq, if_neg hexecutor, entryOf_of_ne hreq, addRule_eq]
  exact ⟨rfl, rfl, fun heq => absurd heq hreq⟩

theorem mapOutput_eq_some {lo rules rules'}
    (hsome : mapOutput lo (t.toLower req.protocol) req rules = some rules') :
    rules' = rules ∪ ((entryOf t s req).natRules lo).toFinset := by
  obtain ⟨hport, _, hip, hprotocol, _⟩ := entryOf_fields t s req
  unfold mapOutput at hsome
  unfold PortMapEntry.natRules
  rw [hport, hip, hprotocol]
  cases lo with
  | failed => simpa using hsome.symm
  | absent => simp at hsome
  | found name =>
    dsimp only at hsome
    rw [addRule_eq, Option.some.injEq] at hsome
    rw [← hsome]
    simp

theorem mapPort_ok {lo h h'} (hok : mapPort t lo req h = some (h', .ok ())) :
    ∃ s, h.subnets.lookup req.subnetID = some s ∧ req.subnetPort ∉ s.portMapping ∧
      (req.executorType = .containerd → req.subnetIP ∈ s.ifaces) ∧
      h' = ⟨h.rules ∪ ((entryOf t s req).added (sourceOf t req) lo).toFinset,
        h.subnets.insert req.subnetID
          { s with portMapping := s.portMapping.insert req.subnetPort (entryOf t s req) }⟩ := by
  unfold mapPort at hok
  split at hok
  · simp at hok
  rename_i s hs
  dsimp only at hok
  split at hok
  · simp at hok
  rename_i hport
  split at hok
  · simp at hok
  rename_i rules entry hforward
  obtain ⟨rfl, rfl, hiface⟩ := mapForward_ok hforward
  refine ⟨s, hs, hport, hiface, ?_⟩
  split at hok
  · simp at hok
  rename_i rules' houtput
  obtain rfl := mapOutput_eq_some (s := s) houtput
  rw [Option.some.injEq, Prod.mk.injEq] at hok
  rw [← hok.1, PortMapEntry.added, toFinset_cons, Finset.union_insert, Finset.insert_union]

end Entry

structure Removes (t : NetText) (req : MapPortRequest) (m : PortMapEntry) : Prop where
  ip : req.subnetIP = m.subnetIP
  port : req.subnetPort = m.subnetPort
  exec : req.executionPort = m.execPort
  protocol : (if m.protocol ≠ [] then m.protocol else t.toLower req.protocol) = m.protocol
  bridge : m.executorType = .containerd →
    (if m.cniBridge = [] then req.cniBridge else m.cniBridge) = m.cniBridge

theorem removes_entryOf (t : NetText) (s : Subnet) (req : MapPortRequest) :
    Removes t req (entryOf t s req) := by
  obtain ⟨hport, hexec, hip, hprotocol, hexecutor⟩ := entryOf_fields t s req
  refine ⟨hip.symm, hport.symm, hexec.symm, ?_, ?_⟩
  · rw [hprotocol, ite_id]
  intro hcontainerd
  rw [entryOf_containerd (hexecutor.symm.trans hcontainerd)]
  dsimp only
  rw [if_neg]
  split
  · decide
  · next hne => exact hne

theorem removes_request (t : NetText) (m : PortMapEntry) (net : GoString) :
    Removes t (m.request net) m := by
  refine ⟨rfl, rfl, rfl, ?_, fun _ => ite_id _⟩
  split
  · rfl
  rename_i hnil
  have hnil : m.protocol = [] := not_not.mp hnil
  rw [PortMapEntry.request, hnil, t.toLower_nil]

section Unmap

variable {t : NetText} {lo : Loopback} {req : MapPortRequest} {h h' : Host} {s : Subnet}
  {m : PortMapEntry} {net : GoString}

theorem unmapForward_eq (hreq : Removes t req m)
    (htun : m.executorType = .containerd → unmapTunName s m req = .ok m.tunIface)
    (rules : Finset Rule) :
    unmapForward s m.protocol m req rules = .ok (rules.erase m.forwardRemoved) := by
  unfold unmapForward
  by_cases hm : m.executorType = .containerd
  · rw [PortMapEntry.forwardRemoved_eq]
    simp [hm, htun hm, hreq.bridge hm, delRule_eq]
  rw [PortMapEntry.forwardRemoved_eq, if_neg hm]
  split
  · next heq => exact absurd heq hm
  · rw [delRule_eq, hreq.ip, hreq.port]

theorem unmapOutput_eq (hreq : Removes t req m) (hlo : lo ≠ .absent) (rules : Finset Rule) :
    unmapOutput lo m.protocol req rules = some (rules \ (m.natRules lo).toFinset) := by
  unfold unmapOutput PortMapEntry.natRules
  cases lo with
  | failed => simp
  | absent => exact absurd rfl hlo
  | found name => simp [delRule_eq, hreq.ip, hreq.port, Finset.sdiff_singleton_eq_erase]

theorem unmapTunName_entryOf (hiface : req.executorType = .containerd → req.subnetIP ∈ s.ifaces)
    (portMapping : GoMap GoString PortMapEntry)
    (hcontainerd : (entryOf t s req).executorType = .containerd) :
    unmapTunName { s with portMapping := portMapping } (entryOf t s req) req =
      .ok (entryOf t s req).tunIface := by
  have hreq : req.executorType = .containerd :=
    (entryOf_fields t s req).2.2.2.2.symm.trans hcontainerd
  obtain ⟨name, hname⟩ := Option.isSome_iff_exists.mp (lookup_isSome.mpr (hiface hreq))
  have htun : (entryOf t s req).tunIface = name := by
    rw [entryOf_containerd hreq, hname]
    rfl
  rw [unmapTunName, Subnet.tunNameForIP, htun, hname]
  split <;> rfl

variable (hs : h.subnets.lookup req.subnetID = some s)
  (hm : s.portMapping.lookup req.subnetPort = some m) (hreq : Removes t req m)

include hs hm hreq

theorem unmapPort_eq : unmapPort t lo req h =
      let rules := h.rules.erase (dnatRule m.protocol m.execPort m.subnetIP m.subnetPort)
      match unmapForward s m.protocol m req rules with
      | .error e => some ({ h with rules := rules }, .error e)
      | .ok rules =>
        match unmapOutput lo m.protocol req rules with
        | none => none
        | some rules =>
          some (⟨rules.erase masqueradeRule, h.subnets.insert req.subnetID
            { s with portMapping := s.portMapping.erase req.subnetPort }⟩, .ok ()) := by
  have hmatch : ¬ (m.subnetIP ≠ req.subnetIP ∨ m.subnetPort ≠ req.subnetPort) := by
    simp [hreq.ip, hreq.port]
  unfold unmapPort
  simp only [hs, hm]
  simp [hreq.protocol, hreq.exec, hreq.ip, hreq.port, delRule_eq]

theorem unmapPort_full
    (htun : m.executorType = .containerd → unmapTunName s m req = .ok m.tunIface) :
    unmapPort t lo req h = if lo = .absent then none
      else some (⟨h.rules \ (m.removed true lo).toFinset, h.subnets.insert req.subnetID
        { s with portMapping := s.portMapping.erase req.subnetPort }⟩, .ok ()) := by
  rw [unmapPort_eq hs hm hreq]
  dsimp only
  rw [unmapForward_eq hreq htun]
  dsimp only
  by_cases hlo : lo = .absent
  · subst hlo
    rfl
  rw [unmapOutput_eq hreq hlo, if_neg hlo]
  dsimp only
  congr 3
  ext r
  simp only [Finset.mem_erase, Finset.mem_sdiff, mem_toFinset, PortMapEntry.mem_removed]
  tauto

theorem unmapPort_stops (hcontainerd : m.executorType = .containerd) {e}
    (htun : unmapTunName s m req = .error e) : unmapPort t lo req h =
      some ({ h with rules := h.rules \ (m.removed false lo).toFinset }, .error e) := by
  rw [unmapPort_eq hs hm hreq]
  simp [unmapForward, hcontainerd, htun, PortMapEntry.removed, Finset.sdiff_singleton_eq_erase]

end Unmap

/-! ## Sets of rules -/

theorem restored_iff {rules} {added removed : List Rule} :
    (rules ∪ added.toFinset) \ removed.toFinset = rules ↔
      (∀ r ∈ removed, r ∉ rules) ∧ ∀ r ∈ added, r ∈ removed ∨ r ∈ rules := by
  simp only [Finset.ext_iff, Finset.mem_sdiff, Finset.mem_union, mem_toFinset]
  constructor
  · intro h
    refine ⟨fun r hr hmem => ((h r).mpr hmem).2 hr, fun r hr => ?_⟩
    exact or_iff_not_imp_left.mpr fun hkept => (h r).mp ⟨.inr hr, hkept⟩
  rintro ⟨hremoved, hadded⟩ r
  refine ⟨?_, fun hr => ⟨.inl hr, fun hgone => hremoved r hgone hr⟩⟩
  exact fun ⟨hr, hkept⟩ => hr.elim id fun hr => (hadded r hr).resolve_left hkept

variable {t : NetText} {h h₁ : Host} {s : Subnet} {subnetID : GoString}

theorem mapPort_unmapPort {lo lo'} {req : MapPortRequest}
    {h₂} (hs : h.subnets.lookup req.subnetID = some s)
    (hmap : mapPort t lo req h = some (h₁, .ok ()))
    (hunmap : unmapPort t lo' req h₁ = some (h₂, .ok ())) :
    h₂.rules = (h.rules ∪ ((entryOf t s req).added (sourceOf t req) lo).toFinset) \
        ((entryOf t s req).removed true lo').toFinset ∧
      ∀ id, h₂.subnets.lookup id = h.subnets.lookup id := by
  obtain ⟨s', hs', hport, hiface, rfl⟩ := mapPort_ok hmap
  obtain rfl := Option.some.inj (hs.symm.trans hs')
  rw [unmapPort_full
    (s := { s with portMapping := s.portMapping.insert req.subnetPort (entryOf t s req) })
    (lookup_insert _) (lookup_insert _)
    (removes_entryOf t s req) (unmapTunName_entryOf hiface _)] at hunmap
  split at hunmap
  · simp at hunmap
  obtain rfl := (Prod.mk.inj (Option.some.inj hunmap)).1
  refine ⟨rfl, ?_⟩
  intro id
  by_cases hid : id = req.subnetID
  · subst hid
    rw [lookup_insert, hs, GoMap.erase_insert _ hport]
  · rw [lookup_insert_ne hid, lookup_insert_ne hid]

/-! ## All mappings of a subnet -/

/-- Calls of `MapPort` that all return nil. -/
def mapAll (t : NetText) : List (MapPortRequest × Loopback) → Host → Option Host
  | [], h => some h
  | (req, lo) :: rest, h =>
    match mapPort t lo req h with
    | some (h, .ok _) => mapAll t rest h
    | _ => none

/-- When `DestroySubnet` removes a mapping, it does not find an interface by its address. -/
def PortMapEntry.full (m : PortMapEntry) : Bool := m.executorType ≠ .containerd || m.tunIface ≠ []

structure Mapped (t : NetText) (subnetID : GoString) (s : Subnet)
    (reqs : List (MapPortRequest × Loopback)) (h h' : Host) (table : GoMap GoString PortMapEntry) :
    Prop where
  rules : h'.rules = h.rules ∪ (reqs.flatMap fun x =>
    (entryOf t s x.1).added (sourceOf t x.1) x.2).toFinset
  self : h'.subnets.lookup subnetID = some { s with portMapping := table }
  others : ∀ id, id ≠ subnetID → h'.subnets.lookup id = h.subnets.lookup id
  entries : ∀ e, e ∈ table.entries ↔
    e ∈ s.portMapping.entries ∨ ∃ x ∈ reqs, e = ⟨x.1.subnetPort, entryOf t s x.1⟩
  fresh : ∀ x ∈ reqs, x.1.subnetPort ∉ s.portMapping
  ports : ∀ x ∈ reqs, ∀ y ∈ reqs, x.1.subnetPort = y.1.subnetPort → x = y

theorem mapAll_mapped {h'} (reqs : List (MapPortRequest × Loopback))
    (hs : h.subnets.lookup subnetID = some s) (hreqs : ∀ x ∈ reqs, x.1.subnetID = subnetID)
    (hmap : mapAll t reqs h = some h') : ∃ table, Mapped t subnetID s reqs h h' table := by
  induction reqs generalizing s h with
  | nil =>
    rw [mapAll, Option.some.injEq] at hmap
    subst hmap
    exact ⟨s.portMapping, by simp, hs, fun _ _ => rfl, by simp, by simp, by simp⟩
  | cons x rest ih =>
    obtain ⟨req, lo⟩ := x
    unfold mapAll at hmap
    split at hmap
    · next h₁ _ hfirst =>
      obtain ⟨s', hs', hport, _, rfl⟩ := mapPort_ok hfirst
      obtain rfl := hreqs _ (.head _)
      obtain rfl := Option.some.inj (hs.symm.trans hs')
      obtain ⟨table, htable⟩ := ih (lookup_insert _) (fun y hy => hreqs y (.tail _ hy)) hmap
      -- The entries do not depend on the table.
      have hentry (req' : MapPortRequest) (portMapping : GoMap GoString PortMapEntry) :
          entryOf t { s with portMapping := portMapping } req' = entryOf t s req' := rfl
      have hfresh : ∀ y ∈ rest, y.1.subnetPort ≠ req.subnetPort ∧ y.1.subnetPort ∉ s.portMapping :=
        fun y hy => not_or.mp fun h => htable.fresh y hy ((mem_insert _).mpr h)
      refine ⟨table, ?_, htable.self, ?_, ?_,
        forall_mem_cons.mpr ⟨hport, fun y hy => (hfresh y hy).2⟩, ?_⟩
      · rw [htable.rules]
        simp [hentry, flatMap_cons, toFinset_append, Finset.union_assoc]
      · exact fun id hid => (htable.others id hid).trans (lookup_insert_ne hid)
      · intro e
        rw [htable.entries e]
        simp only [hentry, entries_insert_of_notMem hport, mem_cons, exists_eq_or_imp]
        tauto
      simp only [forall_mem_cons]
      exact ⟨⟨fun _ => trivial, fun z hz heq => absurd heq.symm (hfresh z hz).1⟩,
        fun y hy => ⟨fun heq => absurd heq (hfresh y hy).1, htable.ports y hy⟩⟩
    · simp at hmap

theorem unmapAll_rules {lo h'} (mappings : List PortMapEntry)
    (hs : h.subnets.lookup subnetID = some s) (hifaces : s.ifaces = ∅)
    (htable : ∀ m ∈ mappings, s.portMapping.lookup m.subnetPort = some m)
    (hnodup : (mappings.map PortMapEntry.subnetPort).Nodup)
    (hunmap : unmapAll t lo subnetID mappings h = some h') :
    h'.rules = h.rules \ (mappings.flatMap fun m =>
        m.removed m.full (lo m.subnetPort)).toFinset ∧
      ∀ id, id ≠ subnetID → h'.subnets.lookup id = h.subnets.lookup id := by
  induction mappings generalizing s h with
  | nil =>
    rw [unmapAll, Option.some.injEq] at hunmap
    subst hunmap
    simp
  | cons m rest ih =>
    rw [map_cons, nodup_cons] at hnodup
    have hm := htable m (.head _)
    have hrest : ∀ m' ∈ rest, m'.subnetPort ≠ m.subnetPort := by
      intro m' hm' heq
      exact hnodup.1 (heq ▸ mem_map_of_mem hm')
    rw [flatMap_cons, toFinset_append, ← Finset.sup_eq_union, ← sdiff_sdiff_left]
    have hreq := removes_request t m subnetID
    unfold unmapAll at hunmap
    cases hfull : m.full with
    | true =>
      have htun : m.executorType = .containerd →
          unmapTunName s m (m.request subnetID) = .ok m.tunIface := by
        intro hcontainerd
        have hname : m.tunIface ≠ [] := by simpa [PortMapEntry.full, hcontainerd] using hfull
        rw [unmapTunName, if_neg hname]
      rw [unmapPort_full hs hm hreq htun] at hunmap
      by_cases hlo : lo m.subnetPort = .absent
      · simp [hlo] at hunmap
      rw [if_neg hlo] at hunmap
      obtain ⟨hrules, hothers⟩ := ih
        (s := { s with portMapping := s.portMapping.erase m.subnetPort })
        (lookup_insert _) hifaces (fun m' hm' =>
        (lookup_erase_ne (hrest m' hm')).trans (htable m' (.tail _ hm'))) hnodup.2 hunmap
      exact ⟨hfull ▸ hrules, fun id hid => (hothers id hid).trans (lookup_insert_ne hid)⟩
    | false =>
      obtain ⟨hcontainerd, hname⟩ : m.executorType = .containerd ∧ m.tunIface = [] := by
        simpa [PortMapEntry.full] using hfull
      have htun : unmapTunName s m (m.request subnetID) =
          .error ("no tun interface for subnet IP " ++ printed m.subnetIP) := by
        rw [unmapTunName, if_pos hname, Subnet.tunNameForIP, hifaces]
        rfl
      rw [unmapPort_stops hs hm hreq hcontainerd htun] at hunmap
      obtain ⟨hrules, hothers⟩ := ih
        (h := { h with rules := h.rules \ (m.removed false (lo m.subnetPort)).toFinset }) hs
        hifaces (fun m' hm' => htable m' (.tail _ hm')) hnodup.2 hunmap
      exact ⟨hfull ▸ hrules, hothers⟩

theorem Mapped.snapshot {reqs table}
    (hmapped : Mapped t subnetID s reqs h h₁ table) (hempty : s.portMapping = ∅)
    (order : RangeOrder) : let snapshot := (order.visit table.entries).map fun e => e.2
    (∀ m, m ∈ snapshot ↔ ∃ x ∈ reqs, m = entryOf t s x.1) ∧
      (∀ m ∈ snapshot, table.lookup m.subnetPort = some m) ∧
      (snapshot.map PortMapEntry.subnetPort).Nodup := by
  have hentries : ∀ e, e ∈ order.visit table.entries ↔
      ∃ x ∈ reqs, e = ⟨x.1.subnetPort, entryOf t s x.1⟩ := by
    intro e
    rw [order.mem_visit, hmapped.entries e, hempty]
    exact or_iff_right not_mem_nil
  have hkeyed : ∀ e ∈ order.visit table.entries, e.2.subnetPort = e.1 := by
    intro e he
    obtain ⟨x, _, rfl⟩ := (hentries e).mp he
    exact (entryOf_fields t s x.1).1
  refine ⟨?_, ?_, ?_⟩
  · intro m
    constructor
    · intro hm
      obtain ⟨e, he, rfl⟩ := mem_map.mp hm
      obtain ⟨x, hx, rfl⟩ := (hentries e).mp he
      exact ⟨x, hx, rfl⟩
    · rintro ⟨x, hx, rfl⟩
      exact mem_map.mpr ⟨_, (hentries _).mpr ⟨x, hx, rfl⟩, rfl⟩
  · intro m hm
    obtain ⟨e, he, rfl⟩ := mem_map.mp hm
    rw [hkeyed e he]
    exact mem_lookup_iff.mpr (order.mem_visit.mp he)
  · rw [map_map, map_congr_left (g := fun e => e.1) hkeyed]
    exact ((order.perm table.entries).map _).nodup_iff.mpr table.keys_nodup

theorem destroySubnet_rules {order lo reqs h₂ table}
    (hmapped : Mapped t subnetID s reqs h h₁ table) (hempty : s.portMapping = ∅)
    (hdestroy : destroySubnet t order lo subnetID h₁ = some (h₂, .ok ())) :
    ∃ removed : List Rule, h₂.rules = (h.rules ∪ (reqs.flatMap fun x =>
        (entryOf t s x.1).added (sourceOf t x.1) x.2).toFinset) \ removed.toFinset ∧
      (∀ r, r ∈ removed ↔ ∃ x ∈ reqs, r ∈ (entryOf t s x.1).removed (entryOf t s x.1).full
        (lo x.1.subnetPort)) ∧
      ∀ id, id ≠ subnetID → h₂.subnets.lookup id = h.subnets.lookup id := by
  obtain ⟨hsnapshot, htable, hnodup⟩ := hmapped.snapshot hempty order
  unfold destroySubnet at hdestroy
  rw [hmapped.self] at hdestroy
  dsimp only at hdestroy
  split at hdestroy
  · simp at hdestroy
  rename_i h₃ hunmap
  obtain rfl := (Prod.mk.inj (Option.some.inj hdestroy)).1
  obtain ⟨hrules, hothers⟩ := unmapAll_rules _ (lookup_insert _) rfl htable hnodup hunmap
  rw [hmapped.rules] at hrules
  refine ⟨_, hrules, ?_, ?_⟩
  · intro r
    rw [mem_flatMap]
    constructor
    · rintro ⟨m, hm, hr⟩
      obtain ⟨x, hx, rfl⟩ := (hsnapshot m).mp hm
      rw [(entryOf_fields t s x.1).1] at hr
      exact ⟨x, hx, hr⟩
    rintro ⟨x, hx, hr⟩
    refine ⟨_, (hsnapshot _).mpr ⟨x, hx, rfl⟩, ?_⟩
    rwa [(entryOf_fields t s x.1).1]
  intro id hid
  rw [lookup_erase_ne hid, hothers id hid]
  exact (lookup_insert_ne hid).trans (hmapped.others id hid)

theorem added_mem_removed {req req' full lo lo' r}
    (hadded : r ∈ (entryOf t s req).added (sourceOf t req) lo)
    (hremoved : r ∈ (entryOf t s req').removed full lo') : req.subnetPort = req'.subnetPort := by
  rw [← (entryOf_fields t s req).1, ← (entryOf_fields t s req').1]
  rcases mem_cons.mp hadded with rfl | hmem
  · exact (PortMapEntry.forwardAdded_mem_removed (sourceOf_ne t req) hremoved).2.2
  · obtain ⟨name, _, rfl⟩ := PortMapEntry.mem_natRules.mp hmem
    exact (PortMapEntry.outputNatRule_mem_removed hremoved).2.2

/-- Mapping a port and unmapping it restores the firewall and the tables exactly for the rules
that the request can be undone for, and `DestroySubnet` the firewall when this holds of every
mapping of the subnet. -/
theorem firewall_restored_iff (t : NetText) (h : Host) :
    (∀ lo lo' req s h₁ h₂, h.subnets.lookup req.subnetID = some s →
      mapPort t lo req h = some (h₁, .ok ()) → unmapPort t lo' req h₁ = some (h₂, .ok ()) →
        ((h₂.rules = h.rules ∧ ∀ id, h₂.subnets.lookup id = h.subnets.lookup id) ↔
          Restorable true h.rules (entryOf t s req) (sourceOf t req) lo lo')) ∧
    ∀ order lo subnetID s reqs h₁ h₂, h.subnets.lookup subnetID = some s → s.portMapping = ∅ →
      (∀ x ∈ reqs, MapPortRequest.subnetID x.1 = subnetID) → mapAll t reqs h = some h₁ →
      destroySubnet t order lo subnetID h₁ = some (h₂, .ok ()) →
        ((h₂.rules = h.rules ∧ ∀ id, id ≠ subnetID → h₂.subnets.lookup id = h.subnets.lookup id) ↔
          ∀ x ∈ reqs, Restorable (entryOf t s x.1).full h.rules (entryOf t s x.1)
            (sourceOf t x.1) x.2 (lo x.1.subnetPort)) := by
  constructor
  · intro lo lo' req s h₁ h₂ hs hmap hunmap
    obtain ⟨hrules, hsubnets⟩ := mapPort_unmapPort hs hmap hunmap
    rw [and_iff_left hsubnets, hrules, restored_iff,
      PortMapEntry.restorable_iff (sourceOf_ne t req)]
  intro order lo subnetID s reqs h₁ h₂ hs hempty hreqs hmap hdestroy
  obtain ⟨table, hmapped⟩ := mapAll_mapped reqs hs hreqs hmap
  obtain ⟨removed, hrules, hremoved, hothers⟩ := destroySubnet_rules hmapped hempty hdestroy
  rw [and_iff_left hothers, hrules, restored_iff]
  simp only [PortMapEntry.restorable_iff (sourceOf_ne t _), hremoved, mem_flatMap]
  constructor
  · rintro ⟨habsent, hpresent⟩ x hx
    refine ⟨fun r hr => habsent r ⟨x, hx, hr⟩, ?_⟩
    intro r hr
    refine (hpresent r ⟨x, hx, hr⟩).imp_left ?_
    rintro ⟨y, hy, hgone⟩
    rwa [hmapped.ports x hx y hy (added_mem_removed hr hgone)]
  intro hall
  constructor
  · rintro r ⟨x, hx, hr⟩
    exact (hall x hx).1 r hr
  · rintro r ⟨x, hx, hr⟩
    exact ((hall x hx).2 r hr).imp_left fun hgone => ⟨x, hx, hgone⟩

def sampleText : NetText := ⟨fun text => text, rfl, fun _ => some (ascii "10.0.0.0")⟩

def sampleHost (rules : Finset Rule) : Host :=
  ⟨rules, (∅ : GoMap GoString Subnet).insert (ascii "net")
    ⟨(∅ : GoMap GoString GoString).insert (ascii "10.0.0.2") (ascii "dms0"), ∅⟩⟩

def sampleRequest (executorType : ExecutorType) : MapPortRequest :=
  ⟨ascii "net", ascii "tcp", ascii "80", ascii "10.0.0.2", ascii "8080", executorType, []⟩

def sampleLoopback : Loopback := .found (ascii "lo")

theorem firewall_restored_docker :
    ∃ h₁ h₂, mapPort sampleText sampleLoopback (sampleRequest .docker) (sampleHost ∅) =
        some (h₁, .ok ()) ∧
      unmapPort sampleText sampleLoopback (sampleRequest .docker) h₁ = some (h₂, .ok ()) ∧
      h₂.rules = ∅ := by
  refine ⟨_, _, rfl, rfl, ?_⟩
  refine (((firewall_restored_iff sampleText (sampleHost ∅)).1 sampleLoopback sampleLoopback
    (sampleRequest .docker) _ _ _ rfl rfl rfl).mpr ?_).1
  exact ⟨Finset.notMem_empty _, fun _ => Finset.notMem_empty _, nofun,
    fun _ => ⟨fun _ => Finset.notMem_empty _, nofun⟩, fun _ _ _ => Finset.notMem_empty _,
    fun name hname => .inl ⟨rfl, hname⟩⟩

/-- The forward rule of a container stays, also after `DestroySubnet`; and the masquerade rule
of someone else goes. -/
theorem firewall_not_restored :
    (∃ h₁ h₂, mapPort sampleText sampleLoopback (sampleRequest .containerd) (sampleHost ∅) =
        some (h₁, .ok ()) ∧
      unmapPort sampleText sampleLoopback (sampleRequest .containerd) h₁ = some (h₂, .ok ()) ∧
      h₂.rules ≠ ∅) ∧ (∃ h₁ h₂, mapPort sampleText sampleLoopback (sampleRequest .docker)
        (sampleHost {masqueradeRule}) = some (h₁, .ok ()) ∧
      unmapPort sampleText sampleLoopback (sampleRequest .docker) h₁ = some (h₂, .ok ()) ∧
      masqueradeRule ∉ h₂.rules) ∧
    ∃ h₁ h₂, mapAll sampleText [(sampleRequest .containerd, sampleLoopback)] (sampleHost ∅) =
        some h₁ ∧ destroySubnet sampleText .stored (fun _ => sampleLoopback) (ascii "net") h₁ =
        some (h₂, .ok ()) ∧ h₂.rules ≠ ∅ := by
  refine ⟨⟨_, _, rfl, rfl, ?_⟩, ⟨_, _, rfl, rfl, ?_⟩, _, _, rfl, rfl, ?_⟩ <;> decide

end DMS.Network
