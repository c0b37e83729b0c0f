import Rndz.Net.RoundTrip
import Rndz.Tcp.Requests
import Rndz.Udp.Server
import Rndz.Udp.Setup

/-!
# Forwarded addresses and the family of the sockets they are used on

Both servers forward the address of a client as their socket reports it. A client on an IPv4 socket
can use what it is told about another one if the server is bound to an IPv4 address, and only then:
a server bound to `[::]` forwards IPv4-mapped addresses.
-/
namespace Rndz

open Net Proto

/-! ## Addresses of peers -/

/-- How a server that is not `ipv6_only` is bound. -/
inductive Binding where
  | ipv4
  | dualStack
  deriving DecidableEq, Repr

namespace Binding

/-- A peer with this address can reach the server. -/
def Reaches : Binding → SocketAddr → Prop
  | .ipv4, peer => peer.isIpv6 = false
  | .dualStack, _ => True

/-- The address that `recv_from` and `peer_addr` report of a peer. -/
def report : Binding → SocketAddr → SocketAddr
  | .dualStack, .v4 peer => .v6 ⟨Udp.toIpv6Mapped peer.ip, peer.port, 0, 0⟩
  | _, peer => peer

end Binding

/-- A socket with the address `own` can send, or connect, to the address in the text. -/
def Usable (own : SocketAddr) (text : String) : Prop :=
  ∃ addr, SocketAddr.parse text = some addr ∧ addr.isIpv6 = own.isIpv6

theorem usable_toString_iff {own addr : SocketAddr} :
    Usable own addr.toString ↔ addr.isIpv6 = own.isIpv6 := by
  have family : addr.withoutFlowinfo.isIpv6 = addr.isIpv6 := by
    cases addr <;> rfl
  simp [Usable, SocketAddr.parse_toString, family]

/-- The addresses of two IPv4 peers are of one family for them if and only if the server does not
map them. -/
theorem usable_report_iff {binding : Binding} (p q : SocketAddrV4) :
    Usable (.v4 q) (binding.report (.v4 p)).toString ↔ binding = .ipv4 := by
  rw [usable_toString_iff]
  cases binding <;> simp [Binding.report, SocketAddr.isIpv6]

/-- The address in a response, unless it says that the target is not known. -/
def Proto.RespCmd.forwarded : RespCmd → Option String
  | .pong => none
  | .redirect m => if m.addr = "" then none else some m.addr
  | .fsync m => some m.addr

/-! ## UDP -/

namespace Udp.Server

variable {s : Server} {now : Instant} {req : Request} {addr : SocketAddr} {binding : Binding}

/-- The requests come from peers that can reach the server, under the addresses it sees. -/
def Receives (binding : Binding) (ts : List Turn) : Prop :=
  ∀ t ∈ ts, ∀ req addr, t.received = some (req, addr) →
    ∃ peer, binding.Reaches peer ∧ addr = binding.report peer

/-- What is sent to a client on an IPv4 socket because of another one is of use to it. -/
def ForwardsUsable (binding : Binding) (now : Instant) (ts : List Turn) : Prop :=
  ∀ past t rest, ts = past ++ t :: rest → ∀ req (p q : SocketAddrV4),
    t.received = some (req, binding.report (.v4 p)) →
      ∀ d ∈ (((new now).run past).1.turn t).2, d.addr = binding.report (.v4 q) →
        ∀ cmd ∈ d.resp.cmd, ∀ text ∈ cmd.forwarded, Usable (.v4 q) text

/-- The address that is forwarded is the one the request has come from. -/
theorem forwarded_handleRequest {d : Datagram} (hd : d ∈ (s.handleRequest now req addr).2)
    {cmd : RespCmd} (hcmd : d.resp.cmd = some cmd) {text : String}
    (htext : cmd.forwarded = some text) : text = addr.toString := by
  unfold handleRequest at hd
  split at hd
  · obtain rfl := List.mem_singleton.mp hd
    cases hcmd
    cases htext
  · unfold handleIsync at hd
    split at hd
    · obtain rfl := List.mem_singleton.mp hd
      cases hcmd
      exact (Option.some.inj htext).symm
    · obtain rfl := List.mem_singleton.mp hd
      cases hcmd
      cases htext
  · unfold handleRsync at hd
    split at hd
    · obtain rfl := List.mem_singleton.mp hd
      cases hcmd
      exact (Option.some.inj (Option.ite_none_left_eq_some.mp htext).2).symm
    · cases hd
  · cases hd
  · cases hd
  · cases hd

theorem usable_of_ipv4 (now : Instant) (ts : List Turn) : ForwardsUsable .ipv4 now ts := by
  intro past t rest hts req p q hreq d hd hq cmd hcmd text htext
  simp only [out_turn, hreq, Option.elim_some] at hd
  have hreport : Usable (.v4 q) (Binding.ipv4.report (.v4 p)).toString :=
    (usable_report_iff p q).mpr rfl
  rwa [← forwarded_handleRequest hd hcmd htext] at hreport

/-- `b` registers, and a client asks for it. -/
def mappedTurns : List Turn :=
  [⟨some (⟨"b", some .ping⟩, Binding.dualStack.report (host 2)), 0, 0, 0, 0⟩,
    ⟨some (⟨"a", some (.isync ⟨"b"⟩)⟩, Binding.dualStack.report (host 1)), 0, 0, 0, 0⟩]

theorem mappedTurns_receives : Receives .dualStack mappedTurns := by
  intro t ht req addr hreq
  simp only [mappedTurns, List.mem_cons, List.not_mem_nil, or_false] at ht
  obtain rfl | rfl := ht
  · exact ⟨host 2, trivial, (Prod.mk.inj (Option.some.inj hreq)).2.symm⟩
  · exact ⟨host 1, trivial, (Prod.mk.inj (Option.some.inj hreq)).2.symm⟩

theorem mappedTurns_not_usable : ¬ForwardsUsable .dualStack 0 mappedTurns := by
  intro usable
  have := usable [mappedTurns[0]] mappedTurns[1] [] rfl ⟨"a", some (.isync ⟨"b"⟩)⟩
    ⟨⟨10, 0, 0, 1⟩, 5000⟩ ⟨⟨10, 0, 0, 2⟩, 5000⟩ rfl _ List.mem_cons_self rfl _ rfl _ rfl
  exact absurd ((usable_report_iff _ _).mp this) (by decide)

theorem forwards_usable_iff : (∀ now ts, Receives binding ts → ForwardsUsable binding now ts) ↔
    binding = .ipv4 := by
  cases binding with
  | ipv4 => exact iff_of_true (fun now ts _ => usable_of_ipv4 now ts) rfl
  | dualStack =>
    refine iff_of_false (fun all => ?_) nofun
    exact mappedTurns_not_usable (all 0 mappedTurns mappedTurns_receives)

end Udp.Server

/-! ## TCP -/

namespace Tcp

open Transition

/-- The client of `c` sends an `Fsync` itself. -/
def Event.sendsFsync (c : Nat) : Event → Bool
  | .sent d ⟨_, some (.fsync _)⟩ => d = c
  | _ => false

namespace State

variable {s t : State} {binding : Binding} {tr : List (State × Action)}

/-- A connection comes from a peer that can reach the server, under the address it sees. -/
def Accepts (binding : Binding) (_ : State) (a : Action) : Prop :=
  ∀ addr, a = .accept addr → ∃ peer, binding.Reaches peer ∧ addr = binding.report peer

/-- The text is the address of a connection from a peer that is not on an IPv4 socket. -/
def NamesIpv6 (binding : Binding) (s : State) (text : String) : Prop :=
  ∃ c, s.status c ≠ .absent ∧ text = (s.addr c).toString ∧
    ∀ p, s.addr c ≠ binding.report (.v4 p)

/-- What is written to a client on an IPv4 socket is of use to it, unless it is about a client on
another socket, or an `Fsync` that the client has sent itself. -/
def ForwardsUsable (binding : Binding) (s : State) : Prop :=
  ∀ c cmd, .wrote c cmd ∈ s.log → ∀ q, s.addr c = binding.report (.v4 q) →
    (∀ src fsync, cmd = .fsync fsync → .sent c ⟨src, some (.fsync fsync)⟩ ∉ s.log) →
      ∀ text ∈ cmd.forwarded, ¬NamesIpv6 binding s text → Usable (.v4 q) text

/-- An address that the history explains is the one of a connection. -/
theorem forwarded_explained {addr : Nat → SocketAddr} {log : List Event} {c : Nat}
    {cmd : RespCmd} (h : Explained addr log c cmd)
    (own : ∀ src fsync, cmd = .fsync fsync → .sent c ⟨src, some (.fsync fsync)⟩ ∉ log)
    {text : String} (htext : cmd.forwarded = some text) :
    ∃ e ∈ log, text = (addr e.conn).toString := by
  cases h with
  | pong sent => cases htext
  | missing sent => cases htext
  | fsync req =>
    cases req with
    | sent sent => exact absurd sent (own _ _ rfl)
    | fsync sent target => exact ⟨_, sent, (Option.some.inj htext).symm⟩
  | rsync req ownId source =>
    exact ⟨_, source, (Option.some.inj (Option.ite_none_left_eq_some.mp htext).2).symm⟩

theorem usable_of_ipv4 (run : Run tr s) (hC : Steps (Accepts .ipv4) tr) :
    ForwardsUsable .ipv4 s := by
  intro c cmd wrote q hq own text htext _
  have inv := provenance run
  obtain ⟨past, rest, hlog⟩ := List.append_of_mem wrote
  have explained : Explained s.addr s.log c cmd :=
    (inv.wrote past c cmd rest hlog).mono (by simp [hlog]) fun _ _ => rfl
  obtain ⟨e, he, rfl⟩ := forwarded_explained explained own htext
  have family : ∀ c, s.status c ≠ .absent → (s.addr c).isIpv6 = false := by
    refine addr_of_accepts (P := fun addr => addr.isIpv6 = false) run
      (hC.mono fun s a ha addr haddr => ?_)
    obtain ⟨peer, reaches, rfl⟩ := ha addr haddr
    exact reaches
  exact usable_toString_iff.mpr (family e.conn (inv.accepted e he))

/-- Connection 1 registers as `b`, and the `Isync` of connection 2 is forwarded to it. -/
def mappedRun : List Action :=
  [.accept (Binding.dualStack.report (host 1)), .accept (Binding.dualStack.report (host 2))] ++
    register 1 "b" ++ deliver 2 ⟨"a", some (.isync ⟨"b"⟩)⟩ ++ runHandler 2 4 ++ runHandler 1 3

theorem mappedRun_not_usable :
    ∃ tr s, Run tr s ∧ Steps (Accepts .dualStack) tr ∧ ¬ForwardsUsable .dualStack s := by
  have script : (exec State.step (fun _ a => a ∈ mappedRun) init mappedRun).any (fun s =>
      Event.wrote 1 (.fsync { id := "a", addr := (Binding.dualStack.report (host 2)).toString }) ∈
          s.log ∧ s.addr 1 = Binding.dualStack.report (host 1) ∧
        ∀ e ∈ s.log, e.sendsFsync 1 = false) = true := by
    decide
  obtain ⟨tr, s, run, hC, h⟩ := run_of_exec script
  obtain ⟨wrote, haddr, none⟩ := of_decide_eq_true h
  have peers : ∀ a ∈ mappedRun, ∀ addr, a = .accept addr →
      ∃ p, addr = Binding.dualStack.report (.v4 p) := by
    rintro a ha addr rfl
    simp [mappedRun, register, deliver, runHandler] at ha
    obtain rfl | rfl := ha
    · exact ⟨_, rfl⟩
    · exact ⟨_, rfl⟩
  refine ⟨tr, s, run, hC.mono fun s a ha addr haddr => ?_, fun usable => ?_⟩
  · obtain ⟨p, rfl⟩ := peers a ha addr haddr
    exact ⟨.v4 p, trivial, rfl⟩
  · have ipv4 := addr_of_accepts (P := fun addr => ∃ p, addr = Binding.dualStack.report (.v4 p))
      run (hC.mono fun s a ha => peers a ha)
    have usable := usable 1 _ wrote _ haddr ?_ _ rfl ?_
    · exact absurd ((usable_report_iff _ _).mp usable) (by decide)
    · intro src fsync _ sent
      cases none _ sent
    · rintro ⟨c, known, -, other⟩
      obtain ⟨p, hp⟩ := ipv4 c known
      exact other p hp

theorem forwards_usable_iff :
    (∀ tr s, Run tr s → Steps (Accepts binding) tr → ForwardsUsable binding s) ↔
      binding = .ipv4 := by
  cases binding with
  | ipv4 => exact iff_of_true (fun tr s run hC => usable_of_ipv4 run hC) rfl
  | dualStack =>
    refine iff_of_false (fun all => ?_) nofun
    obtain ⟨tr, s, run, hC, not⟩ := mappedRun_not_usable
    exact not (all tr s run hC)

end State

end Tcp

/-! ## Both servers -/

/-- In every run of the UDP and of the TCP server the addresses that are forwarded between clients
on IPv4 sockets are of use to them if and only if the server is bound to an IPv4 address. -/
theorem forwarded_usable_iff (binding : Binding) :
    ((∀ now ts, Udp.Server.Receives binding ts → Udp.Server.ForwardsUsable binding now ts) ↔
      binding = .ipv4) ∧
    ((∀ tr s, Tcp.Run tr s → Transition.Steps (Tcp.State.Accepts binding) tr →
      Tcp.State.ForwardsUsable binding s) ↔ binding = .ipv4) :=
  ⟨Udp.Server.forwards_usable_iff, Tcp.State.forwards_usable_iff⟩

/-- A dual-stack server gives a client on an IPv4 socket the address `[::ffff:10.0.0.1]:5000`. -/
theorem mapped_address_forwarded :
    (¬∀ binding now ts, Udp.Server.Receives binding ts →
      Udp.Server.ForwardsUsable binding now ts) ∧
    ¬∀ binding tr s, Tcp.Run tr s → Transition.Steps (Tcp.State.Accepts binding) tr →
      Tcp.State.ForwardsUsable binding s := by
  constructor
  · intro all
    exact Udp.Server.mappedTurns_not_usable (all .dualStack 0 _ Udp.Server.mappedTurns_receives)
  · intro all
    obtain ⟨tr, s, run, hC, not⟩ := Tcp.State.mappedRun_not_usable
    exact not (all .dualStack tr s run hC)

end Rndz
