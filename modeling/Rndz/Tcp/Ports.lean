import Rndz.Tcp.Sockets

/-!
# One port for all sockets of a TCP client

A listener talks to the server and to its peers from the port on which it listens, and a call of
`connect` to its peer from the port from which it has asked. So if each client sits behind a
translator that maps its ports to addresses, whomever it talks to, `connect` goes to where the
listener listens, and the listener has sent a first packet to where `connect` comes from.
-/
namespace Rndz.Tcp.Rendezvous.Placed

open Net Proto Transition Setup
open Function (update update_apply)
open PeerHandler (response)

variable {p : Parties} {cfg : Party → Config} {env : Nat → Site} {s t x : Placed}
  {act : Rendezvous.Action} {site : Site} {a : Action} {e : End} {q : Party}
  {tr : List (Placed × Action)}

/-! ## One port -/

/-- The listening sockets have ports, those that were asked for; whatever else a listener has
opened for one of them has its port, and a call that has been connected has one. -/
structure Inv (cfg : Party → Config) (s : Placed) : Prop where
  listening : ∀ q l, l < (s.sys.roots q).listens → (s.listening q l).port ≠ 0 ∧
    ∀ a, (cfg q).localAddr = some a → a.port ≠ 0 → (s.listening q l).port = a.port
  called : ∀ q k, q.Listens → k < (s.sys.roots q).count →
    (s.sys.roots q).listener k < (s.sys.roots q).listens
  connected : ∀ e, e.party.Listens → s.sys.Opened e →
    ∃ a, s.localAddr e = some a ∧ a.port = (s.own e).port
  knocks : ∀ e stream, stream ∈ s.knocks e → e.party.Listens ∧ s.sys.Opened e ∧
    stream.localAddr.port = (s.own e).port
  dialled : ∀ j a, s.localAddr ⟨.call j, 0⟩ = some a → a.port ≠ 0

theorem inv_init : Inv cfg (init p) := by
  refine ⟨fun q l called => ?_, fun q k listens opened => ?_, fun e listens opened => ?_,
    by simp [init], by simp [init]⟩
  · cases q <;> cases called
  · cases q with
    | call j => exact listens.elim
    | _ => cases opened
  · obtain ⟨q, k⟩ := e
    cases q with
    | call j => exact listens.elim
    | _ => cases opened

/-- The address a connection was made for stays. -/
theorem Inv.own_eq (inv : Inv cfg s) (listens : e.party.Listens) (opened : s.sys.Opened e)
    (listening : ∀ q l, l < (s.sys.roots q).listens → t.listening q l = s.listening q l)
    (listener : ∀ q k, k < (s.sys.roots q).count →
      (t.sys.roots q).listener k = (s.sys.roots q).listener k) : t.own e = s.own e := by
  have opened := State.opened_iff.mp opened
  unfold own
  rw [listener _ _ opened]
  exact listening _ _ (inv.called _ _ listens opened)

/-- The sockets stay as they are but for those that are opened for a response. -/
theorem Inv.same (inv : Inv cfg s) (roots : t.sys.roots = s.sys.roots)
    (listening : t.listening = s.listening) (localAddr : t.localAddr = s.localAddr)
    (knocks : ∀ e stream, stream ∈ t.knocks e → stream ∈ s.knocks e ∨
      e.party.Listens ∧ s.sys.Opened e ∧ stream.localAddr.port = (s.own e).port) : Inv cfg t := by
  have opened : ∀ e, t.sys.Opened e ↔ s.sys.Opened e := by
    intro e
    rw [State.opened_iff, State.opened_iff, roots]
  have own : ∀ e, t.own e = s.own e := by
    intro e
    rw [Placed.own, Placed.own, roots, listening]
  refine ⟨?_, ?_, ?_, ?_, ?_⟩
  · rw [roots, listening]
    exact inv.listening
  · rw [roots]
    exact inv.called
  · intro e listens open_
    rw [localAddr, own]
    exact inv.connected e listens ((opened e).mp open_)
  · intro e stream hstream
    rw [own, opened]
    exact (knocks e stream hstream).elim (inv.knocks e stream) id
  · rw [localAddr]
    exact inv.dialled

theorem Inv.listen (inv : Inv cfg s) {sys : State} {addr : SocketAddr}
    (keeps : site.KeepsPorts) (opened : Setup.listen site (cfg q) = .ok addr)
    (more : (s.sys.roots q).Go .listen (sys.roots q))
    (others : ∀ q' ≠ q, sys.roots q' = s.sys.roots q') :
    Inv cfg { s.setListening q (s.sys.roots q).listens addr with sys } := by
  have roots : ∀ q', (sys.roots q').count = (s.sys.roots q').count ∧
      (sys.roots q').listener = (s.sys.roots q').listener ∧
        (sys.roots q').listens = (s.sys.roots q').listens + if q' = q then 1 else 0 := by
    intro q'
    by_cases hq : q' = q
    · subst hq
      generalize sys.roots q' = y at more
      cases more with
      | listen => simp
    · simp [others q' hq, hq]
  have listening : ∀ q' l, l < (s.sys.roots q').listens →
      update s.listening q (update (s.listening q) (s.sys.roots q).listens addr) q' l =
        s.listening q' l := by
    intro q' l called
    by_cases hq : q' = q
    · subst hq
      simp [Nat.ne_of_lt called]
    · simp [hq]
  have open_iff : ∀ e, sys.Opened e ↔ s.sys.Opened e := by
    intro e
    rw [State.opened_iff, State.opened_iff, (roots e.party).1]
  have own : ∀ e, e.party.Listens → s.sys.Opened e →
      own { s.setListening q (s.sys.roots q).listens addr with sys } e = s.own e := by
    intro e listens opened
    exact inv.own_eq listens opened listening fun q' k _ => congrFun (roots q').2.1 k
  refine ⟨fun q' l called => ?_, fun q' k listens opened => ?_, fun e listens opened => ?_,
    fun e stream hstream => ?_, inv.dialled⟩
  · by_cases new : q' = q ∧ l = (s.sys.roots q).listens
    · obtain ⟨rfl, rfl⟩ := new
      simpa using port_listen keeps opened
    · have called : l < (s.sys.roots q').listens := by
        have := (roots q').2.2
        have hcalled : l < (sys.roots q').listens := called
        grind
      simpa [listening q' l called] using inv.listening q' l called
  · have := inv.called q' k listens ((roots q').1 ▸ opened)
    have := (roots q').2
    simp only [this]
    omega
  · have opened := (open_iff e).mp opened
    rw [own e listens opened]
    exact inv.connected e listens opened
  · obtain ⟨listens, opened, port⟩ := inv.knocks e stream hstream
    exact ⟨listens, (open_iff e).mpr opened, own e listens opened ▸ port⟩

theorem Inv.connect (inv : Inv cfg s) {sys : State} {l : Nat} {stream : Stream}
    (keeps : site.KeepsPorts) (listens : q.Listens)
    (opened : connectServer site (s.listening q l) (cfg q).serverAddr = .ok stream)
    (more : (s.sys.roots q).Go (.connect l true) (sys.roots q))
    (others : ∀ q' ≠ q, sys.roots q' = s.sys.roots q') :
    Inv cfg { s.setLocalAddr ⟨q, (s.sys.roots q).count⟩ stream.localAddr with sys } := by
  obtain ⟨called, more⟩ : l < (s.sys.roots q).listens ∧ sys.roots q = { s.sys.roots q with
      count := (s.sys.roots q).count + 1
      listener := update (s.sys.roots q).listener (s.sys.roots q).count l } := by
    generalize sys.roots q = y at more
    cases more with
    | connected called => exact ⟨called, rfl⟩
  have sameListens : ∀ q', (sys.roots q').listens = (s.sys.roots q').listens := by
    intro q'
    by_cases hq : q' = q
    · simp [hq, more]
    · rw [others q' hq]
  have listener : ∀ q' k, k < (s.sys.roots q').count →
      (sys.roots q').listener k = (s.sys.roots q').listener k := by
    intro q' k hk
    by_cases hq : q' = q
    · subst hq
      simp [more, Nat.ne_of_lt hk]
    · rw [others q' hq]
  have own : ∀ e, e.party.Listens → s.sys.Opened e →
      own { s.setLocalAddr ⟨q, (s.sys.roots q).count⟩ stream.localAddr with sys } e = s.own e := by
    intro e listens opened
    exact inv.own_eq listens opened (fun _ _ _ => rfl) listener
  -- an end that is open now is the new one, or was open before
  have open_iff : ∀ e, sys.Opened e ↔ e = ⟨q, (s.sys.roots q).count⟩ ∨ s.sys.Opened e := by
    rintro ⟨q', k⟩
    rw [State.opened_iff, State.opened_iff]
    by_cases hq : q' = q
    · subst hq
      simp [more]
      omega
    · simp [others q' hq, hq]
  refine ⟨fun q' k hk => ?_, fun q' k listens' hk => ?_, fun e listens' hopen => ?_,
    fun e stream' hstream => ?_, fun j a connected => ?_⟩
  · exact inv.listening q' k (sameListens q' ▸ hk)
  · rcases (open_iff ⟨q', k⟩).mp (State.opened_iff.mpr hk) with new | old
    · obtain ⟨rfl, rfl⟩ := End.mk.inj new
      simpa [more] using called
    · have old := State.opened_iff.mp old
      simp only [sameListens, listener q' k old]
      exact inv.called q' k listens' old
  · rcases (open_iff e).mp hopen with rfl | old
    · refine ⟨stream.localAddr, by simp, ?_⟩
      have port := (port_connectServer keeps opened).2 (inv.listening q l called).1
      simpa [Placed.own, more] using port
    · have hne : e ≠ ⟨q, (s.sys.roots q).count⟩ := by
        rintro rfl
        exact absurd (State.opened_iff.mp old) (lt_irrefl _)
      rw [own e listens' old]
      simpa [hne] using inv.connected e listens' old
  · obtain ⟨listens', old, port⟩ := inv.knocks e stream' hstream
    exact ⟨listens', (open_iff e).mpr (.inr old), own e listens' old ▸ port⟩
  · have hne : (⟨.call j, 0⟩ : End) ≠ ⟨q, (s.sys.roots q).count⟩ := by
      intro heq
      obtain rfl := (End.mk.inj heq).1
      exact listens
    exact inv.dialled j a (by simpa [hne] using connected)

theorem listens_of_asks (h : act.asks q ≠ .none) : q.Listens := by
  cases q with
  | call j => cases act <;> exact absurd rfl h
  | _ => trivial

theorem mem_opens {resp : Response} {stream : Stream} :
    stream ∈ s.opens site e resp ↔ e.party.Listens ∧ ∃ fsync dst, resp.cmd = some (.fsync fsync) ∧
      SocketAddr.parse fsync.addr = some dst ∧ knock site (s.own e) dst = some stream := by
  unfold opens
  split
  · rename_i fsync hcmd
    simp [hcmd, Option.bind_eq_some_iff]
  · rename_i other
    refine iff_of_false List.not_mem_nil ?_
    rintro ⟨-, fsync, -, hcmd, -⟩
    exact other fsync hcmd

/-- The port on which a listener listens is the one that was asked for. -/
theorem Inv.port_own (inv : Inv cfg s) (listens : e.party.Listens) (opened : s.sys.Opened e) :
    (s.own e).port ≠ 0 ∧
      ∀ a, (cfg e.party).localAddr = some a → a.port ≠ 0 → (s.own e).port = a.port :=
  inv.listening _ _ (inv.called _ _ listens (State.opened_iff.mp opened))

theorem inv_step (run : PlacedRun p cfg env tr s) (keeps : ∀ n, (env n).KeepsPorts)
    (inv : Inv cfg s) (h : s.step p cfg env a = some t) : Inv cfg t := by
  obtain ⟨_, sysRun⟩ := sys_run run
  cases rule_of_step h with
  | @dial j m n stream free opened =>
    have hne : ∀ e : End, e.party.Listens → e ≠ ⟨.call j, 0⟩ := by
      rintro e listens rfl
      exact listens
    refine ⟨inv.listening, inv.called, fun e listens hopen => ?_, inv.knocks, fun i a dialled => ?_⟩
    · obtain ⟨a, connected, port⟩ := inv.connected e listens hopen
      exact ⟨a, by simpa [hne e listens] using connected, port⟩
    · by_cases hi : i = j
      · subst hi
        obtain rfl : stream.localAddr = a := by simpa using dialled
        exact port_dial (keeps n) opened
      · exact inv.dialled i a (by simpa [hi] using dialled)
  | @sys act n x sys sockets step =>
    have go := fun q => State.roots_step sysRun step q
    cases sockets with
    | @listen q addr asks only opened =>
      refine inv.listen (keeps n) opened (asks ▸ go q) fun q' hq => ?_
      exact (only q' hq ▸ go q').eq_of_none
    | @connected q l stream asks only opened =>
      have listens : q.Listens := listens_of_asks (show act.asks q ≠ .none by simp [asks])
      refine inv.connect (keeps n) listens opened (asks ▸ go q) fun q' hq => ?_
      exact (only q' hq ▸ go q').eq_of_none
    | @read c e resp reads unasked peer next =>
      refine inv.same (funext fun q => (unasked q ▸ go q).eq_of_none) rfl rfl ?_
      intro e' stream hstream
      by_cases he : e' = e
      · subst he
        rcases List.mem_append.mp (by simpa using hstream) with old | new
        · exact .inl old
        · obtain ⟨listens, fsync, dst, -, -, hknock⟩ := mem_opens.mp new
          have opened := (State.linked_of_run sysRun).opened c e' peer
          exact .inr ⟨listens, opened,
            (port_bind (keeps n) (knock_eq_some hknock).1).2 (inv.port_own listens opened).1⟩
      · exact .inl (by simpa [he] using hstream)
    | none unasked =>
      refine inv.same (funext fun q => ?_) rfl rfl fun e stream hstream => .inl hstream
      have go := go q
      rcases unasked q with quiet | ⟨l, refused⟩
      · exact (quiet ▸ go).eq_of_none
      · rw [refused] at go
        generalize sys.roots q = y at go
        cases go with
        | refused => rfl

theorem inv_of_run (run : PlacedRun p cfg env tr s) (keeps : ∀ n, (env n).KeepsPorts) :
    Inv cfg s := by
  induction run with
  | start => exact inv_init
  | next run h ih => exact inv_step run keeps ih h

/-- The connections to the server that a listener makes for a call of `listen`, again and again,
and the sockets that it opens for the peers it is told of, all have the port on which it listens,
which is the one it was given. -/
theorem listener_keeps_port (run : PlacedRun p cfg env tr s) (keeps : ∀ n, (env n).KeepsPorts)
    {l : Nat} (listens : q.Listens) (called : l < (s.sys.roots q).listens) :
    (s.listening q l).port ≠ 0 ∧
      (∀ a, (cfg q).localAddr = some a → a.port ≠ 0 → (s.listening q l).port = a.port) ∧
      ∀ k < (s.sys.roots q).count, (s.sys.roots q).listener k = l →
        (∃ a, s.localAddr ⟨q, k⟩ = some a ∧ a.port = (s.listening q l).port) ∧
          ∀ stream ∈ s.knocks ⟨q, k⟩, stream.localAddr.port = (s.listening q l).port := by
  have inv := inv_of_run run keeps
  obtain ⟨positive, given⟩ := inv.listening q l called
  refine ⟨positive, given, ?_⟩
  rintro k opened rfl
  exact ⟨inv.connected ⟨q, k⟩ listens (State.opened_iff.mpr opened),
    fun stream hstream => (inv.knocks ⟨q, k⟩ stream hstream).2.2⟩

/-- The port on which the listener of `meeting` listens is the port of its connection to the server
and of the socket it has opened for the call. -/
theorem port_kept_in_meeting : ∃ tr s,
    PlacedRun State.twoParties (fun _ => anyAddr) (fun _ => goodSite) tr s ∧
      ∃ port, port ≠ 0 ∧ (s.listening (.sync 0) 0).port = port ∧
        (∃ a, s.localAddr ⟨.sync 0, 0⟩ = some a ∧ a.port = port) ∧
          ∃ stream ∈ s.knocks ⟨.sync 0, 0⟩, stream.localAddr.port = port := by
  obtain ⟨tr, s, run, -, -, listens, opened, first, knocks⟩ := placedMeeting_run
  have called : 0 < (s.sys.roots (.sync 0)).listens := by simp [listens]
  have keeps : ∀ _ : Nat, goodSite.KeepsPorts := fun _ => keepsPorts_goodSite
  have listens : Party.Listens (.sync 0) := trivial
  obtain ⟨positive, -, kept⟩ := listener_keeps_port run keeps listens called
  obtain ⟨connection, knocked⟩ := kept 0 opened first
  obtain ⟨stream, hstream⟩ := List.exists_mem_of_ne_nil _ knocks
  exact ⟨tr, s, run, _, positive, rfl, connection, stream, hstream, knocked stream hstream⟩

/-! ## Behind a translator -/

/-- Where the server sees the clients. -/
def Seen (nat : Party → UInt16 → SocketAddr) (s : Placed) : Prop :=
  ∀ c e, s.sys.peer c = some e →
    ∃ a, s.localAddr e = some a ∧ s.sys.server.addr c = nat e.party a.port

/-- A listener has sent a packet to every address it has been told of. -/
def Knocked (s : Placed) : Prop :=
  ∀ e fsync dst, e.party.Listens → response (.fsync fsync) ∈ s.sys.received e →
    SocketAddr.parse fsync.addr = some dst → ∃ stream ∈ s.knocks e, stream.peerAddr = dst

theorem addr_kept {x y : Tcp.State} {b : Tcp.Action} {c : Nat} (rule : Tcp.State.Rule x b y)
    (old : c ≤ x.count) : y.addr c = x.addr c := by
  cases rule with
  | accept addr =>
    have hc : c ≠ x.count + 1 := by omega
    simp [hc]
  | _ => rfl

/-- A client end that is linked stays where it is. -/
theorem localAddr_step (linked : s.sys.Linked) (h : s.step p cfg env a = some t) {c : Nat}
    (peer : s.sys.peer c = some e) {addr : SocketAddr} (connected : s.localAddr e = some addr) :
    t.localAddr e = some addr := by
  cases rule_of_step h with
  | @dial j m n stream free opened =>
    have hne : e ≠ ⟨.call j, 0⟩ := by
      rintro rfl
      cases connected.symm.trans free
    simpa [hne] using connected
  | sys sockets step =>
    cases sockets with
    | @connected q l stream asks only opened =>
      have hne : e ≠ ⟨q, (s.sys.roots q).count⟩ := by
        rintro rfl
        exact absurd (State.opened_iff.mp (linked.opened c _ peer)) (lt_irrefl _)
      simpa [hne] using connected
    | _ => exact connected

theorem addr_step {c : Nat} (linked : s.sys.Linked) (h : s.step p cfg env a = some t)
    (peer : s.sys.peer c = some e) : t.sys.server.addr c = s.sys.server.addr c := by
  cases rule_of_step h with
  | dial free opened => rfl
  | sys sockets step =>
    rcases State.server_step step with same | ⟨b, step, -⟩
    · exact congrArg (fun server => server.addr c) same
    · exact addr_kept (Tcp.State.rule_of_step step) (linked.accepted c e peer)

theorem seen_step {nat : Party → UInt16 → SocketAddr} (linked : s.sys.Linked) (seen : Seen nat s)
    (mapped : Mapped nat s a) (h : s.step p cfg env a = some t) : Seen nat t := by
  have old : ∀ c e, s.sys.peer c = some e →
      ∃ a, t.localAddr e = some a ∧ t.sys.server.addr c = nat e.party a.port := by
    intro c e peer
    obtain ⟨addr, connected, hseen⟩ := seen c e peer
    exact ⟨addr, localAddr_step linked h peer connected, (addr_step linked h peer).trans hseen⟩
  intro c e peer
  cases rule_of_step h with
  | dial free opened => exact old c e peer
  | @sys act n x sys sockets step =>
    rcases State.accepted_of_peer step peer with before | rfl
    · exact old c e before
    · have connected : x = s ∧ s.localAddr e ≠ none := by
        cases sockets with
        | none _ _ connected => exact ⟨rfl, connected e _ rfl⟩
        | listen asks | connected asks => cases asks
        | read reads => cases reads
      obtain ⟨rfl, connected⟩ := connected
      obtain ⟨a, ha⟩ := Option.ne_none_iff_exists'.mp connected
      exact ⟨a, ha, mapped a ha⟩

theorem knocks_step (h : s.step p cfg env a = some t) : s.knocks e ⊆ t.knocks e := by
  cases rule_of_step h with
  | dial free opened => exact fun _ h => h
  | sys sockets step =>
    cases sockets with
    | @read c e' resp reads unasked peer next =>
      intro stream hstream
      by_cases he : e = e'
      · subst he
        simp [hstream]
      · simpa [he] using hstream
    | _ => exact fun _ h => h

theorem knocked_step (run : PlacedRun p cfg env tr s) (inv : Inv cfg s)
    (reuses : ∀ n, (env n).Reuses) (knocked : Knocked s) (h : s.step p cfg env a = some t) :
    Knocked t := by
  obtain ⟨_, sysRun⟩ := sys_run run
  intro e fsync dst listens read parse
  have old : response (.fsync fsync) ∈ s.sys.received e →
      ∃ stream ∈ t.knocks e, stream.peerAddr = dst := by
    intro before
    obtain ⟨stream, hstream, hdst⟩ := knocked e fsync dst listens before parse
    exact ⟨stream, knocks_step h hstream, hdst⟩
  cases rule_of_step h with
  | dial free opened => exact old read
  | @sys act n x sys sockets step =>
    rcases State.received_step step read with before | ⟨c, rfl, peer, next⟩
    · exact old before
    · cases sockets with
      | @read c' e' resp reads unasked peer' next' =>
        obtain rfl := Rendezvous.Action.read.inj reads
        obtain rfl := Option.some.inj (peer.symm.trans peer')
        obtain rfl := Option.some.inj (next.symm.trans next')
        have opened := (State.linked_of_run sysRun).opened c e peer
        have port := (inv.port_own listens opened).1
        obtain ⟨stream, hknock⟩ := knock_of_reuses dst (reuses n) port
        have hopens : stream ∈ s.opens (env n) e (response (.fsync fsync)) :=
          mem_opens.mpr ⟨listens, fsync, dst, rfl, parse, hknock⟩
        exact ⟨stream, by simp [hopens], (knock_eq_some hknock).2⟩
      | listen asks | connected asks => cases asks
      | none _ unread => exact absurd rfl (unread c)

theorem seen_of_run {nat : Party → UInt16 → SocketAddr} (run : PlacedRun p cfg env tr s)
    (mapped : Steps (Mapped nat) tr) : Seen nat s := by
  induction run with
  | start => simp [Seen, init, State.init]
  | next run h ih =>
    obtain ⟨before, last⟩ := steps_concat.mp mapped
    obtain ⟨_, sysRun⟩ := sys_run run
    exact seen_step (State.linked_of_run sysRun) (ih before) last h

theorem knocked_of_run (run : PlacedRun p cfg env tr s) (keeps : ∀ n, (env n).KeepsPorts)
    (reuses : ∀ n, (env n).Reuses) : Knocked s := by
  induction run with
  | start =>
    intro e fsync dst listens read
    obtain ⟨q, k⟩ := e
    cases q with
    | call j => exact listens.elim
    | _ => cases read
  | next run h ih => exact knocked_step run (inv_of_run run keeps) reuses ih h

/-- The connections of a listener that has been called once are for its only listening socket. -/
theorem Inv.own_once (inv : Inv cfg s) (once : (s.sys.roots q).listens ≤ 1) (listens : q.Listens)
    {k : Nat} (opened : s.sys.Opened ⟨q, k⟩) : s.own ⟨q, k⟩ = s.listening q 0 := by
  have called := inv.called q k listens (State.opened_iff.mp opened)
  have first : (s.sys.roots q).listener k = 0 := by omega
  rw [own, first]

/-- If the system lets ports be used again, and each client sits behind a translator that maps its
ports whomever it talks to, then `connect` goes to where the listening socket of its target is
mapped to, and the target has sent a packet from there to where `connect` comes from. -/
theorem hole_punched {nat : Party → UInt16 → SocketAddr} {j : Nat} {host : Party}
    {target : SocketAddr} (run : PlacedRun p cfg env tr s) (keeps : ∀ n, (env n).KeepsPorts)
    (reuses : ∀ n, (env n).Reuses) (mapped : Steps (Mapped nat) tr) (priv : State.Private p j)
    (alone : ∀ q, q.Listens → p.id q = p.target j → q = host)
    (once : (s.sys.roots host).listens ≤ 1)
    (ends : (s.sys.calls j).result = some (.ok target)) :
    ∃ mine, s.localAddr ⟨.call j, 0⟩ = some mine ∧
      target = (nat host (s.listening host 0).port).withoutFlowinfo ∧
      (∀ site stream, site.KeepsPorts → connectPeer site mine target = .ok stream →
        stream.peerAddr = target ∧ stream.localAddr.port = mine.port) ∧
      ∃ k, ∃ stream ∈ s.knocks ⟨host, k⟩, stream.localAddr.port = (s.listening host 0).port ∧
        stream.peerAddr = (nat (.call j) mine.port).withoutFlowinfo := by
  obtain ⟨_, sysRun⟩ := sys_run run
  have inv := inv_of_run run keeps
  have seen := seen_of_run run mapped
  obtain ⟨resp, read, hresult⟩ := State.read_of_result ends
  obtain ⟨a, rfl, ha⟩ := State.redirect_of_read sysRun priv read
  have hresult := hresult _ rfl
  rcases ha with rfl | ⟨addr, rfl, meets⟩
  · have hempty : SocketAddr.parse "" = none := by decide
    simp [State.targetOf, hempty] at hresult
  obtain rfl : target = addr.withoutFlowinfo := by
    simpa [State.targetOf, SocketAddr.parse_toString] using hresult
  obtain ⟨⟨c, d, ⟨q, k⟩, fsync, hc, ⟨hd, listens, hid⟩, told, -, haddr, -⟩, d', ⟨q', k'⟩,
    ⟨hd', listens', hid'⟩, rfl⟩ := meets
  obtain rfl := alone q listens hid
  obtain rfl := alone q' listens' hid'
  obtain ⟨mine, connected, hmine⟩ := seen c _ hc
  refine ⟨mine, connected, ?_, fun site stream keeps hconnect => ?_, k, ?_⟩
  · have opened := (State.linked_of_run sysRun).opened d' _ hd'
    obtain ⟨a, ha, port⟩ := inv.connected _ listens' opened
    obtain ⟨a', ha', hseen⟩ := seen d' _ hd'
    obtain rfl := Option.some.inj (ha.symm.trans ha')
    rw [hseen, port, inv.own_once once listens' opened]
  · obtain ⟨hpeer, port⟩ := port_connectPeer keeps hconnect
    exact ⟨hpeer, port (inv.dialled j mine connected)⟩
  · have parse : SocketAddr.parse fsync.addr = some (nat (.call j) mine.port).withoutFlowinfo := by
      rw [haddr, hmine, SocketAddr.parse_toString]
    obtain ⟨stream, hstream, hdst⟩ :=
      knocked_of_run run keeps reuses _ fsync _ listens told parse
    obtain ⟨-, opened, port⟩ := inv.knocks _ stream hstream
    exact ⟨stream, hstream, inv.own_once once listens opened ▸ port, hdst⟩

theorem hole_punched_in_meeting : ∃ tr s,
    PlacedRun State.twoParties (fun _ => anyAddr) (fun _ => goodSite) tr s ∧
      ∃ mine k, ∃ stream ∈ s.knocks ⟨.sync 0, k⟩,
        stream.peerAddr = (twoAddrs (.call 0) mine).withoutFlowinfo := by
  obtain ⟨tr, s, run, mapped, result, listens, -⟩ := placedMeeting_run
  have alone : ∀ q, Party.Listens q → State.twoParties.id q = State.twoParties.target 0 →
      q = .sync 0 := by
    intro q hlistens hid
    cases q with
    | call j => exact hlistens.elim
    | sync i | async i => cases i <;> simp_all [State.twoParties]
  obtain ⟨mine, -, -, -, k, stream, hstream, -, hdst⟩ :=
    hole_punched run (fun _ => keepsPorts_goodSite) (fun _ => reuses_goodSite) mapped
      State.private_twoParties alone listens.le result
  exact ⟨tr, s, run, mine.port, k, stream, hstream, hdst⟩

end Rndz.Tcp.Rendezvous.Placed
