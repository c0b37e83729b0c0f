import Rndz.Net.RoundTrip
import Rndz.Tcp.Requests

/-!
# `Client::connect` over TCP

The client sends one `Isync` and takes the first response for the answer, without a look at
the id in it. So `connect` reaches its target, and nothing else has a say in it, exactly as
long as the server gives its connection no other response first: the handler of the
connection, registered by its own `Isync`, must not take an `Fsync`, or the `Rsync` of
another peer, before its target's (`Undisturbed`).
-/
namespace Rndz.Tcp

open Net Proto Mpsc Transition
open Function (update update_apply)

/-! ## The client -/

/-- The errors of `connect` between its request and its connection to the peer. -/
inductive ConnectError where
  | invalidServerResponse
  | targetIdNotFound
  deriving DecidableEq, Repr

/-- The address `Client::connect`, sync or async, takes from the responses on its
connection; it waits for the first of them. -/
def connect : List RespCmd → Option (Except ConnectError SocketAddr)
  | [] => none
  | .redirect rdr :: _ =>
    match SocketAddr.parse rdr.addr with
    | some addr => some (.ok addr)
    | none => some (.error .targetIdNotFound)
  | _ :: _ => some (.error .invalidServerResponse)

/-- The response is a `Redirect` for `target`. -/
def names (target : String) : RespCmd → Bool
  | .redirect rdr => rdr.id = target
  | _ => false

/-- What the handler of `c` has written to its client. -/
def written (log : List Event) (c : Nat) : List RespCmd :=
  log.filterMap fun e => match e with
    | .wrote d cmd => if d = c then some cmd else none
    | _ => none

theorem mem_written {log : List Event} {c : Nat} {cmd : RespCmd} :
    cmd ∈ written log c ↔ .wrote c cmd ∈ log := by
  simp only [written, List.mem_filterMap]
  constructor
  · rintro ⟨e, he, hcmd⟩
    cases e with
    | wrote d cmd' =>
      obtain ⟨rfl, rfl⟩ : d = c ∧ cmd' = cmd := by simpa using hcmd
      exact he
    | _ => cases hcmd
  · exact fun h => ⟨_, h, by simp⟩

/-- A frame of the client of `c` is an `Isync` for `target`. -/
def Event.asks (c : Nat) (target : String) : Event → Bool
  | .sent d req => d ≠ c || req.cmd = some (.isync ⟨target⟩)
  | _ => true

namespace State

variable {s t : State} {c d : Nat} {target : String} {a : Action} {it : Item} {cmd : RespCmd}
  {tr : List (State × Action)}

/-- The responses on connection `c`, the one being written included. -/
def responses (s : State) (c : Nat) : List RespCmd :=
  written s.log c ++ (s.handler c).response.toList

/-- The client of `c` has sent nothing but an `Isync` for `target`. -/
def Asks (c : Nat) (target : String) (s : State) : Prop := ∀ e ∈ s.log, e.asks c target = true

instance : Decidable (Asks c target s) := inferInstanceAs (Decidable (∀ e ∈ s.log, _ = _))

/-- A `connect` to `target` over connection `c` gets the address of a connection that has
registered as `target`, from a `Redirect` that names it, and what else is written on the
connection makes no difference. -/
structure Reaches (c : Nat) (target : String) (s : State) : Prop where
  address : ∀ addr, connect (s.responses c) = some (.ok addr) →
    ∃ rdr d, (s.responses c).head? = some (.redirect rdr) ∧ rdr.id = target ∧
      .inserted d target ∈ s.log ∧ addr = (s.addr d).withoutFlowinfo
  undisturbed : connect (s.responses c) = connect ((s.responses c).filter (names target))

/-- The handler of `c` would respond to the request with something else than a `Redirect`
for `target`, the client of `c` having asked for nothing else. -/
def disturbs (s : State) (c : Nat) (target : String) (it : Item) : Bool :=
  match it.req.cmd with
  | some (.fsync _) => true
  | some (.rsync rsync) =>
    !s.peers.poisoned && rsync.id = s.peerId c && it.req.id ≠ target &&
      (s.peers.get it.req.id).isSome
  | _ => false

/-- Before it has responded at all, the handler of `c` takes no `Fsync` and, for its own id,
no `Rsync` of a registered peer other than `target`. -/
def Undisturbed (c : Nat) (target : String) (s : State) (a : Action) : Prop :=
  a = .handler c → s.responses c = [] → ∀ it ∈ (s.handler c).inHand, s.disturbs c target it = false

instance (s : State) (a : Action) : Decidable (Undisturbed c target s a) :=
  inferInstanceAs (Decidable (_ → _ → ∀ it ∈ (s.handler c).inHand, _ = _))

theorem response_of_answers (h : Answers s c cmd) : (s.handler c).response = none := by
  cases h with
  | pong at_handle | missing at_handle | fsync at_handle | rsync at_handle =>
    simp [at_handle, Handler.response]

theorem written_concat (log : List Event) (c : Nat) (e : Event) :
    written (log ++ [e]) c = written log c ++ written [e] c := by
  simp [written]

/-- A step adds a response, or finishes or gives up the one being written. -/
theorem responses_step (rule : Rule s a t) :
    t.responses c <+: s.responses c ∨
      ∃ cmd, a = .handler c ∧ t.responses c = s.responses c ++ [cmd] ∧ Answers s c cmd := by
  by_cases writes : ∃ cmd, t.log = s.log ++ [.wrote c cmd]
  · obtain ⟨cmd, hlog⟩ := writes
    have hs : (s.handler c).response = some cmd ∧ (t.handler c).response = none := by
      cases rule with
      | write runs at_write =>
        obtain ⟨rfl, rfl⟩ : _ = c ∧ _ = cmd := by simpa using hlog
        simp [at_write, Handler.response]
      | _ => simp at hlog
    refine .inl ?_
    simp [responses, hlog, written, hs.1, hs.2]
  · have hwritten : written t.log c = written s.log c := by
      rcases log_step rule with hl | ⟨e, hl, -⟩
      · rw [hl]
      · rw [hl, written_concat]
        cases e with
        | wrote d cmd =>
          have hd : d ≠ c := by
            rintro rfl
            exact writes ⟨cmd, hl⟩
          simp [written, hd]
        | _ => simp [written]
    unfold responses
    rw [hwritten]
    cases hr : (t.handler c).response with
    | none => exact .inl (by simp)
    | some cmd =>
      rcases answers_step rule hr with old | ⟨rfl, answers⟩
      · exact .inl (by simp [old])
      · exact .inr ⟨cmd, rfl, by simp [response_of_answers answers], answers⟩

/-- The first response, if any, names the target. -/
def FirstNames (c : Nat) (target : String) (s : State) : Prop :=
  ∀ cmd ∈ (s.responses c).head?, names target cmd = true

theorem firstNames_step (prov : Provenance s) (asks : Asks c target s)
    (ih : FirstNames c target s) (hC : Undisturbed c target s a) (step : s.step a = some t) :
    FirstNames c target t := by
  have rule := rule_of_step step
  rcases responses_step (c := c) rule with ⟨rest, hprefix⟩ | ⟨cmd, rfl, happend, answers⟩
  · intro cmd hcmd
    have : cmd ∈ (s.responses c).head? := by
      rw [← hprefix]
      cases hr : t.responses c with
      | nil => simp [hr] at hcmd
      | cons cmd' rest' => simpa [hr] using hcmd
    exact ih cmd this
  · intro cmd' hcmd'
    rw [happend] at hcmd'
    by_cases hnil : s.responses c = []
    · obtain rfl : cmd = cmd' := by simpa [hnil] using hcmd'
      have hC := hC rfl hnil
      have sent : ∀ {req}, .sent c req ∈ s.log → req.cmd = some (.isync ⟨target⟩) :=
        fun {req} hreq => by simpa [Event.asks] using asks _ hreq
      cases answers with
      | pong at_handle cmd =>
        have := sent ((prov.traced at_handle cmd).sent_of (.inl rfl))
        cases this
      | @missing it isync at_handle cmd missing =>
        have := sent ((prov.traced at_handle cmd).sent_of (.inr ⟨isync, rfl⟩))
        simp [names, ReqCmd.isync.inj (Option.some.inj this)]
      | @fsync it fsync at_handle cmd =>
        have := hC it (Handler.inHand_eq_some.mpr at_handle)
        simp [disturbs, cmd] at this
      | @rsync it rsync peer at_handle cmd sound own found =>
        have := hC it (Handler.inHand_eq_some.mpr at_handle)
        simpa [disturbs, cmd, sound, own, found, names] using this
    · exact ih cmd' (by rwa [List.head?_append_of_ne_nil _ hnil] at hcmd')

theorem explained_of_responses (prov : Provenance s) (h : cmd ∈ s.responses c) :
    Explained s.addr s.log c cmd := by
  rcases List.mem_append.mp h with hw | hr
  · obtain ⟨p, q, hlog⟩ := List.append_of_mem (mem_written.mp hw)
    exact (prov.wrote p c cmd q hlog).mono (by simp [hlog]) fun _ _ => rfl
  · exact prov.response c cmd (by simpa using hr)

theorem reaches_of_firstNames (prov : Provenance s) (first : FirstNames c target s) :
    Reaches c target s := by
  cases hresponses : s.responses c with
  | nil => constructor <;> simp [hresponses, connect]
  | cons cmd rest =>
    have named : names target cmd = true := first cmd (by simp [hresponses])
    have explained : Explained s.addr s.log c cmd :=
      explained_of_responses prov (by simp [hresponses])
    constructor
    · intro addr haddr
      rw [hresponses] at haddr
      cases explained with
      | pong | fsync => cases named
      | missing sent =>
        have hempty : SocketAddr.parse "" = none := by decide
        simp [connect, hempty] at haddr
      | @rsync d src rsync req own source =>
        have hsrc : src = target := by simpa [names] using named
        simp only [connect, SocketAddr.parse_toString, Option.some.injEq, Except.ok.injEq] at haddr
        exact ⟨_, d, by simp [hresponses]; rfl, hsrc, hsrc ▸ source, haddr.symm⟩
    · rw [hresponses, List.filter_cons_of_pos named]
      cases cmd <;> rfl

/-- A request that disturbs is responded to at once. -/
theorem step_disturbs (step : s.step (.handler c) = some t) (hit : it ∈ (s.handler c).inHand)
    (h : s.disturbs c target it = true) :
    ∃ cmd, t.responses c = written s.log c ++ [cmd] ∧ names target cmd = false ∧
      connect [cmd] ≠ none := by
  have at_handle := Handler.inHand_eq_some.mp hit
  obtain ⟨-, step⟩ := Option.ite_none_right_eq_some.mp step
  obtain rfl : s.handleCmd c it = t := by simpa [handlerStep, at_handle] using step
  unfold disturbs at h
  split at h
  · rename_i fsync cmd
    refine ⟨.fsync fsync, ?_, rfl, by simp [connect]⟩
    simp [handleCmd, cmd, handleFsync, responses, Handler.response]
  · rename_i rsync cmd
    obtain ⟨⟨⟨sound, own⟩, other⟩, found⟩ : ((s.peers.poisoned = false ∧ rsync.id = s.peerId c) ∧
        it.req.id ≠ target) ∧ (s.peers.get it.req.id).isSome := by simpa using h
    obtain ⟨peer, hpeer⟩ := Option.isSome_iff_exists.mp found
    refine ⟨.redirect ⟨it.req.id, peer.addr.toString⟩, ?_, by simpa [names] using other, ?_⟩
    · simp [handleCmd, cmd, handleRsync, sound, own, hpeer, responses, Handler.response]
    · simp only [connect]
      split <;> simp
  · cases h

/-- `connect` reaches its target, whatever else goes on at the server, all along a run if and
only if nothing disturbs the connection before the first response. -/
theorem connect_reaches_iff (run : Run tr s) (asks : Asks c target s) :
    Always (Reaches c target) tr s ↔ Steps (Undisturbed c target) tr := by
  have always_asks : Always (Asks c target) tr s := run.always_of_last asks
    fun s a t step h e he => h e (mem_log_step (rule_of_step step) he)
  have always_prov : Always Provenance tr s := run.always fun _ _ run => provenance run
  constructor
  · refine fun always => run.steps_of_always always ?_
    rintro s a t - step reaches rfl hnil it hit
    by_contra hdisturbs
    obtain ⟨cmd, hcmd, foreign, waits⟩ := step_disturbs step hit (by simpa using hdisturbs)
    have hwritten : written s.log c = [] := (List.append_eq_nil_iff.mp hnil).1
    have same := reaches.undisturbed
    rw [hcmd, hwritten, List.nil_append, List.filter_cons_of_neg (by simp [foreign])] at same
    exact waits same
  · intro hC
    have always_first : Always (FirstNames c target) tr s :=
      run.always_of_keeps (always_asks.and always_prov)
        (by simp [FirstNames, responses, init, written, Handler.response])
        (fun s a t inv ih hc step => firstNames_step inv.2 inv.1 ih hc step) hC
    exact (always_prov.and always_first).mono fun s inv =>
      reaches_of_firstNames inv.1 inv.2

/-- Connection 3 asks for `t1` and connection 4 for `t2`, both as `c`. The reply of `t1` is
routed to connection 4, which takes it for the answer. -/
theorem connect_reaches_another :
    ¬∀ c target tr s, Run tr s → Asks c target s → Reaches c target s := by
  have script : (exec State.step (fun _ _ => True) init
      (arrive 4 ++ register 1 "t1" ++ register 2 "t2" ++
        deliver 3 ⟨"c", some (.isync ⟨"t1"⟩)⟩ ++ runHandler 3 4 ++
        deliver 4 ⟨"c", some (.isync ⟨"t2"⟩)⟩ ++ runHandler 4 4 ++ runHandler 1 3 ++
        deliver 1 ⟨"t1", some (.rsync { id := "c" })⟩ ++ runHandler 1 3 ++
        runHandler 4 3)).any (fun s =>
      s.responses 4 = [.redirect ⟨"t1", (host 1).toString⟩] ∧ Asks 4 "t2" s) = true := by decide
  obtain ⟨tr, s, run, -, h⟩ := run_of_exec script
  obtain ⟨hresponses, asks⟩ := of_decide_eq_true h
  intro all
  have haddr : connect (s.responses 4) = some (.ok (host 1)) := by rw [hresponses]; decide
  obtain ⟨rdr, d, hhead, hid, -⟩ := (all 4 "t2" tr s run asks).address _ haddr
  obtain rfl : Redirect.mk "t1" (host 1).toString = rdr := by simpa [hresponses] using hhead
  exact absurd hid (by decide)

/-- Connection 2 asks as `x` for `y`, which replies, and nobody else asks for `x`. -/
theorem connect_reaches_alone : ∃ tr s, Run tr s ∧
    connect (s.responses 2) = some (.ok (host 1)) ∧ Always (Reaches 2 "y") tr s := by
  have script : (exec State.step (Undisturbed 2 "y") init
      (arrive 2 ++ register 1 "y" ++ deliver 2 ⟨"x", some (.isync ⟨"y"⟩)⟩ ++ runHandler 2 4 ++
        runHandler 1 3 ++ deliver 1 ⟨"y", some (.rsync { id := "x" })⟩ ++ runHandler 1 3 ++
        runHandler 2 3)).any (fun s =>
      connect (s.responses 2) = some (.ok (host 1)) ∧ Asks 2 "y" s) = true := by decide
  obtain ⟨tr, s, run, hC, h⟩ := run_of_exec script
  obtain ⟨haddr, asks⟩ := of_decide_eq_true h
  exact ⟨tr, s, run, haddr, (connect_reaches_iff run asks).mpr hC⟩

end State

end Rndz.Tcp
