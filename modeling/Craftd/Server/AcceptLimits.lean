import Craftd.Server.Simulation

/-!
# The limits on clients

`cd_Accept` counts before it takes a connection: all clients against `clients.max`, and those
from the same address against `clients.simultaneous`.  Whatever the workers and the clean-up
do in between, no more clients are listed than the limits allow, and a connection is refused
exactly when taking it would go beyond them.

One action is one step of a thread, as in the server's own model; accepting replaces the one
that is there.  A client that is refused is destroyed at once, and `Client.destroy` is
dispatched for it.  With an address of neither family `cd_Accept` goes on with a client that it
has freed, and the step is `none`.
-/

namespace Craftd.Server

open StepSystem

/-- `config->cache.game.clients`. -/
structure ClientLimits where
  max : BitVec 32
  simultaneous : BitVec 8

/-- What `getpeername` tells. -/
inductive PeerName
  | inet (address : List Byte)
  | inet6 (address : List Byte)
  | other
  deriving DecidableEq

/-- The server, and `client->ip`. -/
structure LimitedServer (Client Packet W : Type*) where
  server : CDServer Client Packet W
  ip : Client → List Byte

/-- The steps of the threads, with the address of a client that is accepted. -/
inductive LimitedAction (Client W : Type*)
  | accept (client : Client) (peer : PeerName)
  | server (action : Action Client W)
  deriving DecidableEq

variable {Client Packet W : Type*}

/-- The loop of `cd_Accept` over `server->clients`.  It stops once there are too many. -/
def countSame (limits : ClientLimits) (ip : Client → List Byte) (address : List Byte) :
    List Client → Nat → Nat
  | [], same => same
  | client :: rest, same =>
      let same := if ip client = address then same + 1 else same
      if limits.simultaneous.toNat ≤ same then same else countSame limits ip address rest same

variable [DecidableEq Client]

/-- `CD_DestroyClient`, of a client that has just been created. -/
def destroyNew (self : LimitedServer Client Packet W) (client : Client) :
    LimitedServer Client Packet W × List (Event Client Packet) :=
  ({ self with server := { self.server with
      lifetime := Function.update self.server.lifetime client .destroyed } }, [.destroy client])

/-- `cd_Accept`, from where the address is known. -/
def acceptFrom (limits : ClientLimits) (self : LimitedServer Client Packet W) (client : Client)
    (address : List Byte) : LimitedServer Client Packet W × List (Event Client Packet) :=
  let self := { self with ip := Function.update self.ip client address }
  if 0 < limits.max.toInt ∧ limits.max.toInt ≤ self.server.clients.length then
    destroyNew self client
  else if 0 < limits.simultaneous.toNat ∧
      limits.simultaneous.toNat ≤ countSame limits self.ip address self.server.clients 0 then
    destroyNew self client
  else
    ({ self with server := accept self.server client }, [])

/-- `cd_Accept`. -/
def limitedAccept (limits : ClientLimits) (self : LimitedServer Client Packet W)
    (client : Client) :
    PeerName → Option (LimitedServer Client Packet W × List (Event Client Packet))
  | .inet address | .inet6 address => some (acceptFrom limits self client address)
  | .other => none

variable [DecidableEq W]

/-- One step of some thread. -/
def limitedStep (protocol : Option (CDProtocol Packet)) (limits : ClientLimits)
    (self : LimitedServer Client Packet W) :
    LimitedAction Client W → Option (LimitedServer Client Packet W × List (Event Client Packet))
  | .accept client peer =>
      if self.server.lifetime client = .fresh then limitedAccept limits self client peer else none
  | .server (.accept _) => none
  | .server action =>
      (step protocol self.server action).map fun result =>
        ({ self with server := result.1 }, result.2)

/-- The server with its limits as a step system. -/
def limitedSystem (protocol : Option (CDProtocol Packet)) (limits : ClientLimits) :
    System (LimitedServer Client Packet W) (LimitedAction Client W) (Event Client Packet) where
  init := ⟨createServer, fun _ => []⟩
  step := limitedStep protocol limits

/-! ## What is counted -/

/-- The clients that are listed are as many as the limits allow. -/
structure WithinLimits (limits : ClientLimits) (ip : Client → List Byte)
    (clients : List Client) : Prop where
  max : 0 < limits.max.toInt → clients.length ≤ limits.max.toInt
  simultaneous : 0 < limits.simultaneous.toNat → ∀ address,
    clients.countP (fun client => ip client = address) ≤ limits.simultaneous.toNat

omit [DecidableEq Client] in
/-- The loop stops early only when it has counted enough. -/
theorem le_countSame_iff (limits : ClientLimits) (ip : Client → List Byte) (address : List Byte)
    (clients : List Client) (same : Nat) :
    limits.simultaneous.toNat ≤ countSame limits ip address clients same ↔
      limits.simultaneous.toNat ≤ same + clients.countP (fun client => ip client = address) := by
  induction clients generalizing same with
  | nil => rfl
  | cons client rest ih =>
      have hcount : same + (client :: rest).countP (fun client => ip client = address) =
          (if ip client = address then same + 1 else same) +
            rest.countP (fun client => ip client = address) := by
        rw [List.countP_cons]
        by_cases hsame : ip client = address <;> simp [hsame]
        omega
      rw [countSame, hcount]
      split_ifs with hsame henough henough
      · exact iff_of_true henough (by omega)
      · exact ih _
      · exact iff_of_true henough (by omega)
      · exact ih _

omit [DecidableEq Client] in
theorem WithinLimits.sublist {limits : ClientLimits} {ip : Client → List Byte}
    {clients clients' : List Client} (hwithin : WithinLimits limits ip clients)
    (hsublist : clients'.Sublist clients) : WithinLimits limits ip clients' where
  max := fun hmax => by
    have hle := hsublist.length_le
    have hlength := hwithin.max hmax
    omega
  simultaneous := fun hsimultaneous address =>
    (hsublist.countP_le).trans (hwithin.simultaneous hsimultaneous address)

theorem countP_update {ip : Client → List Byte} {clients : List Client} {client : Client}
    (hnew : client ∉ clients) (value address : List Byte) :
    clients.countP (fun other => Function.update ip client value other = address) =
      clients.countP (fun other => ip other = address) := by
  refine List.countP_congr fun other hother => ?_
  have hne : other ≠ client := by
    rintro rfl
    exact hnew hother
  rw [Function.update_of_ne hne]

/-- The address of a client that is not listed changes nothing. -/
theorem WithinLimits.update_iff {limits : ClientLimits} {ip : Client → List Byte}
    {clients : List Client} {client : Client} (hnew : client ∉ clients) (address : List Byte) :
    WithinLimits limits (Function.update ip client address) clients ↔
      WithinLimits limits ip clients := by
  constructor
  · intro hwithin
    refine ⟨hwithin.max, fun hsimultaneous other => ?_⟩
    rw [← countP_update hnew address]
    exact hwithin.simultaneous hsimultaneous other
  · intro hwithin
    refine ⟨hwithin.max, fun hsimultaneous other => ?_⟩
    rw [countP_update hnew address]
    exact hwithin.simultaneous hsimultaneous other

omit [DecidableEq Client] in
/-- One more client is within the limits when there is room for it, and for its address. -/
theorem WithinLimits.append_iff {limits : ClientLimits} {ip : Client → List Byte}
    {clients : List Client} (hwithin : WithinLimits limits ip clients) (client : Client) :
    WithinLimits limits ip (clients ++ [client]) ↔
      ¬ (0 < limits.max.toInt ∧ limits.max.toInt ≤ clients.length) ∧
      ¬ (0 < limits.simultaneous.toNat ∧ limits.simultaneous.toNat ≤
        clients.countP (fun other => ip other = ip client)) := by
  constructor
  · intro hmore
    refine ⟨fun ⟨hmax, hfull⟩ => ?_, fun ⟨hsimultaneous, hfull⟩ => ?_⟩
    · have hle := hmore.max hmax
      rw [List.length_append, List.length_singleton] at hle
      omega
    · have hle := hmore.simultaneous hsimultaneous (ip client)
      rw [List.countP_append, List.countP_singleton, if_pos (by simp)] at hle
      omega
  · rintro ⟨hroom, hsame⟩
    refine ⟨fun hmax => ?_, fun hsimultaneous address => ?_⟩
    · rw [List.length_append, List.length_singleton]
      have hless : ¬ limits.max.toInt ≤ clients.length := fun hfull => hroom ⟨hmax, hfull⟩
      omega
    · rw [List.countP_append, List.countP_singleton]
      by_cases haddress : ip client = address
      · subst haddress
        have hless : ¬ limits.simultaneous.toNat ≤
            clients.countP (fun other => ip other = ip client) :=
          fun hfull => hsame ⟨hsimultaneous, hfull⟩
        rw [if_pos (by simp)]
        omega
      · rw [if_neg (by simpa using haddress)]
        exact hwithin.simultaneous hsimultaneous address

/-! ## Every run -/

section Runs

variable {protocol : Option (CDProtocol Packet)} {limits : ClientLimits}

/-- Nobody but the accept loop puts a client on the list. -/
theorem step_clients_sublist {self next : CDServer Client Packet W} {action : Action Client W}
    {emitted : List (Event Client Packet)} (hother : ∀ client, action ≠ .accept client)
    (hstep : step protocol self action = some (next, emitted)) :
    next.clients.Sublist self.clients := by
  have hsame : next.registry = self.registry → next.clients.Sublist self.clients := by
    intro hregistry
    rw [show next.clients = self.clients from congrArg Registry.clients hregistry]
  cases action with
  | accept client => exact absurd rfl (hother client)
  | receive receiver bytes =>
      obtain ⟨-, rfl, -⟩ := by simpa [step] using hstep
      exact List.Sublist.refl _
  | read reader =>
      obtain ⟨-, hread⟩ := by simpa [step] using hstep
      exact hsame (readCallback_registry hread)
  | error failed error =>
      obtain ⟨-, herror⟩ := by simpa [step] using hstep
      have hregistry := errorCallback_registry self failed error
      rw [herror] at hregistry
      exact hsame hregistry
  | kick kicked =>
      obtain ⟨-, hkick⟩ := by simpa [step] using hstep
      have hregistry := serverKick_registry self kicked
      rw [hkick] at hregistry
      exact hsame hregistry
  | work worker =>
      -- a worker that lists a client leaves the clients alone
      rcases runWorker_registry hstep with hregistry | ⟨client, -, hregistry⟩
      · exact hsame hregistry
      · rw [show next.clients = self.clients from congrArg Registry.clients hregistry]
  | cleanDisconnects =>
      obtain ⟨-, hclean⟩ := by simpa [step] using hstep
      rw [cleanDisconnects, Prod.mk.injEq] at hclean
      obtain ⟨rfl, -⟩ := hclean
      exact destroyListed_clients self self.disconnecting
  | clearDisconnecting =>
      obtain ⟨-, rfl, -⟩ := by simpa [step] using hstep
      exact List.Sublist.refl _

omit [DecidableEq W] in
/-- **Accepting.**  A connection is refused exactly when taking it would go beyond the limits. -/
theorem acceptFrom_cases {self : LimitedServer Client Packet W} {client : Client}
    (hnew : client ∉ self.server.clients)
    (hwithin : WithinLimits limits self.ip self.server.clients) (address : List Byte) :
    (WithinLimits limits (Function.update self.ip client address)
        (self.server.clients ++ [client]) ∧
      acceptFrom limits self client address =
        (⟨accept self.server client, Function.update self.ip client address⟩, [])) ∨
    (¬ WithinLimits limits (Function.update self.ip client address)
        (self.server.clients ++ [client]) ∧
      acceptFrom limits self client address =
        destroyNew { self with ip := Function.update self.ip client address } client) := by
  have hiff := ((WithinLimits.update_iff hnew address).mpr hwithin).append_iff client
  have hcount := le_countSame_iff limits (Function.update self.ip client address) address
    self.server.clients 0
  rw [Nat.zero_add] at hcount
  rw [Function.update_self, ← hcount] at hiff
  unfold acceptFrom
  dsimp only
  by_cases hfull : 0 < limits.max.toInt ∧ limits.max.toInt ≤ self.server.clients.length
  · rw [if_pos hfull]
    exact .inr ⟨fun hmore => (hiff.mp hmore).1 hfull, rfl⟩
  · rw [if_neg hfull]
    split_ifs with hsame
    · exact .inr ⟨fun hmore => (hiff.mp hmore).2 hsame, rfl⟩
    · exact .inl ⟨hiff.mpr ⟨hfull, hsame⟩, rfl⟩

/-- What holds between the steps. -/
structure Limited (limits : ClientLimits) (state : LimitedServer Client Packet W) : Prop where
  within : WithinLimits limits state.ip state.server.clients
  listed : ClientsListed state.server

omit [DecidableEq Client] [DecidableEq W] in
theorem Limited.notMem {self : LimitedServer Client Packet W} {client : Client}
    (hlimited : Limited limits self) (hfresh : self.server.lifetime client = .fresh) :
    client ∉ self.server.clients :=
  fun hmem => hlimited.listed.2 client hmem hfresh

theorem Limited.acceptFrom [Fintype W] {self : LimitedServer Client Packet W} {client : Client}
    (hlimited : Limited limits self) (hfresh : self.server.lifetime client = .fresh)
    (address : List Byte) : Limited limits (acceptFrom limits self client address).1 := by
  have hnew := hlimited.notMem hfresh
  rcases acceptFrom_cases hnew hlimited.within address with ⟨hmore, haccept⟩ | ⟨-, hrefuse⟩
  · rw [haccept]
    have hstep : step none self.server (.accept client : Action Client W) =
        some (accept self.server client, []) := if_pos hfresh
    exact ⟨hmore, step_clientsListed hlimited.listed hstep⟩
  · rw [hrefuse]
    refine ⟨(WithinLimits.update_iff hnew address).mpr hlimited.within, hlimited.listed.1,
      fun other hmem => ?_⟩
    have hne : other ≠ client := by
      rintro rfl
      exact hnew hmem
    dsimp only [destroyNew]
    rw [Function.update_of_ne hne]
    exact hlimited.listed.2 other hmem

/-- **One step** keeps the limits. -/
theorem Limited.step [Fintype W] {self next : LimitedServer Client Packet W}
    {action : LimitedAction Client W} {emitted : List (Event Client Packet)}
    (hlimited : Limited limits self)
    (hstep : limitedStep protocol limits self action = some (next, emitted)) :
    Limited limits next := by
  cases action with
  | accept client peer =>
      rw [limitedStep] at hstep
      split_ifs at hstep with hfresh
      cases peer with
      | inet address | inet6 address =>
          have hkept := hlimited.acceptFrom hfresh address
          rw [limitedAccept, Option.some.injEq] at hstep
          rwa [hstep] at hkept
      | other => cases hstep
  | server action =>
      have hserver : ∀ {other : Action Client W} {server : CDServer Client Packet W}
          {emitted : List (Event Client Packet)}, (∀ client, other ≠ .accept client) →
            Server.step protocol self.server other = some (server, emitted) →
              Limited limits { self with server := server } := by
        intro other server emitted hother hnext
        exact ⟨hlimited.within.sublist (step_clients_sublist hother hnext),
          step_clientsListed hlimited.listed hnext⟩
      cases action with
      | accept client => cases hstep
      | _ =>
          obtain ⟨⟨server, emitted'⟩, hnext, hresult⟩ := Option.map_eq_some_iff.mp hstep
          cases hresult
          exact hserver (fun client h => by cases h) hnext

/-- **The limits hold** in every run, and in every state a connection with an address is refused
exactly when taking it would go beyond them. -/
theorem clients_within_limits [Fintype W] {events : List (Event Client Packet)}
    {state : LimitedServer Client Packet W}
    (hrun : (limitedSystem protocol limits).Run (fun _ _ => True) events state) :
    WithinLimits limits state.ip state.server.clients ∧
    ∀ client peer next emitted,
      limitedStep protocol limits state (.accept client peer) = some (next, emitted) →
        ∃ address, (peer = .inet address ∨ peer = .inet6 address) ∧
          (client ∈ next.server.clients ↔
            WithinLimits limits (Function.update state.ip client address)
              (state.server.clients ++ [client])) := by
  have hlimited : Limited limits state := by
    induction hrun with
    | start =>
        refine ⟨⟨fun hmax => hmax.le, fun _ _ => Nat.zero_le _⟩, List.nodup_nil, ?_⟩
        intro client hmem
        cases hmem
    | step hprefix hguard hnext ih => exact ih.step hnext
  refine ⟨hlimited.within, fun client peer next emitted hstep => ?_⟩
  rw [limitedStep] at hstep
  split_ifs at hstep with hfresh
  have hnew := hlimited.notMem hfresh
  have haddress : ∀ address, acceptFrom limits state client address = (next, emitted) →
      (client ∈ next.server.clients ↔
        WithinLimits limits (Function.update state.ip client address)
          (state.server.clients ++ [client])) := by
    intro address haccept
    rcases acceptFrom_cases hnew hlimited.within address with ⟨hmore, htaken⟩ | ⟨hnone, hrefused⟩
    · rw [htaken] at haccept
      cases haccept
      exact iff_of_true (List.mem_append_right _ (.head _)) hmore
    · rw [hrefused] at haccept
      cases haccept
      exact iff_of_false hnew hnone
  cases peer with
  | inet address => exact ⟨address, .inl rfl, haddress address (Option.some.inj hstep)⟩
  | inet6 address => exact ⟨address, .inr rfl, haddress address (Option.some.inj hstep)⟩
  | other => cases hstep

/-- Two connections from one address, and one from another. -/
def acceptThree : List (LimitedAction ℕ (Fin 1)) :=
  [.accept 0 (.inet [1]), .accept 1 (.inet [1]), .accept 2 (.inet [2])]

theorem clients_within_limits_three :
    ∃ state events, (limitedSystem (none : Option (CDProtocol ℕ)) ⟨0, 1⟩).exec acceptThree
        ⟨createServer, fun _ => []⟩ = some (state, events) ∧
      state.server.clients = [0, 2] ∧ events = [.destroy 1] ∧
      WithinLimits ⟨0, 1⟩ state.ip state.server.clients := by
  have hexec : ((limitedSystem (none : Option (CDProtocol ℕ)) ⟨0, 1⟩).exec acceptThree
      ⟨createServer, fun _ => []⟩).map (fun result => (result.1.server.clients, result.2)) =
        some ([0, 2], [.destroy 1]) := by
    rfl
  obtain ⟨⟨state, events⟩, hexec, hstate⟩ := Option.map_eq_some_iff.mp hexec
  rw [Prod.mk.injEq] at hstate
  have hrun : (limitedSystem (none : Option (CDProtocol ℕ)) ⟨0, 1⟩).Run (fun _ _ => True) events
      state :=
    System.Run.exec .start (System.execGuard_true _ _) hexec
  exact ⟨state, events, hexec, hstate.1, hstate.2, (clients_within_limits hrun).1⟩

end Runs

end Craftd.Server
