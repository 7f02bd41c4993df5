import Craftd.Proxy.Model
import Craftd.Server.EventOrder
import Craftd.Server.RequestDelivery

/-!
# What a step of the proxy can do

`ProxyMove` lists what one step does to the server inside, the connections and the output.
The server inside takes steps of its own model, and a handler that kicks adds one
(`ProxyMove.exists_exec`), so a run of the proxy is a run of the server: what is known of
those holds here.
-/

namespace Craftd.Proxy

open StepSystem Server Protocol

variable {Client W : Type*} [DecidableEq Client] [DecidableEq W]

/-! ## What a step can do -/

/-- The requests that are sent on. -/
def forwarded : SVRequest → Bool
  | .disconnect _ | .listPing => false
  | _ => true

/-- The responses that are sent on. -/
def relayed : SVResponse → Bool
  | .disconnect _ => false
  | _ => true

/-- The events that the plugin has a handler for. -/
def handled : Event Client SVRequest → Bool
  | .connect _ | .process _ _ | .disconnect _ => true
  | _ => false

/-- What one step of the proxy does, and what it emits. -/
inductive ProxyMove (heap : Heap) (rounds : Nat) (connects : Client → Bool)
    (self : ProxyServer Client W) :
    ProxyAction Client W → ProxyServer Client W → List (Event Client SVRequest) → Prop
  | quiet (action : Action Client W) (server : CDServer Client SVRequest W)
      (emitted : List (Event Client SVRequest))
      (hstep : step (some (survivalProtocol heap rounds)) self.server action =
        some (server, emitted))
      (hnone : ∀ event ∈ emitted, handled event = false) :
      ProxyMove heap rounds connects self (.server action) { self with server := server } emitted
  | connect (worker : W) (client : Client) (server : CDServer Client SVRequest W)
      (hstep : step (some (survivalProtocol heap rounds)) self.server (.work worker) =
        some (server, [.connect client]))
      (hworker : self.server.workers worker = .connecting client)
      (hconnects : connects client = true) :
      ProxyMove heap rounds connects self (.server (.work worker))
        ({ self with server := server }.setBuffers client (.opened [] [])) [.connect client]
  | refused (worker : W) (client : Client) (server : CDServer Client SVRequest W)
      (hstep : step (some (survivalProtocol heap rounds)) self.server (.work worker) =
        some (server, [.connect client]))
      (hworker : self.server.workers worker = .connecting client)
      (hrefused : connects client = false) :
      ProxyMove heap rounds connects self (.server (.work worker))
        ({ self with server := server }.setBuffers client .freed) [.connect client]
  | kicked (worker : W) (client : Client) (server : CDServer Client SVRequest W)
      (reason : SVString)
      (hstep : step (some (survivalProtocol heap rounds)) self.server (.work worker) =
        some (server, [.process client (.disconnect reason)]))
      (hworker : self.server.workers worker = .processing client (.disconnect reason)) :
      ProxyMove heap rounds connects self (.server (.work worker))
        (proxyKick { self with server := server } client).1
        ([.process client (.disconnect reason)] ++
          (proxyKick { self with server := server } client).2)
  | pinged (worker : W) (client : Client) (server : CDServer Client SVRequest W)
      (data : List Byte)
      (hstep : step (some (survivalProtocol heap rounds)) self.server (.work worker) =
        some (server, [.process client .listPing]))
      (hworker : self.server.workers worker = .processing client .listPing)
      (hdata : pingReply = .ok data) :
      ProxyMove heap rounds connects self (.server (.work worker))
        ({ self with server := server }.clientSendBuffer client data) [.process client .listPing]
  | forward (worker : W) (client : Client) (server : CDServer Client SVRequest W)
      (packet : SVRequest) (input output data : List Byte)
      (hstep : step (some (survivalProtocol heap rounds)) self.server (.work worker) =
        some (server, [.process client packet]))
      (hworker : self.server.workers worker = .processing client packet)
      (hforwarded : forwarded packet = true)
      (hopened : self.proxyBuffers client = .opened input output)
      (hdata : requestToBuffer packet = .ok (some data)) :
      ProxyMove heap rounds connects self (.server (.work worker))
        ({ self with server := server }.setBuffers client (.opened input (output ++ data)))
        [.process client packet]
  | leave (worker : W) (client : Client) (server : CDServer Client SVRequest W)
      (hstep : step (some (survivalProtocol heap rounds)) self.server (.work worker) =
        some (server, [.disconnect client]))
      (hunset : self.proxyBuffers client = .unset) :
      ProxyMove heap rounds connects self (.server (.work worker)) { self with server := server }
        [.disconnect client]
  | free (worker : W) (client : Client) (server : CDServer Client SVRequest W)
      (input output : List Byte)
      (hstep : step (some (survivalProtocol heap rounds)) self.server (.work worker) =
        some (server, [.disconnect client]))
      (hopened : self.proxyBuffers client = .opened input output) :
      ProxyMove heap rounds connects self (.server (.work worker))
        ({ self with server := server }.setBuffers client .freed) [.disconnect client]
  | receive (client : Client) (bytes input output : List Byte)
      (hopened : self.proxyBuffers client = .opened input output) :
      ProxyMove heap rounds connects self (.receive client bytes)
        (self.setBuffers client (.opened (input ++ bytes) output)) []
  | relay (client : Client) (input output rest data : List Byte) (packet : SVResponse)
      (hopened : self.proxyBuffers client = .opened input output)
      (hparsable : (responseProtocol heap rounds).parsable input = some .parsable)
      (hparse : (responseProtocol heap rounds).parse input = (some packet, rest))
      (hrelayed : relayed packet = true) (hdata : responseToBuffer packet = .ok data) :
      ProxyMove heap rounds connects self (.read client)
        ((self.setBuffers client (.opened rest output)).clientSendBuffer client data) []
  | dismiss (client : Client) (input output rest : List Byte) (reason : SVString)
      (hopened : self.proxyBuffers client = .opened input output)
      (hparsable : (responseProtocol heap rounds).parsable input = some .parsable)
      (hparse : (responseProtocol heap rounds).parse input = (some (.disconnect reason), rest)) :
      ProxyMove heap rounds connects self (.read client)
        (proxyKick (self.setBuffers client (.opened rest output)) client).1
        (proxyKick (self.setBuffers client (.opened rest output)) client).2
  | skip (client : Client) (input output rest : List Byte)
      (hopened : self.proxyBuffers client = .opened input output)
      (hparsable : (responseProtocol heap rounds).parsable input = some .parsable)
      (hparse : (responseProtocol heap rounds).parse input = (none, rest)) :
      ProxyMove heap rounds connects self (.read client)
        (self.setBuffers client (.opened rest output)) []
  | again (client : Client) (input output : List Byte)
      (hopened : self.proxyBuffers client = .opened input output)
      (hagain : (responseProtocol heap rounds).parsable input = some .again) :
      ProxyMove heap rounds connects self (.read client) self []
  | bad (client : Client) (input output : List Byte)
      (hopened : self.proxyBuffers client = .opened input output)
      (hbad : (responseProtocol heap rounds).parsable input = some .badSequence) :
      ProxyMove heap rounds connects self (.read client) (proxyKick self client).1
        (proxyKick self client).2
  | died (client : Client) (error : BitVec 16) (input output : List Byte)
      (hopened : self.proxyBuffers client = .opened input output) :
      ProxyMove heap rounds connects self (.error client error) (proxyKick self client).1
        (proxyKick self client).2
  | alive (client : Client) (error : BitVec 16) :
      ProxyMove heap rounds connects self (.error client error) self []

section Moves

variable {heap : Heap} {rounds : Nat} {connects : Client → Bool}
  {self next : ProxyServer Client W} {emitted : List (Event Client SVRequest)} {client : Client}

omit [DecidableEq W] in
/-- A plugin without a handler for the events does nothing. -/
theorem handleAll_unhandled {events : List (Event Client SVRequest)}
    (hnone : ∀ event ∈ events, handled event = false) :
    handleAll connects self events = some (self, []) := by
  induction events with
  | nil => rfl
  | cons event rest ih =>
      have hrest := ih fun other hother => hnone other (.tail _ hother)
      have hskips : handle connects self event = some (self, []) := by
        have hevent := hnone event (.head _)
        cases event <;> first | rfl | cases hevent
      simp [handleAll, hskips, hrest]

omit [DecidableEq W] in
@[simp] theorem handleAll_singleton (event : Event Client SVRequest) :
    handleAll connects self [event] = handle connects self event := by
  rw [handleAll]
  cases handle connects self event with
  | none => rfl
  | some result => simp [handleAll]

omit [DecidableEq W] in
theorem clientProcess_forwarded {packet : SVRequest} (hforwarded : forwarded packet = true) :
    clientProcess self client packet =
      (clientProxyPacket self client packet).map fun next => (next, []) := by
  cases packet with
  | disconnect | listPing => cases hforwarded
  | _ => rfl

private theorem clientProcess_moves {worker : W} {server : CDServer Client SVRequest W}
    {packet : SVRequest} {later : List (Event Client SVRequest)}
    (hstep : step (some (survivalProtocol heap rounds)) self.server (.work worker) =
      some (server, [.process client packet]))
    (hworker : self.server.workers worker = .processing client packet)
    (hprocess : clientProcess { self with server := server } client packet = some (next, later)) :
    ProxyMove heap rounds connects self (.server (.work worker)) next
      ([.process client packet] ++ later) := by
  by_cases hforwarded : forwarded packet = true
  · rw [clientProcess_forwarded hforwarded, Option.map_eq_some_iff] at hprocess
    obtain ⟨proxied, hproxied, hnext⟩ := hprocess
    cases hnext
    unfold clientProxyPacket at hproxied
    split at hproxied
    · next input output data hopened hdata =>
        cases hproxied
        rw [List.append_nil]
        exact .forward worker client server packet input output data hstep hworker hforwarded
          hopened hdata
    · cases hproxied
  · cases packet with
    | disconnect reason =>
        cases hprocess
        exact .kicked worker client server reason hstep hworker
    | listPing =>
        rw [clientProcess, Option.map_eq_some_iff] at hprocess
        obtain ⟨sent, hsent, hnext⟩ := hprocess
        cases hnext
        cases hdata : pingReply with
        | error fault =>
            rw [hdata] at hsent
            cases hsent
        | ok data =>
            rw [hdata] at hsent
            cases hsent
            rw [List.append_nil]
            exact .pinged worker client server data hstep hworker hdata
    | _ => exact absurd rfl hforwarded

/-- **What a step of the server inside can do.** -/
theorem server_moves {action : Action Client W}
    (hstep : proxyStep heap rounds connects self (.server action) = some (next, emitted)) :
    ProxyMove heap rounds connects self (.server action) next emitted := by
  rw [proxyStep] at hstep
  cases hserver : step (some (survivalProtocol heap rounds)) self.server action with
  | none =>
      rw [hserver] at hstep
      cases hstep
  | some result =>
      obtain ⟨server, events⟩ := result
      rw [hserver] at hstep
      have hemits := step_emits hserver
      -- no handler is told of the other events
      have hunhandled : (∀ event ∈ events, handled event = false) →
          ProxyMove heap rounds connects self (.server action) next emitted := by
        intro hnone
        simp only [Option.bind_eq_bind, Option.bind_some, handleAll_unhandled hnone,
          List.append_nil] at hstep
        cases hstep
        exact .quiet action server _ hserver hnone
      cases hemits with
      | quiet | parsed | addDisconnect => exact hunhandled (by simp [handled])
      | destroy clients => exact hunhandled (by simp [handled])
      | connect worker client hworker =>
          simp only [Option.bind_eq_bind, Option.bind_some, handleAll_singleton, handle,
            clientConnect, List.append_nil] at hstep
          -- the connection to the server behind is made or refused
          cases hconnects : connects client with
          | true =>
              rw [hconnects] at hstep
              cases hstep
              exact .connect worker client server hserver hworker hconnects
          | false =>
              rw [hconnects] at hstep
              cases hstep
              exact .refused worker client server hserver hworker hconnects
      | process worker client packet hworker =>
          simp only [Option.bind_eq_bind, Option.bind_some, handleAll_singleton, handle,
            Option.bind_eq_some_iff] at hstep
          obtain ⟨result, hprocess, hnext⟩ := hstep
          cases hnext
          exact clientProcess_moves hserver hworker hprocess
      | disconnect worker client hworker =>
          simp only [Option.bind_eq_bind, Option.bind_some, handleAll_singleton, handle,
            Option.bind_eq_some_iff, Option.map_eq_some_iff] at hstep
          obtain ⟨result, ⟨left, hleft, hresult⟩, hnext⟩ := hstep
          cases hresult
          cases hnext
          unfold clientDisconnect at hleft
          split at hleft <;> cases hleft
          · next hunset => exact .leave worker client server hserver hunset
          · next input output hopened =>
              exact .free worker client server input output hserver hopened

omit [DecidableEq W] in
theorem proxyProcess_relayed {packet : SVResponse} (hrelayed : relayed packet = true) :
    proxyProcess self client packet =
      (clientSendPacket self client (responseToBuffer packet)).map fun next => (next, []) := by
  cases packet with
  | disconnect => cases hrelayed
  | _ => rfl

private theorem proxyReadCallback_moves
    (hread : proxyReadCallback heap rounds self client = some (next, emitted)) :
    ProxyMove heap rounds connects self (.read client) next emitted := by
  unfold proxyReadCallback at hread
  split at hread
  · next input output hopened =>
      split at hread
      · cases hread
      · next hparsable =>
          split at hread
          · next packet rest hparse =>
              by_cases hrelayed : relayed packet = true
              · have hsend : proxyProcess (self.setBuffers client (.opened rest output)) client
                    packet = (clientSendPacket (self.setBuffers client (.opened rest output))
                      client (responseToBuffer packet)).map fun next => (next, []) := by
                  cases packet with
                  | disconnect => cases hrelayed
                  | _ => rfl
                rw [hsend, Option.map_eq_some_iff] at hread
                obtain ⟨sent, hsent, hnext⟩ := hread
                cases hnext
                cases hdata : responseToBuffer packet with
                | error fault =>
                    rw [hdata] at hsent
                    cases hsent
                | ok data =>
                    rw [hdata] at hsent
                    cases hsent
                    exact .relay client input output rest data packet hopened hparsable hparse
                      hrelayed hdata
              -- the one response that is not sent on has the client kicked
              · cases packet with
                | disconnect reason =>
                    cases hread
                    exact .dismiss client input output rest reason hopened hparsable hparse
                | _ => exact absurd rfl hrelayed
          · next rest hparse =>
              -- the decoder refuses what the check accepted
              cases hread
              exact .skip client input output rest hopened hparsable hparse
      · next hagain =>
          cases hread
          exact .again client input output hopened hagain
      · next hbad =>
          cases hread
          exact .bad client input output hopened hbad
  · cases hread

/-- **What a step of the proxy can do.** -/
theorem proxyStep_moves {action : ProxyAction Client W}
    (hstep : proxyStep heap rounds connects self action = some (next, emitted)) :
    ProxyMove heap rounds connects self action next emitted := by
  cases action with
  | server action => exact server_moves hstep
  | receive client bytes =>
      rw [proxyStep] at hstep
      split at hstep <;> cases hstep
      next input output hopened => exact .receive client bytes input output hopened
  | read client => exact proxyReadCallback_moves hstep
  | error client error =>
      rw [proxyStep] at hstep
      split at hstep
      · next input output hopened =>
          rw [proxyErrorCallback] at hstep
          split_ifs at hstep
          · cases hstep
            exact .died client error input output hopened
          · cases hstep
            exact .alive client error
      · cases hstep

end Moves

/-! ## The server inside -/

section Inside

variable [Fintype W] {heap : Heap} {rounds : Nat} {connects : Client → Bool}
  {self next : ProxyServer Client W} {action : ProxyAction Client W}
  {events emitted : List (Event Client SVRequest)} {client : Client}

/-- The server inside is in a run of its own model.  A connection was asked for when
`Client.connect` was dispatched, and is gone where it was refused or `Client.disconnect` was
dispatched. -/
structure Simulated (heap : Heap) (rounds : Nat) (connects : Client → Bool)
    (events : List (Event Client SVRequest)) (state : ProxyServer Client W) : Prop where
  run : (system (some (survivalProtocol heap rounds))).Run (fun _ _ => True) events state.server
  unset : ∀ client, state.proxyBuffers client = .unset ↔ .connect client ∉ events
  freed : ∀ client, state.proxyBuffers client = .freed →
    .disconnect client ∈ events ∨ connects client = false
  opened : ∀ client input output, state.proxyBuffers client = .opened input output →
    connects client = true

omit [Fintype W] in
theorem initial_simulated :
    Simulated heap rounds connects [] (createProxy : ProxyServer Client W) where
  run := .start
  unset := fun client => by simp [createProxy]
  freed := fun client hfreed => by cases hfreed
  opened := fun client input output hopened => by cases hopened

theorem Simulated.known (hsimulated : Simulated heap rounds connects events self)
    (hset : self.proxyBuffers client ≠ .unset) : self.server.lifetime client ≠ .fresh := by
  have hmem : .connect client ∈ events :=
    not_not.mp (mt (hsimulated.unset client).mpr hset)
  exact ((run_dispatched hsimulated.run client).greeted hmem).1

omit [DecidableEq W] [Fintype W] in
/-- Nothing is dispatched to a handler when a client is kicked. -/
theorem proxyKick_unhandled (self : ProxyServer Client W) (client : Client) :
    ∀ event ∈ (proxyKick self client).2, handled event = false := by
  unfold proxyKick serverKick
  split_ifs <;> simp [handled]

/-- What a step that emits `emitted` does to the connection of a client. -/
structure BuffersStep (connects : Client → Bool) (client : Client)
    (emitted : List (Event Client SVRequest)) (before after : ProxyBuffers) : Prop where
  unset : after = .unset ↔ before = .unset ∧ .connect client ∉ emitted
  freed : after = .freed → before = .freed ∨ .disconnect client ∈ emitted ∨ connects client = false
  opened : ∀ input output, after = .opened input output →
    (∃ input' output', before = .opened input' output') ∨ connects client = true

omit [DecidableEq Client] [DecidableEq W] [Fintype W] in
theorem BuffersStep.refl {before : ProxyBuffers} (hconnect : .connect client ∉ emitted) :
    BuffersStep connects client emitted before before where
  unset := ⟨fun hunset => ⟨hunset, hconnect⟩, And.left⟩
  freed := .inl
  opened := fun input output hopened => .inl ⟨input, output, hopened⟩

omit [Fintype W] in
/-- A connection is set where `Client.connect` is dispatched and stays so, and it is freed where
`Client.disconnect` is. -/
theorem ProxyMove.buffersStep (hmove : ProxyMove heap rounds connects self action next emitted)
    (client : Client) : BuffersStep connects client emitted (self.proxyBuffers client)
      (next.proxyBuffers client) := by
  -- a step that tells no handler
  have hsame : (∀ event ∈ emitted, handled event = false) →
      BuffersStep connects client emitted (self.proxyBuffers client)
        (self.proxyBuffers client) := fun hnone => .refl fun hmem => by cases hnone _ hmem
  -- a step on one connection
  have hupdates : ∀ {served : Client} {value : ProxyBuffers},
      (client = served → BuffersStep connects client emitted (self.proxyBuffers client) value) →
      (client ≠ served → .connect client ∉ emitted) →
        BuffersStep connects client emitted (self.proxyBuffers client)
          (Function.update self.proxyBuffers served value client) := by
    intro served value hserved helsewhere
    by_cases hclient : client = served
    · rw [hclient, Function.update_self]
      exact hclient ▸ hserved hclient
    · rw [Function.update_of_ne hclient]
      exact .refl (helsewhere hclient)
  -- a step on a connection that is open, and stays so
  have hopen : ∀ {served : Client} {input output input' output' : List Byte},
      self.proxyBuffers served = .opened input output → .connect client ∉ emitted →
        BuffersStep connects client emitted (self.proxyBuffers client)
          (Function.update self.proxyBuffers served (.opened input' output') client) := by
    intro served input output input' output' hopened hconnect
    refine hupdates (fun hclient => ?_) fun _ => hconnect
    rw [hclient, hopened]
    exact ⟨by simp, by simp, fun _ _ _ => .inl ⟨input, output, rfl⟩⟩
  cases hmove with
  | quiet action server _ hstep hnone => exact hsame hnone
  | again | alive => exact hsame (by simp)
  | bad served | died served => exact hsame (proxyKick_unhandled _ _)
  | pinged | leave => exact .refl (by simp)
  | kicked worker served server reason hstep hworker =>
      refine .refl fun hmem => ?_
      rcases List.mem_append.mp hmem with hhead | hkick
      · simp at hhead
      · cases proxyKick_unhandled _ _ _ hkick
  | connect worker served server hstep hworker hconnects =>
      refine hupdates (fun hclient => ?_) (by simp)
      exact ⟨by simp [hclient], by simp, fun _ _ _ => .inr (hclient ▸ hconnects)⟩
  | refused worker served server hstep hworker hrefused =>
      refine hupdates (fun hclient => ?_) (by simp)
      exact ⟨by simp [hclient], fun _ => .inr (.inr (hclient ▸ hrefused)), by simp⟩
  | free worker served server input output hstep hopened =>
      refine hupdates (fun hclient => ?_) (by simp)
      rw [hclient, hopened]
      exact ⟨by simp, fun _ => .inr (.inl (.head _)), by simp⟩
  | forward worker served server packet input output data hstep hworker hforwarded hopened =>
      exact hopen hopened (by simp)
  | receive served bytes input output hopened => exact hopen hopened (by simp)
  | relay served input output rest data packet hopened => exact hopen hopened (by simp)
  | skip served input output rest hopened => exact hopen hopened (by simp)
  | dismiss served input output rest reason hopened =>
      exact hopen hopened fun hmem => by cases proxyKick_unhandled _ _ _ hmem

/-! ### The steps that it takes -/

/-- What a step brings of the client's requests. -/
def requestArrival (client : Client) : ProxyAction Client W → List Byte
  | .server action => arrival client action
  | _ => []

/-- No callback finds a login of the client of which only the last byte is missing, or a
response to it on which the length check and the decoder disagree. -/
def WholePackets (client : Client) (self : ProxyServer Client W) (action : ProxyAction Client W) :
    Prop :=
  match action with
  | .server action => WholeLogins client self.server action
  | .read other => other = client → ¬ Torn (self.proxyBuffers client).input
  | _ => True

omit [Fintype W] in
theorem step_kick {server : CDServer Client SVRequest W} {kicked : Client}
    (hknown : server.lifetime kicked ≠ .fresh) :
    step (some (survivalProtocol heap rounds)) server (.kick kicked) =
      some (serverKick server kicked) := by
  rw [step, if_pos hknown]

omit [Fintype W] in
/-- A step of the server, and the kick that a handler makes in it. -/
theorem exec_step_kick {action : Action Client W} {self server : CDServer Client SVRequest W}
    {emitted : List (Event Client SVRequest)} (kicked : Client)
    (hstep : step (some (survivalProtocol heap rounds)) self action = some (server, emitted))
    (hknown : server.lifetime kicked ≠ .fresh) :
    (system (some (survivalProtocol heap rounds))).exec [action, .kick kicked] self =
      some ((serverKick server kicked).1, emitted ++ (serverKick server kicked).2) := by
  simp [System.exec, system, hstep, step_kick hknown]

omit [DecidableEq Client] [DecidableEq W] [Fintype W] in
theorem wholeLogins_kick (client kicked : Client) (server : CDServer Client SVRequest W) :
    WholeLogins client server (.kick kicked) := by
  intro hreads
  rcases hreads with hread | ⟨worker, hwork, -⟩
  · cases hread
  · cases hwork

/-- The server inside takes one step of its own, and one more where a handler kicks. -/
theorem ProxyMove.exists_exec (hsimulated : Simulated heap rounds connects events self)
    (hmove : ProxyMove heap rounds connects self action next emitted) :
    ∃ actions, (system (some (survivalProtocol heap rounds))).exec actions self.server =
        some (next.server, emitted) ∧
      ∀ client, arrived client actions = requestArrival client action ∧
        (WholePackets client self action →
          (system (some (survivalProtocol heap rounds))).ExecGuard (WholeLogins client) actions
            self.server) := by
  -- a step of the server inside is that one step
  have hinside : ∀ {action : Action Client W} {server : CDServer Client SVRequest W}
      {emitted : List (Event Client SVRequest)},
      step (some (survivalProtocol heap rounds)) self.server action = some (server, emitted) →
        ∃ actions, (system (some (survivalProtocol heap rounds))).exec actions self.server =
            some (server, emitted) ∧
          ∀ client, arrived client actions = requestArrival client (.server action) ∧
            (WholePackets client self (.server action) →
              (system (some (survivalProtocol heap rounds))).ExecGuard (WholeLogins client)
                actions self.server) := by
    intro action server emitted hstep
    refine ⟨[action], by simp [System.exec, system, hstep], fun client =>
      ⟨List.append_nil _, fun hguard => ?_⟩⟩
    exact ⟨hguard, by simp [system, hstep, System.ExecGuard]⟩
  -- a kick by a callback of the connection behind is a kick by anybody
  have hkicks : ∀ {served : Client} {input output : List Byte},
      self.proxyBuffers served = .opened input output →
        ∃ actions, (system (some (survivalProtocol heap rounds))).exec actions self.server =
            some ((serverKick self.server served).1, (serverKick self.server served).2) ∧
          ∀ client, arrived client actions = [] ∧
            (system (some (survivalProtocol heap rounds))).ExecGuard (WholeLogins client) actions
              self.server := by
    intro served input output hopened
    have hknown : self.server.lifetime served ≠ .fresh :=
      hsimulated.known (by rw [hopened]; exact ProxyBuffers.noConfusion)
    refine ⟨[.kick served], by simp [System.exec, system, step_kick hknown], fun client =>
      ⟨rfl, wholeLogins_kick _ _ _, ?_⟩⟩
    simp [system, step_kick hknown, System.ExecGuard]
  cases hmove with
  | quiet action server _ hstep => exact hinside hstep
  | connect worker served server hstep | refused worker served server hstep =>
      exact hinside hstep
  | pinged worker served server data hstep => exact hinside hstep
  | forward worker served server packet input output data hstep => exact hinside hstep
  | leave worker served server hstep => exact hinside hstep
  | free worker served server input output hstep => exact hinside hstep
  | kicked worker served server reason hstep hworker =>
      -- a handler that kicks does it in the step of the worker, with the kick behind it
      have hnext : (system (some (survivalProtocol heap rounds))).step self.server
          (.work worker) = some (server, [.process served (.disconnect reason)]) := hstep
      have hrun := hsimulated.run.step trivial hnext
      have hmem := (process_between hsimulated.run hworker).1
      have hknown : server.lifetime served ≠ .fresh :=
        ((run_dispatched hrun served).greeted (List.mem_append_left _ hmem)).1
      refine ⟨_, exec_step_kick served hstep hknown, fun client => ⟨rfl, fun hguard =>
        ⟨hguard, ?_⟩⟩⟩
      simp only [system, hstep]
      refine ⟨wholeLogins_kick _ _ _, ?_⟩
      simp only [step_kick hknown]
      trivial
  | dismiss served input output rest reason hopened
  | bad served input output hopened | died served error input output hopened =>
      obtain ⟨actions, hexec, hall⟩ := hkicks hopened
      exact ⟨actions, hexec, fun client => ⟨(hall client).1, fun _ => (hall client).2⟩⟩
  | receive | relay | skip | again | alive =>
      exact ⟨[], rfl, fun client => ⟨rfl, fun _ => trivial⟩⟩

/-- **One step** of the proxy is a run of the server inside. -/
theorem Simulated.step (hsimulated : Simulated heap rounds connects events self)
    (hmove : ProxyMove heap rounds connects self action next emitted) :
    Simulated heap rounds connects (events ++ emitted) next where
  run := by
    obtain ⟨actions, hexec, -⟩ := hmove.exists_exec hsimulated
    exact hsimulated.run.exec (System.execGuard_true _ _) hexec
  unset := fun client => by
    rw [(hmove.buffersStep client).unset, hsimulated.unset client, List.mem_append, not_or]
  freed := fun client hfreed => by
    rw [List.mem_append]
    rcases (hmove.buffersStep client).freed hfreed with hbefore | hdisconnect | hrefused
    · exact (hsimulated.freed client hbefore).imp_left .inl
    · exact .inl (.inr hdisconnect)
    · exact .inr hrefused
  opened := fun client input output hopened => by
    rcases (hmove.buffersStep client).opened input output hopened with
      ⟨input', output', hbefore⟩ | hconnects
    · exact hsimulated.opened client input' output' hbefore
    · exact hconnects

/-- **Every run** of the proxy is a run of the server inside. -/
theorem run_simulated {guard : ProxyServer Client W → ProxyAction Client W → Prop}
    (hrun : (proxySystem heap rounds connects).Run guard events self) :
    Simulated heap rounds connects events self := by
  induction hrun with
  | start => exact initial_simulated
  | step hprefix hguard hnext ih => exact ih.step (proxyStep_moves hnext)

/-- A packet that is about to be dispatched finds the connection open, if it was made. -/
theorem Simulated.opened_iff_of_processing (hsimulated : Simulated heap rounds connects events self)
    {worker : W} {packet : SVRequest}
    (hworker : self.server.workers worker = .processing client packet) :
    (∃ input output, self.proxyBuffers client = .opened input output) ↔
      connects client = true := by
  refine ⟨fun ⟨input, output, hopened⟩ => hsimulated.opened client input output hopened,
    fun hconnects => ?_⟩
  obtain ⟨hconnect, hdisconnect⟩ := process_between hsimulated.run hworker
  cases hbuffers : self.proxyBuffers client with
  | unset => exact absurd hconnect ((hsimulated.unset client).mp hbuffers)
  | opened input output => exact ⟨input, output, rfl⟩
  | freed =>
      rcases hsimulated.freed client hbuffers with hgone | hrefused
      · exact absurd hgone hdisconnect
      · rw [hconnects] at hrefused
        cases hrefused

end Inside

end Craftd.Proxy
