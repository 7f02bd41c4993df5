import Craftd.Server.ReadWakeup

/-!
# What the handlers see of one client

Plugins learn of a client through `Client.connect`, `Client.process` and
`Client.disconnect`.  In every run `Client.connect` is dispatched at most once for a
client, and a packet of the client is dispatched only after it and only before
`Client.disconnect`.

The invariant is `Dispatched`.  A connect job that was dispatched is the only one there
is, a client that is idle or has a packet was connected, and a disconnect job that stops
waiting leaves no process job behind, because the counter counts those.
-/

namespace Craftd.Server

open StepSystem

variable {Client Packet W : Type*}

/-! ## What a step dispatches -/

/-- What one step emits, and the place of the worker that dispatches. -/
inductive Emits (self : CDServer Client Packet W) :
    Action Client W → List (Event Client Packet) → Prop
  | quiet (action : Action Client W) : Emits self action []
  | parsed (action : Action Client W) (client : Client) (packet : Packet) :
      Emits self action [.parsed client packet]
  | addDisconnect (action : Action Client W) (client : Client) :
      Emits self action [.addDisconnect client]
  | connect (worker : W) (client : Client) (hworker : self.workers worker = .connecting client) :
      Emits self (.work worker) [.connect client]
  | process (worker : W) (client : Client) (packet : Packet)
      (hworker : self.workers worker = .processing client packet) :
      Emits self (.work worker) [.process client packet]
  | disconnect (worker : W) (client : Client)
      (hworker : self.workers worker = .disconnecting client) :
      Emits self (.work worker) [.disconnect client]
  | destroy (clients : List Client) : Emits self .cleanDisconnects (clients.map .destroy)

section Emits

variable [DecidableEq Client]

theorem serverKick_emits (self before : CDServer Client Packet W) (action : Action Client W)
    (client : Client) : Emits before action (serverKick self client).2 := by
  unfold serverKick
  split_ifs
  · exact .quiet action
  · exact .addDisconnect action client

theorem readCallback_emits {protocol : Option (CDProtocol Packet)}
    {self before next : CDServer Client Packet W} {reader : Client}
    {emitted : List (Event Client Packet)} (action : Action Client W)
    (hread : readCallback protocol self reader = some (next, emitted)) :
    Emits before action emitted := by
  have hkick := serverKick_emits self before action reader
  unfold readCallback at hread
  repeat' split at hread
  all_goals simp only [Option.some.injEq, reduceCtorEq] at hread
  all_goals first
    | (rw [hread] at hkick; exact hkick)
    | (cases hread; exact .quiet action)
    | (cases hread; exact .parsed action reader _)

private theorem destroyListed_emits (self : CDServer Client Packet W) (listed : List Client) :
    ∃ clients : List Client, (destroyListed self listed).2 = clients.map .destroy := by
  induction listed generalizing self with
  | nil => exact ⟨[], rfl⟩
  | cons head rest ih =>
      unfold destroyListed
      split_ifs
      · obtain ⟨clients, hclients⟩ := ih { self with
          clients := self.clients.erase head
          lifetime := Function.update self.lifetime head .destroyed }
        refine ⟨head :: clients, ?_⟩
        dsimp only
        rw [hclients, List.map_cons]
      · exact ih self

variable [DecidableEq W]

private theorem runWorker_emits {protocol : Option (CDProtocol Packet)}
    {self next : CDServer Client Packet W} {worker : W} {emitted : List (Event Client Packet)}
    (hrun : runWorker protocol self worker = some (next, emitted)) :
    Emits self (.work worker) emitted := by
  unfold runWorker at hrun
  cases hworker : self.workers worker with
  | holding job =>
      cases job <;> simp only [hworker] at hrun <;> cases hrun <;> exact .quiet _
  | reading served =>
      simp only [hworker] at hrun
      exact readCallback_emits _ hrun
  | connecting served =>
      simp only [hworker] at hrun
      cases hrun
      exact .connect worker served hworker
  | processing served packet =>
      simp only [hworker] at hrun
      cases hrun
      exact .process worker served packet hworker
  | disconnecting served =>
      simp only [hworker] at hrun
      cases hrun
      exact .disconnect worker served hworker
  | ready | rechecking served | waiting served =>
      simp only [hworker] at hrun
      split at hrun <;> cases hrun <;> exact .quiet _
  | connected served | processed served packet | listing served | flushing served =>
      simp only [hworker] at hrun
      cases hrun
      exact .quiet _

/-- **What a step dispatches.** -/
theorem step_emits {protocol : Option (CDProtocol Packet)} {self next : CDServer Client Packet W}
    {action : Action Client W} {emitted : List (Event Client Packet)}
    (hstep : step protocol self action = some (next, emitted)) : Emits self action emitted := by
  cases action with
  | accept accepted =>
      obtain ⟨-, -, rfl⟩ := by simpa [step] using hstep
      exact .quiet _
  | receive receiver bytes =>
      obtain ⟨-, -, rfl⟩ := by simpa [step] using hstep
      exact .quiet _
  | read reader =>
      obtain ⟨-, hread⟩ := by simpa [step] using hstep
      exact readCallback_emits _ hread
  | error failed error =>
      obtain ⟨-, herror⟩ := by simpa [step] using hstep
      unfold errorCallback at herror
      split_ifs at herror
      · cases herror
        exact .addDisconnect _ failed
      · cases herror
        exact .quiet _
  | kick kicked =>
      obtain ⟨-, hkick⟩ := by simpa [step] using hstep
      have hemits := serverKick_emits self self (.kick kicked : Action Client W) kicked
      rwa [hkick] at hemits
  | work worker => exact runWorker_emits hstep
  | cleanDisconnects =>
      obtain ⟨-, hclean⟩ := by simpa [step] using hstep
      obtain ⟨clients, hclients⟩ := destroyListed_emits self self.disconnecting
      rw [cleanDisconnects, Prod.mk.injEq] at hclean
      rw [← hclean.2, hclients]
      exact .destroy clients
  | clearDisconnecting =>
      obtain ⟨-, -, rfl⟩ := by simpa [step] using hstep
      exact .quiet _

end Emits

variable [DecidableEq Client] [DecidableEq W]

theorem step_workers_of_ne {protocol : Option (CDProtocol Packet)}
    {self next : CDServer Client Packet W} {action : Action Client W}
    {emitted : List (Event Client Packet)} {worker : W} (hne : action ≠ .work worker)
    (hstep : step protocol self action = some (next, emitted)) :
    next.workers worker = self.workers worker := by
  cases action with
  | accept accepted =>
      obtain ⟨-, rfl, -⟩ := by simpa [step] using hstep
      rfl
  | receive receiver bytes =>
      obtain ⟨-, rfl, -⟩ := by simpa [step] using hstep
      rfl
  | read reader =>
      obtain ⟨-, hread⟩ := by simpa [step] using hstep
      exact congrFun (readCallback_workers hread) worker
  | error failed error =>
      obtain ⟨-, herror⟩ := by simpa [step] using hstep
      have hworkers := errorCallback_workers self failed error
      rw [herror] at hworkers
      exact congrFun hworkers worker
  | kick kicked =>
      obtain ⟨-, hkick⟩ := by simpa [step] using hstep
      have hworkers := serverKick_workers self kicked
      rw [hkick] at hworkers
      exact congrFun hworkers worker
  | work moved =>
      -- a step of another worker
      have hmoved : worker ≠ moved := by
        rintro rfl
        exact hne rfl
      exact runWorker_workers_of_ne hmoved hstep
  | cleanDisconnects =>
      obtain ⟨-, hclean⟩ := by simpa [step] using hstep
      have hworkers := (destroyListed_workers self self.disconnecting).1
      rw [cleanDisconnects, Prod.mk.injEq] at hclean
      obtain ⟨rfl, -⟩ := hclean
      exact congrFun hworkers worker
  | clearDisconnecting =>
      obtain ⟨-, rfl, -⟩ := by simpa [step] using hstep
      rfl

/-! ## The token game of one client -/

section Tokens

variable {v v' : ClientView Packet} {history emitted : List (ClientEvent Packet)}
  {tail : List Packet}

/-- The counter counts the process job, and disconnect jobs are those of a disconnected client. -/
structure Counted (v : ClientView Packet) : Prop where
  counted : 0 < countTokens Token.isProcess v.tokens → v.jobs = 1
  settled : v.status = .connect ∨ v.status = .idle → v.jobs = 0
  leaving : 0 < countTokens Token.isDisconnect v.tokens → v.status = .disconnect

private theorem initial_counted : Counted (.initial : ClientView Packet) where
  counted := by simp [ClientView.initial, ClientView.tokens]
  settled := fun _ => rfl
  leaving := by simp [ClientView.initial, ClientView.tokens]

/-- No job is added to a client in a token's place. -/
theorem Counted.exchange {rest : Multiset (Token Packet)} {token : Token Packet}
    (hcounted : Counted v) (htokens : v.tokens = rest + {token}) (new : Multiset (Token Packet))
    (htokens' : v'.tokens = rest + new)
    (hprocess : countTokens Token.isProcess new ≤ token.isProcess.toNat)
    (hdisconnect : countTokens Token.isDisconnect new ≤ token.isDisconnect.toNat)
    (hjobs : v'.jobs = v.jobs) (hstatus : v'.status = v.status) : Counted v' where
  counted := fun h => by
    rw [htokens', countTokens_add] at h
    rw [hjobs]
    refine hcounted.counted ?_
    rw [htokens, countTokens_add, countTokens_singleton]
    omega
  settled := fun h => by
    rw [hjobs]
    exact hcounted.settled (hstatus ▸ h)
  leaving := fun h => by
    rw [htokens', countTokens_add] at h
    rw [hstatus]
    refine hcounted.leaving ?_
    rw [htokens, countTokens_add, countTokens_singleton]
    omega

/-- **One step keeps the jobs counted.** -/
theorem step_counted (horder : PacketOrder history v tail) (hcounted : Counted v)
    (hstep : ClientStep .all v emitted v') : Counted v' := by
  have hallows := horder.allows
  cases hstep with
  | quiet => exact hcounted
  | accept hfresh =>
      -- a fresh client has no job anywhere, so none that could be counted
      obtain ⟨-, hnone⟩ := horder.fresh hfresh
      have htokens : ClientView.tokens { v with
          lifetime := .live, status := .connect, jobs := 0, queue := v.queue ++ [.connect] } =
            v.tokens + {.connect} := ClientView.tokens_of_append rfl rfl
      constructor
      · intro h
        rw [htokens, hnone] at h
        simp at h
      · exact fun _ => rfl
      · intro h
        rw [htokens, hnone] at h
        simp at h
  | parse packet hidle =>
      -- an idle client has no disconnect job yet
      have htokens : ClientView.tokens { v with
          status := .process, jobs := v.jobs + 1, queue := v.queue ++ [.waiting packet] } =
            v.tokens + {.waiting packet} := ClientView.tokens_of_append rfl rfl
      constructor
      · intro _
        dsimp only
        rw [hcounted.settled (.inr hidle)]
        rfl
      · simp
      · intro h
        rw [htokens, countTokens_add, countTokens_singleton] at h
        have hleaving := hcounted.leaving h
        rw [hidle] at hleaving
        cases hleaving
  | hangUp hknown hrepeat =>
      have htokens : ClientView.tokens { v with
          status := .disconnect, queue := v.queue ++ [.pending] } = v.tokens + {.pending} :=
        ClientView.tokens_of_append rfl rfl
      constructor
      · intro h
        rw [htokens, countTokens_add, countTokens_singleton] at h
        exact hcounted.counted h
      · simp
      · exact fun _ => rfl
  | pop token rest hqueue =>
      -- a job moves from the queue into a hand
      have htokens : ClientView.tokens { v with queue := rest, held := v.held + {token} } =
          v.tokens := ClientView.tokens_of_pop hqueue rfl rfl
      constructor
      · rw [htokens]
        exact hcounted.counted
      · exact hcounted.settled
      · rw [htokens]
        exact hcounted.leaving
  | dropConnect rest hheld hstatus hdrop =>
      simp only [ClientView.countTokens_of_held hheld, hstatus, StatusAllows, Token.isConnect,
        Token.isProcess, Bool.toNat_true, Bool.toNat_false] at hallows
      constructor
      · intro h
        simp only [ClientView.tokens] at h
        omega
      · simp [hstatus]
      · exact fun _ => hstatus
  | dropProcess rest packet hheld hstatus =>
      simp only [ClientView.countTokens_of_held hheld, hstatus, StatusAllows, Token.isConnect,
        Token.isProcess, Bool.toNat_true, Bool.toNat_false] at hallows
      constructor
      · intro h
        simp only [ClientView.tokens] at h
        omega
      · simp [hstatus]
      · exact fun _ => hstatus
  | settle rest hheld =>
      -- the connect job was the only one of its kind, so nothing is processed meanwhile
      have hcount := fun kind => @ClientView.countTokens_of_held _ kind _ _ _ hheld
      simp only [hcount, Token.isConnect, Token.isProcess, Bool.toNat_true, Bool.toNat_false,
        add_zero] at hallows
      obtain ⟨-, hstatus⟩ := hallows.settle_connect
      constructor
      · intro h
        refine hcounted.counted ?_
        rw [hcount]
        exact Nat.lt_add_right _ h
      · intro h
        exact hcounted.settled (.inl (hstatus.resolve_right (settled_iff.mp h)))
      · intro h
        have hleaving := hcounted.leaving (by rw [hcount]; exact Nat.lt_add_right _ h)
        dsimp only
        rw [hleaving, settle_disconnect]
  | dispatch rest packet hheld =>
      refine hcounted.exchange (ClientView.tokens_of_held hheld) {.running} ?_ ?_ ?_ rfl rfl
      · simp only [ClientView.tokens, add_assoc]
      · simp
      · simp
  | finish rest hheld =>
      -- the process job that ends is the one that was counted
      have hcount := fun kind => @ClientView.countTokens_of_held _ kind _ _ _ hheld
      have hone : v.jobs = 1 := hcounted.counted (by rw [hcount]; simp)
      simp only [hcount, Token.isConnect, Token.isProcess, Bool.toNat_true, Bool.toNat_false,
        add_zero] at hallows
      have hle := hallows.processes_le
      constructor
      · intro h
        simp only [ClientView.tokens] at h
        omega
      · intro _
        dsimp only
        rw [hone]
        rfl
      · intro h
        have hleaving := hcounted.leaving (by rw [hcount]; exact Nat.lt_add_right _ h)
        dsimp only
        rw [hleaving, settle_disconnect]
  | disconnect rest hheld =>
      refine hcounted.exchange (ClientView.tokens_of_held hheld) {.listing} ?_ ?_ ?_ rfl rfl
      · simp only [ClientView.tokens, add_assoc]
      · simp
      · simp
  | list rest hheld =>
      refine hcounted.exchange (ClientView.tokens_of_held hheld) {.flushing} ?_ ?_ ?_ rfl rfl
      · simp only [ClientView.tokens, add_assoc]
      · simp
      · simp
  | flush rest hheld =>
      refine hcounted.exchange (ClientView.tokens_of_held hheld) 0 ?_ ?_ ?_ rfl rfl
      · simp only [ClientView.tokens, add_zero]
      · simp
      · simp
  | destroy hlisted hearly => exact ⟨hcounted.counted, hcounted.settled, hcounted.leaving⟩
  | unlist => exact ⟨hcounted.counted, hcounted.settled, hcounted.leaving⟩

/-- A client is disconnected and none of its packets is on the way to a handler. -/
def Spent (v : ClientView Packet) : Prop :=
  v.status = .disconnect ∧ countTokens Token.isProcess v.tokens = 0

theorem Spent.exchange {rest : Multiset (Token Packet)} {token : Token Packet} (hspent : Spent v)
    (htokens : v.tokens = rest + {token}) (new : Multiset (Token Packet))
    (htokens' : v'.tokens = rest + new)
    (hprocess : countTokens Token.isProcess new ≤ token.isProcess.toNat)
    (hstatus : v'.status = settle v.status ∨ v'.status = v.status) : Spent v' := by
  obtain ⟨hdisconnect, hnone⟩ := hspent
  rw [htokens, countTokens_add, countTokens_singleton] at hnone
  refine ⟨?_, ?_⟩
  · rw [hdisconnect, settle_disconnect] at hstatus
    exact hstatus.elim id id
  · rw [htokens', countTokens_add]
    omega

theorem Spent.step (horder : PacketOrder history v tail) (hspent : Spent v)
    (hstep : ClientStep .all v emitted v') : Spent v' := by
  have hdisconnect := hspent.1
  cases hstep with
  | quiet => exact hspent
  | accept hfresh =>
      -- a fresh client is not disconnected
      obtain ⟨hconnect, -⟩ := horder.fresh hfresh
      rw [hconnect] at hdisconnect
      cases hdisconnect
  | parse packet hidle =>
      -- nor is an idle one
      rw [hidle] at hdisconnect
      cases hdisconnect
  | hangUp hknown hrepeat =>
      refine ⟨rfl, ?_⟩
      have htokens : ClientView.tokens { v with
          status := .disconnect, queue := v.queue ++ [.pending] } = v.tokens + {.pending} :=
        ClientView.tokens_of_append rfl rfl
      rw [htokens, countTokens_add, hspent.2]
      rfl
  | pop token rest hqueue =>
      refine ⟨hdisconnect, ?_⟩
      have htokens : ClientView.tokens { v with queue := rest, held := v.held + {token} } =
          v.tokens := ClientView.tokens_of_pop hqueue rfl rfl
      rw [htokens]
      exact hspent.2
  | dropConnect rest hheld hstatus hdrop =>
      exact hspent.exchange (ClientView.tokens_of_held hheld) 0 (add_zero _).symm (by simp)
        (.inr rfl)
  | dropProcess rest packet hheld hstatus =>
      exact hspent.exchange (ClientView.tokens_of_held hheld) 0 (add_zero _).symm (by simp)
        (.inr rfl)
  | settle rest hheld =>
      exact hspent.exchange (ClientView.tokens_of_held hheld) 0 (add_zero _).symm (by simp)
        (.inl rfl)
  | dispatch rest packet hheld =>
      exact hspent.exchange (ClientView.tokens_of_held hheld) {.running}
        (add_assoc _ _ _).symm (by simp) (.inr rfl)
  | finish rest hheld =>
      exact hspent.exchange (ClientView.tokens_of_held hheld) 0 (add_zero _).symm (by simp)
        (.inl rfl)
  | disconnect rest hheld =>
      exact hspent.exchange (ClientView.tokens_of_held hheld) {.listing}
        (add_assoc _ _ _).symm (by simp) (.inr rfl)
  | list rest hheld =>
      exact hspent.exchange (ClientView.tokens_of_held hheld) {.flushing}
        (add_assoc _ _ _).symm (by simp) (.inr rfl)
  | flush rest hheld =>
      exact hspent.exchange (ClientView.tokens_of_held hheld) 0 (add_zero _).symm (by simp)
        (.inr rfl)
  | destroy hlisted hearly => exact hspent
  | unlist => exact hspent

theorem ClientStep.connects_le (hknown : v.lifetime ≠ .fresh)
    (hstep : ClientStep .all v emitted v') :
    countTokens Token.isConnect v'.tokens ≤ countTokens Token.isConnect v.tokens := by
  have hheld : ∀ {rest : Multiset (Token Packet)} {token : Token Packet}
      (new : Multiset (Token Packet)), v.held = rest + {token} →
        countTokens Token.isConnect new ≤ token.isConnect.toNat →
        countTokens Token.isConnect ((v.queue : Multiset (Token Packet)) + (rest + new)) ≤
          countTokens Token.isConnect v.tokens := by
    intro rest token new hrest hnew
    rw [ClientView.countTokens_of_held hrest, ← add_assoc, countTokens_add _ new]
    exact Nat.add_le_add_left hnew _
  cases hstep with
  | quiet | destroy | unlist => exact le_rfl
  -- the one step that adds a connect job is that of a fresh client
  | accept hfresh => exact absurd hfresh hknown
  | parse packet hidle =>
      have htokens : ClientView.tokens { v with
          status := .process, jobs := v.jobs + 1, queue := v.queue ++ [.waiting packet] } =
            v.tokens + {.waiting packet} := ClientView.tokens_of_append rfl rfl
      rw [htokens, countTokens_add]
      exact le_rfl
  | hangUp hknown hrepeat =>
      have htokens : ClientView.tokens { v with
          status := .disconnect, queue := v.queue ++ [.pending] } = v.tokens + {.pending} :=
        ClientView.tokens_of_append rfl rfl
      rw [htokens, countTokens_add]
      exact le_rfl
  | pop token rest hqueue =>
      have htokens : ClientView.tokens { v with queue := rest, held := v.held + {token} } =
          v.tokens := ClientView.tokens_of_pop hqueue rfl rfl
      rw [htokens]
  | dropConnect rest hrest | dropProcess rest packet hrest | settle rest hrest
  | finish rest hrest | flush rest hrest =>
      have hle := hheld 0 hrest (by simp)
      rwa [add_zero] at hle
  | dispatch rest packet hrest | disconnect rest hrest | list rest hrest =>
      exact hheld _ hrest (by simp)

theorem ClientStep.idle_of_parsed (hstep : ClientStep .all v emitted v')
    (hparsed : parsedPackets emitted ≠ []) : v.status = .idle := by
  cases hstep with
  | parse packet hidle => exact hidle
  | _ => exact absurd rfl hparsed

end Tokens

/-! ## The server -/

/-- A client whose connect job was dispatched has no other one. -/
def Greeted [Fintype W] (client : Client) (self : CDServer Client Packet W) : Prop :=
  self.lifetime client ≠ .fresh ∧
    (countTokens Token.isConnect (self.view client).tokens = 0 ∨
      ∃ worker, self.workers worker = .connected client)

/-- What has been dispatched for a client, and what that says about it. -/
structure Dispatched [Fintype W] (client : Client) (events : List (Event Client Packet))
    (server : CDServer Client Packet W) : Prop where
  greeted : .connect client ∈ events → Greeted client server
  idle : (server.client client).status = .idle ∨ (server.client client).status = .process →
    .connect client ∈ events
  connected : ∀ worker, server.workers worker = .connected client → .connect client ∈ events
  parsed : parsedPackets (events.filterMap (Event.about client)) ≠ [] → .connect client ∈ events
  departed : (∃ worker, (server.workers worker).departing = some client) ∨
    .disconnect client ∈ events → Spent (server.view client)

section Steps

variable {protocol : Option (CDProtocol Packet)} {self next : CDServer Client Packet W}
  {action : Action Client W} {emitted : List (Event Client Packet)} {client : Client}

/-- A worker is behind the dispatch of `Client.connect` because it took that step. -/
theorem connected_of_step {worker : W}
    (hstep : step protocol self action = some (next, emitted))
    (hconnected : next.workers worker = .connected client) :
    self.workers worker = .connected client ∨ emitted = [.connect client] := by
  by_cases hmoved : action = .work worker
  · subst hmoved
    have hrun : runWorker protocol self worker = some (next, emitted) := hstep
    unfold runWorker at hrun
    cases hworker : self.workers worker with
    | holding job =>
        -- a job that is taken up leads to the wait loop, not behind a dispatch
        exfalso
        cases job <;> simp only [hworker] at hrun <;> cases hrun
        all_goals try unfold checkStatus at hconnected
        all_goals try split_ifs at hconnected
        all_goals rw [workers_setWorker] at hconnected; cases hconnected
    | reading served =>
        simp only [hworker] at hrun
        rw [readCallback_workers hrun, workers_setWorker] at hconnected
        cases hconnected
    | connecting served =>
        -- the one step behind which a worker is connected
        simp only [hworker] at hrun
        cases hrun
        rw [workers_setWorker] at hconnected
        cases hconnected
        exact .inr rfl
    | ready =>
        exfalso
        simp only [hworker] at hrun
        split at hrun <;> cases hrun
        · rw [hworker] at hconnected
          cases hconnected
        · rw [workers_setWorker] at hconnected
          cases hconnected
    | waiting served =>
        exfalso
        simp only [hworker] at hrun
        split_ifs at hrun <;> cases hrun
        · rw [workers_setWorker] at hconnected
          cases hconnected
        · rw [hworker] at hconnected
          cases hconnected
    | rechecking served =>
        exfalso
        simp only [hworker] at hrun
        split_ifs at hrun <;> cases hrun <;> rw [workers_setWorker] at hconnected <;>
          cases hconnected
    | connected served | processing served packet | processed served packet
    | disconnecting served | listing served | flushing served =>
        exfalso
        simp only [hworker] at hrun
        cases hrun
        rw [workers_setWorker] at hconnected
        cases hconnected
  · rw [step_workers_of_ne hmoved hstep] at hconnected
    exact .inl hconnected

omit [DecidableEq W] in
theorem readCallback_connecting {reader : Client}
    (hread : readCallback protocol self reader = some (next, emitted))
    (hconnect : (self.client client).status = .connect) :
    (next.client client).status = .connect := by
  unfold readCallback serverKick at hread
  by_cases hclient : client = reader
  · subst hclient
    cases protocol with
    | none =>
        cases hread
        exact hconnect
    | some protocol =>
        have hidle : ¬ (self.client client).status = .idle := by
          rw [hconnect]
          exact nofun
        simp only [if_neg hidle] at hread
        cases hread
        exact hconnect
  · repeat' split at hread
    all_goals simp only [Option.some.injEq, Prod.mk.injEq, reduceCtorEq] at hread
    all_goals obtain ⟨rfl, -⟩ := hread
    all_goals simp [CDServer.setClient, CDServer.addJob, hclient, hconnect]

/-- A worker takes a client out of connecting in the last section of a job. -/
theorem runWorker_connecting {worker : W}
    (hrun : runWorker protocol self worker = some (next, emitted))
    (hconnect : (self.client client).status = .connect)
    (hchanged : (next.client client).status ≠ .connect) :
    self.workers worker = .connected client ∨
      ∃ packet, self.workers worker = .processed client packet := by
  unfold runWorker at hrun
  cases hworker : self.workers worker with
  | connected served | processed served packet =>
      -- the last section of a job writes the status of its own client only
      by_cases hclient : client = served
      · subst hclient
        first | exact .inl rfl | exact .inr ⟨packet, rfl⟩
      · simp only [hworker] at hrun
        cases hrun
        simp [CDServer.setWorker, CDServer.setClient, hclient, hconnect] at hchanged
  | reading served =>
      simp only [hworker] at hrun
      exact absurd (readCallback_connecting hrun hconnect) hchanged
  | holding job =>
      exfalso
      apply hchanged
      cases job with
      | custom | clientDisconnect served =>
          simp only [hworker] at hrun
          cases hrun
          exact hconnect
      | clientConnect served | clientProcess served packet =>
          simp only [hworker] at hrun
          cases hrun
          unfold checkStatus
          -- the drop of a job concerns a client that is disconnected already
          split_ifs with hdisconnect
          · have hclient : client ≠ served := by
              rintro rfl
              rw [hconnect] at hdisconnect
              cases hdisconnect
            simpa [CDServer.setWorker, CDServer.setClient, hclient] using hconnect
          · exact hconnect
  | ready | rechecking served | waiting served =>
      simp only [hworker] at hrun
      split at hrun <;> cases hrun <;> exact absurd hconnect hchanged
  | connecting served | processing served packet | disconnecting served | listing served
  | flushing served =>
      simp only [hworker] at hrun
      cases hrun
      exact absurd hconnect hchanged

/-- A connecting client becomes idle by the last section of a job. -/
theorem step_connecting (hstep : step protocol self action = some (next, emitted))
    (hconnect : (self.client client).status = .connect)
    (hidle : (next.client client).status = .idle ∨ (next.client client).status = .process) :
    ∃ worker, self.workers worker = .connected client ∨
      ∃ packet, self.workers worker = .processed client packet := by
  have hchanged : (next.client client).status ≠ .connect := by
    intro hsame
    rw [hsame] at hidle
    exact hidle.elim nofun nofun
  cases action with
  | accept accepted =>
      -- an accepted client is connecting again, all others stay as they are
      obtain ⟨-, rfl, -⟩ := by simpa [step] using hstep
      by_cases hclient : client = accepted
      · subst hclient
        simp [accept, CDServer.addJob, CDServer.setClient, createClient] at hchanged
      · simp [accept, CDServer.addJob, CDServer.setClient, hclient, hconnect] at hchanged
  | receive receiver bytes =>
      obtain ⟨-, rfl, -⟩ := by simpa [step] using hstep
      by_cases hclient : client = receiver
      · subst hclient
        simp [CDServer.setClient, hconnect] at hchanged
      · simp [CDServer.setClient, hclient, hconnect] at hchanged
  | read reader =>
      obtain ⟨-, hread⟩ := by simpa [step] using hstep
      exact absurd (readCallback_connecting hread hconnect) hchanged
  | error failed error =>
      obtain ⟨-, herror⟩ := by simpa [step] using hstep
      unfold errorCallback at herror
      split_ifs at herror <;> cases herror
      -- the client is disconnected, neither idle nor processing
      · by_cases hclient : client = failed
        · subst hclient
          simp [CDServer.setClient, CDServer.addJob] at hidle
        · simp [CDServer.setClient, CDServer.addJob, hclient, hconnect] at hchanged
      · exact absurd hconnect hchanged
  | kick kicked =>
      obtain ⟨-, hkick⟩ := by simpa [step] using hstep
      unfold serverKick at hkick
      split_ifs at hkick <;> cases hkick
      · exact absurd hconnect hchanged
      · by_cases hclient : client = kicked
        · subst hclient
          simp [CDServer.setClient, CDServer.addJob] at hidle
        · simp [CDServer.setClient, CDServer.addJob, hclient, hconnect] at hchanged
  | work worker => exact ⟨worker, runWorker_connecting hstep hconnect hchanged⟩
  | cleanDisconnects =>
      obtain ⟨-, hclean⟩ := by simpa [step] using hstep
      have hsame := destroyListed_client self self.disconnecting
      -- the walk destroys clients and leaves their status alone
      rw [cleanDisconnects, Prod.mk.injEq] at hclean
      obtain ⟨rfl, -⟩ := hclean
      exact absurd ((congrArg CDClient.status (congrFun hsame client)).trans hconnect) hchanged
  | clearDisconnecting =>
      obtain ⟨-, rfl, -⟩ := by simpa [step] using hstep
      exact absurd hconnect hchanged

/-! ## The invariant -/

theorem StatusAllows.connects_le {status : CDClientStatus} {connects processes : ℕ}
    (hallows : StatusAllows status connects processes) : connects ≤ 1 := by
  cases status <;> simp only [StatusAllows] at hallows <;> omega

section Invariant

variable [Fintype W]

omit [DecidableEq W] in
theorem mem_tokens_of_worker {worker : W} {token : Token Packet}
    (htoken : (self.workers worker).token client = some token) :
    token ∈ (self.view client).tokens :=
  Multiset.mem_add.mpr (.inr (CDServer.mem_held.mpr ⟨worker, htoken⟩))

private theorem no_connect_job {worker : W}
    (hle : countTokens Token.isConnect (self.view client).tokens ≤ 1)
    (hworker : self.workers worker = .connected client)
    (hrun : runWorker protocol self worker = some (next, emitted)) :
    countTokens Token.isConnect (next.view client).tokens = 0 := by
  have htoken : (self.workers worker).token client = some .connect := by
    rw [hworker]
    exact if_pos rfl
  unfold runWorker at hrun
  simp only [hworker] at hrun
  cases hrun
  obtain ⟨rest, hheld, hset⟩ := self.exists_rest_view client worker
  rw [htoken, inHand_some] at hheld
  rw [ClientView.countTokens_of_held hheld] at hle
  rw [CDServer.setWorker_setClient, CDServer.view_setClient_self, hset]
  have hnone : inHand ((.rechecking client : CDWorker Client Packet).token client) = 0 := rfl
  have hone : (Token.isConnect (.connect : Token Packet)).toNat = 1 := rfl
  rw [hone] at hle
  rw [hnone, add_zero, ClientView.tokens]
  exact Nat.le_zero.mp (Nat.le_of_succ_le_succ hle)

/-- A client whose connect job was dispatched stays without another one. -/
theorem Greeted.step {history : List (ClientEvent Packet)} {tail : List Packet}
    (horder : PacketOrder history (self.view client) tail) (hgreeted : Greeted client self)
    (hview : ClientStep .all (self.view client) (emitted.filterMap (Event.about client))
      (next.view client))
    (hstep : step protocol self action = some (next, emitted)) : Greeted client next := by
  obtain ⟨hknown, hnone | ⟨worker, hworker⟩⟩ := hgreeted
  · refine ⟨hview.lifetime_ne_fresh hknown, .inl ?_⟩
    exact Nat.le_zero.mp (hnone ▸ hview.connects_le hknown)
  · refine ⟨hview.lifetime_ne_fresh hknown, ?_⟩
    by_cases hmoved : action = .work worker
    · subst hmoved
      have hallows := StatusAllows.connects_le horder.allows
      exact .inl (no_connect_job hallows hworker hstep)
    · exact .inr ⟨worker, (step_workers_of_ne hmoved hstep).trans hworker⟩

/-- **One step keeps what has been dispatched.** -/
theorem step_dispatched {events : List (Event Client Packet)} {tail : List Packet}
    (hlisted : ClientsListed self)
    (horder : PacketOrder (events.filterMap (Event.about client)) (self.view client) tail)
    (hcounted : Counted (self.view client)) (hdispatched : Dispatched client events self)
    (hstep : step protocol self action = some (next, emitted)) :
    Dispatched client (events ++ emitted) next := by
  have hview : ClientStep .all (self.view client) (emitted.filterMap (Event.about client))
      (next.view client) := step_clientStep hlisted (permits_all client self action) hstep
  have hemits := step_emits hstep
  constructor
  · intro hmem
    rcases List.mem_append.mp hmem with hbefore | hnow
    · exact (hdispatched.greeted hbefore).step horder hview hstep
    · cases hemits with
      | connect worker served hworker =>
          obtain rfl : client = served := by simpa using hnow
          have htoken : (self.workers worker).token client = some .connect := by
            rw [hworker]
            exact if_pos rfl
          have hknown : (self.view client).lifetime ≠ .fresh := by
            obtain ⟨rest, hheld, -⟩ := self.exists_rest_view client worker
            rw [htoken, inHand_some] at hheld
            exact horder.known (ClientView.tokens_of_held hheld)
          have hrun : runWorker protocol self worker = some (next, [.connect client]) := hstep
          unfold runWorker at hrun
          simp only [hworker] at hrun
          cases hrun
          exact ⟨hview.lifetime_ne_fresh hknown, .inr ⟨worker, workers_setWorker _ _ _⟩⟩
      | destroy clients => simp at hnow
      | quiet | parsed | addDisconnect | process | disconnect => simp at hnow
  · intro hidle
    apply List.mem_append_left
    cases hstatus : (self.client client).status with
    | idle => exact hdispatched.idle (.inl hstatus)
    | process => exact hdispatched.idle (.inr hstatus)
    | disconnect =>
        have hknown : (self.view client).lifetime ≠ .fresh := by
          intro hfresh
          have hconnect : (self.client client).status = .connect := (horder.fresh hfresh).1
          rw [hstatus] at hconnect
          cases hconnect
        have hstays : (next.client client).status = .disconnect :=
          hview.disconnect_absorbing hknown hstatus
        rw [hstays] at hidle
        exact (hidle.elim nofun nofun)
    | connect =>
        obtain ⟨worker, hworker | ⟨packet, hworker⟩⟩ := step_connecting hstep hstatus hidle
        · exact hdispatched.connected worker hworker
        · -- a connecting client has no process job
          exfalso
          have htoken : (self.workers worker).token client = some .running := by
            rw [hworker]
            exact if_pos rfl
          have hpos := countTokens_pos Token.isProcess (mem_tokens_of_worker htoken) rfl
          have hallows := horder.allows
          have hview : (self.view client).status = .connect := hstatus
          rw [hview] at hallows
          exact hpos.ne' hallows.2
  · intro worker hworker
    rcases connected_of_step hstep hworker with hbefore | rfl
    · exact List.mem_append_left _ (hdispatched.connected worker hbefore)
    · exact List.mem_append_right _ (List.mem_singleton_self _)
  · intro hparsed
    apply List.mem_append_left
    rw [List.filterMap_append, parsedPackets_append] at hparsed
    by_cases hbefore : parsedPackets (events.filterMap (Event.about client)) = []
    · rw [hbefore, List.nil_append] at hparsed
      exact hdispatched.idle (.inl (hview.idle_of_parsed hparsed))
    · exact hdispatched.parsed hbefore
  · intro hdeparted
    suffices hspent : Spent (self.view client) from hspent.step horder hview
    rcases hdeparted with ⟨worker, hdeparting⟩ | hmem
    · rcases step_workers hstep (CDWorker.client_of_departing hdeparting) with
        hsame | ⟨hnot, -⟩ | ⟨-, -, -, hback⟩
      · exact hdispatched.departed (.inl ⟨worker, hsame ▸ hdeparting⟩)
      · exact absurd hdeparting hnot
      · rcases hback hdeparting with hbefore | ⟨hwaiting, hjobs⟩
        · exact hdispatched.departed (.inl ⟨worker, hbefore⟩)
        · -- the counter is 0, so no process job is left
          have htoken : (self.workers worker).token client = some .pending := by
            rw [hwaiting]
            exact if_pos rfl
          have hpending := countTokens_pos Token.isDisconnect (mem_tokens_of_worker htoken) rfl
          refine ⟨hcounted.leaving hpending, ?_⟩
          by_contra hsome
          have hone : (self.client client).jobs = 1 :=
            hcounted.counted (Nat.pos_of_ne_zero hsome)
          rw [hone] at hjobs
          exact absurd hjobs (by decide)
    · rcases List.mem_append.mp hmem with hbefore | hnow
      · exact hdispatched.departed (.inr hbefore)
      · cases hemits with
        | disconnect worker served hworker =>
            obtain rfl : client = served := by simpa using hnow
            refine hdispatched.departed (.inl ⟨worker, ?_⟩)
            rw [hworker]
            rfl
        | destroy clients => simp at hnow
        | quiet | parsed | addDisconnect | process | connect => simp at hnow

omit [DecidableEq W] in
private theorem initial_dispatched (client : Client) :
    Dispatched client [] (createServer : CDServer Client Packet W) where
  greeted := fun hmem => by cases hmem
  idle := fun hidle => by cases hidle with | inl h => cases h | inr h => cases h
  connected := fun worker hworker => by cases hworker
  parsed := fun hparsed => absurd rfl hparsed
  departed := fun hdeparted => by
    rcases hdeparted with ⟨worker, hdeparting⟩ | hmem
    · cases hdeparting
    · cases hmem

private theorem run_counted {guard : CDServer Client Packet W → Action Client W → Prop}
    {events : List (Event Client Packet)} {state : CDServer Client Packet W}
    (hrun : (system protocol).Run guard events state) (client : Client) :
    Counted (state.view client) :=
  (run_ordered .all client (fun _ v => Counted v)
    (fun self action _ => permits_all client self action) initial_counted
    (fun _ _ _ _ _ horder hcounted hstep => step_counted horder hcounted hstep) hrun).2

theorem run_dispatched {guard : CDServer Client Packet W → Action Client W → Prop}
    {events : List (Event Client Packet)} {state : CDServer Client Packet W}
    (hrun : (system protocol).Run guard events state) (client : Client) :
    Dispatched client events state := by
  induction hrun with
  | start => exact initial_dispatched client
  | step hprefix hguard hnext ih =>
      obtain ⟨tail, horder⟩ := run_packetOrder hprefix client
      exact step_dispatched (run_clientsListed hprefix) horder (run_counted hprefix client) ih hnext

end Invariant

end Steps

/-! ## The order -/

section Order

variable [Fintype W] {protocol : Option (CDProtocol Packet)}
  {self next state : CDServer Client Packet W} {action : Action Client W}
  {events emitted : List (Event Client Packet)} {client : Client}
  {guard : CDServer Client Packet W → Action Client W → Prop}

/-- The handlers see a client connect once, then its packets, and none of them behind its
disconnect. -/
structure InOrder (client : Client) (events : List (Event Client Packet)) : Prop where
  connect : ∀ before after, events = before ++ .connect client :: after →
    .connect client ∉ before
  process : ∀ before packet after, events = before ++ .process client packet :: after →
    .connect client ∈ before ∧ .disconnect client ∉ before

/-- A connect that is dispatched is the first one. -/
theorem connect_notMem (hrun : (system protocol).Run guard events self) {worker : W}
    (hworker : self.workers worker = .connecting client) : .connect client ∉ events := by
  intro hmem
  obtain ⟨tail, horder⟩ := run_packetOrder hrun client
  have htoken : (self.workers worker).token client = some .connect := by
    rw [hworker]
    exact if_pos rfl
  obtain ⟨-, hnone | ⟨other, hother⟩⟩ := (run_dispatched hrun client).greeted hmem
  · exact (countTokens_pos Token.isConnect (mem_tokens_of_worker htoken) rfl).ne' hnone
  · have hne : other ≠ worker := by
      rintro rfl
      rw [hworker] at hother
      cases hother
    have htoken' : (self.workers other).token client = some .connect := by
      rw [hother]
      exact if_pos rfl
    have hconnect : Token.isConnect (.connect : Token Packet) = true := rfl
    have htwo := two_le_countTokens self hne htoken hconnect htoken' hconnect
    have hle := StatusAllows.connects_le horder.allows
    omega

theorem mem_parsed_of_processing (hrun : (system protocol).Run guard events self) {worker : W}
    {packet : Packet} (hworker : self.workers worker = .processing client packet) :
    packet ∈ parsedPackets (events.filterMap (Event.about client)) := by
  obtain ⟨tail, horder⟩ := run_packetOrder hrun client
  have htoken : (self.workers worker).token client = some (.waiting packet) := by
    rw [hworker]
    exact if_pos rfl
  rw [horder.parsed, horder.waiting packet (mem_tokens_of_worker htoken)]
  exact List.mem_append_right _ (.head _)

/-- A packet is dispatched behind the connect and not behind the disconnect. -/
theorem process_between (hrun : (system protocol).Run guard events self) {worker : W}
    {packet : Packet} (hworker : self.workers worker = .processing client packet) :
    .connect client ∈ events ∧ .disconnect client ∉ events := by
  have hdispatched := run_dispatched hrun client
  have htoken : (self.workers worker).token client = some (.waiting packet) := by
    rw [hworker]
    exact if_pos rfl
  constructor
  · exact hdispatched.parsed (List.ne_nil_of_mem (mem_parsed_of_processing hrun hworker))
  · intro hdisconnect
    have hspent := hdispatched.departed (.inr hdisconnect)
    exact (countTokens_pos Token.isProcess (mem_tokens_of_worker htoken) rfl).ne' hspent.2

omit [DecidableEq Client] [DecidableEq W] [Fintype W] in
theorem Emits.connecting (hemits : Emits self action emitted)
    (hmem : .connect client ∈ emitted) :
    emitted = [.connect client] ∧ ∃ worker, self.workers worker = .connecting client := by
  cases hemits with
  | connect worker served hworker =>
      obtain rfl : client = served := by simpa using hmem
      exact ⟨rfl, worker, hworker⟩
  | destroy clients => simp at hmem
  | quiet | parsed | addDisconnect | process | disconnect => simp at hmem

omit [DecidableEq Client] [DecidableEq W] [Fintype W] in
theorem Emits.processing {packet : Packet} (hemits : Emits self action emitted)
    (hmem : .process client packet ∈ emitted) :
    emitted = [.process client packet] ∧
      ∃ worker, self.workers worker = .processing client packet := by
  cases hemits with
  | process worker served packet' hworker =>
      obtain ⟨rfl, rfl⟩ : client = served ∧ packet = packet' := by simpa using hmem
      exact ⟨rfl, worker, hworker⟩
  | destroy clients => simp at hmem
  | quiet | parsed | addDisconnect | connect | disconnect => simp at hmem

omit [DecidableEq Client] in
/-- Where an event of a step that emits no other comes behind those of a run. -/
theorem split_append {event : Event Client Packet} {before after : List (Event Client Packet)}
    (hsplit : events ++ emitted = before ++ event :: after)
    (hsingle : event ∈ emitted → emitted = [event]) :
    (∃ after', events = before ++ event :: after') ∨ before = events ∧ emitted = [event] := by
  obtain ⟨earlier, rfl, hemitted⟩ | ⟨later, hevents, hrest⟩ :=
    List.append_eq_append_iff.mp hsplit
  · have hone := hsingle (by rw [hemitted]; simp)
    refine .inr ⟨?_, hone⟩
    rw [hone] at hemitted
    cases earlier with
    | nil => exact List.append_nil events
    | cons head earlier => simp at hemitted
  · cases later with
    | nil =>
        have hone := hsingle (by rw [← List.nil_append emitted, ← hrest]; simp)
        exact .inr ⟨by rw [hevents, List.append_nil], hone⟩
    | cons head later =>
        rw [List.cons_append, List.cons.injEq] at hrest
        exact .inl ⟨later, by rw [hevents, hrest.1]⟩

theorem InOrder.step (horder : InOrder client events)
    (hrun : (system protocol).Run guard events self)
    (hstep : step protocol self action = some (next, emitted)) :
    InOrder client (events ++ emitted) := by
  have hemits := step_emits hstep
  constructor
  · intro before after hsplit
    obtain ⟨after', hevents⟩ | ⟨rfl, rfl⟩ :=
      split_append hsplit fun hmem => (hemits.connecting hmem).1
    · exact horder.connect before after' hevents
    · obtain ⟨-, worker, hworker⟩ := hemits.connecting (List.mem_singleton_self _)
      exact connect_notMem hrun hworker
  · intro before packet after hsplit
    obtain ⟨after', hevents⟩ | ⟨rfl, rfl⟩ :=
      split_append hsplit fun hmem => (hemits.processing hmem).1
    · exact horder.process before packet after' hevents
    · obtain ⟨-, worker, hworker⟩ := hemits.processing (List.mem_singleton_self _)
      exact process_between hrun hworker

/-- **The handlers see a client in order.**  In every run `Client.connect` is dispatched at most
once for a client, and `Client.process` only behind it and never behind `Client.disconnect`. -/
theorem handlers_see_clients_in_order
    (hrun : (system protocol).Run (fun _ _ => True) events state) (client : Client) :
    InOrder client events := by
  induction hrun with
  | start => exact ⟨fun before after hsplit => by simp at hsplit,
      fun before packet after hsplit => by simp at hsplit⟩
  | step hprefix hguard hnext ih => exact ih.step hprefix hnext

/-- A client connects, sends a keep-alive and is kicked. -/
def connectAndLeave : List (Action ℕ (Fin 1)) :=
  [.accept 0, .work 0, .work 0, .work 0, .work 0, .work 0, .receive 0 [0x00, 0, 0, 0, 7], .read 0,
    .work 0, .work 0, .work 0, .work 0, .work 0, .kick 0, .work 0, .work 0, .work 0, .work 0]

theorem handlers_see_clients_in_order_leaving :
    ∃ state events, (system (some (survivalProtocol zeroHeap 0))).exec connectAndLeave
        createServer = some (state, events) ∧
      events = [.connect 0, .parsed 0 (.keepAlive 7), .process 0 (.keepAlive 7), .addDisconnect 0,
        .disconnect 0] ∧ InOrder 0 events := by
  have hexec : ((system (some (survivalProtocol zeroHeap 0))).exec connectAndLeave
      createServer).map Prod.snd = some [.connect 0, .parsed 0 (.keepAlive 7),
        .process 0 (.keepAlive 7), .addDisconnect 0, .disconnect 0] := by
    rfl
  obtain ⟨⟨state, events⟩, hexec, hevents⟩ := Option.map_eq_some_iff.mp hexec
  have hrun : (system (some (survivalProtocol zeroHeap 0))).Run (fun _ _ => True) events state :=
    System.Run.exec .start (System.execGuard_true _ _) hexec
  exact ⟨state, events, hexec, hevents, handlers_see_clients_in_order hrun 0⟩

end Order

end Craftd.Server
