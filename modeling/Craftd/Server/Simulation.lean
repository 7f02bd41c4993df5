import Craftd.Server.ClientView
import Craftd.Server.Registry

/-!
# The server refines the token game

`step_clientStep`: whatever step some thread of the server takes, every client
sees a `ClientStep` of its own, with exactly the events that concern it.  There
is one lemma for each function of the source; the run lemma `run_invariant` at
the end turns an invariant of the token game into an invariant of the server.
-/

namespace Craftd.Server

open StepSystem

variable {Client Packet W : Type*} [DecidableEq Client] [DecidableEq W] [Fintype W]

/-! ## One lemma for each function -/

omit [DecidableEq W] in
theorem hangUp_clientStep (allowed : Allowed) (self : CDServer Client Packet W) (gone : Client)
    (value : CDClient) (hstatus : value.status = .disconnect)
    (hjobs : value.jobs = (self.view gone).jobs)
    (hknown : self.lifetime gone ≠ .fresh ∨ (self.client gone).status = .idle)
    (client : Client)
    (hrepeat : gone = client → (self.client gone).status = .disconnect →
      allowed.repeatDisconnect) :
    ClientStep allowed (self.view client)
      ([Event.addDisconnect gone].filterMap (Event.about client))
      (((self.setClient gone value).addJob (.clientDisconnect gone)).view client) := by
  by_cases hclient : gone = client
  · subst hclient
    have hallowed : allowed.repeatDisconnect ∨ (self.view gone).status ≠ .disconnect := by
      by_cases hgone : (self.client gone).status = .disconnect
      · exact .inl (hrepeat rfl hgone)
      · exact .inr hgone
    simpa [Event.about, CDJob.token, hstatus, hjobs] using
      ClientStep.hangUp (self.view gone) hknown hallowed
  · simpa [Event.about, CDJob.token, hclient] using ClientStep.quiet (self.view client)

omit [DecidableEq W] in
theorem serverKick_clientStep (allowed : Allowed) (self : CDServer Client Packet W)
    (kicked : Client)
    (hknown : self.lifetime kicked ≠ .fresh ∨ (self.client kicked).status = .idle)
    (client : Client) :
    ClientStep allowed (self.view client)
      ((serverKick self kicked).2.filterMap (Event.about client))
      ((serverKick self kicked).1.view client) := by
  unfold serverKick
  split
  · exact .quiet _
  · next hstatus =>
    exact hangUp_clientStep allowed self kicked
      { self.client kicked with status := .disconnect } rfl rfl hknown client
      (fun _ h => absurd h hstatus)

omit [DecidableEq W] in
private theorem errorCallback_clientStep (allowed : Allowed) (self : CDServer Client Packet W)
    (failed : Client) (error : BitVec 16) (hlive : self.lifetime failed = .live)
    (client : Client)
    (hrepeat : failed = client → bevDisconnects error →
      (self.client failed).status = .disconnect → allowed.repeatDisconnect) :
    ClientStep allowed (self.view client)
      ((errorCallback self failed error).2.filterMap (Event.about client))
      ((errorCallback self failed error).1.view client) := by
  unfold errorCallback
  split
  · next herror =>
    exact hangUp_clientStep allowed self failed
      { self.client failed with status := .disconnect, error := error ≠ 0 } rfl rfl
      (.inl (by simp [hlive])) client (fun hfailed => hrepeat hfailed herror)
  · exact .quiet _

omit [DecidableEq W] in
theorem readCallback_clientStep (allowed : Allowed) (protocol : Option (CDProtocol Packet))
    (self : CDServer Client Packet W) (reader : Client) {next : CDServer Client Packet W}
    {emitted : List (Event Client Packet)}
    (hread : readCallback protocol self reader = some (next, emitted)) (client : Client) :
    ClientStep allowed (self.view client) (emitted.filterMap (Event.about client))
      (next.view client) := by
  unfold readCallback at hread
  cases protocol with
  | none =>
      obtain ⟨rfl, rfl⟩ := by simpa using hread
      exact .quiet _
  | some protocol =>
      simp only at hread
      split at hread
      · next hidle =>
        split at hread
        · simp at hread
        · split at hread
          · next packet rest _ =>
            obtain ⟨rfl, rfl⟩ := by simpa using hread
            -- the packet and its job are those of the client that is read
            by_cases hclient : reader = client
            · subst hclient
              have hjobs : (self.client reader).jobs = (self.view reader).jobs := rfl
              simpa [Event.about, CDJob.token, hjobs] using
                (.parse (self.view reader) packet hidle : ClientStep allowed _ _ _)
            · simpa [Event.about, CDJob.token, hclient] using ClientStep.quiet (self.view client)
          · obtain ⟨rfl, rfl⟩ := by simpa using hread
            by_cases hclient : reader = client
            · subst hclient
              rw [CDServer.view_setClient_self]
              exact .quiet _
            · simpa [hclient] using ClientStep.quiet (self.view client)
        · obtain ⟨rfl, rfl⟩ := by simpa using hread
          exact .quiet _
        · have hkick := serverKick_clientStep allowed self reader (.inr hidle) client
          rwa [Option.some.inj hread] at hkick
      · obtain ⟨rfl, rfl⟩ := by simpa using hread
        exact .quiet _

/-- A job ends: its token is gone, and the client's status and counter are written. -/
theorem endJob_clientStep (allowed : Allowed) (self : CDServer Client Packet W) (worker : W)
    (served client : Client) {token : Token Packet} {value : CDClient}
    {next : CDWorker Client Packet}
    (hworker : (self.workers worker).token client = if served = client then some token else none)
    (hnext : next.token client = none)
    (hmove : served = client → ∀ rest, (self.view served).held = rest + {token} →
      ClientStep allowed (self.view served) []
        { self.view served with status := value.status, jobs := value.jobs, held := rest }) :
    ClientStep allowed (self.view client) []
      (((self.setClient served value).setWorker worker next).view client) := by
  obtain ⟨rest, hheld, hset⟩ := self.exists_rest_view client worker
  rw [CDServer.setWorker_setClient]
  by_cases hclient : served = client
  · subst hclient
    rw [hworker, if_pos rfl] at hheld
    simp only [CDServer.view_setClient_self, hset, hnext, inHand_none, add_zero]
    exact hmove rfl rest hheld
  · rw [CDServer.view_setClient_of_ne _ hclient, CDServer.view_setWorker_of_token_eq]
    · exact .quiet _
    · rw [hworker, if_neg hclient, hnext]

/-- The status check of a connect or process job whose token is `token`: the
token is kept, or dropped together with the job. -/
theorem checkStatus_clientStep (allowed : Allowed) (self : CDServer Client Packet W) (worker : W)
    (checked client : Client) (token : Token Packet) {next : CDWorker Client Packet}
    (hworker : (self.workers worker).token client = if checked = client then some token else none)
    (hnext : next.token client = if checked = client then some token else none)
    (hdrop : checked = client → (self.client checked).status = .disconnect →
      (∃ packet, token = .waiting packet) ∨ token = .connect ∧ allowed.dropConnect) :
    ClientStep allowed (self.view client) []
      ((checkStatus self worker checked next).view client) := by
  unfold checkStatus
  split
  · next hstatus =>
    refine endJob_clientStep allowed self worker checked client hworker rfl
      fun hclient rest hheld => ?_
    rcases hdrop hclient hstatus with ⟨packet, rfl⟩ | ⟨rfl, hallowed⟩
    · exact .dropProcess (self.view checked) rest packet hheld hstatus
    · exact .dropConnect (self.view checked) rest hheld hstatus hallowed
  · rw [self.view_setWorker_of_token_eq client worker (by rw [hnext, hworker])]
    exact .quiet _

/-- A worker exchanges its token `old` for `new`, for the client it works on. -/
theorem setWorker_clientStep (allowed : Allowed) (self : CDServer Client Packet W) (worker : W)
    (served client : Client) (old new : Option (Token Packet)) {next : CDWorker Client Packet}
    (emitted : List (ClientEvent Packet))
    (hworker : (self.workers worker).token client = if served = client then old else none)
    (hnext : next.token client = if served = client then new else none)
    (hmove : ∀ rest, (self.view served).held = rest + inHand old →
      ClientStep allowed (self.view served) emitted
        { self.view served with held := rest + inHand new }) :
    ClientStep allowed (self.view client) (if served = client then emitted else [])
      ((self.setWorker worker next).view client) := by
  obtain ⟨rest, hheld, hset⟩ := self.exists_rest_view client worker
  by_cases hclient : served = client
  · subst hclient
    rw [hset, hnext, if_pos rfl, if_pos rfl]
    rw [hworker, if_pos rfl] at hheld
    exact hmove rest hheld
  · rw [self.view_setWorker_of_token_eq client worker
      (by rw [hnext, hworker, if_neg hclient, if_neg hclient]), if_neg hclient]
    exact .quiet _

/-- Popping the queue moves the popped job's token to the worker. -/
theorem pop_clientStep (allowed : Allowed) (self : CDServer Client Packet W) (worker : W)
    {job : CDJob Client Packet} {rest : List (CDJob Client Packet)}
    (hready : self.workers worker = .ready) (hjobs : self.jobs = job :: rest) (client : Client) :
    ClientStep allowed (self.view client) []
      (({ self with jobs := rest }.setWorker worker (.holding job)).view client) := by
  obtain ⟨others, hheld, hset⟩ := self.exists_rest_view client worker
  rw [hready, CDWorker.token, inHand_none, add_zero] at hheld
  have hview : ({ self with jobs := rest }.setWorker worker (.holding job)).view client =
      { self.view client with
        queue := rest.filterMap (CDJob.token client)
        held := (self.view client).held + inHand (job.token client) } := by
    have hpopped : ({ self with jobs := rest }.setWorker worker (.holding job)).view client =
        { (self.setWorker worker (.holding job)).view client with
          queue := rest.filterMap (CDJob.token client) } := rfl
    rw [hpopped, hset, hheld]
    rfl
  have hqueue : (self.view client).queue =
      (job.token client).toList ++ rest.filterMap (CDJob.token client) := by
    simp only [CDServer.view, hjobs, List.filterMap_cons]
    cases job.token client <;> rfl
  rw [hview]
  cases htoken : job.token client with
  | none =>
      rw [htoken] at hqueue
      rw [inHand_none, add_zero, show rest.filterMap (CDJob.token client) = (self.view client).queue
        from hqueue.symm]
      exact .quiet _
  | some token =>
      rw [htoken] at hqueue
      exact .pop _ token _ hqueue

omit [DecidableEq W] [Fintype W] in
theorem filterMap_about (served : Client) {client : Client} {emitted : Event Client Packet}
    (event : ClientEvent Packet)
    (habout : emitted.about client = if served = client then some event else none) :
    [emitted].filterMap (Event.about client) = if served = client then [event] else [] := by
  split at habout <;> simp [*]

private theorem runWorker_clientStep (allowed : Allowed) (protocol : Option (CDProtocol Packet))
    (self : CDServer Client Packet W) (worker : W) {next : CDServer Client Packet W}
    {emitted : List (Event Client Packet)} (client : Client)
    (hdrop : self.workers worker = .holding (.clientConnect client) →
      (self.client client).status = .disconnect → allowed.dropConnect)
    (hrun : runWorker protocol self worker = some (next, emitted)) :
    ClientStep allowed (self.view client) (emitted.filterMap (Event.about client))
      (next.view client) := by
  unfold runWorker at hrun
  cases hworker : self.workers worker with
  | ready =>
      simp only [hworker] at hrun
      cases hjobs : self.jobs with
      | nil =>
          obtain ⟨rfl, rfl⟩ := by simpa [hjobs] using hrun
          exact .quiet _
      | cons job rest =>
          obtain ⟨rfl, rfl⟩ := by simpa [hjobs] using hrun
          exact pop_clientStep allowed self worker hworker hjobs client
  | holding job =>
      cases job with
      | custom =>
          obtain ⟨rfl, rfl⟩ := by simpa [hworker] using hrun
          rw [self.view_setWorker_of_token_eq client worker (by rw [hworker]; rfl)]
          exact .quiet _
      | clientConnect served =>
          obtain ⟨rfl, rfl⟩ := by simpa [hworker] using hrun
          exact checkStatus_clientStep allowed self worker served client .connect
            (by rw [hworker]; rfl) rfl
            (fun hserved hstatus => .inr ⟨rfl, hdrop (hserved ▸ hworker) (hserved ▸ hstatus)⟩)
      | clientProcess served packet =>
          obtain ⟨rfl, rfl⟩ := by simpa [hworker] using hrun
          exact checkStatus_clientStep allowed self worker served client (.waiting packet)
            (by rw [hworker]; rfl) rfl (fun _ _ => .inl ⟨packet, rfl⟩)
      | clientDisconnect served =>
          obtain ⟨rfl, rfl⟩ := by simpa [hworker] using hrun
          rw [self.view_setWorker_of_token_eq client worker (by rw [hworker]; rfl)]
          exact .quiet _
  | connecting served =>
      obtain ⟨rfl, rfl⟩ := by simpa [hworker] using hrun
      rw [self.view_setWorker_of_token_eq client worker (by rw [hworker]; rfl)]
      exact .quiet _
  | connected served =>
      obtain ⟨rfl, rfl⟩ := by simpa [hworker] using hrun
      exact endJob_clientStep allowed self worker served client (by rw [hworker]; rfl) rfl
        (fun _ rest hheld => .settle (self.view served) rest hheld)
  | processing served packet =>
      obtain ⟨rfl, rfl⟩ := by simpa [hworker] using hrun
      rw [filterMap_about served (.process packet) rfl]
      exact setWorker_clientStep allowed self worker served client
        (some (.waiting packet)) (some .running) [.process packet] (by rw [hworker]; rfl) rfl
        (fun rest hheld => .dispatch (self.view served) rest packet hheld)
  | processed served packet =>
      obtain ⟨rfl, rfl⟩ := by simpa [hworker] using hrun
      exact endJob_clientStep allowed self worker served client (by rw [hworker]; rfl) rfl
        (fun _ rest hheld => .finish (self.view served) rest hheld)
  | rechecking served =>
      simp only [hworker] at hrun
      split at hrun <;> obtain ⟨rfl, rfl⟩ := by simpa using hrun
      all_goals
        rw [self.view_setWorker_of_token_eq client worker (by rw [hworker]; rfl)]
        exact .quiet _
  | reading served =>
      -- the job came to its end before; what is left is a read callback
      simp only [hworker] at hrun
      have hread := readCallback_clientStep allowed protocol _ served hrun client
      rwa [self.view_setWorker_of_token_eq client worker (by rw [hworker]; rfl)] at hread
  | waiting served =>
      simp only [hworker] at hrun
      split at hrun <;> obtain ⟨rfl, rfl⟩ := by simpa using hrun
      · rw [self.view_setWorker_of_token_eq client worker (by rw [hworker]; rfl)]
        exact .quiet _
      · exact .quiet _
  | disconnecting served =>
      obtain ⟨rfl, rfl⟩ := by simpa [hworker] using hrun
      rw [filterMap_about served .disconnect rfl]
      exact setWorker_clientStep allowed self worker served client
        (some .pending) (some .listing) [.disconnect] (by rw [hworker]; rfl) rfl
        (fun rest hheld => .disconnect (self.view served) rest hheld)
  | listing served =>
      obtain ⟨rfl, rfl⟩ := by simpa [hworker] using hrun
      obtain ⟨rest, hheld, hset⟩ := self.exists_rest_view client worker
      have hview : ({ self with disconnecting := self.disconnecting ++ [served] }.setWorker worker
          (.flushing served)).view client =
            { (self.setWorker worker (.flushing served)).view client with
              listed := client ∈ self.disconnecting ++ [served] } := rfl
      rw [hview, hset]
      rw [hworker] at hheld
      -- `server->disconnecting` grows for the others too, and their views do not see it
      by_cases hclient : served = client
      · subst hclient
        simpa [CDWorker.token] using
          ClientStep.list (self.view served) rest (by simpa [CDWorker.token] using hheld)
      · have hrest : rest = (self.view client).held := by
          simpa [CDWorker.token, hclient] using hheld.symm
        have hlisted : (client ∈ self.disconnecting ∨ client = served) =
            (self.view client).listed := by
          simp [Ne.symm hclient, CDServer.view]
        simpa [CDWorker.token, hclient, hrest, hlisted] using
          ClientStep.quiet (self.view client)
  | flushing served =>
      obtain ⟨rfl, rfl⟩ := by simpa [hworker] using hrun
      have hmove : ∀ rest, (self.view served).held = rest + {.flushing} →
          ClientStep allowed (self.view served) []
            { self.view served with held := rest + 0 } := fun rest hheld => by
        simpa using ClientStep.flush (self.view served) rest hheld
      simpa using setWorker_clientStep allowed self worker served client (some .flushing)
        none [] (by rw [hworker]; rfl) (by simp [CDWorker.token]) hmove

omit [DecidableEq W] [Fintype W] in
/-- The loop of `CD_ServerCleanDisconnects` destroys the listed clients that are
still on `server->clients`, each once, and changes nothing else. -/
theorem destroyListed_spec (self : CDServer Client Packet W) (listed : List Client)
    (hnodup : self.clients.Nodup) (client : Client) :
    let result := destroyListed self listed
    result.1.clients.Nodup ∧ result.1.client = self.client ∧
      result.1.disconnecting = self.disconnecting ∧ result.1.jobs = self.jobs ∧
      result.1.workers = self.workers ∧
      (if client ∈ listed ∧ client ∈ self.clients then
        result.1.lifetime client = .destroyed ∧
          result.2.filterMap (Event.about client) = [.destroy]
      else
        result.1.lifetime client = self.lifetime client ∧
          result.2.filterMap (Event.about client) = []) := by
  induction listed generalizing self with
  | nil => simp [destroyListed, hnodup]
  | cons head rest ih =>
      unfold destroyListed
      split
      · next hhead =>
        have hnext := ih { self with
          clients := self.clients.erase head
          lifetime := Function.update self.lifetime head .destroyed } (hnodup.erase head)
        obtain ⟨hclients, hclient, hdisconnecting, hjobs, hworkers, hrest⟩ := hnext
        refine ⟨hclients, hclient, hdisconnecting, hjobs, hworkers, ?_⟩
        by_cases heq : head = client
        · subst heq
          have hgone : head ∉ self.clients.erase head := hnodup.not_mem_erase
          simp_all [Event.about]
        · have hmem : client ∈ self.clients.erase head ↔ client ∈ self.clients :=
            List.mem_erase_of_ne (Ne.symm heq)
          simp_all [Event.about, Ne.symm heq]
      · next hhead =>
        obtain ⟨hclients, hclient, hdisconnecting, hjobs, hworkers, hrest⟩ := ih self hnodup
        refine ⟨hclients, hclient, hdisconnecting, hjobs, hworkers, ?_⟩
        by_cases heq : head = client
        · subst heq
          simpa [hhead] using hrest
        · simpa [Ne.symm heq] using hrest

/-- Only a worker that has yet to end its disconnect job holds a flushing token. -/
theorem eq_flushing_of_token {worker : CDWorker Client Packet} {client : Client}
    (htoken : worker.token client = some .flushing) : worker = .flushing client := by
  cases worker with
  | holding job => cases job <;> simp [CDWorker.token, CDJob.token] at htoken
  | _ => simp_all [CDWorker.token]

omit [DecidableEq W] in
private theorem cleanDisconnects_clientStep (allowed : Allowed) (self : CDServer Client Packet W)
    (hnodup : self.clients.Nodup) (client : Client)
    (hearly : client ∈ self.disconnecting → ∀ worker,
      self.workers worker = .flushing client → allowed.destroyEarly) :
    ClientStep allowed (self.view client)
      ((cleanDisconnects self).2.filterMap (Event.about client))
      ((cleanDisconnects self).1.view client) := by
  obtain ⟨-, hclient, hdisconnecting, hjobs, hworkers, hrest⟩ :=
    destroyListed_spec self self.disconnecting hnodup client
  have hview : (cleanDisconnects self).1.view client =
      { self.view client with
        lifetime := (destroyListed self self.disconnecting).1.lifetime client } := by
    simp only [cleanDisconnects, CDServer.view, CDServer.held, hclient, hdisconnecting, hjobs,
      hworkers]
  rw [hview]
  split at hrest
  · next hlisted =>
    rw [hrest.1, cleanDisconnects, hrest.2]
    refine .destroy (self.view client) hlisted.1 ?_
    by_cases hflushing : Token.flushing ∈ self.held client
    · obtain ⟨worker, hworker⟩ := CDServer.mem_held.mp hflushing
      exact .inl (hearly hlisted.1 worker (eq_flushing_of_token hworker))
    · exact .inr hflushing
  · rw [hrest.1, cleanDisconnects, hrest.2]
    exact .quiet (self.view client)

/-! ## The refinement -/

/-- `server->clients` holds each client at most once, and none that was never
accepted. -/
def ClientsListed (self : CDServer Client Packet W) : Prop :=
  self.clients.Nodup ∧ ∀ client ∈ self.clients, self.lifetime client ≠ .fresh

/-- **The server refines the token game**: one step of the server is one step of
each of its clients, with the events about that client. -/
theorem step_clientStep {allowed : Allowed} {protocol : Option (CDProtocol Packet)}
    {self next : CDServer Client Packet W} {action : Action Client W}
    {emitted : List (Event Client Packet)} {client : Client} (hlisted : ClientsListed self)
    (hpermits : allowed.Permits client self action)
    (hstep : step protocol self action = some (next, emitted)) :
    ClientStep allowed (self.view client) (emitted.filterMap (Event.about client))
      (next.view client) := by
  obtain ⟨hdrop, hrepeat, hearly⟩ := hpermits
  cases action with
  | accept accepted =>
      obtain ⟨hfresh, rfl, rfl⟩ := by simpa [step] using hstep
      by_cases hclient : accepted = client
      · subst hclient
        have hview : (accept self accepted).view accepted =
            { self.view accepted with
              lifetime := .live
              status := .connect
              jobs := 0
              queue := (self.view accepted).queue ++ [.connect] } := by
          rw [accept, CDServer.view_addJob]
          simp [CDServer.view, CDServer.setClient, createClient, CDServer.held, CDJob.token]
        rw [hview]
        exact .accept (self.view accepted) hfresh
      -- to the others nothing happens, with the new job at the end of the queue
      · have hview : (accept self accepted).view client = self.view client := by
          rw [accept, CDServer.view_addJob]
          simp [CDServer.view, CDServer.setClient, CDServer.held, CDJob.token, hclient,
            Function.update_of_ne (Ne.symm hclient)]
        rw [hview]
        exact .quiet _
  | receive receiver bytes =>
      obtain ⟨hlive, rfl, rfl⟩ := by simpa [step] using hstep
      by_cases hclient : receiver = client
      · subst hclient
        rw [CDServer.view_setClient_self]
        exact .quiet _
      · rw [CDServer.view_setClient_of_ne _ hclient]
        exact .quiet _
  | read reader =>
      obtain ⟨hlive, hread⟩ := by simpa [step] using hstep
      exact readCallback_clientStep allowed protocol self reader hread client
  | error failed error =>
      obtain ⟨hlive, herror⟩ := by simpa [step] using hstep
      have hcallback := errorCallback_clientStep allowed self failed error hlive client
        (fun hfailed herror hstatus => hrepeat ⟨hfailed, herror, hfailed ▸ hstatus⟩)
      rwa [herror] at hcallback
  | kick kicked =>
      obtain ⟨hknown, hkick⟩ := by simpa [step] using hstep
      have hcallback := serverKick_clientStep allowed self kicked (.inl hknown) client
      rwa [hkick] at hcallback
  | work worker =>
      exact runWorker_clientStep allowed protocol self worker client
        (fun hworker hstatus => hdrop ⟨worker, rfl, hworker, hstatus⟩) hstep
  | cleanDisconnects =>
      obtain ⟨-, hclean⟩ := by simpa [step] using hstep
      have hcleaned := cleanDisconnects_clientStep allowed self hlisted.1 client
        (fun hmem worker hworker => hearly ⟨rfl, hmem, worker, hworker⟩)
      rwa [hclean] at hcleaned
  | clearDisconnecting =>
      obtain ⟨-, rfl, rfl⟩ := by simpa [step] using hstep
      -- nobody is listed any more
      have hview : ({ self with disconnecting := [], cleaning := false } :
          CDServer Client Packet W).view client = { self.view client with listed := False } := by
        simp only [CDServer.view, List.not_mem_nil]
        rfl
      rw [hview]
      exact .unlist (self.view client)

/-! ## The clients of the server -/

theorem step_clientsListed {protocol : Option (CDProtocol Packet)}
    {self next : CDServer Client Packet W} {action : Action Client W}
    {emitted : List (Event Client Packet)} (hlisted : ClientsListed self)
    (hstep : step protocol self action = some (next, emitted)) : ClientsListed next := by
  have hfresh : ∀ client, self.lifetime client ≠ .fresh → next.lifetime client ≠ .fresh := by
    intro client hclient
    have hclientStep := step_clientStep hlisted (permits_all client self action) hstep
    exact hclientStep.lifetime_ne_fresh hclient
  obtain ⟨hnodup, hknown⟩ := hlisted
  -- nobody but the accept loop puts a client on the list
  have hsublist : next.clients.Sublist self.clients → ClientsListed next := fun hsublist =>
    ⟨hnodup.sublist hsublist, fun client hmem =>
      hfresh client (hknown client (hsublist.subset hmem))⟩
  have hsame : next.clients = self.clients → ClientsListed next := fun hclients =>
    hsublist (hclients ▸ List.Sublist.refl _)
  rcases step_registry hstep with hregistry | ⟨accepted, haccepted, hregistry⟩ |
    ⟨worker, client, -, -, hregistry⟩ | ⟨-, rfl⟩ | ⟨-, hregistry⟩
  · exact hsame (congrArg Registry.clients hregistry)
  · have hclients : next.clients = self.clients ++ [accepted] :=
      congrArg Registry.clients hregistry
    have hlifetime : next.lifetime = Function.update self.lifetime accepted .live :=
      congrArg Registry.lifetime hregistry
    have hnew : accepted ∉ self.clients := fun hmem => hknown accepted hmem haccepted
    refine ⟨?_, fun client hmem => ?_⟩
    · rw [hclients]
      exact hnodup.append (List.nodup_singleton _) (by simpa using hnew)
    · rw [hclients, List.mem_append, List.mem_singleton] at hmem
      rcases hmem with hold | rfl
      · exact hfresh client (hknown client hold)
      · rw [hlifetime, Function.update_self]
        decide
  · exact hsame (congrArg Registry.clients hregistry)
  · exact hsublist (destroyListed_clients self self.disconnecting)
  · exact hsame (congrArg Registry.clients hregistry)

theorem run_clientsListed {protocol : Option (CDProtocol Packet)}
    {guard : CDServer Client Packet W → Action Client W → Prop}
    {events : List (Event Client Packet)} {state : CDServer Client Packet W}
    (hrun : (system protocol).Run guard events state) : ClientsListed state :=
  System.Run.invariant (S := system protocol) (I := fun _ state => ClientsListed state)
    ⟨List.nodup_nil, fun client hmem => by simp [system, createServer] at hmem⟩
    (fun _ _ _ _ _ hlisted _ hnext => step_clientsListed hlisted hnext) hrun

/-- **Invariant rule for one client.**  What holds of a client before it is
accepted and is kept by the steps of the token game holds of that client in
every run of the server. -/
theorem run_invariant (allowed : Allowed) (client : Client)
    (I : List (ClientEvent Packet) → ClientView Packet → Prop)
    {protocol : Option (CDProtocol Packet)}
    {guard : CDServer Client Packet W → Action Client W → Prop}
    (hguard : ∀ self action, guard self action → allowed.Permits client self action)
    (hinit : I [] .initial)
    (hstep : ∀ history v emitted v', I history v → ClientStep allowed v emitted v' →
      I (history ++ emitted) v')
    {events : List (Event Client Packet)} {state : CDServer Client Packet W}
    (hrun : (system protocol).Run guard events state) :
    I (events.filterMap (Event.about client)) (state.view client) := by
  induction hrun with
  | start =>
      have hview : (createServer : CDServer Client Packet W).view client = .initial := by
        simp [CDServer.view, createServer, createClient, CDServer.held, CDWorker.token,
          ClientView.initial]
      simpa [system, hview] using hinit
  | step hprefix hguarded hnext ih =>
      rw [List.filterMap_append]
      exact hstep _ _ _ _ ih
        (step_clientStep (run_clientsListed hprefix) (hguard _ _ hguarded) hnext)

/-- What every step of the token game keeps of one client, the server keeps from
any state on. -/
theorem leads_invariant (client : Client) (P : ClientView Packet → Prop)
    {protocol : Option (CDProtocol Packet)}
    (hstep : ∀ v emitted v', P v → ClientStep .all v emitted v' → P v')
    {state last : CDServer Client Packet W} (hlisted : ClientsListed state)
    (hleads : (system protocol).Leads state last) (hP : P (state.view client)) :
    P (last.view client) := by
  refine (System.Leads.keeps (S := system protocol)
    (P := fun state => ClientsListed state ∧ P (state.view client)) ?_ hleads ⟨hlisted, hP⟩).2
  rintro state next ⟨hlisted, hP⟩ ⟨action, emitted, hnext⟩
  exact ⟨step_clientsListed hlisted hnext,
    hstep _ _ _ hP (step_clientStep hlisted (permits_all client state action) hnext)⟩

end Craftd.Server
