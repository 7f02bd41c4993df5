import Craftd.Server.PacketOrder

/-!
# The jobs counter

`client->jobs` counts the process jobs of the client that were added and not yet
finished or discarded, as long as no worker discards a connect job: the discard
path of `CD_RunWorker` lowers the counter for every kind of job, but only
`cd_ReadCallback` raised it.  A connect job that is discarded takes the counter
from 0 to 255, and the client's disconnect job waits for ever.

That the wait can end rests on the order of the queue: no process job is queued
behind a disconnect job, so a worker that waits has every process job of its
client in front of it, in another worker's hands.
-/

namespace Craftd.Server

open StepSystem

variable {Packet : Type*}

/-- The invariant behind the counter. -/
structure JobsCounter (v : ClientView Packet) : Prop where
  exact : v.jobs.toNat = countTokens Token.isProcess v.tokens
  stopped : .pending ∈ v.tokens → v.status = .disconnect
  behind : v.queue.Pairwise fun token later => token = .pending → later.isProcess = false
  taken : .pending ∈ v.held → ∀ token ∈ v.queue, token.isProcess = false

private theorem initial_jobsCounter : JobsCounter (.initial : ClientView Packet) where
  exact := rfl
  stopped := by simp [ClientView.initial, ClientView.tokens]
  behind := .nil
  taken := by simp [ClientView.initial]

theorem toNat_sub_one {jobs : BitVec 8} {count : ℕ} (hjobs : jobs.toNat = count + 1) :
    (jobs - 1).toNat = count := by
  have hone : (1 : BitVec 8).toNat = 1 := rfl
  have hlt := jobs.isLt
  rw [BitVec.toNat_sub, hone]
  omega

private theorem toNat_add_one {jobs : BitVec 8} (hjobs : jobs.toNat = 0) :
    (jobs + 1).toNat = 1 := by
  rw [BitVec.toNat_add, hjobs]
  rfl

namespace JobsCounter

variable {v v' : ClientView Packet} {rest : Multiset (Token Packet)} {token : Token Packet}

/-- One token in a worker's hands counted apart. -/
theorem count_of_held (hcounter : JobsCounter v) (hheld : v.held = rest + {token}) :
    v.jobs.toNat = countTokens Token.isProcess ((v.queue : Multiset (Token Packet)) + rest) +
      token.isProcess.toNat := by
  rw [hcounter.exact, ClientView.countTokens_of_held hheld]

/-- A job is queued; a disconnect job stops the client, a process job finds none
queued or held. -/
theorem enqueue (hcounter : JobsCounter v) (hqueue : v'.queue = v.queue ++ [token])
    (hheld : v'.held = v.held)
    (hjobs : v'.jobs.toNat = countTokens Token.isProcess v.tokens + token.isProcess.toNat)
    (hstatus : .pending ∈ v.tokens ∨ token = .pending → v'.status = .disconnect)
    (hprocess : .pending ∈ v.tokens → token.isProcess = false) : JobsCounter v' where
  exact := by
    rw [hjobs, ClientView.tokens_of_append hqueue hheld, countTokens_add _ {_},
      countTokens_singleton]
  stopped := fun hmem => hstatus (by
    rw [ClientView.tokens_of_append hqueue hheld, Multiset.mem_add, Multiset.mem_singleton] at hmem
    exact hmem.imp_right Eq.symm)
  behind := by
    rw [hqueue, List.pairwise_append]
    refine ⟨hcounter.behind, List.pairwise_singleton _ _, fun earlier hearlier later hlater => ?_⟩
    rintro rfl
    rw [List.mem_singleton.mp hlater]
    exact hprocess (Multiset.mem_add.mpr (.inl hearlier))
  taken := fun hmem other hother => by
    rw [hheld] at hmem
    rw [hqueue, List.mem_append, List.mem_singleton] at hother
    rcases hother with hold | rfl
    · exact hcounter.taken hmem other hold
    · exact hprocess (Multiset.mem_add.mpr (.inr hmem))

/-- A token in a worker's hands is exchanged for tokens that are no disconnect
job waiting to be dispatched. -/
theorem exchange (hcounter : JobsCounter v) {new : Multiset (Token Packet)}
    (hheld : v.held = rest + {token}) (hheld' : v'.held = rest + new)
    (hqueue : v'.queue = v.queue) (hnew : .pending ∉ new)
    (hjobs : v'.jobs.toNat = countTokens Token.isProcess v'.tokens)
    (hstatus : v.status = .disconnect → v'.status = .disconnect) : JobsCounter v' := by
  have hpending : .pending ∈ v'.held → .pending ∈ v.held := fun hmem => by
    rw [hheld', Multiset.mem_add] at hmem
    rw [hheld]
    exact Multiset.mem_add.mpr (.inl (hmem.resolve_right hnew))
  refine ⟨hjobs, fun hmem => hstatus (hcounter.stopped ?_), hqueue ▸ hcounter.behind,
    fun hmem => hqueue ▸ hcounter.taken (hpending hmem)⟩
  rw [ClientView.tokens, hqueue, Multiset.mem_add] at hmem
  exact Multiset.mem_add.mpr (hmem.imp_right hpending)

end JobsCounter

/-- **One step keeps the counter**, unless it discards a connect job. -/
theorem step_jobsCounter {allowed : Allowed} (hdrop : ¬allowed.dropConnect)
    {history emitted : List (ClientEvent Packet)} {v v' : ClientView Packet} {tail : List Packet}
    (horder : PacketOrder history v tail) (hcounter : JobsCounter v)
    (hstep : ClientStep allowed v emitted v') : JobsCounter v' := by
  cases hstep with
  | quiet => exact hcounter
  | accept hfresh =>
      have hcard := congrArg Multiset.card (horder.fresh hfresh).2
      obtain ⟨hqueue, hheld⟩ : v.queue = [] ∧ v.held = 0 := by simpa [ClientView.tokens] using hcard
      constructor <;> simp [ClientView.tokens, hqueue, hheld]
  | parse packet hidle =>
      have hallows := horder.allows
      simp only [hidle, StatusAllows] at hallows
      -- an idle client has no disconnect job, so nothing is behind one
      have hnone : .pending ∉ v.tokens := fun hmem => by
        simpa [hidle] using hcounter.stopped hmem
      have hcount : v.jobs.toNat = 0 := hcounter.exact.trans hallows.2
      refine hcounter.enqueue rfl rfl ?_ (fun hmem => ?_) (fun hmem => absurd hmem hnone)
      · rw [hallows.2]
        exact toNat_add_one hcount
      · simp [hnone] at hmem
  | hangUp hknown hrepeat =>
      exact hcounter.enqueue rfl rfl hcounter.exact (fun _ => rfl) (fun _ => rfl)
  | pop token rest hqueue =>
      have hbehind := hqueue ▸ hcounter.behind
      obtain ⟨hhead, htail⟩ := List.pairwise_cons.mp hbehind
      have htokens : ClientView.tokens { v with queue := rest, held := v.held + {token} } =
          v.tokens := ClientView.tokens_of_pop hqueue rfl rfl
      refine ⟨htokens ▸ hcounter.exact, htokens ▸ hcounter.stopped, htail,
        fun hmem later hlater => ?_⟩
      -- a disconnect job in hand was there before, or it is the one popped now
      rcases Multiset.mem_add.mp hmem with hheld | hpopped
      · exact hcounter.taken hheld later (hqueue ▸ List.mem_cons_of_mem _ hlater)
      · exact hhead later hlater (Multiset.mem_singleton.mp hpopped).symm
  | dropConnect rest hheld hstatus hallowed => exact absurd hallowed hdrop
  | dropProcess rest packet hheld hstatus =>
      have hcount := hcounter.count_of_held hheld
      exact hcounter.exchange hheld (add_zero _).symm rfl (Multiset.notMem_zero _)
        (toNat_sub_one hcount) (fun _ => hstatus)
  | settle rest hheld =>
      have hcount := hcounter.count_of_held hheld
      exact hcounter.exchange hheld (add_zero _).symm rfl (Multiset.notMem_zero _) hcount
        (fun hstatus => by simp [hstatus])
  | dispatch rest packet hheld =>
      have hcount := hcounter.count_of_held hheld
      refine hcounter.exchange hheld rfl rfl (by simp) ?_ id
      simpa [ClientView.tokens, add_assoc] using hcount
  | finish rest hheld =>
      have hcount := hcounter.count_of_held hheld
      exact hcounter.exchange hheld (add_zero _).symm rfl (Multiset.notMem_zero _)
        (toNat_sub_one hcount) (fun hstatus => by simp [hstatus])
  | disconnect rest hheld =>
      have hcount := hcounter.count_of_held hheld
      refine hcounter.exchange hheld rfl rfl (by simp) ?_ id
      simpa [ClientView.tokens, add_assoc] using hcount
  | list rest hheld =>
      have hcount := hcounter.count_of_held hheld
      refine hcounter.exchange hheld rfl rfl (by simp) ?_ id
      simpa [ClientView.tokens, add_assoc] using hcount
  | flush rest hheld =>
      have hcount := hcounter.count_of_held hheld
      exact hcounter.exchange hheld (add_zero _).symm rfl (Multiset.notMem_zero _) hcount id
  | destroy hlisted hearly =>
      exact { hcounter with }
  | unlist => exact { hcounter with }

/-! ## The server -/

variable {Client W : Type*} [DecidableEq Client] [DecidableEq W] [Fintype W]

/-- No worker discards a connect job of the client. -/
def KeepsConnectJobs (client : Client) (self : CDServer Client Packet W)
    (action : Action Client W) : Prop :=
  ¬DropsConnectJob self action client

private theorem run_jobsCounter {protocol : Option (CDProtocol Packet)} {client : Client}
    {events : List (Event Client Packet)} {state : CDServer Client Packet W}
    (hrun : (system protocol).Run (KeepsConnectJobs client) events state) :
    JobsCounter (state.view client) := by
  refine (run_ordered ⟨False, True, True⟩ client (fun _ v => JobsCounter v)
    (fun _ _ hkeeps => ⟨hkeeps, fun _ => trivial, fun _ => trivial⟩) initial_jobsCounter ?_ hrun).2
  intro history v emitted v' tail horder hcounter hstep
  exact step_jobsCounter (fun h => h) horder hcounter hstep

omit [Fintype W] in
/-- A worker with a process job of a disconnected client can finish it, and that
lowers the counter by one. -/
theorem exists_finished (protocol : Option (CDProtocol Packet)) {self : CDServer Client Packet W}
    {client : Client} {worker : W} {token : Token Packet}
    (htoken : (self.workers worker).token client = some token) (hprocess : token.isProcess)
    (hstatus : (self.client client).status = .disconnect) :
    ∃ last, (system protocol).Leads self last ∧
      (∀ other, other ≠ worker → last.workers other = self.workers other) ∧
      (last.client client).jobs = (self.client client).jobs - 1 := by
  -- whichever section of the job the worker is in, the last one counts down
  have hlast : ∀ (self : CDServer Client Packet W) packet,
      self.workers worker = .processed client packet →
      ∃ last, (system protocol).Moves self last ∧
        (∀ other, other ≠ worker → last.workers other = self.workers other) ∧
        (last.client client).jobs = (self.client client).jobs - 1 := by
    intro self packet hworker
    refine ⟨_, ⟨.work worker, [], by simp only [system, step, runWorker, hworker]; rfl⟩, ?_, ?_⟩
    · exact fun other hother => Function.update_of_ne hother _ _
    · simp [CDServer.setWorker, CDServer.setClient]
  cases hworker : self.workers worker with
  | holding job =>
      cases job with
      | clientProcess served packet =>
          obtain rfl : served = client := by
            by_contra hserved
            simp [hworker, CDWorker.token, CDJob.token, hserved] at htoken
          refine ⟨_, .single ⟨.work worker, [], by
            simp only [system, step, runWorker, hworker, checkStatus, hstatus]; rfl⟩, ?_, ?_⟩
          · exact fun other hother => Function.update_of_ne hother _ _
          · simp [CDServer.setWorker, CDServer.setClient]
      | _ =>
          simp [hworker, CDWorker.token, CDJob.token] at htoken <;>
          (obtain ⟨-, rfl⟩ := htoken; simp at hprocess)
  | processing served packet =>
      obtain rfl : served = client := by
        by_contra hserved
        simp [hworker, CDWorker.token, hserved] at htoken
      have hdispatch : (system protocol).Moves self
          (self.setWorker worker (.processed served packet)) :=
        ⟨.work worker, [.process served packet], by simp only [system, step, runWorker, hworker]⟩
      obtain ⟨last, hmoves, hothers, hjobs⟩ :=
        hlast (self.setWorker worker (.processed served packet)) packet
          (Function.update_self _ _ _)
      refine ⟨last, .tail (.single hdispatch) hmoves, fun other hother => ?_, hjobs⟩
      exact (hothers other hother).trans (Function.update_of_ne hother _ _)
  | processed served packet =>
      obtain rfl : served = client := by
        by_contra hserved
        simp [hworker, CDWorker.token, hserved] at htoken
      obtain ⟨last, hmoves, hrest⟩ := hlast self packet hworker
      exact ⟨last, .single hmoves, hrest⟩
  | _ =>
      simp [hworker, CDWorker.token] at htoken <;>
      (obtain ⟨-, rfl⟩ := htoken; simp at hprocess)

/-- The counter of one client is right in one state: it is the number of process jobs,
and a worker that waits for it can see it reach zero. -/
def JobsExact (protocol : Option (CDProtocol Packet)) (self : CDServer Client Packet W)
    (client : Client) : Prop :=
  (self.client client).jobs.toNat = self.processJobs client ∧
    ∀ worker, self.workers worker = .waiting client →
      ∃ last, (system protocol).Leads self last ∧ last.workers worker = .waiting client ∧
        (last.client client).jobs = 0

/-- **The jobs counter is exact** in every run in which no worker finds the
client of a connect job disconnected. -/
theorem jobs_counter_exact (protocol : Option (CDProtocol Packet)) {client : Client}
    {events : List (Event Client Packet)} {state : CDServer Client Packet W}
    (hrun : (system protocol).Run (KeepsConnectJobs client) events state) :
    JobsExact protocol state client := by
  have hcounter := run_jobsCounter hrun
  obtain ⟨tail, horder⟩ := run_packetOrder hrun client
  refine ⟨hcounter.exact.trans (processJobs_view state client), fun worker hworker => ?_⟩
  have hpending : .pending ∈ (state.view client).held :=
    CDServer.mem_held.mpr ⟨worker, by rw [hworker, CDWorker.token, if_pos rfl]⟩
  have hstatus : (state.client client).status = .disconnect :=
    hcounter.stopped (Multiset.mem_add.mpr (.inr hpending))
  have hle := horder.allows.processes_le
  rw [← hcounter.exact] at hle
  by_cases hjobs : (state.client client).jobs = 0
  · exact ⟨state, .refl, hworker, hjobs⟩
  -- One process job is left.  It is not behind the disconnect job in the queue,
  -- so another worker has it in hand.
  have hone : (state.client client).jobs = 1 := by
    refine BitVec.eq_of_toNat_eq (Nat.le_antisymm hle (Nat.pos_of_ne_zero fun hzero => ?_))
    exact hjobs (BitVec.eq_of_toNat_eq hzero)
  have hpos : 0 < countTokens Token.isProcess (state.view client).tokens := by
    rw [← hcounter.exact, show (state.view client).jobs = 1 from hone]
    decide
  obtain ⟨token, htoken, hprocess⟩ := Multiset.countP_pos.mp hpos
  rcases Multiset.mem_add.mp htoken with hqueued | hheld
  · exact absurd ((hcounter.taken hpending token hqueued).symm.trans hprocess) (by simp)
  obtain ⟨other, hother⟩ := CDServer.mem_held.mp hheld
  have hne : worker ≠ other := by
    rintro rfl
    rw [hworker, CDWorker.token, if_pos rfl, Option.some.injEq] at hother
    simp [← hother] at hprocess
  obtain ⟨last, hleads, hothers, hlast⟩ :=
    exists_finished protocol hother hprocess hstatus
  refine ⟨last, hleads, (hothers worker hne).trans hworker, ?_⟩
  rw [hlast, hone]
  rfl

instance (client : Client) (self : CDServer Client Packet W) (action : Action Client W)
    [DecidableEq Packet] : Decidable (KeepsConnectJobs client self action) :=
  inferInstanceAs (Decidable ¬∃ _, _)

/-- A client kicked while its packet is processed: the disconnect job waits for
the process job. -/
def kickedWhileProcessing : List (Action ℕ (Fin 2)) :=
  [.accept 0, .work 0, .work 0, .work 0, .work 0, .receive 0 [7], .work 0, .work 0,
    .work 1, .work 1, .kick 0, .work 0, .work 0]

theorem jobs_counter_exact_kicked :
    ∃ state events, (system (some byteProtocol)).exec kickedWhileProcessing createServer =
        some (state, events) ∧
      state.workers 0 = .waiting 0 ∧ (state.client 0).jobs = 1 ∧
      JobsExact (some byteProtocol) state 0 := by
  have hplace : ((system (some byteProtocol)).exec kickedWhileProcessing createServer).map
      (fun result => (result.1.workers 0, (result.1.client 0).jobs)) = some (.waiting 0, 1) := by
    decide
  obtain ⟨⟨state, events⟩, hexec, hstate⟩ := Option.map_eq_some_iff.mp hplace
  obtain ⟨hworker, hjobs⟩ := Prod.mk.inj hstate
  exact ⟨state, events, hexec, hworker, hjobs, jobs_counter_exact (some byteProtocol)
    (System.Run.exec .start (by decide) hexec)⟩

/-! ## Where the counter wraps -/

/-- A disconnected client without connect or process jobs, its counter wrapped. -/
def Wrapped (v : ClientView Packet) : Prop :=
  v.status = .disconnect ∧ v.lifetime ≠ .fresh ∧ v.jobs = 255 ∧
    countTokens Token.isConnect v.tokens = 0 ∧ countTokens Token.isProcess v.tokens = 0

theorem Wrapped.exchange {v v' : ClientView Packet} (hwrapped : Wrapped v)
    {rest new : Multiset (Token Packet)} {token : Token Packet} (hheld : v.held = rest + {token})
    (hheld' : v'.held = rest + new) (hqueue : v'.queue = v.queue)
    (hnew : countTokens Token.isConnect new = 0 ∧ countTokens Token.isProcess new = 0)
    (hstatus : v'.status = .disconnect)
    (hlifetime : v'.lifetime = v.lifetime) (hjobs : v'.jobs = v.jobs) : Wrapped v' := by
  obtain ⟨-, hknown, hcount, hconnect, hprocess⟩ := hwrapped
  rw [ClientView.tokens_of_held hheld, countTokens_add _ {_}, Nat.add_eq_zero_iff] at hconnect
  rw [ClientView.tokens_of_held hheld, countTokens_add _ {_}, Nat.add_eq_zero_iff] at hprocess
  have htokens : v'.tokens = (v.queue + rest) + new := by
    rw [ClientView.tokens, hqueue, hheld', add_assoc]
  refine ⟨hstatus, hlifetime ▸ hknown, hjobs ▸ hcount, ?_, ?_⟩
  · rw [htokens, countTokens_add _ new, hconnect.1, hnew.1]
  · rw [htokens, countTokens_add _ new, hprocess.1, hnew.2]

/-- Nothing lowers or raises a wrapped counter any more. -/
theorem Wrapped.step {allowed : Allowed} {v v' : ClientView Packet}
    {emitted : List (ClientEvent Packet)} (hwrapped : Wrapped v)
    (hstep : ClientStep allowed v emitted v') : Wrapped v' := by
  obtain ⟨hstatus, hknown, hjobs, hconnect, hprocess⟩ := id hwrapped
  -- a wrapped client has no job left that could connect or process
  have hnoConnect : ∀ rest, v.held ≠ rest + {.connect} := fun rest hheld => by
    rw [ClientView.tokens_of_held hheld, countTokens_add _ {_}] at hconnect
    simp at hconnect
  have hnoProcess : ∀ rest token, token.isProcess → v.held ≠ rest + {token} :=
    fun rest token htoken hheld => by
      rw [ClientView.tokens_of_held hheld, countTokens_add _ {_}, countTokens_singleton,
        htoken] at hprocess
      simp at hprocess
  cases hstep with
  | quiet => exact hwrapped
  | accept hfresh => exact absurd hfresh hknown
  | parse packet hidle => simp [hstatus] at hidle
  | hangUp _ hrepeat =>
      have htokens : ClientView.tokens
          { v with status := .disconnect, queue := v.queue ++ [.pending] } =
          v.tokens + {.pending} := ClientView.tokens_of_append rfl rfl
      exact ⟨rfl, hknown, hjobs, by simpa [htokens] using hconnect,
        by simpa [htokens] using hprocess⟩
  | pop token rest hqueue =>
      have htokens : ClientView.tokens { v with queue := rest, held := v.held + {token} } =
          v.tokens := ClientView.tokens_of_pop hqueue rfl rfl
      exact ⟨hstatus, hknown, hjobs, htokens ▸ hconnect, htokens ▸ hprocess⟩
  | dropConnect rest hheld => exact absurd hheld (hnoConnect rest)
  | dropProcess rest packet hheld => exact absurd hheld (hnoProcess rest _ rfl)
  | settle rest hheld => exact absurd hheld (hnoConnect rest)
  | dispatch rest packet hheld => exact absurd hheld (hnoProcess rest _ rfl)
  | finish rest hheld => exact absurd hheld (hnoProcess rest _ rfl)
  | disconnect rest hheld =>
      exact hwrapped.exchange hheld rfl rfl (by simp) hstatus rfl rfl
  | list rest hheld => exact hwrapped.exchange hheld rfl rfl (by simp) hstatus rfl rfl
  | flush rest hheld =>
      exact hwrapped.exchange hheld (add_zero _).symm rfl (by simp) hstatus rfl rfl
  | destroy hlisted hearly => exact ⟨hstatus, nofun, hjobs, hconnect, hprocess⟩
  | unlist => exact hwrapped

/-- A client that hangs up before its connect job is picked up. -/
def hungUpBeforeConnect : List (Action ℕ (Fin 1)) :=
  [.accept 0, .error 0 bevEventEof, .work 0, .work 0, .work 0, .work 0]

/-- The counter goes from 0 to 255 with no process job ever added, and stays
there: the worker that waits for it to fall below one waits for ever. -/
theorem jobs_counter_wraps :
    ∃ state events, (system (some byteProtocol)).exec hungUpBeforeConnect createServer =
        some (state, events) ∧
      (state.client 0).jobs = 255 ∧ state.processJobs 0 = 0 ∧ state.workers 0 = .waiting 0 ∧
      (∀ last, (system (some byteProtocol)).Leads state last → (last.client 0).jobs = 255) ∧
      ¬JobsExact (some byteProtocol) state 0 := by
  have hplace : ((system (some byteProtocol)).exec hungUpBeforeConnect createServer).map
      (fun result => (result.1.workers 0, (result.1.client 0).jobs, (result.1.client 0).status,
        result.1.lifetime 0, result.1.jobs)) =
      some (.waiting 0, 255, .disconnect, .live, []) := by
    rfl
  obtain ⟨⟨state, events⟩, hexec, hstate⟩ := Option.map_eq_some_iff.mp hplace
  simp only [Prod.mk.injEq] at hstate
  obtain ⟨hworker, hjobs, hstatus, hlifetime, hqueue⟩ := hstate
  have hrun := System.Run.exec (S := system (some byteProtocol)) .start
    (System.execGuard_true _ _) hexec
  have hheld : state.held 0 = {.pending} := by
    simp [CDServer.held, hworker, CDWorker.token]
  have htokens : (state.view 0).tokens = {.pending} := by
    simp [ClientView.tokens, CDServer.view, hqueue, hheld]
  have hwrapped : Wrapped (state.view 0) :=
    ⟨hstatus, by simp [CDServer.view, hlifetime], hjobs, by simp [htokens], by simp [htokens]⟩
  have hnone : state.processJobs 0 = 0 := by
    rw [← processJobs_view, htokens]
    rfl
  refine ⟨state, events, hexec, hjobs, hnone, hworker, fun last hleads => ?_, fun hexact => ?_⟩
  · exact (leads_invariant 0 Wrapped (fun _ _ _ hv hstep => hv.step hstep)
      (run_clientsListed hrun) hleads hwrapped).2.2.1
  · have hcount := hexact.1
    rw [hjobs, hnone] at hcount
    exact absurd hcount (by decide)

end Craftd.Server
