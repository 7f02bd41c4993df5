import Craftd.Server.CleanDisconnects

/-!
# When is a client in use?

A disconnect job waits until `client->jobs` is 0, lists the client and flushes the
server; the main thread destroys what is listed.  The counter does not cover a connect
job, nor the look at the buffer with which a worker ends a connect or process job, and
the list does not cover the flush.  Where none of the three gaps is met, a client that
is destroyed has no job left, in the queue or in a worker's hands.
-/

namespace Craftd.Server

open StepSystem

variable {Packet : Type*}

/-! ## The last job of a client -/

/-- The tokens of a disconnect job. -/
@[simp] def Token.isDisconnect : Token Packet → Bool
  | .pending | .listing | .flushing => true
  | _ => false

/-- The invariant of the token game behind the lifetime: a disconnect job is the last one, and
a process job is counted. -/
structure LastJob (v : ClientView Packet) : Prop where
  behind : v.queue.Pairwise fun token _ => token.isDisconnect = false
  taken : (∃ token ∈ v.held, token.isDisconnect) ∨ v.listed ∨ v.lifetime = .destroyed →
    v.queue = []
  counted : 0 < countTokens Token.isProcess v.tokens → v.jobs = 1
  settled : v.status = .connect ∨ v.status = .idle → v.jobs = 0

private theorem initial_lastJob : LastJob (.initial : ClientView Packet) where
  behind := .nil
  taken := fun _ => rfl
  counted := by simp [ClientView.initial, ClientView.tokens]
  settled := fun _ => rfl

namespace LastJob

variable {history emitted : List (ClientEvent Packet)} {v v' : ClientView Packet}
  {rest new : Multiset (Token Packet)} {token : Token Packet}

theorem none_of_connected (honce : DisconnectOnce history v) (hstatus : v.status ≠ .disconnect) :
    (∀ token ∈ v.tokens, token.isDisconnect = false) ∧ ¬ v.listed ∧
      v.lifetime ≠ .destroyed := by
  obtain ⟨hnone, hlisted, hlifetime⟩ := honce.connected hstatus
  refine ⟨?_, hlisted, hlifetime⟩
  have hjobs := honce.jobs
  rw [hnone] at hjobs
  intro token hmem
  have hunlisted := countTokens_pos Token.isUnlisted hmem
  have hflushing := countTokens_pos Token.isFlushing hmem
  cases token <;> first | rfl | (simp at hunlisted hflushing; omega)

theorem enqueue (hlast : LastJob v) (honce : DisconnectOnce history v)
    (hstatus : v.status ≠ .disconnect) (hqueue : v'.queue = v.queue ++ [token])
    (hheld : v'.held = v.held) (hlisted : v'.listed = v.listed)
    (hlifetime : v'.lifetime ≠ .destroyed)
    (hcounted : 0 < countTokens Token.isProcess v.tokens + token.isProcess.toNat → v'.jobs = 1)
    (hsettled : v'.status = .connect ∨ v'.status = .idle → v'.jobs = 0) : LastJob v' := by
  obtain ⟨hnone, hnotListed, -⟩ := none_of_connected honce hstatus
  refine ⟨?_, ?_, ?_, hsettled⟩
  · rw [hqueue, List.pairwise_append]
    refine ⟨hlast.behind, List.pairwise_singleton _ _, ?_⟩
    intro earlier hearlier _ _
    exact hnone earlier (Multiset.mem_add.mpr (.inl hearlier))
  · rintro (⟨other, hmem, hkind⟩ | hold | hdestroyed)
    · rw [hheld] at hmem
      rw [hnone other (Multiset.mem_add.mpr (.inr hmem))] at hkind
      cases hkind
    · exact absurd (hlisted ▸ hold) hnotListed
    · exact absurd hdestroyed hlifetime
  · rw [ClientView.countTokens_of_append hqueue hheld]
    exact hcounted

/-- Exchanging a token in hand without a new process job keeps the process job counted. -/
theorem still_counted (hlast : LastJob v) (hheld : v.held = rest + {token})
    (hnew : countTokens Token.isProcess new ≤ token.isProcess.toNat)
    (hcount : 0 < countTokens Token.isProcess ((v.queue : Multiset (Token Packet)) + rest) +
      countTokens Token.isProcess new) : v.jobs = 1 := by
  apply hlast.counted
  rw [ClientView.countTokens_of_held hheld]
  omega

/-- A token in hand is exchanged for one or none. -/
theorem exchange (hlast : LastJob v) (hheld : v.held = rest + {token})
    (hheld' : v'.held = rest + new) (hqueue : v'.queue = v.queue)
    (hlifetime : v'.lifetime = v.lifetime)
    (hnew : (∃ other ∈ new, other.isDisconnect) → token.isDisconnect)
    (hlisted : v'.listed → v.listed ∨ token.isDisconnect)
    (hcounted : 0 < countTokens Token.isProcess ((v.queue : Multiset (Token Packet)) + rest) +
      countTokens Token.isProcess new → v'.jobs = 1)
    (hsettled : v'.status = .connect ∨ v'.status = .idle → v'.jobs = 0) : LastJob v' := by
  have hcount : countTokens Token.isProcess v'.tokens =
      countTokens Token.isProcess ((v.queue : Multiset (Token Packet)) + rest) +
        countTokens Token.isProcess new := by
    rw [ClientView.tokens, hqueue, hheld', ← add_assoc, countTokens_add _ new]
  refine ⟨hqueue ▸ hlast.behind, ?_, hcount ▸ hcounted, hsettled⟩
  have htoken : token ∈ v.held := by
    rw [hheld]
    exact Multiset.mem_add.mpr (.inr (Multiset.mem_singleton_self token))
  intro hgone
  rw [hqueue]
  apply hlast.taken
  rcases hgone with ⟨other, hmem, hkind⟩ | hmem | hdestroyed
  · rw [hheld', Multiset.mem_add] at hmem
    rcases hmem with hold | hfresh
    · exact .inl ⟨other, by rw [hheld]; exact Multiset.mem_add.mpr (.inl hold), hkind⟩
    · exact .inl ⟨token, htoken, hnew ⟨other, hfresh, hkind⟩⟩
  · rcases hlisted hmem with hbefore | hkind
    · exact .inr (.inl hbefore)
    · exact .inl ⟨token, htoken, hkind⟩
  · exact .inr (.inr (hlifetime ▸ hdestroyed))

end LastJob

/-- **One step keeps the last job last.** -/
theorem step_lastJob {allowed : Allowed} (hrepeat : ¬allowed.repeatDisconnect)
    {history emitted : List (ClientEvent Packet)} {v v' : ClientView Packet} {tail : List Packet}
    (horder : PacketOrder history v tail) (honce : DisconnectOnce history v)
    (hlast : LastJob v) (hstep : ClientStep allowed v emitted v') : LastJob v' := by
  have hallows := horder.allows
  cases hstep with
  | quiet => exact hlast
  | accept hfresh =>
      obtain ⟨hstatus, htokens⟩ := horder.fresh hfresh
      refine hlast.enqueue honce (by simp [hstatus]) rfl rfl rfl (by simp) ?_ fun _ => rfl
      simp [htokens]
  | parse packet hidle =>
      -- an idle client has no process job, so its counter goes from zero to one
      have hstatus : v.status ≠ .disconnect := by simp [hidle]
      have hjobs := hlast.settled (.inr hidle)
      have hlifetime := (LastJob.none_of_connected honce hstatus).2.2
      refine hlast.enqueue honce hstatus rfl rfl rfl hlifetime ?_ (by simp)
      intro _
      show v.jobs + 1 = 1
      rw [hjobs]
      rfl
  | hangUp hknown hallowed =>
      have hstatus := hallowed.resolve_left hrepeat
      have hlifetime := (LastJob.none_of_connected honce hstatus).2.2
      refine hlast.enqueue honce hstatus rfl rfl rfl hlifetime ?_ (by simp)
      intro hcount
      exact hlast.counted (by simpa using hcount)
  | pop token rest hqueue =>
      have htokens : ClientView.tokens { v with queue := rest, held := v.held + {token} } =
          v.tokens := ClientView.tokens_of_pop hqueue rfl rfl
      obtain ⟨hhead, htail⟩ := List.pairwise_cons.mp (hqueue ▸ hlast.behind)
      -- once a disconnect job is in hand the queue has nothing left for the client
      have hnone : ¬((∃ token ∈ v.held, token.isDisconnect) ∨ v.listed ∨
          v.lifetime = .destroyed) := by
        intro hgone
        have hempty := hlast.taken hgone
        rw [hqueue] at hempty
        cases hempty
      refine ⟨htail, ?_, htokens ▸ hlast.counted, hlast.settled⟩
      rintro (⟨other, hmem, hkind⟩ | hgone)
      · rcases Multiset.mem_add.mp hmem with hold | hpopped
        · exact absurd (.inl ⟨other, hold, hkind⟩) hnone
        · -- a disconnect job that is popped was the last in the queue
          rw [Multiset.mem_singleton.mp hpopped] at hkind
          refine List.eq_nil_iff_forall_not_mem.mpr fun later hlater => ?_
          rw [hhead later hlater] at hkind
          cases hkind
      · exact absurd (.inr hgone) hnone
  | dropConnect rest hheld hstatus hallowed =>
      simp only [ClientView.countTokens_of_held hheld, hstatus, StatusAllows] at hallows
      refine hlast.exchange hheld (add_zero _).symm rfl rfl (by simp) .inl ?_ (by simp [hstatus])
      intro hcount
      simp at hcount hallows
      omega
  | dropProcess rest packet hheld hstatus =>
      simp only [ClientView.countTokens_of_held hheld, hstatus, StatusAllows] at hallows
      refine hlast.exchange hheld (add_zero _).symm rfl rfl (by simp) .inl ?_ (by simp [hstatus])
      intro hcount
      simp at hcount hallows
      omega
  | settle rest hheld =>
      simp only [ClientView.countTokens_of_held hheld, Token.isConnect, Token.isProcess,
        Bool.toNat_true, Bool.toNat_false, add_zero] at hallows
      obtain ⟨hsettled, hstatus⟩ := hallows.settle_connect
      refine hlast.exchange hheld (add_zero _).symm rfl rfl (by simp) .inl
        (hlast.still_counted hheld (by simp)) ?_
      intro hidle
      exact hlast.settled (.inl (hstatus.resolve_right (settled_iff.mp hidle)))
  | dispatch rest packet hheld =>
      exact hlast.exchange hheld rfl rfl rfl (by simp) .inl
        (hlast.still_counted hheld (by simp)) hlast.settled
  | finish rest hheld =>
      -- the job that ends is the only one that was counted
      have hone : v.jobs = 1 := by
        apply hlast.counted
        rw [ClientView.countTokens_of_held hheld]
        simp
      have hle := hallows.processes_le
      rw [ClientView.countTokens_of_held hheld] at hle
      refine hlast.exchange hheld (add_zero _).symm rfl rfl (by simp) .inl ?_ ?_
      · intro hcount
        simp at hcount hle
        omega
      · intro _
        show v.jobs - 1 = 0
        rw [hone]
        rfl
  | disconnect rest hheld =>
      exact hlast.exchange hheld rfl rfl rfl (fun _ => rfl) .inl
        (hlast.still_counted hheld (by simp)) hlast.settled
  | list rest hheld =>
      exact hlast.exchange hheld rfl rfl rfl (fun _ => rfl) (fun _ => .inr rfl)
        (hlast.still_counted hheld (by simp)) hlast.settled
  | flush rest hheld =>
      exact hlast.exchange hheld (add_zero _).symm rfl rfl (by simp) .inl
        (hlast.still_counted hheld (by simp)) hlast.settled
  | destroy hlisted hearly =>
      exact { hlast with taken := fun _ => hlast.taken (.inr (.inl hlisted)) }
  | unlist =>
      refine { hlast with taken := fun hgone => hlast.taken ?_ }
      exact hgone.imp_right fun hgone => .inr (hgone.resolve_left id)

/-! ## Who uses a client -/

variable {Client W : Type*}

/-- The client of a job. -/
def CDJob.client : CDJob Client Packet → Option Client
  | .clientConnect client | .clientProcess client _ | .clientDisconnect client => some client
  | .custom => none

/-- The client that a worker has steps left to read or write. -/
def CDWorker.client : CDWorker Client Packet → Option Client
  | .ready => none
  | .holding job => job.client
  | .connecting client | .connected client | .processing client _ | .processed client _
  | .rechecking client | .reading client | .waiting client | .disconnecting client
  | .listing client | .flushing client => some client

/-- The client of a worker that is past the wait loop of a disconnect job. -/
def CDWorker.departing : CDWorker Client Packet → Option Client
  | .disconnecting client | .listing client | .flushing client => some client
  | _ => none

/-- The client of a worker in a connect job, or at the end of a connect or process job:
`client->jobs` does not count it. -/
def CDWorker.uncounted : CDWorker Client Packet → Option Client
  | .holding (.clientConnect client) | .connecting client | .connected client
  | .rechecking client | .reading client => some client
  | _ => none

/-- A worker has steps left on the client, or will have when it takes a job from the queue. -/
def InUse (self : CDServer Client Packet W) (client : Client) : Prop :=
  (∃ worker, (self.workers worker).client = some client) ∨
    ∃ job ∈ self.jobs, job.client = some client

/-- The client is on its way out: its disconnect job no longer waits, or it was listed. -/
def Departed (self : CDServer Client Packet W) (client : Client) : Prop :=
  (∃ worker, (self.workers worker).departing = some client) ∨ client ∈ self.disconnecting ∨
    self.lifetime client = .destroyed

/-- A disconnect job stops waiting while another worker is at a step on the client that
`client->jobs` does not count. -/
def StopsWaitingEarly (self : CDServer Client Packet W) (action : Action Client W)
    (client : Client) : Prop :=
  match action with
  | .work worker => self.workers worker = .waiting client ∧ (self.client client).jobs < 1 ∧
      ∃ other, (self.workers other).uncounted = some client
  | _ => False

theorem CDWorker.client_of_departing {worker : CDWorker Client Packet} {client : Client}
    (hdeparting : worker.departing = some client) : worker.client = some client := by
  cases worker with
  | disconnecting other | listing other | flushing other => exact hdeparting
  | _ => cases hdeparting

section Callbacks

variable [DecidableEq Client]

theorem serverKick_workers (self : CDServer Client Packet W) (client : Client) :
    (serverKick self client).1.workers = self.workers := by
  unfold serverKick
  split_ifs <;> rfl

theorem errorCallback_workers (self : CDServer Client Packet W) (client : Client)
    (error : BitVec 16) : (errorCallback self client error).1.workers = self.workers := by
  unfold errorCallback
  split_ifs <;> rfl

theorem readCallback_workers {protocol : Option (CDProtocol Packet)}
    {self next : CDServer Client Packet W} {reader : Client} {emitted : List (Event Client Packet)}
    (hread : readCallback protocol self reader = some (next, emitted)) :
    next.workers = self.workers := by
  have hkick := serverKick_workers self reader
  unfold readCallback at hread
  repeat' split at hread
  all_goals simp only [Option.some.injEq, reduceCtorEq] at hread
  all_goals first | (rw [hread] at hkick; exact hkick) | (cases hread; rfl)

theorem destroyListed_workers (self : CDServer Client Packet W) (listed : List Client) :
    (destroyListed self listed).1.workers = self.workers ∧
      (destroyListed self listed).1.jobs = self.jobs := by
  induction listed generalizing self with
  | nil => exact ⟨rfl, rfl⟩
  | cons head rest ih =>
      unfold destroyListed
      split_ifs
      · exact ih _
      · exact ih self

end Callbacks

section Workers

variable [DecidableEq W]

@[simp] theorem workers_setWorker (self : CDServer Client Packet W) (worker : W)
    (value : CDWorker Client Packet) : (self.setWorker worker value).workers worker = value :=
  Function.update_self ..

theorem workers_setWorker_of_ne (self : CDServer Client Packet W) {worker other : W}
    (hne : other ≠ worker) (value : CDWorker Client Packet) :
    (self.setWorker worker value).workers other = self.workers other :=
  Function.update_of_ne hne ..

end Workers

variable [DecidableEq Client] [DecidableEq W]

/-- What `CD_RunWorker` makes of a worker that still has steps left on a client. -/
theorem runWorker_worker {protocol : Option (CDProtocol Packet)}
    {self next : CDServer Client Packet W} {worker : W} {client : Client}
    {emitted : List (Event Client Packet)}
    (hrun : runWorker protocol self worker = some (next, emitted))
    (hclient : (next.workers worker).client = some client) :
    next.workers worker = self.workers worker ∨
      (next.workers worker).departing ≠ some client ∧
        (∃ job ∈ self.jobs, job.client = some client) ∨
      (self.workers worker).client = some client ∧
        ((self.workers worker).departing = some client →
          (next.workers worker).departing = some client) ∧
        ((next.workers worker).departing = some client →
          (self.workers worker).departing = some client ∨
            self.workers worker = .waiting client ∧ (self.client client).jobs < 1) := by
  unfold runWorker at hrun
  cases hworker : self.workers worker with
  | ready =>
      simp only [hworker] at hrun
      cases hjobs : self.jobs with
      | nil =>
          simp only [hjobs] at hrun
          cases hrun
          exact .inl hworker
      | cons job rest =>
          -- the client is that of the job, which was queued
          simp only [hjobs] at hrun
          cases hrun
          rw [workers_setWorker] at hclient ⊢
          exact .inr (.inl ⟨nofun, job, List.mem_cons_self, hclient⟩)
  | holding job =>
      cases job with
      | custom =>
          simp only [hworker] at hrun
          cases hrun
          rw [workers_setWorker] at hclient
          cases hclient
      | clientDisconnect served =>
          simp only [hworker] at hrun
          cases hrun
          rw [workers_setWorker] at hclient ⊢
          exact .inr (.inr ⟨hclient, nofun, nofun⟩)
      | clientConnect served | clientProcess served packet =>
          simp only [hworker] at hrun
          cases hrun
          unfold checkStatus at hclient ⊢
          split_ifs at hclient ⊢
          all_goals rw [workers_setWorker] at hclient ⊢
          · cases hclient
          · exact .inr (.inr ⟨hclient, nofun, nofun⟩)
  | connecting served | connected served | processing served packet | processed served packet =>
      simp only [hworker] at hrun
      cases hrun
      rw [workers_setWorker] at hclient ⊢
      exact .inr (.inr ⟨hclient, nofun, nofun⟩)
  | rechecking served =>
      simp only [hworker] at hrun
      split_ifs at hrun
      all_goals
        cases hrun
        rw [workers_setWorker] at hclient ⊢
      · exact .inr (.inr ⟨hclient, nofun, nofun⟩)
      · cases hclient
  | reading served =>
      simp only [hworker] at hrun
      rw [readCallback_workers hrun, workers_setWorker] at hclient
      cases hclient
  | waiting served =>
      simp only [hworker] at hrun
      split_ifs at hrun with hjobs
      · -- only here a worker begins to depart from the client
        cases hrun
        rw [workers_setWorker] at hclient ⊢
        cases hclient
        exact .inr (.inr ⟨rfl, nofun, fun _ => .inr ⟨rfl, hjobs⟩⟩)
      · cases hrun
        exact .inl hworker
  | disconnecting served | listing served =>
      simp only [hworker] at hrun
      cases hrun
      rw [workers_setWorker] at hclient ⊢
      exact .inr (.inr ⟨hclient, fun _ => hclient, fun _ => .inl hclient⟩)
  | flushing served =>
      simp only [hworker] at hrun
      cases hrun
      rw [workers_setWorker] at hclient
      cases hclient

theorem runWorker_workers_of_ne {protocol : Option (CDProtocol Packet)}
    {self next : CDServer Client Packet W} {worker other : W}
    {emitted : List (Event Client Packet)} (hne : other ≠ worker)
    (hrun : runWorker protocol self worker = some (next, emitted)) :
    next.workers other = self.workers other := by
  unfold runWorker at hrun
  cases hworker : self.workers worker with
  | holding job =>
      cases job <;> simp only [hworker] at hrun <;> cases hrun
      all_goals try unfold checkStatus
      all_goals try split_ifs
      all_goals exact workers_setWorker_of_ne _ hne _
  | reading served =>
      simp only [hworker] at hrun
      rw [readCallback_workers hrun]
      exact workers_setWorker_of_ne _ hne _
  | _ =>
      simp only [hworker] at hrun
      (try split at hrun) <;> cases hrun
      all_goals first | rfl | exact workers_setWorker_of_ne _ hne _

/-- How a worker can come to have steps left on a client: it had some before, or it takes a job
of the client from the queue.  It leaves the wait loop of a disconnect job only when the counter
is 0, and nothing comes back from behind that loop. -/
theorem step_workers {protocol : Option (CDProtocol Packet)} {self next : CDServer Client Packet W}
    {action : Action Client W} {emitted : List (Event Client Packet)} {worker : W}
    {client : Client} (hstep : step protocol self action = some (next, emitted))
    (hclient : (next.workers worker).client = some client) :
    next.workers worker = self.workers worker ∨
      (next.workers worker).departing ≠ some client ∧
        (∃ job ∈ self.jobs, job.client = some client) ∨
      action = .work worker ∧ (self.workers worker).client = some client ∧
        ((self.workers worker).departing = some client →
          (next.workers worker).departing = some client) ∧
        ((next.workers worker).departing = some client →
          (self.workers worker).departing = some client ∨
            self.workers worker = .waiting client ∧ (self.client client).jobs < 1) := by
  cases action with
  | accept accepted =>
      obtain ⟨-, rfl, -⟩ := by simpa [step] using hstep
      exact .inl rfl
  | receive receiver bytes =>
      obtain ⟨-, rfl, -⟩ := by simpa [step] using hstep
      exact .inl rfl
  | read reader =>
      -- the callbacks of libevent move no worker
      obtain ⟨-, hread⟩ := by simpa [step] using hstep
      exact .inl (congrFun (readCallback_workers hread) worker)
  | error failed error =>
      obtain ⟨-, herror⟩ := by simpa [step] using hstep
      have hworkers := errorCallback_workers self failed error
      rw [herror] at hworkers
      exact .inl (congrFun hworkers worker)
  | kick kicked =>
      obtain ⟨-, hkick⟩ := by simpa [step] using hstep
      have hworkers := serverKick_workers self kicked
      rw [hkick] at hworkers
      exact .inl (congrFun hworkers worker)
  | work moved =>
      by_cases hmoved : worker = moved
      · subst hmoved
        exact (runWorker_worker hstep hclient).imp_right (.imp_right fun h => ⟨rfl, h⟩)
      · exact .inl (runWorker_workers_of_ne hmoved hstep)
  | cleanDisconnects =>
      obtain ⟨-, hclean⟩ := by simpa [step] using hstep
      have hworkers := (destroyListed_workers self self.disconnecting).1
      rw [cleanDisconnects, Prod.mk.injEq] at hclean
      obtain ⟨rfl, -⟩ := hclean
      exact .inl (congrFun hworkers worker)
  | clearDisconnecting =>
      obtain ⟨-, rfl, -⟩ := by simpa [step] using hstep
      exact .inl rfl

/-! ## Nothing of a departed client is left -/

/-- A worker with steps left on a client is at one that the counter does not count, or has a
token of a process or disconnect job. -/
theorem CDWorker.client_cases {worker : CDWorker Client Packet} {client : Client}
    (hclient : worker.client = some client) :
    worker.uncounted = some client ∨
      ∃ token, worker.token client = some token ∧ (token.isProcess ∨ token.isDisconnect) := by
  cases worker with
  | ready => cases hclient
  | holding job =>
      cases job with
      | custom => cases hclient
      | clientConnect other => exact .inl hclient
      | clientProcess other packet =>
          cases hclient
          exact .inr ⟨.waiting packet, if_pos rfl, .inl rfl⟩
      | clientDisconnect other =>
          cases hclient
          exact .inr ⟨.pending, if_pos rfl, .inr rfl⟩
  | connecting other | connected other | rechecking other | reading other => exact .inl hclient
  | processing other packet =>
      cases hclient
      exact .inr ⟨.waiting packet, if_pos rfl, .inl rfl⟩
  | processed other packet =>
      cases hclient
      exact .inr ⟨.running, if_pos rfl, .inl rfl⟩
  | waiting other | disconnecting other =>
      cases hclient
      exact .inr ⟨.pending, if_pos rfl, .inr rfl⟩
  | listing other =>
      cases hclient
      exact .inr ⟨.listing, if_pos rfl, .inr rfl⟩
  | flushing other =>
      cases hclient
      exact .inr ⟨.flushing, if_pos rfl, .inr rfl⟩

theorem CDWorker.token_of_departing {worker : CDWorker Client Packet} {client : Client}
    (hdeparting : worker.departing = some client) :
    ∃ token, worker.token client = some token ∧ token.isDisconnect := by
  cases worker with
  | disconnecting other =>
      cases hdeparting
      exact ⟨.pending, if_pos rfl, rfl⟩
  | listing other =>
      cases hdeparting
      exact ⟨.listing, if_pos rfl, rfl⟩
  | flushing other =>
      cases hdeparting
      exact ⟨.flushing, if_pos rfl, rfl⟩
  | _ => cases hdeparting

theorem CDWorker.departing_of_listing {worker : CDWorker Client Packet} {client : Client}
    (htoken : worker.token client = some .listing) : worker.departing = some client := by
  cases worker with
  | holding job => cases job <;> simp [CDWorker.token, CDJob.token] at htoken
  | listing other => simpa [CDWorker.token, CDWorker.departing] using htoken
  | _ => simp [CDWorker.token] at htoken

private theorem countTokens_isDisconnect (tokens : Multiset (Token Packet)) :
    countTokens Token.isDisconnect tokens =
      countTokens Token.isUnlisted tokens + countTokens Token.isFlushing tokens := by
  induction tokens using Multiset.induction with
  | empty => rfl
  | cons token tokens ih =>
      rw [← Multiset.singleton_add]
      simp only [countTokens_add, ih, countTokens_singleton]
      cases token <;> simp <;> omega

omit [DecidableEq W] in
theorem no_job_of_queue_nil {self : CDServer Client Packet W} [Fintype W] {client : Client}
    (hqueue : (self.view client).queue = []) {job : CDJob Client Packet} (hmem : job ∈ self.jobs) :
    job.client ≠ some client := by
  intro hclient
  have hnone := List.filterMap_eq_nil_iff.mp hqueue job hmem
  cases job <;> cases hclient <;> simp [CDJob.token] at hnone

variable [Fintype W]

theorem two_le_countTokens (self : CDServer Client Packet W) {client : Client} {worker other : W}
    {token token' : Token Packet} {kind : Token Packet → Bool} (hne : other ≠ worker)
    (htoken : (self.workers worker).token client = some token) (hkind : kind token)
    (htoken' : (self.workers other).token client = some token') (hkind' : kind token') :
    2 ≤ countTokens kind (self.view client).tokens := by
  have hheld : self.held client = inHand ((self.workers worker).token client) +
      ∑ rest ∈ Finset.univ.erase worker, inHand ((self.workers rest).token client) :=
    (Finset.add_sum_erase _ _ (Finset.mem_univ worker)).symm
  have hrest : token' ∈
      ∑ rest ∈ Finset.univ.erase worker, inHand ((self.workers rest).token client) := by
    rw [Multiset.mem_sum]
    refine ⟨other, Finset.mem_erase.mpr ⟨hne, Finset.mem_univ other⟩, ?_⟩
    rw [htoken']
    exact Multiset.mem_singleton_self token'
  have hpos := countTokens_pos kind hrest hkind'
  have hone : countTokens kind (inHand (some token)) = 1 := by
    rw [inHand_some, countTokens_singleton, hkind]
    rfl
  rw [ClientView.tokens, countTokens_add]
  show 2 ≤ _ + countTokens kind (self.held client)
  rw [hheld, htoken, countTokens_add _ (∑ _ ∈ _, _), hone]
  omega

/-- A client is listed by its disconnect job, and destroyed when it is listed. -/
theorem ClientStep.gone_cases {allowed : Allowed} {v v' : ClientView Packet}
    {emitted : List (ClientEvent Packet)} (hstep : ClientStep allowed v emitted v')
    (hgone : v'.listed ∨ v'.lifetime = .destroyed) :
    v.listed ∨ v.lifetime = .destroyed ∨ .listing ∈ v.held := by
  cases hstep with
  | accept | unlist => simp_all
  | list rest hheld => exact .inr (.inr (by simp [hheld]))
  | destroy hlisted => exact .inl hlisted
  | _ => exact hgone.imp_right .inl

/-- The steps under which the jobs counter and the list of disconnected clients cover every use
of the client: the error callback does not disconnect it twice, its disconnect job does not stop
waiting while a worker is at a step that the counter does not count, and the main thread does not
destroy it while a worker has yet to flush the server. -/
def Covered (client : Client) (self : CDServer Client Packet W) (action : Action Client W) : Prop :=
  ¬RepeatsDisconnect self action client ∧ ¬StopsWaitingEarly self action client ∧
    ¬DestroysEarly self action client

/-- What the runs of covered steps keep of a client: nobody but its disconnect job has steps left
on it when it has departed. -/
def OnlyDeparting (client : Client) (self : CDServer Client Packet W) : Prop :=
  Departed self client → ∀ worker, (self.workers worker).client = some client →
    (self.workers worker).departing = some client

theorem run_lastJob {protocol : Option (CDProtocol Packet)} {client : Client}
    {events : List (Event Client Packet)} {state : CDServer Client Packet W}
    (hrun : (system protocol).Run (DisconnectsOnce client) events state) :
    LastJob (state.view client) := by
  refine (run_disconnected ⟨True, False, True⟩ (fun h => h) client LastJob
    (fun _ _ honce => ⟨fun _ => trivial, honce, fun _ => trivial⟩) initial_lastJob ?_ hrun).2
  intro history v emitted v' tail horder honce hlast hstep
  exact step_lastJob (fun h => h) horder honce hlast hstep

/-- A client departs when its disconnect job stops waiting, and in no other way. -/
theorem departs_by_waiting {protocol : Option (CDProtocol Packet)}
    {self next : CDServer Client Packet W} {action : Action Client W}
    {emitted : List (Event Client Packet)} {client : Client} (hlisted : ClientsListed self)
    (hstep : step protocol self action = some (next, emitted)) (hbefore : ¬ Departed self client)
    (hafter : Departed next client) :
    ∃ worker, action = .work worker ∧ self.workers worker = .waiting client ∧
      (self.client client).jobs < 1 ∧ (next.workers worker).departing = some client := by
  have hview := step_clientStep hlisted (permits_all client self action) hstep
  have hgone : ¬((next.view client).listed ∨ (next.view client).lifetime = .destroyed) := by
    intro hgone
    apply hbefore
    rcases hview.gone_cases hgone with hmem | hdestroyed | hheld
    · exact .inr (.inl hmem)
    · exact .inr (.inr hdestroyed)
    · obtain ⟨worker, htoken⟩ := CDServer.mem_held.mp hheld
      exact .inl ⟨worker, CDWorker.departing_of_listing htoken⟩
  rcases hafter with ⟨worker, hdeparting⟩ | hmem | hdestroyed
  · rcases step_workers hstep (CDWorker.client_of_departing hdeparting) with hsame | ⟨hnot, -⟩ |
      ⟨haction, -, -, hback⟩
    · exact absurd (.inl ⟨worker, hsame ▸ hdeparting⟩) hbefore
    · exact absurd hdeparting hnot
    · rcases hback hdeparting with hold | ⟨hwaiting, hjobs⟩
      · exact absurd (.inl ⟨worker, hold⟩) hbefore
      · exact ⟨worker, haction, hwaiting, hjobs, hdeparting⟩
  · exact absurd (.inl hmem) hgone
  · exact absurd (.inr hdestroyed) hgone

/-- **One covered step keeps a departed client to its disconnect job.** -/
theorem step_onlyDeparting {protocol : Option (CDProtocol Packet)}
    {self next : CDServer Client Packet W} {action : Action Client W}
    {emitted : List (Event Client Packet)} {client : Client}
    {history : List (ClientEvent Packet)} (hlisted : ClientsListed self)
    (honce : DisconnectOnce history (self.view client)) (hlast : LastJob (self.view client))
    (honly : OnlyDeparting client self) (hcovered : Covered client self action)
    (hstep : step protocol self action = some (next, emitted)) : OnlyDeparting client next := by
  intro hafter worker hclient
  by_cases hbefore : Departed self client
  · -- the client has departed already: only its disconnect job goes on
    have hqueue : (self.view client).queue = [] := by
      apply hlast.taken
      rcases hbefore with ⟨other, hdeparting⟩ | hgone
      · obtain ⟨token, htoken, hkind⟩ := CDWorker.token_of_departing hdeparting
        exact .inl ⟨token, CDServer.mem_held.mpr ⟨other, htoken⟩, hkind⟩
      · exact .inr hgone
    rcases step_workers hstep hclient with hsame | ⟨-, job, hmem, hjob⟩ | ⟨-, hold, hgoes, -⟩
    · rw [hsame] at hclient ⊢
      exact honly hbefore worker hclient
    · exact absurd hjob (no_job_of_queue_nil hqueue hmem)
    · exact hgoes (honly hbefore worker hold)
  · -- the client departs with this step, and nobody else has anything of it
    obtain ⟨waiter, rfl, hwaiting, hjobs, hdeparting⟩ :=
      departs_by_waiting hlisted hstep hbefore hafter
    by_cases hself : worker = waiter
    · rw [hself]
      exact hdeparting
    have hpending : (self.workers waiter).token client = some .pending := by
      rw [hwaiting]
      exact if_pos rfl
    have hqueue : (self.view client).queue = [] :=
      hlast.taken (.inl ⟨.pending, CDServer.mem_held.mpr ⟨waiter, hpending⟩, rfl⟩)
    rcases step_workers hstep hclient with hsame | ⟨-, job, hmem, hjob⟩ | ⟨haction, -⟩
    · rw [hsame] at hclient
      exfalso
      rcases CDWorker.client_cases hclient with huncounted | ⟨token, htoken, hprocess | hkind⟩
      · exact hcovered.2.1 ⟨hwaiting, hjobs, worker, huncounted⟩
      · have hone : (self.client client).jobs = 1 := by
          apply hlast.counted
          apply countTokens_pos Token.isProcess _ hprocess
          exact Multiset.mem_add.mpr (.inr (CDServer.mem_held.mpr ⟨worker, htoken⟩))
        rw [hone] at hjobs
        exact absurd hjobs (by decide)
      · have htwo := two_le_countTokens self hself hpending rfl htoken hkind
        rw [countTokens_isDisconnect] at htwo
        have hle := honce.jobs
        have hadds := honce.adds
        omega
    · exact absurd hjob (no_job_of_queue_nil hqueue hmem)
    · cases haction
      exact absurd rfl hself

private theorem run_onlyDeparting {protocol : Option (CDProtocol Packet)} {client : Client}
    {events : List (Event Client Packet)} {state : CDServer Client Packet W}
    (hrun : (system protocol).Run (Covered client) events state) :
    OnlyDeparting client state := by
  have honceRun : ∀ {events : List (Event Client Packet)} {state : CDServer Client Packet W},
      (system protocol).Run (Covered client) events state →
        (system protocol).Run (DisconnectsOnce client) events state :=
    fun hrun => hrun.mono fun _ _ hcovered => hcovered.1
  induction hrun with
  | start =>
      intro _ worker hclient
      cases hclient
  | step hprefix hcovered hnext ih =>
      exact step_onlyDeparting (run_clientsListed hprefix)
        (run_disconnectOnce (honceRun hprefix)) (run_lastJob (honceRun hprefix)) ih hcovered hnext

theorem run_unused {protocol : Option (CDProtocol Packet)} {client : Client}
    {events : List (Event Client Packet)} {state : CDServer Client Packet W}
    (hrun : (system protocol).Run (Covered client) events state)
    (hdestroyed : state.lifetime client = .destroyed) : ¬ InUse state client := by
  have honceRun : (system protocol).Run (DisconnectsOnce client) events state :=
    hrun.mono fun _ _ hcovered => hcovered.1
  have horderedRun : (system protocol).Run (DisconnectsInOrder client) events state :=
    hrun.mono fun _ _ hcovered => ⟨hcovered.1, hcovered.2.2⟩
  rintro (⟨worker, hclient⟩ | ⟨job, hmem, hjob⟩)
  · have hdeparting := run_onlyDeparting hrun (.inr (.inr hdestroyed)) worker hclient
    obtain ⟨token, htoken, hkind⟩ := CDWorker.token_of_departing hdeparting
    have hheld : token ∈ state.held client := CDServer.mem_held.mpr ⟨worker, htoken⟩
    have hunlisted := (run_disconnectOnce honceRun).listed (.inr hdestroyed)
    have hflushing := run_destroyedAfterEnd horderedRun hdestroyed
    have htokens : token ∈ (state.view client).tokens := Multiset.mem_add.mpr (.inr hheld)
    cases token with
    | flushing => exact hflushing hheld
    | pending | listing => exact not_mem_of_countTokens hunlisted rfl htokens
    | connect | waiting packet | running => cases hkind
  · have hqueue := (run_lastJob honceRun).taken (.inr (.inr hdestroyed))
    exact no_job_of_queue_nil hqueue hmem hjob

/-- **A client in use is not destroyed** in any run of covered steps: a step that destroys it is
taken in a state where no worker has steps left on it and no job of it is queued, and none comes
up afterwards. -/
theorem destroyed_unused (protocol : Option (CDProtocol Packet)) {client : Client}
    {events : List (Event Client Packet)} {state : CDServer Client Packet W}
    (hrun : (system protocol).Run (Covered client) events state) :
    (∀ action next emitted, Covered client state action →
        step protocol state action = some (next, emitted) →
        state.lifetime client ≠ .destroyed → next.lifetime client = .destroyed →
        ¬ InUse state client) ∧
      (state.lifetime client = .destroyed → ¬ InUse state client) := by
  refine ⟨?_, run_unused hrun⟩
  intro action next emitted hcovered hstep hlive hdestroyed
  have hunused := run_unused (.step hrun hcovered hstep) hdestroyed
  have hsame : ∀ lifetime, next.registry.lifetime = lifetime → lifetime client = .destroyed := by
    rintro _ rfl
    exact hdestroyed
  rcases step_registry hstep with hregistry | ⟨other, hfresh, hregistry⟩ |
    ⟨_, _, -, -, hregistry⟩ | ⟨-, rfl⟩ | ⟨-, hregistry⟩
  · exact absurd (hsame _ (congrArg Registry.lifetime hregistry)) hlive
  · have hupdated : Function.update state.lifetime other .live client = .destroyed :=
      hsame _ (congrArg Registry.lifetime hregistry)
    by_cases heq : client = other
    · subst heq
      simp at hupdated
    · rw [Function.update_of_ne heq] at hupdated
      exact absurd hupdated hlive
  · exact absurd (hsame _ (congrArg Registry.lifetime hregistry)) hlive
  · -- the walk touches neither the workers nor the queue
    obtain ⟨hworkers, hjobs⟩ := destroyListed_workers state state.disconnecting
    rintro (⟨worker, hclient⟩ | ⟨job, hmem, hjob⟩)
    · exact hunused (.inl ⟨worker, (congrArg CDWorker.client (congrFun hworkers worker)).trans
        hclient⟩)
    · refine hunused (.inr ⟨job, ?_, hjob⟩)
      show job ∈ (destroyListed state state.disconnecting).1.jobs
      rw [hjobs]
      exact hmem
  · exact absurd (hsame _ (congrArg Registry.lifetime hregistry)) hlive

/-! ## Runs -/

instance (client : Client) (self : CDServer Client Packet W) (action : Action Client W)
    [DecidableEq Packet] : Decidable (StopsWaitingEarly self action client) :=
  match action with
  | .work _ => inferInstanceAs (Decidable (_ ∧ _ ∧ ∃ _, _))
  | .accept _ | .receive _ _ | .read _ | .error _ _ | .kick _ | .cleanDisconnects
  | .clearDisconnecting => isFalse id

instance (client : Client) (self : CDServer Client Packet W) (action : Action Client W)
    [DecidableEq Packet] : Decidable (DestroysEarly self action client) :=
  inferInstanceAs (Decidable (_ = _ ∧ _ ∧ ∃ _, _))

instance (client : Client) (self : CDServer Client Packet W) (action : Action Client W)
    [DecidableEq Packet] : Decidable (Covered client self action) :=
  inferInstanceAs (Decidable (DisconnectsOnce client self action ∧ _ ∧ _))

theorem destroyed_unused_kicked :
    ∃ state events, (system (some byteProtocol)).exec kickedOnce createServer =
        some (state, events) ∧ state.lifetime 0 = .destroyed ∧ ¬ InUse state 0 := by
  have hdestroyed : ((system (some byteProtocol)).exec kickedOnce createServer).map
      (fun result => result.1.lifetime 0) = some .destroyed := by
    decide
  obtain ⟨⟨state, events⟩, hexec, hlifetime⟩ := Option.map_eq_some_iff.mp hdestroyed
  exact ⟨state, events, hexec, hlifetime, (destroyed_unused (some byteProtocol)
    (System.Run.exec .start (by decide) hexec)).2 hlifetime⟩

/-- A client that is kicked between the end of its connect job and the look at its buffer. -/
def kickedAtTheEnd : List (Action ℕ (Fin 2)) :=
  [.accept 0, .work 0, .work 0, .work 0, .work 0, .kick 0, .work 1, .work 1, .work 1, .work 1,
    .work 1, .work 1]

/-- The client is destroyed before the worker has looked at its buffer. -/
theorem destroyed_in_use :
    ∃ state next events emitted,
      (system (some byteProtocol)).Run (fun _ _ => True) events state ∧
      step (some byteProtocol) state (.cleanDisconnects : Action ℕ (Fin 2)) =
        some (next, emitted) ∧
      state.lifetime 0 = .live ∧ next.lifetime 0 = .destroyed ∧
      state.workers 0 = .rechecking 0 ∧ InUse state 0 := by
  have hstate : ((system (some byteProtocol)).exec kickedAtTheEnd createServer).bind
      (fun result => (step (some byteProtocol) result.1 .cleanDisconnects).map fun cleaned =>
        (result.1.lifetime 0, cleaned.1.lifetime 0, result.1.workers 0)) =
          some (.live, .destroyed, .rechecking 0) := by
    decide
  obtain ⟨⟨state, events⟩, hexec, hcleaned⟩ := Option.bind_eq_some_iff.mp hstate
  obtain ⟨⟨next, emitted⟩, hstep, hplaces⟩ := Option.map_eq_some_iff.mp hcleaned
  simp only [Prod.mk.injEq] at hplaces
  obtain ⟨hlive, hdestroyed, hworker⟩ := hplaces
  refine ⟨state, next, events, emitted, System.Run.exec .start (System.execGuard_true _ _) hexec,
    hstep, hlive, hdestroyed, hworker, .inl ⟨0, ?_⟩⟩
  rw [hworker]
  rfl

end Craftd.Server
