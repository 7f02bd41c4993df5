import Craftd.Server.PacketOrder

/-!
# A client is disconnected once

`CD_ServerKick` looks at the status before it adds a disconnect job;
`cd_ErrorCallback` does not.  Where no error callback runs on a client that is
already disconnected, one disconnect job is added, `Client.disconnect` is
dispatched once and no disconnect job is left to start when the client has been
destroyed.  The end of the job's own body is a matter of its own: the worker
lists the client before it flushes the server, so the main thread may destroy
the client while the job has yet to end.
-/

namespace Craftd.Server

open StepSystem

variable {Packet : Type*}

/-- A disconnect job that has not listed its client. -/
@[simp] def Token.isUnlisted : Token Packet → Bool
  | .pending | .listing => true
  | _ => false

/-- A disconnect job that has listed its client. -/
@[simp] def Token.isFlushing : Token Packet → Bool
  | .flushing => true
  | _ => false

/-- A disconnect job that has not been dispatched. -/
@[simp] def Token.isPending : Token Packet → Bool
  | .pending => true
  | _ => false

/-- The addition of a disconnect job. -/
@[simp] def ClientEvent.isAddDisconnect : ClientEvent Packet → Bool
  | .addDisconnect => true
  | _ => false

/-- The dispatch of `Client.disconnect`. -/
@[simp] def ClientEvent.isDisconnect : ClientEvent Packet → Bool
  | .disconnect => true
  | _ => false

/-- The invariant behind the single disconnect: every disconnect job, dispatched
or not, was added, and only a disconnected client has one. -/
structure DisconnectOnce (history : List (ClientEvent Packet)) (v : ClientView Packet) : Prop where
  connected : v.status ≠ .disconnect →
    history.countP ClientEvent.isAddDisconnect = 0 ∧ ¬v.listed ∧ v.lifetime ≠ .destroyed
  adds : history.countP ClientEvent.isAddDisconnect ≤ 1
  dispatches : history.countP ClientEvent.isDisconnect + countTokens Token.isPending v.tokens ≤
    history.countP ClientEvent.isAddDisconnect
  jobs : countTokens Token.isUnlisted v.tokens + countTokens Token.isFlushing v.tokens ≤
    history.countP ClientEvent.isAddDisconnect
  listed : v.listed ∨ v.lifetime = .destroyed → countTokens Token.isUnlisted v.tokens = 0
  queued : .flushing ∉ v.queue

private theorem initial_disconnectOnce :
    DisconnectOnce ([] : List (ClientEvent Packet)) .initial := by
  constructor <;> simp [ClientView.initial, ClientView.tokens]

namespace DisconnectOnce

variable {history emitted : List (ClientEvent Packet)} {v v' : ClientView Packet}
  {rest new : Multiset (Token Packet)} {token : Token Packet}

/-- A token in hand is exchanged for one or none: what must hold of the new one. -/
theorem exchange (honce : DisconnectOnce history v) (hheld : v.held = rest + {token})
    (hheld' : v'.held = rest + new) (hqueue : v'.queue = v.queue)
    (hlifetime : v'.lifetime = v.lifetime)
    (hadds : emitted.countP ClientEvent.isAddDisconnect = 0)
    (hstatus : v'.status ≠ .disconnect → v.status ≠ .disconnect)
    (hdispatch : emitted.countP ClientEvent.isDisconnect + countTokens Token.isPending new ≤
      token.isPending.toNat)
    (hunlisted : countTokens Token.isUnlisted new ≤ token.isUnlisted.toNat)
    (hjobs : countTokens Token.isUnlisted new + countTokens Token.isFlushing new ≤
      token.isUnlisted.toNat + token.isFlushing.toNat)
    (hlisted : v'.listed → v.listed ∨ token = .listing ∧ countTokens Token.isUnlisted new = 0) :
    DisconnectOnce (history ++ emitted) v' := by
  have hcount : ∀ kind : Token Packet → Bool, countTokens kind v'.tokens =
      countTokens kind ((v.queue : Multiset (Token Packet)) + rest) + countTokens kind new := by
    intro kind
    rw [ClientView.tokens, hqueue, hheld', ← add_assoc, countTokens_add _ new]
  have hdispatches := honce.dispatches
  have hjobs' := honce.jobs
  have hadds' := honce.adds
  rw [ClientView.countTokens_of_held hheld] at hdispatches
  rw [ClientView.countTokens_of_held hheld, ClientView.countTokens_of_held hheld] at hjobs'
  constructor
  · intro hconnected
    obtain ⟨hnone, hnotListed, hlive⟩ := honce.connected (hstatus hconnected)
    refine ⟨by rw [List.countP_append, hnone, hadds], fun hmem => ?_, hlifetime ▸ hlive⟩
    rcases hlisted hmem with hold | ⟨rfl, -⟩
    · exact hnotListed hold
    · simp only [Token.isUnlisted, Bool.toNat_true] at hjobs'
      omega
  · rwa [List.countP_append, hadds]
  · simp only [List.countP_append, hcount]
    omega
  · simp only [List.countP_append, hcount]
    omega
  · intro hgone
    have hunlisted' : countTokens Token.isUnlisted v.tokens = _ :=
      ClientView.countTokens_of_held hheld
    rw [hcount]
    by_cases hbefore : v.listed ∨ v.lifetime = .destroyed
    · have hzero := honce.listed hbefore
      omega
    · -- the token itself lists the client, and it is the only one there is
      obtain ⟨rfl, hnew⟩ : token = .listing ∧ countTokens Token.isUnlisted new = 0 := by
        rcases hgone with hmem | hdestroyed
        · exact (hlisted hmem).resolve_left fun hold => hbefore (.inl hold)
        · exact absurd (.inr (hlifetime ▸ hdestroyed)) hbefore
      simp only [Token.isUnlisted, Bool.toNat_true] at hjobs'
      omega
  · exact hqueue ▸ honce.queued

/-- Nothing about disconnect jobs changes; `new` holds none. -/
theorem keep (honce : DisconnectOnce history v) (new : Multiset (Token Packet))
    (htokens : v'.tokens = v.tokens + new)
    (hnew : countTokens Token.isPending new = 0 ∧ countTokens Token.isUnlisted new = 0 ∧
      countTokens Token.isFlushing new = 0)
    (hadds : emitted.countP ClientEvent.isAddDisconnect = 0)
    (hdispatches : emitted.countP ClientEvent.isDisconnect = 0)
    (hqueued : .flushing ∉ v'.queue) (hlisted : v'.listed = v.listed)
    (hlifetime : v'.lifetime = .destroyed → v.lifetime = .destroyed)
    (hstatus : v'.status ≠ .disconnect → v.status ≠ .disconnect) :
    DisconnectOnce (history ++ emitted) v' := by
  constructor
  · intro hconnected
    obtain ⟨hnone, hnotListed, hlive⟩ := honce.connected (hstatus hconnected)
    refine ⟨by rw [List.countP_append, hnone, hadds], hlisted ▸ hnotListed,
      fun hdestroyed => hlive (hlifetime hdestroyed)⟩
  · rw [List.countP_append, hadds]
    exact honce.adds
  · rw [List.countP_append, List.countP_append, hadds, hdispatches, htokens, countTokens_add,
      hnew.1]
    exact honce.dispatches
  · rw [List.countP_append, hadds, htokens, countTokens_add, countTokens_add, hnew.2.1, hnew.2.2]
    exact honce.jobs
  · -- whoever is listed or destroyed was so before
    intro hgone
    rw [htokens, countTokens_add, hnew.2.1]
    exact honce.listed (hgone.imp (hlisted ▸ ·) hlifetime)
  · exact hqueued

end DisconnectOnce

/-- **One step keeps the single disconnect**, unless it adds a disconnect job to a
client that is already disconnected. -/
theorem step_disconnectOnce {allowed : Allowed} (hrepeat : ¬allowed.repeatDisconnect)
    {history emitted : List (ClientEvent Packet)} {v v' : ClientView Packet} {tail : List Packet}
    (horder : PacketOrder history v tail) (honce : DisconnectOnce history v)
    (hstep : ClientStep allowed v emitted v') : DisconnectOnce (history ++ emitted) v' := by
  cases hstep with
  | quiet =>
      exact honce.keep 0 (add_zero _).symm (by simp) rfl rfl honce.queued rfl id id
  | accept hfresh =>
      have hstatus := (horder.fresh hfresh).1
      exact honce.keep {.connect} (ClientView.tokens_of_append rfl rfl) (by simp) rfl rfl
        (by simp [honce.queued]) rfl nofun (fun _ => by simp [hstatus])
  | parse packet hidle =>
      exact honce.keep {.waiting packet} (ClientView.tokens_of_append rfl rfl) (by simp) rfl rfl
        (by simp [honce.queued]) rfl id (fun _ => by simp [hidle])
  | hangUp hknown hallowed =>
      -- this is the first disconnect job of the client
      obtain ⟨hnone, hnotListed, hlive⟩ := honce.connected (hallowed.resolve_left hrepeat)
      have hdispatches := honce.dispatches
      have hjobs := honce.jobs
      have hcount : ∀ kind : Token Packet → Bool, countTokens kind
          ({ v with status := .disconnect, queue := v.queue ++ [.pending] } :
            ClientView Packet).tokens =
          countTokens kind v.tokens + (kind .pending).toNat :=
        fun kind => ClientView.countTokens_of_append rfl rfl
      constructor
      · simp
      · simp [hnone]
      · rw [hcount]
        simp
        omega
      · rw [hcount, hcount]
        simp
        omega
      · intro hgone
        exact (hgone.elim hnotListed hlive).elim
      · simp [honce.queued]
  | pop token rest hqueue =>
      exact honce.keep 0 ((ClientView.tokens_of_pop hqueue rfl rfl).trans (add_zero _).symm)
        (by simp) rfl rfl (fun hmem => honce.queued (hqueue ▸ List.mem_cons_of_mem _ hmem)) rfl id
        id
  | dropConnect rest hheld hstatus hallowed =>
      exact honce.exchange hheld (add_zero _).symm rfl rfl rfl id (by simp) (by simp) (by simp) .inl
  | dropProcess rest packet hheld hstatus =>
      exact honce.exchange hheld (add_zero _).symm rfl rfl rfl id (by simp) (by simp) (by simp) .inl
  | settle rest hheld =>
      exact honce.exchange hheld (add_zero _).symm rfl rfl rfl
        (fun hstatus heq => hstatus (by simp [heq])) (by simp) (by simp) (by simp) .inl
  | dispatch rest packet hheld =>
      exact honce.exchange hheld rfl rfl rfl rfl id (by simp) (by simp) (by simp) .inl
  | finish rest hheld =>
      exact honce.exchange hheld (add_zero _).symm rfl rfl rfl
        (fun hstatus heq => hstatus (by simp [heq])) (by simp) (by simp) (by simp) .inl
  | disconnect rest hheld =>
      exact honce.exchange hheld rfl rfl rfl rfl id (by simp) (by simp) (by simp) .inl
  | list rest hheld =>
      exact honce.exchange hheld rfl rfl rfl rfl id (by simp) (by simp) (by simp)
        (fun _ => .inr ⟨rfl, by simp⟩)
  | flush rest hheld =>
      exact honce.exchange hheld (add_zero _).symm rfl rfl rfl id (by simp) (by simp) (by simp) .inl
  | destroy hlisted hearly =>
      have hadds : (history ++ [ClientEvent.destroy]).countP ClientEvent.isAddDisconnect =
          history.countP ClientEvent.isAddDisconnect := by simp
      have hdispatches : (history ++ [ClientEvent.destroy]).countP ClientEvent.isDisconnect =
          history.countP ClientEvent.isDisconnect := by simp
      exact ⟨fun hconnected => absurd hlisted (honce.connected hconnected).2.1,
        hadds ▸ honce.adds, hadds ▸ hdispatches ▸ honce.dispatches, hadds ▸ honce.jobs,
        fun _ => honce.listed (.inl hlisted), honce.queued⟩
  | unlist =>
      rw [List.append_nil]
      exact { honce with
        connected := fun hconnected =>
          ⟨(honce.connected hconnected).1, id, (honce.connected hconnected).2.2⟩
        listed := fun hgone => honce.listed (.inr (hgone.resolve_left id)) }

/-- A destroyed client has no disconnect job that has yet to end, unless the main
thread overtook it. -/
theorem step_destroyedAfterEnd {allowed : Allowed} (hearly : ¬allowed.destroyEarly)
    {history emitted : List (ClientEvent Packet)} {v v' : ClientView Packet}
    (honce : DisconnectOnce history v)
    (hended : v.lifetime = .destroyed → .flushing ∉ v.held)
    (hstep : ClientStep allowed v emitted v') :
    v'.lifetime = .destroyed → .flushing ∉ v'.held := by
  intro hdestroyed
  cases hstep with
  | accept hfresh => simp at hdestroyed
  | pop token rest hqueue =>
      have htoken : token ≠ .flushing := by
        rintro rfl
        exact honce.queued (hqueue ▸ List.mem_cons_self)
      simp [hended hdestroyed, htoken.symm]
  | list rest hheld =>
      have hnone := honce.listed (.inr hdestroyed)
      rw [ClientView.countTokens_of_held hheld] at hnone
      simp at hnone
  | destroy hlisted hallowed => exact hallowed.resolve_left hearly
  | quiet | parse | hangUp | unlist => exact hended hdestroyed
  | dropConnect rest hheld | dropProcess rest _ hheld | settle rest hheld
  | dispatch rest _ hheld | finish rest hheld | disconnect rest hheld | flush rest hheld =>
      have hnone := hended hdestroyed
      rw [hheld, Multiset.mem_add, not_or] at hnone
      simp [hnone.1]

/-! ## The server -/

variable {Client W : Type*} [DecidableEq Client] [DecidableEq W] [Fintype W]

/-- No error callback disconnects the client while it is disconnected. -/
def DisconnectsOnce (client : Client) (self : CDServer Client Packet W)
    (action : Action Client W) : Prop :=
  ¬RepeatsDisconnect self action client

/-- Besides, the main thread does not destroy the client before its disconnect
job has ended. -/
def DisconnectsInOrder (client : Client) (self : CDServer Client Packet W)
    (action : Action Client W) : Prop :=
  ¬RepeatsDisconnect self action client ∧ ¬DestroysEarly self action client

/-- **Invariant rule for one client that is disconnected once.** -/
theorem run_disconnected (allowed : Allowed) (hrepeat : ¬allowed.repeatDisconnect)
    (client : Client) (I : ClientView Packet → Prop) {protocol : Option (CDProtocol Packet)}
    {guard : CDServer Client Packet W → Action Client W → Prop}
    (hguard : ∀ self action, guard self action → allowed.Permits client self action)
    (hinit : I .initial)
    (hstep : ∀ history v emitted v' tail, PacketOrder history v tail →
      DisconnectOnce history v → I v → ClientStep allowed v emitted v' → I v')
    {events : List (Event Client Packet)} {state : CDServer Client Packet W}
    (hrun : (system protocol).Run guard events state) :
    DisconnectOnce (events.filterMap (Event.about client)) (state.view client) ∧
      I (state.view client) := by
  refine (run_ordered allowed client (fun history v => DisconnectOnce history v ∧ I v) hguard
    ⟨initial_disconnectOnce, hinit⟩ ?_ hrun).2
  intro history v emitted v' tail horder hbefore hnext
  obtain ⟨honce, hI⟩ := hbefore
  exact ⟨step_disconnectOnce hrepeat horder honce hnext,
    hstep history v emitted v' tail horder honce hI hnext⟩

theorem run_disconnectOnce {protocol : Option (CDProtocol Packet)} {client : Client}
    {events : List (Event Client Packet)} {state : CDServer Client Packet W}
    (hrun : (system protocol).Run (DisconnectsOnce client) events state) :
    DisconnectOnce (events.filterMap (Event.about client)) (state.view client) := by
  refine (run_disconnected ⟨True, False, True⟩ (fun h => h) client (fun _ => True)
    (fun _ _ honce => ⟨fun _ => trivial, honce, fun _ => trivial⟩) trivial ?_ hrun).1
  intro history v emitted v' tail horder honce hI hstep
  trivial

theorem run_destroyedAfterEnd {protocol : Option (CDProtocol Packet)} {client : Client}
    {events : List (Event Client Packet)} {state : CDServer Client Packet W}
    (hrun : (system protocol).Run (DisconnectsInOrder client) events state) :
    state.lifetime client = .destroyed → .flushing ∉ state.held client := by
  refine (run_disconnected ⟨True, False, False⟩ (fun h => h) client
    (fun v => v.lifetime = .destroyed → .flushing ∉ v.held)
    (fun _ _ honce => ⟨fun _ => trivial, honce.1, honce.2⟩) (fun h => by cases h) ?_ hrun).2
  intro history v emitted v' tail horder honce hended hstep
  exact step_destroyedAfterEnd (fun h => h) honce hended hstep

/-- A worker that has a disconnect job of the client in hand and has not listed
the client. -/
def CDWorker.startsDisconnect (client : Client) : CDWorker Client Packet → Bool
  | .holding (.clientDisconnect other) => other = client
  | .waiting other | .disconnecting other | .listing other => other = client
  | _ => false

omit [DecidableEq W] [Fintype W] in
theorem CDWorker.token_of_startsDisconnect {worker : CDWorker Client Packet} {client : Client}
    (hstarts : worker.startsDisconnect client) :
    ∃ token, worker.token client = some token ∧ token.isUnlisted := by
  cases worker with
  | holding job => cases job <;> simp_all [startsDisconnect, CDWorker.token, CDJob.token]
  | _ => simp_all [startsDisconnect, CDWorker.token]

/-- **A client is disconnected once** in every run in which no error callback
disconnects a client that is already disconnected: at most one disconnect job is
added, `Client.disconnect` is dispatched at most once, and when the client has
been destroyed no disconnect job is queued or in a worker's hands.  A job that
has listed the client and has only its flush before it is out of the worker's
hands too if the main thread did not overtake it. -/
theorem disconnected_once (protocol : Option (CDProtocol Packet)) {client : Client}
    {events : List (Event Client Packet)} {state : CDServer Client Packet W}
    (hrun : (system protocol).Run (DisconnectsOnce client) events state) :
    (events.filterMap (Event.about client)).countP ClientEvent.isAddDisconnect ≤ 1 ∧
      (events.filterMap (Event.about client)).countP ClientEvent.isDisconnect ≤ 1 ∧
      (state.lifetime client = .destroyed →
        .clientDisconnect client ∉ state.jobs ∧
          (∀ worker, (state.workers worker).startsDisconnect client = false) ∧
          ((system protocol).Run (DisconnectsInOrder client) events state →
            ∀ worker, state.workers worker ≠ .flushing client)) := by
  have honce := run_disconnectOnce hrun
  refine ⟨honce.adds, ?_, fun hdestroyed => ⟨fun hmem => ?_, fun worker => ?_,
    fun hordered worker hworker => ?_⟩⟩
  · have hdispatches := honce.dispatches
    have hadds := honce.adds
    omega
  · have hqueued : .pending ∈ (state.view client).queue :=
      List.mem_filterMap.mpr ⟨_, hmem, by simp [CDJob.token]⟩
    exact not_mem_of_countTokens (honce.listed (.inr hdestroyed)) rfl
      (Multiset.mem_add.mpr (.inl hqueued))
  · by_contra hstarts
    obtain ⟨token, htoken, hunlisted⟩ :=
      CDWorker.token_of_startsDisconnect (by simpa using hstarts)
    exact not_mem_of_countTokens (honce.listed (.inr hdestroyed)) hunlisted
      (Multiset.mem_add.mpr (.inr (CDServer.mem_held.mpr ⟨worker, htoken⟩)))
  · exact run_destroyedAfterEnd hordered hdestroyed
      (CDServer.mem_held.mpr ⟨worker, by simp [hworker, CDWorker.token]⟩)

instance (client : Client) (self : CDServer Client Packet W) (action : Action Client W) :
    Decidable (DisconnectsOnce client self action) :=
  match action with
  | .error _ _ => inferInstanceAs (Decidable ¬(_ ∧ _ ∧ _))
  | .accept _ | .receive _ _ | .read _ | .kick _ | .work _ | .cleanDisconnects
  | .clearDisconnecting => isTrue id

/-- A kicked client is disconnected and destroyed. -/
def kickedOnce : List (Action ℕ (Fin 1)) :=
  [.accept 0, .work 0, .work 0, .work 0, .work 0, .kick 0, .work 0, .work 0, .work 0, .work 0,
    .work 0, .work 0, .work 0, .cleanDisconnects, .clearDisconnecting]

theorem disconnected_once_kicked :
    ∃ state events, (system (some byteProtocol)).exec kickedOnce createServer =
        some (state, events) ∧ state.lifetime 0 = .destroyed ∧
      (events.filterMap (Event.about 0)).countP ClientEvent.isAddDisconnect ≤ 1 ∧
      (events.filterMap (Event.about 0)).countP ClientEvent.isDisconnect ≤ 1 ∧
      (state.lifetime 0 = .destroyed →
        .clientDisconnect 0 ∉ state.jobs ∧
          (∀ worker, (state.workers worker).startsDisconnect 0 = false) ∧
          ((system (some byteProtocol)).Run (DisconnectsInOrder 0) events state →
            ∀ worker, state.workers worker ≠ .flushing 0)) := by
  have hdestroyed : ((system (some byteProtocol)).exec kickedOnce createServer).map
      (fun result => result.1.lifetime 0) = some .destroyed := by
    decide
  obtain ⟨⟨state, events⟩, hexec, hlifetime⟩ := Option.map_eq_some_iff.mp hdestroyed
  exact ⟨state, events, hexec, hlifetime, disconnected_once (some byteProtocol)
    (System.Run.exec .start (by decide) hexec)⟩

/-- A client that is kicked and then hangs up. -/
def kickedAndHungUp : List (Action ℕ (Fin 1)) :=
  [.accept 0, .work 0, .work 0, .work 0, .work 0, .kick 0, .error 0 bevEventEof, .work 0, .work 0,
    .work 0, .work 0, .work 0, .work 0, .work 0, .cleanDisconnects, .clearDisconnecting, .work 0,
    .work 0, .work 0, .work 0]

/-- The kick adds one disconnect job and the error callback another; the second
is executed on the destroyed client. -/
theorem disconnected_twice :
    ∃ state events, (system (some byteProtocol)).exec kickedAndHungUp createServer =
        some (state, events) ∧
      (system (some byteProtocol)).Run (fun _ _ => True) events state ∧
      events = [.connect 0, .addDisconnect 0, .addDisconnect 0, .disconnect 0, .destroy 0,
        .disconnect 0] := by
  have hevents : ((system (some byteProtocol)).exec kickedAndHungUp createServer).map Prod.snd =
      some [.connect 0, .addDisconnect 0, .addDisconnect 0, .disconnect 0, .destroy 0,
        .disconnect 0] := by
    decide
  obtain ⟨⟨state, events⟩, hexec, hhistory⟩ := Option.map_eq_some_iff.mp hevents
  exact ⟨state, events, hexec, System.Run.exec .start (System.execGuard_true _ _) hexec, hhistory⟩

end Craftd.Server
