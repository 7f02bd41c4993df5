import Craftd.Server.DisconnectOnce

/-!
# No disconnect is dropped

`CD_ServerCleanDisconnects` walks `server->disconnecting` under one hold of the list's
lock and empties it under another.  A client that a worker lists between the two leaves
the list unseen.  Where none is listed there, a client leaves the list only when it is
off `server->clients` and destroyed.
-/

namespace Craftd.Server

open StepSystem

variable {Client Packet W : Type*}

variable [DecidableEq Client] [DecidableEq W]

/-! ## The walk -/

omit [DecidableEq W] in
/-- Which clients the walk leaves on `server->clients`, and what it makes of the others. -/
theorem destroyListed_registry (self : CDServer Client Packet W) (listed : List Client)
    (hnodup : self.clients.Nodup) :
    let walked := (destroyListed self listed).1
    walked.clients.Nodup ∧ walked.disconnecting = self.disconnecting ∧
      (∀ client, client ∈ walked.clients ↔ client ∈ self.clients ∧ client ∉ listed) ∧
      ∀ client, walked.lifetime client =
        if client ∈ self.clients ∧ client ∈ listed then .destroyed else self.lifetime client := by
  induction listed generalizing self with
  | nil => simp [destroyListed, hnodup]
  | cons head rest ih =>
      unfold destroyListed
      by_cases hhead : head ∈ self.clients
      -- the client at the head leaves the list and is destroyed
      · rw [if_pos hhead]
        obtain ⟨hnodup', hdisconnecting, hclients, hlifetime⟩ := ih { self with
          clients := self.clients.erase head
          lifetime := Function.update self.lifetime head .destroyed } (hnodup.erase head)
        refine ⟨hnodup', hdisconnecting, ?_, ?_⟩
        · intro client
          rw [hclients client, hnodup.mem_erase_iff, List.mem_cons]
          tauto
        · intro client
          rw [hlifetime client]
          by_cases heq : client = head
          · subst heq
            simp [hhead]
          · simp [heq, hnodup.mem_erase_iff]
      -- the client at the head is not on the list any more
      · rw [if_neg hhead]
        obtain ⟨hnodup', hdisconnecting, hclients, hlifetime⟩ := ih self hnodup
        refine ⟨hnodup', hdisconnecting, ?_, ?_⟩
        · intro client
          rw [hclients client, List.mem_cons]
          refine and_congr_right fun hmem => ?_
          have hne : client ≠ head := fun heq => hhead (heq ▸ hmem)
          simp [hne]
        · intro client
          rw [hlifetime client]
          by_cases hmem : client ∈ self.clients
          · have hne : client ≠ head := fun heq => hhead (heq ▸ hmem)
            simp [hne]
          · simp [hmem]

/-! ## The invariant -/

/-- The client is off `server->clients` and destroyed. -/
def Gone (self : CDServer Client Packet W) (client : Client) : Prop :=
  client ∉ self.clients ∧ self.lifetime client = .destroyed

/-- What the lists of clients say about which clients exist. -/
structure Tidy (registry : Registry Client) : Prop where
  nodup : registry.clients.Nodup
  live : ∀ client, client ∈ registry.clients ↔ registry.lifetime client = .live
  known : ∀ client ∈ registry.disconnecting, registry.lifetime client ≠ .fresh
  walked : registry.cleaning = true →
    ∀ client ∈ registry.disconnecting, registry.lifetime client = .destroyed

/-- The client that a worker is about to list. -/
def CDWorker.aboutToList : CDWorker Client Packet → Option Client
  | .listing client => some client
  | _ => none

/-- A worker lists a client that is not destroyed, after the walk over
`server->disconnecting` and before the list is emptied. -/
def ListsBehindWalk (self : CDServer Client Packet W) : Action Client W → Prop
  | .work worker => self.cleaning = true ∧
      ∃ client ∈ (self.workers worker).aboutToList, self.lifetime client ≠ .destroyed
  | _ => False

instance (self : CDServer Client Packet W) (action : Action Client W) :
    Decidable (ListsBehindWalk self action) :=
  match action with
  | .work _ => inferInstanceAs (Decidable (_ ∧ ∃ _ ∈ _, _))
  | .accept _ | .receive _ _ | .read _ | .error _ _ | .kick _ | .cleanDisconnects
  | .clearDisconnecting => isFalse id

omit [DecidableEq Client] [DecidableEq W] in
private theorem initial_tidy : Tidy (createServer : CDServer Client Packet W).registry := by
  constructor
  · exact List.nodup_nil
  · intro client
    exact iff_of_false List.not_mem_nil nofun
  · intro client hmem
    exact absurd hmem List.not_mem_nil
  · intro hcleaning
    exact absurd hcleaning nofun

namespace Tidy

variable {registry : Registry Client} {client : Client}

theorem accept (htidy : Tidy registry) (hfresh : registry.lifetime client = .fresh) :
    Tidy { registry with
      clients := registry.clients ++ [client]
      lifetime := Function.update registry.lifetime client .live } := by
  have hnew : client ∉ registry.clients := by
    rw [htidy.live client, hfresh]
    exact nofun
  -- whoever is listed was accepted before, so it is another client
  have hother : ∀ other ∈ registry.disconnecting,
      Function.update registry.lifetime client .live other = registry.lifetime other := by
    intro other hmem
    apply Function.update_of_ne
    rintro rfl
    exact htidy.known other hmem hfresh
  constructor
  · exact htidy.nodup.append (List.nodup_singleton _) (List.disjoint_singleton.mpr hnew)
  · intro other
    show other ∈ registry.clients ++ [client] ↔
      Function.update registry.lifetime client .live other = .live
    by_cases heq : other = client
    · subst heq
      simp
    · simpa [heq] using htidy.live other
  · intro other hmem
    show Function.update registry.lifetime client .live other ≠ .fresh
    rw [hother other hmem]
    exact htidy.known other hmem
  · intro hcleaning other hmem
    show Function.update registry.lifetime client .live other = .destroyed
    rw [hother other hmem]
    exact htidy.walked hcleaning other hmem

omit [DecidableEq Client] in
theorem list (htidy : Tidy registry) (hknown : registry.lifetime client ≠ .fresh)
    (hwalked : registry.cleaning = true → registry.lifetime client = .destroyed) :
    Tidy { registry with disconnecting := registry.disconnecting ++ [client] } := by
  constructor
  · exact htidy.nodup
  · exact htidy.live
  · intro other hmem
    rcases List.mem_append.mp hmem with hold | hnew
    · exact htidy.known other hold
    · rw [List.mem_singleton.mp hnew]
      exact hknown
  · intro hcleaning other hmem
    rcases List.mem_append.mp hmem with hold | hnew
    · exact htidy.walked hcleaning other hold
    · rw [List.mem_singleton.mp hnew]
      exact hwalked hcleaning

omit [DecidableEq W] in
theorem walk {self : CDServer Client Packet W} (htidy : Tidy self.registry) :
    Tidy (cleanDisconnects self).1.registry := by
  have hlive : ∀ client, client ∈ self.clients ↔ self.lifetime client = .live := htidy.live
  obtain ⟨hnodup, hdisconnecting, hclients, hlifetime⟩ :=
    destroyListed_registry self self.disconnecting htidy.nodup
  -- a listed client was live, and is destroyed now, or it was destroyed before
  have hgone : ∀ client ∈ self.disconnecting,
      (destroyListed self self.disconnecting).1.lifetime client = .destroyed := by
    intro client hmem
    rw [hlifetime client]
    split_ifs with hon
    · rfl
    · have hoff : client ∉ self.clients := fun hon' => hon ⟨hon', hmem⟩
      rw [hlive client] at hoff
      have hne : self.lifetime client ≠ .fresh := htidy.known client hmem
      cases hlife : self.lifetime client
      · exact absurd hlife hne
      · exact absurd hlife hoff
      · rfl
  constructor
  · exact hnodup
  · intro client
    show client ∈ (destroyListed self self.disconnecting).1.clients ↔
      (destroyListed self self.disconnecting).1.lifetime client = .live
    rw [hclients client]
    by_cases hmem : client ∈ self.disconnecting
    · rw [hgone client hmem]
      simp [hmem]
    · rw [hlifetime client, if_neg fun hboth => hmem hboth.2, ← hlive client]
      exact and_iff_left hmem
  · intro client hmem
    show (destroyListed self self.disconnecting).1.lifetime client ≠ .fresh
    rw [hgone client (hdisconnecting ▸ hmem)]
    exact nofun
  · intro _ client hmem
    exact hgone client (hdisconnecting ▸ hmem)

omit [DecidableEq Client] in
theorem clear (htidy : Tidy registry) :
    Tidy { registry with disconnecting := [], cleaning := false } where
  nodup := htidy.nodup
  live := htidy.live
  known := fun _ hmem => absurd hmem List.not_mem_nil
  walked := nofun

end Tidy

/-- **One step keeps the lists tidy.** -/
theorem step_tidy {protocol : Option (CDProtocol Packet)} {self next : CDServer Client Packet W}
    {action : Action Client W} {emitted : List (Event Client Packet)} (htidy : Tidy self.registry)
    (hknown : ∀ worker client, self.workers worker = .listing client →
      self.lifetime client ≠ .fresh)
    (hbehind : ¬ ListsBehindWalk self action)
    (hstep : step protocol self action = some (next, emitted)) : Tidy next.registry := by
  rcases step_registry hstep with hsame | ⟨client, hfresh, haccepted⟩ |
    ⟨worker, client, rfl, hworker, hpushed⟩ | ⟨-, rfl⟩ | ⟨-, hcleared⟩
  · rw [hsame]
    exact htidy
  · rw [haccepted]
    exact htidy.accept hfresh
  · rw [hpushed]
    apply htidy.list (hknown worker client hworker)
    intro hcleaning
    by_contra hnot
    exact hbehind ⟨hcleaning, client, by rw [hworker]; rfl, hnot⟩
  · exact htidy.walk
  · rw [hcleared]
    exact htidy.clear

/-! ## The runs -/

variable [Fintype W]

/-- A worker lists only clients that were accepted. -/
theorem run_listing_known {protocol : Option (CDProtocol Packet)}
    {guard : CDServer Client Packet W → Action Client W → Prop}
    {events : List (Event Client Packet)} {state : CDServer Client Packet W}
    (hrun : (system protocol).Run guard events state) {worker : W} {client : Client}
    (hworker : state.workers worker = .listing client) : state.lifetime client ≠ .fresh := by
  obtain ⟨tail, horder⟩ := run_packetOrder hrun client
  intro hfresh
  have hnone : (state.view client).tokens = 0 := (horder.fresh hfresh).2
  have hheld : .listing ∈ state.held client :=
    CDServer.mem_held.mpr ⟨worker, by simp [hworker, CDWorker.token]⟩
  have htoken : Token.listing ∈ (state.view client).tokens :=
    Multiset.mem_add.mpr (.inr hheld)
  rw [hnone] at htoken
  exact Multiset.notMem_zero _ htoken

private theorem run_tidy {protocol : Option (CDProtocol Packet)}
    {events : List (Event Client Packet)}
    {state : CDServer Client Packet W}
    (hrun : (system protocol).Run (fun self action => ¬ ListsBehindWalk self action) events
      state) : Tidy state.registry := by
  induction hrun with
  | start => exact initial_tidy
  | step hprefix hguard hnext ih =>
      exact step_tidy ih (fun _ _ hworker => run_listing_known hprefix hworker) hguard hnext

/-- **No disconnect is dropped** in any run in which no worker lists a client between the walk
over `server->disconnecting` and the emptying of it: a client that a step takes off the list is
off `server->clients` and destroyed. -/
theorem disconnect_kept (protocol : Option (CDProtocol Packet))
    {events emitted : List (Event Client Packet)} {state next : CDServer Client Packet W}
    {action : Action Client W} {client : Client}
    (hrun : (system protocol).Run (fun self action => ¬ ListsBehindWalk self action) events state)
    (hstep : step protocol state action = some (next, emitted))
    (hbefore : client ∈ state.disconnecting) (hafter : client ∉ next.disconnecting) :
    Gone state client := by
  have htidy := run_tidy hrun
  have hdestroyed : state.cleaning = true → Gone state client := by
    intro hcleaning
    have hlifetime : state.lifetime client = .destroyed := htidy.walked hcleaning client hbefore
    refine ⟨fun hmem => ?_, hlifetime⟩
    have hlive : state.lifetime client = .live := (htidy.live client).mp hmem
    rw [hlifetime] at hlive
    cases hlive
  have hkept : ∀ disconnecting, next.registry.disconnecting = disconnecting →
      client ∉ disconnecting := by
    rintro _ rfl
    exact hafter
  rcases step_registry hstep with hsame | ⟨_, -, haccepted⟩ | ⟨_, _, -, -, hpushed⟩ | ⟨-, rfl⟩ |
    ⟨hcleaning, -⟩
  · exact absurd hbefore (hkept _ (congrArg Registry.disconnecting hsame))
  · exact absurd hbefore (hkept _ (congrArg Registry.disconnecting haccepted))
  · exact absurd (List.mem_append.mpr (.inl hbefore))
      (hkept _ (congrArg Registry.disconnecting hpushed))
  · -- the walk itself leaves the list alone
    have hsame := (destroyListed_registry state state.disconnecting htidy.nodup).2.1
    exact absurd hbefore (hkept _ hsame)
  · exact hdestroyed hcleaning

/-- A kicked client, destroyed by the walk and still listed. -/
def kickedAndWalked : List (Action ℕ (Fin 1)) := kickedOnce.dropLast

theorem disconnect_kept_kicked :
    ∃ state next events emitted, (system (some byteProtocol)).exec kickedAndWalked createServer =
        some (state, events) ∧
      step (some byteProtocol) state .clearDisconnecting = some (next, emitted) ∧
      0 ∈ state.disconnecting ∧ Gone state 0 := by
  have hwalked : ((system (some byteProtocol)).exec kickedAndWalked createServer).map
      (fun result => (result.1.disconnecting, result.1.cleaning)) = some ([0], true) := by
    decide
  obtain ⟨⟨state, events⟩, hexec, hstate⟩ := Option.map_eq_some_iff.mp hwalked
  obtain ⟨hdisconnecting, hcleaning⟩ := Prod.mk.inj hstate
  have hstep : step (some byteProtocol) state .clearDisconnecting =
      some ({ state with disconnecting := [], cleaning := false }, []) := by
    rw [step, if_pos hcleaning]
  have hlisted : 0 ∈ state.disconnecting := by
    rw [hdisconnecting]
    exact List.mem_singleton_self 0
  exact ⟨state, _, events, [], hexec, hstep, hlisted,
    disconnect_kept (some byteProtocol) (System.Run.exec .start (by decide) hexec) hstep hlisted
      List.not_mem_nil⟩

/-- Two kicked clients, the second of them listed behind the walk. -/
def listedBehindWalk : List (Action ℕ (Fin 2)) :=
  [.accept 0, .accept 1, .work 0, .work 0, .work 0, .work 0, .work 0, .work 1, .work 1, .work 1,
    .work 1, .work 1, .kick 0, .kick 1, .work 0, .work 0, .work 0, .work 0, .work 0, .work 1,
    .work 1, .work 1, .work 1, .cleanDisconnects, .work 1]

/-- The second client leaves the list, and nothing will ever destroy it. -/
theorem disconnect_dropped :
    ∃ state next events emitted,
      (system (some byteProtocol)).Run (fun _ _ => True) events state ∧
      step (some byteProtocol) state (.clearDisconnecting : Action ℕ (Fin 2)) =
        some (next, emitted) ∧
      1 ∈ state.disconnecting ∧ 1 ∉ next.disconnecting ∧ ¬ Gone state 1 := by
  have hlisted : ((system (some byteProtocol)).exec listedBehindWalk createServer).map
      (fun result => (result.1.disconnecting, result.1.cleaning, result.1.lifetime 1)) =
        some ([0, 1], true, .live) := by
    decide
  obtain ⟨⟨state, events⟩, hexec, hstate⟩ := Option.map_eq_some_iff.mp hlisted
  obtain ⟨hdisconnecting, hcleaning, hlive⟩ := by simpa using hstate
  refine ⟨state, { state with disconnecting := [], cleaning := false }, events, [],
    System.Run.exec .start (System.execGuard_true _ _) hexec, ?_, ?_, ?_, ?_⟩
  · rw [step, if_pos hcleaning]
  · rw [hdisconnecting]
    decide
  · exact List.not_mem_nil
  · intro hgone
    rw [hgone.2] at hlive
    cases hlive

end Craftd.Server
