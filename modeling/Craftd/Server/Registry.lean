import Craftd.Server.Model

/-!
# What a step does to the lists of clients

Few steps write `server->clients`, `server->disconnecting` or a client's lifetime.
`step_registry` says which ones and what they write, so that an invariant about the
lists need not look at the other steps.
-/

namespace Craftd.Server

open StepSystem

variable {Client Packet W : Type*}

/-- The lists of clients, and which clients exist. -/
structure Registry (Client : Type*) where
  clients : List Client
  lifetime : Client → Lifetime
  disconnecting : List Client
  cleaning : Bool

/-- The registry of a server. -/
def CDServer.registry (self : CDServer Client Packet W) : Registry Client :=
  ⟨self.clients, self.lifetime, self.disconnecting, self.cleaning⟩

section Callbacks

variable [DecidableEq Client]

theorem serverKick_registry (self : CDServer Client Packet W) (client : Client) :
    (serverKick self client).1.registry = self.registry := by
  unfold serverKick
  split_ifs <;> rfl

theorem errorCallback_registry (self : CDServer Client Packet W) (client : Client)
    (error : BitVec 16) : (errorCallback self client error).1.registry = self.registry := by
  unfold errorCallback
  split_ifs <;> rfl

theorem readCallback_registry {protocol : Option (CDProtocol Packet)}
    {self next : CDServer Client Packet W} {reader : Client} {emitted : List (Event Client Packet)}
    (hread : readCallback protocol self reader = some (next, emitted)) :
    next.registry = self.registry := by
  have hkick := serverKick_registry self reader
  unfold readCallback at hread
  repeat' split at hread
  all_goals simp only [Option.some.injEq, reduceCtorEq] at hread
  all_goals first | (rw [hread] at hkick; exact hkick) | (cases hread; rfl)

end Callbacks

variable [DecidableEq Client] [DecidableEq W]

/-- What `CD_RunWorker` does to the registry: it lists the client of a disconnect job. -/
theorem runWorker_registry {protocol : Option (CDProtocol Packet)}
    {self next : CDServer Client Packet W} {worker : W} {emitted : List (Event Client Packet)}
    (hrun : runWorker protocol self worker = some (next, emitted)) :
    next.registry = self.registry ∨ ∃ client, self.workers worker = .listing client ∧
      next.registry = { self.registry with
        disconnecting := self.disconnecting ++ [client] } := by
  unfold runWorker at hrun
  cases hworker : self.workers worker with
  | listing client =>
      -- the one section that writes the list of the disconnected
      simp only [hworker] at hrun
      cases hrun
      exact .inr ⟨client, rfl, rfl⟩
  | reading client =>
      simp only [hworker] at hrun
      exact .inl ((readCallback_registry hrun).trans rfl)
  | holding job =>
      left
      cases job with
      | custom | clientDisconnect client =>
          simp only [hworker] at hrun
          cases hrun
          rfl
      | clientConnect client | clientProcess client packet =>
          simp only [hworker] at hrun
          cases hrun
          unfold checkStatus
          split_ifs <;> rfl
  | ready =>
      left
      simp only [hworker] at hrun
      split at hrun <;> cases hrun <;> rfl
  | rechecking client | waiting client =>
      left
      simp only [hworker] at hrun
      split_ifs at hrun <;> cases hrun <;> rfl
  | connecting client | connected client | processing client packet | processed client packet
  | disconnecting client | flushing client =>
      left
      simp only [hworker] at hrun
      cases hrun
      rfl

/-- **What one step does to the registry.** -/
theorem step_registry {protocol : Option (CDProtocol Packet)}
    {self next : CDServer Client Packet W} {action : Action Client W}
    {emitted : List (Event Client Packet)}
    (hstep : step protocol self action = some (next, emitted)) :
    next.registry = self.registry ∨
      (∃ client, self.lifetime client = .fresh ∧
        next.registry = { self.registry with
          clients := self.clients ++ [client]
          lifetime := Function.update self.lifetime client .live }) ∨
      (∃ worker client, action = .work worker ∧ self.workers worker = .listing client ∧
        next.registry = { self.registry with
          disconnecting := self.disconnecting ++ [client] }) ∨
      (self.cleaning = false ∧ next = (cleanDisconnects self).1) ∨
      (self.cleaning = true ∧ next.registry = { self.registry with
        disconnecting := []
        cleaning := false }) := by
  cases action with
  | accept client =>
      obtain ⟨hfresh, rfl, -⟩ := by simpa [step] using hstep
      exact .inr (.inl ⟨client, hfresh, rfl⟩)
  | receive client bytes =>
      obtain ⟨-, rfl, -⟩ := by simpa [step] using hstep
      exact .inl rfl
  | read client =>
      obtain ⟨-, hread⟩ := by simpa [step] using hstep
      exact .inl (readCallback_registry hread)
  | error client error =>
      obtain ⟨-, herror⟩ := by simpa [step] using hstep
      have hregistry := errorCallback_registry self client error
      rw [herror] at hregistry
      exact .inl hregistry
  | kick client =>
      obtain ⟨-, hkick⟩ := by simpa [step] using hstep
      have hregistry := serverKick_registry self client
      rw [hkick] at hregistry
      exact .inl hregistry
  | work worker =>
      rcases runWorker_registry hstep with hsame | ⟨client, hworker, hlisted⟩
      · exact .inl hsame
      · exact .inr (.inr (.inl ⟨worker, client, rfl, hworker, hlisted⟩))
  | cleanDisconnects =>
      obtain ⟨⟨hidle, -⟩, hclean⟩ := by simpa [step] using hstep
      exact .inr (.inr (.inr (.inl ⟨hidle, by rw [hclean]⟩)))
  | clearDisconnecting =>
      obtain ⟨hcleaning, rfl, -⟩ := by simpa [step] using hstep
      exact .inr (.inr (.inr (.inr ⟨hcleaning, rfl⟩)))

omit [DecidableEq W] in
/-- The walk over `server->disconnecting` only takes clients off `server->clients`. -/
theorem destroyListed_clients (self : CDServer Client Packet W) (listed : List Client) :
    (destroyListed self listed).1.clients.Sublist self.clients := by
  induction listed generalizing self with
  | nil => exact List.Sublist.refl _
  | cons head rest ih =>
      unfold destroyListed
      split
      · exact (ih _).trans List.erase_sublist
      · exact ih self

end Craftd.Server
