import Craftd.Server.Model
import Mathlib.Data.Multiset.Count
import Mathlib.Data.Multiset.Filter

/-!
# One client as a token game

The abstract model of a client's life.  Every job of the client, from the
moment it is queued until its last section is done, is one `Token`; the client
itself is its status, its jobs counter, the queue of its own jobs in the order
of the server's queue, and the multiset of its jobs in some worker's hands.

`ClientStep` says once and for all what any step of any thread can do to one
client (`Simulation.lean` proves that the server does nothing else).  Three of
its rules can be forbidden separately through `Allowed`: discarding the connect
job of a disconnected client, adding a disconnect job for a client that already
has one, and destroying a client whose disconnect job has not ended.
-/

namespace Craftd.Server

/-- A job of one client and how far it has got. -/
inductive Token (Packet : Type*)
  /-- the connect job, up to the section that sets the status -/
  | connect
  /-- a process job whose packet has not been dispatched -/
  | waiting (packet : Packet)
  /-- a process job whose packet has been dispatched, up to its last section -/
  | running
  /-- a disconnect job whose event has not been dispatched -/
  | pending
  /-- a disconnect job that has yet to list the client for destruction -/
  | listing
  /-- a disconnect job that has listed the client and has yet to end -/
  | flushing
  deriving DecidableEq

/-- An event of one client. -/
inductive ClientEvent (Packet : Type*)
  | parsed (packet : Packet)
  | process (packet : Packet)
  | addDisconnect
  | disconnect
  | destroy
  deriving DecidableEq

/-- The abstract state of one client. -/
structure ClientView (Packet : Type*) where
  status : CDClientStatus
  jobs : BitVec 8
  lifetime : Lifetime
  listed : Prop
  queue : List (Token Packet)
  held : Multiset (Token Packet)

/-- A client before it is accepted. -/
def ClientView.initial {Packet : Type*} : ClientView Packet where
  status := .connect
  jobs := 0
  lifetime := .fresh
  listed := False
  queue := []
  held := 0

/-- All jobs of a client. -/
def ClientView.tokens {Packet : Type*} (v : ClientView Packet) : Multiset (Token Packet) :=
  v.queue + v.held

/-- Which of the three questionable steps may be taken. -/
structure Allowed where
  dropConnect : Prop
  repeatDisconnect : Prop
  destroyEarly : Prop

/-- Every step may be taken. -/
def Allowed.all : Allowed := ⟨True, True, True⟩

variable {Packet : Type*}

/-- What one step can do to one client. -/
inductive ClientStep (allowed : Allowed) :
    ClientView Packet → List (ClientEvent Packet) → ClientView Packet → Prop
  | quiet (v : ClientView Packet) : ClientStep allowed v [] v
  | accept (v : ClientView Packet) (hfresh : v.lifetime = .fresh) :
      ClientStep allowed v []
        { v with lifetime := .live, status := .connect, jobs := 0, queue := v.queue ++ [.connect] }
  | parse (v : ClientView Packet) (packet : Packet) (hidle : v.status = .idle) :
      ClientStep allowed v [.parsed packet]
        { v with status := .process, jobs := v.jobs + 1, queue := v.queue ++ [.waiting packet] }
  | hangUp (v : ClientView Packet) (hknown : v.lifetime ≠ .fresh ∨ v.status = .idle)
      (hrepeat : allowed.repeatDisconnect ∨ v.status ≠ .disconnect) :
      ClientStep allowed v [.addDisconnect]
        { v with status := .disconnect, queue := v.queue ++ [.pending] }
  | pop (v : ClientView Packet) (token : Token Packet) (rest : List (Token Packet))
      (hqueue : v.queue = token :: rest) :
      ClientStep allowed v [] { v with queue := rest, held := v.held + {token} }
  | dropConnect (v : ClientView Packet) (rest : Multiset (Token Packet))
      (hheld : v.held = rest + {.connect}) (hstatus : v.status = .disconnect)
      (hdrop : allowed.dropConnect) :
      ClientStep allowed v [] { v with jobs := v.jobs - 1, held := rest }
  | dropProcess (v : ClientView Packet) (rest : Multiset (Token Packet)) (packet : Packet)
      (hheld : v.held = rest + {.waiting packet}) (hstatus : v.status = .disconnect) :
      ClientStep allowed v [] { v with jobs := v.jobs - 1, held := rest }
  | settle (v : ClientView Packet) (rest : Multiset (Token Packet))
      (hheld : v.held = rest + {.connect}) :
      ClientStep allowed v [] { v with status := settle v.status, held := rest }
  | dispatch (v : ClientView Packet) (rest : Multiset (Token Packet)) (packet : Packet)
      (hheld : v.held = rest + {.waiting packet}) :
      ClientStep allowed v [.process packet] { v with held := rest + {.running} }
  | finish (v : ClientView Packet) (rest : Multiset (Token Packet))
      (hheld : v.held = rest + {.running}) :
      ClientStep allowed v []
        { v with status := settle v.status, jobs := v.jobs - 1, held := rest }
  | disconnect (v : ClientView Packet) (rest : Multiset (Token Packet))
      (hheld : v.held = rest + {.pending}) :
      ClientStep allowed v [.disconnect] { v with held := rest + {.listing} }
  | list (v : ClientView Packet) (rest : Multiset (Token Packet))
      (hheld : v.held = rest + {.listing}) :
      ClientStep allowed v [] { v with listed := True, held := rest + {.flushing} }
  | flush (v : ClientView Packet) (rest : Multiset (Token Packet))
      (hheld : v.held = rest + {.flushing}) :
      ClientStep allowed v [] { v with held := rest }
  | destroy (v : ClientView Packet) (hlisted : v.listed)
      (hearly : allowed.destroyEarly ∨ .flushing ∉ v.held) :
      ClientStep allowed v [.destroy] { v with lifetime := .destroyed }
  | unlist (v : ClientView Packet) : ClientStep allowed v [] { v with listed := False }

namespace ClientView

theorem tokens_of_held {v : ClientView Packet} {rest : Multiset (Token Packet)}
    {token : Token Packet} (hheld : v.held = rest + {token}) :
    v.tokens = (v.queue + rest) + {token} := by
  rw [tokens, hheld, add_assoc]

theorem tokens_of_append {v v' : ClientView Packet} {token : Token Packet}
    (hqueue : v'.queue = v.queue ++ [token]) (hheld : v'.held = v.held) :
    v'.tokens = v.tokens + {token} := by
  rw [tokens, hqueue, hheld, ← Multiset.coe_add, Multiset.coe_singleton, tokens, add_right_comm]

/-- Popping a job does not change what jobs there are. -/
theorem tokens_of_pop {v v' : ClientView Packet} {token : Token Packet}
    {rest : List (Token Packet)} (hqueue : v.queue = token :: rest) (hqueue' : v'.queue = rest)
    (hheld : v'.held = v.held + {token}) : v'.tokens = v.tokens := by
  rw [tokens, tokens, hqueue, hqueue', hheld, ← Multiset.cons_coe, ← Multiset.singleton_add,
    ← add_assoc, add_comm, ← add_assoc]

end ClientView

theorem ClientStep.lifetime_ne_fresh {allowed : Allowed} {v v' : ClientView Packet}
    {emitted : List (ClientEvent Packet)} (hstep : ClientStep allowed v emitted v')
    (hv : v.lifetime ≠ .fresh) : v'.lifetime ≠ .fresh := by
  cases hstep <;> simp_all

@[simp] theorem settle_disconnect : settle .disconnect = .disconnect := rfl

/-! ## Counting jobs -/

/-- The tokens of a connect job. -/
@[simp] def Token.isConnect : Token Packet → Bool
  | .connect => true
  | _ => false

/-- The tokens of a process job. -/
@[simp] def Token.isProcess : Token Packet → Bool
  | .waiting _ | .running => true
  | _ => false

/-- How many tokens of a kind there are. -/
def countTokens (kind : Token Packet → Bool) (tokens : Multiset (Token Packet)) : ℕ :=
  tokens.countP fun token => kind token

section CountTokens

variable {kind : Token Packet → Bool}

@[simp] theorem countTokens_zero : countTokens kind 0 = 0 := rfl

@[simp] theorem countTokens_add (tokens more : Multiset (Token Packet)) :
    countTokens kind (tokens + more) = countTokens kind tokens + countTokens kind more :=
  Multiset.countP_add _ _ _

@[simp] theorem countTokens_singleton (token : Token Packet) :
    countTokens kind {token} = (kind token).toNat := by
  rw [countTokens, ← Multiset.cons_zero, Multiset.countP_cons]
  cases kind token <;> rfl

theorem countTokens_pos (kind : Token Packet → Bool) {tokens : Multiset (Token Packet)}
    {token : Token Packet} (hmem : token ∈ tokens) (hkind : kind token) :
    0 < countTokens kind tokens :=
  Multiset.countP_pos.mpr ⟨token, hmem, hkind⟩

theorem not_mem_of_countTokens {tokens : Multiset (Token Packet)} {token : Token Packet}
    (hcount : countTokens kind tokens = 0) (hkind : kind token) : token ∉ tokens :=
  fun hmem => (countTokens_pos kind hmem hkind).ne' hcount

/-- One token in a worker's hands counted apart. -/
theorem ClientView.countTokens_of_held {v : ClientView Packet} {rest : Multiset (Token Packet)}
    {token : Token Packet} (hheld : v.held = rest + {token}) :
    countTokens kind v.tokens =
      countTokens kind ((v.queue : Multiset (Token Packet)) + rest) + (kind token).toNat := by
  rw [tokens_of_held hheld, countTokens_add _ {_}, countTokens_singleton]

theorem ClientView.countTokens_of_append {v v' : ClientView Packet} {token : Token Packet}
    (hqueue : v'.queue = v.queue ++ [token]) (hheld : v'.held = v.held) :
    countTokens kind v'.tokens = countTokens kind v.tokens + (kind token).toNat := by
  rw [tokens_of_append hqueue hheld, countTokens_add _ {_}, countTokens_singleton]

end CountTokens

/-! ## The view of a client in the server -/

/-- The token of a queued job, if it is one of the client. -/
def CDJob.token {Client : Type*} [DecidableEq Client] (client : Client) :
    CDJob Client Packet → Option (Token Packet)
  | .clientConnect other => if other = client then some .connect else none
  | .clientProcess other packet => if other = client then some (.waiting packet) else none
  | .clientDisconnect other => if other = client then some .pending else none
  | .custom => none

/-- The token of a worker's job, if it is one of the client. -/
def CDWorker.token {Client : Type*} [DecidableEq Client] (client : Client) :
    CDWorker Client Packet → Option (Token Packet)
  | .holding job => job.token client
  | .connecting other | .connected other => if other = client then some .connect else none
  | .processing other packet => if other = client then some (.waiting packet) else none
  | .processed other _ => if other = client then some .running else none
  | .waiting other | .disconnecting other => if other = client then some .pending else none
  | .listing other => if other = client then some .listing else none
  | .flushing other => if other = client then some .flushing else none
  | .ready | .rechecking _ | .reading _ => none

/-- At most one token, as a multiset. -/
def inHand (token : Option (Token Packet)) : Multiset (Token Packet) :=
  token.elim 0 ({·})

@[simp] theorem inHand_none : inHand (none : Option (Token Packet)) = 0 := rfl

@[simp] theorem inHand_some (token : Token Packet) : inHand (some token) = {token} := rfl

/-- The event of one client, if it is one. -/
def Event.about {Client : Type*} [DecidableEq Client] (client : Client) :
    Event Client Packet → Option (ClientEvent Packet)
  | .parsed other packet => if other = client then some (.parsed packet) else none
  | .connect _ => none
  | .process other packet => if other = client then some (.process packet) else none
  | .addDisconnect other => if other = client then some .addDisconnect else none
  | .disconnect other => if other = client then some .disconnect else none
  | .destroy other => if other = client then some .destroy else none

variable {Client W : Type*} [DecidableEq Client] [DecidableEq W] [Fintype W]

namespace CDServer

/-- The tokens of a client's jobs that are in the workers' hands. -/
def held (self : CDServer Client Packet W) (client : Client) : Multiset (Token Packet) :=
  ∑ worker, inHand ((self.workers worker).token client)

/-- The abstract state of a client of the server. -/
def view (self : CDServer Client Packet W) (client : Client) : ClientView Packet where
  status := (self.client client).status
  jobs := (self.client client).jobs
  lifetime := self.lifetime client
  listed := client ∈ self.disconnecting
  queue := self.jobs.filterMap (CDJob.token client)
  held := self.held client

omit [DecidableEq W] in
theorem mem_held {self : CDServer Client Packet W} {client : Client} {token : Token Packet} :
    token ∈ self.held client ↔ ∃ worker, (self.workers worker).token client = some token := by
  simp only [held, Multiset.mem_sum, Finset.mem_univ, true_and]
  refine exists_congr fun worker => ?_
  cases (self.workers worker).token client <;> simp [inHand, eq_comm]

omit [DecidableEq W] in
@[simp] theorem view_setClient_of_ne (self : CDServer Client Packet W) {client other : Client}
    (hne : other ≠ client) (value : CDClient) :
    (self.setClient other value).view client = self.view client := by
  simp only [view, setClient, held, Function.update_of_ne hne.symm]

omit [DecidableEq W] in
@[simp] theorem view_setClient_self (self : CDServer Client Packet W) (client : Client)
    (value : CDClient) :
    (self.setClient client value).view client =
      { self.view client with status := value.status, jobs := value.jobs } := by
  simp only [view, setClient, held, Function.update_self]

omit [DecidableEq W] in
@[simp] theorem view_addJob (self : CDServer Client Packet W) (client : Client)
    (job : CDJob Client Packet) :
    (self.addJob job).view client =
      { self.view client with
        queue := (self.view client).queue ++ (job.token client).toList } := by
  simp only [view, addJob, List.filterMap_append, held]
  cases hjob : job.token client <;> simp [hjob]

/-- Moving one worker exchanges its token and leaves a rest alone. -/
theorem exists_rest_view (self : CDServer Client Packet W) (client : Client) (worker : W) :
    ∃ rest, (self.view client).held = rest + inHand ((self.workers worker).token client) ∧
      ∀ value, (self.setWorker worker value).view client =
        { self.view client with held := rest + inHand (value.token client) } := by
  obtain ⟨rest, hrest⟩ := StepSystem.exists_rest_sum self.workers
    (fun value => inHand (value.token client)) worker
  refine ⟨rest, ?_, fun value => ?_⟩
  · have hself := hrest (self.workers worker)
    rwa [Function.update_eq_self] at hself
  · rw [← hrest value]
    rfl

/-- A worker that keeps its token leaves the view alone. -/
theorem view_setWorker_of_token_eq (self : CDServer Client Packet W) (client : Client)
    (worker : W) {value : CDWorker Client Packet}
    (htoken : value.token client = (self.workers worker).token client) :
    (self.setWorker worker value).view client = self.view client := by
  obtain ⟨rest, hself, hset⟩ := self.exists_rest_view client worker
  rw [hset, htoken, ← hself]

omit [Fintype W] in
theorem setWorker_setClient (self : CDServer Client Packet W) (client : Client) (value : CDClient)
    (worker : W) (next : CDWorker Client Packet) :
    (self.setClient client value).setWorker worker next =
      (self.setWorker worker next).setClient client value := rfl

end CDServer

/-! ## The questionable steps -/

/-- A worker finds the client of a connect job disconnected and discards the
job. -/
def DropsConnectJob (self : CDServer Client Packet W) (action : Action Client W)
    (client : Client) : Prop :=
  ∃ worker, action = .work worker ∧ self.workers worker = .holding (.clientConnect client) ∧
    (self.client client).status = .disconnect

/-- The error callback disconnects a client that is already disconnected. -/
def RepeatsDisconnect (self : CDServer Client Packet W) (action : Action Client W)
    (client : Client) : Prop :=
  match action with
  | .error other error =>
      other = client ∧ bevDisconnects error ∧ (self.client client).status = .disconnect
  | _ => False

/-- The main thread destroys a client while a worker has yet to end its
disconnect job. -/
def DestroysEarly (self : CDServer Client Packet W) (action : Action Client W)
    (client : Client) : Prop :=
  action = .cleanDisconnects ∧ client ∈ self.disconnecting ∧
    ∃ worker, self.workers worker = .flushing client

/-- A step that takes only the allowed liberties with a client. -/
def Allowed.Permits (allowed : Allowed) (client : Client) (self : CDServer Client Packet W)
    (action : Action Client W) : Prop :=
  (DropsConnectJob self action client → allowed.dropConnect) ∧
    (RepeatsDisconnect self action client → allowed.repeatDisconnect) ∧
    (DestroysEarly self action client → allowed.destroyEarly)

omit [DecidableEq W] [Fintype W] [DecidableEq Client] in
theorem permits_all (client : Client) (self : CDServer Client Packet W)
    (action : Action Client W) : Allowed.all.Permits client self action :=
  ⟨fun _ => trivial, fun _ => trivial, fun _ => trivial⟩

end Craftd.Server
