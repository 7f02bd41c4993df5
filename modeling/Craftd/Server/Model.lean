import Craftd.Library.System
import Mathlib.Data.BitVec
import Mathlib.Data.Multiset.AddSub

/-!
# The server: clients, the job queue and the worker pool

A translation of the parts of `Server.c`, `Worker.c`, `Workers.c` and `Job.c`
that move a client through its life: `cd_Accept`, `cd_ReadCallback`,
`cd_ErrorCallback`, `CD_ServerKick`, `CD_ReadFromClient`, `CD_RunWorker` and
`CD_ServerCleanDisconnects`.  Any number of clients share one queue and any
number of workers pop it.

One action is one atomic step.  A section under `client->lock.status` is one
step, and so is a `CD_AddJob`, a `CD_NextJob` and each list call under its own
lock.  A worker's place inside `CD_RunWorker` is a value of `CDWorker`, so that
a kick, an arrival, an error or another worker may come between any two of its
sections.

Three choices of the model are to be read with the source.

* `cd_ReadCallback` calls `CD_ServerKick` while it holds the lock that the kick
  takes.  The kick is part of the callback's section here; where the lock
  implementation deadlocks instead, the step is simply never completed.
* A protocol's `parsable` may fail to return; then the callback's step is never
  completed either.
* A destroyed client keeps its last contents, and the workers' steps on it are
  still taken.  Nothing below depends on what a step reads after the free.
-/

namespace Craftd.Server

/-- A byte of a buffer. -/
abbrev Byte := BitVec 8

/-- `CDClientStatus`. -/
inductive CDClientStatus
  | connect
  | idle
  | process
  | disconnect
  deriving DecidableEq, Repr

/-- `CDClient`: its status, its `uint8_t` jobs counter, the content of its input
buffer and whether its error field is set. -/
structure CDClient where
  status : CDClientStatus
  jobs : BitVec 8
  input : List Byte
  error : Bool
  deriving DecidableEq, Repr

/-- What `CD_CreateClient` returns. -/
def createClient : CDClient :=
  { status := .connect, jobs := 0, input := [], error := false }

/-- What a protocol's `parsable` answers: `true`, or `false` with `errno` set. -/
inductive Parsable
  | parsable
  | again
  | badSequence
  deriving DecidableEq, Repr

/-- `CDProtocol`: whether the buffer holds a whole packet (`none` when the check
never returns), and what parsing takes out of it (no packet stands for NULL). -/
structure CDProtocol (Packet : Type*) where
  parsable : List Byte → Option Parsable
  parse : List Byte → Option Packet × List Byte

/-- `CDJob`. -/
inductive CDJob (Client Packet : Type*)
  | clientConnect (client : Client)
  | clientProcess (client : Client) (packet : Packet)
  | clientDisconnect (client : Client)
  | custom
  deriving DecidableEq, Repr

/-- Where a worker stands in the loop of `CD_RunWorker`. -/
inductive CDWorker (Client Packet : Type*)
  /-- at the top of the loop, without a job -/
  | ready
  /-- a job was popped, the client's status not yet checked -/
  | holding (job : CDJob Client Packet)
  /-- before `Client.connect` is dispatched -/
  | connecting (client : Client)
  /-- `Client.connect` was dispatched, the status not yet set -/
  | connected (client : Client)
  /-- before `Client.process` is dispatched -/
  | processing (client : Client) (packet : Packet)
  /-- `Client.process` was dispatched, status and counter not yet set -/
  | processed (client : Client) (packet : Packet)
  /-- the job is done, the input buffer's length not yet looked at -/
  | rechecking (client : Client)
  /-- before `CD_ReadFromClient` -/
  | reading (client : Client)
  /-- in the wait loop of a disconnect job -/
  | waiting (client : Client)
  /-- before `Client.disconnect` is dispatched -/
  | disconnecting (client : Client)
  /-- before the client is pushed onto `server->disconnecting` -/
  | listing (client : Client)
  /-- before `CD_ServerFlush` and the end of the disconnect job -/
  | flushing (client : Client)
  deriving DecidableEq, Repr

/-- Whether a client object exists. -/
inductive Lifetime
  | fresh
  | live
  | destroyed
  deriving DecidableEq, Repr

/-- `CDServer`, with its workers and the main thread's place in
`CD_ServerCleanDisconnects`. -/
structure CDServer (Client Packet W : Type*) where
  client : Client → CDClient
  lifetime : Client → Lifetime
  clients : List Client
  disconnecting : List Client
  cleaning : Bool
  jobs : List (CDJob Client Packet)
  workers : W → CDWorker Client Packet

/-- What happens, as far as the plugins and the tests can see it. -/
inductive Event (Client Packet : Type*)
  | parsed (client : Client) (packet : Packet)
  | connect (client : Client)
  | process (client : Client) (packet : Packet)
  | addDisconnect (client : Client)
  | disconnect (client : Client)
  | destroy (client : Client)
  deriving DecidableEq, Repr

/-- The masks of libevent that `cd_ErrorCallback` looks at. -/
def bevEventEof : BitVec 16 := 0x10
def bevEventError : BitVec 16 := 0x20
def bevEventTimeout : BitVec 16 := 0x40

/-- The condition under which `cd_ErrorCallback` does not return at once. -/
abbrev bevDisconnects (error : BitVec 16) : Prop :=
  error &&& bevEventEof ≠ 0 ∨ error &&& bevEventError ≠ 0 ∨ error &&& bevEventTimeout ≠ 0

/-- The steps of the threads.  `kick` is `CD_ServerKick` from any thread, a
packet handler on a worker included. -/
inductive Action (Client W : Type*)
  | accept (client : Client)
  | receive (client : Client) (bytes : List Byte)
  | read (client : Client)
  | error (client : Client) (error : BitVec 16)
  | kick (client : Client)
  | work (worker : W)
  | cleanDisconnects
  | clearDisconnecting
  deriving DecidableEq, Repr

variable {Client Packet W : Type*} [DecidableEq Client] [DecidableEq W]

namespace CDServer

/-- Replace one client. -/
def setClient (self : CDServer Client Packet W) (client : Client) (value : CDClient) :
    CDServer Client Packet W :=
  { self with client := Function.update self.client client value }

/-- Replace one worker. -/
def setWorker (self : CDServer Client Packet W) (worker : W) (value : CDWorker Client Packet) :
    CDServer Client Packet W :=
  { self with workers := Function.update self.workers worker value }

/-- `CD_AddJob`. -/
def addJob (self : CDServer Client Packet W) (job : CDJob Client Packet) :
    CDServer Client Packet W :=
  { self with jobs := self.jobs ++ [job] }

end CDServer

/-- The server before the first client: no jobs, all workers at the top of
their loop. -/
def createServer : CDServer Client Packet W where
  client := fun _ => createClient
  lifetime := fun _ => .fresh
  clients := []
  disconnecting := []
  cleaning := false
  jobs := []
  workers := fun _ => .ready

/-- `cd_Accept`, on the path that keeps the client. -/
def accept (self : CDServer Client Packet W) (client : Client) : CDServer Client Packet W :=
  let self := self.setClient client createClient
  let self := { self with
    lifetime := Function.update self.lifetime client .live
    clients := self.clients ++ [client] }
  self.addJob (.clientConnect client)

/-- `CD_ServerKick`. -/
def serverKick (self : CDServer Client Packet W) (client : Client) :
    CDServer Client Packet W × List (Event Client Packet) :=
  if (self.client client).status = .disconnect then
    (self, [])
  else
    let self := self.setClient client { self.client client with status := .disconnect }
    (self.addJob (.clientDisconnect client), [.addDisconnect client])

/-- `cd_ReadCallback`.  A parse that fails has still taken its bytes out of the
buffer. -/
def readCallback (protocol : Option (CDProtocol Packet)) (self : CDServer Client Packet W)
    (client : Client) : Option (CDServer Client Packet W × List (Event Client Packet)) :=
  match protocol with
  | none => some (self, [])
  | some protocol =>
      if (self.client client).status = .idle then
        match protocol.parsable (self.client client).input with
        | none => none
        | some .parsable =>
            match protocol.parse (self.client client).input with
            | (some packet, rest) =>
                let self := self.setClient client
                  { self.client client with
                    input := rest
                    status := .process
                    jobs := (self.client client).jobs + 1 }
                some (self.addJob (.clientProcess client packet), [.parsed client packet])
            | (none, rest) =>
                some (self.setClient client { self.client client with input := rest }, [])
        | some .again => some (self, [])
        | some .badSequence => some (serverKick self client)
      else
        some (self, [])

/-- `cd_ErrorCallback`. -/
def errorCallback (self : CDServer Client Packet W) (client : Client) (error : BitVec 16) :
    CDServer Client Packet W × List (Event Client Packet) :=
  if bevDisconnects error then
    let self := self.setClient client
      { self.client client with status := .disconnect, error := error ≠ 0 }
    (self.addJob (.clientDisconnect client), [.addDisconnect client])
  else
    (self, [])

/-- The status check of `CD_RunWorker` on a connect or process job: a
disconnected client's job is destroyed and its counter lowered. -/
def checkStatus (self : CDServer Client Packet W) (worker : W) (client : Client)
    (next : CDWorker Client Packet) : CDServer Client Packet W :=
  if (self.client client).status = .disconnect then
    let self := self.setClient client
      { self.client client with jobs := (self.client client).jobs - 1 }
    self.setWorker worker .ready
  else
    self.setWorker worker next

/-- The status a client has after a job that is done. -/
def settle (status : CDClientStatus) : CDClientStatus :=
  if status ≠ .disconnect then .idle else .disconnect

/-- One step of `CD_RunWorker`. -/
def runWorker (protocol : Option (CDProtocol Packet)) (self : CDServer Client Packet W)
    (worker : W) : Option (CDServer Client Packet W × List (Event Client Packet)) :=
  match self.workers worker with
  | .ready =>
      match self.jobs with
      | [] => some (self, [])
      | job :: rest => some ({ self with jobs := rest }.setWorker worker (.holding job), [])
  | .holding .custom => some (self.setWorker worker .ready, [])
  | .holding (.clientConnect client) =>
      some (checkStatus self worker client (.connecting client), [])
  | .holding (.clientProcess client packet) =>
      some (checkStatus self worker client (.processing client packet), [])
  | .holding (.clientDisconnect client) => some (self.setWorker worker (.waiting client), [])
  | .connecting client => some (self.setWorker worker (.connected client), [.connect client])
  | .connected client =>
      let self := self.setClient client
        { self.client client with status := settle (self.client client).status }
      some (self.setWorker worker (.rechecking client), [])
  | .processing client packet =>
      some (self.setWorker worker (.processed client packet), [.process client packet])
  | .processed client _ =>
      let self := self.setClient client
        { self.client client with
          status := settle (self.client client).status
          jobs := (self.client client).jobs - 1 }
      some (self.setWorker worker (.rechecking client), [])
  | .rechecking client =>
      if 0 < (self.client client).input.length then
        some (self.setWorker worker (.reading client), [])
      else
        some (self.setWorker worker .ready, [])
  | .reading client => readCallback protocol (self.setWorker worker .ready) client
  | .waiting client =>
      if (self.client client).jobs < 1 then
        some (self.setWorker worker (.disconnecting client), [])
      else
        some (self, [])
  | .disconnecting client => some (self.setWorker worker (.listing client), [.disconnect client])
  | .listing client =>
      some ({ self with disconnecting := self.disconnecting ++ [client] }.setWorker worker
        (.flushing client), [])
  | .flushing _ => some (self.setWorker worker .ready, [])

/-- The loop of `CD_ServerCleanDisconnects`: a client still on `server->clients`
is taken off it and destroyed. -/
def destroyListed (self : CDServer Client Packet W) :
    List Client → CDServer Client Packet W × List (Event Client Packet)
  | [] => (self, [])
  | client :: rest =>
      if client ∈ self.clients then
        let next := destroyListed { self with
          clients := self.clients.erase client
          lifetime := Function.update self.lifetime client .destroyed } rest
        (next.1, .destroy client :: next.2)
      else
        destroyListed self rest

/-- `CD_ServerCleanDisconnects` up to the end of its loop over
`server->disconnecting`; `clearDisconnecting` is the `CD_ListClear` after it. -/
def cleanDisconnects (self : CDServer Client Packet W) :
    CDServer Client Packet W × List (Event Client Packet) :=
  let result := destroyListed self self.disconnecting
  ({ result.1 with cleaning := true }, result.2)

/-- One step of some thread, `none` when the thread cannot take it. -/
def step (protocol : Option (CDProtocol Packet)) (self : CDServer Client Packet W) :
    Action Client W → Option (CDServer Client Packet W × List (Event Client Packet))
  | .accept client =>
      if self.lifetime client = .fresh then some (accept self client, []) else none
  | .receive client bytes =>
      if self.lifetime client = .live then
        some (self.setClient client
          { self.client client with input := (self.client client).input ++ bytes }, [])
      else none
  | .read client =>
      if self.lifetime client = .live then readCallback protocol self client else none
  | .error client error =>
      if self.lifetime client = .live then some (errorCallback self client error) else none
  | .kick client =>
      if self.lifetime client ≠ .fresh then some (serverKick self client) else none
  | .work worker => runWorker protocol self worker
  | .cleanDisconnects =>
      if self.cleaning = false ∧ 0 < self.disconnecting.length then some (cleanDisconnects self)
      else none
  | .clearDisconnecting =>
      if self.cleaning then some ({ self with disconnecting := [], cleaning := false }, [])
      else none

/-- The server as a step system. -/
def system (protocol : Option (CDProtocol Packet)) :
    StepSystem.System (CDServer Client Packet W) (Action Client W) (Event Client Packet) where
  init := createServer
  step := step protocol

end Craftd.Server
