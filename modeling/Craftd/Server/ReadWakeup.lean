import Craftd.Server.ClientLifetime
import Craftd.Server.Survival

/-!
# Waking up the reader of a client

The server together with what libevent keeps of a client's bufferevent: the low
watermark that `CD_BufferReadIn` sets, and whether the read callback is due.  An
arrival that leaves the buffer at or above the watermark makes it due; running it
takes that back, whatever it finds.  A callback that meets a busy client does
nothing, so it is the worker that ends the job who looks at the buffer again, after
it has made the client idle.

The protocol is any one whose length check is exact on the client's stream and sets
watermarks that lie above what is there and not above the request that is coming.
The high watermark only holds back arrivals and is left out.
-/

namespace Craftd.Server

open StepSystem

variable {Client Packet W : Type*}

/-! ## Streams of requests -/

section Streams

variable (IsRequest : List Byte → Prop)

/-- The buffer starts with a whole request. -/
def Complete (input : List Byte) : Prop :=
  ∃ request rest, IsRequest request ∧ input = request ++ rest

/-- The buffer is the first part of a sequence of requests. -/
def OnlyRequests (input : List Byte) : Prop :=
  ∃ (requests : List (List Byte)) (more : List Byte),
    (∀ request ∈ requests, IsRequest request) ∧ input ++ more = requests.flatten

/-- The length check is exact on streams of requests, `watermark` is what it sets where the
request is not complete, and every request of these streams is supported. -/
structure ExactFraming (protocol : CDProtocol Packet) (watermark : List Byte → ℕ) : Prop where
  nonempty : ∀ request, IsRequest request → request ≠ []
  complete : ∀ input, OnlyRequests IsRequest input → Complete IsRequest input →
    protocol.parsable input = some .parsable
  incomplete : ∀ input, OnlyRequests IsRequest input → ¬ Complete IsRequest input →
    protocol.parsable input = some .again ∧ input.length < watermark input
  bounded : ∀ input more, OnlyRequests IsRequest input → ¬ Complete IsRequest input →
    IsRequest (input ++ more) → watermark input ≤ (input ++ more).length
  supported : ∀ request rest, OnlyRequests IsRequest (request ++ rest) → IsRequest request →
    ∃ packet, protocol.parse (request ++ rest) = (some packet, rest)

end Streams

/-! ## The server and its bufferevents -/

/-- `CDServer`, the low watermark of each client's bufferevent, and the read
callbacks that libevent has still to run. -/
structure CDEventServer (Client Packet W : Type*) where
  server : CDServer Client Packet W
  low : Client → ℕ
  pending : Client → Bool

/-- The server before the first client. -/
def createEventServer : CDEventServer Client Packet W where
  server := createServer
  low := fun _ => 0
  pending := fun _ => false

/-- The steps of the threads; `readFromClient` is a `CD_ReadFromClient` from any thread. -/
inductive EventAction (Client W : Type*)
  | thread (action : Action Client W)
  | readFromClient (client : Client)
  deriving DecidableEq, Repr

section Steps

variable [DecidableEq Client] [DecidableEq W] (protocol : CDProtocol Packet)
  (watermark : List Byte → ℕ)

omit [DecidableEq Client] [DecidableEq W] in
/-- The low watermark after `cd_ReadCallback`: the length check sets one where the request is
not complete, and `CD_BufferReadIn` takes it back where a packet was parsed. -/
def lowAfter (client : CDClient) (low : ℕ) : ℕ :=
  if client.status = .idle then
    match protocol.parsable client.input with
    | some .again => watermark client.input
    | some .parsable =>
        match protocol.parse client.input with
        | (some _, _) => 0
        | (none, _) => low
    | _ => low
  else low

omit [DecidableEq W] in
/-- `cd_ReadCallback` with its watermark. -/
def eventCallback (self : CDEventServer Client Packet W) (client : Client) :
    Option (CDEventServer Client Packet W × List (Event Client Packet)) :=
  (readCallback (some protocol) self.server client).map fun (next, emitted) =>
    ({ self with
        server := next
        low := Function.update self.low client
          (lowAfter protocol watermark (self.server.client client) (self.low client)) }, emitted)

/-- A step of the server that does not touch a bufferevent. -/
def serverStep (self : CDEventServer Client Packet W) (action : Action Client W) :
    Option (CDEventServer Client Packet W × List (Event Client Packet)) :=
  (step (some protocol) self.server action).map fun (next, emitted) =>
    ({ self with server := next }, emitted)

/-- One step of some thread. -/
def eventStep (self : CDEventServer Client Packet W) :
    EventAction Client W → Option (CDEventServer Client Packet W × List (Event Client Packet))
  | .thread (.accept client) =>
      serverStep protocol { self with
        low := Function.update self.low client 0
        pending := Function.update self.pending client false } (.accept client)
  | .thread (.receive client bytes) =>
      (serverStep protocol self (.receive client bytes)).map fun (next, emitted) =>
        if self.low client ≤ (next.server.client client).input.length then
          ({ next with pending := Function.update next.pending client true }, emitted)
        else (next, emitted)
  | .thread (.read client) =>
      if self.server.lifetime client = .live ∧ self.pending client = true then
        eventCallback protocol watermark
          { self with pending := Function.update self.pending client false } client
      else none
  | .thread (.work worker) =>
      match self.server.workers worker with
      | .reading client =>
          eventCallback protocol watermark
            { self with server := self.server.setWorker worker .ready } client
      | _ => serverStep protocol self (.work worker)
  | .thread action => serverStep protocol self action
  | .readFromClient client =>
      if self.server.lifetime client = .live then eventCallback protocol watermark self client
      else none

/-- The server and its bufferevents as a step system. -/
def eventSystem :
    System (CDEventServer Client Packet W) (EventAction Client W) (Event Client Packet) where
  init := createEventServer
  step := eventStep protocol watermark

end Steps

/-! ## What must not happen -/

/-- A worker has made the client idle and not yet looked at its buffer, or has not yet read it. -/
def LooksAgain (self : CDServer Client Packet W) (client : Client) : Prop :=
  ∃ worker, self.workers worker = .rechecking client ∨ self.workers worker = .reading client

/-- An idle client has a whole request in its buffer and nobody is going to read it. -/
def Stranded (IsRequest : List Byte → Prop) (self : CDEventServer Client Packet W)
    (client : Client) : Prop :=
  (self.server.client client).status = .idle ∧
    Complete IsRequest (self.server.client client).input ∧
    self.pending client = false ∧ ¬ LooksAgain self.server client

/-- What arrives from the client continues a stream of requests. -/
def SendsRequests (IsRequest : List Byte → Prop) (client : Client)
    (self : CDEventServer Client Packet W) (action : EventAction Client W) : Prop :=
  ∀ bytes, action = .thread (.receive client bytes) →
    OnlyRequests IsRequest ((self.server.client client).input ++ bytes)

/-! ## Streams -/

section Streams

variable {IsRequest : List Byte → Prop} {protocol : CDProtocol Packet}
  {watermark : List Byte → ℕ} {input request rest : List Byte}

/-- What is left behind the first request is a stream of requests again: the parser says where
the request ends. -/
theorem onlyRequests_rest (hexact : ExactFraming IsRequest protocol watermark)
    (honly : OnlyRequests IsRequest (request ++ rest)) (hrequest : IsRequest request) :
    OnlyRequests IsRequest rest := by
  obtain ⟨requests, more, hall, hflatten⟩ := honly
  cases requests with
  | nil =>
      have hempty : request = [] := by
        simp only [List.flatten_nil, List.append_eq_nil_iff] at hflatten
        exact hflatten.1.1
      exact absurd hempty (hexact.nonempty request hrequest)
  | cons first later =>
      have hwhole : OnlyRequests IsRequest ((first :: later).flatten) :=
        ⟨first :: later, [], hall, List.append_nil _⟩
      have hfirst : IsRequest first := hall first List.mem_cons_self
      have hparts : (first :: later).flatten = request ++ (rest ++ more) := by
        rw [← hflatten, List.append_assoc]
      obtain ⟨packet, hparse⟩ := hexact.supported first later.flatten hwhole hfirst
      rw [← List.flatten_cons, hparts] at hparse
      rw [hparts] at hwhole
      obtain ⟨packet', hparse'⟩ := hexact.supported request (rest ++ more) hwhole hrequest
      rw [hparse] at hparse'
      have hrest : later.flatten = rest ++ more := congrArg Prod.snd hparse'
      exact ⟨later, more, fun other hother => hall other (List.mem_cons_of_mem _ hother),
        hrest.symm⟩

/-- The watermark that the length check sets lies at or below every buffer in which the request
is complete. -/
theorem watermark_le (hexact : ExactFraming IsRequest protocol watermark)
    (honly : OnlyRequests IsRequest input) (hincomplete : ¬ Complete IsRequest input)
    {more : List Byte} (hcomplete : Complete IsRequest (input ++ more)) :
    watermark input ≤ (input ++ more).length := by
  obtain ⟨request, rest, hrequest, happend⟩ := hcomplete
  rcases List.append_eq_append_iff.mp happend with ⟨tail, rfl, hmore⟩ | ⟨tail, hinput, -⟩
  · have hbound := hexact.bounded input tail honly hincomplete hrequest
    calc watermark input ≤ (input ++ tail).length := hbound
      _ ≤ (input ++ more).length := by rw [hmore]; simp
  · exact absurd ⟨request, tail, hrequest, hinput⟩ hincomplete

end Streams

/-! ## What the server's steps do to a client's input and to who looks at it -/

variable [DecidableEq Client]

theorem readCallback_client_of_ne {protocol : Option (CDProtocol Packet)}
    {self next : CDServer Client Packet W} {reader client : Client}
    {emitted : List (Event Client Packet)} (hne : client ≠ reader)
    (hread : readCallback protocol self reader = some (next, emitted)) :
    next.client client = self.client client := by
  unfold readCallback serverKick at hread
  repeat' split at hread
  all_goals simp only [Option.some.injEq, Prod.mk.injEq, reduceCtorEq] at hread
  all_goals obtain ⟨rfl, -⟩ := hread
  all_goals simp [CDServer.setClient, CDServer.addJob, hne]

omit [DecidableEq Client] in
theorem destroyListed_client [DecidableEq Client] (self : CDServer Client Packet W)
    (listed : List Client) : (destroyListed self listed).1.client = self.client := by
  induction listed generalizing self with
  | nil => rfl
  | cons head rest ih =>
      unfold destroyListed
      split_ifs
      · exact ih _
      · exact ih self

/-- A step that does not read the client: its input stays, it becomes idle only by a worker that
looks again, and who looks again at a buffer with something in it still does. -/
structure Quiet (before after : CDServer Client Packet W) (client : Client) : Prop where
  input : (after.client client).input = (before.client client).input
  idle : (after.client client).status = .idle →
    (before.client client).status = .idle ∨ LooksAgain after client
  looks : LooksAgain before client → (before.client client).input ≠ [] → LooksAgain after client

omit [DecidableEq Client] in
theorem quiet_of_same {self next : CDServer Client Packet W} {client : Client}
    (hclient : next.client client = self.client client) (hworkers : next.workers = self.workers) :
    Quiet self next client := by
  constructor
  · rw [hclient]
  · intro hidle
    rw [hclient] at hidle
    exact .inl hidle
  · intro hlooks _
    unfold LooksAgain at hlooks ⊢
    rwa [hworkers]

omit [DecidableEq Client] in
theorem quiet_of_disconnect {self next : CDServer Client Packet W} {client : Client}
    (hinput : (next.client client).input = (self.client client).input)
    (hstatus : (next.client client).status = .disconnect) (hworkers : next.workers = self.workers) :
    Quiet self next client := by
  constructor
  · exact hinput
  · intro hidle
    rw [hstatus] at hidle
    cases hidle
  · intro hlooks _
    unfold LooksAgain at hlooks ⊢
    rwa [hworkers]

private theorem serverKick_quiet (self : CDServer Client Packet W) (kicked client : Client) :
    Quiet self (serverKick self kicked).1 client := by
  unfold serverKick
  split_ifs with hstatus
  · exact quiet_of_same rfl rfl
  · by_cases hclient : client = kicked
    · subst hclient
      refine quiet_of_disconnect ?_ ?_ rfl <;> simp [CDServer.addJob, CDServer.setClient]
    · refine quiet_of_same ?_ rfl
      simp [CDServer.addJob, CDServer.setClient, hclient]

private theorem errorCallback_quiet (self : CDServer Client Packet W) (failed client : Client)
    (error : BitVec 16) : Quiet self (errorCallback self failed error).1 client := by
  unfold errorCallback
  split_ifs with hdisconnects
  · by_cases hclient : client = failed
    · subst hclient
      refine quiet_of_disconnect ?_ ?_ rfl <;> simp [CDServer.addJob, CDServer.setClient]
    · refine quiet_of_same ?_ rfl
      simp [CDServer.addJob, CDServer.setClient, hclient]
  · exact quiet_of_same rfl rfl

variable [DecidableEq W]

/-- What a worker that does not read makes of a client: it may settle its status, and looks again
then. -/
theorem runWorker_client {protocol : Option (CDProtocol Packet)}
    {self next : CDServer Client Packet W} {worker : W} {emitted : List (Event Client Packet)}
    (hreader : ∀ reader, self.workers worker ≠ .reading reader)
    (hrun : runWorker protocol self worker = some (next, emitted)) (client : Client) :
    (next.client client).input = (self.client client).input ∧
      ((next.client client).status = (self.client client).status ∨
        next.workers worker = .rechecking client) := by
  unfold runWorker at hrun
  cases hworker : self.workers worker with
  | reading served => exact absurd hworker (hreader served)
  | holding job =>
      cases job with
      | custom | clientDisconnect served =>
          simp only [hworker] at hrun
          cases hrun
          exact ⟨rfl, .inl rfl⟩
      | clientConnect served | clientProcess served packet =>
          simp only [hworker] at hrun
          cases hrun
          -- the drop of a job has the client read again
          unfold checkStatus
          split_ifs
          · by_cases hclient : client = served
            · subst hclient
              simp [CDServer.setWorker, CDServer.setClient]
            · simp [CDServer.setWorker, CDServer.setClient, hclient]
          · exact ⟨rfl, .inl rfl⟩
  | connected served | processed served packet =>
      simp only [hworker] at hrun
      cases hrun
      -- so has the last section of a job
      by_cases hclient : client = served
      · subst hclient
        exact ⟨by simp [CDServer.setWorker, CDServer.setClient], .inr (workers_setWorker ..)⟩
      · simp [CDServer.setWorker, CDServer.setClient, hclient]
  | ready | rechecking served | waiting served =>
      simp only [hworker] at hrun
      split at hrun <;> cases hrun <;> exact ⟨rfl, .inl rfl⟩
  | connecting served | processing served packet | disconnecting served | listing served
  | flushing served =>
      simp only [hworker] at hrun
      cases hrun
      exact ⟨rfl, .inl rfl⟩

/-- A worker that does not read is quiet. -/
theorem runWorker_quiet {protocol : Option (CDProtocol Packet)}
    {self next : CDServer Client Packet W} {worker : W} {emitted : List (Event Client Packet)}
    (hreader : ∀ reader, self.workers worker ≠ .reading reader)
    (hrun : runWorker protocol self worker = some (next, emitted)) (client : Client) :
    Quiet self next client := by
  obtain ⟨hinput, hstatus⟩ := runWorker_client hreader hrun client
  constructor
  · exact hinput
  · intro hidle
    rcases hstatus with hsame | hrechecking
    · exact .inl (hsame ▸ hidle)
    · exact .inr ⟨worker, .inl hrechecking⟩
  · rintro ⟨other, hother⟩ hsome
    by_cases hmoved : other = worker
    · subst hmoved
      have hrechecking := hother.resolve_right (hreader client)
      have hpos : 0 < (self.client client).input.length := List.length_pos_iff.mpr hsome
      simp only [runWorker, hrechecking, if_pos hpos] at hrun
      cases hrun
      exact ⟨other, .inr (workers_setWorker ..)⟩
    · have hsame := runWorker_workers_of_ne hmoved hrun
      exact ⟨other, by rwa [hsame]⟩

omit [DecidableEq W] in
/-- Reading another client is quiet. -/
theorem readCallback_quiet {protocol : Option (CDProtocol Packet)}
    {self next : CDServer Client Packet W} {reader client : Client}
    {emitted : List (Event Client Packet)} (hne : client ≠ reader)
    (hread : readCallback protocol self reader = some (next, emitted)) :
    Quiet self next client :=
  quiet_of_same (readCallback_client_of_ne hne hread) (readCallback_workers hread)

/-! ## The invariant -/

section Invariant

variable {IsRequest : List Byte → Prop} {protocol : CDProtocol Packet}
  {watermark : List Byte → ℕ} {client : Client}

/-- The buffer is a stream of requests; whenever the request at its front will be complete, the
buffer will have reached the watermark; and an idle client with a whole request has a callback due
or a worker that looks again. -/
structure Attended (IsRequest : List Byte → Prop) (state : CDEventServer Client Packet W)
    (client : Client) : Prop where
  unread : OnlyRequests IsRequest (state.server.client client).input
  covered : ∀ more, Complete IsRequest ((state.server.client client).input ++ more) →
    state.low client ≤ ((state.server.client client).input ++ more).length
  heard : (state.server.client client).status = .idle →
    Complete IsRequest (state.server.client client).input →
    state.pending client = true ∨ LooksAgain state.server client

omit [DecidableEq Client] [DecidableEq W] in
/-- A quiet step that leaves the client's bufferevent alone. -/
theorem quiet_attended {self next : CDEventServer Client Packet W}
    (hexact : ExactFraming IsRequest protocol watermark)
    (hquiet : Quiet self.server next.server client) (hlow : next.low client = self.low client)
    (hpending : next.pending client = self.pending client)
    (hattended : Attended IsRequest self client) : Attended IsRequest next client := by
  constructor
  · rw [hquiet.input]
    exact hattended.unread
  · rw [hquiet.input, hlow]
    exact hattended.covered
  · intro hidle hcomplete
    rw [hquiet.input] at hcomplete
    rw [hpending]
    have hsome : (self.server.client client).input ≠ [] := by
      intro hempty
      obtain ⟨request, rest, hrequest, happend⟩ := hcomplete
      rw [hempty] at happend
      exact hexact.nonempty request hrequest (List.append_eq_nil_iff.mp happend.symm).1
    rcases hquiet.idle hidle with hbefore | hlooks
    · rcases hattended.heard hbefore hcomplete with hdue | hlooks
      · exact .inl hdue
      · exact .inr (hquiet.looks hlooks hsome)
    · exact .inr hlooks

omit [DecidableEq W] in
/-- **The callback of the client** leaves no whole request behind: it takes the one at the front,
or waits for the rest of it. -/
theorem eventCallback_attended {self next : CDEventServer Client Packet W}
    {emitted : List (Event Client Packet)} (hexact : ExactFraming IsRequest protocol watermark)
    (hunread : OnlyRequests IsRequest (self.server.client client).input)
    (hcovered : ∀ more, Complete IsRequest ((self.server.client client).input ++ more) →
      self.low client ≤ ((self.server.client client).input ++ more).length)
    (hcallback : eventCallback protocol watermark self client = some (next, emitted)) :
    Attended IsRequest next client := by
  unfold eventCallback at hcallback
  by_cases hidle : (self.server.client client).status = .idle
  · by_cases hcomplete : Complete IsRequest (self.server.client client).input
    · have hparsable := hexact.complete _ hunread hcomplete
      obtain ⟨request, rest, hrequest, hinput⟩ := hcomplete
      rw [hinput] at hunread
      obtain ⟨packet, hparse⟩ := hexact.supported request rest hunread hrequest
      rw [← hinput] at hparse
      simp only [readCallback, lowAfter, if_pos hidle, hparsable, hparse, Option.map_some,
        Option.some.injEq, Prod.mk.injEq] at hcallback
      obtain ⟨rfl, -⟩ := hcallback
      constructor
      · simpa [CDServer.addJob, CDServer.setClient] using onlyRequests_rest hexact hunread hrequest
      · simp
      · simp [CDServer.addJob, CDServer.setClient]
    · have hparsable := (hexact.incomplete _ hunread hcomplete).1
      simp only [readCallback, lowAfter, if_pos hidle, hparsable, Option.map_some,
        Option.some.injEq, Prod.mk.injEq] at hcallback
      obtain ⟨rfl, -⟩ := hcallback
      refine ⟨hunread, fun more hmore => ?_, fun _ h => absurd h hcomplete⟩
      simp only [Function.update_self]
      exact watermark_le hexact hunread hcomplete hmore
  · simp only [readCallback, lowAfter, if_neg hidle, Option.map_some, Option.some.injEq,
      Prod.mk.injEq] at hcallback
    obtain ⟨rfl, -⟩ := hcallback
    refine ⟨hunread, ?_, fun h => absurd h hidle⟩
    simpa using hcovered

omit [DecidableEq W] in
theorem eventCallback_of_ne {self next : CDEventServer Client Packet W} {reader : Client}
    {emitted : List (Event Client Packet)} (hne : client ≠ reader)
    (hcallback : eventCallback protocol watermark self reader = some (next, emitted)) :
    Quiet self.server next.server client ∧ next.low client = self.low client ∧
      next.pending = self.pending := by
  unfold eventCallback at hcallback
  obtain ⟨⟨server, events⟩, hread, hnext⟩ := Option.map_eq_some_iff.mp hcallback
  cases hnext
  exact ⟨readCallback_quiet hne hread, Function.update_of_ne hne .., rfl⟩

theorem serverStep_attended {self next : CDEventServer Client Packet W} {action : Action Client W}
    {emitted : List (Event Client Packet)} (hexact : ExactFraming IsRequest protocol watermark)
    (hattended : Attended IsRequest self client)
    (hquiet : ∀ server events, step (some protocol) self.server action = some (server, events) →
      Quiet self.server server client)
    (hstep : serverStep protocol self action = some (next, emitted)) :
    Attended IsRequest next client := by
  unfold serverStep at hstep
  obtain ⟨⟨server, events⟩, hserver, hnext⟩ := Option.map_eq_some_iff.mp hstep
  cases hnext
  exact quiet_attended hexact (hquiet server _ hserver) rfl rfl hattended

omit [DecidableEq W] in
theorem callback_attended {self next : CDEventServer Client Packet W} {reader : Client}
    {emitted : List (Event Client Packet)} (hexact : ExactFraming IsRequest protocol watermark)
    (hattended : Attended IsRequest self client)
    (hcallback : eventCallback protocol watermark self reader = some (next, emitted)) :
    Attended IsRequest next client := by
  by_cases hclient : client = reader
  · subst hclient
    exact eventCallback_attended hexact hattended.unread hattended.covered hcallback
  · obtain ⟨hquiet, hlow, hpending⟩ := eventCallback_of_ne hclient hcallback
    exact quiet_attended hexact hquiet hlow (congrFun hpending client) hattended

private theorem receive_attended {self next : CDEventServer Client Packet W} {receiver : Client}
    {bytes : List Byte} {emitted : List (Event Client Packet)}
    (hexact : ExactFraming IsRequest protocol watermark)
    (hguard : SendsRequests IsRequest client self (.thread (.receive receiver bytes)))
    (hattended : Attended IsRequest self client)
    (hstep : eventStep protocol watermark self (.thread (.receive receiver bytes)) =
      some (next, emitted)) : Attended IsRequest next client := by
  unfold eventStep serverStep at hstep
  simp only [Option.map_map, Option.map_eq_some_iff, Function.comp_apply, Prod.exists] at hstep
  obtain ⟨server, events, hserver, hnext⟩ := hstep
  obtain ⟨-, rfl, rfl⟩ := by simpa [step] using hserver
  by_cases hclient : client = receiver
  · subst hclient
    have hinput : ((self.server.setClient client { self.server.client client with
        input := (self.server.client client).input ++ bytes }).client client).input =
          (self.server.client client).input ++ bytes := by
      simp [CDServer.setClient]
    have hcovered : ∀ more,
        Complete IsRequest ((self.server.client client).input ++ bytes ++ more) →
          self.low client ≤ ((self.server.client client).input ++ bytes ++ more).length := by
      intro more hmore
      rw [List.append_assoc] at hmore ⊢
      exact hattended.covered (bytes ++ more) hmore
    split_ifs at hnext with hreached
    · cases hnext
      refine ⟨?_, ?_, fun _ _ => .inl (Function.update_self ..)⟩
      · rw [hinput]
        exact hguard bytes rfl
      · rw [hinput]
        exact hcovered
    · -- below the watermark no request can be complete
      cases hnext
      refine ⟨?_, ?_, fun _ hcomplete => ?_⟩
      · rw [hinput]
        exact hguard bytes rfl
      · rw [hinput]
        exact hcovered
      · rw [hinput] at hcomplete hreached
        have hbound := hcovered [] (by rwa [List.append_nil])
        rw [List.append_nil] at hbound
        exact absurd hbound hreached
  · have hquiet : Quiet self.server (self.server.setClient receiver
        { self.server.client receiver with
          input := (self.server.client receiver).input ++ bytes }) client :=
      quiet_of_same (by simp [CDServer.setClient, hclient]) rfl
    split_ifs at hnext
    · cases hnext
      exact quiet_attended hexact hquiet rfl (Function.update_of_ne hclient ..) hattended
    · cases hnext
      exact quiet_attended hexact hquiet rfl rfl hattended

private theorem accept_attended {self next : CDEventServer Client Packet W}
    {emitted : List (Event Client Packet)}
    (hstep : serverStep protocol { self with
      low := Function.update self.low client 0
      pending := Function.update self.pending client false } (.accept client) =
        some (next, emitted)) : Attended IsRequest next client := by
  obtain ⟨⟨server, events⟩, hserver, hnext⟩ := Option.map_eq_some_iff.mp hstep
  cases hnext
  obtain ⟨-, rfl, -⟩ := by simpa [step] using hserver
  have hcreated : (accept self.server client).client client = createClient := by
    simp [accept, CDServer.addJob, CDServer.setClient]
  constructor
  · rw [hcreated]
    exact ⟨[], [], by simp, rfl⟩
  · simp
  · intro hidle
    rw [hcreated] at hidle
    cases hidle

omit [DecidableEq Client] in
/-- A worker that takes up its reading of another client. -/
theorem setReady_quiet {self : CDServer Client Packet W} {worker : W} {reader : Client}
    (hne : client ≠ reader) (hreader : self.workers worker = .reading reader) :
    Quiet self (self.setWorker worker .ready) client := by
  refine ⟨rfl, .inl, ?_⟩
  rintro ⟨other, hother⟩ -
  have hmoved : other ≠ worker := by
    rintro rfl
    rw [hreader] at hother
    rcases hother with h | h
    · cases h
    · cases h
      exact hne rfl
  exact ⟨other, by rwa [workers_setWorker_of_ne _ hmoved]⟩

/-- **One step keeps every client attended.** -/
theorem eventStep_attended {self next : CDEventServer Client Packet W}
    {action : EventAction Client W} {emitted : List (Event Client Packet)}
    (hexact : ExactFraming IsRequest protocol watermark)
    (hguard : SendsRequests IsRequest client self action)
    (hattended : Attended IsRequest self client)
    (hstep : eventStep protocol watermark self action = some (next, emitted)) :
    Attended IsRequest next client := by
  cases action with
  | readFromClient reader =>
      simp only [eventStep] at hstep
      split_ifs at hstep
      exact callback_attended hexact hattended hstep
  | thread action =>
      cases action with
      | accept accepted =>
          -- only the accepted client begins anew
          simp only [eventStep] at hstep
          by_cases hclient : client = accepted
          · subst hclient
            exact accept_attended hstep
          · refine serverStep_attended hexact ?_ (fun server events hserver => ?_) hstep
            · refine quiet_attended hexact ?_ ?_ ?_ hattended
              · exact quiet_of_same rfl rfl
              · exact Function.update_of_ne hclient ..
              · exact Function.update_of_ne hclient ..
            · obtain ⟨-, rfl, -⟩ := by simpa [step] using hserver
              refine quiet_of_same ?_ rfl
              simp [accept, CDServer.addJob, CDServer.setClient, hclient]
      | receive receiver bytes => exact receive_attended hexact hguard hattended hstep
      | read reader =>
          simp only [eventStep] at hstep
          split_ifs at hstep
          by_cases hclient : client = reader
          · subst hclient
            refine eventCallback_attended hexact ?_ ?_ hstep
            · exact hattended.unread
            · exact hattended.covered
          · refine callback_attended hexact ?_ hstep
            refine quiet_attended hexact ?_ ?_ ?_ hattended
            · exact quiet_of_same rfl rfl
            · rfl
            · exact Function.update_of_ne hclient ..
      | error failed error =>
          refine serverStep_attended hexact hattended (fun server events hserver => ?_) hstep
          obtain ⟨-, herror⟩ := by simpa [step] using hserver
          have hquiet := errorCallback_quiet self.server failed client error
          rwa [herror] at hquiet
      | kick kicked =>
          refine serverStep_attended hexact hattended (fun server events hserver => ?_) hstep
          obtain ⟨-, hkick⟩ := by simpa [step] using hserver
          have hquiet := serverKick_quiet self.server kicked client
          rwa [hkick] at hquiet
      | work worker =>
          -- a worker that calls `CD_ReadFromClient` runs a read callback of its own
          by_cases hreader : ∃ reader, self.server.workers worker = .reading reader
          · obtain ⟨reader, hreader⟩ := hreader
            simp only [eventStep, hreader] at hstep
            by_cases hclient : client = reader
            · subst hclient
              refine eventCallback_attended hexact ?_ ?_ hstep
              · exact hattended.unread
              · exact hattended.covered
            · refine callback_attended hexact ?_ hstep
              refine quiet_attended hexact ?_ ?_ ?_ hattended
              · exact setReady_quiet hclient hreader
              · rfl
              · rfl
          · have hnot : ∀ reader, self.server.workers worker ≠ .reading reader :=
              fun reader h => hreader ⟨reader, h⟩
            have hserver : eventStep protocol watermark self (.thread (.work worker)) =
                serverStep protocol self (.work worker) := by
              cases hworker : self.server.workers worker with
              | reading reader => exact absurd hworker (hnot reader)
              | _ => simp only [eventStep, hworker]
            rw [hserver] at hstep
            refine serverStep_attended hexact hattended (fun server events hrun => ?_) hstep
            have hworker : runWorker (some protocol) self.server worker = some (server, events) :=
              hrun
            exact runWorker_quiet hnot hworker client
      | cleanDisconnects =>
          refine serverStep_attended hexact hattended (fun server events hserver => ?_) hstep
          obtain ⟨-, hclean⟩ := by simpa [step] using hserver
          have hclient := destroyListed_client self.server self.server.disconnecting
          have hworkers := (destroyListed_workers self.server self.server.disconnecting).1
          rw [cleanDisconnects, Prod.mk.injEq] at hclean
          obtain ⟨rfl, -⟩ := hclean
          exact quiet_of_same (congrFun hclient client) hworkers
      | clearDisconnecting =>
          refine serverStep_attended hexact hattended (fun server events hserver => ?_) hstep
          obtain ⟨-, rfl, -⟩ := by simpa [step] using hserver
          exact quiet_of_same rfl rfl

/-! ## Every run -/

private theorem run_attended {events : List (Event Client Packet)}
    {state : CDEventServer Client Packet W}
    (hexact : ExactFraming IsRequest protocol watermark)
    (hrun : (eventSystem protocol watermark).Run (SendsRequests IsRequest client) events state) :
    Attended IsRequest state client := by
  refine System.Run.invariant (I := fun _ state => Attended IsRequest state client) ?_ ?_ hrun
  · constructor
    · exact ⟨[], [], by simp, rfl⟩
    · simp [eventSystem, createEventServer]
    · intro hidle
      cases hidle
  · intro _ self action next emitted hattended hguard hstep
    exact eventStep_attended hexact hguard hattended hstep

/-- **No request is stranded.**  Where the length check is exact on the client's stream, an idle
client with a whole request in its buffer has a read callback due or a worker that looks again. -/
theorem no_request_stranded {events : List (Event Client Packet)}
    {state : CDEventServer Client Packet W} (hexact : ExactFraming IsRequest protocol watermark)
    (hrun : (eventSystem protocol watermark).Run (SendsRequests IsRequest client) events state) :
    ¬ Stranded IsRequest state client := by
  rintro ⟨hidle, hcomplete, hnone, hunseen⟩
  rcases (run_attended hexact hrun).heard hidle hcomplete with hdue | hlooks
  · rw [hnone] at hdue
    cases hdue
  · exact hunseen hlooks

end Invariant

/-! ## A stream of keep-alives -/

open Protocol ByteReader

/-- The watermark that `SV_PacketParsable` sets. -/
def survivalWatermark (rounds : ℕ) (input : List Byte) : ℕ :=
  match packetParsable rounds input with
  | some (.again low) => low
  | _ => 0

/-- A keep-alive: the type byte and four more. -/
def IsKeepAlive (request : List Byte) : Prop :=
  ∃ id : List Byte, id.length = 4 ∧ request = 0x00 :: id

theorem requestFromBuffers_keepAlive (heap : Heap) (rest : List Byte) :
    ∃ packet, requestFromBuffers heap ⟨0x00 :: rest, 0⟩ =
      .ok (some packet) (sourceAt (0x00 :: rest) 5) := by
  have hscalar : Letter.scalar .i = true := rfl
  obtain ⟨id, hrun, -⟩ := takes_bufferRemoveField hscalar (sourceAt (0x00 :: rest) 1)
  have hread : requestDataFromBuffer heap .keepAlive =
      some (bufferRemoveField .i >>= fun id => pure (.keepAlive id)) := rfl
  have harm : (bufferRemoveField .i >>= fun id => pure (.keepAlive id) : Remove SVRequest)
      (sourceAt (0x00 :: rest) 1) = .ok (.keepAlive id) (sourceAt (0x00 :: rest) 5) :=
    (bind_ok hrun).trans rfl
  exact ⟨.keepAlive id, (requestFromBuffers_cons rfl hread).trans (bind_ok harm)⟩

/-- A stream of keep-alives begins with the type byte, and is complete from five bytes on. -/
theorem complete_keepAlive {input : List Byte} (honly : OnlyRequests IsKeepAlive input) :
    (Complete IsKeepAlive input ∧ ∃ id rest, id.length = 4 ∧ input = 0x00 :: (id ++ rest)) ∨
      (¬ Complete IsKeepAlive input ∧ input.length < 5 ∧
        (input = [] ∨ ∃ rest, input = 0x00 :: rest)) := by
  obtain ⟨requests, more, hall, hflatten⟩ := honly
  have hhead : input = [] ∨ ∃ rest, input = 0x00 :: rest := by
    cases input with
    | nil => exact .inl rfl
    | cons first rest =>
        right
        cases requests with
        | nil => simp at hflatten
        | cons request later =>
            obtain ⟨id, -, rfl⟩ := hall request List.mem_cons_self
            simp only [List.cons_append, List.flatten_cons, List.cons.injEq] at hflatten
            exact ⟨rest, by rw [hflatten.1]⟩
  by_cases hlength : input.length < 5
  · refine .inr ⟨?_, hlength, hhead⟩
    rintro ⟨request, rest, ⟨id, hid, rfl⟩, rfl⟩
    simp [hid] at hlength
    omega
  · obtain ⟨rest, rfl⟩ := hhead.resolve_left (by rintro rfl; simp at hlength)
    have hid : (rest.take 4).length = 4 := by
      simp only [List.length_cons] at hlength
      rw [List.length_take]
      omega
    have hsplit : (0x00 : Byte) :: rest = 0x00 :: (rest.take 4 ++ rest.drop 4) := by
      rw [List.take_append_drop]
    exact .inl ⟨⟨0x00 :: rest.take 4, rest.drop 4, ⟨_, hid, rfl⟩, hsplit⟩, _, _, hid, hsplit⟩

/-- The survival protocol's check is exact on streams of keep-alives. -/
theorem keepAlive_exact (heap : Heap) (rounds : ℕ) :
    ExactFraming IsKeepAlive (survivalProtocol heap rounds) (survivalWatermark rounds) := by
  -- a keep-alive is five bytes, and the check asks for as many
  have hfirst : SVPacketType.ofByte 0x00 = some .keepAlive := rfl
  have hshort : ∀ input : List Byte, input.length < 5 →
      (input = [] ∨ ∃ rest, input = 0x00 :: rest) →
        packetParsable rounds input = some (.again 5) := by
    rintro input hlength (rfl | ⟨rest, rfl⟩)
    · rfl
    · exact packetParsable_of_short hfirst hlength rounds
  have hlong : ∀ id rest : List Byte, id.length = 4 →
      packetParsable rounds (0x00 :: (id ++ rest)) = some .parsable := by
    intro id rest hid
    refine (packetParsable_of_type hfirst ?_ rounds).trans rfl
    simp [packetLength, hid]
  constructor
  · rintro request ⟨id, -, rfl⟩
    exact List.cons_ne_nil _ _
  · intro input honly hcomplete
    rcases complete_keepAlive honly with ⟨-, id, rest, hid, rfl⟩ | ⟨hincomplete, -⟩
    · obtain ⟨packet, hrun⟩ := requestFromBuffers_keepAlive heap (id ++ rest)
      simp only [survivalProtocol, hlong id rest hid, hrun]
    · exact absurd hcomplete hincomplete
  · intro input honly hincomplete
    rcases complete_keepAlive honly with ⟨hcomplete, -⟩ | ⟨-, hlength, hhead⟩
    · exact absurd hcomplete hincomplete
    · simp only [survivalProtocol, survivalWatermark, hshort input hlength hhead]
      exact ⟨trivial, hlength⟩
  · intro input more honly hincomplete hrequest
    rcases complete_keepAlive honly with ⟨hcomplete, -⟩ | ⟨-, hlength, hhead⟩
    · exact absurd hcomplete hincomplete
    · obtain ⟨id, hid, happend⟩ := hrequest
      simp only [survivalWatermark, hshort input hlength hhead]
      rw [happend, List.length_cons, hid]
  · intro request rest honly hrequest
    obtain ⟨id, hid, rfl⟩ := hrequest
    obtain ⟨packet, hrun⟩ := requestFromBuffers_keepAlive heap (id ++ rest)
    refine ⟨packet, ?_⟩
    have hrest : (sourceAt (0x00 :: (id ++ rest)) 5).bytes = rest := by
      simp [sourceAt, hid]
    simp only [survivalProtocol, List.cons_append, hrun, hrest]

/-- A keep-alive arrives in two parts, and the second makes the read callback due. -/
def keepAliveInParts : List (EventAction ℕ (Fin 1)) :=
  [.thread (.accept 0), .thread (.work 0), .thread (.work 0), .thread (.work 0),
    .thread (.work 0), .thread (.work 0), .thread (.receive 0 [0x00, 1]), .thread (.read 0),
    .thread (.receive 0 [2, 3, 4])]

/-- What arrives are parts of that keep-alive. -/
def sendsParts (self : CDEventServer ℕ SVRequest (Fin 1)) : EventAction ℕ (Fin 1) → Bool
  | .thread (.receive client bytes) =>
      decide (((self.server.client client).input ++ bytes) <+: [0x00, 1, 2, 3, 4])
  | _ => true

theorem no_request_stranded_keepAlive :
    ∃ state events, (eventSystem (survivalProtocol zeroHeap 0) (survivalWatermark 0)).exec
        keepAliveInParts createEventServer = some (state, events) ∧
      (state.server.client 0).status = .idle ∧ ¬ Stranded IsKeepAlive state 0 := by
  have hstate : ((eventSystem (survivalProtocol zeroHeap 0) (survivalWatermark 0)).exec
      keepAliveInParts createEventServer).map
        (fun result => (result.1.server.client 0).status) = some .idle := by
    rfl
  obtain ⟨⟨state, events⟩, hexec, hidle⟩ := Option.map_eq_some_iff.mp hstate
  have hguard : (eventSystem (survivalProtocol zeroHeap 0) (survivalWatermark 0)).ExecGuard
      (fun self action => sendsParts self action = true) keepAliveInParts createEventServer := by
    decide
  have hrun := System.Run.exec .start hguard hexec
  refine ⟨state, events, hexec, hidle, no_request_stranded (keepAlive_exact zeroHeap 0)
    (hrun.mono fun self action hsends bytes haction => ?_)⟩
  subst haction
  obtain ⟨more, hmore⟩ := of_decide_eq_true hsends
  exact ⟨[[0x00, 1, 2, 3, 4]], more, by simp [IsKeepAlive], hmore.trans (by simp)⟩

end Craftd.Server
