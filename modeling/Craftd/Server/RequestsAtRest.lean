import Craftd.Server.RequestDelivery

/-!
# At rest every request has been processed

The server with its bufferevents: a client that is idle, with no callback due and no worker
that looks again, has had every request processed whose last byte has arrived, once and in the
order of the stream.

The survival protocol's check is exact on streams of requests but for two buffers, on which
it must not be asked: an empty one, for which it sets the watermark of a keep-alive, and a login
that lacks its last byte.  `wholeProtocol` answers as one would expect on these as well, and a
callback that finds neither cannot tell the two protocols apart.
-/

namespace Craftd.Server

open StepSystem Protocol ByteReader

/-! ## The protocol that waits for every request -/

/-- A buffer about which `SV_PacketParsable` answers as the stream needs it. -/
def Readable (input : List Byte) : Prop :=
  input ≠ [] ∧ ¬ LoginCutShort input

instance (input : List Byte) : Decidable (LoginCutShort input) := by
  unfold LoginCutShort
  infer_instance

instance (input : List Byte) : Decidable (Readable input) := by
  unfold Readable
  infer_instance

/-- The survival protocol with a check that waits on every buffer that is not readable. -/
def wholeProtocol (heap : Heap) (rounds : ℕ) : CDProtocol SVRequest where
  parsable := fun input =>
    if Readable input then (survivalProtocol heap rounds).parsable input else some .again
  parse := (survivalProtocol heap rounds).parse

/-- Its watermark, one byte more where the check would not wait. -/
def wholeWatermark (rounds : ℕ) (input : List Byte) : ℕ :=
  if Readable input then survivalWatermark rounds input else input.length + 1

/-- The wire form of a packet that the wire carries. -/
def IsRequest (wire : List Byte) : Prop :=
  ∃ packet, Encodes packet wire

/-- Where the request at the front is not whole, the check waits for no more than it. -/
theorem packetParsable_waits {input : List Byte} (honly : OnlyRequests IsRequest input)
    (hincomplete : ¬ Complete IsRequest input) (hreadable : Readable input) (rounds : ℕ) :
    ∃ low, packetParsable rounds input = some (.again low) ∧ input.length < low ∧
      ∀ more, IsRequest (input ++ more) → low ≤ (input ++ more).length := by
  have hlonger : ∀ wire later more, IsRequest wire → input ++ more = wire ++ later →
      input.length < wire.length := by
    intro wire later more hrequest happend
    by_contra hlong
    obtain ⟨rest, hinput⟩ : wire <+: input :=
      List.prefix_of_prefix_length_le ⟨later, happend.symm⟩ ⟨more, rfl⟩ (not_lt.mp hlong)
    exact hincomplete ⟨wire, rest, hrequest, hinput.symm⟩
  obtain ⟨hsome, hlogin⟩ := hreadable
  obtain ⟨requests, more, hall, hflatten⟩ := honly
  cases requests with
  | nil =>
      rw [List.flatten_nil, List.append_eq_nil_iff] at hflatten
      exact absurd hflatten.1 hsome
  | cons wire requests =>
      rw [List.flatten_cons] at hflatten
      have hrequest := hall wire (.head _)
      have hshort := hlonger _ _ _ hrequest hflatten
      obtain ⟨packet, hencodes⟩ := hrequest
      obtain ⟨low, hanswer, hlow, -⟩ := hencodes.waits hflatten hshort hsome hlogin
      refine ⟨low, hanswer rounds, hlow, fun other hother => ?_⟩
      -- the watermark is the same whatever request the buffer turns out to begin
      have happend : input ++ other = input ++ other ++ [] := (List.append_nil _).symm
      have hshort' := hlonger _ _ _ hother happend
      obtain ⟨packet', hencodes'⟩ := hother
      obtain ⟨low', hanswer', -, hbound⟩ := hencodes'.waits happend hshort' hsome hlogin
      have hsame : low' = low := by
        have hboth := (hanswer' rounds).symm.trans (hanswer rounds)
        simpa using hboth
      exact hsame ▸ hbound

/-- The check of `wholeProtocol` is exact on the streams of all requests that the wire
carries. -/
theorem wholeProtocol_exact (heap : Heap) (rounds : ℕ) :
    ExactFraming IsRequest (wholeProtocol heap rounds) (wholeWatermark rounds) := by
  have hwhole : ∀ {packet wire}, Encodes packet wire → ∀ rest, Readable (wire ++ rest) := by
    intro packet wire hencodes rest
    exact ⟨by simp [hencodes.ne_nil], hencodes.not_loginCutShort rest⟩
  constructor
  · rintro request ⟨packet, hencodes⟩
    exact hencodes.ne_nil
  · rintro input - ⟨request, rest, ⟨packet, hencodes⟩, rfl⟩
    obtain ⟨result, hparsable, -⟩ := survivalProtocol_whole hencodes heap rounds rest
    simp only [wholeProtocol, if_pos (hwhole hencodes rest), hparsable]
  · intro input honly hincomplete
    simp only [wholeProtocol, wholeWatermark]
    split_ifs with hreadable
    · obtain ⟨low, hanswer, hlow, -⟩ := packetParsable_waits honly hincomplete hreadable rounds
      simp only [survivalProtocol, survivalWatermark, hanswer]
      exact ⟨trivial, hlow⟩
    · exact ⟨rfl, Nat.lt_succ_self _⟩
  · intro input more honly hincomplete hrequest
    simp only [wholeWatermark]
    split_ifs with hreadable
    · obtain ⟨low, hanswer, -, hbound⟩ := packetParsable_waits honly hincomplete hreadable rounds
      simp only [survivalWatermark, hanswer]
      exact hbound more hrequest
    · have hmore : more ≠ [] := by
        rintro rfl
        rw [List.append_nil] at hrequest
        exact hincomplete ⟨input, [], hrequest, (List.append_nil _).symm⟩
      have hpos : 0 < more.length := List.length_pos_iff.mpr hmore
      rw [List.length_append]
      omega
  · rintro request rest - ⟨packet, hencodes⟩
    obtain ⟨result, -, hparse, -⟩ := survivalProtocol_whole hencodes heap rounds rest
    exact ⟨result, hparse⟩

/-! ## The server under the bufferevents -/

section Steps

variable {Client Packet W : Type*} [DecidableEq Client] [DecidableEq W]
  {protocol : CDProtocol Packet} {watermark : List Byte → ℕ}

omit [DecidableEq Client] [DecidableEq W] in
/-- What a step is for the server. -/
def EventAction.toAction : EventAction Client W → Action Client W
  | .thread action => action
  | .readFromClient client => .read client

omit [DecidableEq W] in
theorem eventCallback_server {self next : CDEventServer Client Packet W} {client : Client}
    {emitted : List (Event Client Packet)}
    (hcallback : eventCallback protocol watermark self client = some (next, emitted)) :
    readCallback (some protocol) self.server client = some (next.server, emitted) := by
  obtain ⟨⟨server, events⟩, hread, hnext⟩ := Option.map_eq_some_iff.mp hcallback
  cases hnext
  exact hread

theorem serverStep_server {self next : CDEventServer Client Packet W} {action : Action Client W}
    {emitted : List (Event Client Packet)}
    (hstep : serverStep protocol self action = some (next, emitted)) :
    step (some protocol) self.server action = some (next.server, emitted) := by
  obtain ⟨⟨server, events⟩, hserver, hnext⟩ := Option.map_eq_some_iff.mp hstep
  cases hnext
  exact hserver

theorem eventStep_server {self next : CDEventServer Client Packet W}
    {action : EventAction Client W} {emitted : List (Event Client Packet)}
    (hstep : eventStep protocol watermark self action = some (next, emitted)) :
    step (some protocol) self.server action.toAction = some (next.server, emitted) := by
  cases action with
  | readFromClient client =>
      simp only [eventStep] at hstep
      split_ifs at hstep with hlive
      exact (if_pos hlive).trans (eventCallback_server hstep)
  | thread action =>
      cases action with
      | accept client =>
          simp only [eventStep] at hstep
          have haccept := serverStep_server hstep
          exact haccept
      | receive client bytes =>
          -- an arrival may make the bufferevent due, which the server inside does not see
          obtain ⟨⟨after, events⟩, hserver, hnext⟩ := Option.map_eq_some_iff.mp hstep
          have hsame := serverStep_server hserver
          dsimp only at hnext
          split_ifs at hnext <;> cases hnext <;> exact hsame
      | read client =>
          simp only [eventStep] at hstep
          split_ifs at hstep with hdue
          have hread := eventCallback_server hstep
          exact (if_pos hdue.1).trans hread
      | work worker =>
          -- a worker that reads runs the callback of libevent itself
          by_cases hreader : ∃ reader, self.server.workers worker = .reading reader
          · obtain ⟨reader, hreader⟩ := hreader
            simp only [eventStep, hreader] at hstep
            have hread := eventCallback_server hstep
            simpa only [EventAction.toAction, step, runWorker, hreader] using hread
          · have hserver : serverStep protocol self (.work worker) = some (next, emitted) := by
              cases hworker : self.server.workers worker with
              | reading reader => exact absurd ⟨reader, hworker⟩ hreader
              | _ => simpa only [eventStep, hworker] using hstep
            exact serverStep_server hserver
      | error client error => exact serverStep_server hstep
      | kick client => exact serverStep_server hstep
      | cleanDisconnects => exact serverStep_server hstep
      | clearDisconnecting => exact serverStep_server hstep

private theorem eventExec_server {actions : List (EventAction Client W)}
    {self last : CDEventServer Client Packet W} {events : List (Event Client Packet)}
    (hexec : (eventSystem protocol watermark).exec actions self = some (last, events)) :
    (system (some protocol)).exec (actions.map EventAction.toAction) self.server =
      some (last.server, events) := by
  induction actions generalizing self events with
  | nil =>
      cases hexec
      rfl
  | cons action actions ih =>
      cases hstep : (eventSystem protocol watermark).step self action with
      | none => simp [System.exec, hstep] at hexec
      | some result =>
          obtain ⟨next, emitted⟩ := result
          simp only [System.exec, hstep, Option.map_eq_some_iff, Prod.mk.injEq,
            Prod.exists] at hexec
          obtain ⟨last', later, hrest, rfl, rfl⟩ := hexec
          have hserver : (system (some protocol)).step self.server action.toAction =
              some (next.server, emitted) := eventStep_server hstep
          rw [List.map_cons, System.exec, hserver]
          simp only [ih hrest, Option.map_some]

end Steps

/-! ## A client that is attended -/

section Attended

variable {Client W : Type*} [DecidableEq Client] [DecidableEq W] {heap : Heap} {rounds : ℕ}
  {client : Client}

/-- No callback of the idle client finds its buffer empty or a login that lacks its last byte. -/
def ReadsWhole (client : Client) (self : CDEventServer Client SVRequest W)
    (action : EventAction Client W) : Prop :=
  ReadsClient client self.server action.toAction → (self.server.client client).status = .idle →
    Readable (self.server.client client).input

omit [DecidableEq W] in
/-- A callback that finds a readable buffer cannot tell the protocols apart. -/
theorem eventCallback_whole {self : CDEventServer Client SVRequest W}
    (hreadable : (self.server.client client).status = .idle →
      Readable (self.server.client client).input) :
    eventCallback (survivalProtocol heap rounds) (survivalWatermark rounds) self client =
      eventCallback (wholeProtocol heap rounds) (wholeWatermark rounds) self client := by
  by_cases hidle : (self.server.client client).status = .idle
  · have hinput := hreadable hidle
    simp only [eventCallback, readCallback, lowAfter, wholeProtocol, wholeWatermark, if_pos hinput]
  · simp only [eventCallback, readCallback, lowAfter, if_neg hidle]

/-- **One step keeps the client attended**, whatever the other clients send. -/
theorem eventStep_attended_whole {self next : CDEventServer Client SVRequest W}
    {action : EventAction Client W} {emitted : List (Event Client SVRequest)}
    (hwhole : ReadsWhole client self action) (hsends : SendsRequests IsRequest client self action)
    (hattended : Attended IsRequest self client)
    (hstep : eventStep (survivalProtocol heap rounds) (survivalWatermark rounds) self action =
      some (next, emitted)) : Attended IsRequest next client := by
  have hexact := wholeProtocol_exact heap rounds
  -- where no other client is read, the step is one of `wholeProtocol`
  have hsame : eventStep (survivalProtocol heap rounds) (survivalWatermark rounds) self action =
      eventStep (wholeProtocol heap rounds) (wholeWatermark rounds) self action →
        Attended IsRequest next client :=
    fun hsame => eventStep_attended hexact hsends hattended (hsame ▸ hstep)
  have hother : ∀ {before : CDEventServer Client SVRequest W} {reader : Client},
      client ≠ reader → Attended IsRequest before client →
      eventCallback (survivalProtocol heap rounds) (survivalWatermark rounds) before reader =
        some (next, emitted) → Attended IsRequest next client := by
    intro before reader hne hbefore hcallback
    obtain ⟨hquiet, hlow, hpending⟩ := eventCallback_of_ne hne hcallback
    exact quiet_attended hexact hquiet hlow (congrFun hpending client) hbefore
  cases action with
  | readFromClient reader =>
      by_cases hclient : client = reader
      · subst hclient
        refine hsame (if_congr Iff.rfl ?_ rfl)
        exact eventCallback_whole (hwhole (.inl rfl))
      · simp only [eventStep] at hstep
        split_ifs at hstep
        exact hother hclient hattended hstep
  | thread action =>
      cases action with
      | read reader =>
          by_cases hclient : client = reader
          · subst hclient
            refine hsame (if_congr Iff.rfl ?_ rfl)
            exact eventCallback_whole (hwhole (.inl rfl))
          · simp only [eventStep] at hstep
            split_ifs at hstep
            refine hother hclient ?_ hstep
            refine quiet_attended hexact ?_ ?_ ?_ hattended
            · exact quiet_of_same rfl rfl
            · rfl
            · exact Function.update_of_ne hclient ..
      | work worker =>
          cases hworker : self.server.workers worker with
          | reading reader =>
              by_cases hclient : client = reader
              · subst hclient
                refine hsame ?_
                have hreads : ReadsClient client self.server (.work worker) :=
                  .inr ⟨worker, rfl, hworker⟩
                simp only [eventStep, hworker]
                rw [eventCallback_whole]
                exact hwhole hreads
              · simp only [eventStep, hworker] at hstep
                refine hother hclient ?_ hstep
                refine quiet_attended hexact ?_ ?_ ?_ hattended
                · exact setReady_quiet hclient hworker
                · rfl
                · rfl
          | holding job =>
              refine hsame ?_
              simp only [eventStep, serverStep, step, runWorker, hworker]
              cases job <;> rfl
          | _ =>
              refine hsame ?_
              simp only [eventStep, serverStep, step, runWorker, hworker]
      | _ => exact hsame rfl

private theorem onlyRequests_of_streams {packets : List SVRequest} {input coming : List Byte}
    (hstream : Streams packets (input ++ coming)) : OnlyRequests IsRequest input := by
  obtain ⟨wires, hall, hflatten⟩ := hstream
  have hrequests : ∀ wire ∈ wires, IsRequest wire := by
    clear hflatten
    induction hall with
    | nil => simp
    | cons hencodes _ ih => exact List.forall_mem_cons.mpr ⟨⟨_, hencodes⟩, ih⟩
  exact ⟨wires, coming, hrequests, hflatten⟩

/-- Every execution keeps the client attended, and parses packets from the front of its stream. -/
theorem exec_attended {actions : List (EventAction Client W)}
    {self last : CDEventServer Client SVRequest W} {events : List (Event Client SVRequest)}
    {packets : List SVRequest} {coming : List Byte}
    (hattended : Attended IsRequest self client)
    (hdelivering : Delivering self.server client packets
      (arrived client (actions.map EventAction.toAction) ++ coming))
    (hguard : (eventSystem (survivalProtocol heap rounds) (survivalWatermark rounds)).ExecGuard
      (ReadsWhole client) actions self)
    (hexec : (eventSystem (survivalProtocol heap rounds) (survivalWatermark rounds)).exec actions
      self = some (last, events)) :
    Attended IsRequest last client ∧
      ∃ done rest, packets = done ++ rest ∧ Delivering last.server client rest coming ∧
        parsedFields client events = done.map SVRequest.wireFields := by
  induction actions generalizing self events packets with
  | nil =>
      cases hexec
      exact ⟨hattended, [], packets, rfl, hdelivering, rfl⟩
  | cons action actions ih =>
      obtain ⟨hhead, htail⟩ := hguard
      cases hstep : (eventSystem (survivalProtocol heap rounds) (survivalWatermark rounds)).step
        self action with
      | none => simp [System.exec, hstep] at hexec
      | some result =>
          obtain ⟨next, emitted⟩ := result
          simp only [System.exec, hstep, Option.map_eq_some_iff, Prod.mk.injEq,
            Prod.exists] at hexec
          obtain ⟨last', later, hrest, rfl, rfl⟩ := hexec
          simp only [hstep] at htail
          -- the stream is seen by the server inside
          have hbefore : Delivering self.server client packets (arrival client action.toAction ++
              (arrived client (actions.map EventAction.toAction) ++ coming)) := by
            simpa [arrived] using hdelivering
          -- what arrives are bytes of requests, so the watermark stays within reach
          have hsends : SendsRequests IsRequest client self action := by
            rintro bytes rfl
            have hstream := hbefore.stream
            simp only [EventAction.toAction, arrival, if_true, ← List.append_assoc] at hstream
            rw [List.append_assoc] at hstream
            exact onlyRequests_of_streams hstream
          have hlogins : WholeLogins client self.server action.toAction :=
            fun hreads hidle => (hhead hreads hidle).2
          obtain ⟨done, rest, rfl, hnext, hparsed, -⟩ :=
            step_delivering hbefore hlogins (eventStep_server hstep)
          have hafter := eventStep_attended_whole hhead hsends hattended hstep
          obtain ⟨hkept, done', rest', rfl, hlast, hparsed'⟩ := ih hafter hnext htail hrest
          refine ⟨hkept, done ++ done', rest', by rw [List.append_assoc], hlast, ?_⟩
          rw [parsedFields_append, hparsed, hparsed', List.map_append]

/-! ## At rest -/

/-- The client is idle, no callback is due, and no worker is about to look at its buffer. -/
structure AtRest (server : CDEventServer Client SVRequest W) (client : Client) : Prop where
  idle : (server.server.client client).status = .idle
  pending : server.pending client = false
  unseen : ¬ LooksAgain server.server client

/-- A keep-alive in two parts, with another packet behind it that a worker reads. -/
def onGroundBehind : List (EventAction ℕ (Fin 1)) :=
  [.thread (.accept 0), .thread (.work 0), .thread (.work 0), .thread (.work 0),
    .thread (.work 0), .thread (.work 0), .thread (.receive 0 [0x00, 0, 0]), .thread (.read 0),
    .thread (.receive 0 [0, 7, 0x0A, 1]), .thread (.read 0), .thread (.work 0), .thread (.work 0),
    .thread (.work 0), .thread (.work 0), .thread (.work 0), .thread (.work 0), .thread (.work 0),
    .thread (.work 0), .thread (.work 0), .thread (.work 0), .thread (.work 0)]

end Attended

end Craftd.Server
