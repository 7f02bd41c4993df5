import Craftd.Protocol.RequestStream
import Craftd.Server.ReadWakeup

/-!
# Requests are delivered in order

A client sends the wire forms of packets one after the other, in pieces of any sizes.
Whatever the threads do in between, the packets parsed are the packets sent, in order, each
once and none that was not sent, and what is left in the buffer is the rest of the stream.
What `Client.process` is dispatched for is the front of that.  Reading alone never
disconnects such a client.

The invariant is `Delivering`: the buffer and what has still to arrive are together the wire
forms of the packets that have not been parsed.
-/

namespace Craftd.Server

open StepSystem Protocol ByteReader

variable {Client W : Type*} [DecidableEq Client] [DecidableEq W]

/-! ## What an action does to a stream -/

/-- What an action brings of a client's stream. -/
def arrival (client : Client) : Action Client W → List Byte
  | .receive other bytes => if other = client then bytes else []
  | _ => []

/-- All that has arrived from a client. -/
def arrived (client : Client) (actions : List (Action Client W)) : List Byte :=
  actions.flatMap (arrival client)

/-- The connection breaks, or somebody kicks the client. -/
def HangsUp (client : Client) : Action Client W → Prop
  | .kick other => other = client
  | .error other _ => other = client
  | _ => False

/-- The step is a read callback of the client, libevent's or a worker's. -/
def ReadsClient {Packet : Type*} (client : Client) (self : CDServer Client Packet W)
    (action : Action Client W) : Prop :=
  action = .read client ∨ ∃ worker, action = .work worker ∧ self.workers worker = .reading client

/-- No callback finds a login of which only the last byte is missing. -/
def WholeLogins {Packet : Type*} (client : Client) (self : CDServer Client Packet W)
    (action : Action Client W) : Prop :=
  ReadsClient client self action → (self.client client).status = .idle →
    ¬ LoginCutShort (self.client client).input

/-- The packets of a client that were parsed, by what the wire carries of them. -/
def parsedFields (client : Client) (events : List (Event Client SVRequest)) : List SVRequest :=
  (parsedPackets (events.filterMap (Event.about client))).map SVRequest.wireFields

/-- The packets that `Client.process` was dispatched for, by what the wire carries of them. -/
def processedFields (client : Client) (events : List (Event Client SVRequest)) :
    List SVRequest :=
  (processedPackets (events.filterMap (Event.about client))).map SVRequest.wireFields

omit [DecidableEq W] in
@[simp] theorem parsedFields_append (client : Client) (events emitted : List (Event Client _)) :
    parsedFields client (events ++ emitted) =
      parsedFields client events ++ parsedFields client emitted := by
  simp [parsedFields]

/-! ## Steps that do not read the client -/

section Unread

variable {Packet : Type*} {protocol : Option (CDProtocol Packet)}
  {self next : CDServer Client Packet W} {client : Client} {emitted : List (Event Client Packet)}

/-- A step that does not read the client: what arrives is appended, and nothing is parsed. -/
structure Unread (before after : CDServer Client Packet W) (client : Client)
    (action : Action Client W) (emitted : List (Event Client Packet)) : Prop where
  input : (after.client client).input = (before.client client).input ++ arrival client action
  fresh : after.lifetime client = .fresh →
    before.lifetime client = .fresh ∧ arrival client action = []
  parsed : parsedPackets (emitted.filterMap (Event.about client)) = []
  status : (after.client client).status = .disconnect →
    (before.client client).status = .disconnect ∨ HangsUp client action

omit [DecidableEq W] in
theorem readCallback_other {reader : Client} (hne : client ≠ reader)
    (hread : readCallback protocol self reader = some (next, emitted)) :
    next.client client = self.client client ∧ next.lifetime = self.lifetime ∧
      parsedPackets (emitted.filterMap (Event.about client)) = [] := by
  refine ⟨readCallback_client_of_ne hne hread, ?_⟩
  unfold readCallback serverKick at hread
  repeat' split at hread
  all_goals simp only [Option.some.injEq, Prod.mk.injEq, reduceCtorEq] at hread
  all_goals obtain ⟨rfl, rfl⟩ := hread
  all_goals simp [CDServer.setClient, CDServer.addJob, parsedPackets, Event.about, hne.symm]

/-- A worker that does not read parses nothing and disconnects nobody. -/
theorem runWorker_unread {worker : W} (hreader : ∀ reader, self.workers worker ≠ .reading reader)
    (hrun : runWorker protocol self worker = some (next, emitted)) (client : Client) :
    next.lifetime = self.lifetime ∧
      parsedPackets (emitted.filterMap (Event.about client)) = [] ∧
      ((next.client client).status = .disconnect →
        (self.client client).status = .disconnect) := by
  unfold runWorker at hrun
  cases hworker : self.workers worker with
  | reading served => exact absurd hworker (hreader served)
  | holding job =>
      -- a job that is taken up may find the client disconnected, and leaves it so
      cases job with
      | custom | clientDisconnect served =>
          simp only [hworker] at hrun
          cases hrun
          exact ⟨rfl, rfl, id⟩
      | clientConnect served | clientProcess served packet =>
          simp only [hworker] at hrun
          cases hrun
          unfold checkStatus
          split_ifs with hstatus
          · refine ⟨rfl, rfl, ?_⟩
            by_cases hclient : client = served
            · subst hclient
              exact fun _ => hstatus
            · simp [CDServer.setWorker, CDServer.setClient, hclient]
          · exact ⟨rfl, rfl, id⟩
  | connected served | processed served packet =>
      simp only [hworker] at hrun
      cases hrun
      refine ⟨rfl, rfl, ?_⟩
      -- the end of a job keeps a client disconnected
      by_cases hclient : client = served
      · subst hclient
        cases (self.client client).status <;>
          simp [CDServer.setWorker, CDServer.setClient, settle]
      · simp [CDServer.setWorker, CDServer.setClient, hclient]
  | ready | rechecking served | waiting served =>
      simp only [hworker] at hrun
      split at hrun <;> cases hrun <;> exact ⟨rfl, rfl, id⟩
  | connecting served | listing served | flushing served =>
      simp only [hworker] at hrun
      cases hrun
      exact ⟨rfl, rfl, id⟩
  | processing served packet | disconnecting served =>
      simp only [hworker] at hrun
      cases hrun
      refine ⟨rfl, ?_, id⟩
      by_cases hclient : served = client <;> simp [Event.about, hclient, parsedPackets]

omit [DecidableEq W] in
private theorem destroyListed_unread (client : Client) (self : CDServer Client Packet W)
    (listed : List Client) :
    ((destroyListed self listed).1.lifetime client = .fresh → self.lifetime client = .fresh) ∧
      parsedPackets ((destroyListed self listed).2.filterMap (Event.about client)) = [] := by
  induction listed generalizing self with
  | nil => exact ⟨id, rfl⟩
  | cons head rest ih =>
      unfold destroyListed
      split_ifs
      · obtain ⟨hfresh, hparsed⟩ := ih { self with
          clients := self.clients.erase head
          lifetime := Function.update self.lifetime head .destroyed }
        constructor
        · intro h
          have hafter := hfresh h
          by_cases hclient : client = head
          · subst hclient
            simp at hafter
          · simpa [hclient] using hafter
        · rw [List.filterMap_cons, Event.about]
          split_ifs
          · exact hparsed
          · exact hparsed
      · exact ih self

omit [DecidableEq W] in
/-- A step of the server that neither reads the client nor brings anything from it. -/
theorem Unread.of_same {action : Action Client W}
    (hclient : next.client client = self.client client) (hlifetime : next.lifetime = self.lifetime)
    (hparsed : parsedPackets (emitted.filterMap (Event.about client)) = [])
    (harrival : arrival client action = []) : Unread self next client action emitted where
  input := by rw [hclient, harrival, List.append_nil]
  fresh := fun hfresh => ⟨hlifetime ▸ hfresh, harrival⟩
  parsed := hparsed
  status := fun hstatus => .inl (hclient ▸ hstatus)

/-- **A step that does not read the client** leaves what it has sent where it is. -/
theorem step_unread {action : Action Client W}
    (hempty : self.lifetime client = .fresh → (self.client client).input = [])
    (hreads : ¬ ReadsClient client self action)
    (hstep : step protocol self action = some (next, emitted)) :
    Unread self next client action emitted := by
  cases action with
  | accept accepted =>
      obtain ⟨hfresh, rfl, rfl⟩ := by simpa [step] using hstep
      -- a client starts with an empty buffer
      by_cases hclient : client = accepted
      · subst hclient
        constructor <;>
          simp [accept, CDServer.addJob, CDServer.setClient, createClient, arrival, parsedPackets,
            hempty hfresh]
      · constructor <;>
          simp [accept, CDServer.addJob, CDServer.setClient, arrival, parsedPackets, hclient]
        exact .inl
  | receive receiver bytes =>
      obtain ⟨hlive, rfl, rfl⟩ := by simpa [step] using hstep
      by_cases hclient : client = receiver
      · subst hclient
        constructor <;> simp [CDServer.setClient, arrival, parsedPackets, hlive]
        exact .inl
      · refine .of_same ?_ rfl rfl ?_
        · simp [CDServer.setClient, hclient]
        · simp [arrival, Ne.symm hclient]
  | read reader =>
      obtain ⟨-, hread⟩ := by simpa [step] using hstep
      have hne : client ≠ reader := by
        rintro rfl
        exact hreads (.inl rfl)
      obtain ⟨hclient, hlifetime, hparsed⟩ := readCallback_other hne hread
      exact .of_same hclient hlifetime hparsed rfl
  | error failed error =>
      obtain ⟨-, herror⟩ := by simpa [step] using hstep
      unfold errorCallback at herror
      split_ifs at herror with hdisconnects
      -- the error callback hangs up unless nothing was wrong
      · cases herror
        by_cases hclient : client = failed
        · subst hclient
          constructor <;> simp [CDServer.setClient, CDServer.addJob, arrival, parsedPackets,
            Event.about, HangsUp]
        · refine .of_same ?_ rfl ?_ rfl
          · simp [CDServer.setClient, CDServer.addJob, hclient]
          · simp [Event.about, Ne.symm hclient, parsedPackets]
      · cases herror
        exact .of_same rfl rfl rfl rfl
  | kick kicked =>
      obtain ⟨-, hkick⟩ := by simpa [step] using hstep
      unfold serverKick at hkick
      split_ifs at hkick with hstatus
      · cases hkick
        exact .of_same rfl rfl rfl rfl
      · cases hkick
        by_cases hclient : client = kicked
        · subst hclient
          constructor <;> simp [CDServer.setClient, CDServer.addJob, arrival, parsedPackets,
            Event.about, HangsUp]
        · refine .of_same ?_ rfl ?_ rfl
          · simp [CDServer.setClient, CDServer.addJob, hclient]
          · simp [Event.about, Ne.symm hclient, parsedPackets]
  | work worker =>
      have hrun : runWorker protocol self worker = some (next, emitted) := hstep
      -- a worker that takes up a read is in the read callback of another client
      by_cases hreader : ∃ reader, self.workers worker = .reading reader
      · obtain ⟨reader, hreader⟩ := hreader
        have hne : client ≠ reader := by
          rintro rfl
          exact hreads (.inr ⟨worker, rfl, hreader⟩)
        simp only [runWorker, hreader] at hrun
        obtain ⟨hclient, hlifetime, hparsed⟩ := readCallback_other hne hrun
        exact .of_same hclient hlifetime hparsed rfl
      · have hnot : ∀ reader, self.workers worker ≠ .reading reader :=
          fun reader h => hreader ⟨reader, h⟩
        obtain ⟨hlifetime, hparsed, hstatus⟩ := runWorker_unread hnot hrun client
        -- the other steps of a worker read nothing
        obtain ⟨hinput, -⟩ := runWorker_client hnot hrun client
        constructor
        · simp [hinput, arrival]
        · exact fun hfresh => ⟨hlifetime ▸ hfresh, rfl⟩
        · exact hparsed
        · exact fun hdisconnect => .inl (hstatus hdisconnect)
  | cleanDisconnects =>
      obtain ⟨-, hclean⟩ := by simpa [step] using hstep
      rw [cleanDisconnects, Prod.mk.injEq] at hclean
      obtain ⟨rfl, rfl⟩ := hclean
      obtain ⟨hfresh, hparsed⟩ := destroyListed_unread client self self.disconnecting
      have hclient := congrFun (destroyListed_client self self.disconnecting) client
      constructor
      · simp [hclient, arrival]
      · exact fun h => ⟨hfresh h, rfl⟩
      · exact hparsed
      · simp [hclient]
        exact .inl
  | clearDisconnecting =>
      obtain ⟨-, rfl, rfl⟩ := by simpa [step] using hstep
      exact .of_same rfl rfl rfl rfl

end Unread

/-! ## The callback of the client -/

section Callback

variable {heap : Heap} {rounds : Nat} {self next : CDServer Client SVRequest W} {client : Client}
  {emitted : List (Event Client SVRequest)} {packets : List SVRequest} {coming : List Byte}

theorem survivalProtocol_whole {packet : SVRequest} {wire : List Byte}
    (hencodes : Encodes packet wire) (heap : Heap) (rounds : Nat) (rest : List Byte) :
    ∃ result, (survivalProtocol heap rounds).parsable (wire ++ rest) = some .parsable ∧
      (survivalProtocol heap rounds).parse (wire ++ rest) = (some result, rest) ∧
        result.wireFields = packet.wireFields := by
  obtain ⟨result, hdecodes, hfields⟩ := hencodes.decodes heap
  refine ⟨result, ?_, ?_, hfields⟩
  · simp only [survivalProtocol, hencodes.parsable rest rounds, hdecodes rest]
  · simp only [survivalProtocol, hdecodes rest]

private theorem survivalProtocol_waits {packet : SVRequest} {wire input more later : List Byte}
    (hencodes : Encodes packet wire) (happend : input ++ more = wire ++ later)
    (hshort : input.length < wire.length) (hlogin : ¬ LoginCutShort input) (heap : Heap)
    (rounds : Nat) : (survivalProtocol heap rounds).parsable input = some .again := by
  by_cases hsome : input = []
  · subst hsome
    rfl
  · obtain ⟨low, hanswer, -⟩ := hencodes.waits happend hshort hsome hlogin
    simp only [survivalProtocol, hanswer rounds]

omit [DecidableEq W] in
/-- **The callback of the client** parses the packet at the front of the stream, or nothing. -/
theorem readCallback_delivering (hstream : Streams packets ((self.client client).input ++ coming))
    (hwhole : (self.client client).status = .idle → ¬ LoginCutShort (self.client client).input)
    (hread : readCallback (some (survivalProtocol heap rounds)) self client =
      some (next, emitted)) :
    ∃ done rest, packets = done ++ rest ∧ Streams rest ((next.client client).input ++ coming) ∧
      parsedFields client emitted = done.map SVRequest.wireFields ∧
      ((next.client client).status = .disconnect → (self.client client).status = .disconnect) ∧
      next.lifetime = self.lifetime ∧
      ((self.client client).input = [] → (next.client client).input = []) := by
  by_cases hidle : (self.client client).status = .idle
  · have hlogin := hwhole hidle
    have hagain : (survivalProtocol heap rounds).parsable (self.client client).input =
        some .again → next = self ∧ emitted = [] := by
      intro hagain
      simp only [readCallback, hidle, hagain, if_true] at hread
      cases hread
      exact ⟨rfl, rfl⟩
    cases packets with
    -- no request is left, so nothing has arrived
    | nil =>
        have hempty : (self.client client).input = [] := by
          rw [streams_nil, List.append_eq_nil_iff] at hstream
          exact hstream.1
        obtain ⟨rfl, rfl⟩ := hagain (by rw [hempty]; rfl)
        exact ⟨[], [], rfl, hstream, rfl, id, rfl, id⟩
    | cons packet packets =>
        obtain ⟨wire, later, hencodes, happend, hlater⟩ := streams_cons.mp hstream
        rcases Nat.lt_or_ge (self.client client).input.length wire.length with hshort | hlong
        -- the request at the front is not whole yet
        · obtain ⟨rfl, rfl⟩ :=
            hagain (survivalProtocol_waits hencodes happend hshort hlogin heap rounds)
          exact ⟨[], packet :: packets, rfl, hstream, rfl, id, rfl, id⟩
        -- the request at the front is whole, and is taken off the buffer
        · obtain ⟨rest, hinput⟩ : wire <+: (self.client client).input :=
            List.prefix_of_prefix_length_le ⟨later, happend.symm⟩ ⟨coming, rfl⟩ hlong
          obtain ⟨result, hparsable, hparse, hfields⟩ :=
            survivalProtocol_whole hencodes heap rounds rest
          rw [hinput] at hparsable hparse
          simp only [readCallback, hidle, hparsable, hparse, if_true] at hread
          cases hread
          refine ⟨[packet], packets, rfl, ?_, ?_, ?_, rfl, ?_⟩
          · have hrest : rest ++ coming = later := by
              rw [← hinput, List.append_assoc] at happend
              exact List.append_cancel_left happend
            simpa [CDServer.addJob, CDServer.setClient, hrest] using hlater
          · simp [parsedFields, Event.about, parsedPackets, hfields]
          · simp [CDServer.addJob, CDServer.setClient]
          · intro hempty
            rw [hempty, List.append_eq_nil_iff] at hinput
            exact absurd hinput.1 hencodes.ne_nil
  -- a client that is not idle is left alone
  · simp only [readCallback, if_neg hidle] at hread
    cases hread
    exact ⟨[], packets, rfl, hstream, rfl, id, rfl, id⟩

end Callback

/-! ## Every run -/

section Runs

variable {heap : Heap} {rounds : Nat} {client : Client}

/-- The buffer and what has still to arrive are the wire forms of the packets that have not been
parsed; a client that was not accepted has sent nothing. -/
structure Delivering (server : CDServer Client SVRequest W) (client : Client)
    (packets : List SVRequest) (coming : List Byte) : Prop where
  stream : Streams packets ((server.client client).input ++ coming)
  fresh : server.lifetime client = .fresh → (server.client client).input = []

/-- **One step** parses packets from the front of the stream. -/
theorem step_delivering {self next : CDServer Client SVRequest W} {action : Action Client W}
    {emitted : List (Event Client SVRequest)} {packets : List SVRequest} {coming : List Byte}
    (hdelivering : Delivering self client packets (arrival client action ++ coming))
    (hguard : WholeLogins client self action)
    (hstep : step (some (survivalProtocol heap rounds)) self action = some (next, emitted)) :
    ∃ done rest, packets = done ++ rest ∧ Delivering next client rest coming ∧
      parsedFields client emitted = done.map SVRequest.wireFields ∧
      ((next.client client).status = .disconnect →
        (self.client client).status = .disconnect ∨ HangsUp client action) := by
  obtain ⟨hstream, hfresh⟩ := hdelivering
  by_cases hreads : ReadsClient client self action
  · have hwhole := hguard hreads
    rcases hreads with rfl | ⟨worker, rfl, hworker⟩
    · obtain ⟨-, hread⟩ := by simpa [step] using hstep
      obtain ⟨done, rest, hpackets, hrest, hparsed, hstatus, hlifetime, hempty⟩ :=
        readCallback_delivering hstream hwhole hread
      refine ⟨done, rest, hpackets, ⟨hrest, fun h => ?_⟩, hparsed, fun h => .inl (hstatus h)⟩
      exact hempty (hfresh (hlifetime ▸ h))
    · have hread : readCallback (some (survivalProtocol heap rounds))
          (self.setWorker worker .ready) client = some (next, emitted) := by
        simpa only [step, runWorker, hworker] using hstep
      have hstored : Streams packets
          (((self.setWorker worker .ready).client client).input ++ coming) := hstream
      obtain ⟨done, rest, hpackets, hrest, hparsed, hstatus, hlifetime, hempty⟩ :=
        readCallback_delivering hstored hwhole hread
      refine ⟨done, rest, hpackets, ⟨hrest, fun h => ?_⟩, hparsed, fun h => .inl (hstatus h)⟩
      exact hempty (hfresh (hlifetime ▸ h))
  · obtain ⟨hinput, hnew, hparsed, hstatus⟩ := step_unread hfresh hreads hstep
    refine ⟨[], packets, rfl, ⟨?_, fun h => ?_⟩, ?_, hstatus⟩
    · rwa [hinput, List.append_assoc]
    · obtain ⟨hbefore, hnone⟩ := hnew h
      rw [hinput, hfresh hbefore, hnone, List.append_nil]
    · rw [parsedFields, hparsed, List.map_nil]

/-- What a list of actions parses of a stream. -/
theorem exec_delivering {actions : List (Action Client W)} {self last : CDServer Client SVRequest W}
    {events : List (Event Client SVRequest)} {packets : List SVRequest} {coming : List Byte}
    (hdelivering : Delivering self client packets (arrived client actions ++ coming))
    (hguard : (system (some (survivalProtocol heap rounds))).ExecGuard (WholeLogins client) actions
      self)
    (hexec : (system (some (survivalProtocol heap rounds))).exec actions self =
      some (last, events)) :
    ∃ done rest, packets = done ++ rest ∧ Delivering last client rest coming ∧
      parsedFields client events = done.map SVRequest.wireFields ∧
      ((last.client client).status = .disconnect →
        (self.client client).status = .disconnect ∨ ∃ action ∈ actions, HangsUp client action) := by
  induction actions generalizing self events packets with
  | nil =>
      cases hexec
      exact ⟨[], packets, rfl, hdelivering, rfl, .inl⟩
  | cons action actions ih =>
      obtain ⟨hhead, htail⟩ := hguard
      cases hstep : (system (some (survivalProtocol heap rounds))).step self action with
      | none => simp [System.exec, hstep] at hexec
      | some result =>
          obtain ⟨next, emitted⟩ := result
          simp only [System.exec, hstep, Option.map_eq_some_iff, Prod.mk.injEq,
            Prod.exists] at hexec
          obtain ⟨last', later, hrest, rfl, rfl⟩ := hexec
          simp only [hstep] at htail
          have hbefore : Delivering self client packets
              (arrival client action ++ (arrived client actions ++ coming)) := by
            simpa [arrived] using hdelivering
          obtain ⟨done, rest, rfl, hnext, hparsed, hstatus⟩ := step_delivering hbefore hhead hstep
          obtain ⟨done', rest', rfl, hlast, hparsed', hstatus'⟩ := ih hnext htail hrest
          refine ⟨done ++ done', rest', by rw [List.append_assoc], hlast, ?_, fun h => ?_⟩
          · rw [parsedFields_append, hparsed, hparsed', List.map_append]
          · rcases hstatus' h with hdisconnect | ⟨other, hother, hhangs⟩
            · rcases hstatus hdisconnect with hdisconnect | hhangs
              · exact .inl hdisconnect
              · exact .inr ⟨action, .head _, hhangs⟩
            · exact .inr ⟨other, .tail _ hother, hhangs⟩

/-- **Requests are delivered in order.**  A client sends packets that the wire carries, cut into
pieces anyhow, and no callback finds a login that lacks its last byte.  Whatever else the threads
do, the packets parsed are the first of those sent, the buffer holds the beginning of the others,
what `Client.process` is dispatched for is the front of what was sent, and the client is
disconnected only when the connection breaks or somebody kicks it. -/
theorem requests_delivered_in_order [Fintype W] {actions : List (Action Client W)}
    {state : CDServer Client SVRequest W} {events : List (Event Client SVRequest)}
    {packets : List SVRequest} {more : List Byte}
    (hexec : (system (some (survivalProtocol heap rounds))).exec actions createServer =
      some (state, events))
    (hstream : Streams packets (arrived client actions ++ more))
    (hlogins : (system (some (survivalProtocol heap rounds))).ExecGuard (WholeLogins client)
      actions createServer) :
    ∃ parsed unread, packets = parsed ++ unread ∧
      parsedFields client events = parsed.map SVRequest.wireFields ∧
      Streams unread ((state.client client).input ++ more) ∧
      processedFields client events <+: packets.map SVRequest.wireFields ∧
      ((∀ action ∈ actions, ¬ HangsUp client action) →
        (state.client client).status ≠ .disconnect) := by
  have hinit : Delivering (createServer : CDServer Client SVRequest W) client packets
      (arrived client actions ++ more) := ⟨hstream, fun _ => rfl⟩
  obtain ⟨parsed, unread, hpackets, ⟨hunread, -⟩, hparsed, hstatus⟩ :=
    exec_delivering hinit hlogins hexec
  refine ⟨parsed, unread, hpackets, hparsed, hunread, ?_, fun hnone hdisconnect => ?_⟩
  · have hrun : (system (some (survivalProtocol heap rounds))).Run (fun _ _ => True) events state :=
      System.Run.exec .start (System.execGuard_true _ _) hexec
    obtain ⟨tail, horder⟩ := run_packetOrder hrun client
    calc processedFields client events <+: parsedFields client events := by
          rw [parsedFields, horder.parsed, List.map_append]
          exact ⟨_, rfl⟩
      _ = parsed.map SVRequest.wireFields := hparsed
      _ <+: packets.map SVRequest.wireFields := by
          rw [hpackets, List.map_append]
          exact ⟨_, rfl⟩
  · rcases hstatus hdisconnect with hconnect | ⟨action, hmem, hhangs⟩
    · cases hconnect
    · exact hnone action hmem hhangs

/-- A keep-alive and the first byte of the next packet arrive in two pieces. -/
def keepAliveAndMore : List (Action ℕ (Fin 1)) :=
  [.accept 0, .work 0, .work 0, .work 0, .work 0, .work 0, .receive 0 [0x00, 0, 0], .read 0,
    .receive 0 [0, 7, 0x0A], .read 0, .work 0, .work 0, .work 0]

theorem requests_delivered_in_order_keepAlive :
    ∃ state events, (system (some (survivalProtocol zeroHeap 0))).exec keepAliveAndMore
        createServer = some (state, events) ∧
      processedFields 0 events = [.keepAlive 7] ∧
      processedFields 0 events <+: [SVRequest.keepAlive 7, .onGround 1].map SVRequest.wireFields ∧
      (state.client 0).status ≠ .disconnect := by
  have hrun : ((system (some (survivalProtocol zeroHeap 0))).exec keepAliveAndMore
      createServer).map (fun result => processedFields 0 result.2) = some [.keepAlive 7] := by
    rfl
  obtain ⟨⟨state, events⟩, hexec, hprocessed⟩ := Option.map_eq_some_iff.mp hrun
  have hstream : Streams [.keepAlive 7, .onGround 1]
      (arrived 0 keepAliveAndMore ++ [(1 : Byte)]) := by
    refine ⟨[[0x00, 0, 0, 0, 7], [0x0A, 1]], .cons ?_ (.cons ?_ .nil), rfl⟩
    · exact ⟨rfl, by decide, by simp [SVRequest.strings]⟩
    · exact ⟨rfl, by decide, by simp [SVRequest.strings]⟩
  have hlogins : (system (some (survivalProtocol zeroHeap 0))).ExecGuard (WholeLogins 0)
      keepAliveAndMore createServer := by
    have hothers : (system (some (survivalProtocol zeroHeap 0))).ExecGuard
        (fun self _ => (self.client 0).input.head? ≠ some 0x01) keepAliveAndMore createServer := by
      decide
    exact hothers.mono fun self action hother _ _ hlogin => hother hlogin.1
  obtain ⟨parsed, unread, -, -, -, hprefix, hstatus⟩ :=
    requests_delivered_in_order hexec hstream hlogins
  exact ⟨state, events, hexec, hprocessed, hprefix, hstatus (by simp [keepAliveAndMore, HangsUp])⟩

end Runs

end Craftd.Server
