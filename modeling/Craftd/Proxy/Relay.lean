import Craftd.Proxy.Moves

/-!
# The proxy relays both ways

Over every interleaving of the two connections of a client, the callbacks and the workers:
what is written to the server behind are the packets of the client that have been processed,
and what is written to the client are the packets of the server behind that have been read,
each whole, in order and unchanged.  What is not written yet is in a buffer or on the way.
Pings are answered and disconnects are not sent on.

Each way has its invariant, `Forwarding`, `Relaying` and `Answering`.
-/

namespace Craftd.Proxy

open StepSystem Server Protocol

variable {Client W : Type*} [DecidableEq Client] [DecidableEq W]

/-! ## From the client -/

section Forwarding

variable {heap : Heap} {rounds : Nat} {connects : Client → Bool}
  {self next : ProxyServer Client W}
  {action : ProxyAction Client W} {events emitted : List (Event Client SVRequest)}
  {client : Client}

/-- The data of a packet that is no disconnect. -/
def relayedData (data : List Byte) : Bool :=
  data.head? != some SVPacketType.disconnect.value

/-- The data of a packet that is neither a disconnect nor a ping. -/
def forwardedData (data : List Byte) : Bool :=
  relayedData data && data.head? != some SVPacketType.listPing.value

/-- What is written to the server behind for a request. -/
def requestBytes (packet : SVRequest) : List Byte :=
  match requestToBuffer packet with
  | .ok (some data) => data
  | _ => []

/-- What is written to the server behind for requests that were processed. -/
def forwardedBytes (packets : List SVRequest) : List Byte :=
  (packets.filter forwarded).flatMap requestBytes

theorem forwarded_wireFields (packet : SVRequest) :
    forwarded packet.wireFields = forwarded packet := by
  cases packet <;> rfl

theorem forwardedBytes_append (packets later : List SVRequest) :
    forwardedBytes (packets ++ later) = forwardedBytes packets ++ forwardedBytes later := by
  rw [forwardedBytes, List.filter_append, List.flatMap_append]
  rfl

@[simp] theorem forwardedBytes_singleton (packet : SVRequest) :
    forwardedBytes [packet] = if forwarded packet then requestBytes packet else [] := by
  by_cases hforwarded : forwarded packet = true <;> simp [forwardedBytes, hforwarded]

/-- What is sent on depends on what the wire carries. -/
theorem forwardedBytes_wireFields (packets : List SVRequest) :
    forwardedBytes (packets.map SVRequest.wireFields) = forwardedBytes packets := by
  induction packets with
  | nil => rfl
  | cons packet packets ih =>
      have hhead : forwardedBytes [packet.wireFields] = forwardedBytes [packet] := by
        simp only [forwardedBytes_singleton, forwarded_wireFields, requestBytes,
          requestToBuffer_wireFields]
      calc forwardedBytes ((packet :: packets).map SVRequest.wireFields)
          = forwardedBytes [packet.wireFields] ++
              forwardedBytes (packets.map SVRequest.wireFields) := forwardedBytes_append [_] _
        _ = forwardedBytes [packet] ++ forwardedBytes packets := by rw [hhead, ih]
        _ = forwardedBytes (packet :: packets) := (forwardedBytes_append [packet] packets).symm

private theorem forwardedData_of_encodes {packet : SVRequest} {wire : List Byte}
    (hencodes : Encodes packet wire) : forwardedData wire = forwarded packet := by
  obtain ⟨data, rfl, -⟩ := hencodes.reads
  cases packet <;> rfl

private theorem forwardedBytes_of_encodes {packets : List SVRequest} {wires : List (List Byte)}
    (hall : List.Forall₂ Encodes packets wires) :
    forwardedBytes packets = (wires.filter forwardedData).flatten := by
  induction hall with
  | nil => rfl
  | @cons packet wire packets wires hencodes hall ih =>
      have hbytes : requestBytes packet = wire := by rw [requestBytes, hencodes.sent]
      rw [← List.singleton_append, forwardedBytes_append, ih, forwardedBytes_singleton, hbytes]
      by_cases hforwarded : forwarded packet = true <;>
        simp [forwardedData_of_encodes hencodes, hforwarded]

omit [DecidableEq W] in
theorem processedFields_append (client : Client) (events emitted : List (Event Client SVRequest)) :
    processedFields client (events ++ emitted) =
      processedFields client events ++ processedFields client emitted := by
  simp [processedFields]

/-- What no handler is told of is no packet. -/
theorem processedFields_unhandled (hnone : ∀ event ∈ emitted, handled event = false) :
    processedFields client emitted = [] := by
  induction emitted with
  | nil => rfl
  | cons event emitted ih =>
      have hrest := ih fun other hother => hnone other (.tail _ hother)
      have hhead : processedFields client [event] = [] := by
        have hevent := hnone event (.head _)
        cases event with
        | connect | process | disconnect => cases hevent
        | parsed other packet | addDisconnect other | destroy other =>
            by_cases hclient : other = client <;>
              simp [processedFields, processedPackets, Event.about, hclient]
      calc processedFields client (event :: emitted)
          = processedFields client [event] ++ processedFields client emitted :=
            processedFields_append client [event] emitted
        _ = [] := by rw [hhead, hrest, List.append_nil]

theorem processedFields_disconnect (client served : Client) :
    processedFields client [.disconnect served] = [] := by
  by_cases hclient : served = client <;>
    simp [processedFields, processedPackets, Event.about, hclient]

theorem processedFields_process (client served : Client) (packet : SVRequest) :
    processedFields client [.process served packet] =
      if served = client then [packet.wireFields] else [] := by
  by_cases hclient : served = client <;>
    simp [processedFields, processedPackets, Event.about, hclient]

private theorem processedFields_connect [Fintype W] {server : CDServer Client SVRequest W}
    {worker : W}
    (hrun : (system (some (survivalProtocol heap rounds))).Run (fun _ _ => True) events server)
    (hworker : server.workers worker = .connecting client) :
    processedFields client events = [] := by
  obtain ⟨tail, horder⟩ := run_packetOrder hrun client
  have hparsed : parsedPackets (events.filterMap (Event.about client)) = [] :=
    not_not.mp (mt (run_dispatched hrun client).parsed (connect_notMem hrun hworker))
  rw [horder.parsed, List.append_eq_nil_iff] at hparsed
  rw [processedFields, hparsed.1, List.map_nil]

/-- What was written to the server behind is what was processed of the client. -/
def Forwarding (client : Client) (events : List (Event Client SVRequest))
    (state : ProxyServer Client W) : Prop :=
  ∀ input output, state.proxyBuffers client = .opened input output →
    output = forwardedBytes (processedFields client events)

/-- **One step** writes the packet that it dispatches, and no other. -/
theorem Forwarding.step [Fintype W] (hsimulated : Simulated heap rounds connects events self)
    (hforwarding : Forwarding client events self)
    (hmove : ProxyMove heap rounds connects self action next emitted) :
    Forwarding client (events ++ emitted) next := by
  -- a step that writes nothing
  have hkept : ∀ {after : ProxyServer Client W} {emitted : List (Event Client SVRequest)},
      (∀ input output, after.proxyBuffers client = .opened input output →
        ∃ input', self.proxyBuffers client = .opened input' output) →
      forwardedBytes (processedFields client emitted) = [] →
        Forwarding client (events ++ emitted) after := by
    intro after emitted hbuffers hnone input output hopened
    obtain ⟨input', hbefore⟩ := hbuffers input output hopened
    rw [processedFields_append, forwardedBytes_append, hnone, List.append_nil]
    exact hforwarding input' output hbefore
  have hsame : ∀ {served : Client} {input input' output : List Byte},
      self.proxyBuffers served = .opened input output →
      ∀ input'' output', (self.setBuffers served (.opened input' output)).proxyBuffers client =
        .opened input'' output' → ∃ before, self.proxyBuffers client = .opened before output' := by
    intro served input input' output hopened input'' output' hafter
    by_cases hclient : client = served
    · subst hclient
      rw [ProxyServer.setBuffers_self, ProxyBuffers.opened.injEq] at hafter
      exact ⟨input, hafter.2 ▸ hopened⟩
    · rw [ProxyServer.setBuffers_of_ne _ hclient] at hafter
      exact ⟨input'', hafter⟩
  cases hmove with
  | quiet action server _ hstep hnone =>
      exact hkept (fun input output h => ⟨input, h⟩) (by rw [processedFields_unhandled hnone]; rfl)
  | connect worker served server hstep hworker =>
      by_cases hclient : client = served
      · subst hclient
        intro input output hopened
        rw [ProxyServer.setBuffers_self, ProxyBuffers.opened.injEq] at hopened
        rw [processedFields_append, processedFields_connect hsimulated.run hworker, ← hopened.2]
        rfl
      · refine hkept (fun input output h => ⟨input, ?_⟩) rfl
        rwa [ProxyServer.setBuffers_of_ne _ hclient] at h
  | refused worker served =>
      refine hkept (fun input output h => ⟨input, ?_⟩) rfl
      by_cases hclient : client = served
      · subst hclient
        rw [ProxyServer.setBuffers_self] at h
        cases h
      · rwa [ProxyServer.setBuffers_of_ne _ hclient] at h
  | kicked worker served server reason =>
      refine hkept (fun input output h => ⟨input, h⟩) ?_
      rw [processedFields_append, processedFields_unhandled (proxyKick_unhandled _ _),
        List.append_nil, processedFields_process]
      split_ifs <;> rfl
  | pinged worker served =>
      refine hkept (fun input output h => ⟨input, h⟩) ?_
      rw [processedFields_process]
      split_ifs <;> rfl
  | forward worker served server packet input output data hstep hworker hforwarded hopened hdata =>
      by_cases hclient : client = served
      · subst hclient
        intro input' output' hafter
        rw [ProxyServer.setBuffers_self, ProxyBuffers.opened.injEq] at hafter
        have hbytes : requestBytes packet = data := by rw [requestBytes, hdata]
        calc output' = output ++ data := hafter.2.symm
          _ = forwardedBytes (processedFields client events) ++
                forwardedBytes [packet.wireFields] := by
              rw [← hforwarding input output hopened, ← hbytes]
              simp [forwarded_wireFields, hforwarded, requestBytes, requestToBuffer_wireFields]
          _ = forwardedBytes (processedFields client (events ++ [.process client packet])) := by
              rw [processedFields_append, processedFields_process, if_pos rfl,
                forwardedBytes_append]
      · refine hkept (fun input output h => ⟨input, ?_⟩) ?_
        · rwa [ProxyServer.setBuffers_of_ne _ hclient] at h
        · rw [processedFields_process, if_neg (Ne.symm hclient)]
          rfl
  | leave worker served =>
      refine hkept (fun input output h => ⟨input, h⟩) ?_
      rw [processedFields_disconnect]
      rfl
  | free worker served server input output =>
      refine hkept (fun input output h => ⟨input, ?_⟩)
        (by rw [processedFields_disconnect]; rfl)
      by_cases hclient : client = served
      · subst hclient
        rw [ProxyServer.setBuffers_self] at h
        cases h
      · rwa [ProxyServer.setBuffers_of_ne _ hclient] at h
  | receive served bytes input output hopened => exact hkept (hsame hopened) rfl
  | relay served input output rest data packet hopened => exact hkept (hsame hopened) rfl
  | skip served input output rest hopened => exact hkept (hsame hopened) rfl
  | dismiss served input output rest reason hopened =>
      refine hkept (hsame hopened) ?_
      rw [processedFields_unhandled (proxyKick_unhandled _ _)]
      rfl
  | again | alive => exact hkept (fun input output h => ⟨input, h⟩) rfl
  | bad served | died served =>
      refine hkept (fun input output h => ⟨input, h⟩) ?_
      rw [processedFields_unhandled (proxyKick_unhandled _ _)]
      rfl

/-- **Every run** writes to the server behind what it processes. -/
theorem run_forwarding [Fintype W] {guard : ProxyServer Client W → ProxyAction Client W → Prop}
    (hrun : (proxySystem heap rounds connects).Run guard events self) (client : Client) :
    Forwarding client events self := by
  induction hrun with
  | start => exact fun input output hopened => by cases hopened
  | step hprefix hguard hnext ih => exact ih.step (run_simulated hprefix) (proxyStep_moves hnext)

end Forwarding

/-! ## From the server behind -/

section Relaying

variable {heap : Heap} {rounds : Nat} {connects : Client → Bool}
  {self next : ProxyServer Client W}
  {action : ProxyAction Client W} {events emitted : List (Event Client SVRequest)}
  {client : Client} {packet : SVResponse} {wire input coming : List Byte}
  {responses : List (List Byte)}

private theorem relayedData_of_passes (hpasses : Passes heap packet wire) :
    relayedData wire = relayed packet := by
  obtain ⟨data, rfl⟩ := hpasses.exists_cons
  cases packet <;> rfl

/-- What a step brings of what the server behind sends the client. -/
def responseArrival (client : Client) : ProxyAction Client W → List Byte
  | .receive other bytes => if other = client then bytes else []
  | _ => []

/-- **The callback** finds a whole response at the front, or waits. -/
theorem responseProtocol_reads (rounds : Nat)
    (hall : ∀ wire ∈ responses, ∃ packet, Passes heap packet wire)
    (hstream : input ++ coming = responses.flatten) (hwhole : ¬ Torn input) :
    (responseProtocol heap rounds).parsable input = some .again ∨
      ∃ wire later packet rest, responses = wire :: later ∧ Passes heap packet wire ∧
        rest ++ coming = later.flatten ∧
        (responseProtocol heap rounds).parsable input = some .parsable ∧
        (responseProtocol heap rounds).parse input = (some packet, rest) := by
  cases responses with
  | nil =>
      rw [List.flatten_nil, List.append_eq_nil_iff] at hstream
      rw [hstream.1]
      exact .inl rfl
  | cons wire later =>
      obtain ⟨packet, hpasses⟩ := hall wire (.head _)
      rw [List.flatten_cons] at hstream
      by_cases hsome : input = []
      · rw [hsome]
        exact .inl rfl
      rcases Nat.lt_or_ge input.length wire.length with hshort | hlong
      · obtain ⟨low, hanswer⟩ := hpasses.waits hstream hshort hsome hwhole
        exact .inl (by simp only [responseProtocol, hanswer rounds])
      · obtain ⟨rest, rfl⟩ : wire <+: input :=
          List.prefix_of_prefix_length_le ⟨_, hstream.symm⟩ ⟨coming, rfl⟩ hlong
        refine .inr ⟨wire, later, packet, rest, rfl, hpasses, ?_, ?_, ?_⟩
        · rw [List.append_assoc] at hstream
          exact List.append_cancel_left hstream
        · simp only [responseProtocol, hpasses.parsable hwhole rounds, hpasses.whole rest]
        · simp only [responseProtocol, hpasses.whole rest]

/-- The buffer and what has still to come are together the responses that were not read. -/
structure Relaying (client : Client) (state : ProxyServer Client W)
    (responses : List (List Byte)) (coming : List Byte) : Prop where
  opened : ∀ input output, state.proxyBuffers client = .opened input output →
    input ++ coming = responses.flatten
  unset : state.proxyBuffers client = .unset → coming = responses.flatten

private theorem exists_pingReply : ∃ data, pingReply = .ok data := by
  have hsome : pingReply.toOption.isSome = true := by decide +kernel
  cases hreply : pingReply with
  | error fault =>
      rw [hreply] at hsome
      cases hsome
  | ok data => exact ⟨data, rfl⟩

theorem relayedData_pingReply {data : List Byte} (hdata : pingReply = .ok data) :
    relayedData data = false := by
  unfold pingReply pingToBuffer at hdata
  split at hdata
  · cases hdata
  · next description hdescription =>
      cases hadded : bufferAddString16 description with
      | error fault =>
          rw [hadded] at hdata
          cases hdata
      | ok bytes =>
          rw [hadded] at hdata
          cases hdata
          rw [bufferAddByte_eq]
          rfl

omit [DecidableEq Client] [DecidableEq W] in
/-- A step that neither reads the connection nor brings anything on it. -/
theorem Relaying.kept {after : ProxyServer Client W}
    (hrelaying : Relaying client self responses coming)
    (hopened : ∀ input output, after.proxyBuffers client = .opened input output →
      ∃ before, self.proxyBuffers client = .opened input before)
    (hunset : after.proxyBuffers client = .unset → self.proxyBuffers client = .unset)
    (houtput : (after.output client).filter relayedData =
      (self.output client).filter relayedData) :
    ∃ done rest, responses = done ++ rest ∧ Relaying client after rest coming ∧
      (after.output client).filter relayedData =
        (self.output client).filter relayedData ++ done.filter relayedData := by
  refine ⟨[], responses, rfl, ⟨fun input output h => ?_, fun h => ?_⟩, ?_⟩
  · obtain ⟨before, hbefore⟩ := hopened input output h
    exact hrelaying.opened input before hbefore
  · exact hrelaying.unset (hunset h)
  · rw [houtput, List.filter_nil, List.append_nil]

omit [DecidableEq W] in
theorem Relaying.elsewhere {after : ProxyServer Client W} {served : Client} {value : ProxyBuffers}
    (hrelaying : Relaying client self responses coming) (hclient : client ≠ served)
    (hbuffers : after.proxyBuffers = (self.setBuffers served value).proxyBuffers)
    (houtput : after.output client = self.output client) :
    ∃ done rest, responses = done ++ rest ∧ Relaying client after rest coming ∧
      (after.output client).filter relayedData =
        (self.output client).filter relayedData ++ done.filter relayedData := by
  have hsame : after.proxyBuffers client = self.proxyBuffers client := by
    rw [hbuffers, ProxyServer.setBuffers_of_ne _ hclient]
  refine hrelaying.kept (fun input output h => ⟨output, ?_⟩) (fun h => ?_) (by rw [houtput])
  · rwa [hsame] at h
  · rwa [hsame] at h

omit [DecidableEq Client] [DecidableEq W] in
/-- What the callback takes off the connection is the response at the front. -/
theorem Relaying.reads {output rest : List Byte} {result : Option SVResponse}
    (hrelaying : Relaying client self responses coming)
    (hall : ∀ wire ∈ responses, ∃ packet, Passes heap packet wire)
    (hguard : WholePackets client self (.read client))
    (hopened : self.proxyBuffers client = .opened input output)
    (hparsable : (responseProtocol heap rounds).parsable input = some .parsable)
    (hparse : (responseProtocol heap rounds).parse input = (result, rest)) :
    ∃ packet wire later, result = some packet ∧ responses = wire :: later ∧
      Passes heap packet wire ∧ rest ++ coming = later.flatten := by
  have hwhole : ¬ Torn input := by
    have hnone := hguard rfl
    rwa [hopened] at hnone
  rcases responseProtocol_reads rounds hall (hrelaying.opened input output hopened) hwhole
    with hagain | ⟨wire, later, packet, rest', hresponses, hpasses, hlater, -, hparse'⟩
  · rw [hagain] at hparsable
    cases hparsable
  · rw [hparse] at hparse'
    cases hparse'
    exact ⟨packet, wire, later, rfl, hresponses, hpasses, hlater⟩

omit [DecidableEq Client] [DecidableEq W] in
/-- The connection without the response at its front. -/
theorem Relaying.of_rest {after : ProxyServer Client W} {later : List (List Byte)}
    {rest output : List Byte} (hopened : after.proxyBuffers client = .opened rest output)
    (hlater : rest ++ coming = later.flatten) : Relaying client after later coming where
  opened := fun input' output' h => by
    rw [hopened, ProxyBuffers.opened.injEq] at h
    rw [← h.1, hlater]
  unset := fun h => by
    rw [hopened] at h
    cases h

/-- **One step** sends the client the response that it reads, and no other. -/
theorem Relaying.step [Fintype W] (hsimulated : Simulated heap rounds connects events self)
    (hall : ∀ wire ∈ responses, ∃ packet, Passes heap packet wire)
    (hrelaying : Relaying client self responses (responseArrival client action ++ coming))
    (hguard : WholePackets client self action)
    (hmove : ProxyMove heap rounds connects self action next emitted) :
    ∃ done rest, responses = done ++ rest ∧ Relaying client next rest coming ∧
      (next.output client).filter relayedData =
        (self.output client).filter relayedData ++ done.filter relayedData := by
  cases hmove with
  | quiet | kicked | leave | again | bad | died | alive =>
      exact hrelaying.kept (fun input output h => ⟨output, h⟩) id rfl
  | connect worker served server hstep hworker =>
      -- before its connect the client has no connection to read from
      by_cases hclient : client = served
      · subst hclient
        have hunset := (hsimulated.unset client).mpr (connect_notMem hsimulated.run hworker)
        refine ⟨[], responses, rfl, .of_rest (ProxyServer.setBuffers_self ..) ?_,
          (List.append_nil _).symm⟩
        exact hrelaying.unset hunset
      · exact hrelaying.elsewhere hclient rfl rfl
  | pinged worker served server data hstep hworker hdata =>
      refine hrelaying.kept (fun input output h => ⟨output, h⟩) id ?_
      by_cases hclient : client = served
      · subst hclient
        simp [relayedData_pingReply hdata]
      · rw [ProxyServer.clientSendBuffer_of_ne _ hclient]
  | forward worker served server packet input output data hstep hworker hforwarded hopened =>
      by_cases hclient : client = served
      · subst hclient
        refine ⟨[], responses, rfl, .of_rest (ProxyServer.setBuffers_self ..) ?_,
          (List.append_nil _).symm⟩
        exact hrelaying.opened input output hopened
      · exact hrelaying.elsewhere hclient rfl rfl
  | refused worker served | free worker served =>
      -- without buffers nothing is asked of the stream
      by_cases hclient : client = served
      · subst hclient
        refine hrelaying.kept (fun input output h => ?_) (fun h => ?_) rfl <;>
          · rw [ProxyServer.setBuffers_self] at h
            cases h
      · exact hrelaying.elsewhere hclient rfl rfl
  | receive served bytes input output hopened =>
      by_cases hclient : client = served
      · subst hclient
        have hstream := hrelaying.opened input output hopened
        rw [responseArrival, if_pos rfl, ← List.append_assoc] at hstream
        exact ⟨[], responses, rfl, .of_rest (ProxyServer.setBuffers_self ..) hstream,
          (List.append_nil _).symm⟩
      · rw [responseArrival, if_neg (Ne.symm hclient)] at hrelaying
        exact hrelaying.elsewhere hclient rfl rfl
  | relay served input output rest data packet hopened hparsable hparse hrelayed hdata =>
      -- the response at the front is the one that is relayed, byte for byte
      by_cases hclient : client = served
      · subst hclient
        obtain ⟨packet', wire, later, hpacket, rfl, hpasses, hlater⟩ :=
          Relaying.reads hrelaying hall hguard hopened hparsable hparse
        cases hpacket
        refine ⟨[wire], later, rfl, .of_rest (ProxyServer.setBuffers_self ..) hlater, ?_⟩
        obtain rfl : wire = data := Except.ok.inj (hpasses.sent.symm.trans hdata)
        rw [ProxyServer.clientSendBuffer_self, List.filter_append]
        rfl
      · exact hrelaying.elsewhere hclient rfl (ProxyServer.clientSendBuffer_of_ne _ hclient _)
  | dismiss served input output rest reason hopened hparsable hparse =>
      -- a disconnect is taken off the stream and not relayed
      by_cases hclient : client = served
      · subst hclient
        obtain ⟨packet', wire, later, hpacket, rfl, hpasses, hlater⟩ :=
          Relaying.reads hrelaying hall hguard hopened hparsable hparse
        cases hpacket
        refine ⟨[wire], later, rfl, .of_rest (ProxyServer.setBuffers_self ..) hlater, ?_⟩
        have hdropped : relayedData wire = false := relayedData_of_passes hpasses
        rw [List.filter_singleton, hdropped]
        exact (List.append_nil _).symm
      · exact hrelaying.elsewhere hclient rfl rfl
  | skip served input output rest hopened hparsable hparse =>
      -- what the decoder refuses is no response of the stream
      by_cases hclient : client = served
      · subst hclient
        obtain ⟨packet', -, -, hpacket, -⟩ :=
          Relaying.reads hrelaying hall hguard hopened hparsable hparse
        cases hpacket
      · exact hrelaying.elsewhere hclient rfl rfl

end Relaying

/-! ## Pings -/

section Answering

variable {heap : Heap} {rounds : Nat} {connects : Client → Bool}
  {self next : ProxyServer Client W}
  {action : ProxyAction Client W} {events emitted : List (Event Client SVRequest)}
  {client : Client}

/-- The answers to the pings among requests that were processed. -/
def pingReplies (packets : List SVRequest) : List (List Byte) :=
  packets.filterMap fun
    | .listPing => pingReply.toOption
    | _ => none

theorem pingReplies_append (packets later : List SVRequest) :
    pingReplies (packets ++ later) = pingReplies packets ++ pingReplies later :=
  List.filterMap_append

private theorem pingReplies_wireFields (packets : List SVRequest) :
    pingReplies (packets.map SVRequest.wireFields) = pingReplies packets := by
  unfold pingReplies
  rw [List.filterMap_map]
  congr 1
  funext packet
  cases packet with
  | listPing => simp only [Function.comp_apply, SVRequest.wireFields]
  | _ => rfl

/-- What the client was sent and no response is the answers to its pings. -/
def Answering (client : Client) (events : List (Event Client SVRequest))
    (state : ProxyServer Client W) : Prop :=
  (state.output client).filter (fun data => !relayedData data) =
    pingReplies (processedFields client events)

private theorem relayedData_of_relayed {packet : SVResponse} {data : List Byte}
    (hrelayed : relayed packet = true) (hdata : responseToBuffer packet = .ok data) :
    relayedData data = true := by
  unfold responseToBuffer at hdata
  cases hadded : responseDataToBuffer packet with
  | error fault =>
      rw [hadded] at hdata
      cases hdata
  | ok bytes =>
      rw [hadded] at hdata
      cases hdata
      rw [bufferAddByte_eq]
      cases packet <;> first | rfl | cases hrelayed

/-- **One step** answers the ping that it dispatches. -/
theorem Answering.step (hanswering : Answering client events self)
    (hmove : ProxyMove heap rounds connects self action next emitted) :
    Answering client (events ++ emitted) next := by
  -- most moves write nothing that is not relayed, and process no ping
  have hkept : ∀ {after : ProxyServer Client W} {emitted : List (Event Client SVRequest)},
      (after.output client).filter (fun data => !relayedData data) =
        (self.output client).filter (fun data => !relayedData data) →
      pingReplies (processedFields client emitted) = [] →
        Answering client (events ++ emitted) after := by
    intro after emitted houtput hnone
    rw [Answering, houtput, processedFields_append, pingReplies_append, hnone, List.append_nil]
    exact hanswering
  have hquiet : ∀ {emitted : List (Event Client SVRequest)},
      (∀ event ∈ emitted, handled event = false) →
        pingReplies (processedFields client emitted) = [] := by
    intro emitted hnone
    rw [processedFields_unhandled hnone]
    rfl
  cases hmove with
  | quiet action server _ hstep hnone => exact hkept rfl (hquiet hnone)
  | connect | refused => exact hkept rfl rfl
  | kicked worker served server reason =>
      refine hkept rfl ?_
      rw [processedFields_append, pingReplies_append, hquiet (proxyKick_unhandled _ _),
        processedFields_process]
      split_ifs <;> rfl
  | pinged worker served server data hstep hworker hdata =>
      by_cases hclient : client = served
      · subst hclient
        -- the answer is the one thing written that is no response
        have hreply : pingReplies [SVRequest.listPing.wireFields] = [data] := by
          have hfields : SVRequest.listPing.wireFields = .listPing := rfl
          simp only [hfields, pingReplies, hdata, List.filterMap_cons, List.filterMap_nil,
            Except.toOption]
        rw [Answering, ProxyServer.clientSendBuffer_self, processedFields_append,
          processedFields_process, if_pos rfl, pingReplies_append, hreply, List.filter_append,
          List.filter_singleton, relayedData_pingReply hdata]
        exact congrArg (· ++ [data]) hanswering
      · refine hkept (by rw [ProxyServer.clientSendBuffer_of_ne _ hclient]) ?_
        rw [processedFields_process, if_neg (Ne.symm hclient)]
        rfl
  | forward worker served server packet input output data hstep hworker hforwarded =>
      refine hkept rfl ?_
      rw [processedFields_process]
      split_ifs
      -- a request that is sent on is no ping
      · cases packet with
        | disconnect | listPing => cases hforwarded
        | _ => rfl
      · rfl
  | leave worker served | free worker served =>
      refine hkept rfl ?_
      rw [processedFields_disconnect]
      rfl
  | receive | skip | again | alive => exact hkept rfl rfl
  | relay served input output rest data packet hopened hparsable hparse hrelayed hdata =>
      refine hkept ?_ rfl
      by_cases hclient : client = served
      · subst hclient
        rw [ProxyServer.clientSendBuffer_self, List.filter_append, List.filter_singleton,
          relayedData_of_relayed hrelayed hdata]
        exact List.append_nil _
      · rw [ProxyServer.clientSendBuffer_of_ne _ hclient]
        rfl
  | dismiss served input output rest reason =>
      exact hkept rfl (hquiet (proxyKick_unhandled _ _))
  | bad served | died served => exact hkept rfl (hquiet (proxyKick_unhandled _ _))

/-- **Every run** answers the pings that it processes. -/
theorem run_answering {guard : ProxyServer Client W → ProxyAction Client W → Prop}
    (hrun : (proxySystem heap rounds connects).Run guard events self) (client : Client) :
    Answering client events self := by
  induction hrun with
  | start => rfl
  | step hprefix hguard hnext ih => exact ih.step (proxyStep_moves hnext)

end Answering

/-! ## Every run -/

section Runs

variable {heap : Heap} {rounds : Nat} {connects : Client → Bool} {client : Client}

/-- All that has arrived of the client's requests. -/
def requestsArrived (client : Client) (actions : List (ProxyAction Client W)) : List Byte :=
  actions.flatMap (requestArrival client)

/-- All that has arrived of what the server behind sends the client. -/
def responsesArrived (client : Client) (actions : List (ProxyAction Client W)) : List Byte :=
  actions.flatMap (responseArrival client)

/-- What a list of actions does to the two streams of a client. -/
theorem exec_relaying [Fintype W] {actions : List (ProxyAction Client W)}
    {self last : ProxyServer Client W} {events emitted : List (Event Client SVRequest)}
    {packets : List SVRequest} {responses : List (List Byte)} {more coming : List Byte}
    (hsimulated : Simulated heap rounds connects events self)
    (hdelivering : Delivering self.server client packets (requestsArrived client actions ++ more))
    (hrelaying : Relaying client self responses (responsesArrived client actions ++ coming))
    (hall : ∀ wire ∈ responses, ∃ packet, Passes heap packet wire)
    (hguard : (proxySystem heap rounds connects).ExecGuard (WholePackets client) actions self)
    (hexec : (proxySystem heap rounds connects).exec actions self = some (last, emitted)) :
    ∃ parsed unparsed sent unread, packets = parsed ++ unparsed ∧
      Delivering last.server client unparsed more ∧
      parsedFields client emitted = parsed.map SVRequest.wireFields ∧
      responses = sent ++ unread ∧ Relaying client last unread coming ∧
      (last.output client).filter relayedData =
        (self.output client).filter relayedData ++ sent.filter relayedData := by
  induction actions generalizing self events emitted packets responses with
  | nil =>
      cases hexec
      exact ⟨[], packets, [], responses, rfl, hdelivering, rfl, rfl, hrelaying,
        (List.append_nil _).symm⟩
  | cons action actions ih =>
      obtain ⟨hhead, htail⟩ := hguard
      cases hstep : (proxySystem heap rounds connects).step self action with
      | none => simp [System.exec, hstep] at hexec
      | some result =>
          obtain ⟨next, emitted⟩ := result
          simp only [System.exec, hstep, Option.map_eq_some_iff, Prod.mk.injEq,
            Prod.exists] at hexec
          obtain ⟨last', later, hrest, rfl, rfl⟩ := hexec
          simp only [hstep] at htail
          have hmove := proxyStep_moves hstep
          obtain ⟨inside, hinside, hclients⟩ := hmove.exists_exec hsimulated
          obtain ⟨harrived, hlogins⟩ := hclients client
          -- what this action brings comes first, then what the others bring
          have hdelivered : Delivering self.server client packets
              (arrived client inside ++ (requestsArrived client actions ++ more)) := by
            rw [harrived, ← List.append_assoc]
            exact hdelivering
          have hrelayed : Relaying client self responses
              (responseArrival client action ++ (responsesArrived client actions ++ coming)) := by
            rw [← List.append_assoc]
            exact hrelaying
          -- the requests go as in the server inside, the responses by the step lemma
          obtain ⟨parsed, unparsed, rfl, hnext, hparsed, -⟩ :=
            exec_delivering hdelivered (hlogins hhead) hinside
          obtain ⟨sent, unread, rfl, hkept, houtput⟩ :=
            hrelayed.step hsimulated hall hhead hmove
          obtain ⟨parsed', unparsed', sent', unread', rfl, hlast, hparsed', rfl, hkept',
              houtput'⟩ :=
            ih (hsimulated.step hmove) hnext hkept
              (fun wire hwire => hall wire (List.mem_append_right _ hwire)) htail hrest
          refine ⟨parsed ++ parsed', unparsed', sent ++ sent', unread', ?_, hlast, ?_, ?_, hkept',
            ?_⟩
          · rw [List.append_assoc]
          · rw [parsedFields_append, hparsed, hparsed', List.map_append]
          · rw [List.append_assoc]
          · rw [houtput', houtput, List.filter_append, List.append_assoc]

/-- A keep-alive each way, the one from behind in two pieces. -/
def sendKeepAlives : List (ProxyAction ℕ (Fin 1)) :=
  [.server (.accept 0), .server (.work 0), .server (.work 0), .server (.work 0),
    .server (.work 0), .server (.work 0), .receive 0 [0x00, 0, 0],
    .server (.receive 0 [0x00, 0, 0, 0, 7]), .read 0, .server (.read 0), .receive 0 [0, 9],
    .server (.work 0), .server (.work 0)]

/-- The keep-alives are relayed. -/
def relayKeepAlives : List (ProxyAction ℕ (Fin 1)) :=
  sendKeepAlives ++ [.server (.work 0), .read 0]

theorem encodes_keepAlive : Encodes (.keepAlive 7) [0x00, 0, 0, 0, 7] :=
  ⟨rfl, by decide, by simp [SVRequest.strings]⟩

private theorem passes_keepAlive : Passes zeroHeap (.keepAlive 9) [0x00, 0, 0, 0, 9] where
  whole := fun rest => rfl
  kept := by simp [SVResponse.strings]
  plain := ⟨trivial, trivial⟩
  metadata := by decide
  mob := by decide

theorem responses_keepAlive :
    ∀ wire ∈ [[0x00, 0, 0, 0, 9]], ∃ packet, Passes zeroHeap packet wire := by
  intro wire hwire
  rw [List.mem_singleton.mp hwire]
  exact ⟨.keepAlive 9, passes_keepAlive⟩

theorem not_torn_of_keepAlive {input : List Byte}
    (hhead : input.head? = none ∨ input.head? = some SVPacketType.keepAlive.value) :
    ¬ Torn input := by
  rintro ⟨type, htype, htorn⟩
  rcases hhead with hnone | hkeep
  · rw [hnone] at htype
    cases htype
  · rw [hkeep, Option.bind_some, SVPacketType.ofByte_value] at htype
    cases htype
    exact htorn

theorem wholePackets_of_keepAlives {connects : ℕ → Bool}
    {actions : List (ProxyAction ℕ (Fin 1))}
    (hkeep : (proxySystem zeroHeap 0 connects).ExecGuard (fun self _ =>
      (self.server.client 0).input.head? ≠ some 0x01 ∧
        ((self.proxyBuffers 0).input.head? = none ∨
          (self.proxyBuffers 0).input.head? = some SVPacketType.keepAlive.value))
      actions createProxy) :
    (proxySystem zeroHeap 0 connects).ExecGuard (WholePackets 0) actions createProxy := by
  refine hkeep.mono fun self action hother => ?_
  obtain ⟨hlogin, hbehind⟩ := hother
  cases action with
  | server action => exact fun _ _ hcut => hlogin hcut.1
  | receive | error => trivial
  | read other => exact fun _ => not_torn_of_keepAlive hbehind

omit [DecidableEq W] in
/-- A request that is encoded is handled where the connection is open, and where it is not sent
on. -/
theorem exists_clientProcess_iff {self : ProxyServer Client W} {packet : SVRequest}
    {data : List Byte} (hdata : requestToBuffer packet = .ok (some data)) :
    (∃ result, clientProcess self client packet = some result) ↔
      (∃ input output, self.proxyBuffers client = .opened input output) ∨
        forwarded packet = false := by
  by_cases hforwarded : forwarded packet = true
  · rw [clientProcess_forwarded hforwarded, clientProxyPacket, hdata]
    cases self.proxyBuffers client with
    | opened input output => simp
    | unset | freed => simp [hforwarded]
  · refine ⟨fun _ => .inr (eq_false_of_ne_true hforwarded), fun _ => ?_⟩
    cases packet with
    | disconnect reason => exact ⟨_, rfl⟩
    | listPing =>
        obtain ⟨data, hreply⟩ := exists_pingReply
        rw [clientProcess, hreply]
        exact ⟨_, rfl⟩
    | _ => exact absurd rfl hforwarded

/-- The worker that is about to dispatch a packet goes on where the handler does. -/
theorem exists_proxyStep_iff {self : ProxyServer Client W} {worker : W}
    {packet : SVRequest} (hworker : self.server.workers worker = .processing client packet) :
    (∃ result, proxyStep heap rounds connects self (.server (.work worker)) = some result) ↔
      ∃ result, clientProcess
        { self with server := self.server.setWorker worker (.processed client packet) } client
          packet = some result := by
  have hstep : step (some (survivalProtocol heap rounds)) self.server (.work worker) =
      some (self.server.setWorker worker (.processed client packet),
        [.process client packet]) := by
    simp only [step, runWorker, hworker]
  rw [proxyStep, hstep]
  simp only [Option.bind_eq_bind, Option.bind_some, handleAll_singleton, handle]
  cases clientProcess
      { self with server := self.server.setWorker worker (.processed client packet) } client
        packet with
  | none => simp
  | some result => simp

/-- **Which handler is stuck.**  A packet of such a client that is about to be dispatched is
handled exactly where the connection was made or the packet is not sent on: where the connection
was refused, sending on uses the buffers that were destroyed.  A buffer of such responses that
is not torn is read. -/
theorem handlers_go_on [Fintype W] {actions : List (ProxyAction Client W)}
    {state : ProxyServer Client W} {events : List (Event Client SVRequest)}
    {packets : List SVRequest} {requests responses : List (List Byte)} {more coming : List Byte}
    (hexec : (proxySystem heap rounds connects).exec actions createProxy = some (state, events))
    (hrequests : List.Forall₂ Encodes packets requests)
    (hresponses : ∀ wire ∈ responses, ∃ packet, Passes heap packet wire)
    (hmore : requestsArrived client actions ++ more = requests.flatten)
    (hcoming : responsesArrived client actions ++ coming = responses.flatten)
    (hwhole : (proxySystem heap rounds connects).ExecGuard (WholePackets client) actions
      createProxy) :
    (∀ worker packet, state.server.workers worker = .processing client packet →
      ((∃ result, proxyStep heap rounds connects state (.server (.work worker)) = some result) ↔
        connects client = true ∨ forwarded packet = false)) ∧
    ∀ input output, state.proxyBuffers client = .opened input output → ¬ Torn input →
      ∃ result, proxyStep heap rounds connects state (.read client) = some result := by
  have hrun : (proxySystem heap rounds connects).Run (fun _ _ => True) events state :=
    System.Run.exec .start (System.execGuard_true _ _) hexec
  have hsimulated := run_simulated hrun
  obtain ⟨parsed, unparsed, sent, unread, hpackets, -, hparsed, hsent, hrelaying, -⟩ :=
    exec_relaying initial_simulated ⟨⟨requests, hrequests, hmore⟩, fun _ => rfl⟩
      ⟨(fun input output h => by cases h), fun _ => hcoming⟩ hresponses hwhole hexec
  constructor
  · intro worker packet hworker
    -- the packet was parsed, so it is one of those sent and is encoded
    have hmem : packet.wireFields ∈ parsedFields client events :=
      List.mem_map_of_mem (mem_parsed_of_processing hsimulated.run hworker)
    rw [hparsed] at hmem
    obtain ⟨source, hsource, hfields⟩ := List.mem_map.mp hmem
    obtain ⟨wire, hencodes⟩ := exists_encodes hrequests
      (hpackets ▸ List.mem_append_left _ hsource)
    have hdata : requestToBuffer packet = .ok (some wire) := by
      rw [← requestToBuffer_wireFields, ← hfields, requestToBuffer_wireFields, hencodes.sent]
    rw [exists_proxyStep_iff hworker, exists_clientProcess_iff hdata,
      hsimulated.opened_iff_of_processing hworker]
  · intro input output hopened htorn
    have hread : proxyStep heap rounds connects state (.read client) =
        proxyReadCallback heap rounds state client := rfl
    -- what is unread begins with a response that passes, or the buffer waits
    have hall : ∀ wire ∈ unread, ∃ packet, Passes heap packet wire :=
      fun wire hwire => hresponses wire (hsent ▸ List.mem_append_right _ hwire)
    rw [hread, proxyReadCallback, hopened]
    rcases responseProtocol_reads rounds hall (hrelaying.opened input output hopened) htorn with
      hagain | ⟨wire, later, packet, rest, -, hpasses, -, hparsable, hparse⟩
    · simp only [hagain]
      exact ⟨_, rfl⟩
    · simp only [hparsable, hparse]
      by_cases hrelayed : relayed packet = true
      · rw [proxyProcess_relayed hrelayed, hpasses.sent]
        exact ⟨_, rfl⟩
      · cases packet with
        | disconnect reason => exact ⟨_, rfl⟩
        | _ => exact absurd rfl hrelayed

/-- A keep-alive of a client whose connection was refused. -/
def sendRefused : List (ProxyAction ℕ (Fin 1)) :=
  [.server (.accept 0), .server (.work 0), .server (.work 0), .server (.work 0),
    .server (.work 0), .server (.work 0), .server (.receive 0 [0x00, 0, 0, 0, 7]),
    .server (.read 0), .server (.work 0), .server (.work 0)]

theorem handlers_go_on_keepAlives :
    (∃ state events, (proxySystem zeroHeap 0 fun _ => true).exec sendKeepAlives createProxy =
        some (state, events) ∧
      (∃ result, proxyStep zeroHeap 0 (fun _ => true) state (.server (.work 0)) = some result) ∧
      ∃ result, proxyStep zeroHeap 0 (fun _ => true) state (.read 0) = some result) ∧
    ∃ state events, (proxySystem zeroHeap 0 fun _ => false).exec sendRefused createProxy =
        some (state, events) ∧
      ¬ ∃ result, proxyStep zeroHeap 0 (fun _ => false) state (.server (.work 0)) =
        some result := by
  constructor
  · have hrun : ((proxySystem zeroHeap 0 fun _ => true).exec sendKeepAlives createProxy).map
        (fun result => (result.1.server.workers 0, result.1.proxyBuffers 0)) =
          some (.processing 0 (.keepAlive 7), .opened [0x00, 0, 0, 0, 9] []) := by
      rfl
    obtain ⟨⟨state, events⟩, hexec, hstate⟩ := Option.map_eq_some_iff.mp hrun
    rw [Prod.mk.injEq] at hstate
    obtain ⟨hworks, hreads⟩ :=
      handlers_go_on hexec (.cons encodes_keepAlive .nil) responses_keepAlive rfl rfl
        (wholePackets_of_keepAlives (by decide))
    exact ⟨state, events, hexec, (hworks 0 _ hstate.1).mpr (.inl rfl),
      hreads _ _ hstate.2 (not_torn_of_keepAlive (.inr rfl))⟩
  · have hrun : ((proxySystem zeroHeap 0 fun _ => false).exec sendRefused createProxy).map
        (fun result => result.1.server.workers 0) = some (.processing 0 (.keepAlive 7)) := by
      rfl
    obtain ⟨⟨state, events⟩, hexec, hstate⟩ := Option.map_eq_some_iff.mp hrun
    obtain ⟨hworks, -⟩ :=
      handlers_go_on hexec (.cons encodes_keepAlive .nil)
        (fun wire hwire => absurd hwire List.not_mem_nil) rfl
        (show responsesArrived 0 sendRefused ++ [] = [] from rfl)
        (wholePackets_of_keepAlives (by decide))
    refine ⟨state, events, hexec, fun hgoes => ?_⟩
    rcases (hworks 0 _ hstate).mp hgoes with hconnects | hkept
    · cases hconnects
    · cases hkept

end Runs

end Craftd.Proxy
