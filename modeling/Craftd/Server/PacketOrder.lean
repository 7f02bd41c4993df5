import Craftd.Server.Simulation

/-!
# Packets stay in order

At most one process job of a client is queued or running, a disconnected client
stays disconnected, and the packets dispatched to `Client.process` are a prefix
of the packets parsed.

The invariant of the token game that carries all three is `PacketOrder`: the
status counts the tokens that may exist, and what has been parsed but not
dispatched is at most one packet, the one of the waiting token if there is one.
-/

namespace Craftd.Server

open StepSystem

variable {Packet : Type*}

/-! ## The invariant -/

/-- The packets parsed in a history. -/
def parsedPackets (history : List (ClientEvent Packet)) : List Packet :=
  history.filterMap fun
    | .parsed packet => some packet
    | _ => none

/-- The packets dispatched to `Client.process` in a history. -/
def processedPackets (history : List (ClientEvent Packet)) : List Packet :=
  history.filterMap fun
    | .process packet => some packet
    | _ => none

/-- How many connect and process tokens a status allows. -/
def StatusAllows (status : CDClientStatus) (connects processes : ℕ) : Prop :=
  match status with
  | .connect => connects ≤ 1 ∧ processes = 0
  | .idle => connects = 0 ∧ processes = 0
  | .process => connects = 0 ∧ processes = 1
  | .disconnect => connects + processes ≤ 1

/-- The invariant behind the order of packets; `tail` is what was parsed and not
dispatched. -/
structure PacketOrder (history : List (ClientEvent Packet)) (v : ClientView Packet)
    (tail : List Packet) : Prop where
  fresh : v.lifetime = .fresh → v.status = .connect ∧ v.tokens = 0
  allows : StatusAllows v.status (countTokens Token.isConnect v.tokens)
    (countTokens Token.isProcess v.tokens)
  parsed : parsedPackets history = processedPackets history ++ tail
  settled : v.status = .connect ∨ v.status = .idle → tail = []
  waiting : ∀ packet, .waiting packet ∈ v.tokens → tail = [packet]
  running : .running ∈ v.tokens → tail = []

private theorem initial_packetOrder : PacketOrder ([] : List (ClientEvent Packet)) .initial [] where
  fresh := fun _ => ⟨rfl, rfl⟩
  allows := by simp [ClientView.initial, ClientView.tokens, StatusAllows]
  parsed := rfl
  settled := fun _ => rfl
  waiting := by simp [ClientView.initial, ClientView.tokens]
  running := fun _ => rfl

theorem StatusAllows.processes_le {status : CDClientStatus} {connects processes : ℕ}
    (hallows : StatusAllows status connects processes) : processes ≤ 1 := by
  cases status <;> simp only [StatusAllows] at hallows <;> omega

theorem StatusAllows.disconnect {status : CDClientStatus} {connects processes : ℕ}
    (hallows : StatusAllows status connects processes) :
    StatusAllows .disconnect connects processes := by
  cases status <;> simp only [StatusAllows] at hallows ⊢ <;> omega

/-- The last section of a connect job finds the client connecting or
disconnected. -/
theorem StatusAllows.settle_connect {status : CDClientStatus} {connects processes : ℕ}
    (hallows : StatusAllows status (connects + 1) processes) :
    StatusAllows (settle status) connects processes ∧
      (status = .connect ∨ status = .disconnect) := by
  cases status <;> simp only [StatusAllows, settle] at hallows ⊢ <;> simp <;> omega

/-- The last section of a process job finds the client processing or
disconnected. -/
theorem StatusAllows.settle_process {status : CDClientStatus} {connects processes : ℕ}
    (hallows : StatusAllows status connects (processes + 1)) :
    StatusAllows (settle status) connects processes ∧
      (status = .process ∨ status = .disconnect) := by
  cases status <;> simp only [StatusAllows, settle] at hallows ⊢ <;> simp <;> omega

/-- A settled client is idle unless it was disconnected. -/
theorem settled_iff {status : CDClientStatus} :
    settle status = .connect ∨ settle status = .idle ↔ status ≠ .disconnect := by
  cases status <;> simp [settle]

@[simp] theorem parsedPackets_append (history emitted : List (ClientEvent Packet)) :
    parsedPackets (history ++ emitted) = parsedPackets history ++ parsedPackets emitted :=
  List.filterMap_append

@[simp] theorem processedPackets_append (history emitted : List (ClientEvent Packet)) :
    processedPackets (history ++ emitted) = processedPackets history ++ processedPackets emitted :=
  List.filterMap_append

namespace PacketOrder

variable {history : List (ClientEvent Packet)} {v v' : ClientView Packet} {tail : List Packet}
  {rest : Multiset (Token Packet)} {token : Token Packet}

theorem known (horder : PacketOrder history v tail) (htokens : v.tokens = rest + {token}) :
    v.lifetime ≠ .fresh := by
  intro hfresh
  have hcard := congrArg Multiset.card (horder.fresh hfresh).2
  simp [htokens] at hcard

/-- Beside the token of one process job no packet waits. -/
theorem not_waiting (horder : PacketOrder history v tail) (htokens : v.tokens = rest + {token})
    (hprocess : token.isProcess) (packet : Packet) : .waiting packet ∉ rest := by
  intro hwaiting
  have hle := horder.allows.processes_le
  have hpos := countTokens_pos Token.isProcess hwaiting rfl
  simp only [htokens, countTokens_add, countTokens_singleton, hprocess, Bool.toNat_true] at hle
  omega

theorem emit (horder : PacketOrder history v tail) {emitted : List (ClientEvent Packet)}
    (hparsed : parsedPackets emitted = []) (hprocessed : processedPackets emitted = []) :
    PacketOrder (history ++ emitted) v tail :=
  { horder with parsed := by simpa [hparsed, hprocessed] using horder.parsed }

/-- Moving jobs from the queue into a hand changes nothing. -/
theorem retoken (horder : PacketOrder history v tail) (htokens : v'.tokens = v.tokens)
    (hlifetime : v'.lifetime = v.lifetime) (hstatus : v'.status = v.status) :
    PacketOrder history v' tail where
  fresh := by rw [htokens, hlifetime, hstatus]; exact horder.fresh
  allows := by rw [htokens, hstatus]; exact horder.allows
  parsed := horder.parsed
  settled := by rw [hstatus]; exact horder.settled
  waiting := by rw [htokens]; exact horder.waiting
  running := by rw [htokens]; exact horder.running

theorem drop (horder : PacketOrder history v tail) (htokens : v.tokens = rest + {token})
    (hlifetime : v'.lifetime = v.lifetime) (hrest : v'.tokens = rest)
    (hallows : StatusAllows v'.status (countTokens Token.isConnect rest)
      (countTokens Token.isProcess rest))
    (hsettled : v'.status = .connect ∨ v'.status = .idle → tail = []) :
    PacketOrder history v' tail where
  fresh := fun hfresh => absurd (hlifetime ▸ hfresh) (horder.known htokens)
  allows := hrest ▸ hallows
  parsed := horder.parsed
  settled := hsettled
  waiting := fun packet hmem => horder.waiting packet (by
    rw [htokens]
    exact Multiset.mem_add.mpr (.inl (hrest ▸ hmem)))
  running := fun hmem => horder.running (by
    rw [htokens]
    exact Multiset.mem_add.mpr (.inl (hrest ▸ hmem)))

/-- Tokens `old` of neither a connect nor a process job are exchanged for `new`
ones, and the client may be disconnected with that. -/
theorem exchange (horder : PacketOrder history v tail) (old new : Multiset (Token Packet))
    (htokens : v.tokens = rest + old) (htokens' : v'.tokens = rest + new)
    (hold : countTokens Token.isConnect old = 0 ∧ countTokens Token.isProcess old = 0)
    (hnew : countTokens Token.isConnect new = 0 ∧ countTokens Token.isProcess new = 0)
    (hknown : v'.lifetime ≠ .fresh) (hstatus : v'.status = v.status ∨ v'.status = .disconnect) :
    PacketOrder history v' tail where
  fresh := fun hfresh => absurd hfresh hknown
  allows := by
    have hallows := horder.allows
    rw [htokens, countTokens_add, countTokens_add, hold.1, hold.2] at hallows
    rw [htokens', countTokens_add, countTokens_add, hnew.1, hnew.2]
    rcases hstatus with hsame | hdisconnect
    · rwa [hsame]
    · rw [hdisconnect]
      exact hallows.disconnect
  parsed := horder.parsed
  settled := fun hsettled => by
    rcases hstatus with hsame | hdisconnect
    · exact horder.settled (hsame ▸ hsettled)
    · simp [hdisconnect] at hsettled
  waiting := fun packet hmem => by
    rw [htokens', Multiset.mem_add] at hmem
    rcases hmem with hmem | hmem
    · exact horder.waiting packet (htokens ▸ Multiset.mem_add.mpr (.inl hmem))
    · exact absurd hnew.2 (countTokens_pos Token.isProcess hmem rfl).ne'
  running := fun hmem => by
    rw [htokens', Multiset.mem_add] at hmem
    rcases hmem with hmem | hmem
    · exact horder.running (htokens ▸ Multiset.mem_add.mpr (.inl hmem))
    · exact absurd hnew.2 (countTokens_pos Token.isProcess hmem rfl).ne'

/-- The job of a client that was disconnected meanwhile is dropped. -/
theorem refuse (horder : PacketOrder history v tail) (hheld : v.held = rest + {token})
    (hlifetime : v'.lifetime = v.lifetime) (hrest : v'.tokens = v.queue + rest)
    (hstatus : v.status = .disconnect) (hstatus' : v'.status = .disconnect) :
    PacketOrder history v' tail := by
  have hallows := horder.allows
  simp only [ClientView.countTokens_of_held hheld, hstatus, StatusAllows] at hallows
  apply horder.drop (ClientView.tokens_of_held hheld) hlifetime hrest
  · simp only [hstatus', StatusAllows]
    omega
  · simp [hstatus']

/-- A client is accepted: its connect job is its only one. -/
theorem accept (horder : PacketOrder history v tail) (hfresh : v.lifetime = .fresh)
    (hlifetime : v'.lifetime = .live) (hstatus : v'.status = .connect)
    (htokens : v'.tokens = v.tokens + {.connect}) : PacketOrder history v' [] := by
  obtain ⟨hbefore, hnone⟩ := horder.fresh hfresh
  have hempty : tail = [] := horder.settled (.inl hbefore)
  rw [hnone, zero_add] at htokens
  refine { fresh := by simp [hlifetime], allows := ?_, parsed := ?_, settled := fun _ => rfl,
           waiting := by simp [htokens], running := by simp [htokens] }
  · simp [hstatus, htokens, StatusAllows]
  · rw [horder.parsed, hempty]

/-- An idle client has no process job, so the packet that is parsed is the only one that
waits. -/
theorem parse (horder : PacketOrder history v tail) (hidle : v.status = .idle) (packet : Packet)
    (hlifetime : v'.lifetime = v.lifetime) (hstatus : v'.status = .process)
    (htokens : v'.tokens = v.tokens + {.waiting packet}) :
    PacketOrder (history ++ [.parsed packet]) v' [packet] := by
  have hempty : tail = [] := horder.settled (.inr hidle)
  have hallows := horder.allows
  simp only [hidle, StatusAllows] at hallows
  have hnone : ∀ token ∈ v.tokens, token.isProcess = false := fun token hmem => by
    by_contra hprocess
    exact absurd hallows.2 (countTokens_pos Token.isProcess hmem (by simpa using hprocess)).ne'
  refine { fresh := ?_, allows := ?_, parsed := ?_, settled := ?_, waiting := ?_, running := ?_ }
  · intro hfresh
    exact absurd (horder.fresh (hlifetime ▸ hfresh)).1 (by simp [hidle])
  · simp [hstatus, htokens, hallows, StatusAllows]
  · rw [parsedPackets_append, processedPackets_append, horder.parsed, hempty]
    simp [parsedPackets, processedPackets]
  · simp [hstatus]
  · -- the packets that wait are those that waited, of which there are none, and the new one
    intro other hmem
    rw [htokens, Multiset.mem_add] at hmem
    rcases hmem with hold | hnew
    · exact absurd (hnone _ hold) (by simp)
    · simp_all
  · intro hmem
    rw [htokens, Multiset.mem_add] at hmem
    rcases hmem with hold | hnew
    · exact absurd (hnone _ hold) (by simp)
    · simp at hnew

/-- The packet that waits is handed to `Client.process`, and no other one waits. -/
theorem dispatch (horder : PacketOrder history v tail) {packet : Packet}
    (htokens : v.tokens = rest + {.waiting packet}) (hlifetime : v'.lifetime = v.lifetime)
    (hstatus : v'.status = v.status) (hmoved : v'.tokens = rest + {.running}) :
    PacketOrder (history ++ [.process packet]) v' [] := by
  have htail : tail = [packet] := horder.waiting packet (by simp [htokens])
  refine { fresh := ?_, allows := ?_, parsed := ?_, settled := fun _ => rfl, waiting := ?_,
           running := fun _ => rfl }
  · exact fun hfresh => absurd (hlifetime ▸ hfresh) (horder.known htokens)
  · have hallows := horder.allows
    rw [htokens] at hallows
    rw [hstatus, hmoved]
    simpa using hallows
  · rw [parsedPackets_append, processedPackets_append, horder.parsed, htail]
    simp [parsedPackets, processedPackets]
  · intro other hmem
    rw [hmoved] at hmem
    rcases Multiset.mem_add.mp hmem with hold | hnew
    · exact absurd hold (horder.not_waiting htokens rfl other)
    · simp at hnew

end PacketOrder

/-- **One step keeps the order.** -/
theorem step_packetOrder {allowed : Allowed} {history emitted : List (ClientEvent Packet)}
    {v v' : ClientView Packet} {tail : List Packet} (horder : PacketOrder history v tail)
    (hstep : ClientStep allowed v emitted v') :
    ∃ tail', PacketOrder (history ++ emitted) v' tail' := by
  cases hstep with
  | quiet => exact ⟨tail, horder.emit rfl rfl⟩
  | accept hfresh =>
      refine ⟨[], .emit ?_ rfl rfl⟩
      exact horder.accept hfresh rfl rfl (ClientView.tokens_of_append rfl rfl)
  | parse packet hidle =>
      exact ⟨[packet], horder.parse hidle packet rfl rfl (ClientView.tokens_of_append rfl rfl)⟩
  | hangUp hknown hrepeat =>
      -- a fresh client is connecting, so one that hangs up was accepted
      have hlifetime : v.lifetime ≠ .fresh := by
        intro hfresh
        rcases hknown with hknown | hidle
        · exact hknown hfresh
        · exact absurd (horder.fresh hfresh).1 (by simp [hidle])
      refine ⟨tail, .emit ?_ rfl rfl⟩
      refine horder.exchange 0 {.pending} (add_zero _).symm
        (ClientView.tokens_of_append rfl rfl) ?_ ?_ hlifetime (.inr rfl) <;> simp
  | pop token rest hqueue =>
      refine ⟨tail, .emit ?_ rfl rfl⟩
      exact horder.retoken (ClientView.tokens_of_pop hqueue rfl rfl) rfl rfl
  | dropConnect rest hheld hstatus hdrop =>
      refine ⟨tail, .emit ?_ rfl rfl⟩
      exact horder.refuse hheld rfl rfl hstatus hstatus
  | dropProcess rest packet hheld hstatus =>
      refine ⟨tail, .emit ?_ rfl rfl⟩
      exact horder.refuse hheld rfl rfl hstatus hstatus
  | settle rest hheld =>
      have htokens := ClientView.tokens_of_held hheld
      have hallows := horder.allows
      simp only [ClientView.countTokens_of_held hheld, Token.isConnect, Token.isProcess,
        Bool.toNat_true, Bool.toNat_false, add_zero] at hallows
      obtain ⟨hsettled, hstatus⟩ := hallows.settle_connect
      refine ⟨tail, .emit ?_ rfl rfl⟩
      refine horder.drop htokens rfl rfl hsettled fun hidle => ?_
      -- it was connecting, and a connecting client has no packet that waits
      exact horder.settled (.inl (hstatus.resolve_right (settled_iff.mp hidle)))
  | dispatch rest packet hheld =>
      have hmoved : ClientView.tokens { v with held := rest + {.running} } =
          (v.queue + rest) + {.running} := by
        simp only [ClientView.tokens, add_assoc]
      exact ⟨[], horder.dispatch (ClientView.tokens_of_held hheld) rfl rfl hmoved⟩
  | finish rest hheld =>
      have htokens := ClientView.tokens_of_held hheld
      have hallows := horder.allows
      simp only [ClientView.countTokens_of_held hheld, Token.isConnect, Token.isProcess,
        Bool.toNat_true, Bool.toNat_false, add_zero] at hallows
      obtain ⟨hsettled, -⟩ := hallows.settle_process
      refine ⟨tail, .emit ?_ rfl rfl⟩
      exact horder.drop htokens rfl rfl hsettled fun _ => horder.running (by simp [htokens])
  | disconnect rest hheld =>
      have htokens := ClientView.tokens_of_held hheld
      refine ⟨tail, .emit ?_ rfl rfl⟩
      refine horder.exchange {.pending} {.listing} htokens (add_assoc _ _ _).symm ?_ ?_
        (horder.known htokens) (.inl rfl) <;> simp
  | list rest hheld =>
      have htokens := ClientView.tokens_of_held hheld
      refine ⟨tail, .emit ?_ rfl rfl⟩
      refine horder.exchange {.listing} {.flushing} htokens (add_assoc _ _ _).symm ?_ ?_
        (horder.known htokens) (.inl rfl) <;> simp
  | flush rest hheld =>
      have htokens := ClientView.tokens_of_held hheld
      refine ⟨tail, .emit ?_ rfl rfl⟩
      refine horder.exchange {.flushing} 0 htokens (add_zero _).symm ?_ ?_ (horder.known htokens)
        (.inl rfl) <;> simp
  | destroy hlisted hearly =>
      exact ⟨tail, { horder with
        fresh := fun hfresh => by cases hfresh
        parsed := (horder.emit rfl rfl).parsed }⟩
  | unlist => exact ⟨tail, { horder with parsed := (horder.emit rfl rfl).parsed }⟩

/-- A disconnected client that was accepted stays disconnected. -/
theorem ClientStep.disconnect_absorbing {allowed : Allowed} {v v' : ClientView Packet}
    {emitted : List (ClientEvent Packet)} (hstep : ClientStep allowed v emitted v')
    (hknown : v.lifetime ≠ .fresh) (hstatus : v.status = .disconnect) :
    v'.status = .disconnect := by
  cases hstep <;> simp_all

/-! ## The server -/

variable {Client W : Type*} [DecidableEq Client] [DecidableEq W] [Fintype W]

/-- A queued process job of the client. -/
def CDJob.isProcess (client : Client) : CDJob Client Packet → Bool
  | .clientProcess other _ => other = client
  | _ => false

/-- A worker that has a process job of the client in hand, from popping it to
its last section. -/
def CDWorker.isProcess (client : Client) : CDWorker Client Packet → Bool
  | .holding job => job.isProcess client
  | .processing other _ | .processed other _ => other = client
  | _ => false

/-- The process jobs of a client that are queued or running. -/
def CDServer.processJobs (self : CDServer Client Packet W) (client : Client) : ℕ :=
  self.jobs.countP (CDJob.isProcess client) +
    (Finset.univ.filter fun worker => (self.workers worker).isProcess client).card

omit [DecidableEq W] in
theorem processJobs_view (self : CDServer Client Packet W) (client : Client) :
    countTokens Token.isProcess (self.view client).tokens = self.processJobs client := by
  -- a job, a worker, the queue and the pool, each counted by its tokens
  have hjob : ∀ job : CDJob Client Packet,
      countTokens Token.isProcess (inHand (job.token client)) = (job.isProcess client).toNat := by
    intro job
    cases job <;> simp only [CDJob.token, CDJob.isProcess] <;> (try split) <;> simp [*]
  have hworker : ∀ worker : CDWorker Client Packet,
      countTokens Token.isProcess (inHand (worker.token client)) =
        (worker.isProcess client).toNat := by
    intro worker
    cases worker <;> simp only [CDWorker.token, CDWorker.isProcess, hjob] <;> (try split) <;>
      simp [*]
  have hqueue : ∀ jobs : List (CDJob Client Packet),
      countTokens Token.isProcess ((jobs.filterMap (CDJob.token client) : List (Token Packet)) :
        Multiset (Token Packet)) =
        jobs.countP (CDJob.isProcess client) := by
    intro jobs
    induction jobs with
    | nil => rfl
    | cons job rest ih =>
        have hhead := hjob job
        rw [List.filterMap_cons, List.countP_cons, ← ih]
        cases htoken : job.token client with
        | none =>
            rw [htoken] at hhead
            cases hprocess : job.isProcess client <;> simp_all
        | some token =>
            rw [htoken] at hhead
            simp only [← Multiset.cons_coe, ← Multiset.singleton_add, countTokens_add]
            cases hprocess : job.isProcess client <;> simp_all [add_comm]
  have hpool : countTokens Token.isProcess (self.held client) =
      (Finset.univ.filter fun worker => (self.workers worker).isProcess client).card := by
    rw [Finset.card_filter]
    refine (map_sum (Multiset.countPAddMonoidHom _) _ _).trans
      (Finset.sum_congr rfl fun worker _ => (hworker _).trans ?_)
    cases (self.workers worker).isProcess client <;> rfl
  rw [ClientView.tokens, countTokens_add]
  exact congrArg₂ _ (hqueue self.jobs) hpool

/-- **Invariant rule for one client whose packets are in order.**  The steps may use the order. -/
theorem run_ordered (allowed : Allowed) (client : Client)
    (I : List (ClientEvent Packet) → ClientView Packet → Prop)
    {protocol : Option (CDProtocol Packet)}
    {guard : CDServer Client Packet W → Action Client W → Prop}
    (hguard : ∀ self action, guard self action → allowed.Permits client self action)
    (hinit : I [] .initial)
    (hstep : ∀ history v emitted v' tail, PacketOrder history v tail → I history v →
      ClientStep allowed v emitted v' → I (history ++ emitted) v')
    {events : List (Event Client Packet)} {state : CDServer Client Packet W}
    (hrun : (system protocol).Run guard events state) :
    (∃ tail, PacketOrder (events.filterMap (Event.about client)) (state.view client) tail) ∧
      I (events.filterMap (Event.about client)) (state.view client) := by
  refine run_invariant allowed client
    (fun history v => (∃ tail, PacketOrder history v tail) ∧ I history v) hguard
    ⟨⟨[], initial_packetOrder⟩, hinit⟩ (fun history v emitted v' hbefore hnext => ?_) hrun
  obtain ⟨⟨tail, horder⟩, hI⟩ := hbefore
  exact ⟨step_packetOrder horder hnext, hstep history v emitted v' tail horder hI hnext⟩

theorem run_packetOrder {protocol : Option (CDProtocol Packet)}
    {guard : CDServer Client Packet W → Action Client W → Prop}
    {events : List (Event Client Packet)} {state : CDServer Client Packet W}
    (hrun : (system protocol).Run guard events state) (client : Client) :
    ∃ tail, PacketOrder (events.filterMap (Event.about client)) (state.view client) tail :=
  (run_ordered .all client (fun _ _ => True) (fun self action _ => permits_all client self action)
    trivial (fun _ _ _ _ _ _ _ _ => trivial) hrun).1

/-- A client that is disconnected in a reachable state is so ever after. -/
theorem disconnect_absorbing {protocol : Option (CDProtocol Packet)}
    {guard : CDServer Client Packet W → Action Client W → Prop}
    {events : List (Event Client Packet)} {state last : CDServer Client Packet W}
    {client : Client} (hrun : (system protocol).Run guard events state)
    (hstatus : (state.client client).status = .disconnect)
    (hleads : (system protocol).Leads state last) :
    (last.client client).status = .disconnect := by
  obtain ⟨tail, horder⟩ := run_packetOrder hrun client
  have hknown : (state.view client).lifetime ≠ .fresh := fun hfresh => by
    have hconnect := (horder.fresh hfresh).1
    exact absurd (hstatus.symm.trans hconnect) (by simp)
  exact (leads_invariant client (fun v => v.lifetime ≠ .fresh ∧ v.status = .disconnect)
    (fun _ _ _ hv hstep =>
      ⟨hstep.lifetime_ne_fresh hv.1, hstep.disconnect_absorbing hv.1 hv.2⟩)
    (run_clientsListed hrun) hleads ⟨hknown, hstatus⟩).2

/-- **Packets stay in order.**  In every run of the server, with any number of
workers: a client has at most one process job queued or running, once
disconnected it stays disconnected, and the packets dispatched to
`Client.process` are a prefix of the packets parsed. -/
theorem packets_stay_in_order (protocol : Option (CDProtocol Packet))
    {events : List (Event Client Packet)} {state : CDServer Client Packet W}
    (hrun : (system protocol).Run (fun _ _ => True) events state) (client : Client) :
    state.processJobs client ≤ 1 ∧
      ((state.client client).status = .disconnect → ∀ last, (system protocol).Leads state last →
        (last.client client).status = .disconnect) ∧
      processedPackets (events.filterMap (Event.about client)) <+:
        parsedPackets (events.filterMap (Event.about client)) := by
  obtain ⟨tail, horder⟩ := run_packetOrder hrun client
  refine ⟨?_, fun hstatus last hleads => disconnect_absorbing hrun hstatus hleads, tail,
    horder.parsed.symm⟩
  rw [← processJobs_view]
  exact horder.allows.processes_le

/-- A protocol whose packets are single bytes. -/
def byteProtocol : CDProtocol Byte where
  parsable := fun
    | [] => some .again
    | _ => some .parsable
  parse := fun
    | [] => (none, [])
    | byte :: rest => (some byte, rest)

/-- Two packets of a client served by two workers, the second one parsed at the
tail of the first one's job. -/
def twoPackets : List (Action ℕ (Fin 2)) :=
  [.accept 0, .work 0, .work 0, .work 0, .work 0, .receive 0 [7, 8], .work 0, .work 0,
    .work 1, .work 1, .work 1, .work 1, .work 1, .work 1, .work 0, .work 0, .work 0]

theorem packets_stay_in_order_two_packets :
    ∃ state events, (system (some byteProtocol)).exec twoPackets createServer =
        some (state, events) ∧
      processedPackets (events.filterMap (Event.about 0)) = [7, 8] ∧
      state.processJobs 0 ≤ 1 ∧
      ((state.client 0).status = .disconnect → ∀ last,
        (system (some byteProtocol)).Leads state last → (last.client 0).status = .disconnect) ∧
      processedPackets (events.filterMap (Event.about 0)) <+:
        parsedPackets (events.filterMap (Event.about 0)) := by
  have hpackets : ((system (some byteProtocol)).exec twoPackets createServer).map
      (fun result => processedPackets (result.2.filterMap (Event.about 0))) = some [7, 8] := by
    decide
  obtain ⟨⟨state, events⟩, hexec, hprocessed⟩ := Option.map_eq_some_iff.mp hpackets
  exact ⟨state, events, hexec, hprocessed, packets_stay_in_order (some byteProtocol)
    (System.Run.exec .start (System.execGuard_true _ _) hexec) 0⟩

end Craftd.Server
