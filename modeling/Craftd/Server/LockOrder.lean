import Craftd.Library.LockPrograms
import Craftd.Server.Model

/-!
# The two locks of a client

What `CD_ReadFromClient`, `cd_ReadCallback`, `CD_ServerKick` and `SV_WorldBroadcastBuffer`
take and give back of `client->lock.status` and of the lock of the client's bufferevent.
The second one is hidden in libevent: an `evbuffer` of a bufferevent, `bufferevent_flush`
and `bufferevent_setwatermark` take it for the time of the call, and libevent holds it
while it calls `cd_ReadCallback`.  It is recursive; a `pthread_rwlock_wrlock` of a thread
that has the lock to write is refused (`EDEADLK`), and nobody looks at its answer.

A read of a client (`Call.reads`) takes the bufferevent first and the status second.  A kick
and a broadcast that send the client something (`Call.sends`) take the status first and the
bufferevent second.  So a broadcast that has the status and a read callback that has the
bufferevent wait for each other for ever (`lock_order_deadlock`), and a step leads there
exactly where the one takes its first lock while the other one has its own and has not come to
the second (`Crosses`, `no_lock_order_deadlock`).
-/

namespace Craftd.ClientLocks

open LockPrograms StepSystem
open Server (CDClientStatus)

variable {Client : Type*}

/-! ## The calls -/

/-- `client->lock.status`, and the lock of `client->buffers->raw`. -/
inductive ClientLock (Client : Type*)
  | status (client : Client)
  | bufferevent (client : Client)
  deriving DecidableEq, Repr

/-- The lock of a bufferevent may be taken again by its holder. -/
def ClientLock.recursive : ClientLock Client → Bool
  | .status _ => false
  | .bufferevent _ => true

/-- Whose lock it is. -/
def ClientLock.client : ClientLock Client → Client
  | .status client | .bufferevent client => client

/-- The status of each client. -/
abbrev Statuses (Client : Type*) := Client → CDClientStatus

/-- What a thread still does with the locks of clients. -/
abbrev Code (Client : Type*) := Program (ClientLock Client) (Statuses Client)

/-- A call of libevent on the bufferevent of a client or on one of its buffers. -/
def buffereventCall (client : Client) (next : Code Client) : Code Client :=
  .take (.bufferevent client) .write fun _ => .give (.bufferevent client) id next

/-- Several such calls, one after the other. -/
def buffereventCalls (client : Client) : ℕ → Code Client → Code Client
  | 0, next => next
  | calls + 1, next => buffereventCall client (buffereventCalls client calls next)

/-- `CD_ClientSendBuffer`: the content is added to the output, and `CD_BuffersFlush`. -/
def clientSendBuffer (client : Client) (next : Code Client) : Code Client :=
  buffereventCall client (buffereventCall client next)

/-- The handlers of `Client.kick`, which send this many buffers to the client
(`cdsurvival_ClientKick` sends one). -/
def clientKick (client : Client) : ℕ → Code Client → Code Client
  | 0, next => next
  | sent + 1, next => clientSendBuffer client (clientKick client sent next)

/-- What `cd_ReadCallback` finds in the input of a client. -/
inductive Found
  /-- the server has no protocol -/
  | noProtocol
  /-- a packet -/
  | packet
  /-- what is parsable and yet gives no packet -/
  | unparsed
  /-- not yet a whole packet -/
  | incomplete
  /-- what sets `errno` to `EILSEQ`; the handlers of the kick send this many buffers -/
  | badPacket (sent : ℕ)
  deriving DecidableEq, Repr

section Calls

variable [DecidableEq Client]

/-- `CD_ServerKick`. -/
def serverKick (client : Client) (sent : ℕ) (next : Code Client) : Code Client :=
  .take (.status client) .write fun statuses =>
    if statuses client = .disconnect then .give (.status client) id next
    else
      clientKick client sent
        (.give (.status client) (fun statuses => Function.update statuses client .disconnect)
          next)

/-- `cd_ReadCallback`, whose `parsable` and `parse` make this many calls of libevent. -/
def readCallback (client : Client) (calls : ℕ) (found : Found) (next : Code Client) :
    Code Client :=
  if found = .noProtocol then next
  else
    .take (.status client) .write fun statuses =>
      -- the message to the log asks for the length of the input
      buffereventCall client <|
        if statuses client = .idle then
          buffereventCalls client calls <|
            match found with
            | .packet =>
                buffereventCall client
                  (.give (.status client)
                    (fun statuses => Function.update statuses client .process) next)
            | .badPacket sent => serverKick client sent (.give (.status client) id next)
            | _ => .give (.status client) id next
        else .give (.status client) id next

/-- A call with the lock of the bufferevent around it: what `CD_ReadFromClient` does by
hand and libevent does itself. -/
def withBufferevent (client : Client) (body : Code Client → Code Client) : Code Client :=
  .take (.bufferevent client) .write fun _ => body (.give (.bufferevent client) id .done)

/-- `CD_ReadFromClient`. -/
def readFromClient (client : Client) (calls : ℕ) (found : Found) : Code Client :=
  withBufferevent client (readCallback client calls found)

/-- `SV_WorldBroadcastBuffer`, over the clients of the players. -/
def worldBroadcastBuffer : List Client → Code Client
  | [] => .done
  | client :: players =>
      .take (.status client) .read fun statuses =>
        if statuses client ≠ .disconnect then
          clientSendBuffer client
            (.give (.status client) id (worldBroadcastBuffer players))
        else .give (.status client) id (worldBroadcastBuffer players)

/-- A call of a thread. -/
inductive Call (Client : Type*)
  | readFromClient (client : Client) (calls : ℕ) (found : Found)
  | readCallback (client : Client) (calls : ℕ) (found : Found)
  | serverKick (client : Client) (sent : ℕ)
  | worldBroadcastBuffer (players : List Client)

/-- What the calls do with the locks. -/
def rules : Rules (ClientLock Client) (Statuses Client) (Call Client) where
  recursive := ClientLock.recursive
  code
    | .readFromClient client calls found => readFromClient client calls found
    | .readCallback client calls found =>
        withBufferevent client (readCallback client calls found)
    | .serverKick client sent => serverKick client sent .done
    | .worldBroadcastBuffer players => worldBroadcastBuffer players

end Calls

/-- The calls that take the bufferevent of the client and then its status. -/
def Call.reads [DecidableEq Client] (client : Client) : Call Client → Bool
  | .readFromClient other _ found | .readCallback other _ found =>
      other = client && found != .noProtocol
  | _ => false

/-- The calls that take the status of the client and send it something under it. -/
def Call.sends [DecidableEq Client] (client : Client) : Call Client → Bool
  | .serverKick other sent => other = client && sent != 0
  | .worldBroadcastBuffer players => client ∈ players
  | _ => false

/-- One thread has a lock of the client and waits for the other lock, which another thread
has that waits for the first one. -/
def Deadlocked {Thread : Type*}
    (state : State Thread (ClientLock Client) (Statuses Client) (Call Client))
    (client : Client) : Prop :=
  Opposed state (.status client) (.bufferevent client)

/-! ## The points of the calls -/

section Points

variable [DecidableEq Client]

/-- What a thread holds that holds nothing but the locks of this client. -/
def holds (client : Client) (status bufferevent : List Mode) : ClientLock Client → List Mode
  | .status other => if other = client then status else []
  | .bufferevent other => if other = client then bufferevent else []

section Holds

variable (client : Client) (status bufferevent modes : List Mode)

@[simp] theorem holds_status : holds client status bufferevent (.status client) = status :=
  if_pos rfl

@[simp] theorem holds_bufferevent :
    holds client status bufferevent (.bufferevent client) = bufferevent :=
  if_pos rfl

@[simp] theorem holds_nil : holds client [] [] = fun _ => [] := by
  funext lock
  cases lock <;> exact ite_self _

@[simp] theorem update_status :
    Function.update (holds client status bufferevent) (.status client) modes =
      holds client modes bufferevent := by
  funext lock
  cases lock with
  | status other =>
      by_cases hother : other = client
      · subst hother
        simp
      · simp [holds, hother]
  | bufferevent other => rfl

@[simp] theorem update_bufferevent :
    Function.update (holds client status bufferevent) (.bufferevent client) modes =
      holds client status modes := by
  funext lock
  cases lock with
  | status other => rfl
  | bufferevent other =>
      by_cases hother : other = client
      · subst hother
        simp
      · simp [holds, hother]

end Holds

/-- Where a thread is in one of the calls, with what it holds there. -/
inductive Point (call : Call Client) (own : ClientLock Client → List Mode) : Code Client → Prop
  /-- at the end -/
  | ended (hown : own = fun _ => []) : Point call own .done
  /-- a lock is given back; what is next is no lock that could be wanted crosswise -/
  | gives {lock : ClientLock Client} {write : Statuses Client → Statuses Client}
      {next : Code Client}
      (hbufferevent : ∀ client mode, next.wants = some (.bufferevent client, mode) →
        own (.bufferevent client) ≠ [])
      (hstatus : ∀ client mode, call.reads client = true →
        next.wants = some (.status client, mode) → .write ∈ own (.status client)) :
      Point call own (.give lock write next)
  /-- the first step of a read -/
  | enters {client : Client} {next : Statuses Client → Code Client}
      (hcall : ∀ other, call.sends other = false)
      (hstatus : own (.status client) = []) (hbufferevent : own (.bufferevent client) = [])
      (hreads : call.reads client = true → ∀ shared,
        (next shared).wants = some (.status client, .write))
      (hnext : ∀ shared other mode, (next shared).wants = some (.status other, mode) →
        other = client) :
      Point call own (.take (.bufferevent client) .write next)
  /-- a read comes to the status -/
  | comes {client : Client} {next : Statuses Client → Code Client}
      (hcall : call.reads client = true) (hstatus : own (.status client) = [])
      (hbufferevent : .write ∈ own (.bufferevent client))
      (hnext : ∀ shared other mode, (next shared).wants ≠ some (.status other, mode)) :
      Point call own (.take (.status client) .write next)
  /-- a read kicks the client, while it has the status -/
  | kicks {client : Client} {next : Statuses Client → Code Client}
      (hcall : call.reads client = true) (hstatus : .write ∈ own (.status client))
      (hbufferevent : .write ∈ own (.bufferevent client))
      (hnext : ∀ shared other mode, (next shared).wants ≠ some (.status other, mode)) :
      Point call own (.take (.status client) .write next)
  /-- a read calls libevent -/
  | within {client : Client} {next : Statuses Client → Code Client}
      (hcall : call.reads client = true) (hbufferevent : .write ∈ own (.bufferevent client))
      (hnext : ∀ shared, (next shared).wants = none) :
      Point call own (.take (.bufferevent client) .write next)
  /-- a kick or a broadcast comes to a client -/
  | turns {client : Client} {mode : Mode} {next : Statuses Client → Code Client}
      (hcall : ∀ other, call.reads other = false) (hbufferevent : own (.bufferevent client) = [])
      (hnext : ∀ shared wanted, (next shared).wants = some wanted ↔
        wanted = (.bufferevent client, .write) ∧ call.sends client = true ∧
          shared client ≠ .disconnect) :
      Point call own (.take (.status client) mode next)
  /-- a kick or a broadcast sends the client something -/
  | sends {client : Client} {next : Statuses Client → Code Client}
      (hcall : ∀ other, call.reads other = false) (hsends : call.sends client = true)
      (hstatus : own (.status client) ≠ []) (hbufferevent : own (.bufferevent client) = [])
      (hnext : ∀ shared, (next shared).wants = none) :
      Point call own (.take (.bufferevent client) .write next)

/-- What is true at every point of the call from here on. -/
abbrev FromHere (call : Call Client) (own : ClientLock Client → List Mode) (code : Code Client) :
    Prop :=
  Always ClientLock.recursive (Point call) own code

/-- The next lock, if the next step takes one, is a lock of the client. -/
def OnlyOf (client : Client) (code : Code Client) : Prop :=
  (∀ other mode, code.wants = some (.status other, mode) → other = client) ∧
    ∀ other mode, code.wants = some (.bufferevent other, mode) → other = client

variable {call : Call Client} {client : Client} {status bufferevent : List Mode}
  {next : Code Client} {write : Statuses Client → Statuses Client}

/-- A call reads a client or sends one something, and not both. -/
theorem Call.sends_of_reads {other : Client} (hreads : call.reads client = true) :
    call.sends other = false := by
  cases call with
  | readFromClient | readCallback => rfl
  | serverKick | worldBroadcastBuffer => cases hreads

omit [DecidableEq Client] in
theorem onlyOf_of_none (hnone : next.wants = none) : OnlyOf client next := by
  simp [OnlyOf, hnone]

omit [DecidableEq Client] in
theorem onlyOf_buffereventCalls (calls : ℕ) (honly : OnlyOf client next) :
    OnlyOf client (buffereventCalls client calls next) := by
  cases calls with
  | zero => exact honly
  | succ calls => simp [OnlyOf, buffereventCalls, buffereventCall, eq_comm]

omit [DecidableEq Client] in
/-- What the handlers of a kick send is so many calls of libevent. -/
theorem clientKick_eq (sent : ℕ) :
    clientKick client sent next = buffereventCalls client (2 * sent) next := by
  induction sent with
  | zero => rfl
  | succ sent ih => rw [clientKick, ih]; rfl

/-! ### A read -/

/-- Calls of libevent while a read has both locks. -/
theorem reads_buffereventCalls (hreads : call.reads client = true) (calls : ℕ)
    (honly : OnlyOf client next)
    (hnext : FromHere call (holds client [.write] [.write]) next) :
    FromHere call (holds client [.write] [.write]) (buffereventCalls client calls next) := by
  induction calls with
  | zero => exact hnext
  | succ calls ih =>
      have honly' := onlyOf_buffereventCalls calls honly
      refine ⟨.within hreads (by simp) fun _ => rfl, fun modes hmodes shared => ?_⟩
      cases hmodes
      refine ⟨.gives (fun other mode hwants => ?_) (fun other mode _ hwants => ?_), ?_⟩
      · simp [honly'.2 other mode hwants]
      · simp [honly'.1 other mode hwants]
      · simpa using ih

theorem reads_gives {lock : ClientLock Client} {own : ClientLock Client → List Mode}
    (hnone : next.wants = none)
    (hnext : FromHere call (Function.update own lock (own lock).tail) next) :
    FromHere call own (.give lock write next) :=
  ⟨.gives (by simp [hnone]) (by simp [hnone]), hnext⟩

/-- The end of a read, with the status or after a kick has given it back. -/
theorem reads_end (hstatus : status.tail = []) :
    FromHere call (holds client status [.write])
      (.give (.status client) write (.give (.bufferevent client) id .done)) := by
  refine reads_gives rfl (reads_gives rfl (.ended ?_))
  simp [hstatus]

/-- A read that finds a bad packet kicks the client; the status is refused it, and is given
back all the same. -/
theorem reads_serverKick (hreads : call.reads client = true) (sent : ℕ) :
    FromHere call (holds client [.write] [.write])
      (serverKick client sent
        (.give (.status client) id (.give (.bufferevent client) id .done))) := by
  have hend : ∀ write : Statuses Client → Statuses Client,
      FromHere call (holds client [.write] [.write])
        (.give (.status client) write
          (.give (.status client) id (.give (.bufferevent client) id .done))) := by
    intro write
    refine reads_gives rfl ?_
    have hlast : FromHere call (holds client [] [.write])
        (.give (.status client) id (.give (.bufferevent client) id .done)) := reads_end rfl
    simpa using hlast
  refine ⟨.kicks hreads (by simp) (by simp) fun shared other mode hwants => ?_,
    fun modes hmodes shared => ?_⟩
  · rw [clientKick_eq] at hwants
    split_ifs at hwants with hgone
    · cases hwants
    · cases sent with
      | zero => cases hwants
      | succ sent => cases hwants
  · obtain rfl : modes = [.write] := by simpa [ClientLock.recursive] using hmodes.symm
    rw [update_status]
    simp only [clientKick_eq]
    split_ifs
    · exact hend id
    · exact reads_buffereventCalls hreads _ (onlyOf_of_none rfl) (hend _)

/-- A read that comes to the status and does `checked` under it, if the client is idle. -/
theorem reads_locked (hreads : call.reads client = true) (calls : ℕ) {checked : Code Client}
    (honly : OnlyOf client checked)
    (hchecked : FromHere call (holds client [.write] [.write]) checked) :
    FromHere call (holds client [] [.write])
      (.take (.status client) .write fun statuses =>
        buffereventCall client <|
          if statuses client = .idle then buffereventCalls client calls checked
          else .give (.status client) id (.give (.bufferevent client) id .done)) := by
  refine ⟨.comes hreads (by simp) (by simp) ?_, fun modes hmodes shared => ?_⟩
  · intro shared other mode hwants
    cases hwants
  · have hmodes' : modes = [.write] := by
      simpa [takeAgain, ClientLock.recursive] using hmodes.symm
    rw [hmodes', update_status]
    beta_reduce
    by_cases hidle : shared client = .idle
    · rw [if_pos hidle]
      exact reads_buffereventCalls hreads 1 (onlyOf_buffereventCalls calls honly)
        (reads_buffereventCalls hreads calls honly hchecked)
    · rw [if_neg hidle]
      exact reads_buffereventCalls hreads 1 (onlyOf_of_none rfl) (reads_end rfl)

/-- **`cd_ReadCallback`**, while its thread has the bufferevent. -/
theorem reads_readCallback {calls : ℕ} {found : Found}
    (hreads : found ≠ .noProtocol → call.reads client = true) :
    FromHere call (holds client [] [.write])
      (readCallback client calls found (.give (.bufferevent client) id .done)) := by
  unfold readCallback
  split_ifs with hprotocol
  · refine reads_gives rfl (.ended ?_)
    simp
  have hcall := hreads hprotocol
  cases found with
  | noProtocol => exact absurd rfl hprotocol
  | packet =>
      exact reads_locked hcall calls (onlyOf_buffereventCalls 1 (onlyOf_of_none rfl))
        (reads_buffereventCalls hcall 1 (onlyOf_of_none rfl) (reads_end rfl))
  | badPacket sent =>
      refine reads_locked hcall calls ?_ (reads_serverKick hcall sent)
      simp [OnlyOf, serverKick, eq_comm]
  | unparsed | incomplete =>
      exact reads_locked hcall calls (onlyOf_of_none rfl) (reads_end rfl)

/-- **A read** gets on its way from the bufferevent to the status where it takes the
bufferevent. -/
theorem reads_withBufferevent {calls : ℕ} {found : Found}
    (hcall : ∀ other, call.reads other = (client = other && found != .noProtocol))
    (hsends : ∀ other, call.sends other = false) :
    FromHere call (fun _ => []) (withBufferevent client (readCallback client calls found)) := by
  refine ⟨.enters hsends rfl rfl ?_ ?_, fun modes hmodes shared => ?_⟩
  · intro hreads shared
    have hprotocol : found ≠ .noProtocol := by simpa [hcall] using hreads
    unfold readCallback
    rw [if_neg hprotocol]
    rfl
  · intro shared other mode hwants
    unfold readCallback at hwants
    split_ifs at hwants
    · cases hwants
    · cases hwants
      rfl
  · obtain rfl : modes = [.write] := by simpa using hmodes.symm
    rw [← holds_nil client, update_bufferevent]
    refine reads_readCallback fun hprotocol => ?_
    simp [hcall, hprotocol]

/-! ### A kick and a broadcast -/

/-- What is sent to the client under its status. -/
theorem sends_buffereventCalls (hcall : ∀ other, call.reads other = false)
    (hsends : call.sends client = true) (hstatus : status ≠ []) (calls : ℕ)
    (honly : OnlyOf client next) (hnext : FromHere call (holds client status []) next) :
    FromHere call (holds client status []) (buffereventCalls client calls next) := by
  induction calls with
  | zero => exact hnext
  | succ calls ih =>
      have honly' := onlyOf_buffereventCalls calls honly
      refine ⟨.sends hcall hsends (by simpa using hstatus) (by simp) fun _ => rfl,
        fun modes hmodes shared => ?_⟩
      cases hmodes
      refine ⟨.gives (fun other mode hwants => ?_) (fun other mode hreads _ => ?_), ?_⟩
      · simp [honly'.2 other mode hwants]
      · simp [hcall] at hreads
      · simpa using ih

/-- **`CD_ServerKick`** gets on its way from the status to the bufferevent where it takes the
status of a client that has not left and that its handlers send something. -/
theorem sends_serverKick {sent : ℕ} (hcall : ∀ other, call.reads other = false)
    (hsends : call.sends client = true ↔ sent ≠ 0) :
    FromHere call (fun _ => []) (serverKick client sent .done) := by
  rw [← holds_nil client]
  have hend : ∀ write : Statuses Client → Statuses Client,
      FromHere call (holds client [.write] []) (.give (.status client) write .done) := by
    intro write
    refine ⟨.gives (by simp) (by simp), .ended ?_⟩
    simp
  refine ⟨.turns hcall (by simp) fun shared wanted => ?_, fun modes hmodes shared => ?_⟩
  · rw [hsends, clientKick_eq]
    split_ifs with hgone
    · simp [hgone]
    · cases sent with
      | zero => simp [buffereventCalls]
      | succ sent =>
          have hfirst : (buffereventCalls client (2 * (sent + 1)) (.give (.status client)
              (fun statuses => Function.update statuses client .disconnect) .done)).wants =
                some (.bufferevent client, .write) := rfl
          simp [hfirst, hgone, eq_comm]
  · obtain rfl : modes = [.write] := by simpa using hmodes.symm
    rw [update_status]
    simp only [clientKick_eq]
    split_ifs
    · exact hend id
    · cases sent with
      | zero => exact hend _
      | succ sent =>
          exact sends_buffereventCalls hcall (hsends.mpr (Nat.succ_ne_zero sent)) (by simp) _
            (onlyOf_of_none rfl) (hend _)

/-- **`SV_WorldBroadcastBuffer`** gets on its way from the status to the bufferevent where it
takes the status of a client that has not left. -/
theorem sends_worldBroadcastBuffer {players : List Client}
    (hcall : ∀ other, call.reads other = false)
    (hsends : ∀ player ∈ players, call.sends player = true) :
    FromHere call (fun _ => []) (worldBroadcastBuffer players) := by
  induction players with
  | nil => exact .ended rfl
  | cons player players ih =>
      have hrest := ih fun other hother => hsends other (.tail _ hother)
      have hplayer := hsends player (.head _)
      rw [← holds_nil player] at hrest ⊢
      -- the next lock after this player is the status of another one
      have hnobufferevent : ∀ other mode,
          (worldBroadcastBuffer players).wants ≠ some (.bufferevent other, mode) := by
        intro other mode hwants
        cases players <;> cases hwants
      have hend : FromHere call (holds player [.read] [])
          (.give (.status player) id (worldBroadcastBuffer players)) := by
        refine ⟨.gives (fun other mode hwants => absurd hwants (hnobufferevent other mode))
          (fun other mode hreads => ?_), ?_⟩
        · simp [hcall] at hreads
        · simpa using hrest
      refine ⟨.turns hcall (by simp) fun shared wanted => ?_, fun modes hmodes shared => ?_⟩
      · split_ifs with hhere
        · simp [clientSendBuffer, buffereventCall, hplayer, hhere, eq_comm]
        · simp [hhere]
      · obtain rfl : modes = [.read] := by simpa using hmodes.symm
        rw [update_status]
        beta_reduce
        split_ifs
        · exact sends_buffereventCalls hcall hplayer (by simp) 2 (onlyOf_of_none rfl) hend
        · exact hend

/-- **Every call** keeps to its points. -/
theorem fromHere_call (call : Call Client) : FromHere call (fun _ => []) (rules.code call) := by
  cases call with
  | readFromClient client calls found | readCallback client calls found =>
      exact reads_withBufferevent (fun _ => rfl) fun _ => rfl
  | serverKick client sent =>
      refine sends_serverKick (fun _ => rfl) ?_
      simp [Call.sends]
  | worldBroadcastBuffer players =>
      refine sends_worldBroadcastBuffer (fun _ => rfl) fun player hplayer => ?_
      simpa [Call.sends] using hplayer

/-! ### One step -/

section Step

variable {own : ClientLock Client → List Mode} {code : Code Client} {mode : Mode}
  {shared : Statuses Client}
  {result : Statuses Client × (ClientLock Client → List Mode) × Code Client}

theorem Point.own_of_over (hpoint : Point call own .done) : own = fun _ => [] := by
  cases hpoint with
  | ended hown => exact hown

/-- Whoever has the status and comes to the bufferevent sends the client something, or has the
bufferevent already. -/
theorem Point.at_bufferevent (hpoint : Point call own code)
    (hstatus : own (.status client) ≠ []) (hfree : .write ∉ own (.bufferevent client))
    (hwants : code.wants = some (.bufferevent client, mode)) :
    mode = .write ∧ call.sends client = true := by
  cases hpoint with
  | ended | gives | comes | kicks | turns => cases hwants
  | enters hcall hnone =>
      cases hwants
      exact absurd hnone hstatus
  | within hcall hbufferevent =>
      cases hwants
      exact absurd hbufferevent hfree
  | sends hcall hsends =>
      cases hwants
      exact ⟨rfl, hsends⟩

/-- Whoever has the bufferevent and comes to the status reads the client, or has the status
already. -/
theorem Point.at_status (hpoint : Point call own code)
    (hbufferevent : own (.bufferevent client) ≠ []) (hfree : .write ∉ own (.status client))
    (hwants : code.wants = some (.status client, mode)) :
    mode = .write ∧ call.reads client = true := by
  cases hpoint with
  | ended | gives | enters | within | sends => cases hwants
  | comes hcall =>
      cases hwants
      exact ⟨rfl, hcall⟩
  | kicks hcall hstatus =>
      cases hwants
      exact absurd hstatus hfree
  | turns hcall hnone =>
      cases hwants
      exact absurd hnone hbufferevent

/-- A read that comes to the status has the bufferevent to write. -/
theorem Point.write_of_reads (hpoint : Point call own code) (hreads : call.reads client = true)
    (hwants : code.wants = some (.status client, mode)) :
    .write ∈ own (.bufferevent client) := by
  cases hpoint with
  | ended | gives | enters | within | sends => cases hwants
  | comes hcall hstatus hbufferevent | kicks hcall hstatus hbufferevent =>
      cases hwants
      exact hbufferevent
  | turns hcall => simp [hcall] at hreads

/-- **The step that gets a kick or a broadcast on its way** takes the status. -/
theorem Point.turns_of_step (hpoint : Point call own code) (hsends : call.sends client = true)
    (hfree : own (.bufferevent client) = [])
    (hstep : threadStep ClientLock.recursive shared own code = some result)
    (hnext : result.2.2.wants = some (.bufferevent client, mode)) :
    code.wants.map Prod.fst = some (.status client) ∧ shared client ≠ .disconnect := by
  cases hpoint with
  | ended => cases hstep
  | gives hbufferevent =>
      cases hstep
      exact absurd hfree (hbufferevent client mode hnext)
  | enters hcall => simp [hcall] at hsends
  | comes hcall | kicks hcall | within hcall => simp [Call.sends_of_reads hcall] at hsends
  | turns hcall hnone hwants =>
      obtain ⟨modes, -, rfl⟩ := threadStep_take hstep
      obtain ⟨hwanted, -, hhere⟩ := (hwants _ _).mp hnext
      cases hwanted
      exact ⟨rfl, hhere⟩
  | sends hcall hsend hstatus hnone hwants =>
      obtain ⟨modes, -, rfl⟩ := threadStep_take hstep
      simp [hwants] at hnext

/-- **The step that gets a read on its way** takes the bufferevent. -/
theorem Point.enters_of_step (hpoint : Point call own code) (hreads : call.reads client = true)
    (hfree : .write ∉ own (.status client))
    (hstep : threadStep ClientLock.recursive shared own code = some result)
    (hnext : result.2.2.wants = some (.status client, mode)) :
    code.wants.map Prod.fst = some (.bufferevent client) ∧ own (.bufferevent client) = [] := by
  cases hpoint with
  | ended => cases hstep
  | gives hbufferevent hstatus =>
      cases hstep
      exact absurd (hstatus client mode hreads hnext) hfree
  | enters hcall hstatus hbufferevent hread hwants =>
      obtain ⟨modes, -, rfl⟩ := threadStep_take hstep
      obtain rfl := hwants _ _ _ hnext
      exact ⟨rfl, hbufferevent⟩
  | comes hcall hstatus hbufferevent hwants | kicks hcall hstatus hbufferevent hwants =>
      obtain ⟨modes, -, rfl⟩ := threadStep_take hstep
      exact absurd hnext (hwants _ _ _)
  | within hcall hbufferevent hwants =>
      obtain ⟨modes, -, rfl⟩ := threadStep_take hstep
      simp [hwants] at hnext
  | turns hcall => simp [hcall] at hreads
  | sends hcall => simp [hcall] at hreads

/-- A kick or a broadcast that takes the status of a client it sends something has the status
and comes to the bufferevent. -/
theorem Point.step_turns (hpoint : Point call own code) (hsends : call.sends client = true)
    (hwants : code.wants.map Prod.fst = some (.status client))
    (hhere : shared client ≠ .disconnect)
    (hstep : threadStep ClientLock.recursive shared own code = some result) :
    result.2.1 (.status client) ≠ [] ∧
      result.2.2.wants = some (.bufferevent client, .write) := by
  cases hpoint with
  | ended | gives | enters | within | sends => cases hwants
  | comes hcall | kicks hcall => simp [Call.sends_of_reads hcall] at hsends
  | turns hcall hnone hnext =>
      cases hwants
      obtain ⟨modes, hmodes, rfl⟩ := threadStep_take hstep
      refine ⟨?_, (hnext _ _).mpr ⟨rfl, hsends, hhere⟩⟩
      simpa using takeAgain_ne_nil hmodes

/-- A read that takes the bufferevent has it and comes to the status. -/
theorem Point.step_enters (hpoint : Point call own code) (hreads : call.reads client = true)
    (hwants : code.wants.map Prod.fst = some (.bufferevent client))
    (hfree : own (.bufferevent client) = [])
    (hstep : threadStep ClientLock.recursive shared own code = some result) :
    result.2.1 (.bufferevent client) ≠ [] ∧
      result.2.2.wants = some (.status client, .write) := by
  cases hpoint with
  | ended | gives | comes | kicks | turns => cases hwants
  | enters hcall hstatus hbufferevent hread =>
      cases hwants
      obtain ⟨modes, hmodes, rfl⟩ := threadStep_take hstep
      refine ⟨?_, hread hreads _⟩
      simpa using takeAgain_ne_nil hmodes
  | within hcall hbufferevent =>
      cases hwants
      simp [hfree] at hbufferevent
  | sends hcall => simp [hcall] at hreads

end Step

end Points

/-! ## Runs -/

section Runs

variable {Thread : Type*} [DecidableEq Client] [Fintype Thread] [DecidableEq Thread]

/-- In a kick or a broadcast the thread has the status of the client, and its next step is to
send the client something. -/
def AtBufferevent (state : State Thread (ClientLock Client) (Statuses Client) (Call Client))
    (thread : Thread) (client : Client) : Prop :=
  (state.call thread).any (Call.sends client) = true ∧
    state.owns thread (.status client) ≠ [] ∧
    (state.code thread).wants = some (.bufferevent client, .write)

/-- In a read the thread has the bufferevent of the client, and its next step is to take the
status. -/
def AtStatus (state : State Thread (ClientLock Client) (Statuses Client) (Call Client))
    (thread : Thread) (client : Client) : Prop :=
  (state.call thread).any (Call.reads client) = true ∧
    state.owns thread (.bufferevent client) ≠ [] ∧
    (state.code thread).wants = some (.status client, .write)

/-- The step takes the status of the client in a kick or a broadcast that will send it
something, while another thread has the bufferevent in a read and comes to the status; or it
takes the bufferevent in a read, while another thread has the status in a kick or a broadcast
and comes to send. -/
def Crosses (state : State Thread (ClientLock Client) (Statuses Client) (Call Client))
    (client : Client) : Action Thread (Call Client) → Prop
  | .start _ _ => False
  | .run thread => ∃ other, other ≠ thread ∧
      ((state.call thread).any (Call.sends client) = true ∧
          (state.code thread).wants.map Prod.fst = some (.status client) ∧
          state.shared client ≠ .disconnect ∧ AtStatus state other client ∨
        (state.call thread).any (Call.reads client) = true ∧
          (state.code thread).wants.map Prod.fst = some (.bufferevent client) ∧
          state.owns thread (.bufferevent client) = [] ∧ AtBufferevent state other client)

instance (state : State Thread (ClientLock Client) (Statuses Client) (Call Client))
    (thread : Thread) (client : Client) : Decidable (AtBufferevent state thread client) :=
  inferInstanceAs (Decidable (_ ∧ _ ∧ _))

instance (state : State Thread (ClientLock Client) (Statuses Client) (Call Client))
    (thread : Thread) (client : Client) : Decidable (AtStatus state thread client) :=
  inferInstanceAs (Decidable (_ ∧ _ ∧ _))

instance (state : State Thread (ClientLock Client) (Statuses Client) (Call Client))
    (client : Client) (action : Action Thread (Call Client)) :
    Decidable (Crosses state client action) :=
  match action with
  | .start _ _ => isFalse not_false
  | .run _ => inferInstanceAs (Decidable (∃ _, _ ∧ (_ ∨ _)))

variable {statuses : Statuses Client} {events emitted : List Empty} {client : Client}
  {guard : State Thread (ClientLock Client) (Statuses Client) (Call Client) →
    Action Thread (Call Client) → Prop}
  {state next : State Thread (ClientLock Client) (Statuses Client) (Call Client)}
  {action : Action Thread (Call Client)}

omit [Fintype Thread] [DecidableEq Thread] in
theorem Crosses.wants (hcrosses : Crosses state client action) :
    ∃ wanted, (state.code action.thread).wants = some wanted ∧ wanted.1.client = client := by
  cases action with
  | start => exact hcrosses.elim
  | run thread =>
      obtain ⟨other, -, ⟨-, hwants, -⟩ | ⟨-, hwants, -⟩⟩ := hcrosses <;>
        · obtain ⟨wanted, hwanted, hlock⟩ := Option.map_eq_some_iff.mp hwants
          exact ⟨wanted, hwanted, by rw [hlock]; rfl⟩

omit [Fintype Thread] in
theorem at_setThread_of_ne {thread moved : Thread} (hne : thread ≠ moved)
    (result : Statuses Client × (ClientLock Client → List Mode) × Code Client) :
    (AtBufferevent (state.setThread moved result) thread client ↔
      AtBufferevent state thread client) ∧
    (AtStatus (state.setThread moved result) thread client ↔ AtStatus state thread client) := by
  unfold AtBufferevent AtStatus
  rw [call_setThread, owns_setThread_of_ne hne, code_setThread_of_ne hne]
  exact ⟨Iff.rfl, Iff.rfl⟩

/-- A thread that wants something or has something is at a point of the call it is in. -/
theorem point_of_run (hrun : (system rules statuses).Run guard events state) {thread : Thread}
    (hbusy : state.owns thread = (fun _ => []) → state.code thread ≠ .done) :
    ∃ call, state.call thread = some call ∧
      Point call (state.owns thread) (state.code thread) := by
  cases run_follows fromHere_call (fun _ _ => Point.own_of_over) hrun thread with
  | idle hown hcode => exact absurd hcode (hbusy hown)
  | within call hcall halways => exact ⟨call, hcall, halways.here⟩

theorem point_of_wants (hrun : (system rules statuses).Run guard events state) {thread : Thread}
    {wanted : ClientLock Client × Mode} (hwants : (state.code thread).wants = some wanted) :
    ∃ call, state.call thread = some call ∧
      Point call (state.owns thread) (state.code thread) := by
  refine point_of_run hrun fun _ hdone => ?_
  simp [hdone] at hwants

theorem point_of_step (hrun : (system rules statuses).Run guard events state) {thread : Thread}
    {result : Statuses Client × (ClientLock Client → List Mode) × Code Client}
    (hstep : threadStep ClientLock.recursive state.shared (state.owns thread)
      (state.code thread) = some result) :
    ∃ call, state.call thread = some call ∧
      Point call (state.owns thread) (state.code thread) := by
  refine point_of_run hrun fun _ hdone => ?_
  rw [hdone] at hstep
  cases hstep

/-- **What the threads of a deadlock are at.** -/
theorem deadlocked_iff (hrun : (system rules statuses).Run guard events state) :
    Deadlocked state client ↔ ∃ thread other, thread ≠ other ∧
      AtBufferevent state thread client ∧ AtStatus state other client := by
  constructor
  · rintro ⟨thread, other, hne, hstatus, ⟨mode, hwants, -⟩, hbufferevent, ⟨mode', hwants', -⟩⟩
    have hexclusive := run_exclusive hrun
    obtain ⟨call, hcall, hpoint⟩ := point_of_wants hrun hwants
    obtain ⟨call', hcall', hpoint'⟩ := point_of_wants hrun hwants'
    -- what one of them has, the other one has not
    have hfree : .write ∉ state.owns thread (.bufferevent client) :=
      fun hwrite => hbufferevent (hexclusive.unheld hne.symm hwrite)
    have hfree' : .write ∉ state.owns other (.status client) :=
      fun hwrite => hstatus (hexclusive.unheld hne hwrite)
    obtain ⟨rfl, hsends⟩ := hpoint.at_bufferevent hstatus hfree hwants
    obtain ⟨rfl, hreads⟩ := hpoint'.at_status hbufferevent hfree' hwants'
    exact ⟨thread, other, hne, ⟨by simpa [hcall] using hsends, hstatus, hwants⟩,
      by simpa [hcall'] using hreads, hbufferevent, hwants'⟩
  · rintro ⟨thread, other, hne, ⟨-, hstatus, hwants⟩, -, hbufferevent, hwants'⟩
    exact (blockedBy_of_holds hwants hbufferevent).opposed hne
      (blockedBy_of_holds hwants' hstatus)

/-- **One step** comes to a deadlock only where it crosses another thread. -/
theorem crosses_of_deadlocked (hrun : (system rules statuses).Run (fun _ _ => True) events state)
    (hstep : (system rules statuses).step state action = some (next, emitted))
    (hdeadlocked : Deadlocked next client) :
    Deadlocked state client ∨ Crosses state client action := by
  obtain ⟨thread, other, hne, hbufferevent, hstatus⟩ :=
    (deadlocked_iff (hrun.step trivial hstep)).mp hdeadlocked
  rw [deadlocked_iff hrun]
  rcases step_cases hstep with ⟨started, call, rfl, hcode, rfl⟩ |
    ⟨moved, result, rfl, -, hresult, rfl⟩
  · -- who begins a call has no lock
    have hnothing : ∀ lock, state.owns started lock = [] := by
      intro lock
      by_contra hown
      obtain ⟨call, -, hpoint⟩ := point_of_run hrun fun hnone => absurd (by rw [hnone]) hown
      rw [hcode] at hpoint
      exact hown (by rw [hpoint.own_of_over])
    have hthread : thread ≠ started := fun heq => hbufferevent.2.1 (heq ▸ hnothing _)
    have hother : other ≠ started := fun heq => hstatus.2.1 (heq ▸ hnothing _)
    refine .inl ⟨thread, other, hne, ?_, ?_⟩
    · rwa [AtBufferevent, owns_startCall, call_startCall_of_ne hthread,
        code_startCall_of_ne hthread] at hbufferevent
    · rwa [AtStatus, owns_startCall, call_startCall_of_ne hother,
        code_startCall_of_ne hother] at hstatus
  by_cases hthread : thread = moved
  · subst hthread
    rw [(at_setThread_of_ne hne.symm result).2] at hstatus
    rw [AtBufferevent, call_setThread, owns_setThread_self, code_setThread_self] at hbufferevent
    obtain ⟨hsends, -, hwants⟩ := hbufferevent
    obtain ⟨call, hcall, hpoint⟩ := point_of_step hrun hresult
    obtain ⟨call', hcall', hpoint'⟩ := point_of_wants hrun hstatus.2.2
    have hwrite := hpoint'.write_of_reads (by simpa [hcall'] using hstatus.1) hstatus.2.2
    obtain ⟨hturns, hhere⟩ := hpoint.turns_of_step (by simpa [hcall] using hsends)
      ((run_exclusive hrun).unheld hne hwrite) hresult hwants
    exact .inr ⟨other, hne.symm, .inl ⟨hsends, hturns, hhere, hstatus⟩⟩
  by_cases hother : other = moved
  · subst hother
    rw [(at_setThread_of_ne hne result).1] at hbufferevent
    rw [AtStatus, call_setThread, owns_setThread_self, code_setThread_self] at hstatus
    obtain ⟨hreads, -, hwants⟩ := hstatus
    obtain ⟨call, hcall, hpoint⟩ := point_of_step hrun hresult
    have hfree : .write ∉ state.owns other (.status client) :=
      fun hwrite => hbufferevent.2.1 ((run_exclusive hrun).unheld hne hwrite)
    obtain ⟨henters, hnone⟩ := hpoint.enters_of_step (by simpa [hcall] using hreads) hfree hresult
      hwants
    exact .inr ⟨thread, hne, .inr ⟨hreads, henters, hnone, hbufferevent⟩⟩
  · rw [(at_setThread_of_ne hthread result).1] at hbufferevent
    rw [(at_setThread_of_ne hother result).2] at hstatus
    exact .inl ⟨thread, other, hne, hbufferevent, hstatus⟩

/-- **A step that crosses** another thread comes to a deadlock. -/
theorem deadlocked_of_crosses (hrun : (system rules statuses).Run (fun _ _ => True) events state)
    (hstep : (system rules statuses).step state action = some (next, emitted))
    (hcrosses : Crosses state client action) : Deadlocked next client := by
  rw [deadlocked_iff (hrun.step trivial hstep)]
  rcases step_cases hstep with ⟨started, call, rfl, -, rfl⟩ |
    ⟨moved, result, rfl, -, hresult, rfl⟩
  · exact hcrosses.elim
  obtain ⟨call, hcall, hpoint⟩ := point_of_step hrun hresult
  obtain ⟨other, hne, ⟨hsends, hwants, hhere, hstatus⟩ | ⟨hreads, hwants, hfree, hbufferevent⟩⟩ :=
    hcrosses
  · have hnext := hpoint.step_turns (by simpa [hcall] using hsends) hwants hhere hresult
    refine ⟨moved, other, hne.symm, ⟨hsends, ?_⟩, (at_setThread_of_ne hne result).2.mpr hstatus⟩
    rwa [owns_setThread_self, code_setThread_self]
  · have hnext := hpoint.step_enters (by simpa [hcall] using hreads) hwants hfree hresult
    refine ⟨other, moved, hne, (at_setThread_of_ne hne result).1.mpr hbufferevent, hreads, ?_⟩
    rwa [owns_setThread_self, code_setThread_self]

/-- **The locks of a client are never taken crosswise** in a run of any threads in which no step
crosses another thread; and a step leads to a deadlock exactly where it does. -/
theorem no_lock_order_deadlock
    (hrun : (system rules statuses).Run
      (fun state action => ∀ client, ¬Crosses state client action) events state) :
    (∀ client, ¬Deadlocked state client) ∧
    ∀ client action next emitted,
      (system rules statuses).step state action = some (next, emitted) →
        (Deadlocked next client ↔ Crosses state client action) := by
  have hfree : ∀ client, ¬Deadlocked state client := by
    intro client
    induction hrun with
    | start =>
        rintro ⟨thread, other, -, hstatus, -⟩
        exact hstatus rfl
    | step hrest hguard hnext ih =>
        intro hdeadlocked
        rcases crosses_of_deadlocked (hrest.mono fun _ _ _ => trivial) hnext hdeadlocked with
          hbefore | hcrosses
        · exact ih hbefore
        · exact hguard client hcrosses
  refine ⟨hfree, fun client action next emitted hstep =>
    ⟨fun hdeadlocked => ?_, fun hcrosses => ?_⟩⟩
  · exact (crosses_of_deadlocked (hrun.mono fun _ _ _ => trivial) hstep hdeadlocked).resolve_left
      (hfree client)
  · exact deadlocked_of_crosses (hrun.mono fun _ _ _ => trivial) hstep hcrosses

end Runs

/-- A broadcast has sent a client its last byte, and the client is read before the broadcast
gives the status back. -/
def broadcastWhileRead : List (Action (Fin 2) (Call ℕ)) :=
  [.start 0 (.worldBroadcastBuffer [7]), .start 1 (.readFromClient 7 3 .packet), .run 0, .run 0,
    .run 0, .run 0, .run 0, .run 1]

theorem no_lock_order_deadlock_interleaved :
    ∃ state events, (system rules fun _ => .idle).exec broadcastWhileRead
        (system rules fun _ => .idle).init = some (state, events) ∧
      state.owns 0 (.status 7) = [.read] ∧ state.owns 1 (.bufferevent 7) = [.write] ∧
      ¬Deadlocked state 7 := by
  have hstate : ((system rules fun _ => .idle).exec broadcastWhileRead
      (system rules fun _ => .idle).init).map (fun result =>
        (result.1.owns 0 (.status 7), result.1.owns 1 (.bufferevent 7))) =
      some ([.read], [.write]) := rfl
  have hguard : (system rules fun _ => .idle).ExecGuard
      (fun (state : State (Fin 2) (ClientLock ℕ) (Statuses ℕ) (Call ℕ)) action =>
        ∀ wanted ∈ (state.code action.thread).wants,
          ¬Crosses state wanted.1.client action)
      broadcastWhileRead (system rules fun _ => .idle).init := by
    decide
  obtain ⟨⟨state, events⟩, hexec, howns⟩ := Option.map_eq_some_iff.mp hstate
  have hapart : ∀ (state : State (Fin 2) (ClientLock ℕ) (Statuses ℕ) (Call ℕ)) action,
      (∀ wanted ∈ (state.code action.thread).wants, ¬Crosses state wanted.1.client action) →
        ∀ client, ¬Crosses state client action := by
    intro state action hwanted client hcrosses
    obtain ⟨wanted, hwants, rfl⟩ := hcrosses.wants
    exact hwanted wanted hwants hcrosses
  have hrun := (System.Run.exec .start hguard hexec).mono hapart
  simp only [Prod.mk.injEq] at howns
  exact ⟨state, events, hexec, howns.1, howns.2, (no_lock_order_deadlock hrun).1 7⟩

/-- A broadcast to one client, and the read callback of that client. -/
def broadcastAndRead : List (Action (Fin 2) (Call ℕ)) :=
  [.start 0 (.worldBroadcastBuffer [7]), .start 1 (.readCallback 7 3 .packet), .run 0, .run 1]

/-- The broadcast has the status and wants the bufferevent, the callback has the
bufferevent and wants the status, and neither ever gets on. -/
theorem lock_order_deadlock :
    ∃ state events, (system rules fun _ => .idle).exec broadcastAndRead
        (system rules fun _ => .idle).init = some (state, events) ∧
      Deadlocked state 7 ∧
      ∀ later, (system rules fun _ => .idle).Leads state later → Deadlocked later 7 := by
  have hstate : ((system rules fun _ => .idle).exec broadcastAndRead
      (system rules fun _ => .idle).init).map (fun result =>
        ((result.1.code 0).wants, result.1.owns 0 (.status 7), (result.1.code 1).wants,
          result.1.owns 1 (.bufferevent 7))) =
      some (some (.bufferevent 7, .write), [.read], some (.status 7, .write), [.write]) := rfl
  obtain ⟨⟨state, events⟩, hexec, hlocks⟩ := Option.map_eq_some_iff.mp hstate
  simp only [Prod.mk.injEq] at hlocks
  obtain ⟨hwants, howns, hwants', howns'⟩ := hlocks
  have hne : (0 : Fin 2) ≠ 1 := by decide
  have hblocked : BlockedBy state 0 1 (.bufferevent 7) ∧ BlockedBy state 1 0 (.status 7) :=
    ⟨⟨.write, hwants, .write, howns' ▸ .head _, rfl⟩,
      ⟨.write, hwants', .read, howns ▸ .head _, rfl⟩⟩
  refine ⟨state, events, hexec, hblocked.1.opposed hne hblocked.2, fun later hleads => ?_⟩
  obtain ⟨hlater, hlater'⟩ := blocked_forever hne hleads hblocked
  exact hlater.opposed hne hlater'

end Craftd.ClientLocks
