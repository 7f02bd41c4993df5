import Craftd.Protocol.BadSequence
import Craftd.Server.LockOrder
import Craftd.Server.Survival

/-!
# The read callback and the lock of the status

How often `cd_ReadCallback` takes the lock of a client's status, counting what it
calls.  It takes it at its start and gives it back at its end; but where the length
check refuses the input it calls `CD_ServerKick`, which takes the lock itself.
`found` is here what the protocol says of the content of the buffer, and
`read_takes_status_once_iff` which contents of a client's buffer are in order.
-/

namespace Craftd.ClientLocks

open LockPrograms
open Server (CDClientStatus CDProtocol survivalProtocol)
open Protocol (BadItem Answers Heap answers_badSequence_iff)

variable {Client Packet : Type*}

/-- What `cd_ReadCallback` finds in an input that its protocol returns from. -/
def Finds (protocol : CDProtocol Packet) (input : List (BitVec 8)) : Found → Prop
  | .noProtocol => False
  | .packet => protocol.parsable input = some .parsable ∧ (protocol.parse input).1 ≠ none
  | .unparsed => protocol.parsable input = some .parsable ∧ (protocol.parse input).1 = none
  | .incomplete => protocol.parsable input = some .again
  | .badPacket _ => protocol.parsable input = some .badSequence

variable [DecidableEq Client] {client : Client}

/-- What a run of `cd_ReadCallback` does with the lock of the status; `statuses` is what it
finds when it takes its locks. -/
def statusTrace (client : Client) (calls : ℕ) (found : Found)
    (statuses : ℕ → Statuses Client) : Trace :=
  (readCallback client calls found .done).trace (ClientLock.status client).recursive
    (.status client) [] statuses

/-- What the callback does after the check. -/
def afterCheck (client : Client) (found : Found) : Code Client :=
  match found with
  | .packet =>
      buffereventCall client
        (.give (.status client) (fun statuses => Function.update statuses client .process) .done)
  | .badPacket sent => serverKick client sent (.give (.status client) id .done)
  | _ => .give (.status client) id .done

/-! ## The calls that leave the lock alone -/

section Passing

variable (recursive : Bool)

theorem passes_buffereventCall (client other : Client) :
    Passes recursive (.status client) (buffereventCall other) := by
  have hother : ClientLock.bufferevent other ≠ .status client := by simp
  exact Passes.takeGive hother .write id

theorem passes_buffereventCalls (client other : Client) (calls : ℕ) :
    Passes recursive (.status client) (buffereventCalls other calls) := by
  induction calls with
  | zero => exact Passes.refl
  | succ calls ih => exact (passes_buffereventCall recursive client other).comp ih

end Passing

/-! ## The callback -/

section Callback

variable {calls : ℕ} {statuses : ℕ → Statuses Client}

theorem trace_give (write : Statuses Client → Statuses Client) :
    (Program.give (ClientLock.status client) write .done : Code Client).trace false
      (.status client) [.write] statuses = ⟨[], some []⟩ := by
  rw [Program.trace, if_pos rfl, Program.trace]
  rfl

/-- The callback takes the lock, and goes on as the status says. -/
theorem trace_locked (client : Client) (statuses : ℕ → Statuses Client)
    (body : Statuses Client → Code Client) :
    ∃ later, (Program.take (.status client) .write fun found =>
        buffereventCall client (body found) : Code Client).trace false (.status client) []
          statuses =
      ⟨[] :: ((body (statuses 0)).trace false (.status client) [.write] later).requests,
        ((body (statuses 0)).trace false (.status client) [.write] later).left⟩ := by
  obtain ⟨later, hlater⟩ := passes_buffereventCall false client client
    (body (statuses 0)) [.write] fun index => statuses (index + 1)
  refine ⟨later, ?_⟩
  rw [← hlater, Program.trace, if_pos rfl]
  rfl

/-- A kick by the holder of the lock begins with a request for it. -/
theorem trace_serverKick (client : Client) (sent : ℕ) (next : Code Client)
    (statuses : ℕ → Statuses Client) :
    ∃ more left, (serverKick client sent next).trace false (.status client) [.write] statuses =
      ⟨[.write] :: more, left⟩ := by
  rw [serverKick, Program.trace, if_pos rfl]
  exact ⟨_, _, rfl⟩

/-- Where nothing is refused, the lock is taken and given back. -/
theorem statusTrace_eq {found : Found} (hprotocol : found ≠ .noProtocol)
    (hgood : statuses 0 client = .idle → ∀ sent, found ≠ .badPacket sent) :
    statusTrace client calls found statuses = ⟨[[]], some []⟩ := by
  unfold statusTrace readCallback
  rw [if_neg hprotocol]
  obtain ⟨later, hlater⟩ := trace_locked client statuses fun statuses =>
    if statuses client = .idle then
      buffereventCalls client calls (afterCheck client found)
    else .give (.status client) id .done
  refine hlater.trans ?_
  split_ifs with hidle
  · obtain ⟨checked, hchecked⟩ := passes_buffereventCalls false client client calls
      (afterCheck client found) [.write] later
    rw [hchecked]
    cases found with
    | noProtocol => exact absurd rfl hprotocol
    | badPacket sent => exact absurd rfl (hgood hidle sent)
    | packet =>
        obtain ⟨last, hlast⟩ := passes_buffereventCall false client client
          (.give (.status client) (fun statuses => Function.update statuses client .process)
            .done) [.write] checked
        rw [afterCheck, hlast, trace_give]
    | unparsed | incomplete => simp only [afterCheck, trace_give]
  · rw [trace_give]

/-- **`CD_ServerKick` asks for the lock again**, and is refused it. -/
theorem statusTrace_badPacket (calls sent : ℕ) (hidle : statuses 0 client = .idle) :
    ∃ more left, statusTrace client calls (.badPacket sent) statuses =
      ⟨[] :: [.write] :: more, left⟩ := by
  unfold statusTrace readCallback
  rw [if_neg nofun]
  obtain ⟨later, hlater⟩ := trace_locked client statuses fun statuses =>
    if statuses client = .idle then
      buffereventCalls client calls (afterCheck client (.badPacket sent))
    else .give (.status client) id .done
  obtain ⟨checked, hchecked⟩ := passes_buffereventCalls false client client calls
    (afterCheck client (.badPacket sent)) [.write] later
  obtain ⟨more, left, hkick⟩ :=
    trace_serverKick client sent (.give (.status client) id .done) checked
  rw [if_pos hidle, hchecked, afterCheck, hkick] at hlater
  exact ⟨more, left, hlater⟩

end Callback

/-! ## What the protocol finds -/

section Protocol

variable {heap : Heap} {rounds : ℕ} {data : List (BitVec 8)}

private theorem finds_badPacket {sent : ℕ}
    (hfinds : Finds (survivalProtocol heap rounds) data (.badPacket sent)) :
    Answers data .badSequence := by
  refine ⟨rounds, ?_⟩
  simp only [Finds, survivalProtocol] at hfinds
  split at hfinds
  · split at hfinds <;> cases hfinds
  · cases hfinds
  · next hbad => exact hbad
  · cases hfinds
  · cases hfinds

private theorem exists_finds_badPacket (heap : Heap) (hanswers : Answers data .badSequence)
    (sent : ℕ) :
    ∃ rounds, Finds (survivalProtocol heap rounds) data (.badPacket sent) := by
  obtain ⟨rounds, hbad⟩ := hanswers
  refine ⟨rounds, ?_⟩
  simp only [Finds, survivalProtocol, hbad]

end Protocol

/-- **The read callback takes the lock of the status once** for every content of the buffer,
exactly unless the client is idle and the items of the first packet lead to a bad one. -/
theorem read_takes_status_once_iff (heap : Heap) (client : Client)
    (statuses : ℕ → Statuses Client) (buffer : Protocol.InputBuffer) :
    (∀ rounds calls found, Finds (survivalProtocol heap rounds) buffer.data found →
      TakenOnce (statusTrace client calls found statuses)) ↔
      ¬ (statuses 0 client = .idle ∧ BadItem buffer.data) := by
  rw [← answers_badSequence_iff buffer.hlength]
  constructor
  · rintro honce ⟨hidle, hanswers⟩
    obtain ⟨rounds, hfinds⟩ := exists_finds_badPacket heap hanswers 1
    obtain ⟨more, left, htrace⟩ := statusTrace_badPacket 0 1 hidle
    have hunheld := (honce rounds 0 (.badPacket 1) hfinds).unheld [.write]
    rw [htrace] at hunheld
    simp at hunheld
  · intro hcondition rounds calls found hfinds
    have hprotocol : found ≠ .noProtocol := by
      rintro rfl
      exact hfinds
    have hgood : statuses 0 client = .idle → ∀ sent, found ≠ .badPacket sent := by
      rintro hidle sent rfl
      exact hcondition ⟨hidle, finds_badPacket hfinds⟩
    rw [statusTrace_eq hprotocol hgood]
    exact ⟨rfl, by simp, rfl⟩

/-- Metadata whose first header is 0xE0: the kick asks for the lock that the callback holds. -/
theorem kick_takes_status_again :
    Finds (survivalProtocol ⟨0, fun _ => ⟨0, 0, 0, 0⟩, 0, fun _ => none⟩ 1)
        [0x28, 0, 0, 0, 0, 0xE0] (.badPacket 1) ∧
      statusTrace () 0 (.badPacket 1) (fun _ _ => .idle) = ⟨[[], [.write]], some []⟩ ∧
      ¬ TakenOnce (statusTrace () 0 (.badPacket 1) (fun _ _ => .idle)) := by
  have htrace : statusTrace () 0 (.badPacket 1) (fun _ _ => .idle) =
      ⟨[[], [.write]], some []⟩ := by
    decide
  refine ⟨rfl, htrace, ?_⟩
  intro honce
  have hlength := honce.once
  rw [htrace] at hlength
  exact absurd hlength (by decide)

end Craftd.ClientLocks
