import Craftd.Protocol.Framing
import Craftd.Server.PacketOrder

/-!
# The server with the survival protocol

`CD_InitializeSurvivalProtocol` gives the server `SV_PacketParsable` and
`SV_PacketFromBuffers`.  Both know which types there are, but not the same ones: the
check accepts every byte, of whatever type, and the decoder has arms for some.  The read
callback kicks a client when the check refuses its input with `EILSEQ`, and does nothing
when the decoder does.
-/

namespace Craftd.Server

open StepSystem Protocol

/-- The protocol of `CD_InitializeSurvivalProtocol`.  The callback does not return where the
check reads outside of the buffer or takes more than `rounds` rounds in a loop, nor where the
decoder faults. -/
def survivalProtocol (heap : Heap) (rounds : Nat) : CDProtocol SVRequest where
  parsable := fun input =>
    match packetParsable rounds input with
    | some .parsable =>
        match requestFromBuffers heap ⟨input, 0⟩ with
        | .ok _ _ => some .parsable
        | .error _ _ => none
    | some (.again _) => some .again
    | some .badSequence => some .badSequence
    | some .outside | none => none
  parse := fun input =>
    match requestFromBuffers heap ⟨input, 0⟩ with
    | .ok packet source => (packet, source.bytes)
    | .error _ source => (none, source.bytes)

/-- The callback gets as far as the decoder, and that returns NULL. -/
def ParseFails {Packet : Type*} (protocol : CDProtocol Packet) (input : List Byte) : Prop :=
  protocol.parsable input = some .parsable ∧ (protocol.parse input).1 = none

/-- The check accepts the input, and the decoder has no arm for its first byte. -/
def Unsupported (heap : Heap) (rounds : Nat) (input : List Byte) : Prop :=
  packetParsable rounds input = some .parsable ∧ ¬ Supported heap input

variable {Client W : Type*} [DecidableEq Client] [DecidableEq W]

/-- A callback for which the decoder returns NULL ends with the client kicked, and kicked the
client stays. -/
def RejectsUnparsable {Packet : Type*} (protocol : CDProtocol Packet)
    (self : CDServer Client Packet W) (client : Client) : Prop :=
  ParseFails protocol (self.client client).input →
    ∀ next emitted, readCallback (some protocol) self client = some (next, emitted) →
      ∀ last, (system (some protocol)).Leads next last →
        (last.client client).status = .disconnect

variable {heap : Heap} {rounds : Nat} {input : List Byte}

/-- The decoder returns NULL for the types without an arm, after it took the type byte, and for
no other type. -/
theorem requestFromBuffers_none_iff {first : Byte} {rest : List Byte} {source : ByteReader.Source} :
    requestFromBuffers heap ⟨first :: rest, 0⟩ = .ok none source ↔
      ¬ Supported heap (first :: rest) ∧ source = ⟨rest, 1⟩ := by
  unfold Supported
  rw [List.head?_cons, Option.bind_some]
  have hbyte : bufferRemoveByte ⟨first :: rest, 0⟩ = .ok first ⟨rest, 1⟩ := by
    show EStateM.Result.ok (BitVec.ofNat 8 (ByteReader.number 1 ([first] ++ rest))) _ = _
    rw [ByteReader.number_append (n := 1) rfl]
    simp [BigEndian.ofBytes, ByteReader.Source.advance]
  unfold requestFromBuffers
  rw [ByteReader.bind_ok hbyte]
  cases hread : (SVPacketType.ofByte first).bind (requestDataFromBuffer heap) with
  | none =>
      show EStateM.Result.ok none _ = _ ↔ _
      rw [EStateM.Result.ok.injEq]
      simp [eq_comm]
  | some read =>
      refine iff_of_false ?_ fun hnone => hnone.1 rfl
      intro hrun
      obtain ⟨packet, middle, -, hlast⟩ := ByteReader.bind_eq_ok hrun
      cases hlast

theorem exists_cons_of_parsable (hparsable : packetParsable rounds input = some .parsable) :
    ∃ first rest, input = first :: rest := by
  cases input with
  | nil => cases hparsable
  | cons first rest => exact ⟨first, rest, rfl⟩

/-- Which inputs the check accepts and the decoder refuses. -/
theorem parseFails_iff : ParseFails (survivalProtocol heap rounds) input ↔
    Unsupported heap rounds input := by
  unfold ParseFails Unsupported survivalProtocol
  dsimp only
  constructor
  · rintro ⟨hparsable, hparse⟩
    have haccepted : packetParsable rounds input = some .parsable := by
      split at hparsable <;> first | assumption | cases hparsable
    obtain ⟨first, rest, rfl⟩ := exists_cons_of_parsable haccepted
    refine ⟨haccepted, ?_⟩
    rw [haccepted] at hparsable
    cases hrun : requestFromBuffers heap ⟨first :: rest, 0⟩ with
    | error fault source =>
        simp only [hrun] at hparsable
        cases hparsable
    | ok packet source =>
        simp only [hrun] at hparse
        rw [hparse] at hrun
        exact (requestFromBuffers_none_iff.mp hrun).1
  · rintro ⟨haccepted, hunsupported⟩
    obtain ⟨first, rest, rfl⟩ := exists_cons_of_parsable haccepted
    have hrun := requestFromBuffers_none_iff.mpr ⟨hunsupported, rfl⟩
    simp only [haccepted, hrun]
    exact ⟨trivial, trivial⟩

omit [DecidableEq W] in
/-- Where the decoder returns NULL the callback leaves the client idle, with the rest of the
input for the next packet. -/
theorem readCallback_unsupported {self : CDServer Client SVRequest W} {client : Client}
    {first : Byte} {rest : List Byte} (hidle : (self.client client).status = .idle)
    (hinput : (self.client client).input = first :: rest)
    (hunsupported : Unsupported heap rounds (first :: rest)) :
    readCallback (some (survivalProtocol heap rounds)) self client =
      some (self.setClient client { self.client client with input := rest }, []) := by
  obtain ⟨hparsable, -⟩ := parseFails_iff.mpr hunsupported
  have hrun := requestFromBuffers_none_iff.mpr ⟨hunsupported.2, rfl⟩
  have hparse : (survivalProtocol heap rounds).parse (first :: rest) = (none, rest) := by
    simp only [survivalProtocol, hrun]
  simp only [readCallback, hidle, hinput, hparsable, hparse, if_true]

/-- **When unparsable input is rejected.**  An idle client is kicked for input that the decoder
refuses exactly when there is none: when the check does not accept a type that the decoder has no
arm for. -/
theorem unparsable_rejected_iff (heap : Heap) (rounds : Nat) (self : CDServer Client SVRequest W)
    {client : Client} (hidle : (self.client client).status = .idle) :
    RejectsUnparsable (survivalProtocol heap rounds) self client ↔
      ¬ Unsupported heap rounds (self.client client).input := by
  unfold RejectsUnparsable
  rw [parseFails_iff]
  constructor
  · intro hrejects hunsupported
    obtain ⟨first, rest, hinput⟩ := exists_cons_of_parsable hunsupported.1
    have hread := readCallback_unsupported hidle hinput (hinput ▸ hunsupported)
    have hstatus : ((self.setClient client { self.client client with input := rest }).client
        client).status = .disconnect := hrejects hunsupported _ _ hread _ .refl
    simp [CDServer.setClient, hidle] at hstatus
  · intro hsupported hunsupported
    exact absurd hunsupported hsupported

/-- A heap of zeros. -/
def zeroHeap : Heap := ⟨0, fun _ => ⟨0, 0, 0, 0⟩, 0, fun _ => none⟩

/-- A client that is idle, with a ping in its buffer. -/
def pinged : CDServer ℕ SVRequest (Fin 1) :=
  createServer.setClient 0 { createClient with status := .idle, input := [0xFE] }

theorem unparsable_rejected_iff_ping :
    RejectsUnparsable (survivalProtocol zeroHeap 0) pinged 0 := by
  refine (unparsable_rejected_iff zeroHeap 0 pinged rfl).mpr fun hunsupported => ?_
  exact hunsupported.2 rfl

/-- A client that sends a time update, which only servers do; its body begins like a ping. -/
def timeUpdate : List (Action ℕ (Fin 1)) :=
  [.accept 0, .work 0, .work 0, .work 0, .work 0, .work 0,
    .receive 0 [0x04, 0xFE, 0, 0, 0, 0, 0, 0, 0]]

/-- The client is not kicked for the time update, and the body is parsed as a ping. -/
theorem body_taken_as_packet :
    ∃ state events,
      (system (some (survivalProtocol zeroHeap 0))).Run (fun _ _ => True) events state ∧
      (state.client 0).status = .idle ∧
      ParseFails (survivalProtocol zeroHeap 0) (state.client 0).input ∧
      ¬ RejectsUnparsable (survivalProtocol zeroHeap 0) state 0 ∧
      ((system (some (survivalProtocol zeroHeap 0))).exec
        [.read 0, (.read 0 : Action ℕ (Fin 1))] state).map Prod.snd =
        some [.parsed 0 .listPing] := by
  have hstate : ((system (some (survivalProtocol zeroHeap 0))).exec timeUpdate createServer).map
      (fun result => (((result.1.client 0).status, (result.1.client 0).input),
        ((readCallback (some (survivalProtocol zeroHeap 0)) result.1 0).map fun read =>
          (read.1.client 0).status),
        ((system (some (survivalProtocol zeroHeap 0))).exec
          [.read 0, (.read 0 : Action ℕ (Fin 1))] result.1).map Prod.snd)) =
      some ((.idle, [0x04, 0xFE, 0, 0, 0, 0, 0, 0, 0]), some .idle,
        some [.parsed 0 .listPing]) := by
    rfl
  obtain ⟨⟨state, events⟩, hexec, hplaces⟩ := Option.map_eq_some_iff.mp hstate
  simp only [Prod.mk.injEq] at hplaces
  obtain ⟨⟨hidle, hinput⟩, hread, hparsed⟩ := hplaces
  obtain ⟨⟨next, emitted⟩, hcallback, hstatus⟩ := Option.map_eq_some_iff.mp hread
  have hfails : ParseFails (survivalProtocol zeroHeap 0) (state.client 0).input := by
    rw [hinput]
    exact ⟨rfl, rfl⟩
  refine ⟨state, events, System.Run.exec .start (System.execGuard_true _ _) hexec, hidle, hfails,
    ?_, hparsed⟩
  intro hrejects
  have hkicked := hrejects hfails next emitted hcallback next .refl
  rw [hstatus] at hkicked
  cases hkicked

end Craftd.Server
