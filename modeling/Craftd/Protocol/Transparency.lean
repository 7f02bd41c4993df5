import Craftd.Protocol.ResponseFraming
import Craftd.Protocol.Passage

/-!
# Is the proxy transparent?

The proxy decodes every packet of the server behind it and encodes it again for the
client.  `PlainData` says which packets come out as they went in, as a condition on the
bytes behind the type byte.  Some types never do, because the decoder and the encoder
disagree on their layout.
-/

namespace Craftd.Protocol

open Craftd.Containers ByteReader

/-! ## Packets -/

/-- The texts of a response packet. -/
def SVResponse.strings : SVResponse → List SVString
  | .login _ u1 .. => [u1]
  | .handshake hash => [hash]
  | .chat message => [message]
  | .namedEntitySpawn _ name .. => [name]
  | .painting _ title .. => [title]
  | .openWindow _ _ title _ => [title]
  | .updateSign _ first second third fourth => [first, second, third, fourth]
  | .playerListItem playerName .. => [playerName]
  | .disconnect reason => [reason]
  | _ => []

/-- The fields of the types whose packets are a single format. -/
def responsePassages : SVPacketType → List Passage
  | .keepAlive => [.whole .i]
  | .login =>
      [.whole .i, .whole .U, .whole .l, .whole .i, .whole .b, .whole .b, .whole .b, .whole .b]
  | .handshake => [.whole .U]
  | .chat => [.whole .U]
  | .timeUpdate => [.whole .l]
  | .entityEquipment => [.whole .i, .whole .s, .whole .s, .whole .s]
  | .spawnPosition => [.whole .i, .byteOfInteger, .whole .i]
  | .updateHealth => [.whole .s, .whole .s, .whole .f]
  | .respawn => [.whole .b, .whole .b, .whole .b, .whole .s, .whole .l]
  | .playerMoveLook =>
      [.whole .d, .whole .d, .whole .d, .whole .d, .whole .f, .whole .f, .whole .b]
  | .useBed => [.whole .i, .whole .b, .whole .i, .whole .b, .whole .i]
  | .animation => [.whole .i, .whole .b]
  | .namedEntitySpawn =>
      [.whole .i, .whole .U, .whole .i, .whole .i, .whole .i, .whole .b, .whole .b, .whole .s]
  | .pickupSpawn =>
      [.whole .i, .whole .s, .whole .b, .whole .s, .whole .i, .whole .i, .whole .i, .whole .b,
        .whole .b, .whole .b]
  | .collectItem => [.whole .i, .whole .i]
  | .painting =>
      [.whole .i, .whole .U, .whole .i, .byteOfInteger, .whole .i, .whole .i]
  | .experienceOrb => [.whole .i, .whole .i, .byteOfInteger, .whole .i, .whole .s]
  | .stanceUpdate => [.whole .f, .whole .f, .whole .f, .whole .f, .whole .B, .whole .B]
  | .entityVelocity => [.whole .i, .whole .s, .whole .s, .whole .s]
  | .entityDestroy => [.whole .i]
  | .entityCreate => [.whole .i]
  | .entityRelativeMove => [.whole .i, .whole .b, .whole .b, .whole .b]
  | .entityLook => [.whole .i, .whole .b, .whole .b]
  | .entityLookMove => [.whole .i, .whole .b, .whole .b, .whole .b, .whole .b, .whole .b]
  | .entityTeleport => [.whole .i, .whole .i, .whole .i, .whole .i, .whole .b, .whole .b]
  | .entityStatus => [.whole .i, .whole .b]
  | .entityAttach => [.whole .i, .whole .i]
  | .entityEffect => [.whole .i, .whole .b, .whole .b, .whole .s]
  | .removeEntityEffect => [.whole .i, .whole .b]
  | .experience => [.whole .b, .whole .b, .whole .s]
  | .preChunk => [.whole .i, .whole .i, .whole .b]
  | .blockChange => [.whole .i, .whole .b, .whole .i, .whole .b, .whole .b]
  | .playNoteBlock => [.whole .i, .byteOfShort, .whole .i, .whole .b, .whole .b]
  | .soundEffect => [.whole .i, .whole .i, .whole .b, .whole .i, .whole .i]
  | .state => [.whole .b, .whole .b]
  | .closeWindow => [.whole .b]
  | .transaction => [.whole .b, .whole .s, .whole .B]
  | .creativeInventoryAction => [.whole .s, .whole .s, .whole .s, .whole .s]
  | .updateSign =>
      [.whole .i, .byteOfShort, .whole .i, .whole .U, .whole .U, .whole .U, .whole .U]
  | .playerListItem => [.whole .U, .whole .B, .whole .s]
  | .disconnect => [.whole .U]
  | _ => []

/-- Metadata of bytes only, all of them at index 0, up to the terminator. -/
def PlainMetadata : List Byte → Prop
  | [] => False
  | [terminator] => terminator = 127
  | header :: _ :: rest => header = 0 ∧ PlainMetadata rest

/-- Item item of which the absent ones find an id of -1 in memory. -/
def PlainItems (heap : Heap) : Nat → Nat → List Byte → Prop
  | 0, _, _ => True
  | items + 1, i, bytes =>
      if number 2 bytes = 0xFFFF then
        (heap.item i).id = -1 ∧ PlainItems heap items (i + 1) (bytes.drop 2)
      else PlainItems heap items (i + 1) (bytes.drop 5)

/-- The packets that come out as they went in, by the bytes behind the type byte. -/
def PlainData (heap : Heap) (type : SVPacketType) (bytes : List Byte) : Prop :=
  match type with
  | .spawnObject => True
  | .spawnMob => PlainMetadata (bytes.drop 19)
  | .entityMetadata => PlainMetadata (bytes.drop 4)
  | .mapChunk => FitsByte 16 (number 2 (bytes.drop 4))
  | .multiBlockChange => True
  | .explosion =>
      ¬ Signalling (BitVec.ofNat 32 (number 4 (bytes.drop 24))) ∧
        number 4 (bytes.drop 28) * 3 < 2 ^ 31
  | .thunderbolt => False
  | .openWindow => number 2 (bytes.drop 2) = 0
  | .setSlot => FitsByte 16 (number 2 (bytes.drop 1))
  | .windowItems => PlainItems heap (counted 16 (number 2 (bytes.drop 1))) 0 (bytes.drop 3)
  | .updateProgressBar => False
  | .itemData => False
  | type => PlainFields (responsePassages type) bytes

/-- With kept texts, what is sent for the packet is `wire` exactly when `wire` is plain. -/
def Survives (heap : Heap) (type : SVPacketType) (packet : SVResponse) (wire : List Byte) : Prop :=
  packet.type = type ∧ ((∀ string ∈ packet.strings, Kept string) →
    (responseDataToBuffer packet = .ok wire ↔ PlainData heap type wire))

variable {heap : Heap} {type : SVPacketType}

theorem tracks_format {read : Remove SVResponse}
    {build : Fields (letters (responsePassages type)) → Remove SVResponse}
    (hread : read = bufferRemoveFormat (letters (responsePassages type)) >>= build)
    (hbuild : ∀ fields, ∃ packet, build fields = pure packet ∧ packet.type = type ∧
      packet.strings = texts (letters (responsePassages type)) fields ∧
      responseDataToBuffer packet = bufferAddFormat (letters (responsePassages type))
        (passFields (responsePassages type) fields))
    (hletters : ∀ passage ∈ responsePassages type,
      passage.letter.scalar = true ∨ passage.letter = .U)
    (hplain : ∀ wire, PlainData heap type wire = PlainFields (responsePassages type) wire) :
    Tracks read (Survives heap type) := by
  rw [hread]
  refine (tracks_bufferRemoveFormat _).bind fun fields => ?_
  obtain ⟨packet, hpacket, htype, hstrings, hadd⟩ := hbuild fields
  rw [hpacket]
  refine Tracks.pure ?_
  intro wire hwire
  rw [List.append_nil]
  refine ⟨htype, fun hkept => ?_⟩
  rw [hstrings] at hkept
  obtain ⟨out, hout, -, hsame⟩ := bufferAddFormat_passed hletters hwire hkept []
  rw [List.append_nil] at hsame
  calc responseDataToBuffer packet = .ok wire
      _ ↔ out = wire := by rw [hadd, hout, Except.ok.injEq]
      _ ↔ PlainFields (responsePassages type) wire := hsame
      _ ↔ PlainData heap type wire := by rw [hplain]

theorem tracks_field (letter : Letter) {build : letter.Field → SVResponse}
    (hletter : letter.scalar = true ∨ letter = .U)
    (hadd : ∀ field, responseDataToBuffer (build field) = bufferAddField letter field)
    (htype : ∀ field, (build field).type = type)
    (hstrings : ∀ field, (build field).strings = texts [letter] (field, ()))
    (hplain : ∀ wire, PlainData heap type wire = PlainFields [.whole letter] wire) :
    Tracks (bufferRemoveField letter >>= fun field => pure (build field))
      (Survives heap type) := by
  refine (tracks_bufferRemoveField letter).bind fun field => Tracks.pure ?_
  intro wire hwire
  rw [List.append_nil]
  refine ⟨htype field, fun hkept => ?_⟩
  rw [hstrings] at hkept
  have hpassage : (Passage.whole letter).letter.scalar = true ∨
      (Passage.whole letter).letter = .U := hletter
  obtain ⟨⟨out, hout, -, hsame⟩, -⟩ := bufferAddField_passed hpassage hwire hkept []
  rw [List.append_nil] at hsame
  calc responseDataToBuffer (build field) = .ok wire
      _ ↔ Except.ok out = .ok wire := by rw [hadd, ← hout]; rfl
      _ ↔ out = wire := by rw [Except.ok.injEq]
      _ ↔ (Passage.whole letter).Plain wire := hsame
      _ ↔ PlainData heap type wire := by rw [hplain, PlainFields, PlainFields, and_true]

/-! ## Packets that are more than a format -/

theorem tracks_bufferRemove (length : Int) :
    Tracks (bufferRemove length) fun item wire =>
      0 ≤ length ∧ wire = item ∧ item.length = length.toNat := by
  unfold bufferRemove
  by_cases hneg : length < 0
  · rw [if_pos hneg]
    exact Tracks.throw _ _
  · rw [if_neg hneg]
    exact (Tracks.remove _).mono fun item wire hwire => ⟨by omega, hwire⟩

theorem bufferAdd_eq {item : List Byte} {length : Int} (hlength : 0 ≤ length)
    (hitem : item.length = length.toNat) : bufferAdd item length = .ok item := by
  unfold bufferAdd
  rw [if_neg (by omega), ← hitem, List.take_length]

/-- The scalars that no call changes. -/
def Letter.verbatim (letter : Letter) : Bool := letter.scalar && letter != .f

/-- Such a scalar is sent as the bytes that it was received from. -/
theorem bufferAddField_of_verbatim {letter : Letter} {field : letter.Field} {wire : List Byte}
    (h : letter.verbatim = true) (hwire : letter.Wire field wire) :
    bufferAddField letter field = .ok wire ∧ wire.length = letter.width := by
  cases letter
  case f => exact absurd h (by decide)
  case S => exact absurd h (by decide)
  case U => exact absurd h (by decide)
  case M => exact absurd h (by decide)
  all_goals
    cases hwire
    exact ⟨rfl, BigEndian.length_toBytes _ _⟩

private theorem bufferAddFormat_of_verbatim {format : List Letter} {fields : Fields format}
    {wire : List Byte} (h : format.all Letter.verbatim = true)
    (hwire : FormatWire format fields wire) : bufferAddFormat format fields = .ok wire := by
  induction format generalizing wire with
  | nil =>
      obtain rfl : wire = [] := hwire
      rfl
  | cons letter rest ih =>
      rw [List.all_cons, Bool.and_eq_true] at h
      obtain ⟨field, fields⟩ := fields
      obtain ⟨first, second, rfl, hfirst, hsecond⟩ := hwire
      rw [bufferAddFormat, (bufferAddField_of_verbatim h.1 hfirst).1, ih h.2 hsecond]
      rfl

theorem tracks_verbatim (format : List Letter) (h : format.all Letter.verbatim = true) :
    Tracks (bufferRemoveFormat format)
      fun fields wire => bufferAddFormat format fields = .ok wire :=
  (tracks_bufferRemoveFormat format).mono fun _ _ hwire => bufferAddFormat_of_verbatim h hwire

private theorem tracks_spawnObject {read : Remove SVResponse}
    (hread : responseDataFromBuffer heap .spawnObject = some read) :
    Tracks read (Survives heap .spawnObject) := by
  cases hread
  refine (tracks_verbatim [.i, .b, .i, .i, .i, .i] rfl).bind ?_
  intro ⟨entityId, type, x, y, z, flag, ()⟩
  dsimp only
  by_cases hflag : 0 < flag.toInt
  · rw [if_pos hflag]
    refine (tracks_verbatim [.s, .s, .s] rfl).bind ?_
    intro ⟨u1, u2, u3, ()⟩
    refine Tracks.pure ?_
    intro shorts hshorts object hobject
    cases hshorts
    cases hobject
    refine ⟨rfl, fun _ => iff_of_true ?_ trivial⟩
    simp only [responseDataToBuffer, setWidth_overwriteLow, if_pos hflag]
    rfl
  · rw [if_neg hflag]
    refine Tracks.pure ?_
    intro object hobject
    cases hobject
    refine ⟨rfl, fun _ => iff_of_true ?_ trivial⟩
    simp only [responseDataToBuffer, setWidth_overwriteLow, if_neg hflag]
    rfl

private theorem type_of_bufferAddData {item : SVData} {out : List Byte}
    (hout : bufferAddData item = .ok out) : ∃ after, out = item.type :: after := by
  cases item with
  | f value => cases hout
  | S string =>
      rw [bufferAddData] at hout
      cases hstring : bufferAddString string with
      | error fault =>
          rw [hstring] at hout
          cases hout
      | ok wire =>
          rw [hstring] at hout
          cases hout
          exact ⟨wire, by rw [bufferAddByte_eq]; rfl⟩
  | _ =>
      rw [bufferAddData] at hout
      cases hout
      rw [bufferAddByte_eq]
      exact ⟨_, rfl⟩

/-- A metadata item was received behind its header: only a byte at index 0 has its type there. -/
theorem bufferAddData_received {item : SVData} {header : SVByte} {payload : List Byte}
    (htype : header.sshiftRight 5 = item.type) (hpayload : DataWire item payload) :
    payload ≠ [] ∧
      (header = 0 → bufferAddData item = .ok (0 :: payload) ∧ payload.length = 1) ∧
      (header ≠ 0 → item.type ≠ header) := by
  have hfixed : ∀ header : SVByte, (header.sshiftRight 5).toNat < 7 →
      header.sshiftRight 5 = header → header = 0 := by decide +kernel
  have hbound : item.type.toNat < 7 := by cases item <;> simp [SVData.type]
  refine ⟨?_, ?_, fun hheader hsame => hheader ?_⟩
  · cases item with
    | S string =>
        obtain ⟨data, -, -, rfl⟩ := hpayload
        exact List.ne_nil_of_length_pos (by simp [BigEndian.length_toBytes])
    | _ =>
        cases hpayload
        exact List.ne_nil_of_length_pos (by simp)
  · rintro rfl
    have hzero : item.type = 0 := htype.symm
    cases item with
    | b value =>
        cases hpayload
        exact ⟨by simp [bufferAddData, SVData.type], by simp⟩
    | _ => cases hzero
  · exact hfixed header (by rw [htype]; exact hbound) (htype.trans hsame)

/-- Metadata is sent as it came exactly when it is plain. -/
theorem bufferAddMetadata_received {items : SVMetadata} {wire : List Byte}
    (hwire : MetadataWire items wire) :
    bufferAddMetadata items = .ok wire ↔ PlainMetadata wire := by
  induction items generalizing wire with
  | nil =>
      have hterminator : bufferAddMetadata [] = .ok [127] := rfl
      rw [hterminator]
      -- the end of the items was received as a terminator or as nothing
      rcases hwire with rfl | rfl
      · exact iff_of_false (fun hsame => by cases hsame) id
      · exact iff_of_true rfl rfl
  | cons item rest ih =>
      obtain ⟨header, -, htype, payload, after, rfl, hpayload, hafter⟩ := hwire
      obtain ⟨hnonempty, hplain, hother⟩ := bufferAddData_received htype hpayload
      obtain ⟨first, more, rfl⟩ := List.exists_cons_of_ne_nil hnonempty
      have hrest := ih hafter
      rw [bufferAddMetadata, List.cons_append, PlainMetadata]
      -- a byte at index 0 goes out behind the header that it came with
      by_cases hheader : header = 0
      · obtain ⟨hdata, hlength⟩ := hplain hheader
        obtain rfl : more = [] := List.eq_nil_of_length_eq_zero (Nat.succ.inj hlength)
        rw [List.nil_append, and_iff_right hheader, ← hrest, hdata, hheader]
        cases bufferAddMetadata rest with
        | error fault =>
            exact iff_of_false (fun hsame => by cases hsame) fun hsame => by cases hsame
        | ok out =>
            show Except.ok ([0, first] ++ out) = Except.ok ([0, first] ++ after) ↔ _
            rw [Except.ok.injEq, Except.ok.injEq, List.append_cancel_left_eq]
      -- any other item goes out behind its type, which its header was not
      · refine iff_of_false (fun hsent => ?_) fun h => hheader h.1
        cases hdata : bufferAddData item with
        | error fault =>
            rw [hdata] at hsent
            cases hsent
        | ok data =>
            cases hitems : bufferAddMetadata rest with
            | error fault =>
                rw [hdata, hitems] at hsent
                cases hsent
            | ok out =>
                rw [hdata, hitems] at hsent
                obtain ⟨more', rfl⟩ := type_of_bufferAddData hdata
                exact hother hheader (List.cons.inj (Except.ok.inj hsent)).1

theorem bufferAddFormat_metadata {lead : List Letter} {fields : Fields (lead ++ [.M])}
    {wire : List Byte} (h : lead.all Letter.verbatim = true)
    (hwire : FormatWire (lead ++ [.M]) fields wire) :
    bufferAddFormat (lead ++ [.M]) fields = .ok wire ↔
      PlainMetadata (wire.drop (lead.map Letter.width).sum) := by
  induction lead generalizing wire with
  | nil =>
      obtain ⟨items, ⟨⟩⟩ := fields
      obtain ⟨first, second, rfl, hfirst, rfl⟩ := hwire
      have hformat : bufferAddFormat [.M] (items, ()) = bufferAddMetadata items := by
        show (do return (← bufferAddMetadata items) ++ [] : Added) = _
        cases bufferAddMetadata items with
        | error fault => rfl
        | ok out => exact congrArg Except.ok (List.append_nil out)
      refine (congrArg (· = Except.ok (first ++ [])) hformat).to_iff.trans ?_
      rw [List.append_nil]
      exact bufferAddMetadata_received hfirst
  | cons letter rest ih =>
      rw [List.all_cons, Bool.and_eq_true] at h
      obtain ⟨field, fields⟩ := fields
      obtain ⟨first, second, rfl, hfirst, hsecond⟩ := hwire
      obtain ⟨hfield, hwidth⟩ := bufferAddField_of_verbatim h.1 hfirst
      have hformat : bufferAddFormat (letter :: rest ++ [.M]) (field, fields) =
          (bufferAddFormat (rest ++ [.M]) fields).map (first ++ ·) := by
        show (do return (← bufferAddField letter field) ++
          (← bufferAddFormat (rest ++ [.M]) fields) : Added) = _
        rw [hfield]
        rfl
      refine (congrArg (· = Except.ok (first ++ second)) hformat).to_iff.trans ?_
      rw [List.map_cons, List.sum_cons, ← hwidth, ← List.drop_drop, List.drop_left,
        ← ih h.2 hsecond]
      cases bufferAddFormat (rest ++ [.M]) fields with
      | error fault => exact iff_of_false nofun nofun
      | ok out =>
          show Except.ok (first ++ out) = _ ↔ _
          rw [Except.ok.injEq, Except.ok.injEq, List.append_cancel_left_eq]

theorem tracks_metadata (lead : List Letter) {read : Remove SVResponse}
    {build : Fields (lead ++ [.M]) → Remove SVResponse}
    (hread : read = bufferRemoveFormat (lead ++ [.M]) >>= build)
    (hlead : lead.all Letter.verbatim = true)
    (hbuild : ∀ fields, ∃ packet, build fields = pure packet ∧ packet.type = type ∧
      responseDataToBuffer packet = bufferAddFormat (lead ++ [.M]) fields)
    (hplain : ∀ wire, PlainData heap type wire =
      PlainMetadata (wire.drop (lead.map Letter.width).sum)) :
    Tracks read (Survives heap type) := by
  rw [hread]
  refine (tracks_bufferRemoveFormat _).bind fun fields => ?_
  obtain ⟨packet, hpacket, htype, hadd⟩ := hbuild fields
  rw [hpacket]
  refine Tracks.pure ?_
  intro wire hwire
  rw [List.append_nil]
  refine ⟨htype, fun _ => ?_⟩
  rw [hadd, hplain]
  exact bufferAddFormat_metadata hlead hwire

private theorem tracks_mapChunk {read : Remove SVResponse}
    (hread : responseDataFromBuffer heap .mapChunk = some read) :
    Tracks read (Survives heap .mapChunk) := by
  cases hread
  let passages : List Passage := [.whole .i, .byteOfShort, .whole .i, .whole .b, .whole .b,
    .whole .b, .whole .i]
  refine (tracks_bufferRemoveFormat (letters passages)).bind ?_
  intro ⟨x, y, z, sizeX, sizeY, sizeZ, length, ⟨⟩⟩
  refine (tracks_bufferRemove length.toInt).bind fun item => Tracks.pure ?_
  intro array ⟨hnonneg, harray, hlength⟩ wire hwire
  refine ⟨rfl, fun _ => ?_⟩
  rw [harray, List.append_nil]
  obtain ⟨out, hout, -, hsame⟩ := bufferAddFormat_passed (by decide) hwire nofun item
  have hadd : responseDataToBuffer (.mapChunk ⟨x, y.setWidth 8, z⟩
      ⟨sizeX + 1, sizeY + 1, sizeZ + 1⟩ length item) = .ok (out ++ item) := by
    cases hout
    simp only [responseDataToBuffer, bufferAdd_eq hnonneg hlength, BitVec.add_sub_cancel]
    rfl
  rw [hadd, Except.ok.injEq, List.append_left_inj, hsame]
  simp [PlainData, passages, PlainFields, Passage.Plain, Passage.size, Letter.width]

private theorem tracks_multiBlockChange {read : Remove SVResponse}
    (hread : responseDataFromBuffer heap .multiBlockChange = some read) :
    Tracks read (Survives heap .multiBlockChange) := by
  cases hread
  refine (tracks_verbatim [.i, .i, .s] rfl).bind ?_
  intro ⟨x, z, length, ⟨⟩⟩
  refine (tracks_bufferRemove (length.toInt * 2)).bind fun coordinate => ?_
  refine (tracks_bufferRemove length.toInt).bind fun type => ?_
  refine (tracks_bufferRemove length.toInt).bind fun metadata => Tracks.pure ?_
  intro third ⟨hnonneg, hthird, hmetadata⟩ second ⟨_, hsecond, htype⟩
    first ⟨hnonneg', hfirst, hcoordinate⟩ wire hwire
  cases hwire
  refine ⟨rfl, fun _ => iff_of_true ?_ trivial⟩
  simp only [responseDataToBuffer, bufferAdd_eq hnonneg hmetadata, bufferAdd_eq hnonneg htype,
    bufferAdd_eq hnonneg' hcoordinate, hfirst, hsecond, hthird, List.append_nil]
  show Except.ok (_ ++ _ ++ _ ++ _ ++ _) = _
  simp only [List.append_assoc]
  rfl

private theorem number_integer (value : SVInteger) (rest : List Byte) :
    number 4 (bufferAddInteger value ++ rest) = value.toNat := by
  rw [bufferAddInteger, number_append (BigEndian.length_toBytes 4 _), BigEndian.ofBytes_toBytes]
  exact Nat.mod_eq_of_lt value.isLt

private theorem tracks_explosion {read : Remove SVResponse}
    (hread : responseDataFromBuffer heap .explosion = some read) :
    Tracks read (Survives heap .explosion) := by
  cases hread
  let passages : List Passage := [.whole .d, .whole .d, .whole .d, .whole .f, .whole .i]
  refine (tracks_bufferRemoveFormat (letters passages)).bind ?_
  intro ⟨x, y, z, radius, length, ⟨⟩⟩
  refine (tracks_bufferRemove (length.toInt * 3)).bind fun item => Tracks.pure ?_
  intro array ⟨hnonneg, harray, hitem⟩ wire hwire
  refine ⟨rfl, fun _ => ?_⟩
  rw [harray, List.append_nil]
  have hkept : ∀ text ∈ texts (letters passages) (x, y, z, radius, length, ()), Kept text :=
    fun text hmem => by cases hmem
  obtain ⟨out, hout, -, hsame⟩ := bufferAddFormat_passed (by decide) hwire hkept item
  have hdrop : (wire ++ item).drop 28 = bufferAddInteger length ++ item := by
    obtain ⟨_, _, rfl, rfl, _, _, rfl, rfl, _, _, rfl, rfl, _, _, rfl, rfl, _, _, rfl, rfl, rfl⟩ :=
      hwire
    simp [List.drop_append, List.drop_eq_nil_of_le]
  have hcount : length.toInt = length.toNat := by
    have hlength := BitVec.toInt_eq_toNat_cond length
    have hlt := length.isLt
    split_ifs at hlength <;> omega
  have hradius : PlainFields passages (wire ++ item) ↔
      ¬ Signalling (BitVec.ofNat 32 (number 4 ((wire ++ item).drop 24))) := by
    simp [passages, PlainFields, Passage.Plain, Passage.size, Letter.width]
  show _ ↔ ¬ Signalling _ ∧ number 4 _ * 3 < 2 ^ 31
  rw [hdrop, number_integer, ← hradius]
  by_cases hsmall : length.toInt * 3 < 2 ^ 31
  · have hadd : responseDataToBuffer (.explosion ⟨x, y, z⟩ radius length item) =
        .ok (out ++ item) := by
      cases hout
      simp only [responseDataToBuffer, if_pos hsmall, bufferAdd_eq hnonneg hitem]
      rfl
    rw [hadd, Except.ok.injEq, List.append_left_inj, hsame]
    exact (and_iff_left (by omega)).symm
  · refine iff_of_false ?_ (by omega)
    simp only [responseDataToBuffer, if_neg hsmall]
    exact fun hsent => by cases hsent

/-- What is sent for a text behind an `S` is the text itself only when there is none. -/
theorem bufferAddString_received {string : SVString} {wire : List Byte} (hkept : Kept string)
    (hwire : String16Wire string wire) :
    ∃ out, bufferAddString string = .ok out ∧ (out = wire ↔ number 2 wire = 0) := by
  obtain ⟨chars, hchars, hcontent⟩ := hkept
  obtain ⟨units, hcount, hunits, rfl⟩ := hwire
  have hnumber := (textUnits_append units hcount []).1
  rw [List.append_nil] at hnumber
  obtain ⟨sanitized, hsanitize, hresult, -⟩ :=
    svStringSanitize_flatten (fun ch hmem => (hchars ch hmem).isChar) hcontent
  refine ⟨BigEndian.toBytes 2 sanitized.size ++ sanitized.content, ?_, ?_⟩
  · rw [bufferAddString, hsanitize]
  · rw [hnumber]
    constructor
    · intro hsame
      have hparts := List.append_inj hsame (by simp only [BigEndian.length_toBytes])
      have hsize := congrArg List.length hparts.2
      have hfront := congrArg BigEndian.ofBytes hparts.1
      rw [length_wordBytes] at hsize
      rw [BigEndian.ofBytes_toBytes, BigEndian.ofBytes_toBytes, CDString.size] at hfront
      omega
    · intro hnone
      obtain rfl := List.eq_nil_of_length_eq_zero hnone
      have hnothing : string.content = ([] : List (List Byte)).flatten := hunits
      obtain ⟨sanitized', hsanitize', hempty, -⟩ :=
        svStringSanitize_flatten (List.forall_mem_nil _) hnothing
      cases hsanitize.symm.trans hsanitize'
      rw [CDString.size, hempty]
      rfl

private theorem tracks_openWindow {read : Remove SVResponse}
    (hread : responseDataFromBuffer heap .openWindow = some read) :
    Tracks read (Survives heap .openWindow) := by
  cases hread
  refine (tracks_bufferRemoveFormat [.b, .b, .U, .b]).bind ?_
  intro ⟨id, type, title, slots, ⟨⟩⟩
  refine Tracks.pure ?_
  intro wire hwire
  refine ⟨rfl, fun hkept => ?_⟩
  obtain ⟨_, _, rfl, rfl, _, _, rfl, rfl, text, _, rfl, htext, _, _, rfl, rfl, rfl⟩ := hwire
  obtain ⟨out, hout, hsame⟩ := bufferAddString_received (hkept title (.head _)) htext
  have hadd : responseDataToBuffer (.openWindow id (overwriteLow heap.enum type) title slots) =
      .ok ([id] ++ ([type] ++ (out ++ [slots]))) := by
    simp only [responseDataToBuffer, setWidth_overwriteLow, bufferAddFormat, bufferAddField, hout,
      bufferAddByte_eq]
    rfl
  have hcount : number 2 (text ++ [slots]) = number 2 text := by
    obtain ⟨units, hunits, -, rfl⟩ := htext
    rw [(textUnits_append units hunits [slots]).1]
    simpa using (textUnits_append units hunits []).1.symm
  rw [hadd, Except.ok.injEq]
  simp only [bufferAddByte_eq, List.append_nil, List.append_cancel_left_eq,
    List.append_left_inj]
  rw [hsame, ← hcount]
  rfl

private theorem tracks_setSlot {read : Remove SVResponse}
    (hread : responseDataFromBuffer heap .setSlot = some read) :
    Tracks read (Survives heap .setSlot) := by
  cases hread
  let passages : List Passage := [.whole .b, .byteOfShort, .whole .s]
  refine (tracks_bufferRemoveFormat (letters passages)).bind ?_
  rintro ⟨windowId, slot, id, ⟨⟩⟩
  have hkept : ∀ fields, ∀ text ∈ texts (letters passages) fields, Kept text := by
    rintro ⟨_, _, _, ⟨⟩⟩ text hmem
    cases hmem
  have hplain : ∀ wire, PlainFields passages wire ↔ PlainData heap .setSlot wire := by
    intro wire
    simp [PlainData, passages, PlainFields, Passage.Plain, Passage.size, Letter.width]
  dsimp only
  by_cases hid : id ≠ -1
  · rw [if_pos hid]
    refine tracks_bufferRemoveByte.bind fun count => ?_
    refine tracks_bufferRemoveShort.bind fun damage => Tracks.pure ?_
    intro second hsecond first hfirst wire hwire
    refine ⟨rfl, fun _ => ?_⟩
    rw [hfirst, hsecond, List.append_nil]
    obtain ⟨out, hout, -, hsame⟩ := bufferAddFormat_passed (by decide) hwire (hkept _)
      (bufferAddByte count ++ bufferAddShort damage)
    have hadd : responseDataToBuffer (.setSlot windowId ⟨id, slot.setWidth 8, damage, count⟩) =
        .ok (out ++ (bufferAddByte count ++ bufferAddShort damage)) := by
      cases hout
      simp only [responseDataToBuffer, if_pos hid]
      rfl
    rw [hadd, Except.ok.injEq, List.append_left_inj, hsame, hplain]
  · rw [if_neg hid]
    refine Tracks.pure ?_
    intro wire hwire
    refine ⟨rfl, fun _ => ?_⟩
    obtain ⟨out, hout, -, hsame⟩ := bufferAddFormat_passed (by decide) hwire (hkept _) []
    have hadd : responseDataToBuffer (.setSlot windowId
        { heap.item 0 with id, slot := slot.setWidth 8 }) = .ok out := by
      simp only [responseDataToBuffer, if_neg hid]
      exact hout
    rw [List.append_nil] at hsame ⊢
    rw [hadd, Except.ok.injEq, hsame, hplain]

theorem number_short (value : SVShort) (rest : List Byte) :
    number 2 (bufferAddShort value ++ rest) = value.toNat := by
  rw [bufferAddShort, number_append (BigEndian.length_toBytes 2 _), BigEndian.ofBytes_toBytes]
  exact Nat.mod_eq_of_lt value.isLt

/-- An item that the packet leaves out is sent as one only if its memory says so. -/
theorem tracks_removeItems (items i : Nat) :
    Tracks (removeItems heap items i) fun item wire =>
      bufferAddItems item = wire ↔ PlainItems heap items i wire := by
  induction items generalizing i with
  | zero => exact Tracks.pure (iff_of_true rfl trivial)
  | succ items ih =>
      rw [removeItems]
      refine tracks_bufferRemoveShort.bind fun id => ?_
      dsimp only
      by_cases hid : id = -1
      · rw [if_pos hid]
        refine (ih (i + 1)).bind fun item => Tracks.pure ?_
        intro wire hwire short hshort
        rw [hshort, hid, List.append_nil, PlainItems, number_short, if_pos (by decide),
          List.drop_left' (length_bufferAddShort _), ← hwire, bufferAddItems]
        by_cases hheap : (heap.item i).id = -1
        · rw [if_pos hheap, List.append_cancel_left_eq, and_iff_right hheap]
        · rw [if_neg hheap]
          refine iff_of_false (fun hsame => hheap ?_) fun h => hheap h.1
          rw [List.append_assoc, List.append_assoc] at hsame
          exact bufferAddShort_inj.mp (List.append_inj hsame (by simp)).1
      · rw [if_neg hid]
        refine tracks_bufferRemoveByte.bind fun count => ?_
        refine tracks_bufferRemoveShort.bind fun damage => ?_
        refine (ih (i + 1)).bind fun item => Tracks.pure ?_
        intro wire hwire damageWire hdamage countWire hcount short hshort
        have hpresent : ¬ id.toNat = 0xFFFF := fun h => hid (BitVec.eq_of_toNat_eq h)
        have hdrop : (bufferAddShort id ++ (bufferAddByte count ++
            (bufferAddShort damage ++ wire))).drop 5 = wire := by
          rw [← List.append_assoc, ← List.append_assoc]
          exact List.drop_left' (by simp)
        rw [hshort, hcount, hdamage, List.append_nil, PlainItems, number_short, if_neg hpresent,
          hdrop, ← hwire, bufferAddItems, if_neg hid]
        simp only [List.append_assoc, List.append_cancel_left_eq]

private theorem tracks_windowItems {read : Remove SVResponse}
    (hread : responseDataFromBuffer heap .windowItems = some read) :
    Tracks read (Survives heap .windowItems) := by
  cases hread
  refine (tracks_verbatim [.b, .s] rfl).bind ?_
  intro ⟨id, length, ⟨⟩⟩
  dsimp only
  by_cases hneg : length.toInt < 0
  · rw [if_pos hneg]
    exact Tracks.throw _ _
  · rw [if_neg hneg]
    refine (tracks_removeItems length.toNat 0).bind fun item => Tracks.pure ?_
    intro items hitems wire hwire
    cases hwire
    refine ⟨rfl, fun _ => ?_⟩
    have hcounted : counted 16 (number 2 (bufferAddShort length ++ items)) = length.toNat := by
      rw [number_short, counted, BitVec.ofNat_toNat, BitVec.setWidth_eq]
      have hlength := toNat_of_not_neg hneg
      omega
    have hrest : (bufferAddByte id ++ (bufferAddShort length ++ items)).drop 1 =
        bufferAddShort length ++ items :=
      List.drop_left' (by simp)
    have hitem : (bufferAddByte id ++ (bufferAddShort length ++ items)).drop 3 = items := by
      rw [← List.append_assoc]
      exact List.drop_left' (by simp)
    have hplain : PlainData heap .windowItems (bufferAddByte id ++ (bufferAddShort length ++ items))
        ↔ PlainItems heap length.toNat 0 items := by
      rw [PlainData, hrest, hitem, hcounted]
    rw [List.append_nil, List.append_nil, List.append_assoc, hplain, ← hitems,
      responseDataToBuffer, Except.ok.injEq, List.append_assoc, List.append_cancel_left_eq,
      List.append_cancel_left_eq]

/-! ## Packets that never survive -/

theorem tracks_unsent (format : List Letter) {read : Fields format → Remove SVResponse}
    (hread : ∀ fields, Tracks (read fields) fun packet _ =>
      packet.type = type ∧ ∀ wire, responseDataToBuffer packet ≠ .ok wire)
    (hplain : ∀ wire, ¬ PlainData heap type wire) :
    Tracks (bufferRemoveFormat format >>= read) (Survives heap type) := by
  refine (tracks_bufferRemoveFormat format).bind fun fields => (hread fields).mono ?_
  intro packet wire ⟨htype, hunsent⟩ lead _
  exact ⟨htype, fun _ => iff_of_false (hunsent _) (hplain _)⟩

/-- A progress bar takes ten bytes from the buffer and puts six back. -/
theorem tracks_updateProgressBar {read : Remove SVResponse}
    (hread : responseDataFromBuffer heap .updateProgressBar = some read) :
    Tracks read (Survives heap .updateProgressBar) := by
  cases hread
  refine (tracks_verbatim [.b, .s, .s] rfl).bind ?_
  intro ⟨id', type', value', ⟨⟩⟩
  refine (tracks_verbatim [.b, .s, .B] rfl).bind ?_
  intro ⟨id, action, accepted, ⟨⟩⟩
  refine Tracks.pure ?_
  intro second hsecond first hfirst
  cases hfirst
  cases hsecond
  refine ⟨rfl, fun _ => iff_of_false ?_ not_false⟩
  intro hsame
  have hlength := congrArg List.length (Except.ok.inj hsame)
  simp only [List.length_append, length_bufferAddShort, bufferAddByte_eq, List.length_singleton,
    List.length_nil] at hlength
  omega

private theorem tracks_thunderbolt {read : Remove SVResponse}
    (hread : responseDataFromBuffer heap .thunderbolt = some read) :
    Tracks read (Survives heap .thunderbolt) := by
  cases hread
  exact tracks_unsent _ (fun fields => Tracks.pure ⟨rfl, nofun⟩) fun _ => id

private theorem tracks_itemData {read : Remove SVResponse}
    (hread : responseDataFromBuffer heap .itemData = some read) :
    Tracks read (Survives heap .itemData) := by
  cases hread
  refine tracks_unsent _ (fun fields => ?_) fun _ => id
  exact (Tracks.remove _).bind fun text => Tracks.pure fun wire _ => ⟨rfl, nofun⟩

/-! ## All packets -/

/-- Every arm of the decoder gives a packet that survives exactly when its bytes are plain. -/
theorem tracks_responseData {read : Remove SVResponse}
    (hread : responseDataFromBuffer heap type = some read) :
    Tracks read (Survives heap type) := by
  cases type
  case spawnObject => exact tracks_spawnObject hread
  case mapChunk => exact tracks_mapChunk hread
  case multiBlockChange => exact tracks_multiBlockChange hread
  case explosion => exact tracks_explosion hread
  case thunderbolt => exact tracks_thunderbolt hread
  case openWindow => exact tracks_openWindow hread
  case setSlot => exact tracks_setSlot hread
  case windowItems => exact tracks_windowItems hread
  case updateProgressBar => exact tracks_updateProgressBar hread
  case itemData => exact tracks_itemData hread
  all_goals cases hread
  case keepAlive | entityDestroy | entityCreate =>
    exact tracks_field .i (.inl rfl) (fun _ => rfl) (fun _ => rfl) (fun _ => rfl) fun _ => rfl
  case timeUpdate =>
    exact tracks_field .l (.inl rfl) (fun _ => rfl) (fun _ => rfl) (fun _ => rfl) fun _ => rfl
  case closeWindow =>
    exact tracks_field .b (.inl rfl) (fun _ => rfl) (fun _ => rfl) (fun _ => rfl) fun _ => rfl
  case handshake | chat | disconnect =>
    exact tracks_field .U (.inr rfl) (fun _ => rfl) (fun _ => rfl) (fun _ => rfl) fun _ => rfl
  case entityMetadata =>
    exact tracks_metadata [.i] rfl rfl (fun _ => ⟨_, rfl, rfl, rfl⟩) fun _ => rfl
  case spawnMob =>
    refine tracks_metadata [.i, .b, .i, .i, .i, .b, .b] rfl rfl (fun _ => ⟨_, rfl, rfl, ?_⟩)
      fun _ => rfl
    rw [responseDataToBuffer, setWidth_overwriteLow]
    rfl
  case animation | entityStatus | entityEffect | removeEntityEffect =>
    refine tracks_format rfl (fun fields => ⟨_, rfl, rfl, rfl, ?_⟩) (by decide) fun _ => rfl
    rw [responseDataToBuffer, setWidth_overwriteLow]
    rfl
  all_goals
    exact tracks_format rfl (fun fields => ⟨_, rfl, rfl, rfl, rfl⟩) (by decide) fun _ => rfl

/-- The packets that come out as they went in, by their bytes. -/
def Plain (heap : Heap) : List Byte → Prop
  | [] => False
  | first :: data =>
      match SVPacketType.ofByte first with
      | none => False
      | some type => PlainData heap type data

/-- The encoder puts the type byte in front of what its arm appended. -/
theorem responseToBuffer_eq_iff (packet : SVResponse) (data : List Byte) :
    responseToBuffer packet = .ok ([packet.type.value] ++ data) ↔
      responseDataToBuffer packet = .ok data := by
  rw [responseToBuffer]
  cases responseDataToBuffer packet with
  | error fault => exact iff_of_false nofun nofun
  | ok out =>
      show Except.ok (bufferAddByte packet.type.value ++ out) = _ ↔ _
      rw [bufferAddByte_eq, Except.ok.injEq, Except.ok.injEq, List.append_cancel_left_eq]

theorem tracks_responseFromBuffers :
    Tracks (responseFromBuffers heap) fun received wire => ∀ packet, received = some packet →
      (∀ string ∈ packet.strings, Kept string) →
        (responseToBuffer packet = .ok wire ↔ Plain heap wire) := by
  refine tracks_bufferRemoveByte.bind fun first => ?_
  cases hread : (SVPacketType.ofByte first).bind (responseDataFromBuffer heap) with
  | none => exact Tracks.pure fun _ _ => nofun
  | some read =>
      obtain ⟨type, htype, hdata⟩ := Option.bind_eq_some_iff.mp hread
      refine (tracks_responseData hdata).bind fun packet => Tracks.pure ?_
      intro data ⟨hpacket, hsurvives⟩ lead hlead sent hsent hkept
      cases hsent
      have hvalue : first = packet.type.value := by
        rw [hpacket]
        exact SVPacketType.value_of_ofByte htype
      rw [hlead, List.append_nil, bufferAddByte_eq]
      calc responseToBuffer packet = .ok ([first] ++ data)
          _ ↔ responseDataToBuffer packet = .ok data := by rw [hvalue, responseToBuffer_eq_iff]
          _ ↔ PlainData heap type data := hsurvives hkept
          _ ↔ Plain heap ([first] ++ data) := by rw [List.singleton_append, Plain, htype]

/-- **Transparency of the proxy.**  A response packet that was decoded from the bytes `wire` and
whose texts sanitising keeps is encoded as `wire` exactly when `wire` is plain. -/
theorem response_transparent_iff (heap : Heap) (wire rest : List Byte) {packet : SVResponse}
    (hdecode : responseFromBuffers heap ⟨wire ++ rest, 0⟩ = .ok (some packet) ⟨rest, wire.length⟩)
    (hkept : ∀ string ∈ packet.strings, Kept string) :
    responseToBuffer packet = .ok wire ↔ Plain heap wire := by
  obtain ⟨taken, hbytes, -, hsurvives⟩ := tracks_responseFromBuffers _ _ _ hdecode
  obtain rfl : wire = taken := List.append_cancel_right hbytes
  exact hsurvives (Nat.zero_add _).symm packet rfl hkept

/-- A spawn position at height 64, with other bytes behind it. -/
theorem response_transparent_iff_spawnPosition :
    responseToBuffer (.spawnPosition ⟨1, 64, 2⟩) =
      .ok [0x06, 0, 0, 0, 1, 0, 0, 0, 64, 0, 0, 0, 2] := by
  have hheight : FitsByte 32 (number 4 [0, 0, 0, 64, 0, 0, 0, 2]) := by
    unfold FitsByte
    decide
  have hplain : Plain ⟨0, fun _ => ⟨0, 0, 0, 0⟩, 0, fun _ => none⟩
      [0x06, 0, 0, 0, 1, 0, 0, 0, 64, 0, 0, 0, 2] :=
    ⟨trivial, hheight, trivial, trivial⟩
  exact (response_transparent_iff _ _ [7] rfl (List.forall_mem_nil _)).mpr hplain

/-- A spawn position at height 128 is sent on at height -128. -/
theorem spawn_position_sinks :
    ¬ ∀ (heap : Heap) (wire rest : List Byte) (packet : SVResponse),
      responseFromBuffers heap ⟨wire ++ rest, 0⟩ = .ok (some packet) ⟨rest, wire.length⟩ →
        (∀ string ∈ packet.strings, Kept string) → responseToBuffer packet = .ok wire := by
  intro htransparent
  have hsame := htransparent ⟨0, fun _ => ⟨0, 0, 0, 0⟩, 0, fun _ => none⟩
    [0x06, 0, 0, 0, 1, 0, 0, 0, 128, 0, 0, 0, 2] [] (.spawnPosition ⟨1, -128, 2⟩)
    rfl (List.forall_mem_nil _)
  exact absurd hsame (by decide +kernel)

end Craftd.Protocol
