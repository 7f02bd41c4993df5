import Craftd.Protocol.BadSequence
import Craftd.Protocol.RequestStream
import Craftd.Protocol.Transparency

/-!
# Streams of responses

What the length check and the decoder make of a buffer in which packets of the server behind
the proxy have begun to arrive.  Once the first of them is whole the check accepts and the
decoder takes just its bytes.  Before that the check asks for more, unless the buffer is torn.
-/

namespace Craftd.Protocol

open Craftd.Containers ByteReader

/-- `wire` is one whole response without metadata, and it is sent as it came. -/
structure Passes (heap : Heap) (packet : SVResponse) (wire : List Byte) : Prop where
  whole : ∀ rest, responseFromBuffers heap ⟨wire ++ rest, 0⟩ =
    .ok (some packet) ⟨rest, wire.length⟩
  kept : ∀ string ∈ packet.strings, Kept string
  plain : Plain heap wire
  metadata : packet.type ≠ .entityMetadata
  mob : packet.type ≠ .spawnMob

variable {heap : Heap} {rounds : Nat} {packet : SVResponse} {wire input more later : List Byte}

/-! ## One response -/

theorem Passes.sent (hpasses : Passes heap packet wire) : responseToBuffer packet = .ok wire := by
  obtain ⟨taken, hbytes, -, hsurvives⟩ := tracks_responseFromBuffers _ _ _ (hpasses.whole [])
  obtain rfl : wire = taken := List.append_cancel_right hbytes
  exact (hsurvives (Nat.zero_add _).symm packet rfl hpasses.kept).mpr hpasses.plain

theorem Passes.exists_cons (hpasses : Passes heap packet wire) :
    ∃ data, wire = packet.type.value :: data := by
  have hsent := hpasses.sent
  rw [responseToBuffer] at hsent
  cases hadded : responseDataToBuffer packet with
  | error fault =>
      rw [hadded] at hsent
      cases hsent
  | ok data =>
      rw [hadded] at hsent
      refine ⟨data, ?_⟩
      calc wire = bufferAddByte packet.type.value ++ data := (Except.ok.inj hsent).symm
        _ = packet.type.value :: data := by rw [bufferAddByte_eq]; rfl

/-- The decoder has an arm for the type, and it takes all of the bytes. -/
theorem Passes.reads (hpasses : Passes heap packet wire) :
    ∃ data read, wire = packet.type.value :: data ∧
      responseDataFromBuffer heap packet.type = some read ∧
        ∀ rest, 1 + responseSpan packet.type (data ++ rest) = wire.length := by
  obtain ⟨data, rfl⟩ := hpasses.exists_cons
  have hfirst : SVPacketType.ofByte packet.type.value = some packet.type :=
    SVPacketType.ofByte_value _
  cases hread : responseDataFromBuffer heap packet.type with
  | none =>
      have hrun := hpasses.whole []
      rw [List.append_nil] at hrun
      unfold responseFromBuffers at hrun
      rw [bind_ok (bufferRemoveByte_cons _ _), hfirst, Option.bind_some, hread] at hrun
      cases hrun
  | some read =>
      refine ⟨data, read, rfl, rfl, fun rest => ?_⟩
      have hrun := hpasses.whole rest
      rw [List.cons_append, responseFromBuffers_cons hfirst hread] at hrun
      obtain ⟨packet', source, hdata, hlast⟩ := bind_eq_ok hrun
      rcases spans_response heap hread hpasses.metadata hpasses.mob
          (sourceAt (packet.type.value :: (data ++ rest)) 1) with
        ⟨result, htakes, -⟩ | ⟨fault, stopped, hstops, -⟩
      · rw [htakes] at hdata
        cases hdata
        exact congrArg Source.asked (EStateM.Result.ok.inj hlast).2
      · rw [hstops] at hdata
        cases hdata

theorem Passes.ne_nil (hpasses : Passes heap packet wire) : wire ≠ [] := by
  obtain ⟨data, rfl⟩ := hpasses.exists_cons
  exact List.cons_ne_nil _ _

/-! ## What has arrived of it -/

theorem TextFits.append_iff {length : Nat} {bytes : List Byte} (hlength : 2 * length ≤ bytes.length)
    (rest : List Byte) : TextFits length (bytes ++ rest) ↔ TextFits length bytes := by
  unfold TextFits
  rw [wordList_append_left hlength]

private theorem formatSpan_append {format : List Letter} {bytes : List Byte}
    (hlength : formatSpan format bytes ≤ bytes.length) (rest : List Byte) :
    formatSpan format (bytes ++ rest) = formatSpan format bytes := by
  induction format generalizing bytes with
  | nil => rfl
  | cons letter format ih =>
      by_cases htext : letter = .U
      · subst htext
        have htwo : 2 ≤ bytes.length := by
          rw [formatSpan] at hlength
          split_ifs at hlength <;> omega
        have hnumber := number_drop_append (Nat.zero_add 2 ▸ htwo : 0 + 2 ≤ bytes.length) rest
        rw [List.drop_zero, List.drop_zero] at hnumber
        rw [formatSpan] at hlength
        rw [formatSpan, formatSpan]
        rw [hnumber]
        split_ifs at hlength with hcount hfits
        · have hdrop : (bytes ++ rest).drop 2 = bytes.drop 2 ++ rest :=
            List.drop_append_of_le_length htwo
          have hunits : 2 * number 2 bytes ≤ (bytes.drop 2).length := by
            rw [List.length_drop]
            omega
          rw [if_pos hcount, if_pos hcount, if_pos hfits, hdrop,
            if_pos ((TextFits.append_iff hunits rest).mpr hfits),
            List.drop_append_of_le_length (by omega), ih]
          rw [List.length_drop]
          omega
        · have hdrop : (bytes ++ rest).drop 2 = bytes.drop 2 ++ rest :=
            List.drop_append_of_le_length htwo
          have hunits : 2 * number 2 bytes ≤ (bytes.drop 2).length := by
            rw [List.length_drop]
            omega
          rw [if_pos hcount, if_pos hcount, if_neg hfits, hdrop,
            if_neg (mt (TextFits.append_iff hunits rest).mp hfits)]
        · rw [if_neg hcount, if_neg hcount]
      · have hspan : ∀ bytes, formatSpan (letter :: format) bytes =
            letter.width + formatSpan format (bytes.drop letter.width) := by
          intro bytes
          cases letter <;> first | rfl | exact absurd rfl htext
        rw [hspan] at hlength
        rw [hspan, hspan, List.drop_append_of_le_length (by omega), ih]
        rw [List.length_drop]
        omega

private theorem itemsSpan_append {items : Nat} {bytes : List Byte}
    (hlength : itemsSpan items bytes ≤ bytes.length) (rest : List Byte) :
    itemsSpan items (bytes ++ rest) = itemsSpan items bytes := by
  induction items generalizing bytes with
  | zero => rfl
  | succ items ih =>
      have htwo : 0 + 2 ≤ bytes.length := by
        rw [itemsSpan] at hlength
        split_ifs at hlength <;> omega
      have hnumber := number_drop_append htwo rest
      rw [List.drop_zero, List.drop_zero] at hnumber
      rw [itemsSpan] at hlength
      rw [itemsSpan, itemsSpan, hnumber]
      split_ifs at hlength ⊢ with hnone
      · rw [List.drop_append_of_le_length (by omega), ih]
        rw [List.length_drop]
        omega
      · rw [List.drop_append_of_le_length (by omega), ih]
        rw [List.length_drop]
        omega

private theorem responseSpan_append {type : SVPacketType} {bytes : List Byte}
    (hlength : responseSpan type bytes ≤ bytes.length) (rest : List Byte) :
    responseSpan type (bytes ++ rest) = responseSpan type bytes := by
  cases type
  case spawnObject =>
    rw [responseSpan] at hlength
    rw [responseSpan, responseSpan, number_drop_append (by omega)]
  case mapChunk =>
    rw [responseSpan] at hlength
    rw [responseSpan, responseSpan, number_drop_append (by omega)]
  case multiBlockChange =>
    rw [responseSpan] at hlength
    rw [responseSpan, responseSpan, number_drop_append (by omega)]
  case explosion =>
    rw [responseSpan] at hlength
    rw [responseSpan, responseSpan, number_drop_append (by omega)]
  case setSlot =>
    rw [responseSpan] at hlength
    rw [responseSpan, responseSpan, number_drop_append (by omega)]
  case itemData =>
    rw [responseSpan] at hlength
    rw [responseSpan, responseSpan, number_drop_append (by omega)]
  case windowItems =>
    rw [responseSpan] at hlength
    rw [responseSpan, responseSpan, number_drop_append (by omega),
      List.drop_append_of_le_length (by omega), itemsSpan_append]
    rw [List.length_drop]
    omega
  all_goals exact formatSpan_append hlength rest

/-- The check answers from inside the buffer, and never that the bytes are no packet. -/
theorem exists_answer {type : SVPacketType} {first : Byte}
    (hfirst : SVPacketType.ofByte first = some type) (hmetadata : type ≠ .entityMetadata)
    (hmob : type ≠ .spawnMob) (rest : List Byte) :
    ∃ answer, (∀ rounds, packetParsable rounds (first :: rest) = some answer) ∧
      answer ≠ .outside ∧ answer ≠ .badSequence := by
  by_cases hlength : (first :: rest).length < packetLength type
  · exact ⟨_, packetParsable_of_short hfirst hlength, nofun, nofun⟩
  · obtain ⟨answer, hcomplete, houtside⟩ :=
      packetComplete_answers (not_lt.mp hlength) hmetadata hmob 0
    have hsame : ∀ rounds, packetComplete rounds (first :: rest) type = some answer := by
      intro rounds
      obtain ⟨answer', hcomplete', -⟩ :=
        packetComplete_answers (not_lt.mp hlength) hmetadata hmob rounds
      have hanswers : Answers (first :: rest) answer :=
        ⟨0, (packetParsable_of_type hfirst hlength 0).trans hcomplete⟩
      have hanswers' : Answers (first :: rest) answer' :=
        ⟨rounds, (packetParsable_of_type hfirst hlength rounds).trans hcomplete'⟩
      rw [hcomplete', answers_unique hanswers' hanswers]
    refine ⟨answer, fun rounds => ?_, houtside, ?_⟩
    · exact (packetParsable_of_type hfirst hlength rounds).trans (hsame rounds)
    · rintro rfl
      exact packetComplete_ne_badSequence hmetadata hmob 0 hcomplete

/-- On a buffer that is not torn, whether the check accepts is whether the decoder finds all it
asks for. -/
theorem parsable_iff_span {type : SVPacketType} {first : Byte} {rest : List Byte}
    {read : Remove SVResponse} (hfirst : SVPacketType.ofByte first = some type)
    (hread : responseDataFromBuffer heap type = some read) (hmetadata : type ≠ .entityMetadata)
    (hmob : type ≠ .spawnMob) (hwhole : ¬ Torn (first :: rest)) :
    Answers (first :: rest) .parsable ↔ 1 + responseSpan type rest ≤ (first :: rest).length := by
  rw [torn_cons hfirst] at hwhole
  exact (torn_iff heap hfirst (by rw [hread]; rfl) hmetadata hmob).mpr hwhole

/-- **A whole response is accepted**, whatever follows it. -/
theorem Passes.parsable (hpasses : Passes heap packet wire) {rest : List Byte}
    (hwhole : ¬ Torn (wire ++ rest)) (rounds : Nat) :
    packetParsable rounds (wire ++ rest) = some .parsable := by
  obtain ⟨data, read, hwire, hread, hspan⟩ := hpasses.reads
  have hlength := hspan rest
  subst hwire
  rw [List.cons_append] at hwhole ⊢
  have hfirst := SVPacketType.ofByte_value packet.type
  have hanswers := (parsable_iff_span hfirst hread hpasses.metadata hpasses.mob hwhole).mpr (by
    rw [hlength, ← List.cons_append, List.length_append]
    omega)
  obtain ⟨answer, hanswer, -⟩ :=
    exists_answer hfirst hpasses.metadata hpasses.mob (data ++ rest)
  rw [hanswer rounds, answers_unique ⟨0, hanswer 0⟩ hanswers]

/-- **A response that is not whole is waited for.** -/
theorem Passes.waits (hpasses : Passes heap packet wire) (happend : input ++ more = wire ++ later)
    (hshort : input.length < wire.length) (hsome : input ≠ []) (hwhole : ¬ Torn input) :
    ∃ low, ∀ rounds, packetParsable rounds input = some (.again low) := by
  obtain ⟨tail, rfl, -⟩ | ⟨tail, rfl, -⟩ := List.append_eq_append_iff.mp happend
  · obtain ⟨first, rest, rfl⟩ := List.exists_cons_of_ne_nil hsome
    obtain ⟨data, read, hwire, hread, hspan⟩ := hpasses.reads
    rw [List.cons_append, List.cons.injEq] at hwire
    obtain ⟨rfl, rfl⟩ := hwire
    have hfirst := SVPacketType.ofByte_value packet.type
    obtain ⟨answer, hanswer, houtside, hbad⟩ :=
      exists_answer hfirst hpasses.metadata hpasses.mob rest
    cases answer with
    | again low => exact ⟨low, hanswer⟩
    | outside => exact absurd rfl houtside
    | badSequence => exact absurd rfl hbad
    | parsable =>
        -- the decoder would find the same size in what has arrived
        exfalso
        have hle := (parsable_iff_span hfirst hread hpasses.metadata hpasses.mob hwhole).mp
          ⟨0, hanswer 0⟩
        have hsize := hspan []
        rw [List.append_nil, responseSpan_append (by rw [List.length_cons] at hle; omega)] at hsize
        omega
  · simp at hshort

end Craftd.Protocol
