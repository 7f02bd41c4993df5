import Craftd.Containers.StringSlice
import Craftd.Protocol.PacketLength
import Craftd.Protocol.Wire

/-!
# Wire strings in memory

`SV_BufferRemoveString16` once more, with the memory it asks for: the count of
units and the size of the output are an `SVShort`, every allocation is asked for
with such a size extended to `size_t`, and every byte is stored at an index
computed from it.  `bufferRemoveString16` is this function with the memory left
out (`bufferRemoveString16Stored_eq`).

A string that was sent comes back as it was sanitised.  Any other wire string
comes back with one character for each unit exactly when neither the count nor
the size outgrows the `SVShort`, and every unit has its own encoding.
-/

namespace Craftd.Protocol

open Craftd.Containers ByteReader

/-! ## The memory of a string -/

/-- `CD_malloc` and `CD_realloc` for a block that keeps what it held; `fill` is what the
new bytes hold.  A size that is negative as a signed number cannot be met. -/
def cdRealloc (fill : Byte) (block : List Byte) (size : BitVec 64) : Except Fault (List Byte) :=
  if size.toInt < 0 then .error .aborted
  else .ok (block.take size.toNat ++ List.replicate (size.toNat - block.length) fill)

/-- `block[index] = byte`. -/
def store (block : List Byte) (index : ℤ) (byte : Byte) : Except Fault (List Byte) :=
  if 0 ≤ index ∧ index < block.length then .ok (block.set index.toNat byte)
  else .error .undefined

/-- Several stores, one behind the other. -/
def storeAll (block : List Byte) (index : ℤ) : List Byte → Except Fault (List Byte)
  | [] => .ok block
  | byte :: rest => do
      let block ← store block index byte
      storeAll block (index + 1) rest

/-- The output of `SV_BufferRemoveString16`: the block `string` points at, and `size`. -/
structure Output where
  string : List Byte
  size : SVShort

/-- `string = CD_realloc(string, (size += n))` for `n` bytes, which are then stored from
`string[size - n]` on. -/
def Output.grow (fill : Byte) (output : Output) (bytes : List Byte) : Except Fault Output := do
  let size := output.size + BitVec.ofNat 16 bytes.length
  let string ← cdRealloc fill output.string (size.signExtend 64)
  let string ← storeAll string (size.toInt - bytes.length) bytes
  return ⟨string, size⟩

/-- One round of the loop over the units. -/
def Output.appendUnit (fill : Byte) (output : Output) (ch : BitVec 16) : Except Fault Output :=
  if ch = 0xfffd then output.grow fill [0x3F]
  else if ch < 0x80 then output.grow fill [ch.setWidth 8]
  else if ch < 0x800 then
    output.grow fill [((ch >>> 6) ||| 0xC0).setWidth 8, ((ch &&& 0x3F) ||| 0x80).setWidth 8]
  else if ch < 0xFFFF then
    output.grow fill [((ch >>> 12) ||| 0xE0).setWidth 8,
      (((ch >>> 6) &&& 0x3F) ||| 0x80).setWidth 8, ((ch &&& 0x3F) ||| 0x80).setWidth 8]
  else .ok output

/-- `SV_BufferRemoveString16` with its allocations and stores. -/
def bufferRemoveString16Stored (fill : Byte) : Remove SVString := do
  let length ← bufferRemoveShort
  -- `length * sizeof(int16_t)`, in `size_t`
  let room := length.signExtend 64 * 2
  let _ ← MonadExcept.ofExcept (cdRealloc 0 [] room)
  let data ← words 2 16 (room.toNat / 2)
  let output ← MonadExcept.ofExcept (data.foldlM (Output.appendUnit fill) ⟨[], 0⟩)
  let string ← MonadExcept.ofExcept
    (cdRealloc fill output.string ((output.size.signExtend 32 + 1).signExtend 64))
  let string ← MonadExcept.ofExcept (store string output.size.toInt 0)
  removedString (string.take output.size.toNat)

/-! ## The output grows by what the units take -/

/-- The output that holds some bytes. -/
def Output.holding (string : List Byte) : Output := ⟨string, BitVec.ofNat 16 string.length⟩

variable {fill : Byte} {string bytes : List Byte} {units : List (BitVec 16)}

theorem toInt_short {n : ℕ} (h : n ≤ 32767 + 3) :
    (BitVec.ofNat 16 n).toInt = if n ≤ 32767 then (n : ℤ) else n - 65536 := by
  have hmod : n % 2 ^ 16 = n := Nat.mod_eq_of_lt (by omega)
  rw [BitVec.toInt_eq_toNat_cond, BitVec.toNat_ofNat, hmod]
  split_ifs <;> omega

private theorem storeAll_fill (bytes : List Byte) (string : List Byte) :
    storeAll (string ++ List.replicate bytes.length fill) string.length bytes =
      .ok (string ++ bytes) := by
  induction bytes generalizing string with
  | nil => simp [storeAll]
  | cons byte rest ih =>
      have hstore : store (string ++ List.replicate (byte :: rest).length fill) string.length byte =
          .ok (string ++ [byte] ++ List.replicate rest.length fill) := by
        rw [store, if_pos (by simp)]
        simp [List.replicate_succ]
      have hindex : (string.length : ℤ) + 1 = (string ++ [byte]).length := by simp
      rw [storeAll, hstore, hindex]
      show storeAll _ _ rest = _
      rw [ih, List.append_assoc, List.singleton_append]

theorem toNat_of_toInt {w n : ℕ} {value : BitVec w} (h : value.toInt = n) : value.toNat = n := by
  have hlt := value.isLt
  rw [BitVec.toInt_eq_toNat_cond] at h
  split_ifs at h with hsmall
  · exact_mod_cast h
  · omega

theorem toInt_signExtend (size : SVShort) : (size.signExtend 64).toInt = size.toInt :=
  BitVec.toInt_signExtend_of_le (by decide)

/-- Some more bytes either fit, or their size is asked for as an enormous one. -/
theorem Output.grow_holding (hstring : string.length ≤ 32767) (hbytes : bytes.length ≤ 3) :
    (Output.holding string).grow fill bytes =
      if (string ++ bytes).length ≤ 32767 then .ok (Output.holding (string ++ bytes))
      else .error .aborted := by
  have hsize : (Output.holding string).size + BitVec.ofNat 16 bytes.length =
      BitVec.ofNat 16 (string ++ bytes).length := by
    rw [List.length_append, BitVec.ofNat_add]
    rfl
  have htotal : (string ++ bytes).length = string.length + bytes.length := List.length_append
  have hint := toInt_short (show (string ++ bytes).length ≤ 32767 + 3 by omega)
  unfold Output.grow
  simp only [hsize]
  split_ifs with hfit
  · rw [if_pos hfit] at hint
    have hnat : ((BitVec.ofNat 16 (string ++ bytes).length).signExtend 64).toNat =
        (string ++ bytes).length := by
      apply toNat_of_toInt
      rw [toInt_signExtend, hint]
    have hrealloc : cdRealloc fill (Output.holding string).string
        ((BitVec.ofNat 16 (string ++ bytes).length).signExtend 64) =
          .ok (string ++ List.replicate bytes.length fill) := by
      rw [cdRealloc, toInt_signExtend, hint, if_neg (by omega), hnat, htotal]
      simp [Output.holding]
    have hindex : ((string ++ bytes).length : ℤ) - bytes.length = string.length := by omega
    rw [hrealloc, hint, hindex]
    show (storeAll _ _ bytes >>= _) = _
    rw [storeAll_fill]
    rfl
  · rw [if_neg hfit] at hint
    rw [cdRealloc, toInt_signExtend, hint, if_pos (by omega)]
    rfl

private theorem length_utf8OfUnit_le (ch : BitVec 16) : (utf8OfUnit ch).length ≤ 3 := by
  unfold utf8OfUnit
  split_ifs <;> simp

/-- A round writes what the unit takes; for the unit 0xFFFF it does nothing. -/
theorem Output.appendUnit_eq (fill : Byte) (output : Output) (ch : BitVec 16) :
    output.appendUnit fill ch =
      if utf8OfUnit ch = [] then .ok output else output.grow fill (utf8OfUnit ch) := by
  unfold Output.appendUnit utf8OfUnit
  split_ifs <;> simp_all

/-- **One round** appends what the unit takes, if it fits. -/
theorem Output.appendUnit_holding (hstring : string.length ≤ 32767) (ch : BitVec 16) :
    (Output.holding string).appendUnit fill ch =
      if (string ++ utf8OfUnit ch).length ≤ 32767 then
        .ok (Output.holding (string ++ utf8OfUnit ch))
      else .error .aborted := by
  rw [Output.appendUnit_eq]
  by_cases hnothing : utf8OfUnit ch = []
  · rw [if_pos hnothing, hnothing, List.append_nil, if_pos hstring]
  · rw [if_neg hnothing, Output.grow_holding hstring (length_utf8OfUnit_le ch)]

/-- **The loop** appends what all units take, if that fits. -/
theorem Output.foldlM_holding (hstring : string.length ≤ 32767) (units : List (BitVec 16)) :
    units.foldlM (Output.appendUnit fill) (Output.holding string) =
      if (string ++ units.flatMap utf8OfUnit).length ≤ 32767 then
        .ok (Output.holding (string ++ units.flatMap utf8OfUnit))
      else .error .aborted := by
  induction units generalizing string with
  | nil =>
      rw [List.flatMap_nil, List.append_nil, if_pos hstring]
      rfl
  | cons ch rest ih =>
      rw [List.foldlM_cons, Output.appendUnit_holding hstring, List.flatMap_cons,
        ← List.append_assoc]
      by_cases hfit : (string ++ utf8OfUnit ch).length ≤ 32767
      · rw [if_pos hfit]
        exact ih hfit
      · have hover : ¬ (string ++ utf8OfUnit ch ++ rest.flatMap utf8OfUnit).length ≤ 32767 := by
          rw [List.length_append]
          omega
        rw [if_neg hfit, if_neg hover]
        rfl

/-! ## The function with its memory -/

theorem bind_ofExcept_ok {Value Value' : Type} {value : Value} (next : Value → Remove Value') :
    (MonadExcept.ofExcept (Except.ok value : Except Fault Value) >>= next) = next value := rfl

theorem bind_ofExcept_error {Value Value' : Type} {fault : Fault} (next : Value → Remove Value') :
    (MonadExcept.ofExcept (Except.error fault : Except Fault Value) >>= next) = throw fault := rfl

/-- The room for the units, `length * sizeof(int16_t)`, is negative when the length is. -/
theorem toInt_room (length : SVShort) :
    (length.signExtend 64 * 2).toInt = 2 * length.toInt := by
  have hlow : -(2 ^ 15 : ℤ) ≤ length.toInt := BitVec.le_toInt length
  have hhigh : length.toInt < 2 ^ 15 := BitVec.toInt_lt
  rw [BitVec.toInt_mul, toInt_signExtend]
  show (length.toInt * 2).bmod (2 ^ 64) = _
  rw [Int.bmod_eq_of_le (by omega) (by omega), Int.mul_comm]

private theorem toInt_sizeSucc {n : ℕ} (h : n ≤ 32767) :
    (((BitVec.ofNat 16 n).signExtend 32 + 1).signExtend 64).toInt = (n + 1 : ℕ) := by
  have hint := toInt_short (Nat.le_add_right_of_le h)
  rw [if_pos h] at hint
  have hextend : ((BitVec.ofNat 16 n).signExtend 32).toInt = n := by
    rw [BitVec.toInt_signExtend_of_le (by decide), hint]
  rw [BitVec.toInt_signExtend_of_le (by decide), BitVec.toInt_add, hextend]
  show ((n : ℤ) + 1).bmod (2 ^ 32) = _
  rw [Int.bmod_eq_of_le (by omega) (by omega)]
  rfl

private theorem terminate_holding (hstring : string.length ≤ 32767) :
    cdRealloc fill string (((BitVec.ofNat 16 string.length).signExtend 32 + 1).signExtend 64) =
      .ok (string ++ [fill]) ∧
    store (string ++ [fill]) (BitVec.ofNat 16 string.length).toInt 0 = .ok (string ++ [0]) := by
  have hint := toInt_short (Nat.le_add_right_of_le hstring)
  rw [if_pos hstring] at hint
  have hsucc := toInt_sizeSucc hstring
  constructor
  · rw [cdRealloc, hsucc, if_neg (by omega), toNat_of_toInt hsucc]
    simp
  · rw [store, hint, if_pos (by simp)]
    simp

/-- **Nothing is lost by leaving the memory out.** -/
theorem bufferRemoveString16Stored_eq (fill : Byte) :
    bufferRemoveString16Stored fill = bufferRemoveString16 := by
  unfold bufferRemoveString16Stored bufferRemoveString16
  congr 1
  funext length
  dsimp only
  have hroom := toInt_room length
  by_cases hneg : length.toInt < 0
  · rw [if_pos hneg, cdRealloc, if_pos (by omega), bind_ofExcept_error]
  · obtain ⟨-, hlength⟩ := toNat_of_not_neg hneg
    have hcount : (length.signExtend 64 * 2).toNat / 2 = length.toNat := by
      have hnat : (length.signExtend 64 * 2).toNat = 2 * length.toNat := by
        apply toNat_of_toInt
        rw [hroom, hlength]
        push_cast
        rfl
      omega
    rw [if_neg hneg, cdRealloc, if_neg (by omega), bind_ofExcept_ok, hcount]
    congr 1
    funext data
    have hloop : data.foldlM (Output.appendUnit fill) (Output.holding []) = _ :=
      Output.foldlM_holding (by decide) data
    rw [List.nil_append] at hloop
    have hstart : (⟨[], 0⟩ : Output) = Output.holding [] := rfl
    rw [hstart, hloop]
    by_cases hfit : (data.flatMap utf8OfUnit).length ≤ 32767
    · have hterminate : cdRealloc fill (data.flatMap utf8OfUnit) _ = _ ∧ _ :=
        terminate_holding hfit
      obtain ⟨hrealloc, hstore⟩ := hterminate
      rw [if_pos hfit, if_neg (Nat.not_lt.mpr hfit), bind_ofExcept_ok]
      show (MonadExcept.ofExcept (cdRealloc fill (data.flatMap utf8OfUnit) _) >>= _) = _
      rw [Output.holding, hrealloc, bind_ofExcept_ok, hstore, bind_ofExcept_ok]
      have hsize : (BitVec.ofNat 16 (data.flatMap utf8OfUnit).length).toNat =
          (data.flatMap utf8OfUnit).length := by
        rw [BitVec.toNat_ofNat]
        exact Nat.mod_eq_of_lt (by omega)
      rw [hsize, List.take_left]
    · rw [if_neg hfit, if_pos (Nat.not_le.mp hfit), bind_ofExcept_error]

/-! ## What is decoded -/

theorem bufferRemoveString16_run (hunits : units.length < 0x10000) (rest : List Byte) :
    bufferRemoveString16
        ⟨BigEndian.toBytes 2 units.length ++ wordBytes 2 units ++ rest, 0⟩ =
      if 32767 < units.length then .error .aborted ⟨wordBytes 2 units ++ rest, 2⟩
      else if 32767 < (units.flatMap utf8OfUnit).length then
        .error .aborted ⟨rest, 2 + 2 * units.length⟩
      else removedString (units.flatMap utf8OfUnit) ⟨rest, 2 + 2 * units.length⟩ := by
  have hnat : (BitVec.ofNat 16 units.length).toNat = units.length := by
    rw [BitVec.toNat_ofNat]
    exact Nat.mod_eq_of_lt hunits
  have hint : (BitVec.ofNat 16 units.length).toInt < 0 ↔ 32767 < units.length := by
    rw [BitVec.toInt_eq_toNat_cond, hnat]
    split_ifs <;> omega
  have hshort : bufferRemoveShort
      ⟨BigEndian.toBytes 2 units.length ++ wordBytes 2 units ++ rest, 0⟩ =
        .ok (BitVec.ofNat 16 units.length) ⟨wordBytes 2 units ++ rest, 2⟩ := by
    have hread : Reads bufferRemoveShort _ _ :=
      Reads.word (rfl : 16 = 8 * 2) (BitVec.ofNat 16 units.length)
    rw [hnat] at hread
    rw [List.append_assoc, hread, BigEndian.length_toBytes, Nat.zero_add]
  unfold bufferRemoveString16
  rw [bind_ok hshort]
  by_cases hcount : 32767 < units.length
  · rw [if_pos hcount, if_pos (hint.mpr hcount)]
    rfl
  · have hwords : Reads (words 2 16 units.length : Remove (List (BitVec 16))) _ _ :=
      Reads.words (rfl : 16 = 8 * 2) units
    rw [if_neg hcount, if_neg (mt hint.mp hcount), hnat, bind_ok (hwords rest 2), length_wordBytes]
    split_ifs
    · rfl
    · rfl

/-- The UTF-8 encoding of a unit's own code. -/
def utf8OfCode (unit : BitVec 16) : List Byte :=
  let v := unit.toNat
  if v < 0x80 then [.ofNat 8 v]
  else if v < 0x800 then [.ofNat 8 (0xC0 + v / 64), .ofNat 8 (0x80 + v % 64)]
  else [.ofNat 8 (0xE0 + v / 4096), .ofNat 8 (0x80 + v / 64 % 64), .ofNat 8 (0x80 + v % 64)]

/-- The same with the code's own choice for the replacement character, a question mark. -/
def utf8OfMarkedCode (unit : BitVec 16) : List Byte :=
  if unit = 0xFFFD then [0x3F] else utf8OfCode unit

private theorem leadCode2 {high : ℕ} (h : high < 32) :
    ((BitVec.ofNat 16 high ||| 0xC0).setWidth 8 : Byte) = .ofNat 8 (0xC0 + high) := by
  revert high
  decide

private theorem leadCode3 {high : ℕ} (h : high < 16) :
    ((BitVec.ofNat 16 high ||| 0xE0).setWidth 8 : Byte) = .ofNat 8 (0xE0 + high) := by
  revert high
  decide

theorem tailCode {low : ℕ} (h : low < 64) :
    ((BitVec.ofNat 16 low ||| 0x80).setWidth 8 : Byte) = .ofNat 8 (0x80 + low) := by
  revert low
  decide

theorem shiftRight_eq (unit : BitVec 16) (n : ℕ) :
    unit >>> n = BitVec.ofNat 16 (unit.toNat / 2 ^ n) := by
  apply BitVec.eq_of_toNat_eq
  have hle : unit.toNat / 2 ^ n ≤ unit.toNat := Nat.div_le_self _ _
  have hlt := unit.isLt
  rw [BitVec.toNat_ushiftRight, Nat.shiftRight_eq_div_pow, BitVec.toNat_ofNat,
    Nat.mod_eq_of_lt (by omega)]

theorem low6_eq (unit : BitVec 16) : unit &&& 0x3F = BitVec.ofNat 16 (unit.toNat % 64) := by
  apply BitVec.eq_of_toNat_eq
  have hlt : unit.toNat % 64 < 64 := Nat.mod_lt _ (by decide)
  rw [BitVec.toNat_and, BitVec.toNat_ofNat, Nat.mod_eq_of_lt (by omega)]
  exact Nat.and_two_pow_sub_one_eq_mod unit.toNat 6

/-- Two units have no encoding of their own: the replacement mark and 0xFFFF. -/
theorem utf8OfUnit_eq {unit : BitVec 16} (hmark : unit ≠ 0xFFFD) (hlast : unit ≠ 0xFFFF) :
    utf8OfUnit unit = utf8OfCode unit := by
  have hlt := unit.isLt
  have hone : unit < 0x80 ↔ unit.toNat < 0x80 := Iff.rfl
  have htwo : unit < 0x800 ↔ unit.toNat < 0x800 := Iff.rfl
  have hthree : unit < 0xFFFF := by
    by_contra hnot
    exact hlast (eq_last_of_not_lt hnot)
  unfold utf8OfUnit utf8OfCode
  simp only [if_neg hmark, hone, htwo, if_pos hthree]
  split_ifs with hsmall hmiddle
  · rfl
  · rw [shiftRight_eq, low6_eq, leadCode2 (by omega), tailCode (Nat.mod_lt _ (by decide))]
    rfl
  · have hshift : (BitVec.ofNat 16 (unit.toNat / 2 ^ 6)).toNat = unit.toNat / 64 := by
      rw [BitVec.toNat_ofNat, Nat.mod_eq_of_lt (by omega)]
      rfl
    rw [shiftRight_eq, shiftRight_eq, low6_eq, low6_eq, hshift, leadCode3 (by omega),
      tailCode (Nat.mod_lt _ (by decide)), tailCode (Nat.mod_lt _ (by decide))]
    rfl

/-- A transcoding that the output is compared with: the output of a unit is this or, for a
unit that is lost, shorter. -/
structure Transcoding (code : BitVec 16 → List Byte) (lost : BitVec 16 → Prop) : Prop where
  kept : ∀ {unit}, ¬ lost unit → utf8OfUnit unit = code unit
  shorter : ∀ {unit}, lost unit → (utf8OfUnit unit).length < (code unit).length
  last : lost 0xFFFF

private theorem transcoding_utf8OfCode :
    Transcoding utf8OfCode fun unit => unit = 0xFFFD ∨ unit = 0xFFFF where
  kept hkept := utf8OfUnit_eq (fun h => hkept (.inl h)) fun h => hkept (.inr h)
  shorter hlost := by rcases hlost with rfl | rfl <;> decide
  last := .inr rfl

private theorem transcoding_utf8OfMarkedCode : Transcoding utf8OfMarkedCode (· = 0xFFFF) where
  kept {unit} hkept := by
    by_cases hmark : unit = 0xFFFD
    · subst hmark
      rfl
    · rw [utf8OfMarkedCode, if_neg hmark, utf8OfUnit_eq hmark hkept]
  shorter hlost := by
    subst hlost
    decide
  last := rfl

variable {code : BitVec 16 → List Byte} {lost : BitVec 16 → Prop}

/-- The output is the transcoding when no unit is lost, and is shorter otherwise. -/
theorem Transcoding.flatMap_eq (h : Transcoding code lost) (units : List (BitVec 16)) :
    (units.flatMap utf8OfUnit).length ≤ (units.flatMap code).length ∧
      (units.flatMap utf8OfUnit = units.flatMap code ↔ ∀ unit ∈ units, ¬ lost unit) := by
  induction units with
  | nil => simp
  | cons unit rest ih =>
      obtain ⟨hle, hiff⟩ := ih
      rw [List.flatMap_cons, List.flatMap_cons, List.length_append, List.length_append,
        List.forall_mem_cons, ← hiff]
      by_cases hlost : lost unit
      · have hlt := h.shorter hlost
        refine ⟨by omega, fun heq => ?_, fun hboth => absurd hlost hboth.1⟩
        have hlengths := congrArg List.length heq
        rw [List.length_append, List.length_append] at hlengths
        omega
      · rw [h.kept hlost]
        refine ⟨Nat.add_le_add_left hle _, fun heq => ?_, fun hboth => by rw [hboth.2]⟩
        exact ⟨hlost, List.append_cancel_left heq⟩

private theorem utf8Strnlen_flatten_append {chars : List (List Byte)} (h : ∀ ch ∈ chars, IsChar ch)
    (rest : List Byte) :
    utf8Strnlen (chars.flatten ++ rest) = (utf8Strnlen rest).map (· + chars.length) := by
  induction chars with
  | nil => simp
  | cons ch chars ih =>
      rw [List.flatten_cons, List.append_assoc, utf8Strnlen_char_append (h ch (.head _)),
        ih fun other hmem => h other (.tail _ hmem), Option.map_map]
      rfl

/-- The characters that are counted stand in front of the first NUL. -/
theorem utf8Strnlen_units {before : List (BitVec 16)}
    (hbefore : ∀ unit ∈ before, unit ≠ 0 ∧ unit ≠ 0xFFFF) (rest : List Byte) :
    utf8Strnlen (before.flatMap utf8OfUnit ++ rest) =
      (utf8Strnlen rest).map (· + before.length) := by
  have hchars : ∀ ch ∈ before.map utf8OfUnit, IsChar ch := by
    intro ch hmem
    obtain ⟨unit, hunit, rfl⟩ := List.mem_map.mp hmem
    exact isChar_utf8OfUnit (hbefore unit hunit).1 (hbefore unit hunit).2
  rw [List.flatMap_def, utf8Strnlen_flatten_append hchars, List.length_map]

/-- The whole wire string is taken, and comes back transcoded, one character for each unit. -/
def DecodedAs (fill : Byte) (units : List (BitVec 16)) (rest : List Byte)
    (code : BitVec 16 → List Byte) : Prop :=
  ∃ string, bufferRemoveString16Stored fill
      ⟨BigEndian.toBytes 2 units.length ++ wordBytes 2 units ++ rest, 0⟩ =
        .ok string ⟨rest, 2 + 2 * units.length⟩ ∧
    string.content = units.flatMap code ∧ string.length = units.length

theorem Transcoding.decodedAs_iff (h : Transcoding code lost) (hunits : units.length < 0x10000)
    (fill : Byte) (rest : List Byte) :
    DecodedAs fill units rest code ↔
      units.length ≤ 32767 ∧ (units.flatMap code).length ≤ 32767 ∧
        ∀ unit ∈ units, unit ≠ 0 ∧ ¬ lost unit := by
  obtain ⟨hle, hsame⟩ := h.flatMap_eq units
  rw [DecodedAs, bufferRemoveString16Stored_eq, bufferRemoveString16_run hunits rest]
  constructor
  · rintro ⟨string, hrun, hcontent, hlength⟩
    split_ifs at hrun with hcount hsize
    have hdecoded : string.content = units.flatMap utf8OfUnit := by
      unfold removedString at hrun
      cases hcreate : createStringFromBuffer (units.flatMap utf8OfUnit) with
      | none =>
          rw [hcreate] at hrun
          cases hrun
      | some created =>
          rw [hcreate] at hrun
          cases hrun
          exact content_of_createStringFromBuffer hcreate
    have hplain := hsame.mp (hdecoded.symm.trans hcontent)
    refine ⟨Nat.not_lt.mp hcount, ?_, ?_⟩
    · rw [← hcontent, hdecoded]
      exact Nat.not_lt.mp hsize
    · intro unit hmem
      refine ⟨?_, hplain unit hmem⟩
      rintro rfl
      -- the count of the characters would have stopped at the NUL
      obtain ⟨before, after, rfl, hbefore⟩ := List.eq_append_cons_of_mem hmem
      have hfirst : ∀ unit ∈ before, unit ≠ 0 ∧ unit ≠ 0xFFFF := fun unit hunit =>
        ⟨fun hzero => hbefore (hzero ▸ hunit), fun hlast =>
          hplain unit (List.mem_append_left _ hunit) (hlast ▸ h.last)⟩
      have hstop : utf8Strnlen ((0 :: after).flatMap utf8OfUnit) = some 0 := rfl
      have hcounted := string.hlength
      rw [hdecoded, List.flatMap_append, utf8Strnlen_units hfirst, hstop, hlength,
        List.length_append, List.length_cons, Option.map_some] at hcounted
      have := Option.some.inj hcounted
      omega
  · rintro ⟨hcount, hsize, hplain⟩
    have heq := hsame.mpr fun unit hmem => (hplain unit hmem).2
    have hcounted : utf8Strnlen (units.flatMap code) = some units.length := by
      have hchars : ∀ unit ∈ units, unit ≠ 0 ∧ unit ≠ 0xFFFF := fun unit hmem =>
        ⟨(hplain unit hmem).1, fun hlast => (hplain unit hmem).2 (hlast ▸ h.last)⟩
      have hunits := utf8Strnlen_units hchars []
      rw [List.append_nil, heq] at hunits
      rw [hunits]
      simp [utf8Strnlen, utf8StrnlenFrom]
    let string : SVString := ⟨units.flatMap code, units.length, hcounted⟩
    have hremoved : Reads (removedString string.content) [] string := reads_removedString
    refine ⟨string, ?_, rfl, rfl⟩
    rw [if_neg (Nat.not_lt.mpr hcount), heq, if_neg (Nat.not_lt.mpr hsize)]
    exact hremoved rest (2 + 2 * units.length)

/-- **What decoding a wire string does.**  It takes the whole string and returns the UTF-8 of
its units, with one character for each, exactly when `SVShort`s can count the units and the
bytes of the output, and every unit has its own encoding and is no NUL.  The question mark for
the replacement character is the code's choice; with it, only the last of the codes is lost. -/
theorem string16_decoded_iff (hunits : units.length < 0x10000) (fill : Byte) (rest : List Byte) :
    (DecodedAs fill units rest utf8OfCode ↔
      units.length ≤ 32767 ∧ (units.flatMap utf8OfCode).length ≤ 32767 ∧
        ∀ unit ∈ units, unit ≠ 0 ∧ unit ≠ 0xFFFD ∧ unit ≠ 0xFFFF) ∧
    (DecodedAs fill units rest utf8OfMarkedCode ↔
      units.length ≤ 32767 ∧ (units.flatMap utf8OfMarkedCode).length ≤ 32767 ∧
        ∀ unit ∈ units, unit ≠ 0 ∧ unit ≠ 0xFFFF) := by
  refine ⟨?_, transcoding_utf8OfMarkedCode.decodedAs_iff hunits fill rest⟩
  rw [transcoding_utf8OfCode.decodedAs_iff hunits fill rest]
  simp only [not_or, ne_eq]

theorem string16_decoded_iff_mixed :
    ∃ units : List (BitVec 16), units = [0x41, 0xE9, 0x2302] ∧
      DecodedAs 0 units [7] utf8OfCode ∧
      ∃ units : List (BitVec 16), units = [0x41, 0xFFFD, 0x2302] ∧
        DecodedAs 0 units [7] utf8OfMarkedCode :=
  ⟨_, rfl, (string16_decoded_iff (by decide) 0 [7]).1.mpr ⟨by decide, by decide, by simp⟩,
    _, rfl, (string16_decoded_iff (by decide) 0 [7]).2.mpr ⟨by decide, by decide, by simp⟩⟩

/-- A handshake packet of some units. -/
def handshakeOf (units : List (BitVec 16)) : List Byte :=
  0x02 :: (BigEndian.toBytes 2 units.length ++ wordBytes 2 units)

theorem answers_handshakeOf (hunits : units.length < 0x10000) :
    Answers (handshakeOf units) .parsable := by
  have hlength : (handshakeOf units).length = 3 + 2 * units.length := by
    rw [handshakeOf, List.length_cons, List.length_append, BigEndian.length_toBytes,
      length_wordBytes]
    omega
  have htype : SVPacketType.ofByte 0x02 = some .handshake := rfl
  have hcount : number 2 ((handshakeOf units).drop 1) = units.length := by
    rw [handshakeOf, List.drop_succ_cons, List.drop_zero,
      number_append (BigEndian.length_toBytes 2 _), BigEndian.ofBytes_toBytes]
    exact Nat.mod_eq_of_lt hunits
  refine ⟨0, ?_⟩
  have hmin : packetLength .handshake = 3 := rfl
  rw [handshakeOf, packetParsable_of_type htype (by rw [← handshakeOf, hlength, hmin]; omega),
    ← handshakeOf, packetComplete]
  rw [peek, if_pos (by omega), hcount, check, if_neg (by rw [hlength, hmin]; omega)]

theorem bufferRemoveString16_handshakeOf (hunits : units.length < 0x10000) (fill : Byte) :
    bufferRemoveString16Stored fill ⟨(handshakeOf units).drop 1, 0⟩ =
      if 32767 < units.length then .error .aborted ⟨wordBytes 2 units, 2⟩
      else if 32767 < (units.flatMap utf8OfUnit).length then
        .error .aborted ⟨[], 2 + 2 * units.length⟩
      else removedString (units.flatMap utf8OfUnit) ⟨[], 2 + 2 * units.length⟩ := by
  have hrun := bufferRemoveString16_run hunits []
  rw [List.append_nil, List.append_nil] at hrun
  rw [bufferRemoveString16Stored_eq]
  exact hrun

/-- Two accepted handshakes end the process: 32768 units, whose count is negative, and 10923
units of three bytes each, whose size becomes negative.  The unit 0xFFFF is dropped. -/
theorem string16_aborts :
    (Answers (handshakeOf (List.replicate 32768 0x41)) .parsable ∧
      ∃ source, bufferRemoveString16Stored 0
        ⟨(handshakeOf (List.replicate 32768 0x41)).drop 1, 0⟩ = .error .aborted source) ∧
    (Answers (handshakeOf (List.replicate 10923 0x2302)) .parsable ∧
      ∃ source, bufferRemoveString16Stored 0
        ⟨(handshakeOf (List.replicate 10923 0x2302)).drop 1, 0⟩ = .error .aborted source) ∧
    Answers (handshakeOf [0xFFFF]) .parsable ∧
      ∃ string source, bufferRemoveString16Stored 0 ⟨(handshakeOf [0xFFFF]).drop 1, 0⟩ =
        .ok string source ∧ string.length = 0 := by
  have hmany (n : Nat) (unit : BitVec 16) (hn : n < 0x10000) :
      (List.replicate n unit).length < 0x10000 := List.length_replicate.trans_lt hn
  refine ⟨⟨answers_handshakeOf (hmany _ _ (by decide)), ?_⟩,
    ⟨answers_handshakeOf (hmany _ _ (by decide)), ?_⟩, answers_handshakeOf (by decide), ?_⟩
  · have hcount : 32767 < (List.replicate 32768 (0x41 : BitVec 16)).length := by
      rw [List.length_replicate]
      decide
    rw [bufferRemoveString16_handshakeOf (hmany _ _ (by decide)), if_pos hcount]
    exact ⟨_, rfl⟩
  · have hcount : ¬ 32767 < (List.replicate 10923 (0x2302 : BitVec 16)).length := by
      rw [List.length_replicate]
      decide
    have hsize :
        32767 < ((List.replicate 10923 (0x2302 : BitVec 16)).flatMap utf8OfUnit).length := by
      have hthree : (utf8OfUnit 0x2302).length = 3 := by decide
      rw [List.length_flatMap, List.map_replicate, List.sum_replicate, hthree]
      decide
    rw [bufferRemoveString16_handshakeOf (hmany _ _ (by decide)), if_neg hcount, if_pos hsize]
    exact ⟨_, rfl⟩
  · rw [bufferRemoveString16_handshakeOf (by decide), if_neg (by decide), if_neg (by decide)]
    exact ⟨⟨[], 0, rfl⟩, _, rfl, rfl⟩

/-! ## What was sent comes back -/

variable {text : List Char}

/-- **String16 codec.**  What is sent for a text is read back as the sanitised text, whatever
follows it. -/
theorem string16_round_trip (hnul : Char.ofNat 0 ∉ text) {sent : SVString}
    (hcreate : createStringFromBuffer (utf8Text text) = some sent) (fill : Byte) :
    ∃ sanitized, svStringSanitize sent = some sanitized ∧
      (sanitized.size ≤ 32767 → ∃ wire, bufferAddString16 sent = .ok wire ∧
        ∀ rest asked, bufferRemoveString16Stored fill ⟨wire ++ rest, asked⟩ =
          .ok sanitized ⟨rest, asked + wire.length⟩) := by
  have hchars := isChar_of_mem_utf8Chars hnul
  have hcontent : sent.content = (utf8Chars text).flatten :=
    content_of_createStringFromBuffer hcreate
  obtain ⟨sanitized, hsanitize, hresult, -⟩ := svStringSanitize_flatten hchars hcontent
  refine ⟨sanitized, hsanitize, fun hsize => ⟨_, bufferAddString16_flatten hchars hcontent, ?_⟩⟩
  have hkept : ∀ ch ∈ sanitizeChars (utf8Chars text), IsKept ch :=
    fun ch hmem => isKept_of_mem_sanitizeChars hmem
  have hwire := string16Wire_of_kept hkept hresult hsize
  intro rest asked
  rw [bufferRemoveString16Stored_eq]
  exact reads_bufferRemoveString16 hwire hsize rest asked

theorem string16_round_trip_mixed :
    ∃ sent sanitized wire, createStringFromBuffer (utf8Text ['ñ', '§', '2', 'ł']) = some sent ∧
      svStringSanitize sent = some sanitized ∧ sanitized.content = utf8Text ['ñ', '§', '2', '?'] ∧
      bufferAddString16 sent = .ok wire ∧
      ∀ rest asked, bufferRemoveString16Stored 0 ⟨wire ++ rest, asked⟩ =
        .ok sanitized ⟨rest, asked + wire.length⟩ := by
  have hnul : Char.ofNat 0 ∉ ['ñ', '§', '2', 'ł'] := by decide
  have hchars := isChar_of_mem_utf8Chars hnul
  obtain ⟨sent, hcreate, hcontent, -⟩ := createStringFromBuffer_flatten hchars
  obtain ⟨sanitized, hsanitize, hround⟩ := string16_round_trip hnul hcreate 0
  have hsanitized : sanitized.content = utf8Text ['ñ', '§', '2', '?'] := by
    rw [svStringSanitize_eq hchars hcontent] at hsanitize
    rw [content_of_createStringFromBuffer hsanitize]
    decide +kernel
  have hsize : sanitized.size ≤ 32767 := by
    rw [CDString.size, hsanitized]
    decide
  obtain ⟨wire, hadd, hread⟩ := hround hsize
  exact ⟨sent, sanitized, wire, hcreate, hsanitize, hsanitized, hadd, hread⟩

end Craftd.Protocol
