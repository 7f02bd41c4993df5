import Craftd.Library.ByteReader
import Craftd.Protocol.Text

/-!
# Typed fields in buffers

A translation of the survival protocol's `Buffer.c`.  A format string is a list of
letters; the arguments of a call with that format are a value of `Fields`.

The `SV_BufferRemove…` functions are readers of the input buffer
(`evbuffer_remove` is `ByteReader.word`, `words` or `remove`), the
`SV_BufferAdd…` functions return the bytes they append.  Sizes that turn
negative reach `CD_malloc` or `CD_realloc` as enormous ones and end the process.
-/

namespace Craftd.Protocol

open Craftd.Containers ByteReader

/-- A function that takes its result out of an input buffer. -/
abbrev Remove (Value : Type) := Reader Fault Value

/-- A letter of a format string. -/
inductive Letter
  | b
  | s
  | i
  | l
  | f
  | d
  | B
  | S
  | U
  | M
  deriving DecidableEq, Repr

/-- What a letter stands for. -/
abbrev Letter.Field : Letter → Type
  | .b => SVByte
  | .s => SVShort
  | .i => SVInteger
  | .l => SVLong
  | .f => SVFloat
  | .d => SVDouble
  | .B => SVBoolean
  | .S => SVString
  | .U => SVString
  | .M => SVMetadata

/-- The arguments that go with a format string. -/
abbrev Fields : List Letter → Type
  | [] => Unit
  | letter :: rest => letter.Field × Fields rest

/-! ## Removing -/

/-- `SV_BufferRemoveBoolean`. -/
def bufferRemoveBoolean : Remove SVBoolean := word 1 8

/-- `SV_BufferRemoveByte`. -/
def bufferRemoveByte : Remove SVByte := word 1 8

/-- `SV_BufferRemoveShort`. -/
def bufferRemoveShort : Remove SVShort := word 2 16

/-- `SV_BufferRemoveInteger`. -/
def bufferRemoveInteger : Remove SVInteger := word 4 32

/-- `SV_BufferRemoveLong`. -/
def bufferRemoveLong : Remove SVLong := word 8 64

/-- `SV_BufferRemoveFloat`. -/
def bufferRemoveFloat : Remove SVFloat := word 4 32

/-- `SV_BufferRemoveDouble`. -/
def bufferRemoveDouble : Remove SVDouble := word 8 64

/-- `CD_CreateStringFromBuffer`, as the last step of a removal. -/
def removedString (content : List Byte) : Remove SVString :=
  match createStringFromBuffer content with
  | none => throw .hangs
  | some string => pure string

/-- `SV_BufferRemoveString`.  The NUL behind the data counts as content. -/
def bufferRemoveString : Remove SVString := do
  let length ← bufferRemoveShort
  if length.toInt < -1 then throw .aborted
  -- a length of -1 allocates nothing and then copies the whole buffer there
  else if length.toInt = -1 then throw .undefined
  else
    let data ← remove length.toNat
    -- bytes that have not arrived are whatever the allocation held
    if data.length < length.toNat then throw .undefined
    else removedString (data ++ [0])

/-- `SV_BufferRemoveString16`. -/
def bufferRemoveString16 : Remove SVString := do
  let length ← bufferRemoveShort
  if length.toInt < 0 then throw .aborted
  else
    let data ← words 2 16 length.toNat
    let string := data.flatMap utf8OfUnit
    -- `size` is an `SVShort`
    if 32767 < string.length then throw .aborted
    else removedString string

/-- The union behind a metadata item's header byte; `formats` has five entries. -/
def bufferRemoveData (header : SVByte) : Remove SVData :=
  match (header.sshiftRight 5).toNat with
  | 0 => do return .b (← bufferRemoveByte)
  | 1 => do return .s (← bufferRemoveShort)
  | 2 => do return .i (← bufferRemoveInteger)
  | 3 => do return .f (← bufferRemoveFloat)
  | 4 => do return .S (← bufferRemoveString)
  | 5 => do return .sbs (← bufferRemoveShort) (← bufferRemoveByte) (← bufferRemoveShort)
  | 6 => do return .iii (← bufferRemoveInteger) (← bufferRemoveInteger) (← bufferRemoveInteger)
  | _ => throw .undefined

/-- The loop of `SV_BufferRemoveMetadata`, which takes a byte in every round and so
makes at most as many rounds as there are bytes. -/
def removeMetadataLoop : Nat → Remove SVMetadata
  | 0 => pure []
  | rounds + 1 => fun source =>
      if source.bytes = [] then .ok [] source
      else
        (do
          let type ← bufferRemoveByte
          if type = 127 then return []
          else
            let current ← bufferRemoveData type
            let rest ← removeMetadataLoop rounds
            return current :: rest : Remove SVMetadata) source

/-- `SV_BufferRemoveMetadata`. -/
def bufferRemoveMetadata : Remove SVMetadata := fun source =>
  removeMetadataLoop source.bytes.length source

/-- One round of `SV_BufferRemoveFormat`. -/
def bufferRemoveField : (letter : Letter) → Remove letter.Field
  | .b => bufferRemoveByte
  | .s => bufferRemoveShort
  | .i => bufferRemoveInteger
  | .l => bufferRemoveLong
  | .f => bufferRemoveFloat
  | .d => bufferRemoveDouble
  | .B => bufferRemoveBoolean
  | .S => bufferRemoveString
  | .U => bufferRemoveString16
  | .M => bufferRemoveMetadata

/-- `SV_BufferRemoveFormat`. -/
def bufferRemoveFormat : (format : List Letter) → Remove (Fields format)
  | [] => pure ()
  | letter :: rest => do
      let field ← bufferRemoveField letter
      let fields ← bufferRemoveFormat rest
      return (field, fields)

/-! ## Adding -/

/-- What an `SV_BufferAdd…` function appends, or why it does not return. -/
abbrev Added := Except Fault (List Byte)

/-- `SV_BufferAddByte`, and `SV_BufferAddBoolean`. -/
def bufferAddByte (data : SVByte) : List Byte := BigEndian.toBytes 1 data.toNat

/-- `SV_BufferAddShort`. -/
def bufferAddShort (data : SVShort) : List Byte := BigEndian.toBytes 2 data.toNat

/-- `SV_BufferAddInteger`, and `SV_BufferAddFloat`. -/
def bufferAddInteger (data : SVInteger) : List Byte := BigEndian.toBytes 4 data.toNat

/-- The float is a signalling NaN: all bits of the exponent are set, the first of the fraction
is not, and another one is. -/
def Signalling (data : SVFloat) : Prop :=
  0x7F800000 < data &&& 0x7FFFFFFF ∧ data &&& 0x400000 = 0

instance (data : SVFloat) : Decidable (Signalling data) := inferInstanceAs (Decidable (_ ∧ _))

/-- `va_arg(ap, double)` of a float: it became a double for the call and becomes a float again,
which makes a signalling NaN a quiet one. -/
def vaFloat (data : SVFloat) : SVFloat :=
  if Signalling data then data ||| 0x400000 else data

theorem not_signalling_vaFloat (data : SVFloat) : ¬ Signalling (vaFloat data) := by
  have hquiet : (data ||| 0x400000) &&& 0x400000 = 0x400000 := by
    apply BitVec.eq_of_getLsbD_eq
    intro i _
    rw [BitVec.getLsbD_and, BitVec.getLsbD_or]
    cases data.getLsbD i <;> cases (0x400000 : SVFloat).getLsbD i <;> rfl
  unfold vaFloat
  split_ifs with h
  · exact fun hquieted => absurd (hquiet.symm.trans hquieted.2) (by decide)
  · exact h

theorem vaFloat_eq_self_iff {data : SVFloat} : vaFloat data = data ↔ ¬ Signalling data := by
  refine ⟨fun hsame => hsame ▸ not_signalling_vaFloat data, fun hquiet => if_neg hquiet⟩

@[simp] theorem vaFloat_vaFloat (data : SVFloat) : vaFloat (vaFloat data) = vaFloat data :=
  vaFloat_eq_self_iff.mpr (not_signalling_vaFloat data)

/-- `SV_BufferAddLong`, and `SV_BufferAddDouble`. -/
def bufferAddLong (data : SVLong) : List Byte := BigEndian.toBytes 8 data.toNat

/-- `SV_BufferAddString`. -/
def bufferAddString (data : SVString) : Added :=
  match svStringSanitize data with
  | none => .error .hangs
  | some sanitized => .ok (BigEndian.toBytes 2 sanitized.size ++ sanitized.content)

/-- `SV_BufferAddString16`. -/
def bufferAddString16 (data : SVString) : Added :=
  match svStringSanitize data with
  | none => .error .hangs
  | some sanitized =>
      let ucs2 := (List.range sanitized.length).map fun i => ucs2OfChar (charAt sanitized i)
      .ok (BigEndian.toBytes 2 sanitized.length ++ wordBytes 2 ucs2)

/-- A metadata item as `SV_BufferAddMetadata` sends it: its type, and the member of the
union that the type selects.  The union is an argument as a whole, and `va_arg(ap, double)`
looks for a float where no argument is. -/
def bufferAddData (item : SVData) : Added :=
  let type := bufferAddByte item.type
  match item with
  | .b value => .ok (type ++ bufferAddByte value)
  | .s value => .ok (type ++ bufferAddShort value)
  | .i value => .ok (type ++ bufferAddInteger value)
  | .f _ => .error .undefined
  | .S value => (bufferAddString value).map (type ++ ·)
  | .sbs first second third =>
      .ok (type ++ bufferAddShort first ++ bufferAddByte second ++ bufferAddShort third)
  | .iii first second third =>
      .ok (type ++ bufferAddInteger first ++ bufferAddInteger second ++ bufferAddInteger third)

/-- `SV_BufferAddMetadata`. -/
def bufferAddMetadata : SVMetadata → Added
  | [] => .ok (bufferAddByte 127)
  | item :: rest => do return (← bufferAddData item) ++ (← bufferAddMetadata rest)

/-- One round of `SV_BufferAddFormat`. -/
def bufferAddField : (letter : Letter) → letter.Field → Added
  | .b, data => .ok (bufferAddByte data)
  | .s, data => .ok (bufferAddShort data)
  | .i, data => .ok (bufferAddInteger data)
  | .l, data => .ok (bufferAddLong data)
  | .f, data => .ok (bufferAddInteger (vaFloat data))
  | .d, data => .ok (bufferAddLong data)
  | .B, data => .ok (bufferAddByte data)
  | .S, data => bufferAddString data
  | .U, data => bufferAddString16 data
  | .M, data => bufferAddMetadata data

/-- `SV_BufferAddFormat`. -/
def bufferAddFormat : (format : List Letter) → Fields format → Added
  | [], _ => .ok []
  | letter :: rest, (data, fields) => do
      return (← bufferAddField letter data) ++ (← bufferAddFormat rest fields)

end Craftd.Protocol
