import Craftd.Persistence.Itoa
import Craftd.Survival.UniqueUsername

/-!
# The file of a chunk

A translation of `cdnbt_ChunkPath`, and of what `CD_PluginInitialize` leaves in `_config`.

The parts of a path that depend on the chunk hold neither `/` nor `.`, so they can be found
in the path again, and each numeral can be read back.  In base 36 each numeral fits its
buffer; in a smaller base those of `isSome_chunkPath_iff` do.
-/

namespace Craftd.Persistence

open BoundedArray Numerals
open Survival (Byte stringContent createStringFromFormat formatLimit stringContent_eq_self)

/-- The `_config` of the plugin. -/
structure NbtConfig where
  path : List Byte
  base : ℤ

/-- The default of `path`. -/
def defaultPath : List Byte :=
  "/usr/share/craftd/worlds".toList.map fun char => BitVec.ofNat 8 char.toNat

/-- `_config` after `CD_PluginInitialize`, by the settings there are. -/
def initializeConfig (path : Option (List Byte)) (base : Option ℤ) : NbtConfig where
  path := path.getD defaultPath
  base := base.getD 36

/-- The buffers of `cdnbt_ChunkPath`, which are not initialized. -/
structure PathBuffers where
  directory1 : Cells Byte 8
  directory2 : Cells Byte 8
  chunkName1 : Cells Byte 8
  chunkName2 : Cells Byte 8

/-- Buffers that hold zeros. -/
def emptyBuffers : PathBuffers := ⟨fun _ => 0, fun _ => 0, fun _ => 0, fun _ => 0⟩

variable {size : ℕ}

/-- `%s` of a buffer. -/
def bufferContent (self : Cells Byte size) : Option (List Byte) :=
  if (contents self).all (· ≠ 0) then none else some (stringContent (contents self))

/-- `itoa` into a buffer, and `%s` of the buffer. -/
def itoaContent (value : ℤ) (buffer : Cells Byte size) (base : ℤ) : Option (List Byte) :=
  (itoa value buffer base).bind bufferContent

/-- The format `%s/%s/%s/%s/c.%s.%s.dat`. -/
def chunkPathFormat (path name directory1 directory2 chunkName1 chunkName2 : List Byte) :
    List Byte :=
  stringContent path ++ 0x2F :: (stringContent name ++ 0x2F :: (directory1 ++ 0x2F :: (directory2 ++
    0x2F :: 0x63 :: 0x2E :: (chunkName1 ++ 0x2E :: (chunkName2 ++ [0x2E, 0x64, 0x61, 0x74])))))

/-- `cdnbt_ChunkPath`, for a world of a name. -/
def chunkPath (config : NbtConfig) (buffers : PathBuffers) (name : List Byte)
    (x z : BitVec 32) : Option (List Byte) := do
  let directory1 ← itoaContent (x &&& 63).toInt buffers.directory1 config.base
  let directory2 ← itoaContent (z &&& 63).toInt buffers.directory2 config.base
  let chunkName1 ← itoaContent x.toInt buffers.chunkName1 config.base
  let chunkName2 ← itoaContent z.toInt buffers.chunkName2 config.base
  some (createStringFromFormat
    (chunkPathFormat config.path name directory1 directory2 chunkName1 chunkName2))

/-! ## The numerals in their buffers -/

variable {base : ℕ} {value : ℤ}

theorem notMem_numeral (hbase : 1 < base) (hbound : base ≤ 36) (value : ℤ) {byte : Byte}
    (hbyte : byte = 0 ∨ byte = 0x2E ∨ byte = 0x2F) : byte ∉ itoaSymbols.numeral base value := by
  intro hmem
  have hnat : byte.toNat = 0 ∨ byte.toNat = 0x2E ∨ byte.toNat = 0x2F := by
    rcases hbyte with rfl | rfl | rfl
    · exact .inl rfl
    · exact .inr (.inl rfl)
    · exact .inr (.inr rfl)
  rcases itoaSymbols.mem_numeral hbase hmem with hminus | ⟨digit, hlt, hdigit⟩
  · have hvalue : byte.toNat = 0x2D := congrArg BitVec.toNat hminus
    omega
  · have hvalue := congrArg BitVec.toNat hdigit
    rw [show itoaSymbols.digit digit = digitSymbol digit from rfl,
      digitSymbol_toNat (hlt.trans_le hbound)] at hvalue
    split_ifs at hvalue <;> omega

theorem bufferContent_eq {self : Cells Byte size} {text rest : List Byte}
    (hcontents : contents self = text ++ 0 :: rest) (htext : 0 ∉ text) :
    bufferContent self = some text := by
  have hnul : ¬(text ++ 0 :: rest).all (· ≠ 0) = true := by simp
  have hprefix : stringContent (text ++ 0 :: rest) = text := by
    unfold stringContent
    rw [List.takeWhile_append_of_pos (fun byte hbyte => by
      have hne : byte ≠ 0 := fun h => htext (h ▸ hbyte)
      simpa using hne), List.takeWhile_cons_of_neg (by simp), List.append_nil]
  rw [bufferContent, hcontents, if_neg hnul, hprefix]

theorem itoaContent_fits (hbase : 1 < base) (hbound : base ≤ 36)
    (hvalue : -2 ^ 31 ≤ value ∧ value < 2 ^ 31) (buffer : Cells Byte size)
    (hfits : (itoaSymbols.numeral base value).length < size) :
    itoaContent value buffer base = some (itoaSymbols.numeral base value) := by
  obtain ⟨after, hitoa, hafter⟩ := itoa_fits hbase hbound hvalue buffer hfits
  rw [itoaContent, hitoa, Option.bind_some,
    bufferContent_eq hafter (notMem_numeral hbase hbound value (.inl rfl))]

theorem isSome_itoaContent_iff (hbase : 1 < base) (hbound : base ≤ 36)
    (hvalue : -2 ^ 31 ≤ value ∧ value < 2 ^ 31) (buffer : Cells Byte size) :
    (itoaContent value buffer base).isSome ↔ (itoaSymbols.numeral base value).length < size := by
  rcases Nat.lt_or_ge (itoaSymbols.numeral base value).length size with hfits | hoverflow
  · rw [itoaContent_fits hbase hbound hvalue buffer hfits]
    exact iff_of_true rfl hfits
  · rw [itoaContent, itoa_overflows hbase hbound hvalue buffer hoverflow]
    exact iff_of_false (by simp) (not_lt.mpr hoverflow)

theorem toInt_range (coordinate : BitVec 32) :
    -2 ^ 31 ≤ coordinate.toInt ∧ coordinate.toInt < 2 ^ 31 :=
  ⟨BitVec.le_toInt coordinate, BitVec.toInt_lt⟩

theorem numeral_fits_iff (hbase : 1 < base) (value : ℤ) :
    (itoaSymbols.numeral base value).length < 8 ↔
      -(base : ℤ) ^ 6 < value ∧ value < (base : ℤ) ^ 7 := by
  rw [← itoaSymbols.numeral_length_le_iff hbase value 5]
  omega

theorem numeral_fits_36 (coordinate : BitVec 32) :
    (itoaSymbols.numeral 36 coordinate.toInt).length < 8 := by
  rw [numeral_fits_iff (by omega)]
  have hrange := toInt_range coordinate
  omega

theorem directory_fits (hbase : 1 < base) (coordinate : BitVec 32) :
    (itoaSymbols.numeral base (coordinate &&& 63).toInt).length < 8 := by
  have hle : (coordinate &&& 63).toNat ≤ 63 := by
    rw [BitVec.toNat_and]
    exact Nat.and_le_right
  have hint : (coordinate &&& 63).toInt = (coordinate &&& 63).toNat :=
    BitVec.toInt_eq_toNat_of_lt (by omega)
  have hhigh : (2 ^ 7 : ℤ) ≤ (base : ℤ) ^ 7 := by
    exact_mod_cast Nat.pow_le_pow_left hbase 7
  have hlow : 0 < (base : ℤ) ^ 6 := by
    exact_mod_cast Nat.pow_pos (by omega)
  rw [numeral_fits_iff hbase, hint]
  omega

/-! ## The path -/

variable {config : NbtConfig}

/-- What is printed for a chunk whose numerals fit. -/
def chunkPathText (config : NbtConfig) (name : List Byte) (x z : BitVec 32) : List Byte :=
  chunkPathFormat config.path name (itoaSymbols.numeral config.base.toNat (x &&& 63).toInt)
    (itoaSymbols.numeral config.base.toNat (z &&& 63).toInt)
    (itoaSymbols.numeral config.base.toNat x.toInt) (itoaSymbols.numeral config.base.toNat z.toInt)

/-- The directories are always written, and the names of the file decide. -/
theorem chunkPath_directories (hconfig : config.base = base) (hbase : 1 < base)
    (hbound : base ≤ 36) (buffers : PathBuffers) (name : List Byte) (x z : BitVec 32) :
    chunkPath config buffers name x z =
      (itoaContent x.toInt buffers.chunkName1 base).bind fun chunkName1 =>
        (itoaContent z.toInt buffers.chunkName2 base).bind fun chunkName2 =>
          some (createStringFromFormat (chunkPathFormat config.path name
            (itoaSymbols.numeral base (x &&& 63).toInt) (itoaSymbols.numeral base (z &&& 63).toInt)
            chunkName1 chunkName2)) := by
  unfold chunkPath
  rw [hconfig, itoaContent_fits hbase hbound (toInt_range _) _ (directory_fits hbase x),
    itoaContent_fits hbase hbound (toInt_range _) _ (directory_fits hbase z)]
  rfl

private theorem chunkPath_eq (hconfig : config.base = base) (hbase : 1 < base) (hbound : base ≤ 36)
    (buffers : PathBuffers) (name : List Byte) {x z : BitVec 32}
    (hx : (itoaSymbols.numeral base x.toInt).length < 8)
    (hz : (itoaSymbols.numeral base z.toInt).length < 8) :
    chunkPath config buffers name x z =
      some (createStringFromFormat (chunkPathText config name x z)) := by
  rw [chunkPath_directories hconfig hbase hbound,
    itoaContent_fits hbase hbound (toInt_range x) _ hx,
    itoaContent_fits hbase hbound (toInt_range z) _ hz]
  simp only [Option.bind_some, chunkPathText, hconfig, Int.toNat_natCast]

theorem cut_eq {separator : Byte} {first second rest rest' : List Byte}
    (hfirst : separator ∉ first) (hsecond : separator ∉ second)
    (h : first ++ separator :: rest = second ++ separator :: rest') :
    first = second ∧ rest = rest' := by
  induction first generalizing second with
  | nil =>
      cases second with
      | nil => exact ⟨rfl, (List.cons.inj h).2⟩
      | cons byte second => exact absurd ((List.cons.inj h).1 ▸ List.mem_cons_self) hsecond
  | cons byte first ih =>
      cases second with
      | nil => exact absurd ((List.cons.inj h).1 ▸ List.mem_cons_self) hfirst
      | cons byte' second =>
          obtain ⟨hbyte, htail⟩ := List.cons.inj h
          obtain ⟨hfirst', hrest⟩ := ih (fun hmem => hfirst (List.mem_cons_of_mem _ hmem))
            (fun hmem => hsecond (List.mem_cons_of_mem _ hmem)) htail
          exact ⟨by rw [hbyte, hfirst'], hrest⟩

/-- The numerals of a path can be found in it. -/
theorem chunkPathText_injective (hconfig : config.base = base) (hbase : 1 < base)
    (hbound : base ≤ 36) (name : List Byte) {x z x' z' : BitVec 32}
    (h : chunkPathText config name x z = chunkPathText config name x' z') : x = x' ∧ z = z' := by
  have hslash : ∀ value, (0x2F : Byte) ∉ itoaSymbols.numeral base value :=
    fun value => notMem_numeral hbase hbound value (.inr (.inr rfl))
  have hdot : ∀ value, (0x2E : Byte) ∉ itoaSymbols.numeral base value :=
    fun value => notMem_numeral hbase hbound value (.inr (.inl rfl))
  have hnumeral := itoaSymbols.numeral_injective hbase hbound
  simp only [chunkPathText, chunkPathFormat, hconfig, Int.toNat_natCast] at h
  have hname := (List.cons.inj (List.append_cancel_left h)).2
  have hdirectories := (List.cons.inj (List.append_cancel_left hname)).2
  have hdirectory := (cut_eq (hslash _) (hslash _) hdirectories).2
  have hfile := (cut_eq (hslash _) (hslash _) hdirectory).2
  obtain ⟨hx, hz⟩ := cut_eq (hdot _) (hdot _) (List.cons.inj (List.cons.inj hfile).2).2
  exact ⟨BitVec.toInt_inj.mp (hnumeral hx),
    BitVec.toInt_inj.mp (hnumeral (List.append_cancel_right hz))⟩

/-! ## The results -/

/-- In every base `itoa` writes the canonical numeral of every `int`, and in base 36 no two chunks
of a world have the same file, as long as the paths are formatted whole. -/
theorem chunk_files_distinct :
    (∀ (value : BitVec 32) (base : ℕ), 2 ≤ base → base ≤ 36 →
      ∀ (size : ℕ) (result : Cells Byte size),
        (itoaSymbols.numeral base value.toInt).length < size →
        ∃ after text, itoa value.toInt result base = some after ∧
          bufferContent after = some text ∧ itoaSymbols.Canonical base text ∧
          (text.head? = some itoaSymbols.minus ↔ value.toInt < 0) ∧
          itoaSymbols.read base text = some value.toInt) ∧
    ∀ (config : NbtConfig) (name : List Byte), config.base = 36 →
      (∀ buffers x z, (chunkPath config buffers name x z).isSome) ∧
      ∀ buffers buffers' x z x' z',
        (chunkPathText config name x z).length ≤ formatLimit →
        (chunkPathText config name x' z').length ≤ formatLimit →
        chunkPath config buffers name x z = chunkPath config buffers' name x' z' →
        x = x' ∧ z = z' := by
  refine ⟨fun value base hbase hbound size result hfits => ?_, fun config name hconfig => ?_⟩
  · obtain ⟨after, hitoa, hafter⟩ := itoa_fits hbase hbound (toInt_range value) result hfits
    exact ⟨after, itoaSymbols.numeral base value.toInt, hitoa,
      bufferContent_eq hafter (notMem_numeral hbase hbound _ (.inl rfl)),
      itoaSymbols.numeral_canonical hbase _, itoaSymbols.head?_numeral_iff hbase hbound _,
      itoaSymbols.read_numeral hbase hbound _⟩
  · have hpath : ∀ buffers x z, chunkPath config buffers name x z =
        some (createStringFromFormat (chunkPathText config name x z)) :=
      fun buffers x z => chunkPath_eq hconfig (show 1 < 36 by omega) (le_refl 36) buffers name
        (numeral_fits_36 x) (numeral_fits_36 z)
    refine ⟨fun buffers x z => by rw [hpath, Option.isSome_some],
      fun buffers buffers' x z x' z' hwhole hwhole' h => ?_⟩
    have htext : chunkPathText config name x z = chunkPathText config name x' z' := by
      rw [hpath, hpath, createStringFromFormat, createStringFromFormat, if_pos hwhole,
        if_pos hwhole'] at h
      exact Option.some.inj h
    exact chunkPathText_injective hconfig (show 1 < 36 by omega) (le_refl 36) name htext

theorem chunk_files_distinct_default :
    chunkPath (initializeConfig none none) emptyBuffers [0x61] 3 (-4) ≠
      chunkPath (initializeConfig none none) emptyBuffers [0x61] 3 4 := by
  intro h
  have hchunk := (chunk_files_distinct.2 (initializeConfig none none) [0x61] rfl).2
    emptyBuffers emptyBuffers 3 (-4) 3 4 (by decide +kernel) (by decide +kernel) h
  exact absurd hchunk.2 (by decide)

/-- The buffers are large enough exactly for the coordinates whose numerals have at most seven
symbols. -/
theorem isSome_chunkPath_iff (config : NbtConfig) (hlow : 2 ≤ config.base)
    (hhigh : config.base ≤ 36) (buffers : PathBuffers) (name : List Byte) (x z : BitVec 32) :
    (chunkPath config buffers name x z).isSome ↔
      (-config.base ^ 6 < x.toInt ∧ x.toInt < config.base ^ 7) ∧
        (-config.base ^ 6 < z.toInt ∧ z.toInt < config.base ^ 7) := by
  obtain ⟨base, hconfig⟩ := Int.eq_ofNat_of_zero_le (show 0 ≤ config.base by omega)
  have hbase : 1 < base := by omega
  have hbound : base ≤ 36 := by omega
  have hx := isSome_itoaContent_iff hbase hbound (toInt_range x) buffers.chunkName1
  have hz := isSome_itoaContent_iff hbase hbound (toInt_range z) buffers.chunkName2
  rw [numeral_fits_iff hbase] at hx hz
  rw [chunkPath_directories hconfig hbase hbound, hconfig, ← hx, ← hz]
  cases itoaContent x.toInt buffers.chunkName1 base with
  | none => simp
  | some chunkName1 =>
      cases itoaContent z.toInt buffers.chunkName2 base with
      | none => simp
      | some chunkName2 => simp

theorem isSome_chunkPath_decimal :
    (chunkPath (initializeConfig none (some 10)) emptyBuffers [0x61] (-999999) 9999999).isSome :=
  (isSome_chunkPath_iff (initializeConfig none (some 10)) (by decide) (by decide) emptyBuffers
    [0x61] (-999999) 9999999).mpr (by decide)

/-- In base 2 the chunk of 128 has a numeral of eight digits, and its NUL is written behind the
buffer. -/
theorem chunkPath_base_two_overflows :
    ¬∀ (config : NbtConfig), 2 ≤ config.base → config.base ≤ 36 →
      ∀ (buffers : PathBuffers) (name : List Byte) (x z : BitVec 32),
        (chunkPath config buffers name x z).isSome := by
  intro h
  have hnone : chunkPath (initializeConfig none (some 2))
      emptyBuffers [] 128 0 = none := by
    decide +kernel
  have hsome := h (initializeConfig none (some 2)) (by decide) (by decide) emptyBuffers [] 128 0
  rw [hnone] at hsome
  exact Bool.false_ne_true hsome

end Craftd.Persistence
