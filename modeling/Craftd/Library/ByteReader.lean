import Craftd.Library.BigEndian
import Mathlib.Tactic.Common

/-!
# Programs that read a byte buffer

A `Reader` takes bytes off the front of a `Source` and may stop with a fault.
The source also counts the bytes that were asked for, whether they were there
or not, so that a short read can be told from a complete one.

Three rules are used by the proofs about readers.

* `Reads r wire value`: in front of any other bytes, `r` takes exactly `wire`
  and returns `value`.  Such readers compose (`Reads.bind`).
* `Tracks r W`: a run of `r` that asked for no byte in vain took bytes that stand in
  relation `W` to the value it returned (`Tracks.bind`).
* `Spans E r source n P`: from `source` on, `r` asks for `n` bytes, and either
  returns a value with `P` or stops with a fault that `E` allows (`Spans.bind`).

Two readers that differ in what they know beside the bytes are compared by
`Agrees E R r r' source`: they take the same bytes, and return values that `R` relates.
-/

namespace ByteReader

/-- The bytes not taken yet, and how many were asked for so far. -/
structure Source where
  bytes : List (BitVec 8)
  asked : Nat
  deriving DecidableEq

/-- The source after `n` bytes were asked for. -/
def Source.advance (source : Source) (n : Nat) : Source :=
  { bytes := source.bytes.drop n, asked := source.asked + n }

@[simp] theorem Source.bytes_advance (source : Source) (n : Nat) :
    (source.advance n).bytes = source.bytes.drop n := rfl

@[simp] theorem Source.asked_advance (source : Source) (n : Nat) :
    (source.advance n).asked = source.asked + n := rfl

@[simp] theorem Source.advance_zero (source : Source) : source.advance 0 = source := by
  simp [Source.advance]

@[simp] theorem Source.advance_advance (source : Source) (m n : Nat) :
    (source.advance m).advance n = source.advance (m + n) := by
  simp [Source.advance, Nat.add_assoc]

/-- A program that reads a source and returns a value or stops with a fault. -/
abbrev Reader (Fault Value : Type) := EStateM Fault Source Value

variable {Fault Value Value' : Type}

/-- Takes up to `n` bytes. -/
def remove (n : Nat) : Reader Fault (List (BitVec 8)) := fun source =>
  .ok (source.bytes.take n) (source.advance n)

/-- What `n` zeroed bytes spell after `bytes` were copied over them. -/
def number (n : Nat) (bytes : List (BitVec 8)) : Nat :=
  BigEndian.ofBytes ((bytes ++ List.replicate n 0).take n)

/-- Takes up to `n` bytes into a zeroed word of `w` bits. -/
def word (n w : Nat) : Reader Fault (BitVec w) := fun source =>
  .ok (BitVec.ofNat w (number n source.bytes)) (source.advance n)

/-- The words that the first `count * n` bytes spell. -/
def wordList (n w : Nat) : Nat → List (BitVec 8) → List (BitVec w)
  | 0, _ => []
  | count + 1, bytes => BitVec.ofNat w (number n bytes) :: wordList n w count (bytes.drop n)

/-- Takes `count` words, one after the other. -/
def words (n w : Nat) : Nat → Reader Fault (List (BitVec w))
  | 0 => pure []
  | count + 1 => do
      let value ← word n w
      let values ← words n w count
      return value :: values

/-- The bytes that spell `values`, `n` bytes for each. -/
def wordBytes {w : Nat} (n : Nat) (values : List (BitVec w)) : List (BitVec 8) :=
  values.flatMap fun value => BigEndian.toBytes n value.toNat

/-- The source a run ends with. -/
def finish : EStateM.Result Fault Source Value → Source
  | .ok _ source => source
  | .error _ source => source

theorem number_append {n : Nat} {bytes : List (BitVec 8)} (hlength : bytes.length = n)
    (rest : List (BitVec 8)) : number n (bytes ++ rest) = BigEndian.ofBytes bytes := by
  unfold number
  rw [List.append_assoc, List.take_left' hlength]

theorem wordList_append {n w : Nat} (hw : w = 8 * n) (values : List (BitVec w))
    (rest : List (BitVec 8)) :
    wordList n w values.length (wordBytes n values ++ rest) = values := by
  induction values with
  | nil => rfl
  | cons value values ih =>
      have hlength := BigEndian.length_toBytes n value.toNat
      have hbytes : wordBytes n (value :: values) ++ rest =
          BigEndian.toBytes n value.toNat ++ (wordBytes n values ++ rest) := by
        simp [wordBytes]
      rw [hbytes, List.length_cons, wordList, number_append hlength, BigEndian.ofNat_ofBytes hw,
        List.drop_left' hlength, ih]

theorem number_lt (n : Nat) (bytes : List (BitVec 8)) : number n bytes < 256 ^ n := by
  have h := BigEndian.ofBytes_lt ((bytes ++ List.replicate n 0).take n)
  have hlength : ((bytes ++ List.replicate n 0).take n).length = n := by simp
  rwa [hlength] at h

/-! ## Sequencing -/

theorem bind_ok {r : Reader Fault Value} {f : Value → Reader Fault Value'}
    {source source' : Source} {value : Value} (h : r source = .ok value source') :
    (r >>= f) source = f value source' := by
  show EStateM.bind r f source = _
  rw [EStateM.bind, h]

theorem bind_error {r : Reader Fault Value} {f : Value → Reader Fault Value'}
    {source source' : Source} {fault : Fault} (h : r source = .error fault source') :
    (r >>= f) source = .error fault source' := by
  show EStateM.bind r f source = _
  rw [EStateM.bind, h]

/-- A run of a sequence that returns is a run of its first part and one of its
second part. -/
theorem bind_eq_ok {r : Reader Fault Value} {f : Value → Reader Fault Value'}
    {source source' : Source} {value' : Value'} (h : (r >>= f) source = .ok value' source') :
    ∃ value middle, r source = .ok value middle ∧ f value middle = .ok value' source' := by
  cases hr : r source with
  | ok value middle => exact ⟨value, middle, rfl, (bind_ok hr).symm.trans h⟩
  | error fault middle =>
      rw [bind_error hr] at h
      cases h

/-! ## Reading what was written -/

/-- `r` takes exactly `wire`, whatever stands behind it, and returns `value`. -/
def Reads (r : Reader Fault Value) (wire : List (BitVec 8)) (value : Value) : Prop :=
  ∀ rest asked, r ⟨wire ++ rest, asked⟩ = .ok value ⟨rest, asked + wire.length⟩

theorem Reads.pure (value : Value) : Reads (pure value : Reader Fault Value) [] value :=
  fun _ _ => rfl

theorem Reads.bind {r : Reader Fault Value} {f : Value → Reader Fault Value'}
    {wire wire' : List (BitVec 8)} {value : Value} {value' : Value'} (hr : Reads r wire value)
    (hf : Reads (f value) wire' value') : Reads (r >>= f) (wire ++ wire') value' := by
  intro rest asked
  rw [List.append_assoc, bind_ok (hr (wire' ++ rest) asked), hf rest, List.length_append,
    Nat.add_assoc]

theorem Reads.remove {n : Nat} {wire : List (BitVec 8)} (hlength : wire.length = n) :
    Reads (remove n : Reader Fault _) wire wire := by
  intro rest asked
  simp [ByteReader.remove, Source.advance, ← hlength]

theorem Reads.word {n w : Nat} (hw : w = 8 * n) (value : BitVec w) :
    Reads (word n w : Reader Fault _) (BigEndian.toBytes n value.toNat) value := by
  intro rest asked
  have hlength := BigEndian.length_toBytes n value.toNat
  show EStateM.Result.ok _ _ = _
  rw [number_append hlength, BigEndian.ofNat_ofBytes hw, Source.advance, List.drop_left' hlength,
    hlength]

theorem Reads.words {n w : Nat} (hw : w = 8 * n) (values : List (BitVec w)) :
    Reads (words n w values.length : Reader Fault _) (wordBytes n values) values := by
  induction values with
  | nil => exact Reads.pure []
  | cons value values ih =>
      have hwire : wordBytes n (value :: values) =
          BigEndian.toBytes n value.toNat ++ (wordBytes n values ++ []) := by simp [wordBytes]
      rw [hwire, List.length_cons, ByteReader.words]
      exact (Reads.word hw value).bind (ih.bind (Reads.pure _))

@[simp] theorem length_wordBytes {w : Nat} (n : Nat) (values : List (BitVec w)) :
    (wordBytes n values).length = n * values.length := by
  induction values with
  | nil => rfl
  | cons value values ih =>
      simp only [wordBytes, List.flatMap_cons, List.length_append, BigEndian.length_toBytes,
        List.length_cons, Nat.mul_succ] at ih ⊢
      omega

theorem wordBytes_injective {n w : Nat} (hw : w = 8 * n) (hn : 0 < n)
    {values values' : List (BitVec w)} (h : wordBytes n values = wordBytes n values') :
    values = values' := by
  have hlength : values.length = values'.length := by
    have hcount := congrArg List.length h
    rw [length_wordBytes, length_wordBytes] at hcount
    exact Nat.eq_of_mul_eq_mul_left hn hcount
  have hvalues := wordList_append hw values []
  rw [h, hlength, wordList_append hw values' []] at hvalues
  exact hvalues.symm

/-! ## Recovering what was read -/

/-- Every run of `r` takes a prefix `wire` of the source, and asks for at least as
much; if it asked for no more, `W` holds of the value returned and `wire`. -/
def Tracks (r : Reader Fault Value) (W : Value → List (BitVec 8) → Prop) : Prop :=
  ∀ source value source', r source = .ok value source' →
    ∃ wire, source.bytes = wire ++ source'.bytes ∧ source.asked + wire.length ≤ source'.asked ∧
      (source'.asked = source.asked + wire.length → W value wire)

theorem Tracks.pure {W : Value → List (BitVec 8) → Prop} {value : Value} (h : W value []) :
    Tracks (pure value : Reader Fault Value) W := by
  intro source value' source' hrun
  cases hrun
  exact ⟨[], rfl, Nat.le_refl _, fun _ => h⟩

theorem Tracks.throw (fault : Fault) (W : Value → List (BitVec 8) → Prop) :
    Tracks (throw fault : Reader Fault Value) W := by
  intro source value source' hrun
  cases hrun

theorem Tracks.bind {r : Reader Fault Value} {f : Value → Reader Fault Value'}
    {W : Value → List (BitVec 8) → Prop} {W' : Value' → List (BitVec 8) → Prop}
    (hr : Tracks r W)
    (hf : ∀ value, Tracks (f value) fun value' wire' =>
      ∀ wire, W value wire → W' value' (wire ++ wire')) : Tracks (r >>= f) W' := by
  intro source value' source' hrun
  obtain ⟨value, middle, hfirst, hsecond⟩ := bind_eq_ok hrun
  obtain ⟨wire, hbytes, hasked, hwire⟩ := hr _ _ _ hfirst
  obtain ⟨wire', hbytes', hasked', hwire'⟩ := hf _ _ _ _ hsecond
  refine ⟨wire ++ wire', ?_, ?_, fun hexact => ?_⟩
  · rw [hbytes, hbytes', List.append_assoc]
  · rw [List.length_append]
    omega
  · -- nothing was asked for in vain, so neither part asked in vain
    rw [List.length_append] at hexact
    exact hwire' (by omega) wire (hwire (by omega))

theorem Tracks.mono {r : Reader Fault Value} {W W' : Value → List (BitVec 8) → Prop}
    (hr : Tracks r W) (h : ∀ value wire, W value wire → W' value wire) : Tracks r W' := by
  intro source value source' hrun
  obtain ⟨wire, hbytes, hasked, hwire⟩ := hr _ _ _ hrun
  exact ⟨wire, hbytes, hasked, fun hexact => h _ _ (hwire hexact)⟩

theorem Tracks.remove (n : Nat) :
    Tracks (remove n : Reader Fault _) fun value wire => wire = value ∧ value.length = n := by
  intro source value source' hrun
  cases hrun
  refine ⟨source.bytes.take n, ?_, ?_, fun hexact => ⟨rfl, ?_⟩⟩
  · simp
  · simp
  · rw [Source.asked_advance] at hexact
    omega

theorem Tracks.word {n w : Nat} (hw : w = 8 * n) :
    Tracks (word n w : Reader Fault _) fun value wire =>
      wire = BigEndian.toBytes n value.toNat := by
  intro source value source' hrun
  cases hrun
  refine ⟨source.bytes.take n, ?_, ?_, fun hexact => ?_⟩
  · simp
  · simp
  · rw [Source.asked_advance] at hexact
    have hlength : (source.bytes.take n).length = n := by omega
    have hnumber : number n source.bytes = BigEndian.ofBytes (source.bytes.take n) := by
      conv_lhs => rw [← List.take_append_drop n source.bytes]
      exact number_append hlength _
    rw [hnumber, BigEndian.toBytes_ofNat hw hlength]

theorem Tracks.words {n w : Nat} (hw : w = 8 * n) (count : Nat) :
    Tracks (words n w count : Reader Fault _) fun values wire =>
      values.length = count ∧ wire = wordBytes n values := by
  induction count with
  | zero => exact Tracks.pure ⟨rfl, rfl⟩
  | succ count ih =>
      refine (Tracks.word hw).bind fun value => ih.bind fun values => Tracks.pure ?_
      rintro wire ⟨rfl, rfl⟩ _ rfl
      exact ⟨rfl, by simp [wordBytes]⟩

/-! ## Counting what is asked for -/

/-- From `source` on, `r` asks for `n` bytes and returns a value with `P`. -/
def Takes (r : Reader Fault Value) (source : Source) (n : Nat) (P : Value → Prop) : Prop :=
  ∃ value, r source = .ok value (source.advance n) ∧ P value

/-- From `source` on, `r` asks for `n` bytes and stops with a fault that `E` allows. -/
def Stops (E : Fault → Prop) (r : Reader Fault Value) (source : Source) (n : Nat) : Prop :=
  ∃ fault source', r source = .error fault source' ∧ E fault ∧ source'.asked = source.asked + n

/-- From `source` on, `r` asks for `n` bytes and returns a value with `P`, or stops with
a fault that `E` allows. -/
def Spans (E : Fault → Prop) (r : Reader Fault Value) (source : Source) (n : Nat)
    (P : Value → Prop) : Prop :=
  Takes r source n P ∨ Stops E r source n

variable {E : Fault → Prop} {source : Source} {m n : Nat}

theorem Takes.pure {P : Value → Prop} {value : Value} (h : P value) :
    Takes (pure value : Reader Fault Value) source 0 P :=
  ⟨value, by rw [source.advance_zero]; rfl, h⟩

theorem Takes.bind {r : Reader Fault Value} {f : Value → Reader Fault Value'} {P : Value → Prop}
    {Q : Value' → Prop} (hr : Takes r source m P)
    (hf : ∀ value, P value → Takes (f value) (source.advance m) n Q) :
    Takes (r >>= f) source (m + n) Q := by
  obtain ⟨value, hrun, hvalue⟩ := hr
  obtain ⟨value', hrun', hvalue'⟩ := hf value hvalue
  refine ⟨value', ?_, hvalue'⟩
  rw [bind_ok hrun, hrun', Source.advance_advance]

theorem Takes.bind_spans {r : Reader Fault Value} {f : Value → Reader Fault Value'}
    {P : Value → Prop} {Q : Value' → Prop} (hr : Takes r source m P)
    (hf : ∀ value, P value → Spans E (f value) (source.advance m) n Q) :
    Spans E (r >>= f) source (m + n) Q := by
  obtain ⟨value, hrun, hvalue⟩ := hr
  rcases hf value hvalue with ⟨value', hrun', hvalue'⟩ | ⟨fault, source', hrun', hfault, hasked⟩
  · refine .inl ⟨value', ?_, hvalue'⟩
    rw [bind_ok hrun, hrun', Source.advance_advance]
  · refine .inr ⟨fault, source', by rw [bind_ok hrun, hrun'], hfault, ?_⟩
    rw [hasked, Source.asked_advance, Nat.add_assoc]

theorem Stops.bind {r : Reader Fault Value} {f : Value → Reader Fault Value'}
    (hr : Stops E r source n) : Stops E (r >>= f) source n := by
  obtain ⟨fault, source', hrun, hfault, hasked⟩ := hr
  exact ⟨fault, source', bind_error hrun, hfault, hasked⟩

theorem Spans.bind_pure {r : Reader Fault Value} {f : Value → Reader Fault Value'}
    {P : Value → Prop} {Q : Value' → Prop} (hr : Spans E r source n P)
    (hf : ∀ value source, P value → Takes (f value) source 0 Q) :
    Spans E (r >>= f) source n Q := by
  rcases hr with htakes | hstops
  · exact .inl (htakes.bind fun value hvalue => hf value _ hvalue)
  · exact .inr hstops.bind

theorem Spans.stops {r : Reader Fault Value} (h : Spans E r source n fun _ => False) :
    Stops E r source n :=
  h.resolve_left fun ⟨_, _, hvalue⟩ => hvalue

theorem Takes.word (n w : Nat) (source : Source) :
    Takes (word n w : Reader Fault _) source n fun value =>
      value = BitVec.ofNat w (number n source.bytes) :=
  ⟨_, rfl, rfl⟩

theorem Takes.words (n w count : Nat) (source : Source) :
    Takes (words n w count : Reader Fault _) source (n * count) fun values =>
      values = wordList n w count source.bytes := by
  induction count generalizing source with
  | zero => exact Takes.pure rfl
  | succ count ih =>
      have hspan : n * (count + 1) = n + (n * count + 0) := by rw [Nat.mul_succ]; omega
      rw [hspan, ByteReader.words]
      refine (Takes.word n w source).bind fun value hvalue => ?_
      refine (ih (source.advance n)).bind fun values hvalues => Takes.pure ?_
      rw [hvalue, hvalues]
      rfl

/-- From `source` on, `r` returns a value with `P`, whatever it asks for. -/
def Returns (r : Reader Fault Value) (source : Source) (P : Value → Prop) : Prop :=
  ∃ n, Takes r source n P

theorem Returns.pure {P : Value → Prop} {value : Value} (h : P value) :
    Returns (pure value : Reader Fault Value) source P :=
  ⟨0, Takes.pure h⟩

theorem Takes.bind_returns {r : Reader Fault Value} {f : Value → Reader Fault Value'}
    {P : Value → Prop} {Q : Value' → Prop} (hr : Takes r source m P)
    (hf : ∀ value, P value → Returns (f value) (source.advance m) Q) :
    Returns (r >>= f) source Q := by
  obtain ⟨value, hrun, hvalue⟩ := hr
  obtain ⟨n, value', hrun', hvalue'⟩ := hf value hvalue
  refine ⟨m + n, value', ?_, hvalue'⟩
  rw [bind_ok hrun, hrun', Source.advance_advance]

/-! ## Comparing two readers -/

/-- From `source` on, both readers take the same bytes and return values that `R` relates, or
both stop with one fault, which `E` allows. -/
def Agrees (E : Fault → Prop) (R : Value → Value → Prop) (r r' : Reader Fault Value)
    (source : Source) : Prop :=
  (∃ value value' source', r source = .ok value source' ∧ r' source = .ok value' source' ∧
      R value value') ∨
    ∃ fault source', r source = .error fault source' ∧ r' source = .error fault source' ∧
      E fault

theorem Agrees.pure {R : Value → Value → Prop} {value value' : Value} (h : R value value') :
    Agrees E R (pure value : Reader Fault Value) (pure value') source :=
  .inl ⟨value, value', source, rfl, rfl, h⟩

theorem Agrees.throw {R : Value → Value → Prop} {fault : Fault} (h : E fault) :
    Agrees E R (throw fault : Reader Fault Value) (throw fault) source :=
  .inr ⟨fault, source, rfl, rfl, h⟩

theorem Agrees.bind {R : Value → Value → Prop} {R' : Value' → Value' → Prop}
    {r r' : Reader Fault Value} {f f' : Value → Reader Fault Value'} (hr : Agrees E R r r' source)
    (hf : ∀ value value' source, R value value' → Agrees E R' (f value) (f' value') source) :
    Agrees E R' (r >>= f) (r' >>= f') source := by
  rcases hr with ⟨value, value', middle, hrun, hrun', hvalues⟩ | ⟨fault, stop, hrun, hrun', hfault⟩
  · have hrest := hf value value' middle hvalues
    rwa [Agrees, bind_ok hrun, bind_ok hrun']
  · exact .inr ⟨fault, stop, bind_error hrun, bind_error hrun', hfault⟩

/-- Two readers that begin alike are compared where they part. -/
theorem Takes.bind_agrees {R : Value' → Value' → Prop} {r : Reader Fault Value}
    {f f' : Value → Reader Fault Value'} {P : Value → Prop} (hr : Takes r source n P)
    (hf : ∀ value, P value → Agrees E R (f value) (f' value) (source.advance n)) :
    Agrees E R (r >>= f) (r >>= f') source := by
  obtain ⟨value, hrun, hvalue⟩ := hr
  have hrest := hf value hvalue
  rwa [Agrees, bind_ok hrun, bind_ok hrun]

theorem Spans.bind_agrees {R : Value' → Value' → Prop} {r : Reader Fault Value}
    {f f' : Value → Reader Fault Value'} {P : Value → Prop} (hr : Spans E r source n P)
    (hf : ∀ value, P value → Agrees E R (f value) (f' value) (source.advance n)) :
    Agrees E R (r >>= f) (r >>= f') source := by
  rcases hr with htakes | ⟨fault, stop, hrun, hfault, -⟩
  · exact htakes.bind_agrees hf
  · exact .inr ⟨fault, stop, bind_error hrun, bind_error hrun, hfault⟩

end ByteReader
