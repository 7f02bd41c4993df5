import Craftd.Containers.Hash
import Craftd.Containers.KHashResize

/-!
# Hashes and maps are finite maps

A translation of the rest of `Hash.c` and `Map.c` that a caller looks entries up with:
`CD_HashGet`, `CD_HashHasKey`, `CD_HashLength`, `CD_HashClear` and `CD_CloneHash`, with their twins
for maps.  `MapStep` says what a finite map answers to the same calls; a table gives the same
answers, whatever is put, deleted and cleared before, as long as it has fewer than `2 ^ 30` entries
when something is put.  (From `2 ^ 31` buckets on `kroundup32` wraps around to 0.)
-/

namespace Craftd.Containers

open PackedFlags OpenAddressing StepSystem

section Calls

variable {Key : Type} [DecidableEq Key] (hash : Key → BitVec 32)

/-- `CD_HashGet` and `CD_MapGet`. -/
def tableGet (self : KHash Key CDPointer) (name : Key) : Option CDPointer := do
  let it ← khGet hash self name
  let found ← tableFound self it
  some (if found then self.vals it else cdNull)

/-- `CD_HashHasKey` and `CD_MapHasKey`. -/
def tableHasKey (self : KHash Key CDPointer) (name : Key) : Option Bool := do
  let it ← khGet hash self name
  tableFound self it

/-- `CD_HashLength` and `CD_MapLength`. -/
def tableLength (self : KHash Key CDPointer) : ℕ := self.size

omit [DecidableEq Key] in
/-- `kh_clear`; a table without flags has none to clear. -/
def khClear {Value : Type} (h : KHash Key Value) : KHash Key Value :=
  if h.flags ≠ [] then
    { h with
      flags := List.replicate (acFsize h.nBuckets) 0xAAAAAAAA
      size := 0
      nOccupied := 0 }
  else h

/-- The loop of `CD_HashClear` and `CD_MapClear`, over the buckets that are left. -/
def tableClearLoop (self : KHash Key CDPointer) : List ℕ → Option (List CDPointer)
  | [] => some []
  | it :: rest => do
      let exist ← khExist self it
      let result ← tableClearLoop self rest
      some (if exist then self.vals it :: result else result)

/-- `CD_HashClear` and `CD_MapClear`, with the values that they return. -/
def tableClear (self : KHash Key CDPointer) : Option (KHash Key CDPointer × List CDPointer) := do
  let result ← tableClearLoop self (List.range self.nBuckets)
  some (khClear self, result)

/-- `CD_CloneHash` and `CD_CloneMap`. -/
def tableClone (self : KHash Key CDPointer) (keys : ℕ → Key) (vals : ℕ → CDPointer) :
    Option (KHash Key CDPointer) := do
  let visited ← tableForeach self
  visited.foldlM (fun cloned it =>
    (tablePut hash cloned (self.keys it) (self.vals it)).map Prod.fst) (khInit keys vals)

/-- A call. -/
inductive TableCall (Key : Type)
  | put (name : Key) (data : CDPointer)
  | delete (name : Key)
  | get (name : Key)
  | hasKey (name : Key)
  | length
  | clear

/-- What a call returns. -/
inductive TableAnswer
  | data (data : CDPointer)
  | exist (exist : Bool)
  | length (length : ℕ)
  | values (values : List CDPointer)
  deriving DecidableEq

/-- A call of a table. -/
def tableCall (self : KHash Key CDPointer) :
    TableCall Key → Option (KHash Key CDPointer × TableAnswer)
  | .put name data => (tablePut hash self name data).map fun (next, old) => (next, .data old)
  | .delete name => (tableDelete hash self name).map fun (next, old) => (next, .data old)
  | .get name => (tableGet hash self name).map fun data => (self, .data data)
  | .hasKey name => (tableHasKey hash self name).map fun exist => (self, .exist exist)
  | .length => some (self, .length (tableLength self))
  | .clear => (tableClear self).map fun (next, values) => (next, .values values)

/-- Tables under all calls; the events are the answers. -/
def callSystem (keys : ℕ → Key) (vals : ℕ → CDPointer) :
    System (KHash Key CDPointer) (TableCall Key) TableAnswer where
  init := khInit keys vals
  step self call := (tableCall hash self call).map fun (next, answer) => (next, [answer])

omit [DecidableEq Key] in
/-- Something is put only into a table of fewer than `2 ^ 30` entries. -/
def RoomToPut (self : KHash Key CDPointer) : TableCall Key → Prop
  | .put _ _ => self.size < 2 ^ 30
  | _ => True

instance (self : KHash Key CDPointer) : ∀ call, Decidable (RoomToPut self call)
  | .put _ _ => inferInstanceAs (Decidable (self.size < 2 ^ 30))
  | .delete _ | .get _ | .hasKey _ | .length | .clear => isTrue trivial

end Calls

/-! ## Finite maps -/

/-- What a finite map answers to a call, and what it is afterwards.  The values that a clearing
returns are in no particular order. -/
inductive MapStep {Key : Type} [DecidableEq Key] (map : Finmap fun _ : Key => CDPointer) :
    TableCall Key → TableAnswer → (Finmap fun _ : Key => CDPointer) → Prop
  | put (name : Key) (data : CDPointer) :
      MapStep map (.put name data) (.data ((map.lookup name).getD cdNull)) (map.insert name data)
  | delete (name : Key) :
      MapStep map (.delete name) (.data ((map.lookup name).getD cdNull)) (map.erase name)
  | get (name : Key) : MapStep map (.get name) (.data ((map.lookup name).getD cdNull)) map
  | hasKey (name : Key) : MapStep map (.hasKey name) (.exist (map.lookup name).isSome) map
  | length : MapStep map .length (.length map.keys.card) map
  | clear (names : List Key) (values : List CDPointer) :
      names.Nodup → (∀ name, name ∈ names ↔ name ∈ map) →
      values.map some = names.map map.lookup → MapStep map .clear (.values values) ∅

/-- What a finite map answers to calls, one after the other. -/
inductive MapRun {Key : Type} [DecidableEq Key] :
    (Finmap fun _ : Key => CDPointer) → List (TableCall Key) → List TableAnswer →
      (Finmap fun _ : Key => CDPointer) → Prop
  | nil (map : Finmap fun _ : Key => CDPointer) : MapRun map [] [] map
  | cons {map next last : Finmap fun _ : Key => CDPointer} {call : TableCall Key}
      {calls : List (TableCall Key)} {answer : TableAnswer} {answers : List TableAnswer} :
      MapStep map call answer next → MapRun next calls answers last →
      MapRun map (call :: calls) (answer :: answers) last

variable {Key : Type} [DecidableEq Key] {hash : Key → BitVec 32} {self : KHash Key CDPointer}
  {map : Finmap fun _ : Key => CDPointer} {name : Key} {x : ℕ}

/-! ## Looking up -/

omit [DecidableEq Key] in
private theorem tableFound_entry (hx : x < self.nBuckets) (hflag : flag self.flags x = some 0) :
    tableFound self x = some true := by
  rw [tableFound, if_pos (Nat.ne_of_lt hx), khExist_eq ⟨0, hflag⟩, hflag]
  rfl

omit [DecidableEq Key] in
private theorem tableFound_end : tableFound self self.nBuckets = some false := by
  rw [tableFound, if_neg (not_not.mpr rfl)]

/-- **Looking a key up** ends at its entry, or finds none. -/
theorem Filed.lookup (h : Filed hash self) (hmap : Tabulates (contents self) map) (name : Key) :
    (∃ it data, khGet hash self name = some it ∧ tableFound self it = some true ∧
        it < self.nBuckets ∧ flag self.flags it = some 0 ∧ self.keys it = name ∧
        self.vals it = data ∧ map.lookup name = some data) ∨
      (khGet hash self name = some self.nBuckets ∧
        tableFound self self.nBuckets = some false ∧ map.lookup name = none) := by
  rcases h.khGet_spec name with ⟨it, hit, hlt, hflag, hkey⟩ | ⟨hend, hnone⟩
  · have hmem : (name, self.vals it) ∈ contents self :=
      mem_pairs.mpr ⟨it, hlt, hflag, hkey, rfl⟩
    exact .inl ⟨it, _, hit, tableFound_entry hlt hflag, hlt, hflag, hkey, rfl,
      (hmap.mem_iff name _).mp hmem⟩
  · exact .inr ⟨hend, tableFound_end, hmap.lookup_eq_none.mpr hnone⟩

theorem Filed.tableGet_spec (h : Filed hash self) (hmap : Tabulates (contents self) map)
    (name : Key) : tableGet hash self name = some ((map.lookup name).getD cdNull) := by
  rw [tableGet]
  rcases h.lookup hmap name with ⟨it, data, hit, hfound, -, -, -, rfl, hlookup⟩ |
    ⟨hit, hfound, hlookup⟩
  · rw [hit, Option.bind_eq_bind, Option.bind_some, hfound, hlookup]
    rfl
  · rw [hit, Option.bind_eq_bind, Option.bind_some, hfound, hlookup]
    rfl

theorem Filed.tableHasKey_spec (h : Filed hash self) (hmap : Tabulates (contents self) map)
    (name : Key) : tableHasKey hash self name = some (map.lookup name).isSome := by
  rw [tableHasKey]
  rcases h.lookup hmap name with ⟨it, data, hit, hfound, -, -, -, -, hlookup⟩ |
    ⟨hit, hfound, hlookup⟩
  · rw [hit, Option.bind_eq_bind, Option.bind_some, hfound, hlookup]
    rfl
  · rw [hit, Option.bind_eq_bind, Option.bind_some, hfound, hlookup]
    rfl

omit [DecidableEq Key] in
theorem Filed.length_eq [DecidableEq Key] (h : Filed hash self)
    (hmap : Tabulates (contents self) map) : tableLength self = map.keys.card := by
  rw [← hmap.card_eq, card_pairs, tableLength, h.sound.counted]

/-! ## Putting, deleting and clearing -/

/-- **`kh_put`**, for a key that is not there, with the value that is stored behind it. -/
theorem Filed.khPut_spec (h : Filed hash self) (hsize : self.size < 2 ^ 30)
    (hnone : name ∉ (contents self).map Prod.fst) (data : CDPointer) :
    ∃ next it, khPut hash self name = some (next, it) ∧
      Filed hash { next with vals := Function.update next.vals it data } ∧
      contents { next with vals := Function.update next.vals it data } =
        (name, data) ::ₘ contents self := by
  obtain ⟨room, hroom, hfiled, hcontents, hfree⟩ := h.khMakeRoom_spec hsize
  rw [← hcontents] at hnone ⊢
  obtain ⟨x, bits, hx, hlt, hbits, hunused, hpath⟩ := hfiled.khPutBucket_spec hfree hnone
  obtain ⟨hfilled, hpairs⟩ := hfiled.fill hlt hbits hunused hpath hnone rfl data
  rw [khPut, hroom, Option.bind_eq_bind, Option.bind_some, hx, Option.bind_eq_bind,
    Option.bind_some, hbits, Option.bind_eq_bind, Option.bind_some]
  by_cases hempty : isempty bits = true
  · rw [if_pos hempty]
    rw [if_pos hempty] at hfilled
    exact ⟨_, x, rfl, hfilled, hpairs⟩
  · rw [if_neg hempty, if_pos (hunused.resolve_left hempty)]
    rw [if_neg hempty] at hfilled
    exact ⟨_, x, rfl, hfilled, hpairs⟩

/-- **`CD_HashPut`** -/
theorem Filed.tablePut_spec (h : Filed hash self) (hmap : Tabulates (contents self) map)
    (hsize : self.size < 2 ^ 30) (name : Key) (data : CDPointer) :
    ∃ next, tablePut hash self name data = some (next, (map.lookup name).getD cdNull) ∧
      Filed hash next ∧ Tabulates (contents next) (map.insert name data) := by
  rw [tablePut]
  rcases h.lookup hmap name with ⟨it, old, hit, hfound, hlt, hflag, rfl, rfl, hlookup⟩ |
    ⟨hit, hfound, hlookup⟩
  · rw [hit, Option.bind_eq_bind, Option.bind_some, hfound, hlookup]
    obtain ⟨hfiled, rest, hbefore, hafter⟩ := h.setValue hlt hflag data
    refine ⟨_, rfl, hfiled, ?_⟩
    rw [hafter]
    rw [hbefore] at hmap
    exact hmap.replace data
  · rw [hit, Option.bind_eq_bind, Option.bind_some, hfound, hlookup]
    obtain ⟨next, bucket, hput, hfiled, hcontents⟩ :=
      h.khPut_spec hsize (hmap.lookup_eq_none.mp hlookup) data
    simp only [Option.bind_eq_bind, Option.bind_some, hput]
    refine ⟨_, rfl, hfiled, ?_⟩
    rw [hcontents]
    exact hmap.cons hlookup data

/-- **`CD_HashDelete`** -/
theorem Filed.tableDelete_spec (h : Filed hash self) (hmap : Tabulates (contents self) map)
    (name : Key) :
    ∃ next, tableDelete hash self name = some (next, (map.lookup name).getD cdNull) ∧
      Filed hash next ∧ Tabulates (contents next) (map.erase name) := by
  rw [tableDelete]
  rcases h.lookup hmap name with ⟨it, old, hit, hfound, hlt, hflag, rfl, rfl, hlookup⟩ |
    ⟨hit, hfound, hlookup⟩
  · obtain ⟨next, hnext, hfiled, hcontents⟩ := h.khDel_spec hlt hflag
    rw [hit, Option.bind_eq_bind, Option.bind_some, hfound, Option.bind_eq_bind, Option.bind_some,
      hnext, hlookup]
    refine ⟨next, rfl, hfiled, ?_⟩
    rw [hcontents] at hmap
    exact hmap.erase
  · rw [hit, Option.bind_eq_bind, Option.bind_some, hfound, Option.bind_eq_bind, Option.bind_some,
      khDel, if_pos rfl, hlookup]
    refine ⟨self, rfl, h, ?_⟩
    have hsame : map.erase name = map := by
      refine Finmap.ext_lookup fun other => ?_
      by_cases hother : other = name
      · rw [hother, Finmap.lookup_erase, hlookup]
      · exact Finmap.lookup_erase_ne hother
    rwa [hsame]

omit [DecidableEq Key] in
private theorem tableClearLoop_spec {items : List ℕ}
    (hread : ∀ x ∈ items, ∃ bits, flag self.flags x = some bits) :
    tableClearLoop self items =
      some ((items.filter fun x => flag self.flags x = some 0).map self.vals) := by
  induction items with
  | nil => rfl
  | cons it rest ih =>
      obtain ⟨hhead, htail⟩ := List.forall_mem_cons.mp hread
      rw [tableClearLoop, khExist_eq hhead, Option.bind_eq_bind, Option.bind_some, ih htail,
        Option.bind_eq_bind, Option.bind_some, List.filter_cons]
      split_ifs <;> rfl

omit [DecidableEq Key] in
/-- **`kh_clear`** leaves a table without entries. -/
theorem Filed.khClear_spec (h : Filed hash self) :
    Filed hash (khClear self) ∧ contents (khClear self) = 0 := by
  rw [khClear]
  split_ifs with hflags
  · have hn : BucketCount self.nBuckets :=
      (h.sound.shape.resolve_left fun hempty => hflags hempty.2.1).1
    -- all flags say empty after the clear
    have hnone : existing (List.replicate (acFsize self.nBuckets) 0xAAAAAAAA) self.nBuckets = ∅ :=
      existing_fresh _ _
    have hzero : pairs (List.replicate (acFsize self.nBuckets) 0xAAAAAAAA) self.nBuckets
        self.keys self.vals = 0 := by
      rw [pairs, hnone]
      rfl
    have hunused : usedBuckets (List.replicate (acFsize self.nBuckets) 0xAAAAAAAA)
        self.nBuckets = ∅ := by
      refine Finset.filter_eq_empty_iff.mpr fun x _ hused => ?_
      obtain ⟨bits, hbits, hempty⟩ := hused
      rw [flag_fresh hbits] at hempty
      cases hempty
    refine ⟨⟨⟨.inr ⟨hn, List.length_replicate⟩, fun x _ hentry => ?_, ?_⟩, ?_, ?_, ?_, h.upper⟩,
      hzero⟩
    · exact absurd (flag_fresh hentry) (by decide)
    · dsimp only
      rw [hnone]
      rfl
    · dsimp only
      rw [hnone]
      exact fun x hx => absurd hx (Finset.notMem_empty x)
    · dsimp only
      rw [hzero]
      exact Multiset.nodup_zero
    · dsimp only
      rw [hunused]
      rfl
  -- a table without flags has no buckets
  · have hempty : self.nBuckets = 0 := by
      rcases h.sound.shape with ⟨hn, -⟩ | ⟨-, hwords⟩
      · exact hn
      · have hsome : 0 < acFsize self.nBuckets := by
          rw [acFsize, Nat.shiftRight_eq_div_pow]
          split_ifs <;> omega
        rw [not_not.mp hflags, List.length_nil] at hwords
        omega
    refine ⟨h, ?_⟩
    rw [contents, pairs, hempty]
    rfl

/-- **`CD_HashClear`** returns every value once, and leaves nothing. -/
theorem Filed.tableClear_spec (h : Filed hash self) (hmap : Tabulates (contents self) map) :
    ∃ next values, ∃ names : List Key, tableClear self = some (next, values) ∧ Filed hash next ∧
      Tabulates (contents next) ∅ ∧ names.Nodup ∧ (∀ name, name ∈ names ↔ name ∈ map) ∧
      values.map some = names.map map.lookup := by
  obtain ⟨hfiled, hnone⟩ := h.khClear_spec
  have hread : ∀ x ∈ List.range self.nBuckets, ∃ bits, flag self.flags x = some bits :=
    fun x hx => h.sound.exists_flag (List.mem_range.mp hx)
  let buckets := (List.range self.nBuckets).filter fun x => flag self.flags x = some 0
  have hbuckets : contents self = (buckets.map fun x => (self.keys x, self.vals x) : List _) := rfl
  have hnames : (contents self).map Prod.fst = (buckets.map self.keys : List Key) := by
    rw [hbuckets, Multiset.map_coe, List.map_map]
    rfl
  refine ⟨khClear self, buckets.map self.vals, buckets.map self.keys, ?_, hfiled, ?_, ?_,
    fun name => ?_, ?_⟩
  · rw [tableClear, tableClearLoop_spec hread]
    rfl
  · rw [hnone]
    exact tabulates_empty
  · have hnodup := hmap.nodup
    rwa [hnames, Multiset.coe_nodup] at hnodup
  · rw [← not_iff_not, ← Finmap.lookup_eq_none, hmap.lookup_eq_none, hnames, Multiset.mem_coe]
  · rw [List.map_map, List.map_map]
    refine List.map_congr_left fun x hx => ?_
    have hmem : (self.keys x, self.vals x) ∈ contents self := by
      rw [hbuckets, Multiset.mem_coe]
      exact List.mem_map_of_mem hx
    exact ((hmap.mem_iff _ _).mp hmem).symm

/-! ## Every list of calls -/

/-- **One call** of a table is one of the map that it stands for. -/
theorem Filed.tableCall_spec (h : Filed hash self) (hmap : Tabulates (contents self) map)
    {call : TableCall Key} (hroom : RoomToPut self call) :
    ∃ next answer map', tableCall hash self call = some (next, answer) ∧
      MapStep map call answer map' ∧ Filed hash next ∧ Tabulates (contents next) map' := by
  cases call with
  | put name data =>
      obtain ⟨next, hput, hfiled, hnext⟩ := h.tablePut_spec hmap hroom name data
      exact ⟨next, _, _, by rw [tableCall, hput]; rfl, .put name data, hfiled, hnext⟩
  | delete name =>
      obtain ⟨next, hdelete, hfiled, hnext⟩ := h.tableDelete_spec hmap name
      exact ⟨next, _, _, by rw [tableCall, hdelete]; rfl, .delete name, hfiled, hnext⟩
  | get name =>
      exact ⟨self, _, map, by rw [tableCall, h.tableGet_spec hmap]; rfl, .get name, h, hmap⟩
  | hasKey name =>
      exact ⟨self, _, map, by rw [tableCall, h.tableHasKey_spec hmap]; rfl, .hasKey name, h, hmap⟩
  | length =>
      exact ⟨self, _, map, by rw [tableCall, h.length_eq hmap], .length, h, hmap⟩
  | clear =>
      obtain ⟨next, values, names, hclear, hfiled, hnext, hnodup, hnames, hvalues⟩ :=
        h.tableClear_spec hmap
      exact ⟨next, _, ∅, by rw [tableCall, hclear]; rfl, .clear names values hnodup hnames hvalues,
        hfiled, hnext⟩

/-- **Every list of calls** is one of a finite map. -/
theorem Filed.exec_spec {keys : ℕ → Key} {vals : ℕ → CDPointer} {calls : List (TableCall Key)}
    (h : Filed hash self) (hmap : Tabulates (contents self) map)
    (hroom : (callSystem hash keys vals).ExecGuard RoomToPut calls self) :
    ∃ last answers map', (callSystem hash keys vals).exec calls self = some (last, answers) ∧
      MapRun map calls answers map' ∧ Filed hash last ∧ Tabulates (contents last) map' := by
  induction calls generalizing self map with
  | nil => exact ⟨self, [], map, rfl, .nil map, h, hmap⟩
  | cons call calls ih =>
      obtain ⟨hhead, htail⟩ := hroom
      obtain ⟨next, answer, middle, hcall, hstep, hfiled, hnext⟩ := h.tableCall_spec hmap hhead
      have hmoves : (callSystem hash keys vals).step self call = some (next, [answer]) :=
        congrArg (Option.map fun (result : KHash Key CDPointer × TableAnswer) =>
          (result.1, [result.2])) hcall
      simp only [hmoves] at htail
      obtain ⟨last, answers, map', hexec, hrun, hlast, hmap'⟩ := ih hfiled hnext htail
      refine ⟨last, answer :: answers, map', ?_, .cons hstep hrun, hlast, hmap'⟩
      rw [System.exec, hmoves]
      simp only [hexec, Option.map_some]
      rfl

/-! ## Clones -/

/-- What the loop of `CD_CloneHash` has put so far, for the buckets that it has seen. -/
def Copied (hash : Key → BitVec 32) (self cloned : KHash Key CDPointer) (seen : ℕ → Prop) : Prop :=
  Filed hash cloned ∧ ∃ copy : Finmap fun _ : Key => CDPointer,
    Tabulates (contents cloned) copy ∧
    ∀ name data, copy.lookup name = some data ↔
      ∃ x, seen x ∧ self.keys x = name ∧ self.vals x = data

theorem lookup_iff (hmap : Tabulates (contents self) map) (name : Key) (data : CDPointer) :
    map.lookup name = some data ↔
      ∃ x, x ∈ entries self ∧ self.keys x = name ∧ self.vals x = data := by
  rw [← hmap.mem_iff, contents, mem_pairs]
  constructor
  · rintro ⟨x, hlt, hflag, hkey, hdata⟩
    exact ⟨x, mem_existing.mpr ⟨hlt, hflag⟩, hkey, hdata⟩
  · rintro ⟨x, hx, hkey, hdata⟩
    obtain ⟨hlt, hflag⟩ := mem_existing.mp hx
    exact ⟨x, hlt, hflag, hkey, hdata⟩

theorem lookup_entry (hmap : Tabulates (contents self) map) (hx : x ∈ entries self) :
    map.lookup (self.keys x) = some (self.vals x) :=
  (lookup_iff hmap _ _).mpr ⟨x, hx, rfl, rfl⟩

theorem Copied.size_le (h : Filed hash self) (hmap : Tabulates (contents self) map)
    {cloned : KHash Key CDPointer} {seen : ℕ → Prop} (hcopied : Copied hash self cloned seen)
    (hseen : ∀ x, seen x → x ∈ entries self) : cloned.size ≤ self.size := by
  obtain ⟨hfiled, copy, hcopy, hlookup⟩ := hcopied
  have hkeys : copy.keys ⊆ map.keys := by
    intro name hname
    obtain ⟨data, hdata⟩ := Finmap.mem_iff.mp (Finmap.mem_keys.mp hname)
    obtain ⟨x, hx, rfl, rfl⟩ := (hlookup name data).mp hdata
    exact Finmap.mem_keys.mpr (Finmap.mem_iff.mpr ⟨_, lookup_entry hmap (hseen x hx)⟩)
  calc cloned.size = copy.keys.card := hfiled.length_eq hcopy
    _ ≤ map.keys.card := Finset.card_le_card hkeys
    _ = self.size := (h.length_eq hmap).symm

theorem Copied.put (hmap : Tabulates (contents self) map) {cloned : KHash Key CDPointer}
    {seen : ℕ → Prop} (hcopied : Copied hash self cloned seen)
    (hseen : ∀ x, seen x → x ∈ entries self) (hroom : cloned.size < 2 ^ 30)
    (hx : x ∈ entries self) :
    ∃ next old, tablePut hash cloned (self.keys x) (self.vals x) = some (next, old) ∧
      Copied hash self next fun y => seen y ∨ y = x := by
  obtain ⟨hfiled, copy, hcopy, hlookup⟩ := hcopied
  obtain ⟨next, hput, hnext, hinserted⟩ :=
    hfiled.tablePut_spec hcopy hroom (self.keys x) (self.vals x)
  refine ⟨next, _, hput, hnext, _, hinserted, fun name data => ?_⟩
  by_cases hname : name = self.keys x
  · -- two entries with one key are one entry
    subst hname
    rw [Finmap.lookup_insert, Option.some.injEq]
    constructor
    · exact fun hdata => ⟨x, .inr rfl, rfl, hdata⟩
    · rintro ⟨y, hy | rfl, hkey, rfl⟩
      · have hentry := lookup_entry hmap (hseen y hy)
        rw [hkey, lookup_entry hmap hx] at hentry
        exact Option.some.inj hentry
      · rfl
  · rw [Finmap.lookup_insert_of_ne _ hname, hlookup]
    constructor
    · rintro ⟨y, hy, hdata⟩
      exact ⟨y, .inl hy, hdata⟩
    · rintro ⟨y, hy | rfl, hkey, hdata⟩
      · exact ⟨y, hy, hkey, hdata⟩
      · exact absurd hkey.symm hname

theorem Copied.foldlM (h : Filed hash self) (hmap : Tabulates (contents self) map)
    (hsize : self.size < 2 ^ 30) {visited : List ℕ} {cloned : KHash Key CDPointer}
    {seen : ℕ → Prop} (hcopied : Copied hash self cloned seen)
    (hseen : ∀ x, seen x → x ∈ entries self) (hvisited : ∀ x ∈ visited, x ∈ entries self) :
    ∃ last, visited.foldlM (fun cloned it =>
        (tablePut hash cloned (self.keys it) (self.vals it)).map Prod.fst) cloned = some last ∧
      Copied hash self last fun y => seen y ∨ y ∈ visited := by
  induction visited generalizing cloned seen with
  | nil =>
      refine ⟨cloned, rfl, ?_⟩
      simpa only [List.not_mem_nil, or_false] using hcopied
  | cons x rest ih =>
      obtain ⟨hx, hrest⟩ := List.forall_mem_cons.mp hvisited
      have hroom := (Copied.size_le h hmap hcopied hseen).trans_lt hsize
      obtain ⟨next, old, hput, hnext⟩ := hcopied.put hmap hseen hroom hx
      obtain ⟨last, hlast, hall⟩ := ih hnext (fun y hy => hy.elim (hseen y) (· ▸ hx)) hrest
      refine ⟨last, ?_, ?_⟩
      · rw [List.foldlM_cons, hput]
        exact hlast
      · simpa only [List.mem_cons, or_assoc] using hall

omit [DecidableEq Key] in
/-- From 16 buckets on, the loop over a table that is not empty tests a flag of no word. -/
theorem Sound.tableForeach_outside (h : Sound self) (hsize : 0 < self.size)
    (hmany : ¬ self.nBuckets < 16) : tableForeach self = none := by
  obtain ⟨-, hwords⟩ := h.bucketCount (by omega)
  have hnone : flag self.flags self.nBuckets = none := by
    rw [flag_eq_none_iff, hwords, acFsize, if_neg hmany, Nat.shiftRight_eq_div_pow]
    exact Nat.mul_div_le _ _
  rw [tableForeach, if_pos hsize, tableBegin, khExist, hnone]
  rfl

/-- **`CD_CloneHash`** makes a table for the same map, unless its loop reads outside. -/
theorem Filed.tableClone_iff (h : Filed hash self) (hmap : Tabulates (contents self) map)
    (keys : ℕ → Key) (vals : ℕ → CDPointer) :
    (∃ cloned, tableClone hash self keys vals = some cloned ∧
        Tabulates (contents cloned) map) ↔ map = ∅ ∨ self.nBuckets < 16 := by
  have hcard : self.size = map.keys.card := h.length_eq hmap
  rcases Nat.eq_zero_or_pos self.size with hempty | hsize
  -- the loop is not entered where nothing is in the table
  · have hnone : map = ∅ := by
      refine Finmap.ext_lookup fun name => ?_
      rw [hempty, eq_comm, Finset.card_eq_zero] at hcard
      rw [Finmap.lookup_empty, Finmap.lookup_eq_none, ← Finmap.mem_keys, hcard]
      exact Finset.notMem_empty name
    refine iff_of_true ⟨khInit keys vals, ?_, ?_⟩ (.inl hnone)
    · rw [tableClone, tableForeach, hempty]
      rfl
    · rw [hnone]
      exact tabulates_empty
  · have hsome : map ≠ ∅ := by
      rintro rfl
      rw [Finmap.keys_empty, Finset.card_empty] at hcard
      omega
    have hentry : (entries self).Nonempty := by
      rw [h.sound.counted] at hsize
      exact Finset.card_pos.mp hsize
    rw [or_iff_right hsome]
    constructor
    -- from 16 buckets on the loop has no outcome
    · rintro ⟨cloned, hclone, -⟩
      by_contra hmany
      rw [tableClone, h.sound.tableForeach_outside hsize hmany] at hclone
      cases hclone
    · intro hfew
      -- below 16 buckets it visits all entries, and each is put
      obtain ⟨visited, hvisited, -, hmem⟩ := (h.sound.foreachComplete_iff hentry).mpr hfew
      have hroom : self.size < 2 ^ 30 := by
        have hle : (entries self).card ≤ self.nBuckets := card_existing_le
        rw [h.sound.counted]
        exact hle.trans_lt (hfew.trans (by decide))
      have hstart : Copied hash self (khInit keys vals) fun _ => False :=
        ⟨filed_khInit hash keys vals, ∅, tabulates_empty, by simp⟩
      obtain ⟨last, hlast, hfiled, copy, hcopy, hlookup⟩ :=
        Copied.foldlM h hmap hroom hstart (fun _ => False.elim) fun x hx => (hmem x).mp hx
      refine ⟨last, ?_, ?_⟩
      · rw [tableClone, hvisited]
        exact hlast
      · have hsame : copy = map := by
          refine Finmap.ext_lookup fun name => Option.ext fun data => ?_
          rw [hlookup, lookup_iff hmap]
          simp only [false_or, hmem]
        rwa [← hsame]

/-! ## Hashes and maps -/

/-- Every use of a `CDHash`. -/
def hashCalls := callSystem acX31HashString

/-- Every use of a `CDMap`. -/
def mapCalls := callSystem khInt64HashFunc

/-- **Hashes and maps are finite maps.**  Whatever calls are made of a hash or of a map, as long as
it has fewer than `2 ^ 30` entries when something is put, every call returns, and all answers are
those of a finite map that starts empty; the table holds what that map holds in the end. -/
theorem tables_are_finite_maps (names : ℕ → List Byte) (ids : ℕ → CDMapId) (vals : ℕ → CDPointer)
    (hashUses : List (TableCall (List Byte))) (mapUses : List (TableCall CDMapId)) :
    ((hashCalls names vals).ExecGuard RoomToPut hashUses (khInit names vals) →
      ∃ (self : CDHash) (answers : List TableAnswer) (map : Finmap fun _ => CDPointer),
        (hashCalls names vals).exec hashUses (khInit names vals) = some (self, answers) ∧
        MapRun ∅ hashUses answers map ∧ Tabulates (contents self) map) ∧
    ((mapCalls ids vals).ExecGuard RoomToPut mapUses (khInit ids vals) →
      ∃ (self : CDMap) (answers : List TableAnswer) (map : Finmap fun _ => CDPointer),
        (mapCalls ids vals).exec mapUses (khInit ids vals) = some (self, answers) ∧
        MapRun ∅ mapUses answers map ∧ Tabulates (contents self) map) := by
  constructor
  · intro hroom
    obtain ⟨self, answers, map, hexec, hrun, -, hmap⟩ :=
      (filed_khInit acX31HashString names vals).exec_spec tabulates_empty hroom
    exact ⟨self, answers, map, hexec, hrun, hmap⟩
  · intro hroom
    obtain ⟨self, answers, map, hexec, hrun, -, hmap⟩ :=
      (filed_khInit khInt64HashFunc ids vals).exec_spec tabulates_empty hroom
    exact ⟨self, answers, map, hexec, hrun, hmap⟩

/-- A name is put twice, another one looked for, and the first deleted. -/
def nameUses : List (TableCall (List Byte)) :=
  [.put [0x6C, 0x6F, 0x6C] 1, .put [0x6C, 0x6F, 0x6C] 2, .hasKey [0x6F, 0x6D, 0x67],
    .delete [0x6C, 0x6F, 0x6C], .length]

/-- Two numbers are put, one is looked up, and the map is cleared. -/
def idUses : List (TableCall CDMapId) := [.put 7 1, .put 8 2, .get 8, .length, .clear, .get 8]

theorem tables_are_finite_maps_uses :
    (∃ (self : CDHash) (map : Finmap fun _ => CDPointer),
      (hashCalls (fun _ => []) fun _ => 0).exec nameUses (khInit (fun _ => []) fun _ => 0) =
        some (self, [.data 0, .data 1, .exist false, .data 2, .length 0]) ∧
      MapRun ∅ nameUses [.data 0, .data 1, .exist false, .data 2, .length 0] map ∧
      Tabulates (contents self) map) ∧
    ∃ (self : CDMap) (map : Finmap fun _ => CDPointer),
      (mapCalls (fun _ => 0) fun _ => 0).exec idUses (khInit (fun _ => 0) fun _ => 0) =
        some (self, [.data 0, .data 0, .data 2, .length 2, .values [2, 1], .data 0]) ∧
      MapRun ∅ idUses [.data 0, .data 0, .data 2, .length 2, .values [2, 1], .data 0] map ∧
      Tabulates (contents self) map := by
  obtain ⟨hhash, hmap⟩ :=
    tables_are_finite_maps (fun _ => []) (fun _ => 0) (fun _ => 0) nameUses idUses
  have hnames : ((hashCalls (fun _ => []) fun _ => 0).exec nameUses
      (khInit (fun _ => []) fun _ => 0)).map Prod.snd =
        some [.data 0, .data 1, .exist false, .data 2, .length 0] := by
    decide +kernel
  have hids : ((mapCalls (fun _ => 0) fun _ => 0).exec idUses
      (khInit (fun _ => 0) fun _ => 0)).map Prod.snd =
        some [.data 0, .data 0, .data 2, .length 2, .values [2, 1], .data 0] := by
    decide +kernel
  obtain ⟨names, nameAnswers, nameMap, hexecNames, hrunNames, hnameMap⟩ := hhash (by decide +kernel)
  obtain ⟨ids, idAnswers, idMap, hexecIds, hrunIds, hidMap⟩ := hmap (by decide +kernel)
  rw [hexecNames] at hnames
  rw [hexecIds] at hids
  cases hnames
  cases hids
  exact ⟨⟨names, nameMap, hexecNames, hrunNames, hnameMap⟩, ids, idMap, hexecIds, hrunIds, hidMap⟩

/-- **A clone holds the same**, in every hash and every map that calls lead to, where the table is
empty or has fewer than 16 buckets; in no other one does the cloning return. -/
theorem clones_hold_the_same (names : ℕ → List Byte) (ids : ℕ → CDMapId) (vals : ℕ → CDPointer)
    (hashUses : List (TableCall (List Byte))) (mapUses : List (TableCall CDMapId)) :
    ((hashCalls names vals).ExecGuard RoomToPut hashUses (khInit names vals) →
      ∃ (self : CDHash) (answers : List TableAnswer) (map : Finmap fun _ => CDPointer),
        (hashCalls names vals).exec hashUses (khInit names vals) = some (self, answers) ∧
        Tabulates (contents self) map ∧
        ((∃ cloned, tableClone acX31HashString self names vals = some cloned ∧
            Tabulates (contents cloned) map) ↔ map = ∅ ∨ self.nBuckets < 16)) ∧
    ((mapCalls ids vals).ExecGuard RoomToPut mapUses (khInit ids vals) →
      ∃ (self : CDMap) (answers : List TableAnswer) (map : Finmap fun _ => CDPointer),
        (mapCalls ids vals).exec mapUses (khInit ids vals) = some (self, answers) ∧
        Tabulates (contents self) map ∧
        ((∃ cloned, tableClone khInt64HashFunc self ids vals = some cloned ∧
            Tabulates (contents cloned) map) ↔ map = ∅ ∨ self.nBuckets < 16)) := by
  constructor
  · intro hroom
    obtain ⟨self, answers, map, hexec, -, hfiled, hmap⟩ :=
      (filed_khInit acX31HashString names vals).exec_spec tabulates_empty hroom
    exact ⟨self, answers, map, hexec, hmap, hfiled.tableClone_iff hmap names vals⟩
  · intro hroom
    obtain ⟨self, answers, map, hexec, -, hfiled, hmap⟩ :=
      (filed_khInit khInt64HashFunc ids vals).exec_spec tabulates_empty hroom
    exact ⟨self, answers, map, hexec, hmap, hfiled.tableClone_iff hmap ids vals⟩

theorem clones_hold_the_same_uses :
    (∃ (self cloned : CDHash) (map : Finmap fun _ => CDPointer),
      ((hashCalls (fun _ => []) fun _ => 0).exec (nameUses.take 2)
        (khInit (fun _ => []) fun _ => 0)).map Prod.fst = some self ∧
      tableClone acX31HashString self (fun _ => []) (fun _ => 0) = some cloned ∧
      Tabulates (contents self) map ∧ Tabulates (contents cloned) map) ∧
    ∃ (self cloned : CDMap) (map : Finmap fun _ => CDPointer),
      ((mapCalls (fun _ => 0) fun _ => 0).exec (idUses.take 3) (khInit (fun _ => 0) fun _ => 0)).map
        Prod.fst = some self ∧
      tableClone khInt64HashFunc self (fun _ => 0) (fun _ => 0) = some cloned ∧
      Tabulates (contents self) map ∧ Tabulates (contents cloned) map := by
  obtain ⟨hhash, hmap⟩ :=
    clones_hold_the_same (fun _ => []) (fun _ => 0) (fun _ => 0) (nameUses.take 2)
      (idUses.take 3)
  have hnames : ((hashCalls (fun _ => []) fun _ => 0).exec (nameUses.take 2)
      (khInit (fun _ => []) fun _ => 0)).map (fun last => last.1.nBuckets) = some 4 := by
    decide +kernel
  have hids : ((mapCalls (fun _ => 0) fun _ => 0).exec (idUses.take 3)
      (khInit (fun _ => 0) fun _ => 0)).map (fun last => last.1.nBuckets) = some 4 := by
    decide +kernel
  obtain ⟨names, nameAnswers, nameMap, hexecNames, hnameMap, hcloneNames⟩ :=
    hhash (by decide +kernel)
  obtain ⟨ids, idAnswers, idMap, hexecIds, hidMap, hcloneIds⟩ := hmap (by decide +kernel)
  rw [hexecNames] at hnames
  rw [hexecIds] at hids
  have hfewNames : names.nBuckets = 4 := Option.some.inj hnames
  have hfewIds : ids.nBuckets = 4 := Option.some.inj hids
  obtain ⟨nameClone, hnameClone, hnamesSame⟩ :=
    hcloneNames.mpr (.inr (hfewNames ▸ by decide))
  obtain ⟨idClone, hidClone, hidsSame⟩ :=
    hcloneIds.mpr (.inr (hfewIds ▸ by decide))
  exact ⟨⟨names, nameClone, nameMap, congrArg (Option.map Prod.fst) hexecNames, hnameClone,
    hnameMap, hnamesSame⟩, ids, idClone, idMap, congrArg (Option.map Prod.fst) hexecIds, hidClone,
    hidMap, hidsSame⟩

end Craftd.Containers
