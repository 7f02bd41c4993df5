import Craftd.Library.ChainedTable
import Craftd.Containers.List

/-!
# Sets

A translation of `Set.c`: a hash table whose buckets are chains of members.  A
set carries the heap its members live in; reading or writing through NULL or
through a member that was freed, and reading or writing a bucket at or behind
`size`, have no outcome (`none`), like a failed assertion.

No pointer to a member ever leaves a set, so the members are named by the order
in which they were created: an access to a freed one would have no outcome even
where `CD_malloc` hands the address out again.  A walk along the links takes at
most as many steps as members were ever created.

`Value` stands for the pointers that are not NULL; the operations assert that
they got one.  The operations on two sets assert that both have the same `cmp`
and the same `hash`, so the model takes the two once, as `CDSetMethods`.
-/

namespace Craftd.Containers

open ChainedTable

/-- `CDSetCompare` and `CDSetHash`, the two functions a set is created with. -/
structure CDSetMethods (Value : Type) where
  cmp : Value → Value → Bool
  hash : Value → BitVec 32

/-- `cmpAtom` and `hashAtom`. -/
def atom : CDSetMethods CDPointer where
  cmp := fun a b => a == b
  hash := fun pointer => (pointer >>> 2).setWidth 32

/-- `CDSetMember`. -/
abbrev CDSetMember (Value : Type) := Cell ℕ Value

/-- `CDSet`, with the heap of its members and the number of members created. -/
structure CDSet (Value : Type) where
  length : ℕ
  timestamp : BitVec 32
  size : ℕ
  buckets : ℕ → Option ℕ
  heap : ℕ → Option (CDSetMember Value)
  created : ℕ

variable {Value : Type} (m : CDSetMethods Value)

/-- The first of the `primes`; the loop of `CD_CreateSetWith` begins behind it. -/
def firstPrime : ℕ := 509

/-- The other `primes`; the last is `INT_MAX`. -/
def laterPrimes : List ℕ := [1021, 2053, 4093, 8191, 16381, 32771, 65521, 2147483647]

/-- The loop of `CD_CreateSetWith`: the prime before the first one, behind the
first of all, that is not below the hint. -/
def sizeLoop (hint : ℤ) : ℕ → List ℕ → ℕ
  | previous, [] => previous
  | previous, prime :: rest => if (prime : ℤ) < hint then sizeLoop hint prime rest else previous

/-- The size of a set created with the hint. -/
def sizeFor (hint : BitVec 32) : ℕ :=
  sizeLoop hint.toInt firstPrime laterPrimes

/-- `CD_CreateSetWith`; it asserts that the hint is not negative. -/
def createSetWith (hint : BitVec 32) : Option (CDSet Value) :=
  if hint.slt 0 then
    none
  else
    some {
      length := 0
      timestamp := 0
      size := sizeFor hint
      buckets := fun _ => none
      heap := fun _ => none
      created := 0 }

/-- `CD_CreateSet`. -/
def createSet : Option (CDSet CDPointer) :=
  createSetWith 4000

/-- The index of a value, `self->hash(self, value) % self->size`. -/
def CDSetMethods.index (self : CDSet Value) (value : Value) : ℕ :=
  (m.hash value).toNat % self.size

/-- Read `self->buckets[index]`. -/
def CDSet.bucketAt (self : CDSet Value) (index : ℕ) : Option (Option ℕ) :=
  if index < self.size then some (self.buckets index) else none

/-- A new member in front of the chain of bucket `index`, stored in `bucket`. -/
def CDSet.chainMember (self : CDSet Value) (bucket index : ℕ) (value : Value) :
    Option (CDSet Value) := do
  let next ← self.bucketAt index
  if bucket < self.size then
    some { self with
      buckets := Function.update self.buckets bucket (some self.created)
      heap := Function.update self.heap self.created (some ⟨next, value⟩)
      created := self.created + 1
      length := self.length + 1 }
  else
    none

/-- The loop of `CD_SetHas` and `CD_SetPut` along a chain: the member that is
equivalent to the value, NULL when there is none. -/
def findLoop (self : CDSet Value) (value : Value) : ℕ → Option ℕ → Option (Option ℕ)
  | _, none => some none
  | 0, some _ => none
  | fuel + 1, some member => do
      let cell ← self.heap member
      if m.cmp value cell.value then some (some member) else findLoop self value fuel cell.next

/-- `CD_SetHas`. -/
def setHas (self : CDSet Value) (value : Value) : Option Bool := do
  let start ← self.bucketAt (m.index self value)
  let member ← findLoop m self value self.created start
  some member.isSome

/-- `CD_SetPut`. -/
def setPut (self : CDSet Value) (value : Value) : Option (CDSet Value) := do
  let index := m.index self value
  let start ← self.bucketAt index
  let self ← match ← findLoop m self value self.created start with
    | none => self.chainMember index index value
    | some member => do
        let cell ← self.heap member
        some { self with
          heap := Function.update self.heap member (some { cell with value := value }) }
  some { self with timestamp := self.timestamp + 1 }

/-- A `CDSetMember**`: the address of a bucket or of the link of a member. -/
inductive Link
  | bucket (index : ℕ)
  | next (member : ℕ)

/-- Read through a `CDSetMember**`. -/
def CDSet.readLink (self : CDSet Value) : Link → Option (Option ℕ)
  | .bucket index => self.bucketAt index
  | .next member => (self.heap member).map Cell.next

/-- Write through a `CDSetMember**`. -/
def CDSet.writeLink (self : CDSet Value) (target : Option ℕ) : Link → Option (CDSet Value)
  | .bucket index =>
      if index < self.size then
        some { self with buckets := Function.update self.buckets index target }
      else
        none
  | .next member => (self.heap member).map fun cell =>
      { self with heap := Function.update self.heap member (some { cell with next := target }) }

/-- The loop of `CD_SetDelete`; NULL, when nothing is found, is `none`. -/
def deleteLoop (self : CDSet Value) (value : Value) :
    ℕ → Link → Option (CDSet Value × Option Value)
  | 0, _ => none
  | fuel + 1, members => do
      match ← self.readLink members with
      | none => some (self, none)
      | some member => do
          let cell ← self.heap member
          if m.cmp value cell.value then
            let self ← self.writeLink cell.next members
            some ({ self with
              heap := Function.update self.heap member none
              length := self.length - 1 }, some cell.value)
          else
            deleteLoop self value fuel (.next member)

/-- `CD_SetDelete`. -/
def setDelete (self : CDSet Value) (value : Value) : Option (CDSet Value × Option Value) :=
  deleteLoop m { self with timestamp := self.timestamp + 1 } value (self.created + 1)
    (.bucket (m.index self value))

/-- The inner loop over all members, along one chain. -/
def chainValues (self : CDSet Value) : ℕ → Option ℕ → Option (List Value)
  | _, none => some []
  | 0, some _ => none
  | fuel + 1, some member => do
      let cell ← self.heap member
      let rest ← chainValues self fuel cell.next
      some (cell.value :: rest)

/-- The outer loop over all members, over the given buckets. -/
def membersLoop (self : CDSet Value) : List ℕ → Option (List (ℕ × Value))
  | [] => some []
  | i :: rest => do
      let values ← chainValues self self.created (self.buckets i)
      let later ← membersLoop self rest
      some (values.map (i, ·) ++ later)

/-- What the two loops of `CD_SetMap`, `CD_SetToArray` and the operations on two
sets go through: each member with the `i` of its bucket. -/
def setMembers (self : CDSet Value) : Option (List (ℕ × Value)) :=
  membersLoop self (List.range self.size)

/-- The loop by which `CD_CloneSet`, `CD_SetIntersect`, `CD_SetMinus` and
`CD_SetDifference` chain the members that pass a test into the result.  It takes
the chain of the bucket the value belongs in, and stores it in bucket `i`. -/
def copyLoop (keep : Value → Option Bool) :
    List (ℕ × Value) → CDSet Value → Option (CDSet Value)
  | [], result => some result
  | (i, value) :: rest, result => do
      if ← keep value then
        let result ← result.chainMember i (m.index result value) value
        copyLoop keep rest result
      else
        copyLoop keep rest result

/-- `CD_CloneSet`. -/
def cloneSet (self : CDSet Value) (hint : BitVec 32) : Option (CDSet Value) := do
  let cloned ← createSetWith hint
  copyLoop m (fun _ => some true) (← setMembers self) cloned

/-- The loop of `CD_SetUnion`. -/
def putLoop : List (ℕ × Value) → CDSet Value → Option (CDSet Value)
  | [], result => some result
  | (_, value) :: rest, result => do
      let result ← setPut m result value
      putLoop rest result

/-- `CD_SetUnion`; it asserts that not both sets are NULL. -/
def setUnion : Option (CDSet Value) → Option (CDSet Value) → Option (CDSet Value)
  | none, none => none
  | none, some b => cloneSet m b (.ofNat 32 b.size)
  | some a, none => cloneSet m a (.ofNat 32 a.size)
  | some a, some b => do
      let result ← cloneSet m a (.ofNat 32 (max a.size b.size))
      putLoop m (← setMembers b) result

/-- `CD_SetIntersect` once `a` is not the shorter one. -/
def intersectLonger (a b : CDSet Value) : Option (CDSet Value) := do
  let result ← createSetWith (.ofNat 32 (min a.size b.size))
  copyLoop m (setHas m a) (← setMembers b) result

/-- `CD_SetIntersect`. -/
def setIntersect : Option (CDSet Value) → Option (CDSet Value) → Option (CDSet Value)
  | none, none => none
  | none, some b => createSetWith (.ofNat 32 b.size)
  | some a, none => createSetWith (.ofNat 32 a.size)
  | some a, some b =>
      if a.length < b.length then intersectLonger m b a else intersectLonger m a b

/-- `!CD_SetHas(self, value)`. -/
def setLacks (self : CDSet Value) (value : Value) : Option Bool :=
  (setHas m self value).map not

/-- `CD_SetMinus`. -/
def setMinus : Option (CDSet Value) → Option (CDSet Value) → Option (CDSet Value)
  | none, none => none
  | none, some b => createSetWith (.ofNat 32 b.size)
  | some a, none => cloneSet m a (.ofNat 32 a.size)
  | some a, some b => do
      let result ← createSetWith (.ofNat 32 (min a.size b.size))
      copyLoop m (setLacks m b) (← setMembers a) result

/-- `CD_SetDifference`: first the members of `b`, then those of `a`. -/
def setDifference : Option (CDSet Value) → Option (CDSet Value) → Option (CDSet Value)
  | none, none => none
  | none, some b => cloneSet m b (.ofNat 32 b.size)
  | some a, none => cloneSet m a (.ofNat 32 a.size)
  | some a, some b => do
      let result ← createSetWith (.ofNat 32 (min a.size b.size))
      let result ← copyLoop m (setLacks m a) (← setMembers b) result
      copyLoop m (setLacks m b) (← setMembers a) result

/-- A call on one set. -/
inductive SetCall (Value : Type)
  | has (value : Value)
  | put (value : Value)
  | delete (value : Value)

/-- What a call on a set returns; `CDNull` is the `none` of `stored`. -/
inductive SetAnswer (Value : Type)
  | truth (answer : Bool)
  | done
  | stored (value : Option Value)

/-- The set after a call, and what the call returned. -/
def setCall (self : CDSet Value) : SetCall Value → Option (CDSet Value × SetAnswer Value)
  | .has value => (setHas m self value).map fun answer => (self, .truth answer)
  | .put value => (setPut m self value).map fun self => (self, .done)
  | .delete value => (setDelete m self value).map fun (self, value) => (self, .stored value)

end Craftd.Containers
