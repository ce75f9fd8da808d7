import Std.Data.HashMap
import TimedBridge.Agent

/-!
The memory: the target that holds bytes. A timed request is in service for the memory's latency and
is performed when it completes, in order of arrival; atomic and functional accesses are performed at
once. The memory can refuse each timed request whose number in the order of offers is divisible by a
given one; the numbers wrap at 32 bits.
-/

namespace TimedBridge

/-- The target that holds bytes. -/
structure Memory where
  /-- The bytes that have been written; all others are zero. -/
  bytes : Std.HashMap Address UInt8 := {}
  latency : Tick
  refuseEvery : UInt32
  /-- The number of the last timed offer. -/
  offered : UInt32 := 0
  refusals : Nat := 0
  /-- A refusal has not been followed by a retry. -/
  owesRetry : Bool := false
  /-- The requests in service, the oldest first. -/
  inService : List Packet := []
  /-- The number of requests taken since the last look. -/
  newlyAccepted : Nat := 0

namespace Memory

/-- The byte at an address. -/
def byteAt (m : Memory) (a : Address) : UInt8 := m.bytes.getD a 0

/-- The `count` bytes from an address on; behind the last address comes the first. -/
def readFrom (m : Memory) : Address → Nat → List UInt8
  | _, 0 => []
  | a, count + 1 => m.byteAt a :: readFrom m (a + 1) count

/-- The bytes of an access. -/
def read (m : Memory) (a : Address) (size : UInt64) : List UInt8 := m.readFrom a size.toNat

/-- Stores bytes from an address on. -/
def store (m : Memory) : Address → List UInt8 → Memory
  | _, [] => m
  | a, b :: rest => { m with bytes := m.bytes.insert a b }.store (a + 1) rest

theorem byteAt_insert (m : Memory) (a q : Address) (b : UInt8) :
    { m with bytes := m.bytes.insert a b }.byteAt q = if q = a then b else m.byteAt q := by
  rw [byteAt, Std.HashMap.getD_insert]
  by_cases h : q = a
  · simp [h]
  · rw [beq_eq_false_iff_ne.2 (Ne.symm h), if_neg h]
    rfl

/-- A byte after bytes have been stored: the one whose position is its distance from the first
address, or the byte that was there before. -/
theorem byteAt_store (m : Memory) (a q : Address) {bytes : List UInt8}
    (h : bytes.length ≤ UInt64.size) :
    (m.store a bytes).byteAt q = bytes[(q - a).toNat]?.getD (m.byteAt q) := by
  induction bytes generalizing m a with
  | nil => rfl
  | cons b rest ih =>
    rw [List.length_cons] at h
    rw [store, ih _ _ (by omega), byteAt_insert, show q - (a + 1) = q - a - 1 by grind]
    split
    · rename_i heq
      have hlast : rest.length ≤ (0 - 1 : UInt64).toNat := by
        change rest.length ≤ UInt64.size - 1
        omega
      rw [heq, UInt64.sub_self, List.getElem?_eq_none hlast]
      rfl
    · rename_i hne
      have hpos : (q - a).toNat ≠ 0 := fun h0 => by
        have : q - a = 0 := UInt64.toNat_inj.1 h0
        exact hne (by grind)
      have hone : (1 : UInt64) ≤ q - a := UInt64.le_iff_toNat_le.2 (Nat.pos_of_ne_zero hpos)
      rw [UInt64.toNat_sub_of_le _ _ hone]
      obtain ⟨n, hn⟩ := Nat.exists_eq_succ_of_ne_zero hpos
      rw [hn]
      rfl

theorem length_readFrom (m : Memory) (a : Address) (count : Nat) :
    (m.readFrom a count).length = count := by
  induction count generalizing a with
  | zero => rfl
  | succ count ih => rw [readFrom, List.length_cons, ih]

theorem getElem?_readFrom (m : Memory) (a : Address) {count i : Nat} (h : i < count) :
    (m.readFrom a count)[i]? = some (m.byteAt (a + UInt64.ofNat i)) := by
  induction count generalizing a i with
  | zero => contradiction
  | succ count ih =>
    cases i with
    | zero => simp [readFrom]
    | succ i =>
      rw [readFrom, List.getElem?_cons_succ, ih _ (by omega), UInt64.ofNat_add,
        UInt64.add_assoc, UInt64.add_comm 1]
      rfl

/-- Performs an access and turns it into its response; responses are left alone. -/
def perform (m : Memory) (packet : Packet) : Memory × Packet :=
  match packet.command with
  | .readRequest =>
    (m, { packet.respond with data := some (m.read packet.address packet.size) })
  | .writeRequest | .writeback =>
    match packet.data with
    | some bytes => (m.store packet.address bytes, packet.respond)
    | none => (m, packet.respond)
  | .readResponse | .writeResponse => (m, packet)

/-- The number of requests taken since the last look, and the memory after the look. -/
def takeNewlyAccepted (m : Memory) : Nat × Memory := (m.newlyAccepted, { m with newlyAccepted := 0 })

/-- Whether a retry is owed since the last look, and the memory after the look. -/
def takeOwedRetry (m : Memory) : Bool × Memory := (m.owesRetry, { m with owesRetry := false })

/-- Completes the oldest request in service; a request that expects no answer yields none. -/
def completeNext (m : Memory) : Option Packet × Memory :=
  match m.inService with
  | [] => (none, m)
  | packet :: rest =>
    let (m, answered) := { m with inService := rest }.perform packet
    (if packet.expectsResponse then some answered else none, m)

/-- Takes or refuses a timed request. -/
def offer (m : Memory) (packet : Packet) : Memory × Admission :=
  let m := { m with offered := m.offered + 1 }
  if m.refuseEvery ≠ 0 ∧ m.offered % m.refuseEvery = 0 then
    ({ m with refusals := m.refusals + 1, owesRetry := true }, .refused packet)
  else
    ({ m with inService := m.inService ++ [packet], newlyAccepted := m.newlyAccepted + 1 },
      .accepted)

end Memory

instance : Target Memory where
  offerRequest := Memory.offer
  atomic m packet :=
    let (m, answered) := m.perform packet
    (m, answered, m.latency)
  functional := Memory.perform

end TimedBridge
