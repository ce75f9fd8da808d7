import TimedBridge.Proofs.Bridge.UntimedCalls
import TimedBridge.Proofs.Deliveries

/-!
What a functional read answers. It takes its bytes from the first waiting packet that carries all of
them, the responses before the requests and each queue from its head, and from the memory if there is
no such packet (`functional_of_read`). It changes nothing: neither the queues nor the memory.
-/

namespace TimedBridge

namespace Packet

/-- The response that brings bytes back to a read. -/
def answeredWith (r : Packet) (bytes : List UInt8) : Packet := { r.respond with data := some bytes }

variable {r p : Packet} {bytes : List UInt8}

theorem respond_of_read (h : r.command = .readRequest) (bytes : List UInt8) :
    { r with data := some bytes }.respond = r.answeredWith bytes := by
  simp [respond, answeredWith, h, Command.response?]

theorem snoop_readRequest (h : r.command = .readRequest) (p : Packet) :
    r.snoop p =
      match r.servedFrom? p with
      | some bytes => ⟨{ r with data := some bytes }, p, true⟩
      | none => ⟨r, p, false⟩ := by
  unfold snoop
  split
  next => rfl
  all_goals simp_all

/-! ### The bytes that a packet has for a read -/

theorem servedFrom?_eq_some_iff :
    r.servedFrom? p = some bytes ↔
      p.command.hasData = true ∧ p.footprint.covers r.footprint = true ∧
        ∃ held ∈ p.data,
          bytesAt? held (r.address.toNat - p.address.toNat) r.size.toNat = some bytes := by
  simp [servedFrom?, Option.bind_eq_some_iff, and_assoc]

theorem hasData_of_servedFrom? (h : r.servedFrom? p = some bytes) : p.command.hasData = true :=
  (servedFrom?_eq_some_iff.1 h).1

theorem length_of_servedFrom? (h : r.servedFrom? p = some bytes) : bytes.length = r.size.toNat := by
  obtain ⟨-, -, held, -, hbytes⟩ := servedFrom?_eq_some_iff.1 h
  exact length_of_bytesAt? hbytes

/-- Each byte that a packet gives to a read is the one that it carries for the same address. -/
theorem byteFor?_of_servedFrom? (h : r.servedFrom? p = some bytes) {i : Nat}
    (hi : i < r.size.toNat) : p.byteFor? (r.address.toNat + i) = bytes[i]? := by
  obtain ⟨-, hcovers, held, hheld, hbytes⟩ := servedFrom?_eq_some_iff.1 h
  have hbegins : p.address.toNat ≤ r.address.toNat := by
    have hle := (Bool.and_eq_true_iff.1 hcovers).1
    rw [decide_eq_true_iff] at hle
    exact UInt64.le_iff_toNat_le.1 hle
  rw [byteFor?_of_data hheld, if_pos (by omega), getElem?_of_bytesAt? hbytes hi]
  congr 1
  omega

end Packet

/-! ### A functional access that stores nothing -/

theorem Packet.held_snoop_of_read {access held : Packet} (h : access.isWrite = false) :
    (access.snoop held).held = held := by
  rw [isWrite_eq_false_iff] at h
  rw [snoop]
  split
  next => cases access.servedFrom? held <;> rfl
  next hcommand => exact absurd hcommand h.1
  next hcommand => exact absurd hcommand h.2
  next => rfl
  next => rfl

namespace TransmitQueue

theorem snoopEntries_of_read {access : Packet} (h : access.isWrite = false) (entries : List Deferred) :
    (snoopEntries access entries).1 = entries := by
  induction entries with
  | nil => rfl
  | cons e rest ih =>
    rw [snoopEntries]
    dsimp only
    split
    next => rw [Packet.held_snoop_of_read h]
    next hserved =>
      rw [Packet.access_snoop (Bool.not_eq_true _ ▸ hserved), Packet.held_snoop_of_read h]
      exact congrArg (e :: ·) ih

/-- A functional access that stores nothing leaves the packets that it meets. -/
theorem packets_snoop_of_read {q q' : TransmitQueue} {access access' : Packet} {served : Bool}
    (hread : access.isWrite = false) (h : q.snoop access = (q', access', served)) :
    q'.packets = q.packets := by
  obtain rfl : { q with entries := (snoopEntries access q.entries).1 } = q' := congrArg Prod.fst h
  rw [packets, packets, snoopEntries_of_read hread]

/-! ### A functional read meets a queue -/

/-- The bytes for a read in the first waiting packet that carries all of them. -/
def bytesFor? (q : TransmitQueue) (r : Packet) : Option (List UInt8) :=
  q.packets.findSome? r.servedFrom?

/-- The packets behind which none has a read's bytes, the packet that has them, and those behind it. -/
theorem exists_of_bytesFor? {q : TransmitQueue} {r : Packet} {bytes : List UInt8}
    (h : q.bytesFor? r = some bytes) :
    ∃ before p after, q.packets = before ++ p :: after ∧ r.servedFrom? p = some bytes ∧
      ∀ p' ∈ before, r.servedFrom? p' = none := by
  obtain ⟨before, p, after, hsplit, hp, hbefore⟩ := List.findSome?_eq_some_iff.1 h
  exact ⟨before, p, after, hsplit, hp, hbefore⟩

variable {r : Packet} (hread : r.command = .readRequest)

include hread

theorem snoopEntries_readRequest (entries : List Deferred) :
    snoopEntries r entries =
      match (entries.map Deferred.packet).findSome? r.servedFrom? with
      | some bytes => (entries, r.answeredWith bytes, true)
      | none => (entries, r, false) := by
  induction entries with
  | nil => rfl
  | cons e rest ih =>
    rw [snoopEntries, Packet.snoop_readRequest hread, List.map_cons, List.findSome?_cons]
    cases r.servedFrom? e.packet with
    | some bytes => simp [Packet.respond_of_read hread]
    | none =>
      simp only [Bool.false_eq_true, if_false, ih]
      cases (rest.map Deferred.packet).findSome? r.servedFrom? <;> rfl

variable {q q' : TransmitQueue} {access : Packet}

/-- A read that is served leaves the queue as it is and has the bytes of the first packet that can. -/
theorem of_snoop_served (h : q.snoop r = (q', access, true)) :
    q' = q ∧ ∃ bytes, q.bytesFor? r = some bytes ∧ access = r.answeredWith bytes := by
  rw [snoop, snoopEntries_readRequest hread] at h
  rw [bytesFor?, packets]
  cases hfirst : (q.entries.map Deferred.packet).findSome? r.servedFrom? with
  | none => simp [hfirst] at h
  | some bytes =>
    rw [hfirst] at h
    cases h
    exact ⟨rfl, bytes, rfl, rfl⟩

/-- A read that is not served leaves the queue as it is and goes on as it came. -/
theorem of_snoop_missed (h : q.snoop r = (q', access, false)) :
    q' = q ∧ access = r ∧ q.bytesFor? r = none := by
  rw [snoop, snoopEntries_readRequest hread] at h
  rw [bytesFor?, packets]
  cases hfirst : (q.entries.map Deferred.packet).findSome? r.servedFrom? with
  | some bytes => simp [hfirst] at h
  | none =>
    rw [hfirst] at h
    cases h
    exact ⟨rfl, rfl, rfl⟩

end TransmitQueue

/-! ### A functional read on a bridge -/

theorem Memory.perform_of_read (m : Memory) {r : Packet} (h : r.command = .readRequest) :
    m.perform r = (m, r.answeredWith (m.read r.address r.size)) := by
  rw [perform, h]
  rfl

namespace Bridge

variable {υ : Type} {b : Bridge υ Memory} {m : Memory} {r : Packet}

/-- The bytes for a read in the first waiting packet that carries all of them, responses first. -/
def waitingBytesFor? (b : Bridge υ Memory) (r : Packet) : Option (List UInt8) :=
  (b.front.responses.bytesFor? r).or (b.back.requests.bytesFor? r)

/-- A functional read succeeds and changes nothing. Its bytes are those of a waiting packet or the
memory's. -/
theorem functional_of_read (htarget : b.back.agent = some m) (hread : r.command = .readRequest)
    (htag : r.tag = none) :
    (b.functional r).answer = .ok () ∧
      (b.functional r).state =
        (b, (b.tagged r).answeredWith ((b.waitingBytesFor? r).getD (m.read r.address r.size))) := by
  have hread' : (b.tagged r).command = .readRequest := hread
  have hsame (q : TransmitQueue) : q.bytesFor? (b.tagged r) = q.bytesFor? r := rfl
  have hend := functionalAccess_functional b r
  generalize b.functional r = called at hend ⊢
  rw [waitingBytesFor?]
  cases hend with
  | alreadyTagged hexisting => rw [htag] at hexisting; contradiction
  | byResponse _ hresponses =>
    obtain ⟨rfl, bytes, hbytes, rfl⟩ := TransmitQueue.of_snoop_served hread' hresponses
    rw [← hsame, hbytes]
    exact ⟨rfl, rfl⟩
  | byRequest _ hresponses hrequests =>
    obtain ⟨rfl, rfl, hnone⟩ := TransmitQueue.of_snoop_missed hread' hresponses
    obtain ⟨rfl, bytes, hbytes, rfl⟩ := TransmitQueue.of_snoop_served hread' hrequests
    rw [← hsame, ← hsame b.back.requests, hnone, hbytes]
    exact ⟨rfl, rfl⟩
  | unbound _ _ _ hagent => rw [htarget] at hagent; contradiction
  | performed _ hresponses hrequests hagent hperform =>
    obtain ⟨rfl, rfl, hnone⟩ := TransmitQueue.of_snoop_missed hread' hresponses
    obtain ⟨rfl, rfl, hnone'⟩ := TransmitQueue.of_snoop_missed hread' hrequests
    rw [← hsame, ← hsame b.back.requests, hnone, hnone']
    obtain rfl := Option.some.inj (htarget.symm.trans hagent)
    obtain ⟨rfl, rfl⟩ := Prod.mk.inj ((m.perform_of_read hread').symm.trans hperform)
    refine ⟨rfl, ?_⟩
    simp only [withTarget, withQueues, ← htarget]
    rfl

end Bridge

end TimedBridge
