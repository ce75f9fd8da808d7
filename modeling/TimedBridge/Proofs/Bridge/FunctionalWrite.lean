import TimedBridge.Proofs.Bridge.Credit
import TimedBridge.Proofs.Bridge.UntimedCalls
import TimedBridge.Proofs.Deliveries

/-!
A functional write comes after everything that is queued. It is laid over every queued write and then
performed at once, and when the queued requests are delivered after that, the memory is the one that
performs the write last (`functional_after_queued`).
-/

namespace TimedBridge

/-! ### A functional write meets a queue -/

namespace TransmitQueue

/-- The queue after a functional write has been laid over every waiting packet. -/
def overwrite (q : TransmitQueue) (w : Packet) : TransmitQueue :=
  { q with entries := q.entries.map fun e => { e with packet := (w.snoop e.packet).held } }

theorem packets_overwrite (q : TransmitQueue) (w : Packet) :
    (q.overwrite w).packets = q.packets.map fun p => (w.snoop p).held := by
  rw [packets, overwrite, packets, List.map_map, List.map_map]
  rfl

theorem snoopEntries_of_isWrite {w : Packet} (h : w.isWrite = true) (entries : List Deferred) :
    snoopEntries w entries =
      (entries.map fun e => { e with packet := (w.snoop e.packet).held }, w, false) := by
  induction entries with
  | nil => rfl
  | cons e rest ih =>
    rw [snoopEntries, Packet.snoop_of_isWrite h]
    simp only [ih]
    rw [List.map_cons, Packet.snoop_of_isWrite h]
    rfl

/-- A functional write meets every waiting packet and goes on as it came. -/
theorem snoop_of_isWrite {w : Packet} (h : w.isWrite = true) (q : TransmitQueue) :
    q.snoop w = (q.overwrite w, w, false) := by
  rw [snoop, snoopEntries_of_isWrite h]
  rfl

end TransmitQueue

/-! ### A functional write on a bridge -/

namespace Bridge

/-- A functional write is laid over both queues and performed at once. -/
theorem functional_of_isWrite {υ δ : Type} [Target δ] {b : Bridge υ δ} {agent : δ} {w : Packet}
    (htarget : b.back.agent = some agent) (hwrite : w.isWrite = true) (htag : w.tag = none) :
    b.functional w =
      ⟨((b.withQueues (b.front.responses.overwrite (b.tagged w))
            (b.back.requests.overwrite (b.tagged w))).withTarget
          (Target.functional agent (b.tagged w)).1, (Target.functional agent (b.tagged w)).2),
        [.functional (b.tagged w)], .ok ()⟩ := by
  have hsnoop := TransmitQueue.snoop_of_isWrite (w := b.tagged w) hwrite
  rw [tagged] at hsnoop
  simp only [functional, Packet.withTag, htag, snoopResponses, snoopRequests, hsnoop,
    forwardFunctional, htarget]
  rfl

variable {υ : Type} {b : Bridge υ Memory} {m : Memory} {w : Packet}

/-- To make a functional write and deliver the queued requests after it gives, byte for byte, the memory
of delivering them first and performing the write last. However the queued writes overlap the functional
one and each other, it comes after all of them. -/
theorem functional_after_queued (htarget : b.back.agent = some m)
    (hqueued : ∀ p ∈ b.back.requests.packets, p.Fitting) (hwrite : w.isWrite = true)
    (hfits : w.Fitting) (htag : w.tag = none) :
    (b.functional w).answer = .ok () ∧
      ∃ m', (b.functional w).state.1.back.agent = some m' ∧
        ∀ a, (m'.deliver (b.functional w).state.1.back.requests.packets).byteAt a =
          ((m.deliver b.back.requests.packets).perform w).1.byteAt a := by
  rw [functional_of_isWrite htarget hwrite htag]
  refine ⟨rfl, _, rfl, fun a => ?_⟩
  have hwrite' : (b.tagged w).isWrite = true := hwrite
  have hfits' : (b.tagged w).Fitting := hfits
  have hpatched : ∀ p ∈ (b.back.requests.overwrite (b.tagged w)).packets, p.Fitting := by
    rw [TransmitQueue.packets_overwrite, List.forall_mem_map]
    exact fun p hp => ((b.tagged w).overwritten_snoop p).fitting (hqueued p hp)
  calc
    _ = Packet.byteAfter a ((m.perform (b.tagged w)).1.byteAt a)
          (b.back.requests.overwrite (b.tagged w)).packets := Memory.byteAt_deliver _ hpatched a
    _ = Packet.byteAfter a (((b.tagged w).storedAt? a).getD (m.byteAt a))
          (b.back.requests.packets.map fun p => ((b.tagged w).snoop p).held) := by
      rw [m.byteAt_perform hfits', TransmitQueue.packets_overwrite]
    _ = (w.storedAt? a).getD (Packet.byteAfter a (m.byteAt a) b.back.requests.packets) :=
      Packet.byteAfter_snoop hwrite' hfits' hqueued a _
    _ = _ := by rw [Memory.byteAt_perform _ hfits, m.byteAt_deliver hqueued]

/-- Three writes that overlap each other wait in the queue. -/
def overlappingWrites : List (Tick × Operation Generator Memory) :=
  [(0, .bindInitiator {}), (0, .bindTarget readyMemory),
    (0, .submit (.write 1 0x100 [1, 1, 1, 1] 0)), (0, .submit (.writeback 2 0x102 [2, 2, 2, 2] 0)),
    (0, .submit (.write 3 0xff [3, 3, 3] 0))]

/-- A write that overlaps them all. -/
def coveringWrite : Packet := .write 4 0x101 [9, 9, 9] 0

theorem functional_after_overlappingWrites :
    ∃ b : Bridge Generator Memory, ofConfig "bridge" {} = .ok b ∧
      ((b.after overlappingWrites).functional coveringWrite).state.1.back.requests.packets.map
          Packet.data = [some [1, 9, 9, 9], some [9, 9, 2, 2], some [3, 3, 9]] ∧
      ∃ m', ((b.after overlappingWrites).functional coveringWrite).state.1.back.agent = some m' ∧
        ∀ a, (m'.deliver ((b.after overlappingWrites).functional
            coveringWrite).state.1.back.requests.packets).byteAt a =
          ((readyMemory.deliver (b.after overlappingWrites).back.requests.packets).perform
            coveringWrite).1.byteAt a := by
  obtain ⟨b, hb, -⟩ : ∃ b : Bridge Generator Memory, _ ∧ b.Fresh {} := exists_ofConfig "bridge" rfl
  refine ⟨b, hb, ?_⟩
  obtain rfl := Except.ok.inj hb
  refine ⟨by decide +kernel, ?_⟩
  exact (functional_after_queued rfl (by decide +kernel) rfl (by decide +kernel) rfl).2

end Bridge

end TimedBridge
