import TimedBridge.Proofs.Bridge.BeforeMemory

/-!
What a functional read observes in front of a memory. Its bytes come from the oldest packet that has all
of them, the waiting responses before the waiting requests, or else from the memory (`Serves`). A byte
is the one that the memory will hold once everything on its way has been performed, unless something
newer than the source stores there (`exists_observed`). The source is not the newest packet that has
the byte: a second write to an address that is still queued is overlooked (`functional_overlooks`).
-/

namespace TimedBridge

theorem Packet.isWrite_of_hasData {p : Packet} (hdata : p.command.hasData = true)
    (hrequest : p.command.isRequest = true) : p.isWrite = true := by
  rw [isWrite_iff]
  cases hcommand : p.command <;> simp_all [Command.hasData, Command.isRequest]

namespace Watched

variable {υ : Type} {w : Watched υ} {m : Memory} {r : Packet} {bytes : List UInt8}

/-- The requests that the memory has not performed, in the order in which it will. -/
def unperformed (w : Watched υ) (m : Memory) : List Packet :=
  m.inService ++ w.bridge.back.requests.packets

/-- Where the bytes of a functional read come from, and the accesses that are newer than they are. -/
inductive Serves (w : Watched υ) (m : Memory) (r : Packet) : List UInt8 → List Packet → Prop
  /-- The first waiting response that has them. -/
  | response {i : Nat} {p : Packet} {bytes : List UInt8} {missed : List Packet}
      (hp : w.bridge.front.responses.packets[i]? = some p) (hmissed : w.missed[i]? = some missed)
      (hserved : r.servedFrom? p = some bytes)
      (hfirst : ∀ q ∈ w.bridge.front.responses.packets.take i, r.servedFrom? q = none) :
      Serves w m r bytes (missed ++ w.unperformed m)
  /-- The first waiting request that has them, if no response does. -/
  | request {before after : List Packet} {p : Packet} {bytes : List UInt8}
      (hresponses : ∀ q ∈ w.bridge.front.responses.packets, r.servedFrom? q = none)
      (hrequests : w.bridge.back.requests.packets = before ++ p :: after)
      (hserved : r.servedFrom? p = some bytes) (hfirst : ∀ q ∈ before, r.servedFrom? q = none) :
      Serves w m r bytes after
  /-- The memory, if no packet has them. -/
  | memory (hresponses : ∀ q ∈ w.bridge.front.responses.packets, r.servedFrom? q = none)
      (hrequests : ∀ q ∈ w.bridge.back.requests.packets, r.servedFrom? q = none) :
      Serves w m r (m.read r.address r.size) (w.unperformed m)

/-- Every functional read has a source. -/
theorem exists_serves (m : Memory) (r : Packet)
    (hlength : w.missed.length = w.bridge.front.responses.packets.length) :
    ∃ newer, w.Serves m r ((w.bridge.waitingBytesFor? r).getD (m.read r.address r.size)) newer := by
  rw [Bridge.waitingBytesFor?]
  cases hresponse : w.bridge.front.responses.bytesFor? r with
  | some bytes =>
    obtain ⟨before, p, after, hsplit, hserved, hfirst⟩ := TransmitQueue.exists_of_bytesFor? hresponse
    have hlt : before.length < w.missed.length := by
      rw [hlength, hsplit]
      simp
    refine ⟨_, .response (i := before.length) (p := p) ?_ (List.getElem?_eq_getElem hlt) hserved ?_⟩
    · simp [hsplit]
    · simpa [hsplit] using hfirst
  | none =>
    have hresponses := List.findSome?_eq_none_iff.1 hresponse
    cases hrequest : w.bridge.back.requests.bytesFor? r with
    | some bytes =>
      obtain ⟨before, p, after, hsplit, hserved, hfirst⟩ := TransmitQueue.exists_of_bytesFor? hrequest
      exact ⟨after, .request hresponses hsplit hserved hfirst⟩
    | none => exact ⟨_, .memory hresponses (List.findSome?_eq_none_iff.1 hrequest)⟩

theorem Serves.length_eq {newer : List Packet} (h : w.Serves m r bytes newer) :
    bytes.length = r.size.toNat := by
  cases h with
  | response _ _ hserved => exact Packet.length_of_servedFrom? hserved
  | request _ _ hserved => exact Packet.length_of_servedFrom? hserved
  | memory => exact m.length_readFrom r.address r.size.toNat

/-- Where nothing newer stores, the bytes of the source are those that the memory will hold. -/
theorem Serves.observes {newer : List Packet} (h : w.Serves m r bytes newer)
    (hcurrent : List.Forall₂ (UpToDate m) w.bridge.front.responses.packets w.missed)
    (hqueued : ∀ d, ∀ p ∈ (w.bridge.queue d).packets, p.Fitting)
    (hrequest : ∀ p ∈ w.bridge.back.requests.packets, p.command.isRequest = true)
    (hspan : r.address.toNat + r.size.toNat < UInt64.size) {i : Nat} (hi : i < r.size.toNat)
    (hclear : ∀ q ∈ newer, ¬ q.StoresAt (r.address + UInt64.ofNat i)) :
    bytes[i]? = some ((m.deliver (w.unperformed m)).byteAt (r.address + UInt64.ofNat i)) := by
  have haddress := toNat_offset (Nat.lt_trans (Nat.add_lt_add_left hi _) hspan)
  obtain ⟨byte, hbyte⟩ : ∃ byte, bytes[i]? = some byte :=
    ⟨_, List.getElem?_eq_getElem (by rwa [h.length_eq])⟩
  rw [hbyte]
  cases h with
  | @response j p _ missed hp hmissed hserved =>
    rw [List.forall_mem_append] at hclear
    obtain ⟨hmissed', hunperformed⟩ := hclear
    rw [m.byteAt_deliver_of_apart hunperformed]
    obtain ⟨hj, rfl⟩ := List.getElem?_eq_some_iff.1 hp
    obtain ⟨hj', rfl⟩ := List.getElem?_eq_some_iff.1 hmissed
    have hup := (List.forall₂_iff_get.1 hcurrent).2 j hj hj'
    have hcarried := (Packet.byteFor?_of_servedFrom? hserved hi).trans hbyte
    rw [← haddress] at hcarried
    exact congrArg some (hup (Packet.hasData_of_servedFrom? hserved)
      (hqueued .response _ (List.getElem_mem hj)) _ byte hcarried hmissed').symm
  | @request before after p _ hresponses hrequests hserved =>
    have hp : p ∈ w.bridge.back.requests.packets := by simp [hrequests]
    have hwrite := Packet.isWrite_of_hasData (Packet.hasData_of_servedFrom? hserved) (hrequest p hp)
    have hcarried := (Packet.byteFor?_of_servedFrom? hserved hi).trans hbyte
    rw [← haddress] at hcarried
    rw [unperformed, hrequests, ← List.append_assoc]
    refine congrArg some (Memory.byteAt_deliver_of_last m (hqueued .request p hp) ?_ hclear).symm
    rw [Packet.storedAt?, if_pos hwrite, hcarried]
  | memory =>
    rw [m.byteAt_deliver_of_apart hclear, ← hbyte]
    exact m.getElem?_readFrom r.address hi

/-! ### What a functional read observes -/

/-- A functional read succeeds, changes nothing, and becomes its own response with as many bytes as it
asks for. They are those of its source, and each is the one that the memory will hold after it has
performed everything on its way, unless something newer than the source stores there. -/
structure Observes (w : Watched υ) (m : Memory) (r : Packet) (bytes : List UInt8)
    (newer : List Packet) : Prop where
  source : w.Serves m r bytes newer
  answer : (w.bridge.functional r).answer = .ok ()
  state : (w.bridge.functional r).state = (w.bridge, (w.bridge.tagged r).answeredWith bytes)
  length : bytes.length = r.size.toNat
  latest : ∀ i < r.size.toNat, (∀ q ∈ newer, ¬ q.StoresAt (r.address + UInt64.ofNat i)) →
    bytes[i]? = some ((m.deliver (w.unperformed m)).byteAt (r.address + UInt64.ofNat i))

theorem Sound.exists_observes [Initiator υ] (h : w.Sound) (htarget : w.bridge.back.agent = some m)
    (hqueued : ∀ d, ∀ p ∈ (w.bridge.queue d).packets, p.Fitting)
    (hrequest : ∀ p ∈ w.bridge.back.requests.packets, p.command.isRequest = true)
    (hread : r.command = .readRequest) (htag : r.tag = none)
    (hspan : r.address.toNat + r.size.toNat < UInt64.size) :
    ∃ bytes newer, w.Observes m r bytes newer := by
  obtain ⟨m', htarget', hcurrent⟩ := h.current
  obtain rfl := Option.some.inj (htarget.symm.trans htarget')
  obtain ⟨newer, hsource⟩ := w.exists_serves m r hcurrent.length_eq.symm
  obtain ⟨hanswer, hstate⟩ := Bridge.functional_of_read htarget hread htag
  exact ⟨_, newer, hsource, hanswer, hstate, hsource.length_eq, fun i hi =>
    hsource.observes hcurrent hqueued hrequest hspan hi⟩

variable [Initiator υ]

/-- In every run of a bridge of accepted settings in front of a memory, with whatever in service, a
functional read observes the latest byte of each address at which nothing is stored that is newer than
the packet that serves the read, or than the memory if none does. -/
theorem exists_observed {c : BridgeConfig} (name : String) (valid : c.validate = .ok ())
    (initiator : υ) (memory : Memory) (hkeeps : Bridge.KeepsRefused υ Memory .response) :
    ∃ b, Bridge.connected name c initiator memory = .ok b ∧
      ∀ (run : List (Tick × Happening υ)) (w : Watched υ) (m : Memory) (r : Packet),
        w = Watched.after { bridge := b } run → w.bridge.back.agent = some m →
        (∀ d, ∀ p ∈ (w.bridge.queue d).packets, p.Fitting) →
        (∀ p ∈ w.bridge.back.requests.packets, p.command.isRequest = true) →
        r.command = .readRequest → r.tag = none →
        r.address.toNat + r.size.toNat < UInt64.size → ∃ bytes newer, w.Observes m r bytes newer := by
  obtain ⟨b, hb, hfresh, -⟩ := Bridge.exists_connected name valid initiator memory
  refine ⟨b, hb, ?_⟩
  rintro run w m r rfl htarget hqueued hrequest hread htag hspan
  have hstart : Sound { bridge := b } := by
    refine ⟨hfresh.aligned, memory, (Bridge.agents_of_connected hb).2, ?_⟩
    rw [show b.front.responses.packets = [] from hfresh.packets_eq .response]
    exact .nil
  exact (hstart.after hkeeps run).exists_observes htarget hqueued hrequest hread htag hspan

/-- A read has been answered, and while its response waits, a write to the last two of its bytes is
queued. -/
def answeredRead : List (Tick × Happening Generator) :=
  [(0, .call (.submit (.read 1 0x100 4 0)) rfl), (1, .call (.attempt .request) rfl), (2, .complete),
    (2, .call (.submit (.write 2 0x102 [9, 9] 0)) rfl)]

/-- The memory after it has answered the read. -/
def readOnce : Memory := { Bridge.readyMemory with offered := 1, newlyAccepted := 1 }

/-- A functional read of the same bytes is served by the response, and its first two bytes are the latest
ones. -/
theorem observed_answeredRead :
    ∃ b, Bridge.connected "bridge" {} ({} : Generator) Bridge.readyMemory = .ok b ∧
      ∃ bytes newer,
        (Watched.after { bridge := b } answeredRead).Observes readOnce (.read 3 0x100 4 0) bytes newer := by
  have valid : ({} : BridgeConfig).validate = .ok () := rfl
  obtain ⟨b, hb, hobserved⟩ := exists_observed "bridge" valid ({} : Generator) Bridge.readyMemory
    (Bridge.keepsRefused_generator_memory .response)
  refine ⟨b, hb, ?_⟩
  obtain rfl := Except.ok.inj hb
  exact hobserved answeredRead _ _ _ rfl rfl (fun d => by cases d <;> decide +kernel)
    (by decide +kernel) rfl rfl (by decide)

/-- Two writes to the same bytes wait in the queue. -/
def rewritten : List (Tick × Happening Generator) :=
  [(0, .call (.submit (.write 1 0x100 [1, 1, 1, 1] 0)) rfl),
    (0, .call (.submit (.write 2 0x100 [2, 2, 2, 2] 0)) rfl)]

/-- A functional read is served by the older one. Nothing is in service and all bytes fit, but once both
writes have been performed the memory holds the bytes of the newer one. -/
theorem functional_overlooks :
    ∃ b, Bridge.connected "bridge" {} ({} : Generator) Bridge.readyMemory = .ok b ∧
      ∃ w : Watched Generator, w = Watched.after { bridge := b } rewritten ∧
        w.bridge.back.agent = some Bridge.readyMemory ∧ Bridge.readyMemory.inService = [] ∧
        (∀ d, ∀ p ∈ (w.bridge.queue d).packets, p.Fitting) ∧
        (w.bridge.functional (.read 3 0x100 4 0)).answer = .ok () ∧
        (w.bridge.functional (.read 3 0x100 4 0)).state.2.data = some [1, 1, 1, 1] ∧
        ∀ i < 4, (Bridge.readyMemory.deliver w.bridge.back.requests.packets).byteAt
          (0x100 + UInt64.ofNat i) = 2 := by
  refine ⟨_, rfl, _, rfl, rfl, rfl, fun d => ?_, rfl, by decide +kernel, fun i hi => ?_⟩
  · cases d <;> decide +kernel
  rw [Memory.byteAt_deliver _ (by decide +kernel)]
  revert i
  decide +kernel

end Watched

end TimedBridge
