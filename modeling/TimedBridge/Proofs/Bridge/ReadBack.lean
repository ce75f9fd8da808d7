import TimedBridge.Proofs.Bridge.FunctionalRead
import TimedBridge.Proofs.Bridge.FunctionalWrite

/-!
A functional read sees the functional write before it (`readsBack_functional`). The write has been laid
over every waiting packet and performed by the memory, so wherever the read takes its bytes from, those
for the addresses of the write are the write's.
-/

namespace TimedBridge

variable {w r : Packet} {bytes : List UInt8} {byte : UInt8} {i : Nat}

/-- A packet over which a write has been laid has the write's byte wherever it has one. -/
theorem Packet.byteFor?_of_laid {held : Packet} (hwrite : w.isWrite = true)
    (hdata : held.command.hasData = true) (hw : w.Sized) (hheld : held.Sized) {a : Nat}
    (ha : a < UInt64.size) (hbyte : w.byteFor? a = some byte) {found : UInt8}
    (hfound : (w.snoop held).held.byteFor? a = some found) : found = byte := by
  rw [byteFor?_snoop_of_sized hwrite hdata hw hheld, if_pos ha, patched?, hbyte] at hfound
  obtain ⟨own, -, hpatched⟩ := Option.map_eq_some_iff.1 hfound
  exact hpatched.symm

/-- Bytes that a read takes from a queue after a write has been laid over it. -/
theorem TransmitQueue.getElem?_of_bytesFor?_overwrite {q : TransmitQueue} (hwrite : w.isWrite = true)
    (hw : w.Sized) (hqueued : ∀ p ∈ q.packets, p.Sized)
    (hserved : (q.overwrite w).bytesFor? r = some bytes) (hi : i < r.size.toNat)
    (ha : r.address.toNat + i < UInt64.size) (hbyte : w.byteFor? (r.address.toNat + i) = some byte) :
    bytes[i]? = some byte := by
  obtain ⟨before, p, after, hsplit, hp, -⟩ := exists_of_bytesFor? hserved
  have hmem : p ∈ (q.overwrite w).packets := hsplit ▸ List.mem_append_right before List.mem_cons_self
  rw [packets_overwrite] at hmem
  obtain ⟨held, hheld, rfl⟩ := List.mem_map.1 hmem
  have hdata : held.command.hasData = true := by
    have hcommand := Packet.hasData_of_servedFrom? hp
    rw [Packet.snoop_of_isWrite hwrite] at hcommand
    exact hcommand
  obtain ⟨found, hfound⟩ : ∃ found, bytes[i]? = some found :=
    ⟨_, List.getElem?_eq_getElem (by rwa [Packet.length_of_servedFrom? hp])⟩
  rw [hfound, Packet.byteFor?_of_laid hwrite hdata hw (hqueued held hheld) ha hbyte
    ((Packet.byteFor?_of_servedFrom? hp hi).trans hfound)]

/-- Bytes that a read takes from a memory that has performed a write. -/
theorem Memory.getElem?_read_perform (m : Memory) (hwrite : w.isWrite = true) (hw : w.Sized)
    (hi : i < r.size.toNat) (ha : r.address.toNat + i < UInt64.size)
    (hbyte : w.byteFor? (r.address.toNat + i) = some byte) :
    ((m.perform w).1.read r.address r.size)[i]? = some byte := by
  rw [read, getElem?_readFrom _ _ hi, m.perform_of_isWrite hwrite]
  rw [← toNat_offset ha] at hbyte
  generalize r.address + UInt64.ofNat i = a at hbyte ⊢
  cases hdata : w.data with
  | none =>
    rw [Packet.byteFor?, hdata] at hbyte
    simp at hbyte
  | some source =>
    have hlength : source.length ≤ UInt64.size :=
      hw.of_isWrite hwrite hdata ▸ Nat.le_of_lt w.size.toNat_lt
    rw [Packet.byteFor?_of_data hdata] at hbyte
    rw [Option.elim_some, byteAt_store m _ _ hlength]
    split at hbyte
    next hle =>
      rw [UInt64.toNat_sub_of_le _ _ (UInt64.le_iff_toNat_le.2 hle), hbyte]
      rfl
    next => contradiction

namespace Bridge

variable {υ : Type} {b : Bridge υ Memory} {m : Memory}

/-- The functional read `r` succeeds, changes nothing, and comes back as a response that carries `bytes`,
as many as it asked for. At each address of the write `w` it has the byte of `w`. -/
structure ReadsBack (b : Bridge υ Memory) (w r : Packet) (bytes : List UInt8) : Prop where
  answer : (b.functional r).answer = .ok ()
  state : (b.functional r).state =
    (b, { b.tagged r with command := .readResponse, data := some bytes })
  length : bytes.length = r.size.toNat
  written : ∀ i < r.size.toNat, r.address.toNat + i < UInt64.size →
    ∀ byte, w.byteFor? (r.address.toNat + i) = some byte → bytes[i]? = some byte

/-- The bytes of a read are as many as it asks for, wherever they come from. -/
theorem length_of_waitingBytesFor? (hbytes : b.waitingBytesFor? r = some bytes) :
    bytes.length = r.size.toNat := by
  rw [waitingBytesFor?, Option.or_eq_some_iff] at hbytes
  rcases hbytes with hbytes | ⟨-, hbytes⟩
  all_goals
    obtain ⟨-, p, -, -, hp, -⟩ := TransmitQueue.exists_of_bytesFor? hbytes
    exact Packet.length_of_servedFrom? hp

/-- After a functional write, a functional read sees it. The waiting packets and both accesses carry as
many bytes as their sizes say, wherever those end and however they overlap. -/
theorem readsBack_functional (htarget : b.back.agent = some m)
    (hqueued : ∀ d, ∀ p ∈ (b.queue d).packets, p.Sized) (hwrite : w.isWrite = true) (hw : w.Sized)
    (huntagged : w.tag = none) (hread : r.command = .readRequest) (hrtag : r.tag = none) :
    (b.functional w).answer = .ok () ∧ ∃ bytes, (b.functional w).state.1.ReadsBack w r bytes := by
  have hwrite' : (b.tagged w).isWrite = true := hwrite
  have hw' : (b.tagged w).Sized := hw
  rw [functional_of_isWrite htarget hwrite huntagged]
  obtain ⟨b', hb'⟩ : ∃ b', (b.withQueues (b.front.responses.overwrite (b.tagged w))
      (b.back.requests.overwrite (b.tagged w))).withTarget
        (Target.functional m (b.tagged w)).1 = b' := ⟨_, rfl⟩
  rw [hb']
  have htarget' : b'.back.agent = some (m.perform (b.tagged w)).1 := hb' ▸ rfl
  have hresponses : b'.front.responses = b.front.responses.overwrite (b.tagged w) := hb' ▸ rfl
  have hrequests : b'.back.requests = b.back.requests.overwrite (b.tagged w) := hb' ▸ rfl
  obtain ⟨hanswer, hstate⟩ := functional_of_read htarget' hread hrtag
  have hresponse (bytes : List UInt8) : (b'.tagged r).answeredWith bytes =
      { b'.tagged r with command := .readResponse, data := some bytes } := by
    simp [Packet.answeredWith, Packet.respond, tagged, hread, Command.response?]
  refine ⟨rfl, (b'.waitingBytesFor? r).getD ((m.perform (b.tagged w)).1.read r.address r.size), ?_⟩
  refine ⟨hanswer, hstate.trans (congrArg _ (hresponse _)), ?_, fun i hi ha byte hbyte => ?_⟩
  · cases hwaiting : b'.waitingBytesFor? r with
    | none => exact Memory.length_readFrom ..
    | some bytes => exact length_of_waitingBytesFor? hwaiting
  · -- The read is served by a waiting response, by a waiting request or by the memory.
    have hbyte' : (b.tagged w).byteFor? (r.address.toNat + i) = some byte := hbyte
    cases hwaiting : b'.waitingBytesFor? r with
    | none => exact m.getElem?_read_perform hwrite' hw' hi ha hbyte'
    | some bytes =>
      rw [waitingBytesFor?, hresponses, hrequests, Option.or_eq_some_iff] at hwaiting
      rcases hwaiting with hserved | ⟨-, hserved⟩
      · exact TransmitQueue.getElem?_of_bytesFor?_overwrite hwrite' hw' (hqueued .response) hserved hi
          ha hbyte'
      · exact TransmitQueue.getElem?_of_bytesFor?_overwrite hwrite' hw' (hqueued .request) hserved hi
          ha hbyte'

/-- The response to a read waits on its way back, and a write on its way there. -/
def dataUnderway : List (Tick × Operation Generator Memory) :=
  [(0, .bindInitiator {}), (0, .bindTarget readyMemory), (0, .submit (.read 1 0x100 4 0)),
    (1, .attempt .request),
    (2, .respond { (Packet.read 1 0x100 4 0).respond with data := some [7, 7, 7, 7] }),
    (2, .submit (.write 2 0x104 [2, 2, 2, 2] 0))]

/-- A write that overlaps both of them. -/
def middleWrite : Packet := .write 3 0x102 [9, 9, 9, 9] 0

/-- Reads that are served by the response, by the waiting write and by the memory. -/
def threeSources : List Packet := [.read 4 0x101 3 0, .read 5 0x104 2 0, .read 6 0x101 8 0]

theorem readsBack_middleWrite :
    ∃ b : Bridge Generator Memory, ofConfig "bridge" {} = .ok b ∧
      ((b.after dataUnderway).functional middleWrite).answer = .ok () ∧
      (∀ r ∈ threeSources, ∃ bytes,
        ((b.after dataUnderway).functional middleWrite).state.1.ReadsBack middleWrite r bytes) ∧
      threeSources.map
          ((b.after dataUnderway).functional middleWrite).state.1.waitingBytesFor? =
        [some [7, 9, 9], some [9, 9], none] := by
  obtain ⟨b, hb, -⟩ : ∃ b : Bridge Generator Memory, _ ∧ b.Fresh {} := exists_ofConfig "bridge" rfl
  refine ⟨b, hb, ?_⟩
  obtain rfl := Except.ok.inj hb
  refine ⟨rfl, fun r hr => ?_, by decide +kernel⟩
  have hreads : ∀ r ∈ threeSources, r.command = .readRequest ∧ r.tag = none := by decide
  obtain ⟨hread, huntagged⟩ := hreads r hr
  refine (readsBack_functional rfl (fun d => ?_) rfl (by decide) rfl hread huntagged).2
  cases d <;> decide +kernel

end Bridge

end TimedBridge
