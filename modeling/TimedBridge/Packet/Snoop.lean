import TimedBridge.Packet

/-!
A functional access meets a packet that is still on its way. A read takes its bytes from the packet
if the packet holds all of them; a write lays its bytes over those that the packet carries for the
same addresses, so that the packet, when it arrives, does not undo the write. Only a served read ends
the access.
-/

namespace TimedBridge

/-- The `count` bytes from position `start` on, if the list reaches that far. -/
def bytesAt? (bytes : List UInt8) (start count : Nat) : Option (List UInt8) :=
  if start + count ≤ bytes.length then some ((bytes.drop start).take count) else none

/-- The list with `patch` written over it from position `start` on. -/
def overlayAt (bytes : List UInt8) (start : Nat) (patch : List UInt8) : List UInt8 :=
  bytes.take start ++ patch ++ bytes.drop (start + patch.length)

theorem length_of_bytesAt? {bytes found : List UInt8} {start count : Nat}
    (h : bytesAt? bytes start count = some found) : found.length = count := by
  simp only [bytesAt?, Option.ite_none_right_eq_some, Option.some.injEq] at h
  obtain ⟨hle, rfl⟩ := h
  simp only [List.length_take, List.length_drop]
  omega

theorem length_overlayAt {bytes patch : List UInt8} {start : Nat}
    (h : start + patch.length ≤ bytes.length) :
    (overlayAt bytes start patch).length = bytes.length := by
  simp only [overlayAt, List.length_append, List.length_take, List.length_drop]
  omega

namespace Packet

/-- The bytes that the read `access` wants, if `held` carries all of them. -/
def servedFrom? (access held : Packet) : Option (List UInt8) :=
  if held.command.hasData && held.footprint.covers access.footprint then
    held.data.bind fun bytes =>
      bytesAt? bytes (access.address.toNat - held.address.toNat) access.size.toNat
  else none

/-- The bytes `held` carries after the write `access` has been laid over them, if it changes them. -/
def overlaid? (access held : Packet) : Option (List UInt8) :=
  let mine := access.footprint
  let theirs := held.footprint
  if held.command.hasData && mine.meets theirs then
    let first := max mine.first.toNat theirs.first.toNat
    let count := min mine.last.toNat theirs.last.toNat - first + 1
    let position := first - held.address.toNat
    match access.data, held.data with
    | some source, some bytes =>
      if position + count ≤ bytes.length then
        (bytesAt? source (first - access.address.toNat) count).map (overlayAt bytes position)
      else none
    | _, _ => none
  else none

/-- What a functional access and a packet on its way have made of each other. -/
structure Snooped where
  access : Packet
  held : Packet
  /-- The access is complete and travels no further. -/
  served : Bool
  deriving DecidableEq, Repr

/-- Lets the functional access `access` look at the packet `held`. -/
def snoop (access held : Packet) : Snooped :=
  match access.command with
  | .readRequest =>
    match access.servedFrom? held with
    | some bytes => ⟨{ access with data := some bytes }, held, true⟩
    | none => ⟨access, held, false⟩
  | .writeRequest | .writeback =>
    match access.overlaid? held with
    | some bytes => ⟨access, { held with data := some bytes }, false⟩
    | none => ⟨access, held, false⟩
  | .readResponse | .writeResponse => ⟨access, held, false⟩

end Packet

end TimedBridge
