import TimedBridge.Fault

/-!
Ranges of addresses, both ends included. A range that ends before it begins can be written down in a
configuration and holds no address; `ofBounds` refuses it.
-/

namespace TimedBridge

/-- The addresses from `first` to `last`, both included. -/
structure AddressRange where
  first : Address
  last : Address
  deriving DecidableEq, Repr

namespace AddressRange

/-- The whole address space. -/
def all : AddressRange := ⟨0, 0xffffffffffffffff⟩

/-- The range between two bounds, which must be in order. -/
def ofBounds (first last : Address) : Except ConfigFault AddressRange :=
  if last < first then .error (.invertedRange first last) else .ok ⟨first, last⟩

/-- The range that an access of `size` bytes at `address` touches, up to the top of the address
space. An access of no bytes touches one address. -/
def ofSpan (address : Address) (size : UInt64) : AddressRange :=
  ⟨address, cappedAdd address (if size = 0 then 0 else size - 1)⟩

/-- The number of addresses in a range whose bounds are in order; the whole space counts as the
largest word. -/
def size (r : AddressRange) : UInt64 := capped (r.last.toNat - r.first.toNat + 1)

/-- Whether an address lies in the range. -/
def contains (r : AddressRange) (a : Address) : Bool := r.first ≤ a && a ≤ r.last

/-- Whether the other range lies inside this one. -/
def covers (r other : AddressRange) : Bool := r.first ≤ other.first && other.last ≤ r.last

/-- Whether the two ranges share an address. -/
def meets (r other : AddressRange) : Bool := r.first ≤ other.last && other.first ≤ r.last

/-- The text of a range: both bounds in hexadecimal. -/
def text (r : AddressRange) : String := "[" ++ hexText r.first ++ ":" ++ hexText r.last ++ "]"

example : all.text = "[0x0:0xffffffffffffffff]" := by decide +kernel

end AddressRange

end TimedBridge
